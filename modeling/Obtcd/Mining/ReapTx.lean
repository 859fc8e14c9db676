import Obtcd.Blockchain.ReapSpec

/-!
# The miner's REAP classifier

Package `mining/reap` has a classifier of its own, `IsLikelyREAPTx`, which the mempool uses.  It
follows `blockchain.isLikelyReapTx` in everything but the marker script: here a marker must start
with `OP_RETURN`, there it is enough that the first datum the script pushes is a marker payload.
`isLikelyREAPTx_iff` is the difference.
-/

namespace Obtcd.Mining

/-- `reap.ExtractMarkerPayload`. -/
def extractMarkerPayload (pkScript : Bytes) : Option Bytes :=
  if pkScript.head? ≠ some Txscript.opReturn then none
  else
    match Txscript.pushedData pkScript with
    | some (data :: _) => some data
    | _ => none

/-- `reap.IsLikelyREAPTx`. -/
def isLikelyREAPTx (tx : MsgTx) : Bool :=
  if tx.version ≠ reapTxVersion then false
  else
    match tx.txOut.getLast? with
    | none => false
    | some markerOut =>
      if markerOut.value ≠ 0 then false
      else
        match extractMarkerPayload markerOut.pkScript with
        | none => false
        | some marker => (reapTag ++ [reapSep]).isPrefixOf marker

/-- The last output's script starts with `OP_RETURN`. -/
def markerReturns (tx : MsgTx) : Bool :=
  (tx.txOut.getLast?.bind fun o => o.pkScript.head?) == some Txscript.opReturn

theorem extractMarkerPayload_eq (pkScript : Bytes) :
    extractMarkerPayload pkScript =
      if pkScript.head? = some Txscript.opReturn then Obtcd.extractMarkerPayload pkScript
      else none := by
  rw [extractMarkerPayload, Obtcd.extractMarkerPayload]
  by_cases h : pkScript.head? = some Txscript.opReturn
  · rw [if_neg (not_not.2 h)]
    exact (if_pos h).symm
  · rw [if_pos h, if_neg h]

/-- The miner's classifier accepts what consensus takes for REAP and starts with `OP_RETURN`. -/
theorem isLikelyREAPTx_iff (tx : MsgTx) :
    isLikelyREAPTx tx = true ↔ isLikelyReapTx tx = true ∧ markerReturns tx = true := by
  unfold isLikelyREAPTx isLikelyReapTx markerReturns
  by_cases hv : tx.version = reapTxVersion
  · rw [if_neg (not_not.2 hv), if_neg (not_not.2 hv)]
    cases hlast : tx.txOut.getLast? with
    | none => simp
    | some marker =>
      dsimp only
      rw [extractMarkerPayload_eq]
      by_cases hval : marker.value = 0
      · by_cases hret : marker.pkScript.head? = some Txscript.opReturn
        · rw [if_pos hret]
          cases Obtcd.extractMarkerPayload marker.pkScript <;> simp [hval, hret]
        · simp [hval, hret]
      · simp [hval]
  · simp [hv]

end Obtcd.Mining
