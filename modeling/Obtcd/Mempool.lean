import Obtcd.Mining.ReapTx

/-!
# Acceptance into the memory pool

`checkMempoolAcceptance` with all its stages: what it refuses before it looks at a transaction's
inputs, the REAP gate, double spends within the pool, orphans, the inputs, standardness, sequence
locks, signature operations, relay fees, replacement, and the scripts.

Left abstract, as fields of `Config`, are the standardness rules, which classify scripts, and the
relay priority and rate limiter, which compute with floating point numbers and the clock.  The walks
over the pool's ancestors and descendants are recursions with the size of the pool as fuel; a chain
of unconfirmed transactions is no longer than that.

`mempool_rejects_iff` settles which transactions that consensus takes for REAP get past the gate,
and `accepts_reap` is one that is accepted.
-/

namespace Obtcd.Mempool

open Chaincfg (Params)

/-- `wire.RejectCode`, the codes used here. -/
inductive RejectCode where
  | invalid
  | duplicate
  | nonstandard
  | dust
  | insufficientFee
deriving DecidableEq, Repr

/-- What an acceptance check fails with: a mempool `RuleError` around a transaction rule error or a
chain rule error, or any other error. -/
inductive TxError where
  | txRule (code : RejectCode) (description : String)
  | chainRule (e : GoError)
  | other (e : GoError)
deriving DecidableEq, Repr

def TxError.text : TxError → String
  | txRule _ description => description
  | chainRule e => e.text
  | other e => e.text

/-- `extractRejectCode`, for the chain rules that a transaction can break. -/
def TxError.rejectCode : TxError → Option RejectCode
  | txRule code _ => some code
  | chainRule _ => some .invalid
  | other _ => none

/-- A chain error is passed on, as a rule error if it is one. -/
def liftChain {α : Type} : Except GoError α → Except TxError α
  | .ok a => .ok a
  | .error e => .error (if e.isRule then .chainRule e else .other e)

structure TxDesc where
  tx : MsgTx
  fee : Int64
  feePerKB : Int64

/-- `TxPool`: the pool, the orphans and which pool transaction spends an outpoint. -/
structure Pool where
  pool : OrdMap Hash TxDesc
  orphans : OrdMap Hash MsgTx
  outpoints : OrdMap OutPoint MsgTx

/-- `Policy`, and the chain the pool sits on. -/
structure Config where
  consensus : Consensus
  /-- The best tip. -/
  tip : BlockNode
  /-- What the UTXO cache answers. -/
  fetchEntry : OutPoint → Option UtxoEntry
  acceptNonStd : Bool
  rejectReplacement : Bool
  disableRelayPriority : Bool
  maxSigOpCostPerTx : Nat
  minRelayTxFee : Int64
  /-- `CheckTransactionStandard` at a height and a median time. -/
  checkTransactionStandard : MsgTx → Int32 → Int → Except TxError Unit
  /-- `checkInputsStandard`. -/
  checkInputsStandard : MsgTx → UtxoViewpoint → Except TxError Unit
  /-- The comparison `(priority <= minimum)`, if the priority is too low. -/
  insufficientPriority : MsgTx → UtxoViewpoint → Int32 → Option String
  /-- Is the rate limiter full? -/
  rateLimited : Bool

def maxRBFSequence : UInt32 := 0xfffffffd
def maxReplacementEvictions : Nat := 100
def minStandardTxNonWitnessSize : Nat := 65
def defaultBlockPrioritySize : Int64 := 50000
def simNet : UInt32 := 0x12141c16

/-- `txscript.StandardVerifyFlags`: the first twenty-one flags but `ScriptVerifySigPushOnly`. -/
def standardVerifyFlags : ScriptFlags := 0x1ffbff

/-! ## Before the inputs -/

def validateSegWitDeployment (cfg : Config) (tx : MsgTx) : Except TxError Unit :=
  if !tx.hasWitness then .ok ()
  else
    match cfg.consensus.deploymentActive cfg.tip.hash .segwit with
    | .error e => .error (.other e)
    | .ok true => .ok ()
    | .ok false =>
      let simnetHint := if cfg.consensus.params.net = simNet then
        " (The threshold for segwit activation is 300 blocks on simnet, current best height is " ++
          toString cfg.tip.height ++ ")" else ""
      .error (.txRule .nonstandard ("transaction " ++ tx.txHash.string ++
        " has witness data, but segwit isn't active yet" ++ simnetHint))

/-- The stages of `checkMempoolAcceptance` before the REAP gate. -/
def checkStandalone (cfg : Config) (mp : Pool) (tx : MsgTx) (rejectDupOrphans : Bool) :
    Except TxError Unit := do
  validateSegWitDeployment cfg tx
  if (mp.pool[tx.txHash]?).isSome || rejectDupOrphans && (mp.orphans[tx.txHash]?).isSome then
    .error (.txRule .duplicate ("already have transaction in mempool " ++ tx.txHash.string))
  else if tx.baseSize < minStandardTxNonWitnessSize then
    .error (.txRule .nonstandard ("tx " ++ tx.txHash.string ++ " is too small"))
  else do
    liftChain (checkTransactionSanity tx)
    if isCoinBaseTx tx then
      .error (.txRule .invalid ("transaction is an individual coinbase " ++ tx.txHash.string))
    else .ok ()

/-! ## Replacement -/

/-- `signalsReplacement`, without its cache. -/
def signalsReplacement (mp : Pool) : Nat → MsgTx → Bool
  | 0, tx => tx.txIn.any fun ti => ti.sequence ≤ maxRBFSequence
  | fuel + 1, tx => tx.txIn.any fun ti =>
    ti.sequence ≤ maxRBFSequence ||
      match mp.pool[ti.previousOutPoint.hash]? with
      | none => false
      | some ancestor => signalsReplacement mp fuel ancestor.tx

/-- Does the transaction replace one of the pool? -/
def checkPoolDoubleSpend (cfg : Config) (mp : Pool) : List TxIn → Except TxError Bool
  | [] => .ok false
  | ti :: tis =>
    match mp.outpoints[ti.previousOutPoint]? with
    | none => checkPoolDoubleSpend cfg mp tis
    | some conflict =>
      if cfg.rejectReplacement || !signalsReplacement mp mp.pool.size conflict then
        .error (.txRule .duplicate ("output already spent in mempool: output=" ++
          ti.previousOutPoint.string ++ ", tx=" ++ conflict.txHash.string))
      else do
        let _ ← checkPoolDoubleSpend cfg mp tis
        .ok true

/-- All entries of the second map over those of the first (`maps.Copy`). -/
def copyTxs (m m' : OrdMap Hash MsgTx) : OrdMap Hash MsgTx :=
  m'.toList.foldl (fun m x => m.insert x.1 x.2) m

/-- `txAncestors`, without its cache. -/
def txAncestors (mp : Pool) : Nat → MsgTx → OrdMap Hash MsgTx
  | 0, _ => ∅
  | fuel + 1, tx => tx.txIn.foldl (fun m ti =>
    match mp.pool[ti.previousOutPoint.hash]? with
    | none => m
    | some parent => copyTxs (m.insert parent.tx.txHash parent.tx) (txAncestors mp fuel parent.tx)) ∅

/-- `txDescendants`, without its cache. -/
def txDescendants (mp : Pool) : Nat → MsgTx → OrdMap Hash MsgTx
  | 0, _ => ∅
  | fuel + 1, tx => tx.outPoints.foldl (fun m op =>
    match mp.outpoints[op]? with
    | none => m
    | some child => copyTxs (m.insert child.txHash child) (txDescendants mp fuel child)) ∅

def txConflicts (mp : Pool) (tx : MsgTx) : OrdMap Hash MsgTx :=
  tx.txIn.foldl (fun m ti =>
    match mp.outpoints[ti.previousOutPoint]? with
    | none => m
    | some conflict =>
      copyTxs (m.insert conflict.txHash conflict) (txDescendants mp mp.pool.size conflict)) ∅

def getTxVirtualSize (tx : MsgTx) : Int64 :=
  Int64.ofNat ((getTransactionWeight tx + (witnessScaleFactor - 1)) / witnessScaleFactor)

def calcMinRequiredTxRelayFee (serializedSize minRelayTxFee : Int64) : Int64 :=
  let minFee := serializedSize * minRelayTxFee / 1000
  let minFee := if minFee = 0 && minRelayTxFee > 0 then minRelayTxFee else minFee
  if minFee < 0 || minFee > maxSatoshi then maxSatoshi else minFee

/-- The loop of `validateReplacement` over the conflicts: the fees they pay. -/
def checkConflictFees (mp : Pool) (tx : MsgTx) (txFeeRate : Int64) :
    Int64 → List (Hash × MsgTx) → Except TxError Int64
  | fees, [] => .ok fees
  | fees, (hash, _) :: conflicts =>
    match mp.pool[hash]? with
    | none => .error (.other (.panic "runtime error: invalid memory address or nil pointer"))
    | some desc =>
      if txFeeRate ≤ desc.feePerKB then
        .error (.txRule .insufficientFee (tx.txHash.string ++
          ": replacement transaction has an insufficient fee rate: needs more than " ++
          toString desc.feePerKB ++ ", has " ++ toString txFeeRate))
      else checkConflictFees mp tx txFeeRate (fees + desc.fee) conflicts

def validateReplacement (cfg : Config) (mp : Pool) (tx : MsgTx) (txFee : Int64) :
    Except TxError (OrdMap Hash MsgTx) :=
  let conflicts := txConflicts mp tx
  if conflicts.size > maxReplacementEvictions then
    .error (.txRule .nonstandard (tx.txHash.string ++
      ": replacement transaction evicts more transactions than permitted: max is " ++
      toString maxReplacementEvictions ++ ", evicts " ++ toString conflicts.size))
  else
    match (txAncestors mp mp.pool.size tx).toList.find? fun x => (conflicts[x.1]?).isSome with
    | some (ancestorHash, _) =>
      .error (.txRule .invalid (tx.txHash.string ++
        ": replacement transaction spends parent transaction " ++ ancestorHash.string))
    | none => do
      let txSize := getTxVirtualSize tx
      let conflictsFee ← checkConflictFees mp tx (txFee * 1000 / txSize) 0 conflicts.toList
      let conflictsParents := conflicts.toList.flatMap fun x =>
        x.2.txIn.map fun ti => ti.previousOutPoint.hash
      let minFee := calcMinRequiredTxRelayFee txSize cfg.minRelayTxFee
      if txFee < conflictsFee + minFee then
        .error (.txRule .insufficientFee (tx.txHash.string ++
          ": replacement transaction has an insufficient absolute fee: needs " ++
          toString (conflictsFee + minFee) ++ ", has " ++ toString txFee))
      else
        match tx.txIn.find? fun ti => !conflictsParents.contains ti.previousOutPoint.hash &&
            (mp.pool[ti.previousOutPoint.hash]?).isSome with
        | some ti =>
          .error (.txRule .invalid ("replacement transaction spends new unconfirmed input " ++
            ti.previousOutPoint.string ++ " not found in conflicting transactions"))
        | none => .ok conflicts

/-! ## The inputs -/

/-- Outputs of pool transactions count as unspent. -/
def fetchInputUtxos (cfg : Config) (mp : Pool) (tx : MsgTx) : UtxoViewpoint :=
  tx.txIn.foldl (fun v ti =>
    if (v.unspent ti.previousOutPoint).isSome then v
    else
      match mp.pool[ti.previousOutPoint.hash]? with
      | none => v
      | some desc =>
        match desc.tx.txOut[ti.previousOutPoint.index.toNat]? with
        | none => v
        | some o => v.addTxOut (desc.tx.outPoint ti.previousOutPoint.index.toNat) o
            (isCoinBaseTx desc.tx) unminedInputHeight)
    (UtxoViewpoint.fetchUtxoView cfg.fetchEntry tx)

/-- The transaction's own outputs are taken out of the view; one that is unspent means that the
transaction is in the chain. -/
def removeOwnOutputs : UtxoViewpoint → List OutPoint → Except TxError UtxoViewpoint
  | v, [] => .ok v
  | v, op :: ops =>
    if (v.unspent op).isSome then
      .error (.txRule .duplicate "transaction already exists in blockchain")
    else removeOwnOutputs { v with entries := v.entries.erase op } ops

/-- The parents that are missing from a view. -/
def missingParents (v : UtxoViewpoint) : List Hash :=
  v.entries.toList.filterMap fun x =>
    if x.2.all fun e => e.spent then some x.1.hash else none

def validateStandardness (cfg : Config) (tx : MsgTx) (nextBlockHeight : Int32)
    (medianTimePast : Int) (v : UtxoViewpoint) : Except TxError Unit :=
  if cfg.acceptNonStd then .ok ()
  else
    match cfg.checkTransactionStandard tx nextBlockHeight medianTimePast with
    | .error e =>
      .error (.txRule (e.rejectCode.getD .nonstandard)
        ("transaction " ++ tx.txHash.string ++ " is not standard: " ++ e.text))
    | .ok () =>
      match cfg.checkInputsStandard tx v with
      | .error e =>
        .error (.txRule (e.rejectCode.getD .nonstandard)
          ("transaction " ++ tx.txHash.string ++ " has a non-standard input: " ++ e.text))
      | .ok () => .ok ()

def validateSigCost (cfg : Config) (tx : MsgTx) (v : UtxoViewpoint) : Except TxError Unit := do
  let sigOpCost ← liftChain (getSigOpCost cfg.consensus.engine tx false v true true)
  if sigOpCost ≤ cfg.maxSigOpCostPerTx then .ok ()
  else
    .error (.txRule .nonstandard ("transaction " ++ tx.txHash.string ++
      " sigop cost is too high: " ++ toString sigOpCost ++ " > " ++
      toString cfg.maxSigOpCostPerTx))

def validateRelayFeeMet (cfg : Config) (tx : MsgTx) (txFee txSize : Int64) (v : UtxoViewpoint)
    (nextBlockHeight : Int32) (isNew rateLimit : Bool) : Except TxError Unit :=
  let minFee := calcMinRequiredTxRelayFee txSize cfg.minRelayTxFee
  if txSize ≥ defaultBlockPrioritySize - 1000 && txFee < minFee then
    .error (.txRule .insufficientFee ("transaction " ++ tx.txHash.string ++ " has " ++
      toString txFee ++ " fees which is under the required amount of " ++ toString minFee))
  else if txFee ≥ minFee then .ok ()
  else if !isNew && !rateLimit then .ok ()
  else
    match if isNew && !cfg.disableRelayPriority then
        cfg.insufficientPriority tx v nextBlockHeight else none with
    | some comparison =>
      .error (.txRule .insufficientFee ("transaction " ++ tx.txHash.string ++
        " has insufficient priority " ++ comparison))
    | none =>
      if cfg.rateLimited then
        .error (.txRule .insufficientFee ("transaction " ++ tx.txHash.string ++
          " has been rejected by the rate limiter due to low fees"))
      else .ok ()

/-- `MempoolAcceptResult`: the parents that are missing, or the fee, the size and the conflicts. -/
inductive AcceptResult where
  | orphan (missingParents : List Hash)
  | accepted (txFee txSize : Int64) (conflicts : OrdMap Hash MsgTx)

/-- The last stages of `checkMempoolAcceptance`, for a transaction whose inputs are all there. -/
def checkInputs (cfg : Config) (mp : Pool) (tx : MsgTx) (isNew rateLimit isReplacement : Bool)
    (v : UtxoViewpoint) : Except TxError AcceptResult := do
  let nextBlockHeight := cfg.tip.height + 1
  let medianTimePast := cfg.consensus.pastMedianTime cfg.tip.hash
  let txFee ← liftChain (checkTransactionInputs tx nextBlockHeight v cfg.consensus.params)
  validateStandardness cfg tx nextBlockHeight medianTimePast v
  let sequenceLock ← liftChain (calcSequenceLock cfg.consensus cfg.tip tx v true)
  if !sequenceLockActive sequenceLock nextBlockHeight medianTimePast then
    .error (.txRule .nonstandard "transaction's sequence locks on inputs not met")
  else do
    validateSigCost cfg tx v
    let txSize := getTxVirtualSize tx
    validateRelayFeeMet cfg tx txFee txSize v nextBlockHeight isNew rateLimit
    let conflicts ← if isReplacement then validateReplacement cfg mp tx txFee else .ok ∅
    let scriptFlags := applyOBTCReplayProtectionScriptFlag standardVerifyFlags cfg.consensus.params
      nextBlockHeight
    liftChain (validateTransactionScripts cfg.consensus.engine tx v scriptFlags)
    .ok (.accepted txFee txSize conflicts)

/-- The stages of `checkMempoolAcceptance` after the REAP gate. -/
def checkInContext (cfg : Config) (mp : Pool) (tx : MsgTx) (isNew rateLimit : Bool) :
    Except TxError AcceptResult := do
  let isReplacement ← checkPoolDoubleSpend cfg mp tx.txIn
  let v ← removeOwnOutputs (fetchInputUtxos cfg mp tx) tx.outPoints
  if !(missingParents v).isEmpty then .ok (.orphan (missingParents v))
  else checkInputs cfg mp tx isNew rateLimit isReplacement v

def checkMempoolAcceptance (cfg : Config) (mp : Pool) (tx : MsgTx)
    (isNew rateLimit rejectDupOrphans : Bool) : Except TxError AcceptResult := do
  checkStandalone cfg mp tx rejectDupOrphans
  -- REAP transactions are made by miners and must never enter the pool
  if Mining.isLikelyREAPTx tx then
    .error (.txRule .nonstandard "reap system transaction is not accepted in mempool")
  else checkInContext cfg mp tx isNew rateLimit

/-! ## The REAP gate -/

/-- A check ends in an error. -/
def Rejected {α : Type} (r : Except TxError α) : Prop := ∃ e, r = .error e

/-- **The mempool keeps out a transaction that consensus takes for REAP exactly if the marker script
starts with `OP_RETURN`, or one of the other checks refuses it.**  The first part is the same for
the two classifiers: they agree on a transaction exactly if its marker, where consensus sees one,
starts with `OP_RETURN`. -/
theorem mempool_rejects_iff (cfg : Config) (mp : Pool) (tx : MsgTx)
    (isNew rateLimit rejectDupOrphans : Bool) :
    (Mining.isLikelyREAPTx tx = isLikelyReapTx tx ↔
      (isLikelyReapTx tx = true → Mining.markerReturns tx = true)) ∧
    ((isLikelyReapTx tx = true →
        Rejected (checkMempoolAcceptance cfg mp tx isNew rateLimit rejectDupOrphans)) ↔
      (isLikelyReapTx tx = true → Mining.markerReturns tx = true ∨
        Rejected (checkStandalone cfg mp tx rejectDupOrphans) ∨
        Rejected (checkInContext cfg mp tx isNew rateLimit))) := by
  have hgate := Mining.isLikelyREAPTx_iff tx
  refine ⟨?_, forall_congr' fun hreap => ?_⟩
  · rw [Bool.eq_iff_iff, hgate]
    exact and_iff_left_iff_imp
  · rw [hreap, and_iff_right rfl] at hgate
    rw [checkMempoolAcceptance]
    cases hstand : checkStandalone cfg mp tx rejectDupOrphans with
    | error e => exact ⟨fun _ => .inr (.inl ⟨e, rfl⟩), fun _ => ⟨e, rfl⟩⟩
    | ok _ =>
      rw [ok_bind]
      cases hret : Mining.markerReturns tx with
      | true =>
        rw [hgate.2 hret, if_pos rfl]
        exact ⟨fun _ => .inl rfl, fun _ => ⟨_, rfl⟩⟩
      | false =>
        have hnot : ¬ Mining.isLikelyREAPTx tx = true := by
          rw [hgate, hret]
          decide
        rw [if_neg hnot]
        refine ⟨fun h => .inr (.inr h), ?_⟩
        rintro (h | ⟨e, h⟩ | h)
        · cases h
        · cases h
        · exact h

/-! ### A transaction that gets past the gate -/

namespace Smuggle

/-- An output of height 10, locked to a key hash. -/
def coinOutPoint : OutPoint := ⟨⟨⟨List.replicate 32 0x44, rfl⟩⟩, 0⟩

def coinEntry : UtxoEntry where
  amount := 100000000
  pkScript := [0x76, 0xa9, 0x14] ++ List.replicate 20 0x55 ++ [0x88, 0xac]
  blockHeight := 10

/-- OBTC regtest with its tip at height 50 and the policy of a regression test network, which
accepts non-standard transactions. -/
def config : Config where
  consensus :=
    { params := Chaincfg.obtcRegTestParams
      engine := ScriptEngine.failing
      latestCheckpoint := none
      deploymentActive := fun _ _ => .ok true
      pastMedianTime := fun _ => 1700000000
      ancestorMedianTime := fun _ _ => 1700000000 }
  tip := ⟨⟨⟨List.replicate 32 0x66, rfl⟩⟩, Hash.zero, 50, 1700000000⟩
  fetchEntry op := if op = coinOutPoint then some coinEntry else none
  acceptNonStd := true
  rejectReplacement := false
  disableRelayPriority := false
  maxSigOpCostPerTx := 16000
  minRelayTxFee := 1000
  checkTransactionStandard _ _ _ := .error (.txRule .nonstandard "not checked")
  checkInputsStandard _ _ := .error (.txRule .nonstandard "not checked")
  insufficientPriority _ _ _ := some "(0 <= 5.76e+07)"
  rateLimited := true

/-- The payload that the marker rule asks for at height 51. -/
def payload : Bytes :=
  reapTag ++ [reapSep] ++ Strconv.itoa 51 ++ [reapSep] ++ Strconv.itoa 1 ++ [reapSep] ++
    Strconv.hexEncode (Sha256.sum256 coinOutPoint.write).val

/-- It pushes the payload without `OP_RETURN` before it. -/
def tx : MsgTx where
  version := 3
  txIn := [{ previousOutPoint := coinOutPoint }]
  txOut := [⟨99990000, [0x51]⟩, ⟨0, Txscript.opPushData1 :: UInt8.ofNat payload.length :: payload⟩]

end Smuggle

/-- **A transaction that consensus takes for REAP is accepted into an empty pool**, although no
script succeeds. -/
theorem accepts_reap :
    isLikelyReapTx Smuggle.tx = true ∧ Mining.isLikelyREAPTx Smuggle.tx = false ∧
      ∃ fee size conflicts,
        checkMempoolAcceptance Smuggle.config ⟨∅, ∅, ∅⟩ Smuggle.tx true true true =
          .ok (.accepted fee size conflicts) := by
  refine ⟨by decide +kernel, by decide +kernel, ?_⟩
  have h : (match checkMempoolAcceptance Smuggle.config ⟨∅, ∅, ∅⟩ Smuggle.tx true true true with
      | .ok (.accepted _ _ _) => true
      | _ => false) = true := by decide +kernel
  split at h
  · rename_i fee size conflicts hok
    exact ⟨fee, size, conflicts, hok⟩
  · cases h

end Obtcd.Mempool
