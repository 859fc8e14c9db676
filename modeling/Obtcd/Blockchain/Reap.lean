import Obtcd.Blockchain.Utxo
import Obtcd.Chaincfg
import Obtcd.Lib.Strconv
import Obtcd.Lib.Tally

/-!
# The REAP rules

The rules of `validation_reap.go`.  A REAP transaction sweeps expired outputs: it is recognised by
its version and by a marker in its last output, its inputs must be expired and in canonical order,
its outputs give back to each script what is left of its inputs after the tax, and it must take a
prefix of all that is expired.

The rules are six separate functions with three different activation gates.  `checkReapMarker` has
none, `checkExpirySpendRules` and `checkReapTaxRules` start at `EnableAtHeight`, and the block-wide
and ordering rules at `ReapConsensusAtHeight`; the last five do nothing outside the OBTC networks.

Payloads are Go strings, lists of bytes.  A script is a key of the refund maps in the same way.
-/

namespace Obtcd

open Chaincfg (Params ExpiryParams getExpiryParams)

/-! ## Weight -/

def witnessScaleFactor : Nat := 4

def getTransactionWeight (tx : MsgTx) : Nat :=
  tx.baseSize * (witnessScaleFactor - 1) + tx.serializeSize

/-! ## The marker -/

def reapTxVersion : Int32 := 3

/-- The height of an output of a transaction that is not in a block yet. -/
def unminedInputHeight : Int32 := 0x7fffffff

/-- The separator `:` of the marker's parts. -/
def reapSep : UInt8 := 0x3a

def reapTag : Bytes := bytesOf "REAP"

/-- The first datum the script pushes, whatever its opcodes are. -/
def extractMarkerPayload (pkScript : Bytes) : Option Bytes :=
  match Txscript.pushedData pkScript with
  | some (data :: _) => some data
  | _ => none

def isLikelyReapTx (tx : MsgTx) : Bool :=
  if tx.version ≠ reapTxVersion then false
  else
    match tx.txOut.getLast? with
    | none => false
    | some markerOut =>
      if markerOut.value ≠ 0 then false
      else
        match extractMarkerPayload markerOut.pkScript with
        | none => false
        | some payload => (reapTag ++ [reapSep]).isPrefixOf payload

/-- `findReapTx`, without the position it also reports to the log. -/
def findReapTx (block : Block) : Except GoError (Option MsgTx) := do
  .ok ((← block.afterFirst).find? isLikelyReapTx)

/-- The height, the count and the digest, or the text of the error. -/
def parseReapMarkerPayload (payload : Bytes) : Except String (Int32 × Int × Bytes) :=
  match payload.splitOn reapSep with
  | [tag, height, count, digest] =>
    if tag ≠ reapTag then .error "invalid REAP marker payload"
    else
      match Strconv.parseInt 32 height with
      | .error e =>
        .error ("invalid REAP marker height: " ++ Strconv.numErrorText "ParseInt" height e)
      | .ok h =>
        match Strconv.parseInt 64 count with
        | .error e => .error ("invalid REAP marker count: " ++ Strconv.numErrorText "Atoi" count e)
        | .ok c =>
          match Strconv.hexDecode digest with
          | .error e => .error ("invalid REAP marker digest: " ++ e.text)
          | .ok _ => .ok (Int32.ofInt h, c, digest)
  | _ => .error "invalid REAP marker payload"

def reapInputDigest (tx : MsgTx) : Bytes :=
  Strconv.hexEncode (Sha256.sum256 (tx.txIn.flatMap fun ti => ti.previousOutPoint.write)).val

def checkReapMarker (tx : MsgTx) (txHeight : Int32) : Except GoError Unit :=
  if !isLikelyReapTx tx then .ok ()
  else
    match tx.txOut.getLast?.bind fun o => extractMarkerPayload o.pkScript with
    | none => .error (.rule .errBadTxInput "reap transaction has unparseable marker output")
    | some payload =>
      match parseReapMarkerPayload payload with
      | .error text => .error (.rule .errBadTxInput text)
      | .ok (h, count, digest) =>
        if h ≠ txHeight then .error (.rule .errBadTxInput "reap marker height mismatch")
        else if count ≠ tx.txIn.length then
          .error (.rule .errBadTxInput "reap marker count mismatch")
        else if digest ≠ reapInputDigest tx then
          .error (.rule .errBadTxInput "reap marker digest mismatch")
        else .ok ()

/-! ## Rules on the block -/

/-- The position of the second REAP transaction in a list that starts at position `i`, when `n` have
been seen before it. -/
def secondReap : Nat → Nat → List MsgTx → Option Nat
  | _, _, [] => none
  | i, n, tx :: txs =>
    if !isLikelyReapTx tx then secondReap (i + 1) n txs
    else if n + 1 > 1 then some i
    else secondReap (i + 1) (n + 1) txs

/-- At most one REAP transaction. -/
def checkReapBlockHardening (block : Block) (blockHeight : Int32) (params : Params) :
    Except GoError Unit :=
  match getExpiryParams params with
  | none => .ok ()
  | some p =>
    if blockHeight < p.reapConsensusAtHeight then .ok ()
    else do
      match secondReap 1 0 (← block.afterFirst) with
      | none => .ok ()
      | some i =>
        .error (.rule .errMultipleReapTx
          ("block contains multiple REAP transactions (second at index " ++ toString i ++ ")"))

structure ReapPrefixCandidate where
  outPoint : OutPoint
  expiryKey : UInt64
  amount : Int64
deriving DecidableEq

/-- What the expiry index answers. -/
structure ReapPrefixSource where
  reapPrefixTipHeight : Except GoError Int32
  reapPrefixCandidates : Int32 → Nat → Except GoError (List ReapPrefixCandidate)

/-- The loop of `checkReapGlobalPrefix` over the inputs from number `i` on. -/
def checkPrefixInputs : Nat → List TxIn → List ReapPrefixCandidate → Except GoError Unit
  | _, [], _ => .ok ()
  | i, _ :: _, [] =>
    .error (.panic ("runtime error: index out of range [" ++ toString i ++ "] with length " ++
      toString i))
  | i, ti :: tis, c :: cs =>
    if ti.previousOutPoint ≠ c.outPoint then
      .error (.rule .errBadReapPrefix
        ("reap input " ++ toString i ++ " is not the canonical global prefix: got " ++
          ti.previousOutPoint.string ++ " want " ++ c.outPoint.string))
    else checkPrefixInputs (i + 1) tis cs

/-- The inputs are the first of all expired outputs. -/
def checkReapGlobalPrefix (block : Block) (blockHeight : Int32) (source : Option ReapPrefixSource)
    (params : Params) : Except GoError Unit :=
  match getExpiryParams params with
  | none => .ok ()
  | some p =>
    if blockHeight < p.reapConsensusAtHeight then .ok ()
    else do
      match ← findReapTx block with
      | none => .ok ()
      | some reapTx =>
        match source with
        | none => .error (.rule .errBadReapPrefix "reap prefix source is not configured")
        | some source => do
          let tipHeight ← source.reapPrefixTipHeight
          let parentHeight := blockHeight - 1
          if tipHeight ≠ parentHeight then
            .error (.rule .errBadReapPrefix
              ("reap prefix source tip " ++ toString tipHeight ++
                " does not match parent height " ++ toString parentHeight))
          else if reapTx.txIn.length = 0 then .ok ()
          else do
            let expected ← source.reapPrefixCandidates blockHeight reapTx.txIn.length
            if expected.length < reapTx.txIn.length then
              .error (.rule .errBadReapPrefix
                ("reap transaction has " ++ toString reapTx.txIn.length ++
                  " inputs but only " ++ toString expected.length ++
                  " global expired candidates exist"))
            else checkPrefixInputs 0 reapTx.txIn expected

/-! ## Canonical order and caps -/

structure ReapInputOrderKey where
  expiry : UInt64
  amount : Int64
  op : OutPoint
deriving DecidableEq

/-- By expiry, amount, hash bytes and index. -/
def compareReapInputOrderKey (a b : ReapInputOrderKey) : Ordering :=
  (compare a.expiry b.expiry).then <| (compare a.amount b.amount).then <|
    (compare a.op.hash.bytes.val b.op.hash.bytes.val).then <| compare a.op.index b.op.index

def isReapDustTierAmount (value : Int64) (p : ExpiryParams) : Bool :=
  p.reapDustThresholdSat > 0 && value > 0 && value < p.reapDustThresholdSat

def makeReapInputOrderKey (op : OutPoint) (v : UtxoViewpoint) (p : ExpiryParams) :
    Except GoError ReapInputOrderKey :=
  match v.unspent op with
  | none => .error (.rule .errMissingTxOut ("missing utxo for reap input " ++ op.string))
  | some e => .ok ⟨p.calculateExpiryKey e.blockHeight, e.amount, op⟩

/-- The two-tier limits at one input, after so many of each tier: the counts that follow. -/
def countTier (p : ExpiryParams) (amount : Int64) (dustCount normalCount : Nat) :
    Except GoError (Nat × Nat) :=
  let dustTier := isReapDustTierAmount amount p
  if dustTier && (dustCount : Int) ≥ p.reapDustMaxInputs then
    .error (.rule .errBadTxInput
      ("reap dust input count " ++ toString (dustCount + 1) ++ " exceeds consensus limit " ++
        toString p.reapDustMaxInputs))
  else if !dustTier && (normalCount : Int) ≥ p.reapMaxInputs then
    .error (.rule .errBadTxInput
      ("reap normal input count " ++ toString (normalCount + 1) ++ " exceeds consensus limit " ++
        toString p.reapMaxInputs))
  else if (dustCount : Int) ≥ p.reapDustMaxInputs || (normalCount : Int) ≥ p.reapMaxInputs then
    .error (.rule .errBadTxInput "reap transaction includes inputs after a tier cap was reached")
  else .ok (if dustTier then (dustCount + 1, normalCount) else (dustCount, normalCount + 1))

/-- The loop of `checkReapConsensusHardening` over the inputs. -/
def checkReapInputs (v : UtxoViewpoint) (p : ExpiryParams) :
    Option ReapInputOrderKey → Nat → Nat → List TxIn → Except GoError Unit
  | _, _, _, [] => .ok ()
  | prevKey, dustCount, normalCount, ti :: tis => do
    let curKey ← makeReapInputOrderKey ti.previousOutPoint v p
    if prevKey.any fun k => compareReapInputOrderKey k curKey == .gt then
      .error (.rule .errBadTxInput "reap transaction inputs out of canonical order")
    else if p.reapDustMaxInputs > 0 then do
      let (dustCount', normalCount') ← countTier p curKey.amount dustCount normalCount
      checkReapInputs v p (some curKey) dustCount' normalCount' tis
    else checkReapInputs v p (some curKey) dustCount normalCount tis

/-- Weight, order and caps. -/
def checkReapConsensusHardening (tx : MsgTx) (txHeight : Int32) (v : UtxoViewpoint)
    (params : Params) : Except GoError Unit :=
  if !isLikelyReapTx tx then .ok ()
  else
    match getExpiryParams params with
    | none => .ok ()
    | some p =>
      if txHeight < p.reapConsensusAtHeight then .ok ()
      else if p.reapMaxWeight > 0 && (getTransactionWeight tx : Int) > p.reapMaxWeight.toInt then
        .error (.rule .errBadTxInput
          ("reap transaction weight " ++ toString (getTransactionWeight tx) ++
            " exceeds consensus limit " ++ toString p.reapMaxWeight))
      else if !(p.reapDustMaxInputs > 0) && p.reapMaxInputs > 0 &&
          (tx.txIn.length : Int) > p.reapMaxInputs then
        .error (.rule .errBadTxInput
          ("reap transaction input count " ++ toString tx.txIn.length ++
            " exceeds consensus limit " ++ toString p.reapMaxInputs))
      else checkReapInputs v p none 0 0 tx.txIn

/-! ## Tax and refunds -/

def reapTaxForValue (v : Int64) (p : ExpiryParams) : Int64 :=
  if v ≤ 0 || p.reapTaxDenominator ≤ 0 || p.reapTaxNumerator ≤ 0 then 0
  else v * p.reapTaxNumerator / p.reapTaxDenominator

/-- What is below the dust threshold is taxed whole. -/
def applyReapDustRule (value refund tax : Int64) (p : ExpiryParams) : Int64 × Int64 :=
  if p.reapDustThresholdSat ≤ 0 then (refund, tax)
  else if value > 0 && value < p.reapDustThresholdSat then (0, value)
  else (refund, tax)

/-- The refunds the inputs are owed, per script and in total. -/
def expectedRefunds (v : UtxoViewpoint) (p : ExpiryParams) :
    OrdMap Bytes Int64 → Int64 → List TxIn → Except GoError (OrdMap Bytes Int64 × Int64)
  | m, total, [] => .ok (m, total)
  | m, total, ti :: tis =>
    match v.unspent ti.previousOutPoint with
    | none =>
      .error (.rule .errMissingTxOut
        ("utxo " ++ ti.previousOutPoint.string ++ " missing from view during reap tax check"))
    | some e =>
      let tax := reapTaxForValue e.amount p
      if e.amount - tax < 0 then
        .error (.rule .errBadTxOutValue "reap refund amount is negative")
      else
        let refund := (applyReapDustRule e.amount (e.amount - tax) tax p).1
        expectedRefunds v p (if refund > 0 then Tally.add m e.pkScript refund else m)
          (total + refund) tis

/-- The refunds the outputs pay, per script and in total. -/
def actualRefunds :
    OrdMap Bytes Int64 → Int64 → List TxOut → Except GoError (OrdMap Bytes Int64 × Int64)
  | m, total, [] => .ok (m, total)
  | m, total, o :: os =>
    if o.value ≤ 0 then .error (.rule .errBadTxOutValue "reap refund outputs must be positive")
    else actualRefunds (Tally.add m o.pkScript o.value) (total + o.value) os

/-- The outputs before the marker pay each script what it is owed. -/
def checkReapTaxRules (tx : MsgTx) (txHeight : Int32) (v : UtxoViewpoint) (params : Params) :
    Except GoError Unit :=
  if !isLikelyReapTx tx then .ok ()
  else
    match getExpiryParams params with
    | none => .ok ()
    | some p =>
      if txHeight < p.enableAtHeight then .ok ()
      else do
        let (expected, expectedTotal) ← expectedRefunds v p ∅ 0 tx.txIn
        let (actual, actualTotal) ← actualRefunds ∅ 0 tx.txOut.dropLast
        if actualTotal ≠ expectedTotal then
          .error (.rule .errBadTxOutValue
            ("reap refund total mismatch: got " ++ toString actualTotal ++ " want " ++
              toString expectedTotal))
        else if actual.size ≠ expected.size ||
            expected.toList.any fun entry => actual[entry.1]? ≠ some entry.2 then
          .error (.rule .errBadTxOutValue
            "reap refund output set does not match expected distribution")
        else .ok ()

/-! ## Expiry -/

/-- Is an output of that height expired for a transaction at `txHeight`?  The key is cut down to an
int32 before the comparison. -/
def expiredAt (p : ExpiryParams) (txHeight createHeight : Int32) : Bool :=
  txHeight ≥ (p.calculateExpiryKey createHeight).toUInt32.toInt32

/-- The loop of `checkExpirySpendRules` over the inputs. -/
def checkExpiryInputs (v : UtxoViewpoint) (p : ExpiryParams) (txHeight : Int32) (isReap : Bool) :
    List TxIn → Except GoError Unit
  | [] => .ok ()
  | ti :: tis =>
    match v.unspent ti.previousOutPoint with
    | none =>
      .error (.rule .errMissingTxOut
        ("utxo " ++ ti.previousOutPoint.string ++ " missing from view during expiry check"))
    | some e =>
      if e.blockHeight = unminedInputHeight then
        if isReap then .error (.rule .errBadTxInput "reap transaction spends unconfirmed utxo")
        else checkExpiryInputs v p txHeight isReap tis
      else if isReap && !expiredAt p txHeight e.blockHeight then
        .error (.rule .errBadTxInput "reap transaction spends non-expired utxo")
      else if !isReap && expiredAt p txHeight e.blockHeight then
        .error (.rule .errBadTxInput "non-reap transaction spends expired utxo")
      else checkExpiryInputs v p txHeight isReap tis

/-- REAP transactions spend expired outputs, and nothing else does. -/
def checkExpirySpendRules (tx : MsgTx) (txHeight : Int32) (v : UtxoViewpoint) (params : Params) :
    Except GoError Unit :=
  match getExpiryParams params with
  | none => .ok ()
  | some p =>
    if txHeight < p.enableAtHeight then .ok ()
    else checkExpiryInputs v p txHeight (isLikelyReapTx tx) tx.txIn

end Obtcd
