import Obtcd.Blockchain.Reap

/-!
# Running scripts

`checkBlockScripts` and `ValidateTransactionScripts` decide which inputs have their scripts run; the
script engine decides how a run ends.  The engine, and the counting of signature operations in a
script, are parameters (`ScriptEngine`): no rule here depends on what a script means, only on
whether it is run.

The worker goroutines of `txValidator` are modelled as a loop over the items in order.  They can
only change which of several errors is reported: the call succeeds exactly when every item does
(`validate_eq_ok`).
-/

namespace Obtcd

open Chaincfg (Params)

/-! ## Flags -/

/-- `txscript.ScriptFlags`. -/
abbrev ScriptFlags := UInt32

namespace ScriptFlags

def bip16 : ScriptFlags := (1 : UInt32) <<< 0
def strictMultiSig : ScriptFlags := (1 : UInt32) <<< 1
def verifyCheckLockTimeVerify : ScriptFlags := (1 : UInt32) <<< 3
def verifyCheckSequenceVerify : ScriptFlags := (1 : UInt32) <<< 4
def verifyDERSignatures : ScriptFlags := (1 : UInt32) <<< 6
def verifyWitness : ScriptFlags := (1 : UInt32) <<< 12
def verifyTaproot : ScriptFlags := (1 : UInt32) <<< 16
def verifyOBTCReplayProtection : ScriptFlags := (1 : UInt32) <<< 21

end ScriptFlags

def getOBTCReplayProtectionHeight (params : Params) : Int32 :=
  match Chaincfg.getExpiryParams params with
  | none => -1
  | some p => if p.replayProtectionAtHeight ≤ 0 then -1 else p.replayProtectionAtHeight

def isOBTCReplayProtectionActive (params : Params) (height : Int32) : Bool :=
  let activationHeight := getOBTCReplayProtectionHeight params
  if activationHeight < 0 then false else height ≥ activationHeight

def applyOBTCReplayProtectionScriptFlag (base : ScriptFlags) (params : Params) (height : Int32) :
    ScriptFlags :=
  if isOBTCReplayProtectionActive params height then
    base ||| ScriptFlags.verifyOBTCReplayProtection
  else base

/-! ## The engine -/

/-- The script engine and the counting of signature operations.  Both parts of running a script get
the public key script, the transaction, the input, the flags, the amount and the outputs that the
transaction spends, and fail with a text. -/
structure ScriptEngine where
  newEngine : Bytes → MsgTx → Nat → ScriptFlags → Int64 → (OutPoint → Option TxOut) →
    Except String Unit
  execute : Bytes → MsgTx → Nat → ScriptFlags → Int64 → (OutPoint → Option TxOut) →
    Except String Unit
  getSigOpCount : Bytes → Nat
  getPreciseSigOpCount : Bytes → Bytes → Nat
  getWitnessSigOpCount : Bytes → Bytes → List Bytes → Nat

/-- An engine under which every script fails. -/
def ScriptEngine.failing : ScriptEngine where
  newEngine _ _ _ _ _ _ := .ok ()
  execute _ _ _ _ _ _ := .error "false stack entry at end of script execution"
  getSigOpCount _ := 0
  getPreciseSigOpCount _ _ := 0
  getWitnessSigOpCount _ _ _ := 0

/-- The text of an input's witness, as `%x` prints it. -/
def witnessHex (w : List Bytes) : String :=
  "[" ++ String.intercalate " " (w.map Bytes.hex) ++ "]"

/-- `tx:i`. -/
def inputString (tx : MsgTx) (i : Nat) : String := tx.txHash.string ++ ":" ++ toString i

/-- An input whose script is to be run. -/
structure TxValidateItem where
  txInIndex : Nat
  txIn : TxIn
  tx : MsgTx
deriving DecidableEq

/-- The description of an input whose script cannot be parsed or fails. -/
def scriptErrorText (what : String) (item : TxValidateItem) (pkScript : Bytes) (err : String) :
    String :=
  what ++ inputString item.tx item.txInIndex ++ " which references output " ++
    item.txIn.previousOutPoint.string ++ " - " ++ err ++ " (input witness " ++
    witnessHex item.txIn.witness ++ ", input script bytes " ++ Bytes.hex item.txIn.signatureScript ++
    ", prev output script bytes " ++ Bytes.hex pkScript ++ ")"

/-- `validateHandler` on one item. -/
def validateItem (engine : ScriptEngine) (v : UtxoViewpoint) (flags : ScriptFlags)
    (item : TxValidateItem) : Except GoError Unit :=
  match v.lookupEntry item.txIn.previousOutPoint with
  | none =>
    .error (.rule .errMissingTxOut
      ("unable to find unspent output " ++ item.txIn.previousOutPoint.string ++
        " referenced from transaction " ++ inputString item.tx item.txInIndex))
  | some e =>
    match engine.newEngine e.pkScript item.tx item.txInIndex flags e.amount v.fetchPrevOutput with
    | .error err =>
      .error (.rule .errScriptMalformed (scriptErrorText "failed to parse input " item e.pkScript err))
    | .ok () =>
      match engine.execute e.pkScript item.tx item.txInIndex flags e.amount v.fetchPrevOutput with
      | .error err =>
        .error (.rule .errScriptValidation
          (scriptErrorText "failed to validate input " item e.pkScript err))
      | .ok () => .ok ()

/-- `txValidator.Validate`. -/
def validate (engine : ScriptEngine) (v : UtxoViewpoint) (flags : ScriptFlags) :
    List TxValidateItem → Except GoError Unit
  | [] => .ok ()
  | item :: items => do
    validateItem engine v flags item
    validate engine v flags items

/-- The inputs of a transaction from number `i` on whose scripts are run.  An input at the largest
index is taken for that of a coinbase. -/
def inputItems (tx : MsgTx) : Nat → List TxIn → List TxValidateItem
  | _, [] => []
  | i, ti :: tis =>
    if ti.previousOutPoint.index = OutPoint.maxIndex then inputItems tx (i + 1) tis
    else ⟨i, ti, tx⟩ :: inputItems tx (i + 1) tis

/-- The inputs of a transaction whose scripts are run: none if it looks like a REAP transaction. -/
def txItems (tx : MsgTx) : List TxValidateItem :=
  if isLikelyReapTx tx then [] else inputItems tx 0 tx.txIn

def validateTransactionScripts (engine : ScriptEngine) (tx : MsgTx) (v : UtxoViewpoint)
    (flags : ScriptFlags) : Except GoError Unit :=
  validate engine v flags (txItems tx)

/-- The inputs of a block whose scripts are run. -/
def blockItems (block : Block) : List TxValidateItem := block.transactions.flatMap txItems

def checkBlockScripts (engine : ScriptEngine) (block : Block) (v : UtxoViewpoint)
    (flags : ScriptFlags) : Except GoError Unit :=
  validate engine v flags (blockItems block)

/-- A list of items is valid when each item is. -/
theorem validate_eq_ok {engine : ScriptEngine} {v : UtxoViewpoint} {flags : ScriptFlags}
    {items : List TxValidateItem} :
    validate engine v flags items = .ok () ↔
      ∀ item ∈ items, validateItem engine v flags item = .ok () := by
  induction items with
  | nil => simp [validate]
  | cons item items ih =>
    rw [validate, bind_eq_ok, List.forall_mem_cons, ← ih]
    exact ⟨fun ⟨(), h, h'⟩ => ⟨h, h'⟩, fun ⟨h, h'⟩ => ⟨(), h, h'⟩⟩

theorem mem_inputItems {tx : MsgTx} {i : Nat} {tis : List TxIn} {item : TxValidateItem} :
    item ∈ inputItems tx i tis ↔ ∃ k, i ≤ k ∧ tis[k - i]? = some item.txIn ∧
      item = ⟨k, item.txIn, tx⟩ ∧ item.txIn.previousOutPoint.index ≠ OutPoint.maxIndex := by
  induction tis generalizing i with
  | nil => simp [inputItems]
  | cons ti tis ih =>
    have hstep : (∃ k, i ≤ k ∧ (ti :: tis)[k - i]? = some item.txIn ∧
        item = ⟨k, item.txIn, tx⟩ ∧ item.txIn.previousOutPoint.index ≠ OutPoint.maxIndex) ↔
        (item = ⟨i, ti, tx⟩ ∧ ti.previousOutPoint.index ≠ OutPoint.maxIndex) ∨
          item ∈ inputItems tx (i + 1) tis := by
      rw [ih]
      constructor
      · rintro ⟨k, hk, hget, hitem, hidx⟩
        rcases Nat.eq_or_lt_of_le hk with rfl | hlt
        · rw [Nat.sub_self, List.getElem?_cons_zero, Option.some.injEq] at hget
          exact .inl ⟨by rw [hitem, hget], by rw [hget]; exact hidx⟩
        · have hsub : k - i = (k - (i + 1)) + 1 := by omega
          rw [hsub, List.getElem?_cons_succ] at hget
          exact .inr ⟨k, hlt, hget, hitem, hidx⟩
      · rintro (⟨hitem, hidx⟩ | ⟨k, hk, hget, hitem, hidx⟩)
        · subst hitem
          exact ⟨i, le_rfl, by rw [Nat.sub_self]; rfl, rfl, hidx⟩
        · have hsub : k - i = (k - (i + 1)) + 1 := by omega
          exact ⟨k, by omega, by rw [hsub, List.getElem?_cons_succ]; exact hget, hitem, hidx⟩
    rw [hstep, inputItems]
    split_ifs with hmax
    · simp [hmax]
    · simp [hmax]

/-! ## Signature operations -/

def maxBlockSigOpsCost : Nat := 80000

/-- `OP_HASH160`, a push of twenty bytes, `OP_EQUAL`. -/
def isPayToScriptHash (script : Bytes) : Bool :=
  script.length == 23 && script[0]? == some 0xa9 && script[1]? == some 0x14 &&
    script[22]? == some 0x87

def countSigOps (engine : ScriptEngine) (tx : MsgTx) : Nat :=
  (tx.txIn.map fun ti => engine.getSigOpCount ti.signatureScript).sum +
    (tx.txOut.map fun o => engine.getSigOpCount o.pkScript).sum

/-- The error for an input that spends nothing, which three loops raise alike. -/
def missingOutput (tx : MsgTx) (i : Nat) (op : OutPoint) : GoError :=
  .rule .errMissingTxOut
    ("output " ++ op.string ++ " referenced from transaction " ++ inputString tx i ++
      " either does not exist or has already been spent")

/-- A count over the inputs of a transaction from number `i` on, all of which must be unspent. -/
def countInputs (count : TxIn → UtxoEntry → Nat) (v : UtxoViewpoint) (tx : MsgTx) :
    Nat → List TxIn → Except GoError Nat
  | _, [] => .ok 0
  | i, ti :: tis =>
    match v.unspent ti.previousOutPoint with
    | none => .error (missingOutput tx i ti.previousOutPoint)
    | some e => do .ok (count ti e + (← countInputs count v tx (i + 1) tis))

def countP2SHSigOps (engine : ScriptEngine) (tx : MsgTx) (isCoinBase : Bool) (v : UtxoViewpoint) :
    Except GoError Nat :=
  if isCoinBase then .ok 0
  else
    countInputs (fun ti e =>
      if isPayToScriptHash e.pkScript then
        engine.getPreciseSigOpCount ti.signatureScript e.pkScript
      else 0) v tx 0 tx.txIn

/-- An error while counting the pay-to-script-hash operations makes the whole cost
zero. -/
def getSigOpCost (engine : ScriptEngine) (tx : MsgTx) (isCoinBase : Bool) (v : UtxoViewpoint)
    (bip16 segWit : Bool) : Except GoError Nat :=
  let numSigOps := countSigOps engine tx * witnessScaleFactor
  let witnessSigOps (numSigOps : Nat) : Except GoError Nat :=
    if segWit && !isCoinBase then do
      let n ← countInputs (fun ti e =>
        engine.getWitnessSigOpCount ti.signatureScript e.pkScript ti.witness) v tx 0 tx.txIn
      .ok (numSigOps + n)
    else .ok numSigOps
  if bip16 then
    match countP2SHSigOps engine tx isCoinBase v with
    | .error _ => .ok 0
    | .ok n => witnessSigOps (numSigOps + n * witnessScaleFactor)
  else witnessSigOps numSigOps

/-- The loop of `checkConnectBlock` over the costs of the transactions from position `i` on. -/
def checkSigOpCosts (engine : ScriptEngine) (v : UtxoViewpoint) (bip16 segWit : Bool) :
    Nat → Nat → List MsgTx → Except GoError Unit
  | _, _, [] => .ok ()
  | i, total, tx :: txs => do
    let cost ← getSigOpCost engine tx (i == 0) v bip16 segWit
    if total + cost > maxBlockSigOpsCost then
      .error (.rule .errTooManySigOps
        ("block contains too many signature operations - got " ++ toString (total + cost) ++
          ", max " ++ toString maxBlockSigOpsCost))
    else checkSigOpCosts engine v bip16 segWit (i + 1) (total + cost) txs

end Obtcd
