import Obtcd.Txscript.Standard
import Obtcd.Lib.Preimage

/-!
# Signature digests

The three digests of `sighash.go`: the original one over a stripped-down copy of the transaction,
the one of segwit version 0 over hashes of its parts, and the one of taproot.  Each of them takes
the hash type from the signature, and each of them puts an OBTC domain tag in front of what it
hashes when replay protection is active and the hash type is one of the protected ones: the first
two write the tag before the message, the third replaces the tag of the tagged hash.

The original digest has a case that hashes nothing.  `SIGHASH_SINGLE` for an input without an output
of the same index gives the constant one, and it does so before the tag is looked at.

The messages are split off as definitions of their own (`legacyMessage`, `witnessMessage`,
`taprootMessage`), so that each digest is visibly the hash of a tag and a message.
-/

namespace Obtcd

open Bytes

namespace Txscript

/-! ## Hash types -/

abbrev SigHashType := UInt32

def sigHashDefault : SigHashType := 0x00
def sigHashAll : SigHashType := 0x1
def sigHashNone : SigHashType := 0x2
def sigHashSingle : SigHashType := 0x3
def sigHashOBTCReplayProtection : SigHashType := 0x40
def sigHashAnyOneCanPay : SigHashType := 0x80
def sigHashMask : SigHashType := 0x1f

def stripOBTCReplayProtection (hashType : SigHashType) : SigHashType :=
  hashType &&& ~~~sigHashOBTCReplayProtection

def isOBTCReplayProtectedSigHashType (hashType : SigHashType) : Bool :=
  if hashType &&& sigHashOBTCReplayProtection ≠ sigHashOBTCReplayProtection then false
  else
    let normalized := stripOBTCReplayProtection hashType
    if normalized &&& ~~~(sigHashAnyOneCanPay ||| sigHashMask) ≠ 0 then false
    else
      let sigHashType := normalized &&& sigHashMask
      sigHashType == sigHashAll || sigHashType == sigHashNone || sigHashType == sigHashSingle

def shouldUseOBTCReplayProtectionDomain (hashType : SigHashType) (replayProtectionActive : Bool) :
    Bool :=
  replayProtectionActive && isOBTCReplayProtectedSigHashType hashType

def isValidTaprootSigHash (hashType : SigHashType) : Bool :=
  [sigHashDefault, sigHashAll, sigHashNone, sigHashSingle, sigHashAnyOneCanPay ||| sigHashAll,
    sigHashAnyOneCanPay ||| sigHashNone, sigHashAnyOneCanPay ||| sigHashSingle].contains hashType

def obtcReplaySighashTagV0 : Bytes := bytesOf "OBTC/SigHashV0/v1"

def obtcReplaySighashTagV1 : Bytes := bytesOf "OBTC/SigHashV1/v1"

def obtcReplayTapSighashTag : Bytes := bytesOf "OBTC/TapSighash/v1"

/-- `chainhash.TagTapSighash`. -/
def tagTapSighash : Bytes := bytesOf "TapSighash"

/-! ## Scripts with opcodes taken out -/

def opCodeSeparator : UInt8 := 0xab
def opData20 : UInt8 := 0x14

/-- The script without the opcodes that `remove` picks, and whether there was one.  A script without
any is returned as it is, also where the tokenizer stops early; otherwise what follows the stop is
lost. -/
def removeOpcodes (remove : Token → Bool) (script : Bytes) : Bytes × Bool :=
  if (spans script).any fun s => remove s.1 then
    (((spans script).filter fun s => !remove s.1).flatMap (·.2), true)
  else (script, false)

def removeOpcodeRaw (script : Bytes) (opcode : UInt8) : Bytes :=
  (removeOpcodes (fun tok => tok.opcode == opcode) script).1

def isCanonicalPush (opcode : UInt8) (data : Bytes) : Bool :=
  if opcode > op16 then true
  else if opcode < opPushData1 && opcode > op0 && data.length == 1 && data.headD 0 ≤ 16 then false
  else if opcode == opPushData1 && data.length < opPushData1.toNat then false
  else if opcode == opPushData2 && data.length ≤ 0xff then false
  else if opcode == opPushData4 && data.length ≤ 0xffff then false
  else true

def removeOpcodeByData (script dataToRemove : Bytes) : Bytes × Bool :=
  if script.isEmpty || dataToRemove.isEmpty then (script, false)
  else
    removeOpcodes (fun tok => isCanonicalPush tok.opcode (tok.data.getD []) &&
      tok.data.getD [] == dataToRemove) script

/-! ## The original digest -/

/-- The copy of the transaction that the original digest hashes. -/
def sigHashTx (sigScript : Bytes) (hashType : SigHashType) (tx : MsgTx) (idx : Nat) : MsgTx :=
  let script := removeOpcodeRaw sigScript opCodeSeparator
  let signed := tx.txIn.mapIdx fun i ti =>
    { ti with signatureScript := if i = idx then script else [] }
  let unsequenced := signed.mapIdx fun i ti => if i = idx then ti else { ti with sequence := 0 }
  let base := hashType &&& sigHashMask
  let txIn := if base = sigHashNone ∨ base = sigHashSingle then unsequenced else signed
  let txOut :=
    if base = sigHashNone then []
    else if base = sigHashSingle then
      (tx.txOut.take (idx + 1)).mapIdx fun i out => if i < idx then ⟨-1, []⟩ else out
    else tx.txOut
  { tx with
    txIn := if hashType &&& sigHashAnyOneCanPay ≠ 0 then (txIn.drop idx).take 1 else txIn
    txOut := txOut }

/-- What the original digest hashes, behind the tag. -/
def legacyMessage (sigScript : Bytes) (hashType : SigHashType) (tx : MsgTx) (idx : Nat) : Bytes :=
  (sigHashTx sigScript hashType tx idx).serializeNoWitness ++ le 4 hashType.toNat

/-- The digest one, as a little-endian number. -/
def oneHash : Hash := ⟨⟨1 :: List.replicate 31 0, rfl⟩⟩

/-- `SIGHASH_SINGLE` for an input that has no output of the same index. -/
def singleOutOfRange (hashType : SigHashType) (tx : MsgTx) (idx : Nat) : Prop :=
  hashType &&& sigHashMask = sigHashSingle ∧ tx.txOut.length ≤ idx

instance (hashType : SigHashType) (tx : MsgTx) (idx : Nat) :
    Decidable (singleOutOfRange hashType tx idx) := inferInstanceAs (Decidable (_ ∧ _))

/-- A tag, where it is used. -/
def domainTag (tag : Bytes) (hashType : SigHashType) (replayProtectionActive : Bool) : Bytes :=
  if shouldUseOBTCReplayProtectionDomain hashType replayProtectionActive then tag else []

def calcSignatureHashWithReplayProtection (sigScript : Bytes) (hashType : SigHashType) (tx : MsgTx)
    (idx : Nat) (replayProtectionActive : Bool) : Hash :=
  if singleOutOfRange hashType tx idx then oneHash
  else
    doubleHashRaw (domainTag obtcReplaySighashTagV0 hashType replayProtectionActive ++
      legacyMessage sigScript hashType tx idx)

/-! ## The digest of segwit version 0 -/

/-- The hashes of the parts of a transaction. -/
structure TxSigHashes where
  hashPrevOutsV0 : Hash
  hashSequenceV0 : Hash
  hashOutputsV0 : Hash
  hashPrevOutsV1 : Hash
  hashSequenceV1 : Hash
  hashOutputsV1 : Hash
  hashInputScriptsV1 : Hash
  hashInputAmountsV1 : Hash

def isWitnessPubKeyHashScript (script : Bytes) : Bool :=
  script.length == 22 && script.take 2 == [op0, opData20]

/-- The script code that the segwit digest commits to. -/
def scriptCode (subScript : Bytes) : Bytes :=
  if isWitnessPubKeyHashScript subScript then
    [0x19, opDup, opHash160, opData20] ++ subScript.drop 2 ++ [opEqualVerify, opCheckSig]
  else writeVarBytes subScript

/-- What the segwit digest hashes for the input `txIn`, behind the tag. -/
def witnessMessage (subScript : Bytes) (sigHashes : TxSigHashes) (hashType : SigHashType)
    (tx : MsgTx) (idx : Nat) (txIn : TxIn) (amt : Int64) : Bytes :=
  let base := hashType &&& sigHashMask
  let anyOneCanPay := hashType &&& sigHashAnyOneCanPay ≠ 0
  le 4 tx.version.toUInt32.toNat ++
    (if anyOneCanPay then Hash.zero else sigHashes.hashPrevOutsV0).bytes.val ++
    (if ¬ anyOneCanPay ∧ base ≠ sigHashSingle ∧ base ≠ sigHashNone then sigHashes.hashSequenceV0
      else Hash.zero).bytes.val ++
    txIn.previousOutPoint.write ++ scriptCode subScript ++ le 8 amt.toUInt64.toNat ++
    le 4 txIn.sequence.toNat ++
    (if base ≠ sigHashSingle ∧ base ≠ sigHashNone then sigHashes.hashOutputsV0
      else match tx.txOut[idx]? with
        | some out => if base = sigHashSingle then doubleHashRaw out.write else Hash.zero
        | none => Hash.zero).bytes.val ++
    le 4 tx.lockTime.toNat ++ le 4 hashType.toNat

/-- The error for an index beyond the inputs. -/
def txInsError (tx : MsgTx) (idx : Nat) : GoError :=
  .other ("idx " ++ toString idx ++ " but " ++ toString tx.txIn.length ++ " txins")

def calcWitnessSignatureHashRawWithReplayProtection (subScript : Bytes) (sigHashes : TxSigHashes)
    (hashType : SigHashType) (tx : MsgTx) (idx : Nat) (amt : Int64)
    (replayProtectionActive : Bool) : Except GoError Hash :=
  match tx.txIn[idx]? with
  | none => .error (txInsError tx idx)
  | some txIn =>
    .ok (doubleHashRaw (domainTag obtcReplaySighashTagV1 hashType replayProtectionActive ++
      witnessMessage subScript sigHashes hashType tx idx txIn amt))

/-! ## The digest of taproot -/

/-- `chainhash.TaggedHash`. -/
def taggedHash (tag message : Bytes) : Hash :=
  ⟨Sha256.sum256 ((Sha256.sum256 tag).val ++ (Sha256.sum256 tag).val ++ message)⟩

/-- The leaf is the tapscript extension: the position of the last code
separator and the hash of the leaf. -/
structure TaprootSigHashOptions where
  annexHash : Option Bytes := none
  leaf : Option (UInt32 × Hash) := none
  allowOBTCReplayProtection : Bool := false

def withAnnex (annex : Bytes) (opts : TaprootSigHashOptions) : TaprootSigHashOptions :=
  { opts with annexHash := some (Sha256.sum256 (writeVarBytes annex)).val }

/-- `writeDigestExtensions`, with the key version zero. -/
def writeDigestExtensions : Option (UInt32 × Hash) → Bytes
  | none => []
  | some (codeSepPos, tapLeafHash) =>
    tapLeafHash.bytes.val ++ [0] ++ le 4 codeSepPos.toNat

/-- The hash type that selects what the taproot digest commits to. -/
def normalizedHashType (hType : SigHashType) : SigHashType :=
  if isOBTCReplayProtectedSigHashType hType then stripOBTCReplayProtection hType else hType

/-- What the taproot digest commits to of the input itself: the input and the output it spends with
`SIGHASH_ANYONECANPAY`, its index without. -/
def taprootInput (hashType : SigHashType) (idx : Nat) (input : TxIn)
    (prevOutFetcher : OutPoint → Option TxOut) : Except GoError Bytes :=
  if hashType &&& sigHashAnyOneCanPay = sigHashAnyOneCanPay then
    match prevOutFetcher input.previousOutPoint with
    | none => .error (.panic "runtime error: invalid memory address or nil pointer dereference")
    | some prevOut =>
      .ok (input.previousOutPoint.write ++ prevOut.write ++ le 4 input.sequence.toNat)
  else .ok (le 4 idx)

/-- What the taproot digest commits to of the output of the input's index. -/
def taprootOutput (hashType : SigHashType) (tx : MsgTx) (idx : Nat) : Except GoError Bytes :=
  if hashType &&& sigHashMask = sigHashSingle then
    match tx.txOut[idx]? with
    | none => .error (.other "invalid sighash type for input")
    | some out => .ok (Sha256.sum256 out.write).val
  else .ok []

/-- The message of the taproot digest, from the epoch on. -/
def taprootMessage (sigHashes : TxSigHashes) (hType : SigHashType) (tx : MsgTx) (idx : Nat)
    (input : TxIn) (prevOutFetcher : OutPoint → Option TxOut) (opts : TaprootSigHashOptions) :
    Except GoError Bytes := do
  let hashType := normalizedHashType hType
  let spent ← taprootInput hashType idx input prevOutFetcher
  let output ← taprootOutput hashType tx idx
  let spendType : UInt8 :=
    (if opts.leaf.isSome then 2 else 0) + (if opts.annexHash.isSome then 1 else 0)
  return [0x00, hType.toUInt8] ++ le 4 tx.version.toUInt32.toNat ++
    le 4 tx.lockTime.toNat ++
    (if hashType &&& sigHashAnyOneCanPay ≠ sigHashAnyOneCanPay then
      sigHashes.hashPrevOutsV1.bytes.val ++ sigHashes.hashInputAmountsV1.bytes.val ++
        sigHashes.hashInputScriptsV1.bytes.val ++ sigHashes.hashSequenceV1.bytes.val
      else []) ++
    (if hashType &&& sigHashSingle ≠ sigHashSingle ∧ hashType &&& sigHashSingle ≠ sigHashNone then
      sigHashes.hashOutputsV1.bytes.val else []) ++
    [spendType] ++ spent ++ opts.annexHash.getD [] ++ output ++ writeDigestExtensions opts.leaf

/-- The tag of the taproot digest. -/
def taprootTag (hType : SigHashType) (allowOBTCReplayProtection : Bool) : Bytes :=
  if isOBTCReplayProtectedSigHashType hType && allowOBTCReplayProtection then
    obtcReplayTapSighashTag
  else tagTapSighash

def calcTaprootSignatureHashRaw (sigHashes : TxSigHashes) (hType : SigHashType) (tx : MsgTx)
    (idx : Nat) (prevOutFetcher : OutPoint → Option TxOut) (opts : TaprootSigHashOptions) :
    Except GoError Hash :=
  if (isOBTCReplayProtectedSigHashType hType && !opts.allowOBTCReplayProtection) ||
      !isValidTaprootSigHash (normalizedHashType hType) then
    .error (.other ("invalid taproot sighash type: " ++ toString hType))
  else
    match tx.txIn[idx]? with
    | none => .error (txInsError tx idx)
    | some input => do
      let sigMsg ← taprootMessage sigHashes hType tx idx input prevOutFetcher opts
      return taggedHash (taprootTag hType opts.allowOBTCReplayProtection) sigMsg

/-! ## What the digests hash -/

/-- The preimage of the original digest. -/
def legacyPreimage (sigScript : Bytes) (hashType : SigHashType) (tx : MsgTx) (idx : Nat)
    (replayProtectionActive : Bool) : Preimage :=
  if singleOutOfRange hashType tx idx then .constant oneHash.bytes
  else
    .double (domainTag obtcReplaySighashTagV0 hashType replayProtectionActive ++
      legacyMessage sigScript hashType tx idx)

theorem bytes_calcSignatureHash (sigScript : Bytes) (hashType : SigHashType) (tx : MsgTx)
    (idx : Nat) (active : Bool) :
    (calcSignatureHashWithReplayProtection sigScript hashType tx idx active).bytes =
      (legacyPreimage sigScript hashType tx idx active).digest Sha256.sum256 := by
  unfold calcSignatureHashWithReplayProtection legacyPreimage
  by_cases h : singleOutOfRange hashType tx idx
  · rw [if_pos h, if_pos h]
    rfl
  · rw [if_neg h, if_neg h]
    rfl

end Txscript

end Obtcd
