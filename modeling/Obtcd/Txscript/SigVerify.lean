import Mathlib
import Obtcd.Blockchain.Script
import Obtcd.Txscript.Sighash

/-!
# Signature checks of the script engine

The signature opcodes of `opcode.go`, the verifiers of `sigvalidate.go` they build and the taproot
key path of `verifyWitnessProgram`.  There are five paths, and each of them takes the hash type off
the signature on its own:

* `OP_CHECKSIG` outside of a witness program, and in a version 0 one (`checkSigBase`);
* `OP_CHECKSIG` and `OP_CHECKSIGADD` in tapscript (`newBaseTapscriptSigVerifier`);
* `OP_CHECKMULTISIG`, whose loop parses a signature once and then tries it against one key after
  the other (`multiSigLoop`);
* the taproot key path (`taprootKeyPath`).

A `Vm` has what these read of the engine, with the script since the last code separator in
`subScript`.  The curve is a parameter: `Crypto` says what parses and what verifies.  A signature
cache may hold anything.  It is shared with other engines, so what a step has added to it stays
there when the step fails: a `Failure` has the cache beside the error.
-/

namespace Obtcd

open ScriptFlags

namespace ScriptFlags

def verifyLowS : ScriptFlags := (1 : UInt32) <<< 7
def verifyNullFail : ScriptFlags := (1 : UInt32) <<< 9
def verifyStrictEncoding : ScriptFlags := (1 : UInt32) <<< 11
def verifyWitnessPubKeyType : ScriptFlags := (1 : UInt32) <<< 15
def verifyDiscourageUpgradeablePubkeyType : ScriptFlags := (1 : UInt32) <<< 19
def verifyConstScriptCode : ScriptFlags := (1 : UInt32) <<< 20

end ScriptFlags

namespace Txscript

/-! ## Errors -/

/-- `txscript.ErrorCode`, the codes that the signature checks raise. -/
inductive ScriptErrorCode where
  | errInvalidStackOperation
  | errNumberTooBig
  | errMinimalData
  | errElementTooBig
  | errCheckSigVerify
  | errCheckMultiSigVerify
  | errReservedOpcode
  | errInvalidPubKeyCount
  | errInvalidSignatureCount
  | errTooManyOperations
  | errInvalidSigHashType
  | errSigTooShort
  | errSigTooLong
  | errSigInvalidSeqID
  | errSigInvalidDataLen
  | errSigMissingSTypeID
  | errSigMissingSLen
  | errSigInvalidSLen
  | errSigInvalidRIntID
  | errSigZeroRLen
  | errSigNegativeR
  | errSigTooMuchRPadding
  | errSigInvalidSIntID
  | errSigZeroSLen
  | errSigNegativeS
  | errSigTooMuchSPadding
  | errSigHighS
  | errSigNullDummy
  | errPubKeyType
  | errWitnessPubKeyType
  | errNullFail
  | errNonConstScriptCode
  | errWitnessProgramEmpty
  | errTaprootSigInvalid
  | errInvalidTaprootSigLen
  | errTaprootPubkeyIsEmpty
  | errTaprootMaxSigOps
  | errDiscourageUpgradeablePubKeyType
  | errTapscriptCheckMultisig
deriving DecidableEq

/-- What a step of the engine fails with: a `txscript.Error`, any other error, or a panic. -/
inductive VmError where
  | script (code : ScriptErrorCode) (description : String)
  | other (text : String)
  | panic (text : String)
deriving DecidableEq

/-- An error of the digest code, seen by the engine. -/
def VmError.ofGoError : GoError → VmError
  | .panic text => .panic text
  | e => .other e.text

/-- Go on only if the condition holds. -/
def require (c : Prop) [Decidable c] (e : VmError) : Except VmError Unit :=
  if c then .ok () else .error e

theorem require_eq_ok {c : Prop} [Decidable c] {e : VmError} : require c e = .ok () ↔ c := by
  unfold require
  by_cases hc : c <;> simp [hc]

/-- A number as `%x` prints it. -/
def hexNat (n : Nat) : String := String.ofList (Nat.toDigits 16 n)

/-! ## The data stack -/

def asBool : Bytes → Bool
  | [] => false
  | [b] => b != 0 && b != 0x80
  | b :: c :: bs => b != 0 || asBool (c :: bs)

def fromBool (v : Bool) : Bytes := if v then [1] else []

/-- `PopByteArray`, on a stack with its top first. -/
def popByteArray : List Bytes → Except VmError (Bytes × List Bytes)
  | [] => .error (.script .errInvalidStackOperation "index 0 is invalid for stack size 0")
  | so :: stk => .ok (so, stk)

/-- `n` times `PopByteArray`. -/
def popN : Nat → List Bytes → Except VmError (List Bytes × List Bytes)
  | 0, stk => .ok ([], stk)
  | n + 1, stk => do
    let (so, stk) ← popByteArray stk
    let (sos, stk) ← popN n stk
    return (so :: sos, stk)

def checkMinimalDataEncoding (v : Bytes) : Except VmError Unit :=
  require (v = [] ∨ v.getLastD 0 &&& 0x7f ≠ 0 ∨ (1 < v.length ∧ v.dropLast.getLastD 0 &&& 0x80 ≠ 0))
    (.script .errMinimalData
      ("numeric value encoded as " ++ Bytes.hex v ++ " is not minimally encoded"))

def maxScriptNumLen : Nat := 4

def makeScriptNum (v : Bytes) (requireMinimal : Bool) : Except VmError Int := do
  require (v.length ≤ maxScriptNumLen) (.script .errNumberTooBig
    ("numeric value encoded as " ++ Bytes.hex v ++ " is " ++ toString v.length ++
      " bytes which exceeds the max allowed of " ++ toString maxScriptNumLen))
  (if requireMinimal then checkMinimalDataEncoding v else .ok ())
  -- the top bit of the last byte is the sign
  return if v.getLastD 0 &&& 0x80 ≠ 0 then
    -((Bytes.leNat v : Int) - 0x80 * 256 ^ (v.length - 1))
  else Bytes.leNat v

def popInt (verifyMinimalData : Bool) (stk : List Bytes) : Except VmError (Int × List Bytes) := do
  let (so, stk) ← popByteArray stk
  let n ← makeScriptNum so verifyMinimalData
  return (n, stk)

/-! ## The engine -/

/-- The curve code that the engine calls: what parses as a key or a signature, and what verifies. -/
structure Crypto where
  PubKey : Type
  Signature : Type
  parsePubKey : Bytes → Except String PubKey
  parseDERSignature : Bytes → Except String Signature
  parseSignature : Bytes → Except String Signature
  verify : Signature → Hash → PubKey → Bool
  SchnorrPubKey : Type
  SchnorrSignature : Type
  parseSchnorrPubKey : Bytes → Except String SchnorrPubKey
  parseSchnorrSignature : Bytes → Except String SchnorrSignature
  verifySchnorr : SchnorrSignature → Hash → SchnorrPubKey → Bool

/-- `evict` are the choices of the entries that have to go, one for each call of `Add`
still to come. -/
structure SigCache where
  validSigs : List (Hash × Bytes × Bytes)
  maxEntries : Nat
  evict : Nat → Nat

/-- `SigCache.Exists`. -/
def SigCache.contains (c : SigCache) (sigHash : Hash) (sig pubKey : Bytes) : Bool :=
  c.validSigs.lookup sigHash == some (sig, pubKey)

def SigCache.add (c : SigCache) (sigHash : Hash) (sig pubKey : Bytes) : SigCache :=
  if c.maxEntries = 0 then c
  else
    let kept :=
      if c.validSigs.length + 1 > c.maxEntries then
        c.validSigs.eraseIdx (c.evict 0 % c.validSigs.length)
      else c.validSigs
    { c with
      validSigs := (sigHash, sig, pubKey) :: kept.filter (·.1 ≠ sigHash)
      evict := fun n => c.evict (n + 1) }

/-- The part the signature opcodes use. -/
structure TaprootExecutionCtx where
  annex : Option Bytes
  codeSepPos : UInt32
  tapLeafHash : Hash
  sigOpsBudget : Int32

/-- `Engine`, the part that the signature checks read and write. -/
structure Vm where
  flags : ScriptFlags
  tx : MsgTx
  txIdx : Nat
  inputAmount : Int64
  sigHashes : TxSigHashes
  prevOutFetcher : OutPoint → Option TxOut
  witnessProgram : Option Bytes
  witnessVersion : Nat
  taprootCtx : Option TaprootExecutionCtx
  subScript : Bytes
  verifyMinimalData : Bool
  numOps : Int
  dstack : List Bytes
  sigCache : Option SigCache

/-- What a step that fails leaves: the error, and the cache at that point. -/
structure Failure where
  error : VmError
  sigCache : Option SigCache

/-- The result of verifying one signature: is it valid, did it occur in the script, and the cache
afterwards. -/
structure VerifyResult where
  sigValid : Bool
  sigMatch : Bool
  sigCache : Option SigCache

namespace Vm

variable (crypto : Crypto) (vm : Vm)

def hasFlag (flag : ScriptFlags) : Bool := vm.flags &&& flag == flag

/-- Is replay protection active? -/
def replayProtected : Bool := vm.hasFlag verifyOBTCReplayProtection

def isWitnessVersionActive (version : Nat) : Bool :=
  vm.witnessProgram.isSome && vm.witnessVersion == version

/-- A step that does not touch the cache. -/
def lift {α : Type} (x : Except VmError α) : Except Failure α :=
  x.mapError fun e => ⟨e, vm.sigCache⟩

theorem lift_eq_ok {α : Type} {x : Except VmError α} {a : α} : vm.lift x = .ok a ↔ x = .ok a := by
  cases x with
  | ok b => exact ⟨fun h => congrArg _ (Except.ok.inj h), fun h => congrArg _ (Except.ok.inj h)⟩
  | error e => exact ⟨nofun, nofun⟩

@[simp] theorem lift_ok {α : Type} (a : α) : vm.lift (.ok a) = .ok a := rfl

/-- `PushByteArray`. -/
def push (so : Bytes) : Vm := { vm with dstack := so :: vm.dstack }

/-! ## Encodings -/

def checkHashTypeEncoding (hashType : SigHashType) : Except VmError Unit :=
  if vm.replayProtected then do
    require (isOBTCReplayProtectedSigHashType hashType = true) (.script .errInvalidSigHashType
      ("missing OBTC replay-protected sighash bit: 0x" ++ hexNat hashType.toNat))
    let sigHashType := hashType &&& ~~~(sigHashAnyOneCanPay ||| sigHashOBTCReplayProtection)
    require (¬ (sigHashType < sigHashAll ∨ sigHashType > sigHashSingle))
      (.script .errInvalidSigHashType
        ("invalid OBTC replay-protected hash type 0x" ++ hexNat hashType.toNat))
  else if vm.hasFlag verifyStrictEncoding then
    let sigHashType := hashType &&& ~~~sigHashAnyOneCanPay
    require (¬ (sigHashType < sigHashAll ∨ sigHashType > sigHashSingle))
      (.script .errInvalidSigHashType ("invalid hash type 0x" ++ hexNat hashType.toNat))
  else .ok ()

theorem checkHashTypeEncoding_ok {vm : Vm} {hashType : SigHashType}
    (hrp : vm.replayProtected = true) (h : vm.checkHashTypeEncoding hashType = .ok ()) :
    isOBTCReplayProtectedSigHashType hashType = true := by
  rw [checkHashTypeEncoding, if_pos hrp] at h
  obtain ⟨⟨⟩, hcheck, -⟩ := bind_eq_ok.1 h
  exact require_eq_ok.1 hcheck

def checkPubKeyEncoding (pubKey : Bytes) : Except VmError Unit :=
  let head := pubKey.headD 0
  if vm.hasFlag verifyWitnessPubKeyType && vm.isWitnessVersionActive 0 &&
      !(pubKey.length == 33 && head &&& ~~~1 == 2) then
    .error (.script .errWitnessPubKeyType "only compressed keys are accepted post-segwit")
  else if vm.hasFlag verifyStrictEncoding then
    require (pubKey.length = 33 ∧ (head = 2 ∨ head = 3) ∨ pubKey.length = 65 ∧ head = 4)
      (.script .errPubKeyType "unsupported public key type")
  else .ok ()

/-- Half the order of the curve. -/
def halfOrder : Nat :=
  0x7fffffffffffffffffffffffffffffff5d576e7357a4501ddfe92f46681b20a0

/-- One of the two integers of a signature: its marker, a length that is not zero, no sign and no
padding. -/
def checkSignatureInteger (name : String) (intID zeroLen negative padding : ScriptErrorCode)
    (sig : Bytes) (typeOffset offset len : Nat) : Except VmError Unit := do
  let byte (i : Nat) : UInt8 := sig.getD i 0
  require (byte typeOffset = 0x02) (.script intID ("malformed signature: " ++ name ++
    " integer marker: 0x" ++ hexNat (byte typeOffset).toNat ++ " != 0x2"))
  require (len ≠ 0) (.script zeroLen ("malformed signature: " ++ name ++ " length is zero"))
  require (byte offset &&& 0x80 = 0)
    (.script negative ("malformed signature: " ++ name ++ " is negative"))
  require (¬ (len > 1 ∧ byte offset = 0 ∧ byte (offset + 1) &&& 0x80 = 0))
    (.script padding ("malformed signature: " ++ name ++ " value has too much padding"))

/-- The DER part of `checkSignatureEncoding`. -/
def checkDEREncoding (sig : Bytes) : Except VmError Unit := do
  let byte (i : Nat) : UInt8 := sig.getD i 0
  let sigLen := sig.length
  require (8 ≤ sigLen) (.script .errSigTooShort
    ("malformed signature: too short: " ++ toString sigLen ++ " < 8"))
  require (sigLen ≤ 72) (.script .errSigTooLong
    ("malformed signature: too long: " ++ toString sigLen ++ " > 72"))
  require (byte 0 = 0x30) (.script .errSigInvalidSeqID
    ("malformed signature: format has wrong type: 0x" ++ hexNat (byte 0).toNat))
  require ((byte 1).toNat = sigLen - 2) (.script .errSigInvalidDataLen
    ("malformed signature: bad length: " ++ toString (byte 1) ++ " != " ++ toString (sigLen - 2)))
  let rLen := (byte 3).toNat
  let sTypeOffset := 4 + rLen
  let sLenOffset := sTypeOffset + 1
  require (sTypeOffset < sigLen)
    (.script .errSigMissingSTypeID "malformed signature: S type indicator missing")
  require (sLenOffset < sigLen) (.script .errSigMissingSLen "malformed signature: S length missing")
  let sOffset := sLenOffset + 1
  let sLen := (byte sLenOffset).toNat
  require (sOffset + sLen = sigLen)
    (.script .errSigInvalidSLen "malformed signature: invalid S length")
  checkSignatureInteger "R" .errSigInvalidRIntID .errSigZeroRLen .errSigNegativeR
    .errSigTooMuchRPadding sig 2 4 rLen
  checkSignatureInteger "S" .errSigInvalidSIntID .errSigZeroSLen .errSigNegativeS
    .errSigTooMuchSPadding sig sTypeOffset sOffset sLen
  require (¬ (vm.hasFlag verifyLowS = true ∧
      Bytes.beNat ((sig.drop sOffset).take sLen) > halfOrder))
    (.script .errSigHighS "signature is not canonical due to unnecessarily high S value")

def checkSignatureEncoding (sig : Bytes) : Except VmError Unit :=
  if vm.hasFlag verifyDERSignatures || vm.hasFlag verifyLowS || vm.hasFlag verifyStrictEncoding then
    vm.checkDEREncoding sig
  else .ok ()

/-! ## The digests and the cache -/

/-- The digest that a signature outside of a witness program is verified against. -/
def baseDigest (subScript : Bytes) (hashType : SigHashType) : Hash :=
  calcSignatureHashWithReplayProtection subScript hashType vm.tx vm.txIdx vm.replayProtected

/-- The digest that a signature in a version 0 witness program is verified against. -/
def segwitDigest (subScript : Bytes) (hashType : SigHashType) : Except GoError Hash :=
  calcWitnessSignatureHashRawWithReplayProtection subScript vm.sigHashes hashType vm.tx vm.txIdx
    vm.inputAmount vm.replayProtected

/-- The options of the taproot digest: of the key path without a leaf, of tapscript with one. -/
def taprootOptions (annex : Option Bytes) (leaf : Option (UInt32 × Hash)) : TaprootSigHashOptions :=
  let opts : TaprootSigHashOptions :=
    { leaf, allowOBTCReplayProtection := vm.replayProtected }
  match annex with
  | none => opts
  | some annex => withAnnex annex opts

/-- The digest that a taproot signature is verified against. -/
def taprootDigest (annex : Option Bytes) (leaf : Option (UInt32 × Hash)) (hashType : SigHashType) :
    Except GoError Hash :=
  calcTaprootSignatureHashRaw vm.sigHashes hashType vm.tx vm.txIdx vm.prevOutFetcher
    (vm.taprootOptions annex leaf)

/-- The lookup in the cache and the verification that all paths share: a signature that is not in
the cache is verified, and added if it is valid. -/
def verifySig (sigHash : Hash) (sigBytes pkBytes : Bytes) (verified : Bool) :
    Bool × Option SigCache :=
  match vm.sigCache with
  | none => (verified, none)
  | some cache =>
    if cache.contains sigHash sigBytes pkBytes then (true, some cache)
    else if verified then (true, some (cache.add sigHash sigBytes pkBytes))
    else (false, some cache)

/-! ## Signatures outside of taproot -/

/-- The parsing of a signature, strict or not depending on the flags. -/
def parseSignature (sigBytes : Bytes) : Except String crypto.Signature :=
  if vm.hasFlag verifyStrictEncoding || vm.hasFlag verifyDERSignatures then
    crypto.parseDERSignature sigBytes
  else crypto.parseSignature sigBytes

/-- An error of the curve code, which is not a script error. -/
def liftCrypto {α : Type} : Except String α → Except VmError α
  | .ok a => .ok a
  | .error text => .error (.other text)

def parseBaseSigAndPubkey (pkBytes fullSigBytes : Bytes) :
    Except VmError (crypto.PubKey × crypto.Signature × SigHashType) :=
  match fullSigBytes.getLast? with
  | none => .error (.panic "runtime error: index out of range [-1]")
  | some last => do
    let hashType := last.toUInt32
    let sigBytes := fullSigBytes.dropLast
    vm.checkHashTypeEncoding hashType
    vm.checkSignatureEncoding sigBytes
    vm.checkPubKeyEncoding pkBytes
    let pubKey ← liftCrypto (crypto.parsePubKey pkBytes)
    let signature ← liftCrypto (vm.parseSignature crypto sigBytes)
    return (pubKey, signature, hashType)

/-- `baseSigVerifier.Verify`. -/
def verifyBase (pkBytes fullSigBytes : Bytes)
    (parsed : crypto.PubKey × crypto.Signature × SigHashType) : Except VmError VerifyResult :=
  let (pubKey, sig, hashType) := parsed
  let (subScript, sigMatch) := removeOpcodeByData vm.subScript fullSigBytes
  let sigHash := vm.baseDigest subScript hashType
  let (sigValid, sigCache) :=
    vm.verifySig sigHash fullSigBytes.dropLast pkBytes (crypto.verify sig sigHash pubKey)
  .ok ⟨sigValid, sigMatch, sigCache⟩

/-- `baseSegwitSigVerifier.Verify`. -/
def verifySegwit (pkBytes fullSigBytes : Bytes)
    (parsed : crypto.PubKey × crypto.Signature × SigHashType) : Except VmError VerifyResult :=
  let (pubKey, sig, hashType) := parsed
  match vm.segwitDigest vm.subScript hashType with
  | .error (.panic text) => .error (.panic text)
  | .error _ => .ok ⟨false, false, vm.sigCache⟩
  | .ok sigHash =>
    let (sigValid, sigCache) :=
      vm.verifySig sigHash fullSigBytes.dropLast pkBytes (crypto.verify sig sigHash pubKey)
    .ok ⟨sigValid, false, sigCache⟩

/-- The verifier that `opcodeCheckSig` builds outside of tapscript. -/
def verifyParsed (pkBytes fullSigBytes : Bytes)
    (parsed : crypto.PubKey × crypto.Signature × SigHashType) : Except VmError VerifyResult :=
  if vm.witnessProgram.isNone then vm.verifyBase crypto pkBytes fullSigBytes parsed
  else vm.verifySegwit crypto pkBytes fullSigBytes parsed

/-- The end of `opcodeCheckSig`: the result of the verifier becomes the top of the stack. -/
def finishCheckSig (fullSigBytes : Bytes) (result : VerifyResult) : Except Failure Vm := do
  let vm := { vm with sigCache := result.sigCache }
  vm.lift <| require (¬ (vm.hasFlag verifyConstScriptCode = true ∧ result.sigMatch = true))
    (.script .errNonConstScriptCode "non-const script code")
  vm.lift <| require (¬ (result.sigValid = false ∧ fullSigBytes ≠ [] ∧
      (vm.taprootCtx.isSome = true ∨ vm.hasFlag verifyNullFail = true)))
    (.script .errNullFail "signature not empty on failed checksig")
  return vm.push (fromBool result.sigValid)

/-- `opcodeCheckSig` outside of tapscript.  An error that is not a script error counts as a failed
check. -/
def checkSigBase (pkBytes fullSigBytes : Bytes) : Except Failure Vm :=
  match vm.parseBaseSigAndPubkey crypto pkBytes fullSigBytes with
  | .error (.other _) => .ok (vm.push (fromBool false))
  | .error e => .error ⟨e, vm.sigCache⟩
  | .ok parsed => do
    let result ← vm.lift (vm.verifyParsed crypto pkBytes fullSigBytes parsed)
    vm.finishCheckSig fullSigBytes result

/-! ## Signatures of taproot -/

/-- `schnorr.SignatureSize`. -/
def schnorrSignatureSize : Nat := 64

def parseTaprootSigAndPubKey (pkBytes rawSig : Bytes) :
    Except VmError (crypto.SchnorrPubKey × crypto.SchnorrSignature × SigHashType) := do
  let pubKey ← liftCrypto (crypto.parseSchnorrPubKey pkBytes)
  if rawSig.length = schnorrSignatureSize then
    let sig ← liftCrypto (crypto.parseSchnorrSignature rawSig)
    return (pubKey, sig, sigHashDefault)
  else if rawSig.length = schnorrSignatureSize + 1 ∧ rawSig.getLastD 0 ≠ 0 then
    let sig ← liftCrypto (crypto.parseSchnorrSignature rawSig.dropLast)
    return (pubKey, sig, (rawSig.getLastD 0).toUInt32)
  else
    .error (.script .errInvalidTaprootSigLen ("invalid sig len: " ++ toString rawSig.length))

/-- `taprootSigVerifier.Verify` and, with a leaf, `baseTapscriptSigVerifier.Verify`. -/
def verifyTaproot (pkBytes fullSigBytes : Bytes) (annex : Option Bytes)
    (leaf : Option (UInt32 × Hash))
    (parsed : crypto.SchnorrPubKey × crypto.SchnorrSignature × SigHashType) :
    Except VmError VerifyResult :=
  let (pubKey, sig, hashType) := parsed
  match vm.taprootDigest annex leaf hashType with
  | .error (.panic text) => .error (.panic text)
  | .error _ => .ok ⟨false, false, vm.sigCache⟩
  | .ok sigHash =>
    let (sigValid, sigCache) :=
      vm.verifySig sigHash fullSigBytes pkBytes (crypto.verifySchnorr sig sigHash pubKey)
    .ok ⟨sigValid, false, sigCache⟩

/-- `newBaseTapscriptSigVerifier` and the verifier's `Verify`.  A key of a length that is not known
passes without a check. -/
def verifyTapscript (ctx : TaprootExecutionCtx) (pkBytes rawSig : Bytes) :
    Except VmError VerifyResult :=
  if pkBytes.length = 0 then .error (.script .errTaprootPubkeyIsEmpty "")
  else if pkBytes.length = 32 then do
    let parsed ← parseTaprootSigAndPubKey crypto pkBytes rawSig
    require (¬ (vm.replayProtected = true ∧ isOBTCReplayProtectedSigHashType parsed.2.2 = false))
      (.script .errInvalidSigHashType
        ("taproot sighash type missing OBTC replay-protected bit: 0x" ++ hexNat parsed.2.2.toNat))
    vm.verifyTaproot crypto pkBytes rawSig ctx.annex (some (ctx.codeSepPos, ctx.tapLeafHash)) parsed
  else do
    require (vm.hasFlag verifyDiscourageUpgradeablePubkeyType = false)
      (.script .errDiscourageUpgradeablePubKeyType
        ("pubkey of length " ++ toString pkBytes.length ++ " was used"))
    return ⟨true, false, vm.sigCache⟩

def sigOpsDelta : Int32 := 50

/-- `tallysigOp`, for a signature that is not empty. -/
def tallysigOp (ctx : TaprootExecutionCtx) (sigBytes : Bytes) :
    Except VmError TaprootExecutionCtx :=
  if sigBytes = [] then .ok ctx
  else
    let budget := ctx.sigOpsBudget - sigOpsDelta
    if budget < 0 then .error (.script .errTaprootMaxSigOps "")
    else .ok { ctx with sigOpsBudget := budget }

/-- `opcodeCheckSig` in tapscript. -/
def checkSigTapscript (ctx : TaprootExecutionCtx) (pkBytes fullSigBytes : Bytes) :
    Except Failure Vm := do
  let ctx ← vm.lift (tallysigOp ctx fullSigBytes)
  let vm := { vm with taprootCtx := some ctx }
  vm.lift (require (pkBytes ≠ []) (.script .errTaprootPubkeyIsEmpty ""))
  if fullSigBytes = [] then return vm.push []
  else
    let result ← vm.lift (vm.verifyTapscript crypto ctx pkBytes fullSigBytes)
    vm.finishCheckSig fullSigBytes result

/-! ## The opcodes -/

def opcodeCheckSig : Except Failure Vm := do
  let (pkBytes, stk) ← vm.lift (popByteArray vm.dstack)
  let (fullSigBytes, stk) ← vm.lift (popByteArray stk)
  let vm := { vm with dstack := stk }
  if vm.taprootCtx.isNone && fullSigBytes.isEmpty then return vm.push (fromBool false)
  else if vm.witnessProgram.isNone || vm.isWitnessVersionActive 0 then
    vm.checkSigBase crypto pkBytes fullSigBytes
  else
    match vm.taprootCtx with
    | some ctx => vm.checkSigTapscript crypto ctx pkBytes fullSigBytes
    | none =>
      vm.lift <| .error <| .panic "runtime error: invalid memory address or nil pointer dereference"

def abstractVerify (name : String) (code : ScriptErrorCode) : Except VmError Vm := do
  let (top, stk) ← popByteArray vm.dstack
  require (asBool top = true) (.script code (name ++ " failed"))
  return { vm with dstack := stk }

def opcodeCheckSigVerify : Except Failure Vm := do
  let vm ← vm.opcodeCheckSig crypto
  vm.lift (vm.abstractVerify "OP_CHECKSIGVERIFY" .errCheckSigVerify)

def opcodeCheckSigAdd : Except Failure Vm :=
  match vm.taprootCtx with
  | none =>
    vm.lift <| .error <|
      .script .errReservedOpcode "attempt to execute invalid opcode OP_CHECKSIGADD"
  | some ctx => do
    let (pubKeyBytes, stk) ← vm.lift (popByteArray vm.dstack)
    let (accumulatorInt, stk) ← vm.lift (popInt vm.verifyMinimalData stk)
    let (sigBytes, stk) ← vm.lift (popByteArray stk)
    let ctx ← vm.lift (tallysigOp ctx sigBytes)
    let vm := { vm with dstack := stk, taprootCtx := some ctx }
    vm.lift (require (pubKeyBytes ≠ []) (.script .errTaprootPubkeyIsEmpty ""))
    if sigBytes = [] then return vm.push (scriptNumBytes accumulatorInt)
    else
      let result ← vm.lift (vm.verifyTapscript crypto ctx pubKeyBytes sigBytes)
      let vm := { vm with sigCache := result.sigCache }
      vm.lift <| require (result.sigValid = true)
        (.script .errNullFail "signature not empty on failed checksig")
      return vm.push (scriptNumBytes (accumulatorInt + 1))

/-! ## Multisig -/

def maxOpsPerScript : Int := 201

/-- A byte slice as `%v` prints it. -/
def formatBytes (bs : Bytes) : String := "[" ++ " ".intercalate (bs.map toString) ++ "]"

/-- The script without the signatures. -/
def removeSignatures : List Bytes → Bytes → Except VmError Bytes
  | [], script => .ok script
  | sig :: sigs, script => do
    let (script, sigMatch) := removeOpcodeByData script sig
    require (¬ (vm.hasFlag verifyConstScriptCode = true ∧ sigMatch = true))
      (.script .errNonConstScriptCode
        ("got match of " ++ formatBytes sig ++ " in " ++ formatBytes script))
    removeSignatures sigs script

/-- The script that the signatures of a multisig sign. -/
def multiSigScript (signatures : List Bytes) : Except VmError Bytes :=
  if vm.isWitnessVersionActive 0 then .ok vm.subScript
  else vm.removeSignatures signatures vm.subScript

/-- What `opcodeCheckMultiSig` has taken off the stack when its loop starts. -/
structure MultiSigArgs where
  pubKeys : List Bytes
  signatures : List Bytes
  script : Bytes
  vm : Vm

/-- The first part of `opcodeCheckMultiSig`: the arguments, from the top of the stack down. -/
def multiSigArgs : Except VmError MultiSigArgs := do
  require (vm.taprootCtx.isNone = true) (.script .errTapscriptCheckMultisig
    ("OP_CHECKMULTISIG and OP_CHECKMULTISIGVERIFY are disabled during tapscript execution"))
  let (numPubKeys, stk) ← popInt vm.verifyMinimalData vm.dstack
  require (0 ≤ numPubKeys) (.script .errInvalidPubKeyCount
    ("number of pubkeys " ++ toString numPubKeys ++ " is negative"))
  require (numPubKeys ≤ maxPubKeysPerMultiSig) (.script .errInvalidPubKeyCount
    ("too many pubkeys: " ++ toString numPubKeys ++ " > " ++ toString maxPubKeysPerMultiSig))
  let vm := { vm with numOps := vm.numOps + numPubKeys }
  require (vm.numOps ≤ maxOpsPerScript) (.script .errTooManyOperations
    ("exceeded max operation limit of " ++ toString maxOpsPerScript))
  let (pubKeys, stk) ← popN numPubKeys.toNat stk
  let (numSignatures, stk) ← popInt vm.verifyMinimalData stk
  require (0 ≤ numSignatures) (.script .errInvalidSignatureCount
    ("number of signatures " ++ toString numSignatures ++ " is negative"))
  require (numSignatures ≤ numPubKeys) (.script .errInvalidSignatureCount
    ("more signatures than pubkeys: " ++ toString numSignatures ++ " > " ++ toString numPubKeys))
  let (signatures, stk) ← popN numSignatures.toNat stk
  let (dummy, stk) ← popByteArray stk
  require (¬ (vm.hasFlag strictMultiSig = true ∧ dummy ≠ []))
    (.script .errSigNullDummy
      ("multisig dummy argument has length " ++ toString dummy.length ++ " instead of 0"))
  let script ← vm.multiSigScript signatures
  return { pubKeys, signatures, script, vm := { vm with dstack := stk } }

/-- The arguments are read without a change of anything but the stack and the number of opcodes. -/
theorem multiSigArgs_vm {vm : Vm} {args : MultiSigArgs} (h : vm.multiSigArgs = .ok args) :
    ∃ numOps dstack, args.vm = { vm with numOps, dstack } := by
  obtain ⟨⟨⟩, -, h⟩ := bind_eq_ok.1 h
  obtain ⟨⟨numPubKeys, stk⟩, -, h⟩ := bind_eq_ok.1 h
  obtain ⟨⟨⟩, -, h⟩ := bind_eq_ok.1 h
  obtain ⟨⟨⟩, -, h⟩ := bind_eq_ok.1 h
  obtain ⟨⟨⟩, -, h⟩ := bind_eq_ok.1 h
  obtain ⟨⟨pubKeys, stk⟩, -, h⟩ := bind_eq_ok.1 h
  obtain ⟨⟨numSignatures, stk⟩, -, h⟩ := bind_eq_ok.1 h
  obtain ⟨⟨⟩, -, h⟩ := bind_eq_ok.1 h
  obtain ⟨⟨⟩, -, h⟩ := bind_eq_ok.1 h
  obtain ⟨⟨signatures, stk⟩, -, h⟩ := bind_eq_ok.1 h
  obtain ⟨⟨dummy, stk⟩, -, h⟩ := bind_eq_ok.1 h
  obtain ⟨⟨⟩, -, h⟩ := bind_eq_ok.1 h
  obtain ⟨script, -, h⟩ := bind_eq_ok.1 h
  cases h
  exact ⟨_, _, rfl⟩

/-- A signature is checked and parsed the first time it is tried; afterwards what came out is used
again (`parsedSigInfo`). -/
def parseOnce (parsed : Option (Option crypto.Signature)) (hashType : SigHashType)
    (signature : Bytes) : Except VmError (Option crypto.Signature) :=
  match parsed with
  | some parsedSignature => .ok parsedSignature
  | none => do
    vm.checkHashTypeEncoding hashType
    vm.checkSignatureEncoding signature
    return (vm.parseSignature crypto signature).toOption

/-- The digest that a signature of a multisig is verified against. -/
def multiSigDigest (script : Bytes) (hashType : SigHashType) : Except VmError Hash :=
  if vm.isWitnessVersionActive 0 then
    match vm.segwitDigest script hashType with
    | .ok hash => .ok hash
    | .error e => .error (.ofGoError e)
  else .ok (vm.baseDigest script hashType)

/-- One parsed signature against one key.  A key that does not parse is passed over. -/
def tryKey (script : Bytes) (hashType : SigHashType) (signature : Bytes)
    (parsedSig : crypto.Signature) (pubKey : Bytes) : Except VmError (Bool × Option SigCache) := do
  vm.checkPubKeyEncoding pubKey
  match crypto.parsePubKey pubKey with
  | .error _ => return (false, vm.sigCache)
  | .ok parsedPubKey =>
    let hash ← vm.multiSigDigest script hashType
    return vm.verifySig hash signature pubKey (crypto.verify parsedSig hash parsedPubKey)

/-- The loop of `opcodeCheckMultiSig` on the keys and the signatures that are left, where `parsed`
is the parse of the first of these signatures if it has been tried before.  Returns whether all
signatures were used up, and how many were. -/
def multiSigLoop (script : Bytes) : List Bytes → List Bytes → Option (Option crypto.Signature) →
    Nat → Vm → Except Failure (Bool × Nat × Vm)
  | _, [], _, signatureIdx, vm => .ok (true, signatureIdx, vm)
  | [], _ :: _, _, signatureIdx, vm => .ok (false, signatureIdx, vm)
  | pubKey :: pubKeys, rawSig :: sigs, parsed, signatureIdx, vm =>
    if sigs.length > pubKeys.length then .ok (false, signatureIdx, vm)
    else
      match rawSig.getLast? with
      | none => multiSigLoop script pubKeys (rawSig :: sigs) parsed signatureIdx vm
      | some last => do
        match ← vm.lift (vm.parseOnce crypto parsed last.toUInt32 rawSig.dropLast) with
        | none => multiSigLoop script pubKeys (rawSig :: sigs) (some none) signatureIdx vm
        | some parsedSig =>
          let (valid, sigCache) ← vm.lift
            (vm.tryKey crypto script last.toUInt32 rawSig.dropLast parsedSig pubKey)
          let vm := { vm with sigCache }
          if valid then multiSigLoop script pubKeys sigs none (signatureIdx + 1) vm
          else
            multiSigLoop script pubKeys (rawSig :: sigs) (some (some parsedSig)) signatureIdx vm

def opcodeCheckMultiSig : Except Failure Vm := do
  let args ← vm.lift vm.multiSigArgs
  let (success, _, vm) ←
    multiSigLoop crypto args.script args.pubKeys args.signatures none 0 args.vm
  vm.lift <| require (¬ (success = false ∧ vm.hasFlag verifyNullFail = true ∧
      ∃ sig ∈ args.signatures, sig ≠ []))
    (.script .errNullFail "not all signatures empty on failed checkmultisig")
  return vm.push (fromBool success)

def opcodeCheckMultiSigVerify : Except Failure Vm := do
  let vm ← vm.opcodeCheckMultiSig crypto
  vm.lift (vm.abstractVerify "OP_CHECKMULTISIGVERIFY" .errCheckMultiSigVerify)

/-! ## The taproot key path -/

def taprootAnnexTag : UInt8 := 0x50

/-- The last element of a witness that has an annex. -/
def extractAnnex (witness : List Bytes) : Option Bytes :=
  if witness.length < 2 then none
  else witness.getLast?.filter fun last => last.head? == some taprootAnnexTag

def verifyTaprootKeySpend (witnessProgram rawSig : Bytes) : Except Failure Vm := do
  let annex := (vm.tx.txIn[vm.txIdx]?).bind fun txIn => extractAnnex txIn.witness
  let parsed ← vm.lift (parseTaprootSigAndPubKey crypto witnessProgram rawSig)
  let result ← vm.lift (vm.verifyTaproot crypto witnessProgram rawSig annex none parsed)
  let vm := { vm with sigCache := result.sigCache }
  vm.lift (require (result.sigValid = true) (.script .errTaprootSigInvalid ""))
  return vm

/-- The taproot case of `verifyWitnessProgram`: a witness that, without its annex, is one signature
is a key spend; for any other one, nothing, a leaf has to be run. -/
def taprootKeyPath (witnessProgram : Bytes) (witness : List Bytes) :
    Except Failure (Option Vm) := do
  vm.lift <| require (witness ≠ [])
    (.script .errWitnessProgramEmpty "witness program empty passed empty witness")
  let stack := if (extractAnnex witness).isSome then witness.dropLast else witness
  match stack with
  | [rawSig] =>
    vm.lift <| require (¬ (vm.replayProtected = true ∧
        (rawSig.length ≠ schnorrSignatureSize + 1 ∨ rawSig.getLastD 0 = 0 ∨
          isOBTCReplayProtectedSigHashType (rawSig.getLastD 0).toUInt32 = false)))
      (.script .errInvalidSigHashType
        "taproot key spend must use OBTC replay-protected sighash type")
    return some (← vm.verifyTaprootKeySpend crypto witnessProgram rawSig)
  | _ => return none

end Vm

end Txscript

end Obtcd
