import Obtcd.Btcec

/-!
# The hash-type byte of a signature that counts

With replay protection active, a signature counts only if its last byte is one of the six protected
hash types: `0x40` together with `ALL`, `NONE` or `SINGLE`, and `0x80` on top of that or not.

`CountsValid` says what it is for a signature to count on each of the paths of the engine: the
opcode pushes true for it, goes through for it, adds one for it, or the multisig loop steps over it.
`counted_signature_protected` is the result over all of them.  It leaves out what tapscript leaves
out: a key that is not 32 bytes long belongs to a version of the rules that does not exist yet, and
any signature under it counts (`unknown_key_type_counts`).
-/

namespace Obtcd.Txscript

/-- The last byte of a signature has the replay-protection bit, and what is left of it without that
bit and without `ANYONECANPAY` is `ALL`, `NONE` or `SINGLE`. -/
def EndsProtected (sig : Bytes) : Prop :=
  ∃ b, sig.getLast? = some b ∧ b &&& 0x40 ≠ 0 ∧
    (b &&& ~~~(0x40 ||| 0x80) = 1 ∨ b &&& ~~~(0x40 ||| 0x80) = 2 ∨ b &&& ~~~(0x40 ||| 0x80) = 3)

/-- The protected hash types, as bytes. -/
theorem protected_byte {b : UInt8} (h : isOBTCReplayProtectedSigHashType b.toUInt32 = true) :
    b &&& 0x40 ≠ 0 ∧ (b &&& ~~~(0x40 ||| 0x80) = 1 ∨ b &&& ~~~(0x40 ||| 0x80) = 2 ∨
      b &&& ~~~(0x40 ||| 0x80) = 3) := by
  have hall : ∀ n : Fin 256, isOBTCReplayProtectedSigHashType (UInt8.ofNat n).toUInt32 = true →
      UInt8.ofNat n &&& 0x40 ≠ 0 ∧ (UInt8.ofNat n &&& ~~~(0x40 ||| 0x80) = 1 ∨
        UInt8.ofNat n &&& ~~~(0x40 ||| 0x80) = 2 ∨ UInt8.ofNat n &&& ~~~(0x40 ||| 0x80) = 3) := by
    decide +kernel
  have hb := hall ⟨b.toNat, b.toNat_lt⟩
  rw [UInt8.ofNat_toNat] at hb
  exact hb h

theorem EndsProtected.of_getLast? {sig : Bytes} {b : UInt8} (hlast : sig.getLast? = some b)
    (h : isOBTCReplayProtectedSigHashType b.toUInt32 = true) : EndsProtected sig :=
  ⟨b, hlast, protected_byte h⟩

namespace Vm

variable {crypto : Crypto} {vm vm' : Vm}

/-! ## The hash-type checks -/

section Protected

variable (hrp : vm.replayProtected = true)
include hrp

variable {sig pkBytes : Bytes}

/-- A signature that parses outside of taproot. -/
theorem parseBaseSigAndPubkey_ok {parsed : crypto.PubKey × crypto.Signature × SigHashType}
    (h : vm.parseBaseSigAndPubkey crypto pkBytes sig = .ok parsed) : EndsProtected sig := by
  unfold parseBaseSigAndPubkey at h
  cases hlast : sig.getLast? with
  | none =>
    rw [hlast] at h
    cases h
  | some last =>
    rw [hlast] at h
    obtain ⟨⟨⟩, hcheck, -⟩ := bind_eq_ok.1 h
    exact .of_getLast? hlast (checkHashTypeEncoding_ok hrp hcheck)

omit hrp in
/-- A taproot signature that parses with a protected hash type has it as its last byte: without one
the type is the default. -/
theorem parseTaprootSigAndPubKey_ok
    {parsed : crypto.SchnorrPubKey × crypto.SchnorrSignature × SigHashType}
    (h : parseTaprootSigAndPubKey crypto pkBytes sig = .ok parsed)
    (hprotected : isOBTCReplayProtectedSigHashType parsed.2.2 = true) : EndsProtected sig := by
  obtain ⟨pubKey, -, hrest⟩ := bind_eq_ok.1 h
  by_cases h64 : sig.length = schnorrSignatureSize
  · rw [if_pos h64] at hrest
    obtain ⟨s, -, hparsed⟩ := bind_eq_ok.1 hrest
    cases hparsed
    exact absurd hprotected (show ¬ isOBTCReplayProtectedSigHashType sigHashDefault = true by decide)
  rw [if_neg h64] at hrest
  by_cases h65 : sig.length = schnorrSignatureSize + 1 ∧ sig.getLastD 0 ≠ 0
  · rw [if_pos h65] at hrest
    obtain ⟨s, -, hparsed⟩ := bind_eq_ok.1 hrest
    cases hparsed
    have hne : sig ≠ [] := by
      intro he
      rw [he] at h65
      cases h65.1
    refine .of_getLast? (b := sig.getLastD 0) ?_ hprotected
    rw [List.getLastD_eq_getLast?, List.getLast?_eq_getLast_of_ne_nil hne]
    rfl
  · rw [if_neg h65] at hrest
    cases hrest

/-- A signature that is verified under a 32-byte key in tapscript. -/
theorem verifyTapscript_ok {ctx : TaprootExecutionCtx} {r : VerifyResult}
    (hkey : pkBytes.length = 32) (h : vm.verifyTapscript crypto ctx pkBytes sig = .ok r) :
    EndsProtected sig := by
  rw [verifyTapscript, if_neg (by omega), if_pos hkey] at h
  obtain ⟨parsed, hparsed, hrest⟩ := bind_eq_ok.1 h
  obtain ⟨⟨⟩, hcheck, -⟩ := bind_eq_ok.1 hrest
  refine parseTaprootSigAndPubKey_ok hparsed ?_
  have hnot := require_eq_ok.1 hcheck
  rw [not_and, Bool.not_eq_false] at hnot
  exact hnot hrp

/-! ## The opcodes -/

omit hrp in
/-- What the end of `opcodeCheckSig` pushes. -/
theorem finishCheckSig_ok {r : VerifyResult} (h : vm.finishCheckSig sig r = .ok vm') :
    vm'.dstack = fromBool r.sigValid :: vm.dstack := by
  obtain ⟨⟨⟩, -, hrest⟩ := bind_eq_ok.1 h
  obtain ⟨⟨⟩, -, hvm⟩ := bind_eq_ok.1 hrest
  cases hvm
  rfl

variable {stk : List Bytes}

/-- `OP_CHECKSIG` outside of tapscript pushes true only for a protected signature. -/
theorem checkSigBase_true (h : vm.checkSigBase crypto pkBytes sig = .ok vm')
    (htop : vm'.dstack = [1] :: stk) : EndsProtected sig := by
  unfold checkSigBase at h
  cases hparse : vm.parseBaseSigAndPubkey crypto pkBytes sig with
  | ok parsed => exact parseBaseSigAndPubkey_ok hrp hparse
  | error e =>
    rw [hparse] at h
    cases e with
    | script code description => cases h
    | panic text => cases h
    | other text =>
      cases h
      cases htop

/-- `OP_CHECKSIG` in tapscript pushes true only for a protected signature, under a 32-byte key. -/
theorem checkSigTapscript_true {ctx : TaprootExecutionCtx} (hkey : pkBytes.length = 32)
    (h : vm.checkSigTapscript crypto ctx pkBytes sig = .ok vm') (htop : vm'.dstack = [1] :: stk) :
    EndsProtected sig := by
  obtain ⟨ctx', -, hrest⟩ := bind_eq_ok.1 h
  obtain ⟨⟨⟩, -, hrest'⟩ := bind_eq_ok.1 hrest
  by_cases hempty : sig = []
  · rw [if_pos hempty] at hrest'
    cases hrest'
    cases htop
  · rw [if_neg hempty] at hrest'
    obtain ⟨result, hverify, -⟩ := bind_eq_ok.1 hrest'
    have hrp' : ({ vm with taprootCtx := some ctx' } : Vm).replayProtected = true := hrp
    exact verifyTapscript_ok hrp' hkey ((lift_eq_ok _).1 hverify)

/-- Is a signature under this key checked by `OP_CHECKSIG`?  In tapscript only a key of 32 bytes
is. -/
def KnownKey (vm : Vm) (pkBytes : Bytes) : Prop :=
  vm.witnessProgram.isSome = true → vm.isWitnessVersionActive 0 = false → pkBytes.length = 32

theorem opcodeCheckSig_true {stk' : List Bytes} (hstack : vm.dstack = pkBytes :: sig :: stk)
    (hkey : vm.KnownKey pkBytes) (h : vm.opcodeCheckSig crypto = .ok vm')
    (htop : vm'.dstack = [1] :: stk') : EndsProtected sig := by
  have hrp' : ({ vm with dstack := stk } : Vm).replayProtected = true := hrp
  simp only [opcodeCheckSig, hstack, popByteArray, lift_ok, ok_bind] at h
  split at h
  · cases h
    cases htop
  split at h
  · exact checkSigBase_true hrp' h htop
  next hnot =>
    split at h
    next ctx =>
      simp only [Bool.or_eq_true, not_or, Option.isNone_iff_eq_none] at hnot
      have hlen := hkey (Option.isSome_iff_ne_none.2 hnot.1) (Bool.eq_false_iff.2 hnot.2)
      exact checkSigTapscript_true hrp' hlen h htop
    · cases h

omit hrp in
theorem opcodeCheckSig_top (h : vm.opcodeCheckSig crypto = .ok vm') :
    ∃ valid stk, vm'.dstack = fromBool valid :: stk := by
  obtain ⟨⟨pkBytes, stk⟩, -, h⟩ := bind_eq_ok.1 h
  obtain ⟨⟨sig, stk⟩, -, h⟩ := bind_eq_ok.1 h
  simp only at h
  split at h
  · cases h
    exact ⟨false, _, rfl⟩
  split at h
  · unfold checkSigBase at h
    split at h
    · cases h
      exact ⟨false, _, rfl⟩
    · cases h
    · obtain ⟨result, -, hfinish⟩ := bind_eq_ok.1 h
      exact ⟨_, _, finishCheckSig_ok hfinish⟩
  split at h
  · obtain ⟨ctx, -, h⟩ := bind_eq_ok.1 h
    obtain ⟨⟨⟩, -, h⟩ := bind_eq_ok.1 h
    simp only at h
    split at h
    · cases h
      exact ⟨false, _, rfl⟩
    · obtain ⟨result, -, hfinish⟩ := bind_eq_ok.1 h
      exact ⟨_, _, finishCheckSig_ok hfinish⟩
  · cases h

omit hrp in
/-- `OP_CHECKSIGVERIFY` goes through only where `OP_CHECKSIG` pushes true. -/
theorem opcodeCheckSigVerify_ok (h : vm.opcodeCheckSigVerify crypto = .ok vm') :
    ∃ vm₁ stk, vm.opcodeCheckSig crypto = .ok vm₁ ∧ vm₁.dstack = [1] :: stk := by
  obtain ⟨vm₁, hcheck, hverify⟩ := bind_eq_ok.1 h
  obtain ⟨valid, stk, htop⟩ := opcodeCheckSig_top hcheck
  refine ⟨vm₁, stk, hcheck, ?_⟩
  rw [lift_eq_ok] at hverify
  simp only [abstractVerify, htop, popByteArray, ok_bind] at hverify
  obtain ⟨⟨⟩, hbool, -⟩ := bind_eq_ok.1 hverify
  cases valid with
  | true => exact htop
  | false => exact absurd (require_eq_ok.1 hbool) (by decide)

/-- `OP_CHECKSIGADD` takes a signature that is not empty only if it is protected. -/
theorem opcodeCheckSigAdd_ok {acc : Bytes} (hstack : vm.dstack = pkBytes :: acc :: sig :: stk)
    (hkey : pkBytes.length = 32) (hsig : sig ≠ []) (h : vm.opcodeCheckSigAdd crypto = .ok vm') :
    EndsProtected sig := by
  unfold opcodeCheckSigAdd at h
  cases hctx : vm.taprootCtx with
  | none =>
    rw [hctx] at h
    cases h
  | some ctx =>
    simp only [hctx, hstack, popByteArray, popInt, lift_ok, ok_bind] at h
    obtain ⟨⟨n, stk'⟩, hpop, h⟩ := bind_eq_ok.1 h
    obtain ⟨m, -, hpair⟩ := bind_eq_ok.1 ((lift_eq_ok _).1 hpop)
    cases hpair
    simp only [lift_ok, ok_bind] at h
    obtain ⟨ctx', -, h⟩ := bind_eq_ok.1 h
    obtain ⟨⟨⟩, -, h⟩ := bind_eq_ok.1 h
    rw [if_neg hsig] at h
    obtain ⟨result, hverify, -⟩ := bind_eq_ok.1 h
    have hrp' : ({ vm with dstack := stk, taprootCtx := some ctx' } : Vm).replayProtected = true :=
      hrp
    exact verifyTapscript_ok hrp' hkey ((lift_eq_ok _).1 hverify)

/-! ## Multisig -/

/-- What the multisig loop has parsed passed the hash-type check. -/
theorem parseOnce_ok {parsed : Option (Option crypto.Signature)} {p : Option crypto.Signature}
    {last : UInt8} (hlast : sig.getLast? = some last)
    (hparsed : parsed.isSome = true → EndsProtected sig)
    (h : vm.parseOnce crypto parsed last.toUInt32 sig.dropLast = .ok p) : EndsProtected sig := by
  cases parsed with
  | some q => exact hparsed rfl
  | none =>
    obtain ⟨⟨⟩, hcheck, -⟩ := bind_eq_ok.1 h
    exact .of_getLast? hlast (checkHashTypeEncoding_ok hrp hcheck)

/-- Every signature that the multisig loop steps over is protected.  The invariant is about the
signature the loop is at: if it was parsed, by this round or an earlier one, it is protected. -/
theorem multiSigLoop_protected {script : Bytes} {pubKeys sigs : List Bytes}
    {parsed : Option (Option crypto.Signature)} {n m : Nat} {success : Bool}
    (hparsed : parsed.isSome = true → ∀ sig ∈ sigs.head?, EndsProtected sig)
    (h : multiSigLoop crypto script pubKeys sigs parsed n vm = .ok (success, m, vm')) :
    n ≤ m ∧ ∀ sig ∈ sigs.take (m - n), EndsProtected sig := by
  induction pubKeys generalizing sigs parsed n vm with
  | nil =>
    cases sigs with
    | nil =>
      cases h
      simp
    | cons sig sigs =>
      cases h
      simp
  | cons pubKey pubKeys ih =>
    cases sigs with
    | nil =>
      cases h
      simp
    | cons sig sigs =>
      rw [multiSigLoop] at h
      by_cases hfew : sigs.length > pubKeys.length
      · rw [if_pos hfew] at h
        cases h
        simp
      rw [if_neg hfew] at h
      cases hlast : sig.getLast? with
      | none =>
        rw [hlast] at h
        exact ih hrp hparsed h
      | some last =>
        rw [hlast] at h
        obtain ⟨p, hparse, h⟩ := bind_eq_ok.1 h
        have hsig := parseOnce_ok hrp hlast (fun hs => hparsed hs sig rfl) ((lift_eq_ok _).1 hparse)
        have hhead : ∀ s ∈ (sig :: sigs).head?, EndsProtected s := by
          intro s hs
          cases hs
          exact hsig
        cases p with
        | none => exact ih hrp (fun _ => hhead) h
        | some parsedSig =>
          obtain ⟨⟨valid, cache⟩, -, h⟩ := bind_eq_ok.1 h
          have hrp' : ({ vm with sigCache := cache } : Vm).replayProtected = true := hrp
          cases valid with
          | false => exact ih hrp' (fun _ => hhead) h
          | true =>
            -- the loop moves on to the next signature, which it has not parsed
            obtain ⟨hle, hall⟩ := ih hrp' (fun hs => absurd hs (by simp)) h
            refine ⟨by omega, fun s hs => ?_⟩
            rw [show m - n = (m - (n + 1)) + 1 by omega, List.take_succ_cons] at hs
            rcases List.mem_cons.1 hs with rfl | hs
            · exact hsig
            · exact hall s hs

/-! ## The taproot key path -/

/-- A key spend goes through only for a protected signature. -/
theorem taprootKeyPath_ok {witnessProgram : Bytes} {witness : List Bytes}
    (hwitness : (if (extractAnnex witness).isSome then witness.dropLast else witness) = [sig])
    (h : vm.taprootKeyPath crypto witnessProgram witness = .ok (some vm')) : EndsProtected sig := by
  obtain ⟨⟨⟩, -, h⟩ := bind_eq_ok.1 h
  simp only [hwitness] at h
  obtain ⟨⟨⟩, hcheck, -⟩ := bind_eq_ok.1 h
  have hnot := require_eq_ok.1 ((lift_eq_ok _).1 hcheck)
  simp only [hrp, true_and, not_or, not_not, Bool.not_eq_false] at hnot
  obtain ⟨hlen, -, hprotected⟩ := hnot
  have hne : sig ≠ [] := by
    intro he
    rw [he] at hlen
    cases hlen
  refine .of_getLast? (b := sig.getLastD 0) ?_ hprotected
  rw [List.getLastD_eq_getLast?, List.getLast?_eq_getLast_of_ne_nil hne]
  rfl

end Protected

/-! ## All paths -/

/-- The signature checks of the engine. -/
inductive SigOp where
  | checkSig
  | checkSigVerify
  | checkSigAdd
  | checkMultiSig
  | keyPath
deriving DecidableEq

/-- **The engine counts the signature as valid.**  `OP_CHECKSIG` pushes true for it,
`OP_CHECKSIGVERIFY` goes through for it, `OP_CHECKSIGADD` adds one for it under a key of 32 bytes,
the loop of `OP_CHECKMULTISIG` and `OP_CHECKMULTISIGVERIFY` steps over it, or a taproot output is
spent with it. -/
inductive CountsValid (crypto : Crypto) (vm : Vm) : SigOp → Bytes → Prop where
  | checkSig {pkBytes sig : Bytes} {stk stk' : List Bytes} {vm' : Vm}
      (hstack : vm.dstack = pkBytes :: sig :: stk) (hrun : vm.opcodeCheckSig crypto = .ok vm')
      (htop : vm'.dstack = fromBool true :: stk') : CountsValid crypto vm .checkSig sig
  | checkSigVerify {pkBytes sig : Bytes} {stk : List Bytes} {vm' : Vm}
      (hstack : vm.dstack = pkBytes :: sig :: stk)
      (hrun : vm.opcodeCheckSigVerify crypto = .ok vm') : CountsValid crypto vm .checkSigVerify sig
  | checkSigAdd {pkBytes acc sig : Bytes} {stk : List Bytes} {vm' : Vm}
      (hstack : vm.dstack = pkBytes :: acc :: sig :: stk) (hkey : pkBytes.length = 32)
      (hsig : sig ≠ []) (hrun : vm.opcodeCheckSigAdd crypto = .ok vm') :
      CountsValid crypto vm .checkSigAdd sig
  | checkMultiSig {sig : Bytes} {args : MultiSigArgs} {success : Bool} {n : Nat} {vm' : Vm}
      (hargs : vm.multiSigArgs = .ok args)
      (hrun : multiSigLoop crypto args.script args.pubKeys args.signatures none 0 args.vm =
        .ok (success, n, vm'))
      (hsig : sig ∈ args.signatures.take n) : CountsValid crypto vm .checkMultiSig sig
  | keyPath {witnessProgram sig : Bytes} {witness : List Bytes} {vm' : Vm}
      (hwitness : (if (extractAnnex witness).isSome then witness.dropLast else witness) = [sig])
      (hrun : vm.taprootKeyPath crypto witnessProgram witness = .ok (some vm')) :
      CountsValid crypto vm .keyPath sig

/-- **A signature that counts ends in a protected hash type**, on every path of the engine and with
any signature cache, as long as replay protection is active and `OP_CHECKSIG` in tapscript is not
given a key of an unknown type. -/
theorem counted_signature_protected {op : SigOp} {sig : Bytes} (hrp : vm.replayProtected = true)
    (hkey : op = .checkSig ∨ op = .checkSigVerify → ∀ pkBytes ∈ vm.dstack.head?,
      vm.KnownKey pkBytes)
    (h : CountsValid crypto vm op sig) : EndsProtected sig := by
  cases h with
  | checkSig hstack hrun htop =>
    exact opcodeCheckSig_true hrp hstack (hkey (.inl rfl) _ (by rw [hstack]; rfl)) hrun htop
  | checkSigVerify hstack hrun =>
    obtain ⟨vm₁, stk', hcheck, htop⟩ := opcodeCheckSigVerify_ok hrun
    exact opcodeCheckSig_true hrp hstack (hkey (.inr rfl) _ (by rw [hstack]; rfl)) hcheck htop
  | checkSigAdd hstack hlen hsig hrun => exact opcodeCheckSigAdd_ok hrp hstack hlen hsig hrun
  | checkMultiSig hargs hrun hsig =>
    obtain ⟨numOps, dstack, hvm⟩ := multiSigArgs_vm hargs
    rw [hvm] at hrun
    exact (multiSigLoop_protected (show Vm.replayProtected { vm with numOps, dstack } = true from hrp)
      (fun hs => absurd hs (by simp)) hrun).2 _ hsig
  | keyPath hwitness hrun => exact taprootKeyPath_ok hrp hwitness hrun

/-! ## A key of an unknown type -/

open Btcec.Sample

namespace Sample

/-- A key, and a signature with the hash type `0x41`, with replay protection active. -/
def legacy : Vm :=
  { input with
    flags := ScriptFlags.verifyOBTCReplayProtection
    dstack := [key 1, der protectedS ++ [0x41]] }

/-- The same input in tapscript, with a key of 33 bytes and the signature that is the byte one. -/
def tapscript : Vm :=
  { legacy with
    witnessProgram := some (List.replicate 32 0)
    witnessVersion := 1
    taprootCtx := some ⟨none, 0xffffffff, Hash.zero, 100⟩
    dstack := [key 1, [1]] }

end Sample

/-- **A signature counts without the hash-type byte** where `OP_CHECKSIG` meets a key of an unknown
type in tapscript. -/
theorem unknown_key_type_counts :
    Sample.tapscript.replayProtected = true ∧
      CountsValid secp.crypto Sample.tapscript .checkSig [1] ∧ ¬ EndsProtected [1] := by
  refine ⟨by decide, .checkSig rfl rfl rfl, ?_⟩
  rintro ⟨b, hb, hbit, -⟩
  cases hb
  exact hbit (by decide)

/-- A signature with the hash type `0x41` under a compressed key. -/
theorem counted_signature_protected_legacy :
    CountsValid secp.crypto Sample.legacy .checkSig (der protectedS ++ [0x41]) ∧
      EndsProtected (der protectedS ++ [0x41]) := by
  have hstack : (Sample.legacy.opcodeCheckSig secp.crypto).toOption.map Vm.dstack =
      some [fromBool true] := by decide +kernel
  obtain ⟨vm', hvm, htop⟩ := Option.map_eq_some_iff.1 hstack
  have hcounts : CountsValid secp.crypto Sample.legacy .checkSig (der protectedS ++ [0x41]) :=
    .checkSig rfl (eq_ok_of_toOption hvm) htop
  exact ⟨hcounts, counted_signature_protected (by decide)
    (fun _ _ _ hprogram => absurd hprogram (by decide)) hcounts⟩

end Vm

end Obtcd.Txscript
