import Obtcd.Btcec

/-!
# Replay separation

A signature made for Bitcoin must not be worth anything on OBTC, nor the other way round.  What a
signature is verified against is a digest, so the two have to be verified against different digests:
no digest that the engine uses with replay protection is one that it uses without.

Two runs of the engine are compared here, on any two transactions, inputs, scripts and hash types,
one with the flag and one without.  Everything is read off the `Preimage` of a digest: with the flag
it starts with a domain tag, without it starts with the version of the transaction.  The tags start
with the letters `OBTC`, so the two can only meet in a transaction whose version spells them.

`replay_digest_ne_iff` is the result, for a hash function that separates what the two runs hash and
transactions that do not meet there: the digests differ unless both runs sign with `SIGHASH_SINGLE`
an input that has no output.  There the digest is the constant one, and the tag is never reached
(`single_digest_replayed`).  For the version that spells the tag no such statement holds: the rest of
the transaction can be made to spell the rest of the tag and a whole message behind it
(`spelled_digest_replayed`).
-/

namespace Obtcd.Txscript

/-- How a signature is checked, with what the digest takes from the script. -/
inductive SigKind where
  /-- Outside of a witness program. -/
  | base (subScript : Bytes)
  /-- In a version 0 witness program. -/
  | segwitV0 (subScript : Bytes)
  /-- In taproot, with a leaf in tapscript and without one on the key path. -/
  | taproot (annex : Option Bytes) (leaf : Option (UInt32 × Hash))

/-- The domain tag of a kind whose digest is a double hash. -/
def SigKind.tag : SigKind → Bytes
  | base _ => obtcReplaySighashTagV0
  | segwitV0 _ => obtcReplaySighashTagV1
  | taproot _ _ => []

namespace Vm

/-- The digest that a signature of this kind and hash type is verified against. -/
def digest (vm : Vm) (kind : SigKind) (hashType : SigHashType) : Except GoError Hash :=
  match kind with
  | .base subScript => .ok (vm.baseDigest subScript hashType)
  | .segwitV0 subScript => vm.segwitDigest subScript hashType
  | .taproot annex leaf => vm.taprootDigest annex leaf hashType

/-- The hash-type check on the way to the digest: `checkHashTypeEncoding` outside of taproot, the
check of the key path and of `newBaseTapscriptSigVerifier` in it. -/
def HashTypeAllowed (vm : Vm) (kind : SigKind) (hashType : SigHashType) : Prop :=
  match kind with
  | .base _ => vm.checkHashTypeEncoding hashType = .ok ()
  | .segwitV0 _ => vm.checkHashTypeEncoding hashType = .ok ()
  | .taproot _ _ => vm.replayProtected = true → isOBTCReplayProtectedSigHashType hashType = true

/-- The engine verifies a signature with this hash type against the digest. -/
def VerifiesAgainst (vm : Vm) (kind : SigKind) (hashType : SigHashType) (d : Hash) : Prop :=
  vm.HashTypeAllowed kind hashType ∧ vm.digest kind hashType = .ok d

/-- The preimage of the digest. -/
def preimage (vm : Vm) (kind : SigKind) (hashType : SigHashType) : Except GoError Preimage :=
  match kind with
  | .base subScript =>
    .ok (legacyPreimage subScript hashType vm.tx vm.txIdx vm.replayProtected)
  | .segwitV0 subScript =>
    match vm.tx.txIn[vm.txIdx]? with
    | none => .error (txInsError vm.tx vm.txIdx)
    | some txIn =>
      .ok (.double (domainTag obtcReplaySighashTagV1 hashType vm.replayProtected ++
        witnessMessage subScript vm.sigHashes hashType vm.tx vm.txIdx txIn vm.inputAmount))
  | .taproot annex leaf =>
    let opts := vm.taprootOptions annex leaf
    if (isOBTCReplayProtectedSigHashType hashType && !opts.allowOBTCReplayProtection) ||
        !isValidTaprootSigHash (normalizedHashType hashType) then
      .error (.other ("invalid taproot sighash type: " ++ toString hashType))
    else
      match vm.tx.txIn[vm.txIdx]? with
      | none => .error (txInsError vm.tx vm.txIdx)
      | some input => do
        let sigMsg ← taprootMessage vm.sigHashes hashType vm.tx vm.txIdx input vm.prevOutFetcher
          opts
        return .tagged (taprootTag hashType opts.allowOBTCReplayProtection) sigMsg

/-- `SIGHASH_SINGLE` outside of a witness program, for an input without an output. -/
def SingleOutOfRange (vm : Vm) (kind : SigKind) (hashType : SigHashType) : Prop :=
  match kind with
  | .base _ => singleOutOfRange hashType vm.tx vm.txIdx
  | .segwitV0 _ => False
  | .taproot _ _ => False

/-- What is hashed twice for a digest, without the domain tag; nothing where no message is. -/
def message (vm : Vm) (kind : SigKind) (hashType : SigHashType) : Option Bytes :=
  match kind with
  | .base subScript =>
    if singleOutOfRange hashType vm.tx vm.txIdx then none
    else some (legacyMessage subScript hashType vm.tx vm.txIdx)
  | .segwitV0 subScript =>
    (vm.tx.txIn[vm.txIdx]?).map fun txIn =>
      witnessMessage subScript vm.sigHashes hashType vm.tx vm.txIdx txIn vm.inputAmount
  | .taproot _ _ => none

variable {vm on off : Vm} {kind kind' : SigKind} {hashType hashType' : SigHashType}

/-! ## The preimages -/

/-- The digest is the hash of its preimage. -/
theorem digest_ok {d : Hash} (h : vm.digest kind hashType = .ok d) :
    ∃ p, vm.preimage kind hashType = .ok p ∧ d.bytes = p.digest Sha256.sum256 := by
  cases kind with
  | base subScript =>
    cases h
    exact ⟨_, rfl, bytes_calcSignatureHash ..⟩
  | segwitV0 subScript =>
    simp only [digest, segwitDigest, calcWitnessSignatureHashRawWithReplayProtection] at h
    simp only [preimage]
    cases hin : vm.tx.txIn[vm.txIdx]? with
    | none =>
      rw [hin] at h
      cases h
    | some txIn =>
      rw [hin] at h
      cases h
      exact ⟨_, rfl, rfl⟩
  | taproot annex leaf =>
    simp only [digest, taprootDigest, calcTaprootSignatureHashRaw] at h
    simp only [preimage]
    split at h
    · cases h
    next hvalid =>
      rw [if_neg hvalid]
      cases hin : vm.tx.txIn[vm.txIdx]? with
      | none =>
        rw [hin] at h
        cases h
      | some input =>
        rw [hin] at h
        obtain ⟨sigMsg, hmsg, hd⟩ := bind_eq_ok.1 h
        cases hd
        simp only [hmsg, ok_bind]
        exact ⟨_, rfl, rfl⟩

/-- The three forms of a preimage, with the tag in front of a doubly hashed message and the tag of
a tagged one. -/
def Form (vm : Vm) (kind : SigKind) (hashType : SigHashType) (doubleTag tapTag : Bytes)
    (p : Preimage) : Prop :=
  (p = .constant oneHash.bytes ∧ vm.SingleOutOfRange kind hashType ∧
      vm.message kind hashType = none) ∨
    (∃ m, p = .double (doubleTag ++ m) ∧ ¬ vm.SingleOutOfRange kind hashType ∧
      vm.message kind hashType = some m) ∨
    ∃ m, p = .tagged tapTag m ∧ ¬ vm.SingleOutOfRange kind hashType ∧
      vm.message kind hashType = none

theorem taprootOptions_allow (annex : Option Bytes) (leaf : Option (UInt32 × Hash)) :
    (vm.taprootOptions annex leaf).allowOBTCReplayProtection = vm.replayProtected := by
  cases annex <;> rfl

/-- The preimage has one of the three forms, with the tags that the flag and the hash type give. -/
theorem preimage_form {p : Preimage} (h : vm.preimage kind hashType = .ok p) :
    Form vm kind hashType (domainTag kind.tag hashType vm.replayProtected)
      (taprootTag hashType vm.replayProtected) p := by
  cases kind with
  | base subScript =>
    cases h
    by_cases hsingle : singleOutOfRange hashType vm.tx vm.txIdx
    · exact .inl ⟨if_pos hsingle, hsingle, if_pos hsingle⟩
    · exact .inr (.inl ⟨_, if_neg hsingle, hsingle, if_neg hsingle⟩)
  | segwitV0 subScript =>
    simp only [preimage] at h
    cases hin : vm.tx.txIn[vm.txIdx]? with
    | none =>
      rw [hin] at h
      cases h
    | some txIn =>
      rw [hin] at h
      cases h
      refine .inr (.inl ⟨_, rfl, id, ?_⟩)
      simp only [message, hin, Option.map_some]
  | taproot annex leaf =>
    simp only [preimage] at h
    split at h
    · cases h
    cases hin : vm.tx.txIn[vm.txIdx]? with
    | none =>
      rw [hin] at h
      cases h
    | some input =>
      rw [hin] at h
      obtain ⟨sigMsg, -, hp⟩ := bind_eq_ok.1 h
      cases hp
      rw [taprootOptions_allow]
      exact .inr (.inr ⟨sigMsg, rfl, id, rfl⟩)

theorem protected_of_allowed (hon : vm.replayProtected = true)
    (h : vm.HashTypeAllowed kind hashType) :
    isOBTCReplayProtectedSigHashType hashType = true := by
  cases kind with
  | base subScript => exact checkHashTypeEncoding_ok hon h
  | segwitV0 subScript => exact checkHashTypeEncoding_ok hon h
  | taproot annex leaf => exact h hon

/-- With the flag, a digest that is verified against has the tags in its preimage. -/
theorem form_on {d : Hash} (hon : on.replayProtected = true)
    (h : on.VerifiesAgainst kind hashType d) :
    ∃ p, on.preimage kind hashType = .ok p ∧ d.bytes = p.digest Sha256.sum256 ∧
      Form on kind hashType kind.tag obtcReplayTapSighashTag p := by
  obtain ⟨p, hp, hd⟩ := digest_ok h.2
  have hform := preimage_form hp
  have hprotected := protected_of_allowed hon h.1
  rw [hon, domainTag, taprootTag, shouldUseOBTCReplayProtectionDomain, hprotected] at hform
  exact ⟨p, hp, hd, hform⟩

/-- Without the flag there is no domain tag. -/
theorem form_off {d : Hash} (hoff : off.replayProtected = false)
    (h : off.VerifiesAgainst kind hashType d) :
    ∃ p, off.preimage kind hashType = .ok p ∧ d.bytes = p.digest Sha256.sum256 ∧
      Form off kind hashType [] tagTapSighash p := by
  obtain ⟨p, hp, hd⟩ := digest_ok h.2
  have hform := preimage_form hp
  rw [hoff, domainTag, taprootTag, shouldUseOBTCReplayProtectionDomain, Bool.false_and,
    Bool.and_false] at hform
  exact ⟨p, hp, hd, hform⟩

/-! ## The separation -/

/-- Equal preimages in a run with the flag and one without. -/
theorem preimage_eq_iff {p p' : Preimage}
    (hp : Form on kind hashType kind.tag obtcReplayTapSighashTag p)
    (hp' : Form off kind' hashType' [] tagTapSighash p') :
    p = p' ↔ (on.SingleOutOfRange kind hashType ∧ off.SingleOutOfRange kind' hashType') ∨
      ∃ m, on.message kind hashType = some m ∧
        off.message kind' hashType' = some (kind.tag ++ m) := by
  have htag : obtcReplayTapSighashTag ≠ tagTapSighash := by decide
  rcases hp with ⟨rfl, h1, h2⟩ | ⟨m, rfl, h1, h2⟩ | ⟨m, rfl, h1, h2⟩ <;>
    rcases hp' with ⟨rfl, h1', h2'⟩ | ⟨m', rfl, h1', h2'⟩ | ⟨m', rfl, h1', h2'⟩ <;>
    simp [h1, h2, h1', h2', htag, eq_comm]

/-- The first four bytes of a message are the version of the transaction. -/
theorem take_message {m : Bytes} (h : vm.message kind hashType = some m) :
    m.take 4 = Bytes.le 4 vm.tx.version.toUInt32.toNat := by
  have hlen : (Bytes.le 4 vm.tx.version.toUInt32.toNat).length = 4 := Bytes.length_le ..
  cases kind with
  | base subScript =>
    simp only [message] at h
    split at h
    · cases h
    cases h
    simp only [legacyMessage, MsgTx.serializeNoWitness, List.append_assoc]
    exact List.take_left' hlen
  | segwitV0 subScript =>
    obtain ⟨txIn, -, rfl⟩ := Option.map_eq_some_iff.1 h
    simp only [witnessMessage, List.append_assoc]
    exact List.take_left' hlen
  | taproot annex leaf => cases h

/-- The version whose four bytes are the letters `OBTC`. -/
def spellsOBTC : Int32 := 0x4354424f

/-- A message that begins with a domain tag belongs to a transaction whose version spells `OBTC`. -/
theorem version_of_tagged_message {m : Bytes} (hm : on.message kind hashType = some m)
    (h : off.message kind' hashType' = some (kind.tag ++ m)) : off.tx.version = spellsOBTC := by
  have htake : (kind.tag ++ m).take 4 = Bytes.le 4 0x4354424f := by
    cases kind with
    | base subScript => rfl
    | segwitV0 subScript => rfl
    | taproot annex leaf => cases hm
  rw [take_message h] at htake
  have hversion := Bytes.le_inj (by exact UInt32.toNat_lt _) (by decide) htake
  have huint : off.tx.version.toUInt32 = 0x4354424f := UInt32.toNat_inj.1 hversion
  rw [← Int32.toInt32_toUInt32 off.tx.version, huint]
  rfl

/-- Only taproot has no tag to write before a message, and its message is not hashed twice. -/
theorem message_of_tag_nil (h : kind.tag = []) : vm.message kind hashType = none := by
  cases kind with
  | base subScript => cases h
  | segwitV0 subScript => cases h
  | taproot annex leaf => rfl

/-- **When replay protection separates two digests.**  The engine verifies a signature against `d`
with the flag and against `d'` without, on any two inputs, and the hash function separates what the
two runs hash.  If one of the two is a taproot signature or the transaction of the run without the
flag has no version that spells `OBTC`, the digests differ exactly unless both sign a missing output
with `SIGHASH_SINGLE` outside of a witness program. -/
theorem replay_digest_ne_iff {d d' : Hash} (hon : on.replayProtected = true)
    (hoff : off.replayProtected = false) (hd : on.VerifiesAgainst kind hashType d)
    (hd' : off.VerifiesAgainst kind' hashType' d')
    (hhash : ∀ p p', on.preimage kind hashType = .ok p → off.preimage kind' hashType' = .ok p' →
      p.Separates Sha256.sum256 p')
    (hversion : off.tx.version = spellsOBTC → kind.tag = [] ∨ kind'.tag = []) :
    d ≠ d' ↔ ¬ (on.SingleOutOfRange kind hashType ∧ off.SingleOutOfRange kind' hashType') := by
  obtain ⟨p, hp, hdigest, hform⟩ := form_on hon hd
  obtain ⟨p', hp', hdigest', hform'⟩ := form_off hoff hd'
  have heq : d = d' ↔ p = p' := by
    rw [← Preimage.digest_eq_iff (hhash p p' hp hp'), ← hdigest, ← hdigest']
    exact ⟨fun h => h ▸ rfl, fun h => Hash.bytes_injective (congrArg Subtype.val h)⟩
  have hspelled : ¬ ∃ m, on.message kind hashType = some m ∧
      off.message kind' hashType' = some (kind.tag ++ m) := by
    rintro ⟨m, hm, hm'⟩
    rcases hversion (version_of_tagged_message hm hm') with htag | htag
    · rw [message_of_tag_nil htag] at hm
      cases hm
    · rw [message_of_tag_nil htag] at hm'
      cases hm'
  rw [ne_eq, heq, preimage_eq_iff hform hform', or_iff_left hspelled]

/-! ## The exceptions -/

namespace Sample

/-- An engine on the input `idx` of a transaction. -/
def engine (flags : ScriptFlags) (tx : MsgTx) (idx : Nat) : Vm :=
  { Btcec.Sample.input with flags, tx, txIdx := idx, subScript := [] }

/-- Two inputs and one output. -/
def twoInputs : MsgTx :=
  ⟨1, [{ previousOutPoint := ⟨Hash.zero, 0⟩ }, { previousOutPoint := ⟨Hash.zero, 1⟩ }],
    [⟨1000, []⟩], 0⟩

/-- The second input, on OBTC and on Bitcoin. -/
def obtc : Vm := engine ScriptFlags.verifyOBTCReplayProtection twoInputs 1
def bitcoin : Vm := engine 0 twoInputs 1

end Sample

/-- **A digest that replay protection does not separate**: `SIGHASH_SINGLE` for the second input of
a transaction with one output is the constant one on both sides. -/
theorem single_digest_replayed :
    Sample.obtc.replayProtected = true ∧ Sample.bitcoin.replayProtected = false ∧
      Sample.obtc.VerifiesAgainst (.base []) 0x43 oneHash ∧
      Sample.bitcoin.VerifiesAgainst (.base []) 0x03 oneHash := by
  refine ⟨by decide, by decide, ⟨?_, by decide⟩, ?_, by decide⟩
  · show Sample.obtc.checkHashTypeEncoding 0x43 = .ok ()
    decide
  · show Sample.bitcoin.checkHashTypeEncoding 0x03 = .ok ()
    decide

/-- With `SIGHASH_ALL` the two digests of that input differ. -/
theorem replay_digest_ne_iff_all :
    Sample.obtc.baseDigest [] 0x41 ≠ Sample.bitcoin.baseDigest [] 0x01 := by
  have hobtc : Sample.obtc.VerifiesAgainst (.base []) 0x41 (Sample.obtc.baseDigest [] 0x41) :=
    ⟨show Sample.obtc.checkHashTypeEncoding 0x41 = .ok () by decide, rfl⟩
  have hbitcoin : Sample.bitcoin.VerifiesAgainst (.base []) 0x01
      (Sample.bitcoin.baseDigest [] 0x01) :=
    ⟨show Sample.bitcoin.checkHashTypeEncoding 0x01 = .ok () by decide, rfl⟩
  refine (replay_digest_ne_iff (by decide) (by decide) hobtc hbitcoin ?_
    (fun h => absurd h (by decide))).2 ?_
  · rintro p p' hp hp'
    cases hp
    cases hp'
    constructor
    all_goals decide +kernel
  · show ¬ (singleOutOfRange 0x41 Sample.twoInputs 1 ∧ singleOutOfRange 0x01 Sample.twoInputs 1)
    decide

namespace Sample

/-- A script that is one long push. -/
def longPush : Bytes := [0x4d, 0x48, 0x07] ++ List.replicate 1864 0

/-- A transaction with one input. -/
def oneInput : MsgTx := ⟨1, [{ previousOutPoint := ⟨Hash.zero, 0⟩, sequence := 0 }], [], 0⟩

/-- The hash of the first outpoint of `spelled`: the tag from its sixth byte on and the beginning of
the message of `oneInput`. -/
def firstHash : Hash :=
  ⟨⟨obtcReplaySighashTagV0.drop 5 ++ [1, 0, 0, 0, 1] ++ List.replicate 15 0, rfl⟩⟩

/-- The hash of the second one: the length of the script of `oneInput` and its first bytes. -/
def secondHash : Hash :=
  ⟨⟨List.replicate 12 0 ++ [0xfd, 0x4b, 0x07, 0x4d, 0x48, 0x07] ++ List.replicate 14 0, rfl⟩⟩

/-- A transaction with 47 inputs whose version and number of inputs spell the beginning of the
tag. -/
def spelled : MsgTx :=
  ⟨spellsOBTC, [{ previousOutPoint := ⟨firstHash, 0⟩, sequence := 0 },
    { previousOutPoint := ⟨secondHash, 0⟩, sequence := 0 }] ++
    List.replicate 45 { previousOutPoint := ⟨Hash.zero, 0⟩, sequence := 0 }, [], 0⟩

end Sample

/-- **A transaction that spells the tag**: its digest without replay protection is the digest of
another transaction with it. -/
theorem spelled_digest_replayed :
    ∃ d, (Sample.engine ScriptFlags.verifyOBTCReplayProtection Sample.oneInput 0).VerifiesAgainst
        (.base Sample.longPush) 0x41 d ∧
      (Sample.engine 0 Sample.spelled 46).VerifiesAgainst (.base []) 0x41 d := by
  have hpreimage : legacyPreimage [] 0x41 Sample.spelled 46 false =
      legacyPreimage Sample.longPush 0x41 Sample.oneInput 0 true := by
    decide +kernel
  have hdigest : calcSignatureHashWithReplayProtection [] 0x41 Sample.spelled 46 false =
      calcSignatureHashWithReplayProtection Sample.longPush 0x41 Sample.oneInput 0 true := by
    refine Hash.bytes_injective (congrArg Subtype.val ?_)
    rw [bytes_calcSignatureHash, bytes_calcSignatureHash, hpreimage]
  refine ⟨_, ⟨?_, rfl⟩, ?_, congrArg Except.ok hdigest⟩
  · show (Sample.engine _ Sample.oneInput 0).checkHashTypeEncoding 0x41 = .ok ()
    decide
  · show (Sample.engine 0 Sample.spelled 46).checkHashTypeEncoding 0x41 = .ok ()
    decide

end Vm

end Obtcd.Txscript
