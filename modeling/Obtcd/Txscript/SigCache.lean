import Obtcd.Btcec

/-!
# The signature cache is transparent

`sigcache.go` keeps triples of a digest, a signature and a key that have verified.  All paths of the
engine look them up in one table, and they do not store the same bytes: outside of taproot the
signature has lost its hash type, in taproot it has not.

* `Accepted` says what a triple in the table stands for: one of the two kinds of signatures
  verifies.  A triple of one kind is never met by the other, since the keys differ in length, and
  within a kind what verifies depends on the triple alone (`ecdsa_iff_accepted`,
  `schnorr_iff_accepted`).
* `Agrees` relates a step on an engine with a cache to the same step without one, failures included.
  Every signature check is shown to agree; the multisig loop is the one with an induction.
* `runEngine` is an execution.  What the engine does between its signature checks is a parameter
  that does not see the cache.  `sigCache_transparent` is about any sequence of executions that
  share a cache.
-/

namespace Obtcd.Txscript

open Btcec (Secp)

/-! ## What the table holds -/

/-- A triple that verifies: as an ECDSA signature without its hash type, or as a Schnorr signature
with it. -/
inductive Accepted (crypto : Crypto) : Hash × Bytes × Bytes → Prop where
  | ecdsa {sigHash : Hash} {sig pubKey : Bytes} {key : crypto.PubKey} {s : crypto.Signature}
      (hkey : crypto.parsePubKey pubKey = .ok key) (hsig : crypto.parseSignature sig = .ok s)
      (h : crypto.verify s sigHash key = true) : Accepted crypto (sigHash, sig, pubKey)
  | schnorr {sigHash : Hash} {sig pubKey : Bytes}
      {parsed : crypto.SchnorrPubKey × crypto.SchnorrSignature × SigHashType}
      (hparsed : Vm.parseTaprootSigAndPubKey crypto pubKey sig = .ok parsed)
      (h : crypto.verifySchnorr parsed.2.1 sigHash parsed.1 = true) :
      Accepted crypto (sigHash, sig, pubKey)

/-- `NewSigCache`. -/
def SigCache.new (maxEntries : Nat) (evict : Nat → Nat) : SigCache := ⟨[], maxEntries, evict⟩

/-- The invariant of a cache: every triple verifies, and there are not too many. -/
structure SigCache.Sound (crypto : Crypto) (maxEntries : Nat) (c : SigCache) : Prop where
  accepted : ∀ e ∈ c.validSigs, Accepted crypto e
  length_le : c.validSigs.length ≤ maxEntries
  maxEntries_eq : c.maxEntries = maxEntries

theorem SigCache.sound_new (crypto : Crypto) (maxEntries : Nat) (evict : Nat → Nat) :
    (SigCache.new maxEntries evict).Sound crypto maxEntries :=
  ⟨nofun, Nat.zero_le _, rfl⟩

variable {sig pubKey : Bytes} {sigHash : Hash}

theorem SigCache.mem_of_contains {c : SigCache} (h : c.contains sigHash sig pubKey = true) :
    (sigHash, sig, pubKey) ∈ c.validSigs := by
  rw [contains, beq_iff_eq, List.lookup_eq_some_iff] at h
  obtain ⟨l₁, l₂, heq, -⟩ := h
  rw [heq]
  simp

theorem SigCache.Sound.add {crypto : Crypto} {maxEntries : Nat} {c : SigCache}
    (h : c.Sound crypto maxEntries) (hnew : Accepted crypto (sigHash, sig, pubKey)) :
    (c.add sigHash sig pubKey).Sound crypto maxEntries := by
  rw [SigCache.add]
  split
  · exact h
  rename_i hpos
  have hmax := h.maxEntries_eq
  have hle := h.length_le
  -- what is kept leaves room for one more
  have hroom : ∀ kept : List (Hash × Bytes × Bytes),
      kept = (if c.validSigs.length + 1 > c.maxEntries then
        c.validSigs.eraseIdx (c.evict 0 % c.validSigs.length) else c.validSigs) →
      kept.length + 1 ≤ maxEntries ∧ ∀ e ∈ kept, e ∈ c.validSigs := by
    rintro kept rfl
    split
    · have hlt : c.evict 0 % c.validSigs.length < c.validSigs.length := Nat.mod_lt _ (by omega)
      rw [List.length_eraseIdx, if_pos hlt]
      exact ⟨by omega, fun e he => List.mem_of_mem_eraseIdx he⟩
    · exact ⟨by omega, fun e he => he⟩
  obtain ⟨hlen, hkept⟩ := hroom _ rfl
  refine ⟨fun e he => ?_, ?_, hmax⟩
  · rcases List.mem_cons.1 he with rfl | he
    · exact hnew
    · exact h.accepted e (hkept e (List.mem_of_mem_filter he))
  · exact (Nat.succ_le_succ (List.length_filter_le _ _)).trans hlen

/-! ## What a triple depends on -/

variable {secp : Secp} {vm : Vm} {maxEntries : Nat}

section Triples

theorem liftCrypto_eq_ok {α : Type} {x : Except String α} {a : α}
    (h : Vm.liftCrypto x = .ok a) : x = .ok a := by
  cases x with
  | ok b => exact congrArg _ (Except.ok.inj h)
  | error text => cases h

/-- Both parsers give a signature the same meaning. -/
theorem parseSignature_lax {s : secp.crypto.Signature}
    (h : vm.parseSignature secp.crypto sig = .ok s) :
    secp.crypto.parseSignature sig = .ok s := by
  rw [Vm.parseSignature] at h
  split at h
  · exact Btcec.parseSig_of_der h
  · exact h

/-- Outside of taproot, verifying depends on the triple alone. -/
theorem ecdsa_iff_accepted {key : secp.crypto.PubKey} {s : secp.crypto.Signature}
    (hkey : secp.crypto.parsePubKey pubKey = .ok key)
    (hsig : vm.parseSignature secp.crypto sig = .ok s) :
    secp.crypto.verify s sigHash key = true ↔ Accepted secp.crypto (sigHash, sig, pubKey) := by
  have hlax := parseSignature_lax hsig
  refine ⟨fun h => .ecdsa hkey hlax h, fun h => ?_⟩
  cases h with
  | ecdsa hkey' hsig' h =>
    rw [hkey] at hkey'
    rw [hlax] at hsig'
    cases hkey'
    cases hsig'
    exact h
  | schnorr hparsed h =>
    obtain ⟨key', hkey', -⟩ := bind_eq_ok.1 hparsed
    exact absurd (liftCrypto_eq_ok hkey') (Secp.not_schnorr_of_parsePubKey hkey)

/-- In taproot, verifying depends on the triple alone. -/
theorem schnorr_iff_accepted
    {parsed : secp.crypto.SchnorrPubKey × secp.crypto.SchnorrSignature × SigHashType}
    (hparsed : Vm.parseTaprootSigAndPubKey secp.crypto pubKey sig = .ok parsed) :
    secp.crypto.verifySchnorr parsed.2.1 sigHash parsed.1 = true ↔
      Accepted secp.crypto (sigHash, sig, pubKey) := by
  refine ⟨fun h => .schnorr hparsed h, fun h => ?_⟩
  cases h with
  | ecdsa hkey hsig h =>
    obtain ⟨key', hkey', -⟩ := bind_eq_ok.1 hparsed
    exact absurd (liftCrypto_eq_ok hkey') (Secp.not_schnorr_of_parsePubKey hkey)
  | schnorr hparsed' h =>
    rw [hparsed] at hparsed'
    cases hparsed'
    exact h

end Triples

/-! ## With a cache and without -/

/-- There is a cache, and it is sound. -/
def CacheOk (crypto : Crypto) (maxEntries : Nat) (cache : Option SigCache) : Prop :=
  ∃ c, cache = some c ∧ c.Sound crypto maxEntries

/-- The same engine without a cache. -/
def Vm.uncached (vm : Vm) : Vm := { vm with sigCache := none }

/-- What a step comes to with a cache and without one: results that are related, or the same error,
in which case the cache is sound. -/
inductive Agrees (crypto : Crypto) (maxEntries : Nat) {α : Type} (R : α → α → Prop) :
    Except Failure α → Except Failure α → Prop where
  | ok {a b : α} (h : R a b) : Agrees crypto maxEntries R (.ok a) (.ok b)
  | error {e : VmError} {cache : Option SigCache} (h : CacheOk crypto maxEntries cache) :
      Agrees crypto maxEntries R (.error ⟨e, cache⟩) (.error ⟨e, none⟩)

/-- An engine with a sound cache and the same engine without one. -/
def Twins (crypto : Crypto) (maxEntries : Nat) (vm vm₀ : Vm) : Prop :=
  vm₀ = vm.uncached ∧ CacheOk crypto maxEntries vm.sigCache

/-- A check that comes to the same with a sound cache as without one. -/
def Transparent (secp : Secp) (maxEntries : Nat) (check : Vm → Except Failure Vm) : Prop :=
  ∀ vm : Vm, CacheOk secp.crypto maxEntries vm.sigCache →
    Agrees secp.crypto maxEntries (Twins secp.crypto maxEntries) (check vm) (check vm.uncached)

section Agrees

variable {crypto : Crypto} {α β : Type} {R : α → α → Prop} {S : β → β → Prop}

theorem Agrees.bind {x y : Except Failure α} {f g : α → Except Failure β}
    (h : Agrees crypto maxEntries R x y)
    (hfg : ∀ a b, R a b → Agrees crypto maxEntries S (f a) (g b)) :
    Agrees crypto maxEntries S (x >>= f) (y >>= g) := by
  cases h with
  | ok h => exact hfg _ _ h
  | error h => exact .error h

/-- A step that does not touch the cache, and goes on with what it returns. -/
theorem agrees_lift_bind (vm : Vm) (h : CacheOk crypto maxEntries vm.sigCache) (x : Except VmError α)
    {f g : α → Except Failure β}
    (hfg : ∀ a, x = .ok a → Agrees crypto maxEntries S (f a) (g a)) :
    Agrees crypto maxEntries S (vm.lift x >>= f) (vm.uncached.lift x >>= g) := by
  cases x with
  | ok a => exact hfg a rfl
  | error e => exact .error h

/-- The same for a step in the middle of a computation that leaves the cache alone. -/
theorem agrees_lift_seq (vm : Vm) (h : CacheOk crypto maxEntries vm.sigCache) (x : Except VmError α)
    {f g : α → Except VmError β}
    (hfg : ∀ a, x = .ok a → Agrees crypto maxEntries S (vm.lift (f a)) (vm.uncached.lift (g a))) :
    Agrees crypto maxEntries S (vm.lift (x >>= f)) (vm.uncached.lift (x >>= g)) := by
  cases x with
  | ok a => exact hfg a rfl
  | error e => exact .error h

theorem agrees_ite {c : Prop} [Decidable c] {a b a' b' : Except Failure α}
    (hpos : c → Agrees crypto maxEntries R a b) (hneg : ¬ c → Agrees crypto maxEntries R a' b') :
    Agrees crypto maxEntries R (if c then a else a') (if c then b else b') := by
  split
  · exact hpos ‹_›
  · exact hneg ‹_›

/-- The lookup gives what verification gives, as long as that depends on the triple alone. -/
theorem verifySig_eq (h : CacheOk crypto maxEntries vm.sigCache) {verified : Bool}
    (hverified : verified = true ↔ Accepted crypto (sigHash, sig, pubKey)) :
    (vm.verifySig sigHash sig pubKey verified).1 = verified ∧
      CacheOk crypto maxEntries (vm.verifySig sigHash sig pubKey verified).2 := by
  obtain ⟨c, hcache, hc⟩ := h
  rw [Vm.verifySig, hcache]
  by_cases hhit : c.contains sigHash sig pubKey = true
  · have hverifies := hverified.2 (hc.accepted _ (SigCache.mem_of_contains hhit))
    simp only [if_pos hhit]
    exact ⟨hverifies.symm, c, rfl, hc⟩
  · simp only [if_neg hhit]
    cases verified with
    | false => exact ⟨rfl, c, rfl, hc⟩
    | true => exact ⟨rfl, _, rfl, hc.add (hverified.1 rfl)⟩

/-- The results of a verifier with a cache and without one. -/
def Results (crypto : Crypto) (maxEntries : Nat) (r r₀ : VerifyResult) : Prop :=
  r₀ = { r with sigCache := none } ∧ CacheOk crypto maxEntries r.sigCache

/-- A verifier agrees, whose errors come before the cache is touched. -/
def Verifies (crypto : Crypto) (maxEntries : Nat) (x y : Except VmError VerifyResult) : Prop :=
  (∃ e, x = .error e ∧ y = .error e) ∨
    ∃ r r₀, x = .ok r ∧ y = .ok r₀ ∧ Results crypto maxEntries r r₀

theorem Verifies.lift_bind {x y : Except VmError VerifyResult} (h : Verifies crypto maxEntries x y)
    (hok : CacheOk crypto maxEntries vm.sigCache) {f g : VerifyResult → Except Failure β}
    (hfg : ∀ r r₀, Results crypto maxEntries r r₀ → Agrees crypto maxEntries S (f r) (g r₀)) :
    Agrees crypto maxEntries S (vm.lift x >>= f) (vm.uncached.lift y >>= g) := by
  rcases h with ⟨e, rfl, rfl⟩ | ⟨r, r₀, rfl, rfl, hr⟩
  · exact .error hok
  · exact hfg r r₀ hr

theorem verifies_verifySig (h : CacheOk crypto maxEntries vm.sigCache) {verified : Bool}
    (sigMatch : Bool) (hverified : verified = true ↔ Accepted crypto (sigHash, sig, pubKey)) :
    Results crypto maxEntries
      ⟨(vm.verifySig sigHash sig pubKey verified).1, sigMatch,
        (vm.verifySig sigHash sig pubKey verified).2⟩
      ⟨(vm.uncached.verifySig sigHash sig pubKey verified).1, sigMatch,
        (vm.uncached.verifySig sigHash sig pubKey verified).2⟩ := by
  obtain ⟨hvalid, hcache⟩ := verifySig_eq h hverified
  refine ⟨?_, hcache⟩
  rw [hvalid]
  rfl

/-- A verifier that first does something that does not see the cache. -/
theorem verifies_bind {x : Except VmError α} {f g : α → Except VmError VerifyResult}
    (hfg : ∀ a, x = .ok a → Verifies crypto maxEntries (f a) (g a)) :
    Verifies crypto maxEntries (x >>= f) (x >>= g) := by
  cases x with
  | ok a => exact hfg a rfl
  | error e => exact .inl ⟨e, rfl, rfl⟩

/-- A verifier that computes a digest, which may fail, and looks the signature up under it. -/
theorem verifies_digest (h : CacheOk crypto maxEntries vm.sigCache) (digest : Except GoError Hash)
    {verified : Hash → Bool}
    (hverified : ∀ sigHash, verified sigHash = true ↔ Accepted crypto (sigHash, sig, pubKey)) :
    Verifies crypto maxEntries
      (match digest with
        | .error (.panic text) => .error (.panic text)
        | .error _ => .ok ⟨false, false, vm.sigCache⟩
        | .ok sigHash =>
          let (sigValid, sigCache) := vm.verifySig sigHash sig pubKey (verified sigHash)
          .ok ⟨sigValid, false, sigCache⟩)
      (match digest with
        | .error (.panic text) => .error (.panic text)
        | .error _ => .ok ⟨false, false, none⟩
        | .ok sigHash =>
          let (sigValid, sigCache) := vm.uncached.verifySig sigHash sig pubKey (verified sigHash)
          .ok ⟨sigValid, false, sigCache⟩) := by
  cases digest with
  | ok sigHash => exact .inr ⟨_, _, rfl, rfl, verifies_verifySig h false (hverified sigHash)⟩
  | error e =>
    cases e with
    | panic text => exact .inl ⟨_, rfl, rfl⟩
    | rule _ _ => exact .inr ⟨_, _, rfl, rfl, rfl, h⟩
    | assert _ => exact .inr ⟨_, _, rfl, rfl, rfl, h⟩
    | other _ => exact .inr ⟨_, _, rfl, rfl, rfl, h⟩

end Agrees

/-! ## The paths of the engine -/

section Paths

theorem parseBaseSigAndPubkey_parsed {pkBytes : Bytes}
    {parsed : secp.crypto.PubKey × secp.crypto.Signature × SigHashType}
    (h : vm.parseBaseSigAndPubkey secp.crypto pkBytes sig = .ok parsed) :
    secp.crypto.parsePubKey pkBytes = .ok parsed.1 ∧
      vm.parseSignature secp.crypto sig.dropLast = .ok parsed.2.1 := by
  rw [Vm.parseBaseSigAndPubkey] at h
  split at h
  · cases h
  obtain ⟨⟨⟩, -, h⟩ := bind_eq_ok.1 h
  obtain ⟨⟨⟩, -, h⟩ := bind_eq_ok.1 h
  obtain ⟨⟨⟩, -, h⟩ := bind_eq_ok.1 h
  obtain ⟨key, hkey, h⟩ := bind_eq_ok.1 h
  obtain ⟨s, hs, h⟩ := bind_eq_ok.1 h
  cases h
  exact ⟨liftCrypto_eq_ok hkey, liftCrypto_eq_ok hs⟩

variable (hok : CacheOk secp.crypto maxEntries vm.sigCache)

include hok in
theorem verifies_verifyParsed {pkBytes : Bytes}
    {parsed : secp.crypto.PubKey × secp.crypto.Signature × SigHashType}
    (hparsed : vm.parseBaseSigAndPubkey secp.crypto pkBytes sig = .ok parsed) :
    Verifies secp.crypto maxEntries (vm.verifyParsed secp.crypto pkBytes sig parsed)
      (vm.uncached.verifyParsed secp.crypto pkBytes sig parsed) := by
  obtain ⟨hkey, hsig⟩ := parseBaseSigAndPubkey_parsed hparsed
  obtain ⟨key, s, hashType⟩ := parsed
  have hiff : ∀ sigHash, secp.crypto.verify s sigHash key = true ↔
      Accepted secp.crypto (sigHash, sig.dropLast, pkBytes) :=
    fun _ => ecdsa_iff_accepted hkey hsig
  by_cases hbase : vm.witnessProgram.isNone = true
  · have h₁ : vm.verifyParsed secp.crypto pkBytes sig (key, s, hashType) =
        vm.verifyBase secp.crypto pkBytes sig (key, s, hashType) := if_pos hbase
    have h₂ : vm.uncached.verifyParsed secp.crypto pkBytes sig (key, s, hashType) =
        vm.uncached.verifyBase secp.crypto pkBytes sig (key, s, hashType) := if_pos hbase
    rw [h₁, h₂]
    exact .inr ⟨_, _, rfl, rfl, verifies_verifySig hok _ (hiff _)⟩
  · have h₁ : vm.verifyParsed secp.crypto pkBytes sig (key, s, hashType) =
        vm.verifySegwit secp.crypto pkBytes sig (key, s, hashType) := if_neg hbase
    have h₂ : vm.uncached.verifyParsed secp.crypto pkBytes sig (key, s, hashType) =
        vm.uncached.verifySegwit secp.crypto pkBytes sig (key, s, hashType) := if_neg hbase
    rw [h₁, h₂]
    exact verifies_digest hok (vm.segwitDigest vm.subScript hashType) hiff

include hok in
theorem verifies_verifyTaproot {pkBytes : Bytes} (annex : Option Bytes)
    (leaf : Option (UInt32 × Hash))
    {parsed : secp.crypto.SchnorrPubKey × secp.crypto.SchnorrSignature × SigHashType}
    (hparsed : Vm.parseTaprootSigAndPubKey secp.crypto pkBytes sig = .ok parsed) :
    Verifies secp.crypto maxEntries (vm.verifyTaproot secp.crypto pkBytes sig annex leaf parsed)
      (vm.uncached.verifyTaproot secp.crypto pkBytes sig annex leaf parsed) := by
  have hiff : ∀ sigHash, secp.crypto.verifySchnorr parsed.2.1 sigHash parsed.1 = true ↔
      Accepted secp.crypto (sigHash, sig, pkBytes) :=
    fun _ => schnorr_iff_accepted hparsed
  obtain ⟨key, s, hashType⟩ := parsed
  exact verifies_digest hok (vm.taprootDigest annex leaf hashType) hiff

theorem verifies_verifyTapscript (vm : Vm) (hok : CacheOk secp.crypto maxEntries vm.sigCache)
    (ctx : TaprootExecutionCtx) (pkBytes sig : Bytes) :
    Verifies secp.crypto maxEntries (vm.verifyTapscript secp.crypto ctx pkBytes sig)
      (vm.uncached.verifyTapscript secp.crypto ctx pkBytes sig) := by
  rw [Vm.verifyTapscript, Vm.verifyTapscript]
  split
  · exact .inl ⟨_, rfl, rfl⟩
  split
  · refine verifies_bind fun parsed hparsed => ?_
    refine verifies_bind (x := require _ _) fun _ _ => ?_
    exact verifies_verifyTaproot hok _ _ hparsed
  · refine verifies_bind (x := require _ _) fun _ _ => ?_
    exact .inr ⟨_, _, rfl, rfl, rfl, hok⟩

/-- The verifying half of an opcode. -/
theorem agrees_abstractVerify {vm₀ : Vm} (h : Twins secp.crypto maxEntries vm vm₀) (name : String)
    (code : ScriptErrorCode) :
    Agrees secp.crypto maxEntries (Twins secp.crypto maxEntries)
      (vm.lift (vm.abstractVerify name code)) (vm₀.lift (vm₀.abstractVerify name code)) := by
  obtain ⟨rfl, hok⟩ := h
  have hsame : vm.uncached.abstractVerify name code =
      (vm.abstractVerify name code).map Vm.uncached := by
    rw [Vm.abstractVerify, Vm.abstractVerify]
    change (popByteArray vm.dstack >>= _) = _
    cases popByteArray vm.dstack with
    | error e => rfl
    | ok r =>
      rw [ok_bind, ok_bind]
      change (require _ _ >>= _) = Except.map _ (require _ _ >>= _)
      cases require (asBool r.1 = true) (.script code (name ++ " failed")) <;> rfl
  have hcache : ∀ vm', vm.abstractVerify name code = .ok vm' → vm'.sigCache = vm.sigCache := by
    intro vm' h
    obtain ⟨r, -, h⟩ := bind_eq_ok.1 h
    obtain ⟨⟨⟩, -, h⟩ := bind_eq_ok.1 h
    cases h
    rfl
  rw [hsame]
  cases hverify : vm.abstractVerify name code with
  | error e => exact .error hok
  | ok vm' => exact .ok ⟨rfl, by rw [hcache vm' hverify]; exact hok⟩

/-- The end of `OP_CHECKSIG`. -/
theorem agrees_finishCheckSig {r r₀ : VerifyResult} (hr : Results secp.crypto maxEntries r r₀) :
    Agrees secp.crypto maxEntries (Twins secp.crypto maxEntries) (vm.finishCheckSig sig r)
      (vm.uncached.finishCheckSig sig r₀) := by
  obtain ⟨rfl, hcache⟩ := hr
  refine agrees_lift_bind { vm with sigCache := r.sigCache } hcache _ fun _ _ => ?_
  refine agrees_lift_bind { vm with sigCache := r.sigCache } hcache _ fun _ _ => ?_
  exact .ok ⟨rfl, hcache⟩

theorem transparent_checkSigBase (pkBytes sig : Bytes) :
    Transparent secp maxEntries (·.checkSigBase secp.crypto pkBytes sig) := by
  intro vm hok
  beta_reduce
  rw [Vm.checkSigBase, Vm.checkSigBase]
  have hsame : vm.uncached.parseBaseSigAndPubkey secp.crypto pkBytes sig =
      vm.parseBaseSigAndPubkey secp.crypto pkBytes sig := rfl
  rw [hsame]
  cases hparsed : vm.parseBaseSigAndPubkey secp.crypto pkBytes sig with
  | ok parsed =>
    exact (verifies_verifyParsed hok hparsed).lift_bind hok fun r r₀ hr => agrees_finishCheckSig hr
  | error e =>
    cases e with
    | other text => exact .ok ⟨rfl, hok⟩
    | script code description => exact .error hok
    | panic text => exact .error hok

theorem transparent_checkSigTapscript (ctx : TaprootExecutionCtx) (pkBytes sig : Bytes) :
    Transparent secp maxEntries (·.checkSigTapscript secp.crypto ctx pkBytes sig) := by
  intro vm hok
  refine agrees_lift_bind vm hok _ fun ctx' _ => ?_
  refine agrees_lift_bind { vm with taprootCtx := some ctx' } hok _ fun _ _ => ?_
  by_cases hempty : sig = []
  · rw [if_pos hempty, if_pos hempty]
    exact .ok ⟨rfl, hok⟩
  · rw [if_neg hempty, if_neg hempty]
    exact (verifies_verifyTapscript { vm with taprootCtx := some ctx' } hok ctx' pkBytes
      sig).lift_bind hok fun r r₀ hr => agrees_finishCheckSig hr

theorem transparent_opcodeCheckSig :
    Transparent secp maxEntries (·.opcodeCheckSig secp.crypto) := by
  intro vm hok
  refine agrees_lift_bind vm hok _ fun (pkBytes, stk) _ => ?_
  refine agrees_lift_bind vm hok _ fun (sig, stk) _ => ?_
  refine agrees_ite (fun _ => .ok ⟨rfl, hok⟩) fun _ => ?_
  refine agrees_ite (fun _ => transparent_checkSigBase pkBytes sig { vm with dstack := stk } hok)
    fun _ => ?_
  dsimp only [Vm.uncached]
  cases vm.taprootCtx with
  | none => exact .error hok
  | some ctx => exact transparent_checkSigTapscript ctx pkBytes sig { vm with dstack := stk } hok

theorem transparent_opcodeCheckSigVerify :
    Transparent secp maxEntries (·.opcodeCheckSigVerify secp.crypto) := by
  intro vm hok
  refine (transparent_opcodeCheckSig vm hok).bind fun vm₁ vm₂ htwins => ?_
  exact agrees_abstractVerify htwins _ _

theorem transparent_opcodeCheckSigAdd :
    Transparent secp maxEntries (·.opcodeCheckSigAdd secp.crypto) := by
  intro vm hok
  have hsame : vm.uncached.taprootCtx = vm.taprootCtx := rfl
  beta_reduce
  rw [Vm.opcodeCheckSigAdd, Vm.opcodeCheckSigAdd, hsame]
  cases vm.taprootCtx with
  | none => exact .error hok
  | some ctx =>
  refine agrees_lift_bind vm hok _ fun (pkBytes, stk) _ => ?_
  refine agrees_lift_bind vm hok _ fun (n, stk) _ => ?_
  refine agrees_lift_bind vm hok _ fun (sig, stk) _ => ?_
  refine agrees_lift_bind vm hok _ fun ctx' _ => ?_
  refine agrees_lift_bind { vm with dstack := stk, taprootCtx := some ctx' } hok _ fun _ _ => ?_
  refine agrees_ite (fun _ => .ok ⟨rfl, hok⟩) fun _ => ?_
  refine (verifies_verifyTapscript { vm with dstack := stk, taprootCtx := some ctx' } hok ctx'
    pkBytes sig).lift_bind hok fun r r₀ hr => ?_
  obtain ⟨rfl, hcache⟩ := hr
  refine agrees_lift_bind
    { vm with dstack := stk, taprootCtx := some ctx', sigCache := r.sigCache } hcache _
    fun _ _ => ?_
  exact .ok ⟨rfl, hcache⟩

/-! ## Multisig -/

theorem removeSignatures_uncached (vm : Vm) (sigs : List Bytes) (script : Bytes) :
    vm.uncached.removeSignatures sigs script = vm.removeSignatures sigs script := by
  induction sigs generalizing script with
  | nil => rfl
  | cons sig sigs ih =>
    rw [Vm.removeSignatures, Vm.removeSignatures]
    simp only [ih]
    rfl

theorem multiSigScript_uncached (vm : Vm) (sigs : List Bytes) :
    vm.uncached.multiSigScript sigs = vm.multiSigScript sigs := by
  rw [Vm.multiSigScript, Vm.multiSigScript, removeSignatures_uncached]
  rfl

include hok in
/-- The arguments do not depend on the cache, and reading them does not change it. -/
theorem agrees_multiSigArgs : Agrees secp.crypto maxEntries
      (fun args args₀ => args₀ = { args with vm := args.vm.uncached } ∧
        CacheOk secp.crypto maxEntries args.vm.sigCache)
      (vm.lift vm.multiSigArgs) (vm.uncached.lift vm.uncached.multiSigArgs) := by
  refine agrees_lift_seq vm hok _ fun _ _ => ?_
  refine agrees_lift_seq vm hok _ fun (numPubKeys, stk) _ => ?_
  refine agrees_lift_seq vm hok _ fun _ _ => ?_
  refine agrees_lift_seq vm hok _ fun _ _ => ?_
  refine agrees_lift_seq vm hok _ fun _ _ => ?_
  refine agrees_lift_seq vm hok _ fun (pubKeys, stk) _ => ?_
  refine agrees_lift_seq vm hok _ fun (numSignatures, stk) _ => ?_
  refine agrees_lift_seq vm hok _ fun _ _ => ?_
  refine agrees_lift_seq vm hok _ fun _ _ => ?_
  refine agrees_lift_seq vm hok _ fun (signatures, stk) _ => ?_
  refine agrees_lift_seq vm hok _ fun (dummy, stk) _ => ?_
  refine agrees_lift_seq vm hok _ fun _ _ => ?_
  have hscript := multiSigScript_uncached { vm with numOps := vm.numOps + numPubKeys } signatures
  change Agrees _ _ _ _ (vm.uncached.lift
    ((Vm.uncached { vm with numOps := vm.numOps + numPubKeys }).multiSigScript signatures >>= _))
  rw [hscript]
  refine agrees_lift_seq vm hok _ fun script _ => ?_
  exact .ok ⟨rfl, hok⟩

/-- What the loop has parsed of a signature is its meaning. -/
theorem parseOnce_some {parsed : Option (Option secp.crypto.Signature)} {hashType : SigHashType}
    {s : secp.crypto.Signature}
    (hparsed : ∀ s, parsed = some (some s) → vm.parseSignature secp.crypto sig = .ok s)
    (h : vm.parseOnce secp.crypto parsed hashType sig = .ok (some s)) :
    vm.parseSignature secp.crypto sig = .ok s := by
  rw [Vm.parseOnce.eq_def] at h
  split at h
  · cases h
    exact hparsed s rfl
  · obtain ⟨⟨⟩, -, h⟩ := bind_eq_ok.1 h
    obtain ⟨⟨⟩, -, h⟩ := bind_eq_ok.1 h
    exact eq_ok_of_toOption (Except.ok.inj h)

include hok in
/-- One signature against one key. -/
theorem agrees_tryKey {script : Bytes} {hashType : SigHashType} {s : secp.crypto.Signature}
    (hsig : vm.parseSignature secp.crypto sig = .ok s) : Agrees secp.crypto maxEntries
      (fun r r₀ => r₀ = (r.1, none) ∧ CacheOk secp.crypto maxEntries r.2)
      (vm.lift (vm.tryKey secp.crypto script hashType sig s pubKey))
      (vm.uncached.lift (vm.uncached.tryKey secp.crypto script hashType sig s pubKey)) := by
  refine agrees_lift_seq vm hok _ fun _ _ => ?_
  cases hkey : secp.crypto.parsePubKey pubKey with
  | error text => exact .ok ⟨rfl, hok⟩
  | ok key =>
    refine agrees_lift_seq vm hok _ fun hash _ => ?_
    have hiff : secp.crypto.verify s hash key = true ↔ Accepted secp.crypto (hash, sig, pubKey) :=
      ecdsa_iff_accepted hkey hsig
    obtain ⟨hvalid, hcache⟩ := verifySig_eq hok hiff
    refine .ok ⟨?_, hcache⟩
    rw [hvalid]
    rfl

/-- The loop agrees.  The invariant is about the signature the loop is at: if it was parsed, the
parse is its meaning. -/
theorem agrees_multiSigLoop {script : Bytes} {pubKeys sigs : List Bytes}
    {parsed : Option (Option secp.crypto.Signature)} {n : Nat} (vm : Vm)
    (hok : CacheOk secp.crypto maxEntries vm.sigCache)
    (hparsed : ∀ s, parsed = some (some s) → ∀ sig ∈ sigs.head?,
      vm.parseSignature secp.crypto sig.dropLast = .ok s) :
    Agrees secp.crypto maxEntries
      (fun r r₀ => r₀ = (r.1, r.2.1, r.2.2.uncached) ∧
        CacheOk secp.crypto maxEntries r.2.2.sigCache)
      (Vm.multiSigLoop secp.crypto script pubKeys sigs parsed n vm)
      (Vm.multiSigLoop secp.crypto script pubKeys sigs parsed n vm.uncached) := by
  induction pubKeys generalizing sigs parsed n vm with
  | nil =>
    cases sigs with
    | nil => exact .ok ⟨rfl, hok⟩
    | cons sig sigs => exact .ok ⟨rfl, hok⟩
  | cons pubKey pubKeys ih =>
    cases sigs with
    | nil => exact .ok ⟨rfl, hok⟩
    | cons sig sigs =>
      rw [Vm.multiSigLoop, Vm.multiSigLoop]
      refine agrees_ite (fun _ => .ok ⟨rfl, hok⟩) fun _ => ?_
      cases sig.getLast? with
      | none => exact ih vm hok hparsed
      | some last =>
        refine agrees_lift_bind vm hok _ fun p hp => ?_
        cases p with
        | none => exact ih vm hok fun _ hs => nomatch hs
        | some s =>
          have hsig := parseOnce_some (fun s hs => hparsed s hs sig rfl) hp
          refine (agrees_tryKey hok hsig).bind fun r r₀ hr => ?_
          obtain ⟨valid, cache⟩ := r
          obtain ⟨rfl, hcache⟩ := hr
          refine agrees_ite (fun _ => ?_) fun _ => ?_
          · exact ih { vm with sigCache := cache } hcache fun _ hs => nomatch hs
          · refine ih { vm with sigCache := cache } hcache fun s' hs' sig' hsig' => ?_
            cases hs'
            cases hsig'
            exact hsig

theorem transparent_opcodeCheckMultiSig :
    Transparent secp maxEntries (·.opcodeCheckMultiSig secp.crypto) := by
  intro vm hok
  refine (agrees_multiSigArgs hok).bind fun args args₀ hargs => ?_
  obtain ⟨rfl, hcache⟩ := hargs
  refine (agrees_multiSigLoop args.vm hcache fun _ hs => by cases hs).bind fun r r₀ hr => ?_
  obtain ⟨success, m, vm'⟩ := r
  obtain ⟨rfl, hcache'⟩ := hr
  exact agrees_lift_bind vm' hcache' _ fun _ _ => .ok ⟨rfl, hcache'⟩

theorem transparent_opcodeCheckMultiSigVerify :
    Transparent secp maxEntries (·.opcodeCheckMultiSigVerify secp.crypto) := by
  intro vm hok
  refine (transparent_opcodeCheckMultiSig vm hok).bind fun vm₁ vm₂ htwins => ?_
  exact agrees_abstractVerify htwins _ _

/-! ## The taproot key path -/

theorem transparent_verifyTaprootKeySpend (witnessProgram sig : Bytes) :
    Transparent secp maxEntries (·.verifyTaprootKeySpend secp.crypto witnessProgram sig) := by
  intro vm hok
  refine agrees_lift_bind vm hok _ fun parsed hparsed => ?_
  refine (verifies_verifyTaproot hok _ none hparsed).lift_bind hok fun r r₀ hr => ?_
  obtain ⟨rfl, hcache⟩ := hr
  exact agrees_lift_bind { vm with sigCache := r.sigCache } hcache _ fun _ _ => .ok ⟨rfl, hcache⟩

include hok in
theorem agrees_taprootKeyPath (witnessProgram : Bytes) (witness : List Bytes) :
    Agrees secp.crypto maxEntries
      (fun o o₀ => o₀ = o.map Vm.uncached ∧ ∀ vm' ∈ o, CacheOk secp.crypto maxEntries vm'.sigCache)
      (vm.taprootKeyPath secp.crypto witnessProgram witness)
      (vm.uncached.taprootKeyPath secp.crypto witnessProgram witness) := by
  refine agrees_lift_bind vm hok _ fun _ _ => ?_
  simp only
  split
  · refine agrees_lift_bind vm hok _ fun _ _ => ?_
    refine (transparent_verifyTaprootKeySpend _ _ vm hok).bind fun vm₁ vm₂ htwins => ?_
    obtain ⟨rfl, hcache⟩ := htwins
    refine .ok ⟨rfl, ?_⟩
    rintro vm' ⟨⟩
    exact hcache
  · exact .ok ⟨rfl, nofun⟩

end Paths

/-! ## Executions -/

/-- A signature check of the engine. -/
inductive SigCheck where
  | checkSig
  | checkSigVerify
  | checkSigAdd
  | checkMultiSig
  | checkMultiSigVerify
  | keyPath (witnessProgram : Bytes) (witness : List Bytes)

/-- The check on an engine.  A witness that is no key spend leaves it as it is. -/
def SigCheck.run (crypto : Crypto) (vm : Vm) : SigCheck → Except Failure Vm
  | checkSig => vm.opcodeCheckSig crypto
  | checkSigVerify => vm.opcodeCheckSigVerify crypto
  | checkSigAdd => vm.opcodeCheckSigAdd crypto
  | checkMultiSig => vm.opcodeCheckMultiSig crypto
  | checkMultiSigVerify => vm.opcodeCheckMultiSigVerify crypto
  | keyPath witnessProgram witness => do
    let spent ← vm.taprootKeyPath crypto witnessProgram witness
    return spent.getD vm

/-- What the engine does next: stop with a verdict, go on with another state, or check a
signature. -/
inductive Action where
  | finish (verdict : Except VmError Unit)
  | step (vm : Vm)
  | check (check : SigCheck)

/-- An execution: what the engine does in each state, which does not depend on the cache, and the
state it starts in. -/
structure Execution where
  next : Vm → Action
  vm : Vm

/-- The given number of steps of an engine: the verdict, if there is one by then, and the cache. -/
def runEngine (crypto : Crypto) (next : Vm → Action) :
    Nat → Vm → Option (Except VmError Unit) × Option SigCache
  | 0, vm => (none, vm.sigCache)
  | fuel + 1, vm =>
    match next vm.uncached with
    | .finish verdict => (some verdict, vm.sigCache)
    | .step vm' => runEngine crypto next fuel { vm' with sigCache := vm.sigCache }
    | .check check =>
      match check.run crypto vm with
      | .ok vm' => runEngine crypto next fuel vm'
      | .error failure => (some (.error failure.error), failure.sigCache)

/-- Executions one after the other, on one cache. -/
def runAll (crypto : Crypto) : List (Nat × Execution) → Option SigCache →
    List (Option (Except VmError Unit)) × Option SigCache
  | [], cache => ([], cache)
  | (fuel, execution) :: executions, cache =>
    let (verdict, cache) :=
      runEngine crypto execution.next fuel { execution.vm with sigCache := cache }
    let (verdicts, cache) := runAll crypto executions cache
    (verdict :: verdicts, cache)

section Runs

theorem transparent_run (check : SigCheck) :
    Transparent secp maxEntries (check.run secp.crypto ·) := by
  cases check with
  | checkSig => exact transparent_opcodeCheckSig
  | checkSigVerify => exact transparent_opcodeCheckSigVerify
  | checkSigAdd => exact transparent_opcodeCheckSigAdd
  | checkMultiSig => exact transparent_opcodeCheckMultiSig
  | checkMultiSigVerify => exact transparent_opcodeCheckMultiSigVerify
  | keyPath witnessProgram witness =>
    intro vm hok
    refine (agrees_taprootKeyPath hok witnessProgram witness).bind fun o o₀ ho => ?_
    obtain ⟨rfl, hcache⟩ := ho
    cases o with
    | none => exact .ok ⟨rfl, hok⟩
    | some vm' => exact .ok ⟨rfl, hcache vm' rfl⟩

/-- An execution has the same verdict with a sound cache as without one, and leaves a sound
cache, also if it is abandoned. -/
theorem runEngine_agrees (next : Vm → Action) (fuel : Nat) (vm : Vm)
    (hok : CacheOk secp.crypto maxEntries vm.sigCache) :
    (runEngine secp.crypto next fuel vm).1 = (runEngine secp.crypto next fuel vm.uncached).1 ∧
      CacheOk secp.crypto maxEntries (runEngine secp.crypto next fuel vm).2 := by
  induction fuel generalizing vm with
  | zero => exact ⟨rfl, hok⟩
  | succ fuel ih =>
    have hsame : vm.uncached.uncached = vm.uncached := rfl
    rw [runEngine, runEngine, hsame]
    cases next vm.uncached with
    | finish verdict => exact ⟨rfl, hok⟩
    | step vm' => exact ih { vm' with sigCache := vm.sigCache } hok
    | check check =>
      have hrun := transparent_run check vm hok
      beta_reduce at hrun
      simp only
      generalize check.run secp.crypto vm = x at hrun
      generalize check.run secp.crypto vm.uncached = y at hrun
      cases hrun with
      | error h => exact ⟨rfl, h⟩
      | ok h =>
        obtain ⟨rfl, hcache⟩ := h
        exact ih _ hcache

theorem runAll_agrees (executions : List (Nat × Execution)) {cache : Option SigCache}
    (hok : CacheOk secp.crypto maxEntries cache) :
    (runAll secp.crypto executions cache).1 =
        executions.map (fun e => (runEngine secp.crypto e.2.next e.1 e.2.vm.uncached).1) ∧
      CacheOk secp.crypto maxEntries (runAll secp.crypto executions cache).2 := by
  induction executions generalizing cache with
  | nil => exact ⟨rfl, hok⟩
  | cons e executions ih =>
    obtain ⟨fuel, execution⟩ := e
    obtain ⟨hverdict, hcache⟩ :=
      runEngine_agrees execution.next fuel { execution.vm with sigCache := cache } hok
    obtain ⟨hverdicts, hrest⟩ := ih hcache
    rw [runAll]
    refine ⟨?_, hrest⟩
    rw [List.map_cons, ← hverdicts]
    exact congrArg (· :: _) hverdict

/-- **The signature cache is transparent.**  Whatever executions share a new cache, with any flags,
any size of the cache and any choice of what is evicted, each of them has the verdict it has without
a cache; and at any point, which is what the numbers of steps are for, every triple in the cache
verifies and there are no more of them than the cache may hold. -/
theorem sigCache_transparent (secp : Secp) (maxEntries : Nat) (evict : Nat → Nat)
    (executions : List (Nat × Execution)) :
    (runAll secp.crypto executions (some (SigCache.new maxEntries evict))).1 =
        executions.map (fun e => (runEngine secp.crypto e.2.next e.1 e.2.vm.uncached).1) ∧
      ∃ cache, (runAll secp.crypto executions (some (SigCache.new maxEntries evict))).2 =
          some cache ∧
        (∀ e ∈ cache.validSigs, Accepted secp.crypto e) ∧ cache.validSigs.length ≤ maxEntries := by
  obtain ⟨hverdicts, cache, hcache, hsound⟩ :=
    runAll_agrees executions ⟨_, rfl, SigCache.sound_new secp.crypto maxEntries evict⟩
  exact ⟨hverdicts, cache, hcache, hsound.accepted, hsound.length_le⟩

end Runs

open Btcec.Sample

/-- `OP_CHECKSIGVERIFY` on the first key and a signature. -/
def checkOnce (s : Nat) : Execution where
  next vm := if vm.dstack.isEmpty then .finish (.ok ()) else .check .checkSigVerify
  vm := { input with dstack := [key 1, der s ++ [1]] }

/-- Three executions.  The second finds the signature in the cache, and that of the third is one for
another key. -/
def executions : List (Nat × Execution) := [(2, checkOnce s₁), (2, checkOnce s₁), (2, checkOnce s₂)]

theorem sigCache_transparent_executions :
    (runAll Btcec.Sample.secp.crypto executions (some (SigCache.new 1 fun _ => 0))).1 =
        [some (.ok ()), some (.ok ()),
          some (.error (.script .errCheckSigVerify "OP_CHECKSIGVERIFY failed"))] ∧
      ∃ cache, (runAll Btcec.Sample.secp.crypto executions
          (some (SigCache.new 1 fun _ => 0))).2 = some cache ∧
        cache.validSigs = [(digest, der s₁, key 1)] ∧
        Accepted Btcec.Sample.secp.crypto (digest, der s₁, key 1) := by
  obtain ⟨hverdicts, cache, hcache, haccepted, -⟩ :=
    sigCache_transparent Btcec.Sample.secp 1 (fun _ => 0) executions
  have hsigs : (runAll Btcec.Sample.secp.crypto executions (some (SigCache.new 1 fun _ => 0))).2.map
      SigCache.validSigs = some [(digest, der s₁, key 1)] := by decide +kernel
  rw [hcache, Option.map_some, Option.some.injEq] at hsigs
  refine ⟨hverdicts.trans ?_, cache, hcache, hsigs, haccepted _ (by simp [hsigs])⟩
  decide +kernel

end Obtcd.Txscript
