import Mathlib.Data.List.NodupEquivFin
import Obtcd.Txscript.SigCache

/-!
# Matching signatures with keys

`opcodeCheckMultiSig` walks once over the keys with the signatures in the same order: a signature
that verifies under the key at hand is done with, and one that does not waits for the next key.  It
never goes back.  That loses nothing.  If the signatures can be matched with the keys at all, a
first signature that verifies under the first key may as well be matched with it, since whatever the
others are matched with comes later (`assigned_cons_of`).

`Assigned V sigs keys` says that an assignment exists, as a list of keys in their order.  The loop
computes it, on engines without a cache (`multiSigLoop_eq`), and with a cache that only knows what
verifies it computes the same (`transparent_opcodeCheckMultiSig`).
-/

namespace Obtcd.Txscript

open List
open Btcec (Secp)

/-! ## Assignments that keep the order -/

section Assigned

variable {α β : Type} {V : α → β → Prop} {a : α} {as : List α} {b : β} {bs : List β}

/-- Each of `as` has one of `bs` that it stands in `V` to, and these come in the same order. -/
def Assigned (V : α → β → Prop) (as : List α) (bs : List β) : Prop :=
  ∃ chosen, chosen.Sublist bs ∧ List.Forall₂ V as chosen

/-- As an injection of positions. -/
theorem assigned_iff_exists_orderEmbedding :
    Assigned V as bs ↔ ∃ f : Fin as.length ↪o Fin bs.length, ∀ i, V (as.get i) (bs.get (f i)) := by
  constructor
  · rintro ⟨chosen, hsub, hall⟩
    obtain ⟨f, hf⟩ := sublist_iff_exists_fin_orderEmbedding_get_eq.1 hsub
    have hlen := hall.length_eq
    refine ⟨(Fin.castOrderIso hlen).toOrderEmbedding.trans f, fun i => ?_⟩
    have hi := hall.get i.isLt (by omega)
    rwa [RelEmbedding.trans_apply, ← hf]
  · rintro ⟨f, hf⟩
    refine ⟨ofFn fun i => bs.get (f i), ?_, ?_⟩
    · refine sublist_iff_exists_fin_orderEmbedding_get_eq.2
        ⟨(Fin.castOrderIso (by simp)).toOrderEmbedding.trans f, fun i => ?_⟩
      simp [Fin.cast]
    · refine forall₂_iff_get.2 ⟨by simp, fun i h h' => ?_⟩
      simpa using hf ⟨i, h⟩

theorem Assigned.length_le (h : Assigned V as bs) : as.length ≤ bs.length := by
  obtain ⟨chosen, hsub, hall⟩ := h
  exact hall.length_eq.trans_le hsub.length_le

/-- The exchange: what stands in `V` to the first may take it. -/
theorem assigned_cons_of (h : V a b) : Assigned V (a :: as) (b :: bs) ↔ Assigned V as bs := by
  constructor
  · rintro ⟨chosen, hsub, hall⟩
    cases hall with
    | cons _ hall =>
      refine ⟨_, ?_, hall⟩
      rcases cons_sublist_cons'.1 hsub with hsub | ⟨-, hsub⟩
      · exact sublist_of_cons_sublist hsub
      · exact hsub
  · rintro ⟨chosen, hsub, hall⟩
    exact ⟨b :: chosen, hsub.cons_cons b, .cons h hall⟩

theorem assigned_cons_of_not (h : ¬ V a b) :
    Assigned V (a :: as) (b :: bs) ↔ Assigned V (a :: as) bs := by
  constructor
  · rintro ⟨chosen, hsub, hall⟩
    cases hsub with
    | cons _ hsub => exact ⟨chosen, hsub, hall⟩
    | cons_cons _ hsub =>
      cases hall with
      | cons hab _ => exact absurd hab h
  · rintro ⟨chosen, hsub, hall⟩
    exact ⟨chosen, hsub.cons b, hall⟩

end Assigned

/-! ## The loop -/

namespace Vm

variable {crypto : Crypto} {vm : Vm} (script : Bytes)

/-- The signature, with its hash type, verifies under the key for the digest of the script. -/
def Verifies (crypto : Crypto) (vm : Vm) (script rawSig pubKey : Bytes) : Prop :=
  ∃ last s key hash, rawSig.getLast? = some last ∧
    vm.parseSignature crypto rawSig.dropLast = .ok s ∧ crypto.parsePubKey pubKey = .ok key ∧
    vm.multiSigDigest script last.toUInt32 = .ok hash ∧ crypto.verify s hash key = true

/-- A signature that is not empty, is well encoded and parses. -/
def SigOk (crypto : Crypto) (vm : Vm) (rawSig : Bytes) : Prop :=
  ∃ last s, rawSig.getLast? = some last ∧ vm.checkHashTypeEncoding last.toUInt32 = .ok () ∧
    vm.checkSignatureEncoding rawSig.dropLast = .ok () ∧
    vm.parseSignature crypto rawSig.dropLast = .ok s

/-- A key that is well encoded and parses. -/
def KeyOk (crypto : Crypto) (vm : Vm) (pubKey : Bytes) : Prop :=
  vm.checkPubKeyEncoding pubKey = .ok () ∧ ∃ key, crypto.parsePubKey pubKey = .ok key

theorem exists_multiSigDigest (hidx : vm.txIdx < vm.tx.txIn.length) (hashType : SigHashType) :
    ∃ hash, vm.multiSigDigest script hashType = .ok hash := by
  rw [multiSigDigest]
  split
  · rw [segwitDigest, calcWitnessSignatureHashRawWithReplayProtection, getElem?_eq_getElem hidx]
    exact ⟨_, rfl⟩
  · exact ⟨_, rfl⟩

/-- One signature against one key, without a cache. -/
theorem tryKey_eq (hcache : vm.sigCache = none) (hidx : vm.txIdx < vm.tx.txIn.length)
    {rawSig pubKey : Bytes} {last : UInt8} {s : crypto.Signature}
    (hlast : rawSig.getLast? = some last)
    (hs : vm.parseSignature crypto rawSig.dropLast = .ok s) (hkey : KeyOk crypto vm pubKey) :
    ∃ valid, vm.tryKey crypto script last.toUInt32 rawSig.dropLast s pubKey = .ok (valid, none) ∧
      (valid = true ↔ Verifies crypto vm script rawSig pubKey) := by
  obtain ⟨henc, key, hkey⟩ := hkey
  obtain ⟨hash, hhash⟩ := exists_multiSigDigest script hidx last.toUInt32
  refine ⟨crypto.verify s hash key, ?_, fun hv => ⟨last, s, key, hash, hlast, hs, hkey, hhash, hv⟩, ?_⟩
  · simp only [tryKey, henc, hkey, hhash, ok_bind, verifySig, hcache]
    rfl
  · rintro ⟨last', s', key', hash', hlast', hs', hkey', hhash', hv⟩
    cases hlast.symm.trans hlast'
    cases hs.symm.trans hs'
    cases hkey.symm.trans hkey'
    cases hhash.symm.trans hhash'
    exact hv

/-- The loop finds an assignment if there is one.  The induction is on the keys; what has been
parsed of the first signature is its meaning. -/
theorem multiSigLoop_eq (vm : Vm) (hcache : vm.sigCache = none) (hidx : vm.txIdx < vm.tx.txIn.length)
    {pubKeys sigs : List Bytes} (hkeys : ∀ key ∈ pubKeys, KeyOk crypto vm key)
    (hsigs : ∀ sig ∈ sigs, SigOk crypto vm sig) {parsed : Option (Option crypto.Signature)}
    (hparsed : ∀ p, parsed = some p → ∀ sig ∈ sigs.head?,
      (vm.parseSignature crypto sig.dropLast).toOption = p) (n : Nat) :
    ∃ success m, multiSigLoop crypto script pubKeys sigs parsed n vm = .ok (success, m, vm) ∧
      (success = true ↔ Assigned (Verifies crypto vm script) sigs pubKeys) := by
  induction pubKeys generalizing sigs parsed n with
  | nil =>
    cases sigs with
    | nil => exact ⟨true, n, rfl, by simp [Assigned]⟩
    | cons sig sigs => exact ⟨false, n, rfl, by simp [Assigned]⟩
  | cons pubKey pubKeys ih =>
    cases sigs with
    | nil => exact ⟨true, n, rfl, iff_of_true rfl ⟨[], nil_sublist _, .nil⟩⟩
    | cons sig sigs =>
      rw [multiSigLoop]
      split
      · rename_i hlen
        refine ⟨false, n, rfl, iff_of_false Bool.false_ne_true fun h => ?_⟩
        have hle := h.length_le
        simp only [length_cons] at hle
        omega
      obtain ⟨hkey, hkeys⟩ := forall_mem_cons.1 hkeys
      obtain ⟨hsig, hsigs'⟩ := forall_mem_cons.1 hsigs
      obtain ⟨last, s, hlast, htype, henc, hs⟩ := hsig
      have honce : vm.parseOnce crypto parsed last.toUInt32 sig.dropLast = .ok (some s) := by
        rw [parseOnce.eq_def]
        split
        · rename_i p
          rw [← hparsed p rfl sig rfl, hs]
          rfl
        · rw [htype, ok_bind, henc, ok_bind, hs]
          rfl
      obtain ⟨valid, htry, hvalid⟩ := tryKey_eq script hcache hidx hlast hs hkey
      have hvm : { vm with sigCache := none } = vm := by rw [← hcache]
      simp only [hlast, honce, htry, lift_ok, ok_bind, hvm]
      cases valid with
      | true =>
        rw [assigned_cons_of (hvalid.1 rfl), if_pos rfl]
        exact ih hkeys hsigs' (fun p hp => by cases hp) (n + 1)
      | false =>
        rw [assigned_cons_of_not (fun h => Bool.false_ne_true (hvalid.2 h)), if_neg (by simp)]
        refine ih hkeys hsigs (fun p hp sig' hsig' => ?_) n
        cases hp
        cases hsig'
        rw [hs]
        rfl

end Vm

/-! ## The opcode -/

/-- The opcode without a cache: unless it fails, it pushes whether there is an assignment, and it
does not fail if there is one. -/
theorem opcodeCheckMultiSig_of_uncached {crypto : Crypto} {vm : Vm} (hcache : vm.sigCache = none)
    (hidx : vm.txIdx < vm.tx.txIn.length) {args : Vm.MultiSigArgs}
    (hargs : vm.multiSigArgs = .ok args)
    (hsigs : ∀ sig ∈ args.signatures, Vm.SigOk crypto vm sig)
    (hkeys : ∀ key ∈ args.pubKeys, Vm.KeyOk crypto vm key) :
    (∃ vm', vm.opcodeCheckMultiSig crypto = .ok vm' ∧
        vm'.dstack = fromBool true :: args.vm.dstack) ↔
      Assigned (Vm.Verifies crypto vm args.script) args.signatures args.pubKeys := by
  obtain ⟨numOps, dstack, hvm⟩ := Vm.multiSigArgs_vm hargs
  obtain ⟨success, m, hloop, hsuccess⟩ :=
    Vm.multiSigLoop_eq args.script { vm with numOps, dstack } hcache hidx hkeys hsigs
      (fun p (hp : none = some p) => by cases hp) 0
  rw [Vm.opcodeCheckMultiSig, hargs, Vm.lift_ok, ok_bind, hvm, hloop, ok_bind]
  refine Iff.trans ?_ hsuccess
  cases success with
  | true => simp [require, Vm.push]
  | false =>
    simp only [Bool.false_eq_true, iff_false]
    rintro ⟨vm', hrun, hstack⟩
    obtain ⟨⟨⟩, -, hrun⟩ := bind_eq_ok.1 hrun
    cases hrun
    simp [Vm.push, fromBool] at hstack

/-- **`OP_CHECKMULTISIG` pushes true exactly if the signatures can be assigned to keys, in order.**
The engine has no cache or one that is sound; all signatures and keys are well encoded and parse,
and none of the signatures is empty. -/
theorem opcodeCheckMultiSig_iff (secp : Secp) (maxEntries : Nat) {vm : Vm}
    (hcache : ∀ cache, vm.sigCache = some cache → cache.Sound secp.crypto maxEntries)
    (hidx : vm.txIdx < vm.tx.txIn.length) {args : Vm.MultiSigArgs}
    (hargs : vm.multiSigArgs = .ok args)
    (hsigs : ∀ sig ∈ args.signatures, Vm.SigOk secp.crypto vm sig)
    (hkeys : ∀ key ∈ args.pubKeys, Vm.KeyOk secp.crypto vm key) :
    (∃ vm', vm.opcodeCheckMultiSig secp.crypto = .ok vm' ∧
        vm'.dstack = fromBool true :: args.vm.dstack) ↔
      ∃ f : Fin args.signatures.length ↪o Fin args.pubKeys.length,
        ∀ i, Vm.Verifies secp.crypto vm args.script (args.signatures.get i)
          (args.pubKeys.get (f i)) := by
  rw [← assigned_iff_exists_orderEmbedding]
  cases hnone : vm.sigCache with
  | none => exact opcodeCheckMultiSig_of_uncached hnone hidx hargs hsigs hkeys
  | some cache =>
    -- the engine without the cache has the same arguments and comes to the same stack
    have hok : CacheOk secp.crypto maxEntries vm.sigCache := ⟨cache, hnone, hcache cache hnone⟩
    have hargs₀ : vm.uncached.multiSigArgs = .ok { args with vm := args.vm.uncached } := by
      have hagrees := agrees_multiSigArgs hok
      rw [hargs, Vm.lift_ok] at hagrees
      generalize hx : vm.uncached.lift vm.uncached.multiSigArgs = x at hagrees
      cases hagrees with
      | ok h => rwa [h.1, Vm.lift_eq_ok] at hx
    have huncached := opcodeCheckMultiSig_of_uncached (show vm.uncached.sigCache = none from rfl) hidx
      hargs₀ hsigs hkeys
    refine Iff.trans ?_ huncached
    have hagrees := transparent_opcodeCheckMultiSig vm hok
    beta_reduce at hagrees
    generalize vm.opcodeCheckMultiSig secp.crypto = x at hagrees ⊢
    generalize vm.uncached.opcodeCheckMultiSig secp.crypto = y at hagrees ⊢
    cases hagrees with
    | ok h =>
      obtain ⟨rfl, -⟩ := h
      simp [Vm.uncached]
    | error h => simp

open Btcec.Sample

/-- Two signatures and three keys on the stack, the first signature for the second key. -/
def twoOfThree : Vm :=
  { input with dstack := [[3], key 3, key 2, key 1, [2], der s₂ ++ [1], der s₁ ++ [1], []] }

theorem opcodeCheckMultiSig_iff_twoOfThree :
    ∃ vm', twoOfThree.opcodeCheckMultiSig secp.crypto = .ok vm' ∧ vm'.dstack = [fromBool true] := by
  have hargs : twoOfThree.multiSigArgs = .ok ⟨[key 3, key 2, key 1], [der s₂ ++ [1], der s₁ ++ [1]],
      [opCheckSig], { twoOfThree with numOps := 4, dstack := [] }⟩ := by rfl
  have hkeys : ∀ k ∈ [key 3, key 2, key 1], Vm.KeyOk secp.crypto twoOfThree k := by
    simp only [forall_mem_cons, not_mem_nil, false_imp_iff, implies_true, and_true]
    exact ⟨⟨rfl, _, rfl⟩, ⟨rfl, _, rfl⟩, ⟨rfl, _, rfl⟩⟩
  have hsigs : ∀ s ∈ [der s₂ ++ [1], der s₁ ++ [1]], Vm.SigOk secp.crypto twoOfThree s := by
    simp only [forall_mem_cons, not_mem_nil, false_imp_iff, implies_true, and_true]
    exact ⟨⟨1, (r, s₂), rfl, rfl, rfl, rfl⟩, ⟨1, (r, s₁), rfl, rfl, rfl, rfl⟩⟩
  have hdigest : twoOfThree.multiSigDigest [opCheckSig] 1 = .ok digest := by decide +kernel
  refine (opcodeCheckMultiSig_iff secp 0 (fun _ h => by cases h) (by decide) hargs hsigs hkeys).2 ?_
  -- the key on top has signed nothing
  refine ⟨Fin.succOrderEmb 2, fun i => ?_⟩
  match i with
  | 0 => exact ⟨1, (r, s₂), key 2, digest, rfl, rfl, rfl, hdigest, by decide⟩
  | 1 => exact ⟨1, (r, s₁), key 1, digest, rfl, rfl, rfl, hdigest, by decide⟩

end Obtcd.Txscript
