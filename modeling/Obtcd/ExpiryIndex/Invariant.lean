import Obtcd.ExpiryIndex.Index
import Obtcd.Lib.Tabulate

/-!
# The invariant of the expiry index

What the index stores is determined by a set of unspent outputs: `ExpiryParams.Rep p u w` says that the
four buckets of `w` tabulate the indexed outputs of `u` (those of a create height the index covers),
that no indexed amount is negative, and that the accumulator of `w` is the product of the residues
of the indexed entries.

Each operation of `Index.lean` on single outputs gets one lemma here, which says that it does to `w`
what the ledger does to `u`.  A spend erases (`connectSpend_rep`), an output inserts
(`connectCreate_rep`), and the two undo operations do the opposite (`disconnectCreate_rep`,
`disconnectSpend_rep`).  None of them can fail except an output with a negative amount.
-/

namespace Obtcd.ExpiryIndex

namespace ExpiryParams

variable (p : ExpiryParams)

/-- Is a coin one that the index covers? -/
def Covers (coin : SpentTxOut) : Prop := p.covers coin.height = true

/-- The expiry key of a coin. -/
def keyOf (coin : SpentTxOut) : UInt64 := p.calculateExpiryKey coin.height

/-- The entry the accumulator hashes for a coin. -/
def entryOf (op : OutPoint) (coin : SpentTxOut) : Bytes := computeEntryData op (p.keyOf coin)

/-- No covered coin has a negative amount. -/
abbrev AmountsNonneg (u : Utxos) : Prop :=
  Ledger.AllCoins (fun coin => p.Covers coin → 0 ≤ coin.amount) u

/-- **The four buckets tabulate the covered coins of `u`.** -/
structure RepBuckets (u : Utxos) (db : Buckets) : Prop where
  outpoint2Expiry : Tabulates db.outpoint2Expiry u p.Covers
    (fun op _ => encodeOutPoint op) (fun _ coin => encodeExpiryKey (p.keyOf coin))
  expiry2Outpoints : Tabulates db.expiry2Outpoints u p.Covers
    (fun op coin => encodeExpiryOutpointCompositeKey (p.keyOf coin) op) (fun _ _ => emptyIndexValue)
  reapStrictCandidates : Tabulates db.reapStrictCandidates u p.Covers
    (fun op coin => reapStrictKey (p.keyOf coin) coin.amount op) (fun _ _ => emptyIndexValue)
  outpoint2ReapStrict : Tabulates db.outpoint2ReapStrict u p.Covers
    (fun op _ => encodeOutPoint op) (fun op coin => reapStrictKey (p.keyOf coin) coin.amount op)
  amounts : p.AmountsNonneg u

/-- The entries of the covered coins, in the order of their outpoints. -/
def entries (u : Utxos) : List Bytes :=
  (u.toList.filter fun r => p.covers r.2.height).map fun r => p.entryOf r.1 r.2

/-- The accumulator is the product of the residues of `data`. -/
structure Accumulates (mh : MuHash) (data : List Bytes) : Prop where
  reduced : mh.Reduced muhashPrime
  value : ∀ _ : Fact muhashPrime.Prime,
    mh.Nonzero muhashPrime ∧ mh.value muhashPrime = (data.map MuHash.residue).prod

/-- **The working state of a block operation represents the set `u`.** -/
structure Rep (u : Utxos) (w : Working) : Prop where
  buckets : p.RepBuckets u w.2
  accumulator : Accumulates w.1 (p.entries u)

variable {p}

/-! ## The accumulator -/

theorem accumulates_new : Accumulates MuHash.new [] :=
  ⟨MuHash.reduced_new, fun _ => ⟨MuHash.nonzero_new, MuHash.value_new⟩⟩

variable {data : List Bytes}

theorem Accumulates.add {mh : MuHash} (h : Accumulates mh data) (e : Bytes) :
    Accumulates (mh.add e) (e :: data) := by
  refine ⟨MuHash.reduced_add h.reduced e, fun hp => ?_⟩
  obtain ⟨hnz, hval⟩ := h.value hp
  refine ⟨MuHash.nonzero_add hnz e, ?_⟩
  rw [MuHash.value_add, hval, List.map_cons, List.prod_cons, mul_comm]

theorem Accumulates.remove {mh : MuHash} {e : Bytes} (h : Accumulates mh (e :: data)) :
    Accumulates (mh.remove e) data := by
  refine ⟨MuHash.reduced_remove h.reduced e, fun hp => ?_⟩
  obtain ⟨hnz, hval⟩ := h.value hp
  refine ⟨MuHash.nonzero_remove hnz e, ?_⟩
  rw [MuHash.value_remove, hval, List.map_cons, List.prod_cons,
    mul_div_cancel_left₀ _ (MuHash.residue_ne_zero e)]

theorem Accumulates.perm {mh : MuHash} {data' : List Bytes} (h : Accumulates mh data)
    (hperm : data.Perm data') : Accumulates mh data' := by
  refine ⟨h.reduced, fun hp => ?_⟩
  obtain ⟨hnz, hval⟩ := h.value hp
  exact ⟨hnz, hval.trans (hperm.map _).prod_eq⟩

/-! ## The entries of a set -/

variable {op : OutPoint} {coin : SpentTxOut} {u : Utxos}

section Entries

variable {u' : Utxos} (h : u'.toList.Perm ((op, coin) :: u.toList))
include h

/-- A set with one more output. -/
theorem entries_of_perm (hc : p.Covers coin) :
    (p.entries u').Perm (p.entryOf op coin :: p.entries u) := by
  have hc' : p.covers coin.height = true := hc
  simpa [hc', entries] using (h.filter fun r => p.covers r.2.height).map fun r => p.entryOf r.1 r.2

theorem entries_of_perm_skip (hc : ¬ p.Covers coin) : (p.entries u').Perm (p.entries u) := by
  have hc' : p.covers coin.height = false := by simpa [Covers] using hc
  simpa [hc', entries] using (h.filter fun r => p.covers r.2.height).map fun r => p.entryOf r.1 r.2

end Entries

/-! ## The buckets -/

theorem outPoint_key (a : OutPoint) (_ : SpentTxOut) (a' : OutPoint) (_ : SpentTxOut)
    (h : encodeOutPoint a = encodeOutPoint a') : a = a' :=
  encodeOutPoint_inj.1 h

theorem expiry_key (a : OutPoint) (b : SpentTxOut) (a' : OutPoint) (b' : SpentTxOut)
    (h : encodeExpiryOutpointCompositeKey (p.keyOf b) a =
      encodeExpiryOutpointCompositeKey (p.keyOf b') a') : a = a' :=
  (encodeExpiryOutpointCompositeKey_inj.1 h).2

theorem reap_key (a : OutPoint) (b : SpentTxOut) (a' : OutPoint) (b' : SpentTxOut)
    (h : reapStrictKey (p.keyOf b) b.amount a = reapStrictKey (p.keyOf b') b'.amount a') :
    a = a' :=
  (reapStrictKey_inj.1 h).2.2

theorem repBuckets_empty (m : Bucket) : p.RepBuckets ∅ ⟨m, ∅, ∅, ∅, ∅⟩ :=
  ⟨.empty, .empty, .empty, .empty, by intro op coin h; simp at h⟩

variable {db : Buckets}

/-- A coin that is absent or not covered has no entry under its outpoint. -/
theorem RepBuckets.get_none (h : p.RepBuckets u db)
    (hskip : ∀ coin, u[op]? = some coin → ¬ p.Covers coin) :
    db.outpoint2Expiry[encodeOutPoint op]? = none := by
  rw [Option.eq_none_iff_forall_ne_some]
  intro v hv
  obtain ⟨op', coin, hop, hc, hk, -⟩ := (h.outpoint2Expiry _ _).1 hv
  obtain rfl : op' = op := encodeOutPoint_inj.1 hk
  exact hskip coin hop hc

/-- Removing an output that is absent or not covered does nothing. -/
theorem RepBuckets.disconnect_skip (h : p.RepBuckets u db)
    (hskip : ∀ coin, u[op]? = some coin → ¬ p.Covers coin) :
    disconnectTxOut db op = .ok db ∧ p.RepBuckets (u.erase op) db := by
  constructor
  · rw [disconnectTxOut, h.get_none hskip]
  · exact ⟨h.outpoint2Expiry.erase_skip hskip, h.expiry2Outpoints.erase_skip hskip,
      h.reapStrictCandidates.erase_skip hskip, h.outpoint2ReapStrict.erase_skip hskip,
      h.amounts.erase op⟩

/-- Removing a covered output finds it in all four buckets and deletes it there. -/
theorem RepBuckets.disconnect (h : p.RepBuckets u db) (hop : u[op]? = some coin)
    (hc : p.Covers coin) :
    disconnectTxOut db op = .ok (db.deleteEntry op (p.keyOf coin)
        (reapStrictKey (p.keyOf coin) coin.amount op)) ∧
      p.RepBuckets (u.erase op) (db.deleteEntry op (p.keyOf coin)
        (reapStrictKey (p.keyOf coin) coin.amount op)) := by
  have h₁ := h.outpoint2Expiry.get hop hc
  have h₂ := h.expiry2Outpoints.get hop hc
  have h₃ := h.reapStrictCandidates.get hop hc
  have h₄ := h.outpoint2ReapStrict.get hop hc
  constructor
  · rw [disconnectTxOut, h₁]
    dsimp only
    rw [decodeExpiryKey_encode, wrapError, ok_bind, h₂, h₄]
    dsimp only
    rw [h₃]
    rfl
  · exact ⟨h.outpoint2Expiry.erase outPoint_key hop, h.expiry2Outpoints.erase expiry_key hop,
      h.reapStrictCandidates.erase reap_key hop, h.outpoint2ReapStrict.erase outPoint_key hop,
      h.amounts.erase op⟩

theorem RepBuckets.connect_skip (h : p.RepBuckets u db) (hnew : u[op]? = none)
    (hc : ¬ p.Covers coin) : p.RepBuckets (u.insert op coin) db :=
  ⟨h.outpoint2Expiry.insert_skip hnew hc, h.expiry2Outpoints.insert_skip hnew hc,
    h.reapStrictCandidates.insert_skip hnew hc, h.outpoint2ReapStrict.insert_skip hnew hc,
    h.amounts.insert fun hc' => absurd hc' hc⟩

/-- Adding a new covered output with an amount that is not negative enters it in all four
buckets. -/
theorem RepBuckets.connect {idx : Index} (h : idx.expiryParams.RepBuckets u db)
    (hnew : u[op]? = none) (hc : idx.expiryParams.Covers coin) (hamt : 0 ≤ coin.amount) :
    idx.connectTxOut db op coin.height coin.amount = .ok (db.putEntry op
        (idx.expiryParams.keyOf coin)
        (reapStrictKey (idx.expiryParams.keyOf coin) coin.amount op)) ∧
      idx.expiryParams.RepBuckets (u.insert op coin) (db.putEntry op (idx.expiryParams.keyOf coin)
        (reapStrictKey (idx.expiryParams.keyOf coin) coin.amount op)) := by
  have hc' : idx.shouldIndexCreateHeight coin.height = true := hc
  constructor
  · rw [Index.connectTxOut, hc', putTxOutMapping, encodeReapStrictCompositeKey,
      if_neg (Int64.not_lt.2 hamt), ok_bind]
    rfl
  · exact ⟨h.outpoint2Expiry.insert outPoint_key hnew hc, h.expiry2Outpoints.insert expiry_key hnew hc,
      h.reapStrictCandidates.insert reap_key hnew hc,
      h.outpoint2ReapStrict.insert outPoint_key hnew hc, h.amounts.insert fun _ => hamt⟩

end ExpiryParams

end Obtcd.ExpiryIndex
