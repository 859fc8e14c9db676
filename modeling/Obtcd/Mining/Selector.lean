import Obtcd.Mining.Reap

/-!
# The order of candidates

Three orders have to agree on which expired output comes first.  The expiry index walks a bucket in
the byte order of its keys; validation compares expiry key, amount, hash bytes and index, field by
field; and the selector of the miner, where it collects candidates by itself, sorts them with a
comparison of its own.

`compareCandidates` is that comparison, branch by branch.  In strict mode it is the comparison of
validation, and so is the byte order of the keys, whatever the 64-bit and 256-bit values are.  Encoding
and decoding being inverse, a walk over any bucket of keys returns the first of its expired entries
in that order (`canonical_order`).
-/

namespace Obtcd.Mining

open List ExpiryIndex Std

/-! ## Sorting -/

structure Candidate where
  op : OutPoint
  expiry : UInt64
  amount : Int64
deriving DecidableEq

inductive SortMode where
  | strict
  | simple
deriving DecidableEq

/-- The comparison of `sortCandidates`. -/
def compareCandidates (mode : SortMode) (a b : Candidate) : Ordering :=
  if a.expiry ≠ b.expiry then
    if a.expiry < b.expiry then .lt else .gt
  else if mode = .strict ∧ a.amount ≠ b.amount then
    if a.amount < b.amount then .lt else .gt
  else
    match compare a.op.hash.bytes.val b.op.hash.bytes.val with
    | .eq =>
      if a.op.index < b.op.index then .lt
      else if a.op.index > b.op.index then .gt
      else .eq
    | hcmp => hcmp

/-- No two of the candidates it is given have the same outpoint, so the order of the
result does not depend on the sorting algorithm. -/
def sortCandidates (cs : List Candidate) (mode : SortMode) : List Candidate :=
  cs.mergeSort fun a b => (compareCandidates mode a b).isLE

/-- The key validation orders a candidate by. -/
def Candidate.orderKey (c : Candidate) : ReapInputOrderKey := ⟨c.expiry, c.amount, c.op⟩

/-- The candidate as the index returns it. -/
def Candidate.toPrefix (c : Candidate) : ReapPrefixCandidate := ⟨c.op, c.expiry, c.amount⟩

theorem toPrefix_injective {a b : Candidate} (h : a.toPrefix = b.toPrefix) : a = b := by
  obtain ⟨op, expiry, amount⟩ := a
  obtain ⟨op', expiry', amount'⟩ := b
  simpa [Candidate.toPrefix] using h

theorem compare_index (i j : UInt32) :
    compare i j = if i < j then .lt else if i > j then .gt else .eq := by
  rw [UInt32.compare_eq_toNat_compare_toNat, Nat.compare_eq_ite_lt]
  simp only [UInt32.lt_iff_toNat_lt, gt_iff_lt]

theorem compare_expiry (a b : UInt64) :
    compare a b = if a ≠ b then if a < b then .lt else .gt else .eq := by
  rw [UInt64.compare_eq_toNat_compare_toNat, Nat.compare_eq_ite_lt]
  simp only [UInt64.lt_iff_toNat_lt, ne_eq, ← UInt64.toNat_inj]
  split_ifs <;> first | rfl | omega

theorem compare_amount (a b : Int64) :
    compare a b = if a ≠ b then if a < b then .lt else .gt else .eq := by
  rw [show compare a b = compareOfLessAndEq a b from rfl, compareOfLessAndEq]
  by_cases heq : a = b
  · simp [heq]
  · simp [heq]

/-- The comparison of the miner is the comparison of validation. -/
theorem compareCandidates_strict (a b : Candidate) :
    compareCandidates .strict a b = compareReapInputOrderKey a.orderKey b.orderKey := by
  rw [compareCandidates, compareReapInputOrderKey, Candidate.orderKey, Candidate.orderKey]
  rw [compare_expiry, compare_amount, compare_index]
  by_cases hexpiry : a.expiry = b.expiry
  · by_cases hamount : a.amount = b.amount
    · simp only [hexpiry, hamount, ne_eq, not_true, and_false, if_false]
      cases compare a.op.hash.bytes.val b.op.hash.bytes.val <;> rfl
    · simp only [hexpiry, hamount, ne_eq, not_true, not_false_iff, and_true, if_true, if_false]
      split_ifs <;> rfl
  · simp only [hexpiry, ne_eq, not_false_iff, if_true]
    split_ifs <;> rfl

theorem eq_of_compareReapInputOrderKey {a b : ReapInputOrderKey}
    (h : compareReapInputOrderKey a b = .eq) : a = b := by
  obtain ⟨expiry, amount, hash, index⟩ := a
  obtain ⟨expiry', amount', hash', index'⟩ := b
  rw [compareReapInputOrderKey, Ordering.then_eq_eq, Ordering.then_eq_eq, Ordering.then_eq_eq] at h
  obtain ⟨hexpiry, hamount, hhash, hindex⟩ := h
  have hhash' : hash = hash' := Hash.bytes_injective (compare_eq_iff_eq.1 hhash)
  rw [show expiry = expiry' from compare_eq_iff_eq.1 hexpiry,
    show amount = amount' from compare_eq_iff_eq.1 hamount, hhash',
    show index = index' from compare_eq_iff_eq.1 hindex]

theorem le_antisymm_toPrefix {a b : Candidate} (hab : a.toPrefix.le b.toPrefix = true)
    (hba : b.toPrefix.le a.toPrefix = true) : a = b := by
  have heq : compareReapInputOrderKey a.orderKey b.orderKey = .eq :=
    OrientedCmp.isLE_antisymm hab hba
  have hkey := eq_of_compareReapInputOrderKey heq
  obtain ⟨op, expiry, amount⟩ := a
  obtain ⟨op', expiry', amount'⟩ := b
  simpa [Candidate.orderKey, and_comm, and_left_comm, and_assoc] using hkey

theorem sortCandidates_strict (cs : List Candidate) :
    sortCandidates cs .strict = cs.mergeSort fun a b => a.toPrefix.le b.toPrefix := by
  rw [sortCandidates]
  congr 1
  funext a b
  rw [compareCandidates_strict]
  rfl

theorem sorted_sortCandidates (cs : List Candidate) :
    (sortCandidates cs .strict).Pairwise fun a b => a.toPrefix.le b.toPrefix = true := by
  rw [sortCandidates_strict]
  exact pairwise_mergeSort
    (fun a b c => ReapPrefixCandidate.le_trans a.toPrefix b.toPrefix c.toPrefix)
    (fun a b => ReapPrefixCandidate.le_total a.toPrefix b.toPrefix) cs

theorem sortCandidates_perm (cs : List Candidate) (mode : SortMode) :
    (sortCandidates cs mode).Perm cs := mergeSort_perm ..

/-- A sorted list of the same candidates is what sorting gives. -/
theorem eq_sortCandidates {cs sorted : List Candidate} (hperm : sorted.Perm cs)
    (hsorted : sorted.Pairwise fun a b => a.toPrefix.le b.toPrefix = true) :
    sorted = sortCandidates cs .strict :=
  (hperm.trans (sortCandidates_perm cs .strict).symm).eq_of_pairwise
    (fun _ _ _ _ => le_antisymm_toPrefix) hsorted (sorted_sortCandidates cs)

/-- Sorting commutes with leaving candidates out. -/
theorem filter_sortCandidates (q : Candidate → Bool) (cs : List Candidate) :
    (sortCandidates cs .strict).filter q = sortCandidates (cs.filter q) .strict :=
  eq_sortCandidates ((sortCandidates_perm cs .strict).filter q)
    ((sorted_sortCandidates cs).sublist filter_sublist)

/-! ## The bucket -/

/-- A bucket whose keys are those of some entries. -/
structure Holds (bucket : Bucket) (entries : List Candidate) : Prop where
  nodup : entries.Nodup
  amounts : ∀ c ∈ entries, 0 ≤ c.amount
  keys : ∀ key, (∃ v, bucket[key]? = some v) ↔
    ∃ c ∈ entries, encodeReapStrictCompositeKey c.expiry c.amount c.op = .ok key

/-- The entries that are expired at a height. -/
def expiredEntries (entries : List Candidate) (height : Int32) : List Candidate :=
  entries.filter fun c => (c.expiry.toNat : Int) ≤ height.toInt

theorem encodeReapStrictCompositeKey_of_nonneg (k : UInt64) {a : Int64} (h : 0 ≤ a) (op : OutPoint) :
    encodeReapStrictCompositeKey k a op = .ok (reapStrictKey k a op) := by
  rw [encodeReapStrictCompositeKey, if_neg (Int64.not_lt.2 h)]

/-- The walk over a bucket returns the first of its expired entries, in order. -/
theorem Holds.reapPrefixCandidates_eq {idx : Index} (hidx : idx.disabled = false) {db : Buckets}
    {entries : List Candidate} (h : Holds db.reapStrictCandidates entries) (height : Int32)
    (limit : Nat) : idx.reapPrefixCandidates db height limit =
      .ok (((sortCandidates (expiredEntries entries height) .strict).take limit).map
        Candidate.toPrefix) := by
  have hperm := sortCandidates_perm entries .strict
  have hkeys : db.reapStrictCandidates.toList.map Prod.fst =
      ((sortCandidates entries .strict).map Candidate.toPrefix).map ExpiryParams.strictKey := by
    refine ExpiryParams.keys_eq_of_sorted ?_ (pairwise_map.2 (sorted_sortCandidates entries)) ?_ ?_
    · refine forall_mem_map.2 fun c hc => h.amounts c (hperm.mem_iff.1 hc)
    · exact (nodup_map_iff fun _ _ => toPrefix_injective).2 (hperm.nodup_iff.2 h.nodup)
    · intro key
      rw [h.keys key]
      simp only [mem_map, hperm.mem_iff, exists_exists_and_eq_and]
      refine exists_congr fun c => and_congr_right fun hc => ?_
      rw [encodeReapStrictCompositeKey_of_nonneg _ (h.amounts c hc), Except.ok.injEq]
      rfl
  rw [Index.reapPrefixCandidates, hidx, if_neg (by decide)]
  by_cases hneg : height < 0
  · have hnone : expiredEntries entries height = [] := by
      refine filter_eq_nil_iff.2 fun c _ => ?_
      have := Int32.lt_iff_toInt_lt.1 hneg
      rw [Int32.toInt_zero] at this
      rw [decide_eq_true_iff]
      omega
    rw [if_pos hneg, hnone, sortCandidates, mergeSort_nil, take_nil]
    rfl
  · have hto := MachineInt.toNat_toUInt64_toInt64 (Int32.not_lt.1 hneg)
    have hamounts : ∀ c ∈ (sortCandidates entries .strict).map Candidate.toPrefix, 0 ≤ c.amount :=
      forall_mem_map.2 fun c hc => h.amounts c (hperm.mem_iff.1 hc)
    have hpred : ((fun c : ReapPrefixCandidate => decide (c.expiryKey ≤ height.toInt64.toUInt64)) ∘
        Candidate.toPrefix) = fun c => decide ((c.expiry.toNat : Int) ≤ height.toInt) := by
      funext c
      refine decide_eq_decide.2 ?_
      rw [Candidate.toPrefix, UInt64.le_iff_toNat_le]
      dsimp only
      omega
    rw [if_neg hneg, hkeys, ExpiryParams.scanPrefix_eq hamounts
      (pairwise_map.2 (sorted_sortCandidates entries)), filter_map, hpred,
      filter_sortCandidates, map_take]
    rfl

/-- **One canonical order.**  The byte order of strict keys, the order of validation and the strict
order of the miner are the same; encoding and decoding are inverse; and the index returns the
first of the expired entries in that order, for every bucket, height and limit. -/
theorem canonical_order :
    (∀ (k k' : UInt64) (a a' : Int64) (op op' : OutPoint), 0 ≤ a → 0 ≤ a' →
      ∃ key key', encodeReapStrictCompositeKey k a op = .ok key ∧
        encodeReapStrictCompositeKey k' a' op' = .ok key' ∧
        compare key key' = compareReapInputOrderKey ⟨k, a, op⟩ ⟨k', a', op'⟩ ∧
        compare key key' = compareCandidates .strict ⟨op, k, a⟩ ⟨op', k', a'⟩) ∧
    (∀ (k : UInt64) (a : Int64) (op : OutPoint) (key : Bytes),
      encodeReapStrictCompositeKey k a op = .ok key ↔
        decodeReapStrictCompositeKey key = .ok (k, a, op)) ∧
    ∀ (idx : Index) (db : Buckets) (entries : List Candidate), idx.disabled = false →
      Holds db.reapStrictCandidates entries → ∀ (height : Int32) (limit : Int),
        (sortCandidates (expiredEntries entries height) .strict).Pairwise
            (fun a b => compareReapInputOrderKey a.orderKey b.orderKey = .lt) ∧
          idx.reapPrefixCandidates db height limit.toNat =
            .ok (((sortCandidates (expiredEntries entries height) .strict).take limit.toNat).map
              Candidate.toPrefix) := by
  refine ⟨fun k k' a a' op op' h h' => ?_, fun k a op key => encodeReapStrictCompositeKey_iff,
    fun idx db entries hidx hholds height limit =>
      ⟨?_, hholds.reapPrefixCandidates_eq hidx height limit.toNat⟩⟩
  · have hcmp := compare_reapStrictKey k k' h h' op op'
    exact ⟨_, _, encodeReapStrictCompositeKey_of_nonneg k h op,
      encodeReapStrictCompositeKey_of_nonneg k' h' op', hcmp,
      hcmp.trans (compareCandidates_strict ⟨op, k, a⟩ ⟨op', k', a'⟩).symm⟩
  · have hnodup : (sortCandidates (expiredEntries entries height) .strict).Nodup :=
      (sortCandidates_perm _ _).nodup_iff.2 (hholds.nodup.filter _)
    refine ((sorted_sortCandidates _).and hnodup).imp ?_
    rintro a b ⟨hle, hne⟩
    cases hord : compareReapInputOrderKey a.orderKey b.orderKey with
    | lt => rfl
    | eq =>
      refine absurd (le_antisymm_toPrefix hle ?_) hne
      have hswap : compareReapInputOrderKey b.orderKey a.orderKey = .eq :=
        OrientedCmp.eq_symm hord
      change (compareReapInputOrderKey b.orderKey a.orderKey).isLE = true
      rw [hswap]
      rfl
    | gt =>
      change (compareReapInputOrderKey a.orderKey b.orderKey).isLE = true at hle
      rw [hord] at hle
      cases hle

theorem holds_empty : Holds ∅ [] :=
  ⟨nodup_nil, nofun, fun _ => iff_of_false (by simp) (by simp)⟩

/-- One more entry. -/
theorem Holds.insert {bucket : Bucket} {entries : List Candidate} (h : Holds bucket entries)
    {c : Candidate} (hnew : c ∉ entries) (hamount : 0 ≤ c.amount) :
    Holds (bucket.insert (reapStrictKey c.expiry c.amount c.op) []) (c :: entries) := by
  have hc := encodeReapStrictCompositeKey_of_nonneg c.expiry hamount c.op
  refine ⟨nodup_cons.2 ⟨hnew, h.nodup⟩, forall_mem_cons.2 ⟨hamount, h.amounts⟩, fun key => ?_⟩
  rw [OrdMap.getElem?_insert', exists_mem_cons_iff, hc, Except.ok.injEq]
  split_ifs with hkey
  · exact iff_of_true ⟨_, rfl⟩ (.inl hkey)
  · rw [h.keys key, or_iff_right hkey]

namespace Sample

/-- An entry that expires at 150, two that expire at 154, the first with the larger amount, and one
that does not expire until 300. -/
def early : Candidate := ⟨⟨doubleHashRaw [1], 0⟩, 150, 100000⟩
def large : Candidate := ⟨⟨doubleHashRaw [2], 0⟩, 154, 90000⟩
def small : Candidate := ⟨⟨doubleHashRaw [3], 0⟩, 154, 5000⟩
def young : Candidate := ⟨⟨doubleHashRaw [4], 0⟩, 300, 1⟩

/-- A bucket with these entries. -/
def fourEntries : Bucket :=
  [small, early, young, large].foldr
    (fun c bucket => bucket.insert (reapStrictKey c.expiry c.amount c.op) []) ∅

end Sample

open Sample in
/-- The first two of three expired entries. -/
theorem canonical_order_fourEntries :
    Index.reapPrefixCandidates ⟨⟨144, 1000, 0, 110, 110⟩, 199, false⟩
      ⟨∅, ∅, ∅, fourEntries, ∅⟩ 200 2 = .ok [early.toPrefix, small.toPrefix] := by
  have hholds : Holds fourEntries [small, early, young, large] :=
    (((holds_empty.insert (by decide) (by decide)).insert (by decide) (by decide)).insert
      (by decide) (by decide)).insert (by decide) (by decide)
  have hsort : [early, small, large] =
      sortCandidates (expiredEntries [small, early, young, large] 200) .strict :=
    eq_sortCandidates (by decide) (by decide)
  have hprefix := (canonical_order.2.2 ⟨⟨144, 1000, 0, 110, 110⟩, 199, false⟩
    ⟨∅, ∅, ∅, fourEntries, ∅⟩ _ rfl hholds 200 2).2
  rwa [← hsort] at hprefix

end Obtcd.Mining
