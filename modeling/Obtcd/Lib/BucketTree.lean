import Obtcd.Lib.OrdMap
import Mathlib.Data.List.Infix

/-!
# Nested buckets

A database of nested buckets: a bucket holds entries, and buckets of its own under names.  Here it
is a map from paths to the entries of the bucket there, and what makes the paths those of a tree is
carried by the structure: the root exists, and so does the parent of every bucket.

The operations are described by what they leave at every path (`entries?_setEntries`,
`entries?_removeBucket`).  `below` lists a bucket and everything nested in it
with each bucket before those nested in it; a job that goes through that list backwards meets every
bucket after all those nested in it (`pairwise_below`).
-/

set_option linter.unusedSectionVars false

namespace Obtcd

open Option Std List

/-- Buckets nested in one root bucket. -/
structure BucketTree (κ ν : Type) [Ord κ] [TransOrd κ] where
  /-- The entries of the bucket at a path. -/
  map : OrdMap (List κ) (OrdMap κ ν)
  root : (map[([] : List κ)]?).isSome = true
  parent : ∀ (p : List κ) (k : κ), (map[p ++ [k]]?).isSome = true → (map[p]?).isSome = true

namespace BucketTree

variable {κ ν : Type} [Ord κ] [TransOrd κ] [LawfulEqOrd κ] [DecidableEq κ]

/-- The entries of the bucket at a path, if there is one. -/
def entries? (b : BucketTree κ ν) (p : List κ) : Option (OrdMap κ ν) := b.map[p]?

instance : Membership (List κ) (BucketTree κ ν) := ⟨fun b p => (b.entries? p).isSome = true⟩

instance (b : BucketTree κ ν) (p : List κ) : Decidable (p ∈ b) :=
  inferInstanceAs (Decidable ((b.entries? p).isSome = true))

variable {b : BucketTree κ ν} {p : List κ}

theorem mem_iff : p ∈ b ↔ (b.entries? p).isSome = true := Iff.rfl

variable {e : OrdMap κ ν}

theorem mem_of_entries? (h : b.entries? p = some e) : p ∈ b := by rw [mem_iff, h, isSome_some]

theorem entries?_of_not_mem (h : p ∉ b) : b.entries? p = none := by
  rw [mem_iff] at h
  simpa using h

theorem exists_entries? (h : p ∈ b) : ∃ e, b.entries? p = some e :=
  isSome_iff_exists.1 h

theorem nil_mem (b : BucketTree κ ν) : [] ∈ b := b.root

theorem mem_of_append_singleton {k : κ} (h : p ++ [k] ∈ b) : p ∈ b := b.parent p k h

variable {q : List κ}

theorem mem_of_prefix (hpq : p <+: q) (h : q ∈ b) : p ∈ b := by
  obtain ⟨r, rfl⟩ := hpq
  induction r using List.reverseRecOn with
  | nil => rwa [append_nil] at h
  | append_singleton r k ih =>
    rw [← append_assoc] at h
    exact ih (mem_of_append_singleton h)

/-- The paths of all buckets. -/
def paths (b : BucketTree κ ν) : List (List κ) := b.map.keys

theorem mem_paths : p ∈ b.paths ↔ p ∈ b :=
  ExtTreeMap.mem_keys.trans ExtTreeMap.mem_iff_isSome_getElem?

theorem ext' {b' : BucketTree κ ν} (h : ∀ p, b.entries? p = b'.entries? p) : b = b' := by
  obtain ⟨m, hroot, hparent⟩ := b
  obtain ⟨m', hroot', hparent'⟩ := b'
  obtain rfl : m = m' := OrdMap.ext' h
  rfl

/-- The value under a key of the bucket at a path. -/
def get? (b : BucketTree κ ν) (p : List κ) (k : κ) : Option ν := (b.entries? p).bind fun e => e[k]?

theorem get?_of_entries? (h : b.entries? p = some e) (k : κ) : b.get? p k = e[k]? := by
  rw [get?, h]
  rfl

/-! ## Updates -/

/-- A database with nothing but an empty root. -/
def empty : BucketTree κ ν where
  map := (∅ : OrdMap (List κ) (OrdMap κ ν)).insert [] ∅
  root := by simp
  parent := by
    intro p k h
    simp at h

/-- Put entries into the bucket at a path; nothing happens where there is none. -/
def setEntries (b : BucketTree κ ν) (p : List κ) (e : OrdMap κ ν) : BucketTree κ ν :=
  if h : p ∈ b then
    { map := b.map.insert p e
      root := by
        have := b.root
        by_cases hp : p = [] <;> simp [hp, this]
      parent := by
        intro q k hq
        have hqb : (b.map[q ++ [k]]?).isSome = true := by
          by_cases hp : p = q ++ [k]
          · rwa [← hp]
          · simpa [hp] using hq
        have := b.parent q k hqb
        by_cases hp : p = q <;> simp [hp, this] }
  else b

@[simp] theorem entries?_setEntries (h : p ∈ b) (e : OrdMap κ ν) (q : List κ) :
    (b.setEntries p e).entries? q = if p = q then some e else b.entries? q := by
  rw [setEntries, dif_pos h]
  exact OrdMap.getElem?_insert' b.map p q e

@[simp] theorem mem_setEntries (b : BucketTree κ ν) (p : List κ) (e : OrdMap κ ν) (q : List κ) :
    q ∈ b.setEntries p e ↔ q ∈ b := by
  by_cases h : p ∈ b
  · rw [mem_iff, entries?_setEntries h]
    split
    · next heq => simpa [← heq] using h
    · rfl
  · rw [setEntries, dif_neg h]

theorem setEntries_setEntries (h : p ∈ b) (e e' : OrdMap κ ν) :
    (b.setEntries p e).setEntries p e' = b.setEntries p e' := by
  refine ext' fun q => ?_
  rw [entries?_setEntries ((mem_setEntries b p e p).2 h), entries?_setEntries h,
    entries?_setEntries h]
  split <;> rfl

theorem setEntries_self (h : b.entries? p = some e) : b.setEntries p e = b := by
  refine ext' fun q => ?_
  rw [entries?_setEntries (mem_of_entries? h)]
  split
  · next heq => rw [← heq, h]
  · rfl

/-- Remove the bucket `k` nested in the bucket at a path, and everything nested in it. -/
def removeBucket (b : BucketTree κ ν) (p : List κ) (k : κ) : BucketTree κ ν where
  map := b.map.filter fun q _ => !((p ++ [k]).isPrefixOf q)
  root := by
    have h := b.root
    have hno : (p ++ [k]).isPrefixOf ([] : List κ) = false := by cases p <;> rfl
    rw [ExtTreeMap.getElem?_filter', hno]
    simpa using h
  parent := by
    intro q j hq
    rw [ExtTreeMap.getElem?_filter'] at hq ⊢
    obtain ⟨e, he⟩ := isSome_iff_exists.1 hq
    obtain ⟨hbe, hno⟩ := filter_eq_some_iff.1 he
    obtain ⟨e', hbe'⟩ := isSome_iff_exists.1 (b.parent q j (by rw [hbe, isSome_some]))
    refine isSome_iff_exists.2 ⟨e', filter_eq_some_iff.2 ⟨hbe', ?_⟩⟩
    simp only [Bool.not_eq_true', ← Bool.not_eq_true, isPrefixOf_iff_prefix] at hno ⊢
    exact fun hpre => hno (hpre.trans (prefix_append q [j]))

theorem entries?_removeBucket (b : BucketTree κ ν) (p : List κ) (k : κ) (q : List κ) :
    (b.removeBucket p k).entries? q = if p ++ [k] <+: q then none else b.entries? q := by
  rw [entries?, removeBucket, ExtTreeMap.getElem?_filter']
  by_cases h : p ++ [k] <+: q
  · have hpre := isPrefixOf_iff_prefix.2 h
    simp [h, hpre]
  · have hpre : (p ++ [k]).isPrefixOf q = false := by
      rwa [← Bool.not_eq_true, isPrefixOf_iff_prefix]
    rw [if_neg h, entries?]
    cases b.map[q]? <;> simp [hpre]

@[simp] theorem mem_removeBucket {k : κ} : q ∈ b.removeBucket p k ↔ q ∈ b ∧ ¬ p ++ [k] <+: q := by
  rw [mem_iff, entries?_removeBucket]
  by_cases h : p ++ [k] <+: q <;> simp [h, mem_iff]

/-- Nest an empty bucket `k` in the bucket at a path, unless it is there. -/
def addBucket (b : BucketTree κ ν) (p : List κ) (k : κ) : BucketTree κ ν :=
  if h : p ∈ b ∧ p ++ [k] ∉ b then
    { map := b.map.insert (p ++ [k]) ∅
      root := by
        have := b.root
        have hne : p ++ [k] ≠ [] := by simp
        simp [this]
      parent := by
        intro q j hq
        have hqb : (b.map[q]?).isSome = true := by
          by_cases hp : p ++ [k] = q ++ [j]
          · obtain ⟨rfl, -⟩ := append_inj' hp rfl
            exact h.1
          · rw [OrdMap.getElem?_insert', if_neg hp] at hq
            exact b.parent q j hq
        by_cases hp : p ++ [k] = q <;> simp [hp, hqb] }
  else b

/-! ## The buckets nested in a bucket -/

/-- The names of the buckets nested directly in the bucket at a path, in order. -/
def subBuckets (b : BucketTree κ ν) (p : List κ) : List κ :=
  b.paths.filterMap fun q => if q.dropLast = p then q.getLast? else none

theorem mem_subBuckets {k : κ} : k ∈ b.subBuckets p ↔ p ++ [k] ∈ b := by
  rw [subBuckets, mem_filterMap]
  constructor
  · rintro ⟨q, hq, hk⟩
    split at hk
    · next hp =>
      rw [← hp, dropLast_append_getLast? k hk]
      exact mem_paths.1 hq
    · cases hk
  · intro h
    refine ⟨p ++ [k], mem_paths.2 h, ?_⟩
    rw [dropLast_concat, if_pos rfl, List.getLast?_concat]

theorem subBuckets_eq_nil (h : ∀ k, p ++ [k] ∉ b) : b.subBuckets p = [] :=
  eq_nil_iff_forall_not_mem.2 fun k hk => h k (mem_subBuckets.1 hk)

theorem nodup_subBuckets (b : BucketTree κ ν) (p : List κ) : (b.subBuckets p).Nodup := by
  have hkeys : b.paths.Nodup := by
    refine (ExtTreeMap.distinct_keys (t := b.map)).imp ?_
    intro q q' hne hqq
    exact hne (by rw [hqq]; exact ReflCmp.compare_self)
  refine List.Pairwise.filterMap _ ?_ hkeys
  intro q q' hne k hk k' hk' hkk
  rw [ite_none_right_eq_some] at hk hk'
  rw [← dropLast_append_getLast? k hk.2, ← dropLast_append_getLast? k' hk'.2, hk.1, hk'.1,
    hkk] at hne
  exact hne rfl

/-- The length of the longest path. -/
def depth (b : BucketTree κ ν) : Nat := (b.paths.map List.length).foldr max 0

theorem length_le_depth (h : p ∈ b) : p.length ≤ b.depth := by
  have hmem : p.length ∈ b.paths.map List.length := mem_map_of_mem (mem_paths.2 h)
  rw [depth]
  generalize b.paths.map List.length = l at hmem
  induction l with
  | nil => cases hmem
  | cons n l ih =>
    rcases mem_cons.1 hmem with rfl | hmem
    · exact Nat.le_max_left _ _
    · exact (ih hmem).trans (Nat.le_max_right _ _)

/-- The bucket at a path and those nested in it, each before those nested in it. -/
def below (b : BucketTree κ ν) : Nat → List κ → List (List κ)
  | 0, _ => []
  | n + 1, p => p :: (b.subBuckets p).flatMap fun k => below b n (p ++ [k])

theorem prefix_iff_eq_or : p <+: q ↔ q = p ∨ ∃ k, p ++ [k] <+: q := by
  constructor
  · rintro ⟨_ | ⟨k, r⟩, rfl⟩
    · exact Or.inl (append_nil p)
    · exact Or.inr ⟨k, r, by rw [append_assoc, singleton_append]⟩
  · rintro (rfl | ⟨k, hk⟩)
    · exact prefix_refl q
    · exact (prefix_append p [k]).trans hk

/-- `below` has the bucket and everything nested in it, given enough levels. -/
theorem mem_below {n : Nat} (hp : p ∈ b) (hn : b.depth < p.length + n) :
    q ∈ b.below n p ↔ q ∈ b ∧ p <+: q := by
  induction n generalizing p with
  | zero =>
    have := length_le_depth hp
    omega
  | succ n ih =>
    rw [below, mem_cons, mem_flatMap]
    constructor
    · rintro (rfl | ⟨k, hk, hq⟩)
      · exact ⟨hp, prefix_refl q⟩
      · obtain ⟨hqb, hpre⟩ := (ih (mem_subBuckets.1 hk) (by simp; omega)).1 hq
        exact ⟨hqb, (prefix_append p [k]).trans hpre⟩
    · rintro ⟨hqb, hpre⟩
      rcases prefix_iff_eq_or.1 hpre with rfl | ⟨k, hk⟩
      · exact Or.inl rfl
      · have hkb := mem_of_prefix hk hqb
        exact Or.inr ⟨k, mem_subBuckets.2 hkb, (ih hkb (by simp; omega)).2 ⟨hqb, hk⟩⟩

theorem prefix_of_mem_below {n : Nat} (h : q ∈ b.below n p) : p <+: q := by
  induction n generalizing p with
  | zero => cases h
  | succ n ih =>
    rw [below, mem_cons, mem_flatMap] at h
    rcases h with rfl | ⟨k, -, hq⟩
    · exact prefix_refl q
    · exact (prefix_append p [k]).trans (ih hq)

/-- No bucket of `below` comes after one that is nested in it. -/
theorem pairwise_below (b : BucketTree κ ν) (n : Nat) (p : List κ) :
    (b.below n p).Pairwise fun q q' => ¬ q' <+: q := by
  induction n generalizing p with
  | zero => exact List.Pairwise.nil
  | succ n ih =>
    rw [below, pairwise_cons]
    refine ⟨?_, ?_⟩
    · intro q hq hpre
      obtain ⟨k, -, hq⟩ := mem_flatMap.1 hq
      have h₁ := (prefix_of_mem_below hq).length_le
      have h₂ := hpre.length_le
      rw [length_append, length_singleton] at h₁
      omega
    · rw [pairwise_flatMap]
      refine ⟨fun k _ => ih (p ++ [k]), (nodup_subBuckets b p).imp ?_⟩
      -- Two paths through different names at the same place are not nested.
      intro k k' hne q hq q' hq' hpre
      have h₁ := prefix_of_mem_below hq
      have h₂ := (prefix_of_mem_below hq').trans hpre
      have heq : p ++ [k] = p ++ [k'] :=
        (prefix_of_prefix_length_le h₁ h₂ (by simp)).eq_of_length (by simp)
      exact hne (singleton_inj.1 (append_cancel_left heq))

end BucketTree

end Obtcd
