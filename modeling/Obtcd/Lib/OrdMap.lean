import Mathlib.Tactic.Common
import Mathlib.Data.List.Sort
import Mathlib.Order.Compare

/-!
# Ordered maps

A finite map kept in the order of its keys, which is what a database bucket is: `OrdMap κ ν` is
`Std.ExtTreeMap` at the order of `κ`, so two maps with the same entries are equal and a cursor is
the list `toList`.

`getElem?_insert'` and `getElem?_erase'` restate the two update lemmas with equality of keys in
place of `compare k k' = .eq`; every proof about a bucket reads its entries through them.  A key
type that is ordered by an injective encoding gets its instances from `lawfulEqCmp_compareOn`.
-/

set_option linter.unusedSectionVars false

namespace Obtcd

open Std List

/-- A finite map in key order. -/
abbrev OrdMap (κ ν : Type) [Ord κ] := ExtTreeMap κ ν compare

/-- Comparing by an injective encoding identifies only equal values. -/
theorem lawfulEqCmp_compareOn {α β : Type} [Ord β] [TransOrd β] [LawfulEqOrd β] {f : α → β}
    (hf : Function.Injective f) : LawfulEqCmp (compareOn f) where
  compare_self := ReflCmp.compare_self 
  eq_of_compare h := hf (LawfulEqCmp.eq_of_compare h)

/-- Lists that are strictly sorted by a key and have the same elements are equal. -/
theorem eq_of_pairwise_lt {α κ : Type} [Ord κ] [OrientedOrd κ] (key : α → κ) {l l' : List α}
    (hl : l.Pairwise fun a b => compare (key a) (key b) = .lt)
    (hl' : l'.Pairwise fun a b => compare (key a) (key b) = .lt) (hmem : ∀ a, a ∈ l ↔ a ∈ l') :
    l = l' := by
  have : Std.Irrefl fun a b => compare (key a) (key b) = .lt :=
    ⟨fun _ h => OrientedCmp.not_lt_of_lt h h⟩
  have : Std.Antisymm fun a b => compare (key a) (key b) = .lt :=
    ⟨fun _ _ h h' => absurd h' (OrientedCmp.not_lt_of_lt h)⟩
  exact hl.eq_of_mem_iff hl' hmem

namespace OrdMap

variable {κ ν : Type} [Ord κ] [TransOrd κ] [LawfulEqOrd κ] [DecidableEq κ]

@[simp] theorem getElem?_insert' (m : OrdMap κ ν) (k k' : κ) (v : ν) :
    (m.insert k v)[k']? = if k = k' then some v else m[k']? := by
  rw [ExtTreeMap.getElem?_insert]
  simp only [Std.compare_eq_iff_eq]

@[simp] theorem getElem?_erase' (m : OrdMap κ ν) (k k' : κ) :
    (m.erase k)[k']? = if k = k' then none else m[k']? := by
  rw [ExtTreeMap.getElem?_erase]
  simp only [Std.compare_eq_iff_eq]

variable {m : OrdMap κ ν}

theorem ext' {m' : OrdMap κ ν} (h : ∀ k : κ, m[k]? = m'[k]?) : m = m' :=
  ExtTreeMap.ext_getElem? h

theorem mem_toList (m : OrdMap κ ν) (k : κ) (v : ν) : (k, v) ∈ m.toList ↔ m[k]? = some v :=
  ExtTreeMap.mem_toList_iff_getElem?_eq_some

theorem nodup_keys_toList (m : OrdMap κ ν) : (m.toList.map Prod.fst).Nodup := by
  refine pairwise_map.2 ((ExtTreeMap.distinct_keys_toList (t := m)).imp ?_)
  intro a b hne hab
  exact hne (by rw [hab]; exact ReflCmp.compare_self)

theorem nodup_toList (m : OrdMap κ ν) : m.toList.Nodup :=
  (pairwise_map.1 (nodup_keys_toList m)).imp fun hne heq => hne (congrArg Prod.fst heq)

theorem eq_of_size_eq {m' : OrdMap κ ν} (hsize : m'.size = m.size)
    (hsub : ∀ (k : κ) (v : ν), m[k]? = some v → m'[k]? = some v) : m = m' := by
  have hsubset : m.toList ⊆ m'.toList := by
    rintro ⟨k, v⟩ hmem
    exact (mem_toList m' k v).2 (hsub k v ((mem_toList m k v).1 hmem))
  have hlen : m'.toList.length ≤ m.toList.length := by
    rw [ExtTreeMap.length_toList, ExtTreeMap.length_toList]
    exact Nat.le_of_eq hsize
  have hperm := (subperm_of_subset (nodup_toList m) hsubset).perm_of_length_le hlen
  refine ext' fun k => Option.ext fun v => ?_
  rw [← mem_toList, ← mem_toList]
  exact hperm.mem_iff

/-- A cursor over a map with a new entry sees the old entries and the new one. -/
theorem toList_insert_perm {k : κ} (v : ν) (h : m[k]? = none) :
    (m.insert k v).toList.Perm ((k, v) :: m.toList) := by
  have hk : (k, v) ∉ m.toList := by
    rw [mem_toList, h]
    simp
  refine (perm_ext_iff_of_nodup (nodup_toList _) (nodup_cons.2 ⟨hk, nodup_toList _⟩)).2 ?_
  rintro ⟨k', v'⟩
  rw [mem_toList, getElem?_insert', mem_cons, mem_toList, Prod.mk.injEq]
  by_cases hkk : k = k'
  · subst hkk
    simp [h, eq_comm]
  · simp [hkk, Ne.symm hkk]

/-- A cursor over a map sees an entry and what is left when that entry is removed. -/
theorem toList_erase_perm {k : κ} {v : ν} (h : m[k]? = some v) :
    m.toList.Perm ((k, v) :: (m.erase k).toList) := by
  have hins : (m.erase k).insert k v = m := by
    refine ext' fun k' => ?_
    rw [getElem?_insert', getElem?_erase']
    by_cases hkk : k = k'
    · rw [if_pos hkk, ← hkk, h]
    · rw [if_neg hkk, if_neg hkk]
  have hnone : (m.erase k)[k]? = none := by simp
  have hperm := toList_insert_perm v hnone
  rwa [hins] at hperm

/-! ## Erasing keys one by one -/

theorem getElem?_foldl_erase (l : List κ) (m : OrdMap κ ν) (k : κ) :
    (l.foldl (fun m k => m.erase k) m)[k]? = if k ∈ l then none else m[k]? := by
  induction l generalizing m with
  | nil => simp
  | cons j l ih =>
    rw [foldl_cons, ih, getElem?_erase']
    by_cases hk : k ∈ l
    · rw [if_pos hk, if_pos (mem_cons_of_mem _ hk)]
    · by_cases hj : j = k
      · rw [if_neg hk, if_pos hj, if_pos (by simp [hj])]
      · rw [if_neg hk, if_neg hj, if_neg (by simp [hk, Ne.symm hj])]

/-- Nothing is left when all keys have been erased. -/
theorem foldl_erase_eq_empty {l : List κ} (h : ∀ (k : κ) (v : ν), m[k]? = some v → k ∈ l) :
    l.foldl (fun m k => m.erase k) m = ∅ := by
  refine ext' fun k => ?_
  have hempty : (∅ : OrdMap κ ν)[k]? = none := by simp
  rw [getElem?_foldl_erase, hempty]
  by_cases hk : k ∈ l
  · rw [if_pos hk]
  · rw [if_neg hk, Option.eq_none_iff_forall_ne_some]
    exact fun v hv => hk (h k v hv)

theorem size_foldl_erase_le (l : List κ) (m : OrdMap κ ν) :
    (l.foldl (fun m k => m.erase k) m).size ≤ m.size := by
  induction l generalizing m with
  | nil => exact Nat.le_refl _
  | cons k l ih => exact Nat.le_trans (ih (m.erase k)) ExtTreeMap.size_erase_le

/-! ## Batches of writes -/

/-- What a batch of writes does to one key. -/
inductive Write (ν : Type) where
  | keep
  | put (v : ν)
  | delete

/-- The value under the key afterwards. -/
def Write.value {ν : Type} : Write ν → Option ν → Option ν
  | .keep, old => old
  | .put v, _ => some v
  | .delete, _ => none

/-- The write itself. -/
def Write.apply (w : Write ν) (m : OrdMap κ ν) (k : κ) : OrdMap κ ν :=
  match w with
  | .keep => m
  | .put v => m.insert k v
  | .delete => m.erase k

theorem Write.getElem?_apply (w : Write ν) (m : OrdMap κ ν) (k k' : κ) :
    (w.apply m k)[k']? = if k = k' then w.value m[k]? else m[k']? := by
  by_cases h : k = k'
  · subst h
    cases w <;> simp [Write.apply, Write.value]
  · cases w <;> simp [Write.apply, h]

/-- Write into `m` what `f` says for each entry of `t`. -/
def writeAll {μ : Type} (m : OrdMap κ ν) (t : OrdMap κ μ) (f : μ → Write ν) : OrdMap κ ν :=
  t.toList.foldl (fun m x => (f x.2).apply m x.1) m

theorem getElem?_foldl_apply {μ : Type} (f : μ → Write ν) {l : List (κ × μ)}
    (hnodup : (l.map Prod.fst).Nodup) (m : OrdMap κ ν) (k : κ) :
    (∀ a, (k, a) ∈ l → (l.foldl (fun m x => (f x.2).apply m x.1) m)[k]? = (f a).value m[k]?) ∧
      ((∀ a, (k, a) ∉ l) → (l.foldl (fun m x => (f x.2).apply m x.1) m)[k]? = m[k]?) := by
  induction l generalizing m with
  | nil => simp
  | cons x l ih =>
    obtain ⟨hx, hl⟩ := nodup_cons.1 (map_cons ▸ hnodup)
    obtain ⟨hmem, hnot⟩ := ih hl ((f x.2).apply m x.1)
    refine ⟨fun a ha => ?_, fun hno => ?_⟩
    · rcases mem_cons.1 ha with rfl | ha
      · have hrest : ∀ a', (k, a') ∉ l := fun a' h' => hx (mem_map.2 ⟨_, h', rfl⟩)
        rw [foldl_cons, hnot hrest, Write.getElem?_apply, if_pos rfl]
      · have hne : x.1 ≠ k := fun heq => hx (mem_map.2 ⟨_, ha, heq.symm⟩)
        rw [foldl_cons, hmem a ha, Write.getElem?_apply, if_neg hne]
    · have hne : x.1 ≠ k := fun heq => hno x.2 (by rw [← heq]; exact mem_cons_self)
      rw [foldl_cons, hnot fun a ha => hno a (mem_cons_of_mem _ ha),
        Write.getElem?_apply, if_neg hne]

/-- What a batch leaves under a key. -/
theorem getElem?_writeAll {μ : Type} (m : OrdMap κ ν) (t : OrdMap κ μ) (f : μ → Write ν) (k : κ) :
    (writeAll m t f)[k]? =
      match t[k]? with
      | none => m[k]?
      | some a => (f a).value m[k]? := by
  obtain ⟨hmem, hnot⟩ := getElem?_foldl_apply f (nodup_keys_toList t) m k
  cases h : t[k]? with
  | none =>
    refine hnot fun a ha => ?_
    rw [mem_toList, h] at ha
    cases ha
  | some a => exact hmem a ((mem_toList t k a).2 h)

end OrdMap

end Obtcd
