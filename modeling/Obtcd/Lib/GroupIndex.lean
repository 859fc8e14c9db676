import Obtcd.Lib.OrdMap

/-!
# An index of a map by groups

Beside a map from keys to values there is often a second one, from a property of the values to the
list of those that have it.  `Indexes` says that the second one belongs to the first: every value is
listed once, under its own group, nothing else is listed, and no list is empty.  A value that is new
is added to the end of its list (`Indexes.insert`); a key is removed from the list of its group, and
the list with it when nothing is left (`Indexes.erase`).
-/

set_option linter.unusedSectionVars false

namespace Obtcd.GroupIndex

open OrdMap Std

variable {κ ι ν : Type} [Ord κ] [TransOrd κ] [LawfulEqOrd κ] [DecidableEq κ] [Ord ι] [TransOrd ι]
  [LawfulEqOrd ι] [DecidableEq ι]

/-- The values of a group. -/
def group (index : OrdMap ι (List ν)) (i : ι) : List ν := (index[i]?).getD []

/-- Add a value to the end of a list. -/
def add (index : OrdMap ι (List ν)) (i : ι) (v : ν) : OrdMap ι (List ν) :=
  index.insert i (group index i ++ [v])

/-- Remove the values with a key from a list. -/
def remove (key : ν → κ) (index : OrdMap ι (List ν)) (i : ι) (k : κ) : OrdMap ι (List ν) :=
  let rest := (group index i).filter fun v => key v ≠ k
  if rest.isEmpty then index.erase i else index.insert i rest

/-- The index lists the values of the map, each once and under its own group. -/
structure Indexes (key : ν → κ) (property : ν → ι) (m : OrdMap κ ν) (index : OrdMap ι (List ν)) :
    Prop where
  keyed : ∀ (k : κ) (v : ν), m[k]? = some v → key v = k
  mem_iff : ∀ (i : ι) (v : ν), v ∈ group index i ↔ property v = i ∧ m[key v]? = some v
  nodup : ∀ i, (group index i).Nodup
  ne_nil : ∀ i : ι, index[i]? ≠ some []

variable {key : ν → κ} {property : ν → ι} {m : OrdMap κ ν} {index : OrdMap ι (List ν)}

theorem indexes_empty (key : ν → κ) (property : ν → ι) :
    Indexes key property (∅ : OrdMap κ ν) (∅ : OrdMap ι (List ν)) := by
  constructor <;> simp [group]

theorem group_add (i j : ι) (v : ν) :
    group (add index i v) j = if i = j then group index i ++ [v] else group index j := by
  rw [group, add, getElem?_insert']
  split
  · rfl
  · rfl

theorem group_remove (i j : ι) (k : κ) :
    group (remove key index i k) j =
      if i = j then (group index i).filter fun v => key v ≠ k else group index j := by
  rw [group, remove]
  by_cases hempty : ((group index i).filter fun v => key v ≠ k).isEmpty
  · rw [if_pos hempty, getElem?_erase']
    split
    · exact (List.isEmpty_iff.1 hempty).symm
    · rfl
  · rw [if_neg hempty, getElem?_insert']
    split
    · rfl
    · rfl

/-- A new value is listed. -/
theorem Indexes.insert (h : Indexes key property m index) {v : ν} (hv : m[key v]? = none) :
    Indexes key property (m.insert (key v) v) (add index (property v) v) := by
  refine ⟨fun k w hw => ?_, fun i w => ?_, fun i => ?_, fun i hi => ?_⟩
  · rw [getElem?_insert'] at hw
    split at hw
    · rename_i hk
      rw [← Option.some.inj hw, hk]
    · exact h.keyed k w hw
  · have hlisted : w ∈ group (add index (property v) v) i ↔
        w ∈ group index i ∨ property v = i ∧ w = v := by
      rw [group_add]
      split_ifs with hi
      · simp [hi]
      · simp [hi]
    rw [hlisted, h.mem_iff, getElem?_insert']
    by_cases hk : key v = key w
    · rw [if_pos hk, ← hk, hv]
      constructor
      · rintro (⟨-, hcontra⟩ | ⟨hi, rfl⟩)
        · cases hcontra
        · exact ⟨hi, rfl⟩
      · rintro ⟨hi, hw⟩
        cases hw
        exact Or.inr ⟨hi, rfl⟩
    · rw [if_neg hk]
      constructor
      · rintro (hw | ⟨-, rfl⟩)
        · exact hw
        · exact absurd rfl hk
      · exact Or.inl
  · rw [group_add]
    split
    · refine List.nodup_append.2 ⟨h.nodup _, by simp, ?_⟩
      rintro a ha b hb rfl
      obtain rfl := List.mem_singleton.1 hb
      rw [((h.mem_iff _ a).1 ha).2] at hv
      cases hv
    · exact h.nodup i
  · rw [add, getElem?_insert'] at hi
    split at hi
    · have := congrArg List.length (Option.some.inj hi)
      simp at this
    · exact h.ne_nil i hi

/-- A key is removed from the map and from the list of its group. -/
theorem Indexes.erase (h : Indexes key property m index) {k : κ} {i : ι}
    (hi : ∀ v, m[k]? = some v → property v = i) :
    Indexes key property (m.erase k) (remove key index i k) := by
  refine ⟨fun k' v hv => ?_, fun j v => ?_, fun j => ?_, fun j hj => ?_⟩
  · rw [getElem?_erase'] at hv
    split at hv
    · cases hv
    · exact h.keyed k' v hv
  · have hlisted : v ∈ group (remove key index i k) j ↔
        v ∈ group index j ∧ (i = j → key v ≠ k) := by
      rw [group_remove]
      split_ifs with hij
      · simp [hij]
      · simp [hij]
    rw [hlisted, h.mem_iff, getElem?_erase']
    by_cases hk : k = key v
    · rw [if_pos hk]
      constructor
      · rintro ⟨⟨hj, hv⟩, hne⟩
        rw [← hk] at hv
        exact absurd hk.symm (hne ((hi v hv).symm.trans hj))
      · rintro ⟨-, hcontra⟩
        cases hcontra
    · rw [if_neg hk]
      exact ⟨fun hv => hv.1, fun hv => ⟨hv, fun _ hkey => hk hkey.symm⟩⟩
  · rw [group_remove]
    split
    · exact (h.nodup _).filter _
    · exact h.nodup j
  · rw [remove] at hj
    split at hj
    · rw [getElem?_erase'] at hj
      split at hj
      · cases hj
      · exact h.ne_nil j hj
    · rename_i hne
      rw [getElem?_insert'] at hj
      split at hj
      · rw [Option.some.inj hj] at hne
        exact hne rfl
      · exact h.ne_nil j hj

end Obtcd.GroupIndex
