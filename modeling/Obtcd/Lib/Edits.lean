import Obtcd.Lib.OrdMap

/-!
# Pending edits of an ordered map

A store that buffers its writes keeps two maps beside the one it will change: the entries to write
and the keys to remove.  `Edits κ ν` is such a pair, and no key is in both.  `Edits.lookup` reads
through the pair into whatever lies below it, `Edits.commit` carries it out on a map, and
`Edits.append` lets a younger pair take effect on an older one.

The three are one semantics: a lookup through edits is a lookup in the map they are committed to
(`getElem?_commit`), and edits appended to others read as the ones laid over the others
(`lookup_append`).
-/

set_option linter.unusedSectionVars false

namespace Obtcd

open Std OrdMap

/-- Entries to write and keys to remove. -/
structure Edits (κ ν : Type) [Ord κ] [TransOrd κ] where
  keys : OrdMap κ ν
  remove : OrdMap κ Unit
  disjoint : ∀ k : κ, k ∈ keys → k ∉ remove

namespace Edits

variable {κ ν : Type} [Ord κ] [TransOrd κ] [LawfulEqOrd κ] [DecidableEq κ]

/-- No edits. -/
def empty : Edits κ ν := ⟨∅, ∅, fun _ h => absurd h ExtTreeMap.not_mem_empty⟩

/-- Is there nothing to do? -/
def isEmpty (e : Edits κ ν) : Bool := e.keys.isEmpty && e.remove.isEmpty

theorem mem_iff {μ : Type} {m : OrdMap κ μ} {k : κ} : k ∈ m ↔ ∃ v, m[k]? = some v := by
  rw [ExtTreeMap.mem_iff_isSome_getElem?, Option.isSome_iff_exists]

theorem not_mem_iff {μ : Type} {m : OrdMap κ μ} {k : κ} : k ∉ m ↔ m[k]? = none := by
  rw [mem_iff, not_exists, Option.eq_none_iff_forall_ne_some]

variable (e : Edits κ ν)

theorem remove_eq_none {k : κ} {v : ν} (h : e.keys[k]? = some v) : e.remove[k]? = none :=
  not_mem_iff.1 (e.disjoint k (mem_iff.2 ⟨v, h⟩))

/-- Write an entry. -/
def put (e : Edits κ ν) (k : κ) (v : ν) : Edits κ ν where
  keys := e.keys.insert k v
  remove := e.remove.erase k
  disjoint k' h := by
    rw [not_mem_iff, getElem?_erase']
    obtain ⟨w, hw⟩ := mem_iff.1 h
    rw [getElem?_insert'] at hw
    split_ifs with hk
    · rfl
    · rw [if_neg hk] at hw
      exact e.remove_eq_none hw

/-- Remove a key. -/
def delete (e : Edits κ ν) (k : κ) : Edits κ ν where
  keys := e.keys.erase k
  remove := e.remove.insert k ()
  disjoint k' h := by
    rw [not_mem_iff, getElem?_insert']
    obtain ⟨w, hw⟩ := mem_iff.1 h
    rw [getElem?_erase'] at hw
    split_ifs at hw ⊢ with hk
    exact e.remove_eq_none hw

/-- Read through the edits into what lies below. -/
def lookup (e : Edits κ ν) (below : κ → Option ν) (k : κ) : Option ν :=
  if e.remove.contains k then none
  else match e.keys[k]? with
    | some v => some v
    | none => below k

/-- Is the key touched by the edits? -/
def touches (e : Edits κ ν) (k : κ) : Bool := e.remove.contains k || e.keys.contains k

/-- Carry the edits out: first all writes, then all removals. -/
def commit (e : Edits κ ν) (m : OrdMap κ ν) : OrdMap κ ν :=
  writeAll (writeAll m e.keys .put) e.remove fun _ => .delete

/-! ## Reading -/

theorem contains_eq {μ : Type} (m : OrdMap κ μ) (k : κ) : m.contains k = m[k]?.isSome :=
  ExtTreeMap.contains_eq_isSome_getElem?

theorem lookup_eq (below : κ → Option ν) (k : κ) : e.lookup below k =
      match e.remove[k]?, e.keys[k]? with
      | some _, _ => none
      | none, some v => some v
      | none, none => below k := by
  rw [lookup, contains_eq]
  cases e.remove[k]? <;> cases e.keys[k]? <;> rfl

@[simp] theorem lookup_empty (below : κ → Option ν) : (empty : Edits κ ν).lookup below = below := by
  funext k
  rw [lookup_eq]
  simp [empty]

theorem lookup_put (k : κ) (v : ν) (below : κ → Option ν) (k' : κ) :
    (e.put k v).lookup below k' = if k = k' then some v else e.lookup below k' := by
  rw [lookup_eq, lookup_eq]
  by_cases hk : k = k'
  · simp [put, hk]
  · simp [put, hk]

theorem lookup_delete (k : κ) (below : κ → Option ν) (k' : κ) :
    (e.delete k).lookup below k' = if k = k' then none else e.lookup below k' := by
  rw [lookup_eq, lookup_eq]
  by_cases hk : k = k'
  · simp [delete, hk]
  · simp [delete, hk]

theorem isSome_lookup (below : κ → Option ν) (k : κ) : (e.lookup below k).isSome =
      if e.remove.contains k then false
      else if e.keys.contains k then true else (below k).isSome := by
  rw [lookup_eq, contains_eq, contains_eq]
  cases e.remove[k]? <;> cases e.keys[k]? <;> rfl

theorem lookup_congr {e : Edits κ ν} {below below' : κ → Option ν} (h : ∀ k, below k = below' k)
    (k : κ) : e.lookup below k = e.lookup below' k := by
  rw [funext h]

/-- Reading through edits is reading the map they are committed to. -/
theorem getElem?_commit (m : OrdMap κ ν) (k : κ) :
    (e.commit m)[k]? = e.lookup (fun k => m[k]?) k := by
  rw [commit, getElem?_writeAll, getElem?_writeAll, lookup_eq]
  cases e.remove[k]? with
  | some u => rfl
  | none => cases e.keys[k]? <;> rfl

@[simp] theorem commit_empty (m : OrdMap κ ν) : (empty : Edits κ ν).commit m = m := by
  refine ext' fun k => ?_
  rw [getElem?_commit, lookup_empty]

theorem commit_put (k : κ) (v : ν) (m : OrdMap κ ν) :
    (e.put k v).commit m = (e.commit m).insert k v := by
  refine ext' fun k' => ?_
  rw [getElem?_commit, lookup_put, getElem?_insert', getElem?_commit]

theorem commit_delete (k : κ) (m : OrdMap κ ν) : (e.delete k).commit m = (e.commit m).erase k := by
  refine ext' fun k' => ?_
  rw [getElem?_commit, lookup_delete, getElem?_erase', getElem?_commit]

theorem commit_commit (m : OrdMap κ ν) : e.commit (e.commit m) = e.commit m := by
  refine ext' fun k => ?_
  rw [getElem?_commit, lookup_congr (getElem?_commit e m), getElem?_commit, lookup_eq, lookup_eq]
  cases e.remove[k]? with
  | some u => rfl
  | none => cases e.keys[k]? <;> rfl

theorem eq_empty_of_isEmpty {e : Edits κ ν} (h : e.isEmpty = true) : e = empty := by
  obtain ⟨keys, remove, disjoint⟩ := e
  simp only [isEmpty, Bool.and_eq_true, ExtTreeMap.isEmpty_iff] at h
  obtain ⟨rfl, rfl⟩ := h
  rfl

/-! ## Composition -/

/-- Let younger edits take effect on these: first its writes, then its removals. -/
def append (e e' : Edits κ ν) : Edits κ ν where
  keys := writeAll (writeAll e.keys e'.keys .put) e'.remove fun _ => .delete
  remove := writeAll (writeAll e.remove e'.keys fun _ => .delete) e'.remove .put
  disjoint k h := by
    obtain ⟨v, hv⟩ := mem_iff.1 h
    rw [not_mem_iff]
    simp only [getElem?_writeAll] at hv ⊢
    cases hr : e'.remove[k]? with
    | some u => simp [hr, Write.value] at hv
    | none =>
      cases hk : e'.keys[k]? with
      | some w => rfl
      | none =>
        simp only [hr, hk] at hv
        exact e.remove_eq_none hv

/-- Edits appended to others read as if laid over them. -/
theorem lookup_append (e e' : Edits κ ν) (below : κ → Option ν) (k : κ) :
    (e.append e').lookup below k = e'.lookup (e.lookup below) k := by
  rw [lookup_eq, lookup_eq, lookup_eq]
  simp only [append, getElem?_writeAll]
  cases e'.remove[k]? with
  | some u => rfl
  | none => cases e'.keys[k]? <;> rfl

theorem commit_append (e e' : Edits κ ν) (m : OrdMap κ ν) :
    (e.append e').commit m = e'.commit (e.commit m) := by
  refine ext' fun k => ?_
  rw [getElem?_commit, lookup_append, getElem?_commit]
  exact (lookup_congr (getElem?_commit e m) k).symm

end Edits

end Obtcd
