import Obtcd.Lib.OrdMap

/-!
# Indexes over a table

An index over a table is a second map that holds one entry for each row that satisfies some
condition, under a key computed from the row.  `Tabulates m t p key val` says that `m` is that map
for the table `t`, the condition `p`, and the key and value functions `key` and `val`: it holds
exactly the entries `key a b ↦ val a b` of the rows `a ↦ b` of `t` with `p b`.

Such an index can be maintained row by row, provided the key of a row determines which row it is
(`hkey` below): inserting a row inserts its entry, and deleting a row deletes it, or leaves the index
alone when the row is not indexed.  The table also determines the index (`Tabulates.unique`), so two
ways of maintaining it cannot disagree.
-/

set_option linter.unusedSectionVars false

namespace Obtcd

open OrdMap Std

section

variable {α β κ ν : Type} [Ord α] [TransOrd α] [LawfulEqOrd α] [DecidableEq α]
  [Ord κ] [TransOrd κ] [LawfulEqOrd κ] [DecidableEq κ]

/-- `m` is the index with entries `key a b ↦ val a b` over the rows of `t` that satisfy `p`. -/
def Tabulates (m : OrdMap κ ν) (t : OrdMap α β) (p : β → Prop) (key : α → β → κ)
    (val : α → β → ν) : Prop :=
  ∀ k v, m[k]? = some v ↔ ∃ a b, t[a]? = some b ∧ p b ∧ key a b = k ∧ val a b = v

namespace Tabulates

variable {m m' : OrdMap κ ν} {t : OrdMap α β} {p : β → Prop} {key : α → β → κ} {val : α → β → ν}

section

variable (h : Tabulates m t p key val)
include h

theorem get {a : α} {b : β} (ha : t[a]? = some b) (hp : p b) : m[key a b]? = some (val a b) :=
  (h _ _).2 ⟨a, b, ha, hp, rfl, rfl⟩

/-- The table determines the index. -/
theorem unique (h' : Tabulates m' t p key val) : m = m' := by
  refine ext' fun k => Option.ext fun v => ?_
  exact (h k v).trans (h' k v).symm

/-- An index depends on the condition, and on keys and values of the rows that satisfy it. -/
theorem congr {p' : β → Prop} {key' : α → β → κ} {val' : α → β → ν} (hp : ∀ b, p b ↔ p' b)
    (hkey : ∀ a b, p b → key a b = key' a b) (hval : ∀ a b, p b → val a b = val' a b) :
    Tabulates m t p' key' val' := by
  intro k v
  rw [h k v]
  refine exists_congr fun a => exists_congr fun b => and_congr_right fun _ => ?_
  rw [← hp b]
  refine and_congr_right fun hb => ?_
  rw [hkey a b hb, hval a b hb]

/-- What is under a key depends on the indexed rows with that key. -/
theorem getElem?_iff_of_rows {t' : OrdMap α β} {k : κ} (v : ν)
    (hrows : ∀ a b, p b → key a b = k → (t'[a]? = some b ↔ t[a]? = some b)) :
    m[k]? = some v ↔ ∃ a b, t'[a]? = some b ∧ p b ∧ key a b = k ∧ val a b = v := by
  rw [h k v]
  refine exists_congr fun a => exists_congr fun b => ?_
  exact and_congr_left fun ⟨hp, hk, _⟩ => (hrows a b hp hk).symm

omit h in
theorem empty : Tabulates (∅ : OrdMap κ ν) (∅ : OrdMap α β) p key val := by
  intro k v
  simp

/-- A new row that is indexed adds its entry. -/
theorem insert (hkey : ∀ a b a' b', key a b = key a' b' → a = a') {a : α} {b : β}
    (ha : t[a]? = none) (hp : p b) :
    Tabulates (m.insert (key a b) (val a b)) (t.insert a b) p key val := by
  intro k v
  rw [getElem?_insert']
  by_cases hk : key a b = k
  · rw [if_pos hk, Option.some_inj]
    constructor
    · rintro rfl
      exact ⟨a, b, by simp, hp, hk, rfl⟩
    · rintro ⟨a', b', ht, -, hk', rfl⟩
      -- the row behind the key is the new one
      obtain rfl : a = a' := hkey _ _ _ _ (hk.trans hk'.symm)
      rw [getElem?_insert', if_pos rfl, Option.some_inj] at ht
      rw [ht]
  · rw [if_neg hk]
    refine h.getElem?_iff_of_rows v fun a' b' _ hk' => ?_
    rw [getElem?_insert']
    split_ifs with haa
    · subst haa
      refine iff_of_false (fun hb => hk ?_) (by simp [ha])
      rwa [Option.some_inj.1 hb]
    · exact Iff.rfl

theorem insert_skip {a : α} {b : β} (ha : t[a]? = none) (hp : ¬ p b) :
    Tabulates m (t.insert a b) p key val := by
  intro k v
  refine h.getElem?_iff_of_rows v fun a' b' hp' _ => ?_
  rw [getElem?_insert']
  split_ifs with haa
  · subst haa
    refine iff_of_false (fun hb => hp ?_) (by simp [ha])
    rwa [Option.some_inj.1 hb]
  · exact Iff.rfl

/-- Deleting an indexed row deletes its entry. -/
theorem erase (hkey : ∀ a b a' b', key a b = key a' b' → a = a') {a : α} {b : β}
    (ha : t[a]? = some b) : Tabulates (m.erase (key a b)) (t.erase a) p key val := by
  intro k v
  rw [getElem?_erase']
  by_cases hk : key a b = k
  · rw [if_pos hk]
    constructor
    · intro hv
      simp at hv
    · rintro ⟨a', b', ht, -, hk', -⟩
      obtain rfl : a = a' := hkey _ _ _ _ (hk.trans hk'.symm)
      simp at ht
  · rw [if_neg hk]
    refine h.getElem?_iff_of_rows v fun a' b' _ hk' => ?_
    rw [getElem?_erase']
    split_ifs with haa
    · subst haa
      refine iff_of_false (by simp) fun hb => hk ?_
      rwa [Option.some_inj.1 (ha.symm.trans hb)]
    · exact Iff.rfl

theorem erase_skip {a : α} (ha : ∀ b, t[a]? = some b → ¬ p b) :
    Tabulates m (t.erase a) p key val := by
  intro k v
  refine h.getElem?_iff_of_rows v fun a' b' hp' _ => ?_
  rw [getElem?_erase']
  split_ifs with haa
  · subst haa
    exact iff_of_false (by simp) fun hb => ha b' hb hp'
  · exact Iff.rfl

end

end Tabulates

end

end Obtcd
