import Obtcd.Lib.Edits

/-!
# Forward iterators and their overlays

An iterator is moved to its first entry and then from entry to entry until there is none.  `Iter`
is that interface, with a bound on the moves an iterator still has, and `Gives i l` says that the
iterator at `i` will show the entries `l` and then be exhausted.  `scan` is the loop over all
entries.

`Overlay` is the iterator of a buffered store: it runs one iterator over the store and one over the
entries to write, skips what the buffer touches in the store, and shows the smaller key of the two.
It is an iterator again (`gives_choose`), so overlays can be stacked.  At the entries of a map and
of its pending edits, what it shows are the entries of the map the edits are committed to
(`merge_within`).
-/

set_option linter.unusedSectionVars false

namespace Obtcd

open Std OrdMap List

/-- A forward iterator: move to the first entry, move to the next one, the current entry. -/
class Iter (σ : Type) (α : outParam Type) where
  first : σ → σ
  next : σ → σ
  entry : σ → Option α
  /-- A bound on the entries still to come. -/
  left : σ → Nat
  left_next (i : σ) {a : α} : entry i = some a → left (next i) < left i

namespace Iter

variable {σ α : Type} [Iter σ α]

/-- The iterator shows the entries `l`, from the current one on. -/
def Gives : σ → List α → Prop
  | i, [] => entry i = none
  | i, a :: l => entry i = some a ∧ Gives (next i) l

/-- The entries from the current one on, at most `n` of them. -/
def collect : Nat → σ → List α
  | 0, _ => []
  | n + 1, i =>
    match entry i with
    | none => []
    | some a => a :: collect n (next i)

/-- The loop over all entries: the first, then the next until there is none. -/
def scan (i : σ) : List α := collect (left (first i)) (first i)

theorem Gives.length_le {i : σ} {l : List α} (h : Gives i l) : l.length ≤ left i := by
  induction l generalizing i with
  | nil => exact Nat.zero_le _
  | cons a l ih =>
    obtain ⟨hentry, hrest⟩ := h
    have hlt := left_next i hentry
    have hle := ih hrest
    rw [length_cons]
    omega

theorem Gives.collect_eq {i : σ} {l : List α} (h : Gives i l) {n : Nat} (hn : l.length ≤ n) :
    collect n i = l := by
  induction l generalizing i n with
  | nil => cases n <;> simp [collect, show entry i = none from h]
  | cons a l ih =>
    obtain ⟨hentry, hrest⟩ := h
    obtain ⟨n, rfl⟩ : ∃ m, n = m + 1 := ⟨n - 1, by rw [length_cons] at hn; omega⟩
    rw [collect, hentry]
    exact congrArg _ (ih hrest (by rw [length_cons] at hn; omega))

/-- The loop sees what the iterator gives from its first entry on. -/
theorem scan_eq {i : σ} {l : List α} (h : Gives (first i) l) : scan i = l :=
  h.collect_eq h.length_le

end Iter

open Iter

/-! ## Iterators over a list -/

/-- An iterator over a list: all entries, and those from the current one on. -/
structure Cur (α : Type) where
  items : List α
  rest : List α

namespace Cur

variable {α : Type}

/-- A new iterator, which is not at an entry yet. -/
def new (items : List α) : Cur α := ⟨items, []⟩

instance : Iter (Cur α) α where
  first c := { c with rest := c.items }
  next c := { c with rest := c.rest.tail }
  entry c := c.rest.head?
  left c := c.rest.length
  left_next c a h := by
    cases hr : c.rest with
    | nil => rw [hr] at h; cases h
    | cons b l => simp

theorem gives_rest (items l : List α) : Gives (Cur.mk items l) l := by
  induction l with
  | nil => rfl
  | cons a l ih => exact ⟨rfl, ih⟩

theorem gives_first_new (items : List α) : Gives (first (new items)) items := gives_rest items items

end Cur

/-! ## Overlays -/

/-- Which of its two iterators an overlay is at. -/
inductive Side where
  | store
  | buffer

/-- An iterator over a store and over the entries that pending edits write to it. -/
structure Overlay (σ τ κ ν : Type) [Ord κ] [TransOrd κ] where
  edits : Edits κ ν
  store : σ
  buffer : τ
  current : Option Side

namespace Overlay

variable {σ τ κ ν : Type} [Ord κ] [TransOrd κ] [LawfulEqOrd κ] [DecidableEq κ]
variable [Iter σ (κ × ν)] [Iter τ (κ × ν)]

/-- Move on while the edits touch the current key, at most `n` times. -/
def skipFrom (e : Edits κ ν) : Nat → σ → σ
  | 0, i => i
  | n + 1, i =>
    match entry i with
    | none => i
    | some (k, _) => if e.touches k then skipFrom e n (next i) else i

/-- Move on while the edits touch the current key. -/
def skip (e : Edits κ ν) (i : σ) : σ := skipFrom e (left i) i

/-- Skip what the edits touch and take the iterator with the smaller key. -/
def choose (it : Overlay σ τ κ ν) : Overlay σ τ κ ν :=
  let store := skip it.edits it.store
  { it with
    store := store
    current :=
      match entry store, entry it.buffer with
      | none, none => none
      | some _, none => some .store
      | none, some _ => some .buffer
      | some (k, _), some (k', _) => if compare k k' = .gt then some .buffer else some .store }

/-- A new overlay, which is not at an entry yet. -/
def new (e : Edits κ ν) (store : σ) (buffer : τ) : Overlay σ τ κ ν := ⟨e, store, buffer, none⟩

variable (e : Edits κ ν)

theorem left_skipFrom_le (n : Nat) (i : σ) : left (skipFrom e n i) ≤ left i := by
  induction n generalizing i with
  | zero => exact Nat.le_refl _
  | succ n ih =>
    rw [skipFrom]
    split
    · exact Nat.le_refl _
    · rename_i k v hentry
      split_ifs
      · exact Nat.le_of_lt (Nat.lt_of_le_of_lt (ih _) (left_next i hentry))
      · exact Nat.le_refl _

instance : Iter (Overlay σ τ κ ν) (κ × ν) where
  first it := choose { it with store := first it.store, buffer := first it.buffer }
  next it :=
    match it.current with
    | none => it
    | some .store => choose { it with store := next it.store }
    | some .buffer => choose { it with buffer := next it.buffer }
  entry it :=
    match it.current with
    | none => none
    | some .store => entry it.store
    | some .buffer => entry it.buffer
  left it := left it.store + left it.buffer
  left_next it a h := by
    cases hc : it.current with
    | none => rw [hc] at h; cases h
    | some side =>
      rw [hc] at h
      cases side with
      | store =>
        have hskip := left_skipFrom_le it.edits (left (next it.store)) (next it.store)
        have hlt := left_next it.store h
        simp only [choose, skip]
        omega
      | buffer =>
        have hskip := left_skipFrom_le it.edits (left it.store) it.store
        have hlt := left_next it.buffer h
        simp only [choose, skip]
        omega

/-- The order in which an overlay shows entries: by key, the store's first. -/
def shown (a b : κ × ν) : Bool := (compare a.1 b.1).isLE

variable {l : List (κ × ν)}

theorem gives_skipFrom {n : Nat} {i : σ} (h : Gives i l) (hn : l.length ≤ n) :
    Gives (skipFrom e n i) (l.dropWhile fun x => e.touches x.1) := by
  induction l generalizing i n with
  | nil =>
    have hentry : entry i = none := h
    cases n with
    | zero => exact hentry
    | succ n =>
      rwa [skipFrom, hentry]
  | cons a l ih =>
    obtain ⟨hentry, hrest⟩ := h
    obtain ⟨n, rfl⟩ : ∃ m, n = m + 1 := ⟨n - 1, by rw [length_cons] at hn; omega⟩
    rw [skipFrom, hentry, dropWhile_cons]
    by_cases ht : e.touches a.1 = true
    · rw [if_pos ht]
      exact (congrArg (Gives · _) (if_pos ht)).mpr (ih hrest (by rw [length_cons] at hn; omega))
    · rw [if_neg ht]
      exact (congrArg (Gives · _) (if_neg ht)).mpr ⟨hentry, hrest⟩

theorem filter_dropWhile (p : κ × ν → Bool) (l : List (κ × ν)) :
    (l.dropWhile p).filter (fun x => !p x) = l.filter fun x => !p x := by
  induction l with
  | nil => rfl
  | cons a l ih =>
    rw [dropWhile_cons]
    by_cases ha : p a = true
    · rw [if_pos ha, ih, filter_cons_of_neg (by simp [ha])]
    · rw [if_neg ha]

variable {it : Overlay σ τ κ ν}

theorem next_eq :
    next it = match it.current with
      | none => it
      | some .store => choose { it with store := next it.store }
      | some .buffer => choose { it with buffer := next it.buffer } :=
  rfl

theorem next_choose_store (h : (choose it).current = some .store) :
    next (choose it) = choose { choose it with store := next (skip it.edits it.store) } := by
  rw [next_eq, h]
  rfl

theorem next_choose_buffer (h : (choose it).current = some .buffer) :
    next (choose it) = choose { choose it with buffer := next it.buffer } := by
  rw [next_eq, h]
  rfl

theorem entry_of_current :
    entry it =
      match it.current with
      | none => none
      | some .store => entry it.store
      | some .buffer => entry it.buffer := rfl

theorem current_choose (it : Overlay σ τ κ ν) :
    (choose it).current =
      match entry (skip it.edits it.store), entry it.buffer with
      | none, none => none
      | some _, none => some .store
      | none, some _ => some .buffer
      | some (k, _), some (k', _) => if compare k k' = .gt then some .buffer else some .store := rfl

/-- What an overlay shows: the entries of the store that the edits do not touch and those they
write, in the order of their keys.  The induction is on how many entries the two iterators give. -/
theorem gives_choose {l₁ l₂ : List (κ × ν)} (h₁ : Gives it.store l₁) (h₂ : Gives it.buffer l₂) :
    Gives (choose it) (List.merge (l₁.filter fun x => !it.edits.touches x.1) l₂ shown) := by
  induction hn : l₁.length + l₂.length using Nat.strongRecOn generalizing it l₁ l₂ with
  | ind n ih =>
    have hskip : Gives (skip it.edits it.store) (l₁.dropWhile fun x => it.edits.touches x.1) :=
      gives_skipFrom it.edits h₁ h₁.length_le
    have hle : (l₁.dropWhile fun x => it.edits.touches x.1).length ≤ l₁.length :=
      (dropWhile_sublist _).length_le
    have hhead := List.head?_dropWhile_not (fun x : κ × ν => it.edits.touches x.1) l₁
    rw [← filter_dropWhile (fun x => it.edits.touches x.1) l₁]
    generalize (l₁.dropWhile fun x => it.edits.touches x.1) = d at hskip hle hhead ⊢
    -- The two ways on: past the store's entry, and past the buffer's.
    have hstore : ∀ {a : κ × ν} {d' : List (κ × ν)}, d = a :: d' →
        (choose it).current = some .store →
        Gives (choose it) (a :: List.merge (d'.filter fun x => !it.edits.touches x.1) l₂ shown) := by
      rintro a d' rfl hcur
      refine ⟨by rw [entry_of_current, hcur]; exact hskip.1, ?_⟩
      rw [next_choose_store hcur]
      refine ih _ ?_ hskip.2 h₂ rfl
      rw [length_cons] at hle
      omega
    have hbuffer : ∀ {b : κ × ν} {l₂' : List (κ × ν)}, l₂ = b :: l₂' →
        (choose it).current = some .buffer →
        Gives (choose it) (b :: List.merge (d.filter fun x => !it.edits.touches x.1) l₂' shown) := by
      rintro b l₂' rfl hcur
      refine ⟨by rw [entry_of_current, hcur]; exact h₂.1, ?_⟩
      rw [next_choose_buffer hcur]
      refine ih _ ?_ hskip h₂.2 rfl
      rw [length_cons] at hn
      omega
    have hcur := current_choose it
    cases d with
    | nil =>
      rw [show entry (skip it.edits it.store) = none from hskip] at hcur
      cases l₂ with
      | nil =>
        rw [show entry it.buffer = none from h₂] at hcur
        rw [filter_nil, nil_merge]
        exact entry_of_current.trans (by rw [hcur])
      | cons b l₂ =>
        rw [h₂.1] at hcur
        have := hbuffer rfl hcur
        rwa [filter_nil, nil_merge] at this ⊢
    | cons a d =>
      have ha : it.edits.touches a.1 = false := by simpa using hhead
      rw [hskip.1] at hcur
      rw [filter_cons_of_pos (by simp [ha])] at hbuffer ⊢
      cases l₂ with
      | nil =>
        rw [show entry it.buffer = none from h₂] at hcur
        have := hstore rfl hcur
        rwa [merge_right] at this ⊢
      | cons b l₂ =>
        rw [h₂.1] at hcur
        rw [cons_merge_cons]
        by_cases hgt : compare a.1 b.1 = .gt
        · rw [if_neg (by simp [shown, hgt])]
          exact hbuffer rfl (hcur.trans (if_pos hgt))
        · rw [if_pos (by cases h : compare a.1 b.1 <;> simp_all [shown])]
          exact hstore rfl (hcur.trans (if_neg hgt))

/-- The loop over an overlay. -/
theorem gives_first_new (e : Edits κ ν) {store : σ} {buffer : τ} {l₁ l₂ : List (κ × ν)}
    (h₁ : Gives (first store) l₁) (h₂ : Gives (first buffer) l₂) :
    Gives (first (new e store buffer)) (List.merge (l₁.filter fun x => !e.touches x.1) l₂ shown) :=
  gives_choose h₁ h₂

/-! ## Overlays of maps -/

/-- The entries of a map with a key of a given kind, in the order of their keys. -/
def within (m : OrdMap κ ν) (p : κ → Bool) : List (κ × ν) := m.toList.filter fun x => p x.1

theorem mem_within {m : OrdMap κ ν} {p : κ → Bool} {x : κ × ν} :
    x ∈ within m p ↔ m[x.1]? = some x.2 ∧ p x.1 = true := by
  rw [within, mem_filter, ← mem_toList]

theorem nodup_within (m : OrdMap κ ν) (p : κ → Bool) : (within m p).Nodup :=
  (nodup_toList m).filter _

theorem shown_trans (a b c : κ × ν) (hab : shown a b = true) (hbc : shown b c = true) :
    shown a c = true :=
  TransCmp.isLE_trans hab hbc

theorem shown_total (a b : κ × ν) : (shown a b || shown b a) = true := by
  rw [shown, shown, show compare b.1 a.1 = (compare a.1 b.1).swap from OrientedCmp.eq_swap]
  cases compare a.1 b.1 <;> rfl

theorem pairwise_within (m : OrdMap κ ν) (p : κ → Bool) :
    (within m p).Pairwise fun a b => shown a b = true := by
  refine (ExtTreeMap.ordered_keys_toList (t := m)).filter _ |>.imp fun {a b} hab => ?_
  rw [shown, hab]
  rfl

theorem pairwise_merge {l' : List (κ × ν)} (h : l.Pairwise fun a b => shown a b = true)
    (h' : l'.Pairwise fun a b => shown a b = true) :
    (List.merge l l' shown).Pairwise fun a b => shown a b = true :=
  List.pairwise_merge shown_trans shown_total l l' h h'

/-- Entries of one map in the order of their keys are determined up to permutation. -/
theorem eq_of_perm {m : OrdMap κ ν} {l' : List (κ × ν)} (hmem : ∀ x ∈ l', m[x.1]? = some x.2)
    (hperm : l.Perm l') (h : l.Pairwise fun a b => shown a b = true)
    (h' : l'.Pairwise fun a b => shown a b = true) : l = l' := by
  refine List.Perm.eq_of_pairwise (fun a b ha hb hab hba => ?_) h h' hperm
  have hkey : a.1 = b.1 := by
    rw [shown, show compare b.1 a.1 = (compare a.1 b.1).swap from OrientedCmp.eq_swap] at hba
    refine Std.compare_eq_iff_eq.1 ?_
    rw [shown] at hab
    cases hc : compare a.1 b.1 <;> simp_all
  have hva := hmem a (hperm.mem_iff.1 ha)
  rw [hkey, hmem b hb] at hva
  exact Prod.ext hkey (Option.some.inj hva.symm)

theorem within_perm (m : OrdMap κ ν) (p : κ → Bool) :
    (((within m p).filter fun x => !e.touches x.1) ++ within e.keys p).Perm
      (within (e.commit m) p) := by
  have hdisjoint : ∀ a ∈ (within m p).filter (fun x => !e.touches x.1), ∀ b ∈ within e.keys p,
      a ≠ b := by
    rintro a ha b hb rfl
    have htouch : e.touches a.1 = true := by
      rw [Edits.touches, Edits.contains_eq e.keys, (mem_within.1 hb).1]
      simp
    simp [htouch] at ha
  have hnodup : (((within m p).filter fun x => !e.touches x.1) ++ within e.keys p).Nodup :=
    nodup_append.2 ⟨(nodup_within m p).filter _, nodup_within e.keys p, hdisjoint⟩
  refine (perm_ext_iff_of_nodup hnodup (nodup_within _ p)).2 ?_
  rintro ⟨k, v⟩
  rw [mem_append, mem_filter, mem_within, mem_within, mem_within, Edits.getElem?_commit,
    Edits.lookup_eq, Edits.touches, Edits.contains_eq, Edits.contains_eq]
  cases hr : e.remove[k]? with
  | some u =>
    have hk : e.keys[k]? = none := by
      cases hk : e.keys[k]? with
      | none => rfl
      | some w => rw [e.remove_eq_none hk] at hr; cases hr
    simp [hk]
  | none => cases e.keys[k]? <;> simp

/-- What an overlay of a map shows are the entries of the map with the edits committed. -/
theorem merge_within (m : OrdMap κ ν) (p : κ → Bool) :
    List.merge ((within m p).filter fun x => !e.touches x.1) (within e.keys p) shown =
      within (e.commit m) p := by
  refine eq_of_perm (fun x hx => (mem_within.1 hx).1)
    ((merge_perm_append shown).trans (within_perm e m p)) ?_ (pairwise_within _ p)
  exact pairwise_merge ((pairwise_within m p).filter _) (pairwise_within _ p)

/-- The same with two ranges of keys merged below the overlay, as one range above it. -/
theorem merge_merge_within (m : OrdMap κ ν) (p q : κ → Bool) :
    List.merge ((List.merge (within m p) (within m q) shown).filter fun x => !e.touches x.1)
        (List.merge (within e.keys p) (within e.keys q) shown) shown =
      List.merge (within (e.commit m) p) (within (e.commit m) q) shown := by
  have hbelow : ((List.merge (within m p) (within m q) shown).filter fun x => !e.touches x.1).Perm
      (((within m p).filter fun x => !e.touches x.1) ++
        (within m q).filter fun x => !e.touches x.1) := by
    rw [← filter_append]
    exact (merge_perm_append shown).filter _
  refine eq_of_perm (m := e.commit m) (fun x hx => ?_) ?_ ?_
    (pairwise_merge (pairwise_within _ p) (pairwise_within _ q))
  · rcases mem_merge.1 hx with hx | hx
    · exact (mem_within.1 hx).1
    · exact (mem_within.1 hx).1
  · refine (merge_perm_append shown).trans ((hbelow.append (merge_perm_append shown)).trans ?_)
    rw [append_assoc]
    refine ((perm_append_comm_assoc _ _ _).append_left _).trans ?_
    rw [← append_assoc]
    exact ((within_perm e m p).append (within_perm e m q)).trans (merge_perm_append shown).symm
  · exact pairwise_merge
      ((pairwise_merge (pairwise_within m p) (pairwise_within m q)).filter _)
      (pairwise_merge (pairwise_within _ p) (pairwise_within _ q))

end Overlay

end Obtcd
