import Mathlib.Data.List.Nodup
import Mathlib.Logic.Function.Iterate
import Mathlib.Tactic.Ring

/-!
# Trees that repeat their last node

The tree over a row of leaves joins neighbours by a function `H` until one node is left.  In a row of
odd length the last node has no neighbour and is joined with itself.  So a row says less than its
root can tell apart: `[a, b, c]` and `[a, b, c, c]` have one root.

* `row H l` is the row above `l`, `root H d l` the node at the top.
* `fill d l` is what the leaves would be if every repetition was written out: `2 ^ d` of them, when
  `d` is the height of the tree.  They are `l` with elements of `l` behind (`fill_eq`), and, when no
  two branches collide, they are determined by the root (`fill_eq_of_iterate`).
* `eq_of_root_eq` concludes that lists without repetitions are determined by their root, as long as
  the branches of the two trees do not collide with each other or with a leaf (`Separates`).

The second half is about computing the root.  With little memory: `roots H l` are the roots of the
perfect trees that a row falls into, the smallest first.  In an array that holds all rows one after
the other, each filled up with empty places to a power of two: `grow H` appends the rows above, and
the last place is the root (`getLast?_grow`).
-/

namespace Obtcd

open List

namespace MerkleTree

variable {α β : Type}

/-! ## Rows -/

/-- The neighbours in a row, the last one paired with itself if it is left alone. -/
def pairs : List α → List (α × α)
  | [] => []
  | [a] => [(a, a)]
  | a :: b :: l => (a, b) :: pairs l

/-- The row above. -/
def row (H : α → α → α) (l : List α) : List α := (pairs l).map fun p => H p.1 p.2

theorem length_pairs (l : List α) : (pairs l).length = (l.length + 1) / 2 := by
  fun_induction pairs l with
  | case1 => simp
  | case2 => simp
  | case3 a b l ih =>
    simp only [length_cons, ih]
    omega

@[simp] theorem length_row (H : α → α → α) (l : List α) :
    (row H l).length = (l.length + 1) / 2 := by
  rw [row, length_map, length_pairs]

theorem pairs_map (f : α → β) (l : List α) : pairs (l.map f) = (pairs l).map (Prod.map f f) := by
  fun_induction pairs l with
  | case1 => rfl
  | case2 => rfl
  | case3 a b l ih => simp only [map_cons, pairs, ih, Prod.map]

/-- The pairs in order are the row, with its last element repeated if it is left alone. -/
theorem flatMap_pairs (l : List α) :
    ∃ extra, (pairs l).flatMap (fun p => [p.1, p.2]) = l ++ extra ∧ extra ⊆ l := by
  fun_induction pairs l with
  | case1 => exact ⟨[], rfl, by simp⟩
  | case2 a => exact ⟨[a], rfl, by simp⟩
  | case3 a b l ih =>
    obtain ⟨extra, heq, hsub⟩ := ih
    refine ⟨extra, by simp [heq], fun x hx => ?_⟩
    simp [hsub hx]

variable {l : List α}

theorem mem_of_mem_pairs {p : α × α} (h : p ∈ pairs l) : p.1 ∈ l ∧ p.2 ∈ l := by
  obtain ⟨extra, heq, hsub⟩ := flatMap_pairs l
  have hmem : ∀ x ∈ [p.1, p.2], x ∈ l := by
    intro x hx
    have : x ∈ l ++ extra := heq ▸ mem_flatMap.2 ⟨p, h, hx⟩
    rcases mem_append.1 this with hx | hx
    · exact hx
    · exact hsub hx
  exact ⟨hmem _ (by simp), hmem _ (by simp)⟩

/-! ## The height and the root -/

/-- How often a row of length `n` has to be halved until one node is left. -/
def heightAux : Nat → Nat → Nat
  | 0, _ => 0
  | fuel + 1, n => if n ≤ 1 then 0 else heightAux fuel ((n + 1) / 2) + 1

/-- The height of the tree over `n` leaves. -/
def height (n : Nat) : Nat := heightAux n n

theorem heightAux_eq {fuel : Nat} (fuel' n : Nat) (h : n ≤ fuel) (h' : n ≤ fuel') :
    heightAux fuel n = heightAux fuel' n := by
  induction fuel generalizing fuel' n with
  | zero =>
    obtain rfl : n = 0 := by omega
    cases fuel' <;> rfl
  | succ fuel ih =>
    cases fuel' with
    | zero =>
      obtain rfl : n = 0 := by omega
      rfl
    | succ fuel' =>
      rw [heightAux, heightAux]
      split
      · rfl
      · rw [ih fuel' ((n + 1) / 2) (by omega) (by omega)]

theorem height_of_le {n : Nat} (h : n ≤ 1) : height n = 0 := by
  cases n with
  | zero => rfl
  | succ n => rw [height, heightAux, if_pos h]

theorem height_of_lt {n : Nat} (h : 1 < n) : height n = height ((n + 1) / 2) + 1 := by
  cases n with
  | zero => omega
  | succ n => rw [height, heightAux, if_neg (by omega), height,
    heightAux_eq ((n + 1 + 1) / 2) _ (by omega) (Nat.le_refl _)]

/-- The node at the top of the tree over a row. -/
def root (H : α → α → α) (d : α) (l : List α) : α := ((row H)^[height l.length] l).headD d

variable {H : α → α → α} {d : α}

theorem root_singleton (a : α) : root H d [a] = a := rfl

theorem root_row (h : 1 < l.length) : root H d (row H l) = root H d l := by
  rw [root, root, height_of_lt h, length_row, Function.iterate_succ_apply]

theorem length_iterate_row (h : l ≠ []) : ((row H)^[height l.length] l).length = 1 := by
  induction hn : l.length using Nat.strongRecOn generalizing l with
  | _ n ih =>
    have hpos := length_pos_iff.2 h
    rcases Nat.lt_or_ge 1 n with hlt | hle
    · have hrow : (row H l).length = (n + 1) / 2 := by rw [length_row, hn]
      rw [height_of_lt hlt, Function.iterate_succ_apply]
      refine ih _ (by omega) (ne_nil_of_length_pos ?_) hrow
      omega
    · rw [height_of_le hle]
      show l.length = 1
      omega

theorem iterate_row_eq (h : l ≠ []) : (row H)^[height l.length] l = [root H d l] := by
  obtain ⟨r, hr⟩ := length_eq_one_iff.1 (length_iterate_row (H := H) h)
  rw [root, hr]
  rfl

/-- The pairs that are joined somewhere in the tree. -/
def branches (H : α → α → α) (l : List α) : List (α × α) :=
  (List.range (height l.length)).flatMap fun k => pairs ((row H)^[k] l)

theorem mem_branches {k : Nat} (hk : k < height l.length) {p : α × α}
    (hp : p ∈ pairs ((row H)^[k] l)) : p ∈ branches H l :=
  mem_flatMap.2 ⟨k, mem_range.2 hk, hp⟩

/-! ## The leaves with all repetitions -/

/-- The leaves of a perfect tree of height `d` over a row. -/
def fill : Nat → {α : Type} → List α → List α
  | 0, _, l => l
  | d + 1, α, l => (fill d (pairs l) : List (α × α)).flatMap fun p => [p.1, p.2]

theorem fill_map (k : Nat) {α β : Type} (f : α → β) (l : List α) :
    fill k (l.map f) = (fill k l).map f := by
  induction k generalizing α β with
  | zero => rfl
  | succ k ih =>
    rw [fill, fill, pairs_map, ih, flatMap_map, map_flatMap]
    rfl

theorem fill_eq (k : Nat) {α : Type} (l : List α) : ∃ extra, fill k l = l ++ extra ∧ extra ⊆ l := by
  induction k generalizing α with
  | zero => exact ⟨[], (append_nil l).symm, by simp⟩
  | succ k ih =>
    obtain ⟨extra, heq, hsub⟩ := ih (pairs l)
    obtain ⟨extra', heq', hsub'⟩ := flatMap_pairs l
    refine ⟨extra' ++ extra.flatMap fun p => [p.1, p.2], ?_, ?_⟩
    · rw [fill, heq, flatMap_append, heq', append_assoc]
    · intro x hx
      rcases mem_append.1 hx with hx | hx
      · exact hsub' hx
      · obtain ⟨p, hp, hx⟩ := mem_flatMap.1 hx
        obtain ⟨h₁, h₂⟩ := mem_of_mem_pairs (hsub hp)
        rcases mem_cons.1 hx with rfl | hx
        · exact h₁
        · rwa [mem_singleton.1 hx]

theorem mem_of_mem_fill {k : Nat} {x : α} (h : x ∈ fill k l) : x ∈ l := by
  obtain ⟨extra, heq, hsub⟩ := fill_eq k l
  rw [heq] at h
  rcases mem_append.1 h with h | h
  · exact h
  · exact hsub h

/-- Lists are told apart by a function that tells their elements apart. -/
theorem eq_of_map_eq {f : α → β} {S : α → Prop} (hf : ∀ a, S a → ∀ b, S b → f a = f b → a = b)
    {m : List α} (hl : ∀ a ∈ l, S a) (hm : ∀ a ∈ m, S a) (h : l.map f = m.map f) : l = m := by
  induction l generalizing m with
  | nil => exact (map_eq_nil_iff.1 h.symm).symm
  | cons a l ih =>
    cases m with
    | nil => cases h
    | cons b m =>
      rw [map_cons, map_cons, List.cons.injEq] at h
      rw [hf a (hl a (by simp)) b (hm b (by simp)) h.1,
        ih (fun c hc => hl c (by simp [hc])) (fun c hc => hm c (by simp [hc])) h.2]

variable {b a : List α}

/-- A row far enough up determines the leaves, as long as no two of the pairs joined below it
collide. -/
theorem fill_eq_of_iterate {S : α × α → Prop}
    (hinj : ∀ p, S p → ∀ q, S q → H p.1 p.2 = H q.1 q.2 → p = q) {k : Nat}
    (ha : ∀ i < k, ∀ p ∈ pairs ((row H)^[i] a), S p)
    (hb : ∀ i < k, ∀ p ∈ pairs ((row H)^[i] b), S p) (h : (row H)^[k] a = (row H)^[k] b) :
    fill k a = fill k b := by
  induction k generalizing a b with
  | zero => exact h
  | succ k ih =>
    have hrow : fill k (row H a) = fill k (row H b) :=
      ih (fun i hi => ha (i + 1) (by omega)) (fun i hi => hb (i + 1) (by omega)) h
    rw [row, row, fill_map, fill_map] at hrow
    have hpairs : fill k (pairs a) = fill k (pairs b) :=
      eq_of_map_eq hinj (fun p hp => ha 0 (by omega) p (mem_of_mem_fill hp))
        (fun p hp => hb 0 (by omega) p (mem_of_mem_fill hp)) hrow
    rw [fill, fill, hpairs]

/-- A list without repetitions is found again among its repetitions. -/
theorem eq_of_append_eq {x y : List α} (ha : a.Nodup) (hb : b.Nodup) (hx : x ⊆ a) (hy : y ⊆ b)
    (h : a ++ x = b ++ y) : a = b := by
  rcases append_eq_append_iff.1 h with ⟨z, rfl, rfl⟩ | ⟨z, rfl, rfl⟩
  · -- what `b` has beyond `a` is a repetition of elements of `a`
    cases z with
    | nil => simp
    | cons c z =>
      have hc : c ∈ a := hx (by simp)
      exact absurd rfl ((nodup_append.1 hb).2.2 c hc c (by simp))
  · cases z with
    | nil => simp
    | cons c z =>
      have hc : c ∈ b := hy (by simp)
      exact absurd rfl ((nodup_append.1 ha).2.2 c hc c (by simp))

/-- The pairs joined in the trees over `a` and `b` collide neither with each other nor with a
leaf. -/
structure Separates (H : α → α → α) (a b : List α) : Prop where
  inj : ∀ p ∈ branches H a ++ branches H b, ∀ q ∈ branches H a ++ branches H b,
    H p.1 p.2 = H q.1 q.2 → p = q
  leaf : ∀ p ∈ branches H a ++ branches H b, ∀ x ∈ a ++ b, H p.1 p.2 ≠ x

theorem Separates.symm (h : Separates H a b) : Separates H b a where
  inj p hp q hq := h.inj p (by simpa [or_comm] using hp) q (by simpa [or_comm] using hq)
  leaf p hp x hx := h.leaf p (by simpa [or_comm] using hp) x (by simpa [or_comm] using hx)

theorem eq_of_root_eq_of_le (ha : a ≠ []) (hb : b ≠ []) (hna : a.Nodup) (hnb : b.Nodup)
    (hsep : Separates H a b) (hle : height a.length ≤ height b.length) (h : root H d a = root H d b) :
    a = b := by
  obtain ⟨k, hk⟩ := Nat.exists_eq_add_of_le hle
  have htop : (row H)^[height a.length] a = (row H)^[height a.length] ((row H)^[k] b) := by
    rw [iterate_row_eq ha, h, ← iterate_row_eq hb, hk, Function.iterate_add_apply]
  have hfill := fill_eq_of_iterate (S := fun p => p ∈ branches H a ++ branches H b) hsep.inj
    (fun i hi p hp => mem_append_left _ (mem_branches hi hp))
    (fun i hi p hp => mem_append_right _ (mem_branches (k := i + k) (by omega)
      (by rw [Function.iterate_add_apply]; exact hp))) htop
  obtain ⟨x, hx, hxsub⟩ := fill_eq (height a.length) a
  obtain ⟨y, hy, hysub⟩ := fill_eq (height a.length) ((row H)^[k] b)
  rw [hx, hy] at hfill
  cases k with
  | zero => exact eq_of_append_eq hna hnb hxsub hysub hfill
  | succ k =>
    -- a leaf of the lower tree would be a branch of the higher one
    obtain ⟨c, a', rfl⟩ := exists_cons_of_ne_nil ha
    have hc : c ∈ (row H)^[k + 1] b := by
      refine mem_of_mem_fill (k := height (c :: a').length) ?_
      rw [hy, ← hfill]
      simp
    rw [Function.iterate_succ_apply'] at hc
    obtain ⟨p, hp, rfl⟩ := mem_map.1 hc
    exact absurd rfl (hsep.leaf p (mem_append_right _ (mem_branches (by omega) hp)) _ (by simp))

/-- Lists without repetitions are determined by their root. -/
theorem eq_of_root_eq (ha : a ≠ []) (hb : b ≠ []) (hna : a.Nodup) (hnb : b.Nodup)
    (hsep : Separates H a b) (h : root H d a = root H d b) : a = b := by
  rcases Nat.le_total (height a.length) (height b.length) with hle | hle
  · exact eq_of_root_eq_of_le ha hb hna hnb hsep hle h
  · exact (eq_of_root_eq_of_le hb ha hnb hna hsep.symm hle h.symm).symm

/-! ## The forest of perfect trees -/

theorem pairs_append (h : l.length % 2 = 0) (m : List α) : pairs (l ++ m) = pairs l ++ pairs m := by
  fun_induction pairs l with
  | case1 => rfl
  | case2 => simp at h
  | case3 a b l ih =>
    have hl : l.length % 2 = 0 := by
      simp only [length_cons] at h
      omega
    simp only [cons_append, pairs, ih hl]

theorem row_append (h : l.length % 2 = 0) (m : List α) : row H (l ++ m) = row H l ++ row H m := by
  rw [row, row, row, pairs_append h, map_append]

/-- Repeating the last node of a row of odd length does not change the row above. -/
theorem row_concat_concat (h : l.length % 2 = 0) (a : α) :
    row H (l ++ [a] ++ [a]) = row H (l ++ [a]) := by
  rw [append_assoc, row_append h, row_append h]
  rfl

theorem exists_concat_of_odd (h : l.length % 2 = 1) : ∃ m a, l = m ++ [a] ∧ m.length % 2 = 0 := by
  rcases eq_nil_or_concat l with rfl | ⟨m, a, rfl⟩
  · simp at h
  · refine ⟨m, a, concat_eq_append, ?_⟩
    simp only [length_concat] at h
    omega

/-- The roots of the perfect trees a row falls into, the smallest first. -/
def roots (H : α → α → α) (l : List α) : List α :=
  if l = [] then []
  else if l.length % 2 = 1 then l.getLast?.toList ++ roots H (row H l.dropLast)
  else roots H (row H l)
termination_by l.length
decreasing_by
  all_goals
    rename_i hne _
    have := length_pos_iff.2 hne
    simp only [length_row, length_dropLast]
    omega

@[simp] theorem roots_nil : roots H ([] : List α) = [] := by
  rw [roots, if_pos rfl]

theorem roots_concat (h : l.length % 2 = 0) (a : α) :
    roots H (l ++ [a]) = a :: roots H (row H l) := by
  rw [roots, if_neg (by simp), if_pos (by simp; omega)]
  simp

theorem roots_of_even (h : l.length % 2 = 0) : roots H l = roots H (row H l) := by
  rw [roots]
  split
  · rename_i hnil
    rw [hnil]
    exact roots_nil.symm
  · rw [if_neg (by omega)]

theorem roots_ne_nil (h : l ≠ []) : roots H l ≠ [] := by
  induction hn : l.length using Nat.strongRecOn generalizing l with
  | _ n ih =>
    rcases Nat.mod_two_eq_zero_or_one l.length with heven | hodd
    · have hpos := length_pos_iff.2 h
      rw [roots_of_even heven]
      refine ih _ ?_ (ne_nil_of_length_pos ?_) rfl
      all_goals
        rw [length_row]
        omega
    · obtain ⟨m, a, rfl, hm⟩ := exists_concat_of_odd hodd
      rw [roots_concat hm]
      exact cons_ne_nil _ _

/-! ## The rows in an array -/

/-- The node above two places.  With the right one empty, the left one is joined with itself. -/
def parent (H : α → α → α) : Option α → Option α → Option α
  | none, _ => none
  | some a, none => some (H a a)
  | some a, some b => some (H a b)

/-- Appends the nodes above the places from `i` on, one a round. -/
def grow (H : α → α → α) : Nat → Nat → List (Option α) → List (Option α)
  | 0, _, places => places
  | rounds + 1, i, places =>
    grow H rounds (i + 2) (places ++ [parent H (places.getD i none) (places.getD (i + 1) none)])

/-- A row with empty places behind. -/
def padded (n : Nat) (l : List α) : List (Option α) :=
  l.map some ++ List.replicate (n - l.length) none

/-- The row above a row with empty places. -/
def parents (H : α → α → α) : List (Option α) → List (Option α)
  | a :: b :: places => parent H a b :: parents H places
  | _ => []

theorem length_parents (places : List (Option α)) :
    (parents H places).length = places.length / 2 := by
  fun_induction parents H places with
  | case1 a b places ih =>
    simp only [length_cons, ih]
    omega
  | case2 places hshort =>
    match places, hshort with
    | [], _ => simp
    | [a], _ => simp
    | a :: b :: places, hshort => exact (hshort a b places rfl).elim

theorem parents_replicate (n : Nat) :
    parents H (List.replicate (2 * n) none) = List.replicate n none := by
  induction n with
  | zero => rfl
  | succ n ih =>
    rw [Nat.mul_succ, replicate_succ, replicate_succ, parents, ih]
    rfl

theorem parents_padded {n : Nat} (h : l.length ≤ 2 * n) :
    parents H (padded (2 * n) l) = padded n (row H l) := by
  fun_induction pairs l generalizing n with
  | case1 => simpa [padded, row, pairs] using parents_replicate n
  | case2 a =>
    obtain ⟨n, rfl⟩ : ∃ m, n = m + 1 := ⟨n - 1, by simp at h; omega⟩
    simpa [padded, row, pairs, Nat.mul_succ, replicate_succ, parents, parent] using
      parents_replicate n
  | case3 a b l ih =>
    obtain ⟨n, rfl⟩ : ∃ m, n = m + 1 := ⟨n - 1, by simp at h; omega⟩
    have hrest := ih (n := n) (by simp at h; omega)
    simpa [padded, row, pairs, Nat.mul_succ, parents, parent] using hrest

/-- The rounds over one row append the row above. -/
theorem grow_row (rounds m : Nat) (pre cur out : List (Option α)) (h : cur.length = 2 * m) :
    grow H (rounds + m) pre.length (pre ++ cur ++ out) =
      grow H rounds (pre ++ cur).length (pre ++ cur ++ (out ++ parents H cur)) := by
  induction m generalizing pre cur out with
  | zero =>
    obtain rfl := length_eq_zero_iff.1 h
    simp [parents]
  | succ m ih =>
    match cur, h with
    | a :: b :: cur, h =>
      have hstep := ih (pre ++ [a, b]) cur (out ++ [parent H a b]) (by simp at h; omega)
      rw [← Nat.add_assoc, grow]
      simpa [parents] using hstep

/-- All rounds above a row of `2 ^ k` places end with the place at the top. -/
theorem getLast?_grow (k : Nat) (pre cur : List (Option α)) (h : cur.length = 2 ^ k) :
    (grow H (2 ^ k - 1) pre.length (pre ++ cur)).getLast? = ((parents H)^[k] cur).head? := by
  induction k generalizing pre cur with
  | zero =>
    obtain ⟨a, rfl⟩ := length_eq_one_iff.1 h
    simp [grow]
  | succ k ih =>
    have hrounds : 2 ^ (k + 1) - 1 = 2 ^ k - 1 + 2 ^ k := by
      have := Nat.one_le_two_pow (n := k)
      omega
    have hrow := grow_row (H := H) (2 ^ k - 1) (2 ^ k) pre cur [] (by omega)
    rw [append_nil, nil_append] at hrow
    rw [hrounds, hrow, ih, Function.iterate_succ_apply]
    rw [length_parents]
    omega

theorem iterate_parents_padded {k : Nat} (h : l.length ≤ 2 ^ k) :
    (parents H)^[k] (padded (2 ^ k) l) = padded 1 ((row H)^[k] l) := by
  induction k generalizing l with
  | zero => rfl
  | succ k ih =>
    rw [Nat.pow_succ'] at h ⊢
    rw [Function.iterate_succ_apply, Function.iterate_succ_apply, parents_padded h, ih]
    rw [length_row]
    omega

/-- The least power of two that is not less than `n` is that of the height. -/
theorem height_spec {n : Nat} (h : 0 < n) : n ≤ 2 ^ height n ∧ 2 ^ height n < 2 * n := by
  induction n using Nat.strongRecOn with
  | _ n ih =>
    rcases Nat.lt_or_ge 1 n with hn | hn
    · obtain ⟨hle, hlt⟩ := ih ((n + 1) / 2) (by omega) (by omega)
      rw [height_of_lt hn, Nat.pow_succ]
      refine ⟨by omega, ?_⟩
      rcases Nat.eq_zero_or_pos (height ((n + 1) / 2)) with hzero | hpos
      · rw [hzero] at hle ⊢
        omega
      · obtain ⟨d, hd⟩ := Nat.exists_eq_add_of_le' hpos
        rw [hd, Nat.pow_succ] at hle hlt ⊢
        omega
    · obtain rfl : n = 1 := by omega
      decide

/-- The last place of the array is the root. -/
theorem getLast?_grow_padded (h : l ≠ []) (d : α) :
    (grow H (2 ^ height l.length - 1) 0 (padded (2 ^ height l.length) l)).getLast? =
      some (some (root H d l)) := by
  have hle := (height_spec (length_pos_iff.2 h)).1
  have hlast := getLast?_grow (H := H) (height l.length) [] (padded (2 ^ height l.length) l)
    (by simp [padded]; omega)
  rw [length_nil, nil_append] at hlast
  rw [hlast, iterate_parents_padded hle, iterate_row_eq h]
  rfl

end MerkleTree

end Obtcd
