import Mathlib.Data.List.Basic

/-!
# Reading a list in pages

A reader that cannot have a list at once asks for it page by page: each request names the last
entry of the page before, and the answer says whether there is more.  `readPages` is the loop of such
a reader, which folds each page into what it has and stops when it has enough, and `Serves` says
that a source answers from one list.

Whatever the size of the pages, the loop then ends with what folding in the whole list at once would
give (`readPages_eq`).  The entries of the list are rounds enough.

`PagesFrom` is the same loop as a relation, for a reader that stops only when it is told that there is
no more: it relates a cursor to the pages that are read, if that ever ends.
-/

namespace Obtcd

open List

section Pages

variable {α β ε : Type}

/-- Read pages, from the one after `cursor` on, until there are no more or `full` says that it is
enough.  `fuel` bounds the number of pages. -/
def readPages (page : Option α → Except ε (List α × Bool)) (full : β → Bool)
    (add : β → List α → β) : Nat → Option α → β → Except ε β
  | 0, _, acc => .ok acc
  | fuel + 1, cursor, acc =>
    if full acc then .ok acc
    else
      match page cursor with
      | .error e => .error e
      | .ok (rows, hasMore) =>
        match hasMore, rows.getLast? with
        | true, some last => readPages page full add fuel (some last) (add acc rows)
        | _, _ => .ok (add acc rows)

/-- The answer when `rest` is still to come: the first `n` of it, and whether there is more. -/
def pageOf (n : Nat) (rest : List α) : List α × Bool := (rest.take n, decide (n < rest.length))

/-- The source serves the list `l` in pages of `n`. -/
structure Serves (page : Option α → Except ε (List α × Bool)) (n : Nat) (l : List α) : Prop where
  first : page none = .ok (pageOf n l)
  next : ∀ (before : List α) (a : α) (rest : List α), l = before ++ a :: rest →
    page (some a) = .ok (pageOf n rest)

variable {page : Option α → Except ε (List α × Bool)} {full : β → Bool} {add : β → List α → β}

variable {n : Nat} {rest : List α}

theorem getLast?_take (hn : 0 < n) (hmore : n < rest.length) :
    (rest.take n).getLast? = some rest[n - 1] := by
  rw [List.getLast?_eq_getElem?, length_take, List.getElem?_take_of_lt (by omega),
    show min n rest.length - 1 = n - 1 by omega]
  exact List.getElem?_eq_getElem (by omega)

/-- The page behind a page. -/
theorem Serves.behind (hn : 0 < n) {l before : List α} (hserves : Serves page n l)
    (hl : l = before ++ rest) (hmore : n < rest.length) :
    page (some rest[n - 1]) = .ok (pageOf n (rest.drop n)) := by
  have hdrop := drop_eq_getElem_cons (show n - 1 < rest.length by omega)
  rw [show n - 1 + 1 = n by omega] at hdrop
  refine hserves.next (before ++ rest.take (n - 1)) _ _ ?_
  rw [append_assoc, ← hdrop, take_append_drop, hl]

/-- One round: the page that is read is folded in, and the loop goes on behind it. -/
theorem readPages_succ (hn : 0 < n) {cursor : Option α} (hpage : page cursor = .ok (pageOf n rest))
    {acc : β} (hfull : full acc = false) (fuel : Nat) :
    readPages page full add (fuel + 1) cursor acc =
      if h : n < rest.length then
        readPages page full add fuel (some rest[n - 1]) (add acc (rest.take n))
      else .ok (add acc rest) := by
  rw [readPages, if_neg (by simp [hfull]), hpage]
  dsimp only [pageOf]
  by_cases hmore : n < rest.length
  · rw [decide_eq_true hmore, getLast?_take hn hmore, dif_pos hmore]
  · rw [decide_eq_false hmore, dif_neg hmore, take_of_length_le (by omega)]

/-- Reading in pages is reading at once.  When folding in two pieces is folding in what they
make together, and one that has enough takes no more. -/
theorem readPages_eq (hn : 0 < n) {l : List α} (hserves : Serves page n l)
    (hadd : ∀ acc xs ys, add (add acc xs) ys = add acc (xs ++ ys))
    (hfull : ∀ acc xs, full acc = true → add acc xs = acc) {fuel : Nat} (hfuel : l.length < fuel)
    (acc : β) : readPages page full add fuel none acc = .ok (add acc l) := by
  -- what has been read and what is still to come make the list
  suffices h : ∀ (fuel : Nat) (before rest : List α) (cursor : Option α) (acc : β),
      l = before ++ rest → page cursor = .ok (pageOf n rest) → rest.length < fuel →
      readPages page full add fuel cursor acc = .ok (add acc rest) from
    h fuel [] l none acc rfl hserves.first hfuel
  intro fuel
  induction fuel with
  | zero => intro _ _ _ _ _ _ hlt; omega
  | succ fuel ih =>
    intro before rest cursor acc hl hpage hlt
    cases hacc : full acc with
    | true => rw [readPages, if_pos hacc, hfull acc rest hacc]
    | false =>
      rw [readPages_succ hn hpage hacc]
      split
      · next hmore =>
        rw [ih (before ++ rest.take n) (rest.drop n) _ _
          (by rw [append_assoc, take_append_drop, hl]) (hserves.behind hn hl hmore)
          (by rw [length_drop]; omega), hadd, take_append_drop]
      · rfl

/-! ## All pages -/

/-- Going on behind the last entry of each page, until there is no more, gives these pages. -/
inductive PagesFrom (page : Option α → Except ε (List α × Bool)) : Option α → List (List α) → Prop
  | last {cursor : Option α} {rows : List α} :
      page cursor = .ok (rows, false) → PagesFrom page cursor [rows]
  | more {cursor : Option α} {rows : List α} {a : α} {pages : List (List α)} :
      page cursor = .ok (rows, true) → rows.getLast? = some a → PagesFrom page (some a) pages →
      PagesFrom page cursor (rows :: pages)

/-- The pages are determined. -/
theorem PagesFrom.unique {cursor : Option α} {pages pages' : List (List α)}
    (h : PagesFrom page cursor pages) (h' : PagesFrom page cursor pages') : pages = pages' := by
  induction h generalizing pages' with
  | last hlast =>
    cases h' with
    | last hlast' => cases hlast.symm.trans hlast'; rfl
    | more hmore' _ _ => cases hlast.symm.trans hmore'
  | more hmore ha _ ih =>
    cases h' with
    | last hlast' => cases hmore.symm.trans hlast'
    | more hmore' ha' hrest' =>
      cases hmore.symm.trans hmore'
      cases ha.symm.trans ha'
      rw [ih hrest']

/-- Reading page by page ends, and the pages make up the list. -/
theorem Serves.exists_pages (hn : 0 < n) {l : List α} (hserves : Serves page n l) :
    ∃ pages, PagesFrom page none pages ∧ pages.flatten = l := by
  suffices h : ∀ (size : Nat) (before rest : List α) (cursor : Option α), rest.length ≤ size →
      l = before ++ rest → page cursor = .ok (pageOf n rest) →
      ∃ pages, PagesFrom page cursor pages ∧ pages.flatten = rest from
    h l.length [] l none (Nat.le_refl _) rfl hserves.first
  intro size
  induction size with
  | zero =>
    intro before rest cursor hsize _ hpage
    obtain rfl := eq_nil_of_length_eq_zero (Nat.le_zero.1 hsize)
    exact ⟨[[]], .last (by simpa [pageOf] using hpage), rfl⟩
  | succ size ih =>
    intro before rest cursor hsize hl hpage
    by_cases hmore : n < rest.length
    · obtain ⟨pages, hpages, hflat⟩ := ih (before ++ rest.take n) (rest.drop n) _
        (by rw [length_drop]; omega)
        (by rw [append_assoc, take_append_drop, hl]) (hserves.behind hn hl hmore)
      refine ⟨rest.take n :: pages, .more ?_ (getLast?_take hn hmore) hpages, ?_⟩
      · rw [hpage, pageOf, decide_eq_true hmore]
      · rw [flatten_cons, hflat, take_append_drop]
    · refine ⟨[rest], .last ?_, by simp⟩
      rw [hpage, pageOf, decide_eq_false hmore, take_of_length_le (by omega)]

end Pages

end Obtcd
