import Mathlib.Data.List.Basic
import Mathlib.Tactic.Common

/-!
# Slices that share their arrays

A Go slice is a window on an array: the array, and how many of its elements the slice shows.  Where
the array has room behind the window, `append` writes the new element there and returns a longer
window on the same array; only a full array is copied to a new one.  Two appends to one slice with
room therefore write the same place, and the slice the first of them returned shows what the second
one wrote.

`read_append` says what the new slice shows, and `Apart` which slices an append leaves as they were:
those on other arrays, those that end where the extended slice does, and all of them when there was
no room.  How much room a new array has is the runtime's choice, the parameter `grow`; `capacity`
is the room of a slice built by appends from the nil slice.
-/

namespace Obtcd

open List

/-- An array and how many elements it can hold. -/
structure Backing (α : Type) where
  elems : List α
  cap : Nat

/-- Write an element behind the first `n`. -/
def Backing.write {α : Type} (n : Nat) (x : α) (b : Backing α) : Backing α :=
  ⟨b.elems.take n ++ x :: b.elems.drop (n + 1), b.cap⟩

/-- A window on the first `len` elements of an array; the nil slice has none. -/
structure Window where
  array : Option Nat
  len : Nat
deriving DecidableEq, Repr

/-- The nil slice. -/
def Window.nil : Window := ⟨none, 0⟩

/-- The arrays allocated so far. -/
abbrev Arrays (α : Type) := List (Backing α)

namespace Arrays

variable {α : Type}

/-- The array of a slice. -/
def backing? (h : Arrays α) (s : Window) : Option (Backing α) := s.array.bind fun i => h[i]?

/-- The elements a slice shows. -/
def read (h : Arrays α) (s : Window) : List α :=
  match h.backing? s with
  | none => []
  | some b => b.elems.take s.len

/-- How many elements its array can hold. -/
def cap (h : Arrays α) (s : Window) : Nat :=
  match h.backing? s with
  | none => 0
  | some b => b.cap

/-- Extend a slice by an element. -/
def append (grow : Nat → Nat) (h : Arrays α) (s : Window) (x : α) : Arrays α × Window :=
  match s.array with
  | some i =>
    if s.len < h.cap s then (h.modify i (Backing.write s.len x), ⟨some i, s.len + 1⟩)
    else (h ++ [⟨h.read s ++ [x], grow (h.cap s)⟩], ⟨some h.length, s.len + 1⟩)
  | none => (h ++ [⟨[x], grow 0⟩], ⟨some h.length, 1⟩)

/-- The room of a slice of `n` elements that were appended one by one. -/
def capacity (grow : Nat → Nat) : Nat → Nat
  | 0 => 0
  | n + 1 => if n < capacity grow n then capacity grow n else grow (capacity grow n)

/-- A slice built by appends: its array is there and holds what it shows. -/
structure Fits (grow : Nat → Nat) (h : Arrays α) (s : Window) : Prop where
  cap : h.cap s = capacity grow s.len
  length : (h.read s).length = s.len
  lt : ∀ i, s.array = some i → i < h.length
  nil : s.array = none ↔ s.len = 0

theorem fits_nil (grow : Nat → Nat) (h : Arrays α) : Fits grow h Window.nil :=
  ⟨rfl, rfl, fun _ hi => (nomatch hi), ⟨fun _ => rfl, fun _ => rfl⟩⟩

/-- The slices that an append to `s` leaves as they were. -/
def Apart (h : Arrays α) (s t : Window) : Prop :=
  (∀ i, t.array = some i → i < h.length) ∧ (t.array ≠ s.array ∨ t.len ≤ s.len ∨ h.cap s ≤ s.len)

/-- The slice shows the same elements and has the same room in both. -/
def Same (h h' : Arrays α) (t : Window) : Prop := h'.read t = h.read t ∧ h'.cap t = h.cap t

variable {t : Window}

theorem Same.trans {h₁ h₂ h₃ : Arrays α} (h : Same h₁ h₂ t) (h' : Same h₂ h₃ t) :
    Same h₁ h₃ t := ⟨h'.1.trans h.1, h'.2.trans h.2⟩

theorem same_of_backing? {h h' : Arrays α} (heq : h'.backing? t = h.backing? t) : Same h h' t := by
  constructor
  · rw [read, read, heq]
  · rw [cap, cap, heq]

theorem Fits.of_same {grow : Nat → Nat} {h h' : Arrays α} {s : Window} (hf : Fits grow h s)
    (hsame : Same h h' s) (hlen : h.length ≤ h'.length) : Fits grow h' s :=
  ⟨hsame.2.trans hf.cap, by rw [hsame.1, hf.length], fun i hi => Nat.lt_of_lt_of_le (hf.lt i hi) hlen, hf.nil⟩

theorem read_of_le (h : Arrays α) (a : Option Nat) {m n : Nat} (hle : m ≤ n) :
    h.read ⟨a, m⟩ = (h.read ⟨a, n⟩).take m := by
  have hback : h.backing? ⟨a, m⟩ = h.backing? ⟨a, n⟩ := rfl
  rw [read, read, hback]
  cases h.backing? ⟨a, n⟩ with
  | none => rw [take_nil]
  | some b => rw [take_take, Nat.min_eq_left hle]

theorem apart_self {grow : Nat → Nat} {h : Arrays α} {s : Window} (hf : Fits grow h s) :
    Apart h s s := ⟨hf.lt, Or.inr (Or.inl (Nat.le_refl _))⟩

/-- What was apart from a slice stays apart from it while it shows the same. -/
theorem Apart.of_same {h h' : Arrays α} {s : Window} (hap : Apart h s t) (hsame : Same h h' s)
    (hlen : h.length ≤ h'.length) : Apart h' s t :=
  ⟨fun i hi => Nat.lt_of_lt_of_le (hap.1 i hi) hlen, by rw [hsame.2]; exact hap.2⟩

/-! ## What an append does -/

section append

variable {grow : Nat → Nat} {h : Arrays α} {s : Window}

section

variable (hf : Fits grow h s)
include hf

/-- An append writes behind the slice where there is room, and into a new array where there is
none. -/
theorem append_cases (x : α) :
    (∃ i b, s.array = some i ∧ h[i]? = some b ∧ s.len < h.cap s ∧ h.read s = b.elems.take s.len ∧
        h.cap s = b.cap ∧
        h.append grow s x = (h.modify i (Backing.write s.len x), ⟨some i, s.len + 1⟩)) ∨
      (h.cap s ≤ s.len ∧ h.append grow s x =
        (h ++ [⟨h.read s ++ [x], grow (h.cap s)⟩], ⟨some h.length, s.len + 1⟩)) := by
  rw [append]
  cases hs : s.array with
  | some i =>
    have hi := hf.lt i hs
    by_cases hroom : s.len < h.cap s
    · refine Or.inl ⟨i, h[i], rfl, getElem?_eq_getElem hi, hroom, ?_, ?_, if_pos hroom⟩
      · rw [read, backing?, hs]
        simp [getElem?_eq_getElem hi]
      · rw [cap, backing?, hs]
        simp [getElem?_eq_getElem hi]
    · exact Or.inr ⟨Nat.not_lt.1 hroom, if_neg hroom⟩
  | none =>
    have hlen := hf.nil.1 hs
    have hread : h.read s = [] := length_eq_zero_iff.1 (hf.length.trans hlen)
    have hcap : h.cap s = 0 := by rw [hf.cap, hlen, capacity]
    refine Or.inr ⟨by omega, ?_⟩
    rw [hread, hcap, hlen]
    rfl

theorem length_le_append (x : α) : h.length ≤ (h.append grow s x).1.length := by
  rcases append_cases hf x with ⟨i, b, -, -, -, -, -, heq⟩ | ⟨-, heq⟩ <;> simp [heq]

/-- Two appends to a slice with room return the same slice. -/
theorem append_snd_of_lt (hroom : s.len < h.cap s) (x : α) :
    (h.append grow s x).2 = ⟨s.array, s.len + 1⟩ := by
  rcases append_cases hf x with ⟨i, b, hs, -, -, -, -, heq⟩ | ⟨hle, -⟩
  · rw [heq, hs]
  · omega

omit hf in
/-- The array that was written. -/
theorem backing?_modify {i : Nat} {b : Backing α} (hb : h[i]? = some b)
    (f : Backing α → Backing α) (ht : t.array = some i) :
    backing? (h.modify i f) t = some (f b) := by
  rw [backing?, ht]
  simp [getElem?_modify, hb]

omit hf in
theorem backing?_append_singleton (b : Backing α) (n : Nat) :
    backing? (h ++ [b]) ⟨some h.length, n⟩ = some b := by
  rw [backing?]
  simp

theorem same_append (x : α) (hap : Apart h s t) : Same h (h.append grow s x).1 t := by
  obtain ⟨hlt, hap⟩ := hap
  rcases append_cases hf x with ⟨i, b, hs, hb, hroom, hread, -, heq⟩ | ⟨-, heq⟩
  · rw [heq]
    by_cases ht : t.array = some i
    · -- On the same array the slice must end before the place that is written.
      have hle : t.len ≤ s.len := by
        rcases hap with hne | hle | hcap
        · exact absurd (ht.trans hs.symm) hne
        · exact hle
        · omega
      have hlen : (b.elems.take s.len).length = s.len := by rw [← hread, hf.length]
      have hback : h.backing? t = some b := by rw [backing?, ht]; exact hb
      have hback' := backing?_modify hb (Backing.write s.len x) ht
      constructor
      · rw [read, read, hback, hback']
        show (b.elems.take s.len ++ x :: b.elems.drop (s.len + 1)).take t.len = b.elems.take t.len
        rw [take_append_of_le_length (by omega), take_take, Nat.min_eq_left hle]
      · rw [cap, cap, hback, hback']
        rfl
    · refine same_of_backing? ?_
      rw [backing?, backing?]
      cases ht' : t.array with
      | none => rfl
      | some j =>
        have hij : i ≠ j := fun hij => ht (by rw [ht', hij])
        simp [hij]
  · refine same_of_backing? ?_
    rw [heq, backing?, backing?]
    cases ht : t.array with
    | none => rfl
    | some j => simp [getElem?_append_left (hlt j ht)]

theorem read_append (x : α) :
    (h.append grow s x).1.read (h.append grow s x).2 = h.read s ++ [x] := by
  rcases append_cases hf x with ⟨i, b, hs, hb, hroom, hread, -, heq⟩ | ⟨-, heq⟩
  · have hlen : (b.elems.take s.len).length = s.len := by rw [← hread, hf.length]
    have hback := backing?_modify hb (Backing.write s.len x) (t := ⟨some i, s.len + 1⟩) rfl
    rw [heq, hread, read, hback]
    show (b.elems.take s.len ++ x :: b.elems.drop (s.len + 1)).take (s.len + 1) = _
    rw [take_append, hlen, take_of_length_le (by omega)]
    simp
  · rw [heq, read, backing?_append_singleton]
    exact take_of_length_le (by simp [hf.length])

theorem fits_append (x : α) : Fits grow (h.append grow s x).1 (h.append grow s x).2 := by
  have hlen : ((h.append grow s x).1.read (h.append grow s x).2).length = s.len + 1 := by
    rw [read_append hf, length_append, hf.length]
    rfl
  have hcap : capacity grow (s.len + 1) = if s.len < h.cap s then h.cap s else grow (h.cap s) := by
    rw [capacity, hf.cap]
  rcases append_cases hf x with ⟨i, b, hs, hb, hroom, -, hbcap, heq⟩ | ⟨hle, heq⟩
  · rw [heq] at hlen ⊢
    refine ⟨?_, hlen, fun j hj => ?_, by simp⟩
    · rw [hcap, if_pos hroom, hbcap, cap, backing?_modify hb _ rfl]
      rfl
    · obtain rfl : i = j := Option.some.inj hj
      simpa using hf.lt i hs
  · rw [heq] at hlen ⊢
    refine ⟨?_, hlen, fun j hj => ?_, by simp⟩
    · rw [hcap, if_neg (Nat.not_lt.2 hle), cap, backing?_append_singleton]
    · obtain rfl : h.length = j := Option.some.inj hj
      simp

theorem Apart.append (x : α) (hap : Apart h s t) :
    Apart (h.append grow s x).1 (h.append grow s x).2 t := by
  refine ⟨fun i hi => Nat.lt_of_lt_of_le (hap.1 i hi) (length_le_append hf x), ?_⟩
  rcases append_cases hf x with ⟨i, b, hs, -, hroom, -, -, heq⟩ | ⟨-, heq⟩
  · rw [heq, ← hs]
    rcases hap.2 with hne | hle | hcap
    · exact Or.inl hne
    · exact Or.inr (Or.inl (Nat.le_succ_of_le hle))
    · omega
  · rw [heq]
    exact Or.inl fun hnew => absurd (hap.1 _ hnew) (Nat.lt_irrefl _)

end

end append

end Arrays

end Obtcd
