import Mathlib.Data.List.Basic

/-!
# Buffers and slices

A buffer is memory that is written in place: `store m off l` puts the values `l` into `m` from
position `off` on, and `load m s` is what the slice `s` of the buffer holds.  A slice is a position
and a length; what it holds changes with the buffer.

What is stored can be loaded back (`load_store`), and a store leaves a slice alone that ends before
it begins (`load_store_of_le`).  Two stores next to one another are one store (`store_store`).
-/

namespace Obtcd

/-- The contents of a buffer. -/
abbrev Buffer (α : Type) := Nat → α

/-- A part of a buffer: where it begins, and how long it is. -/
structure Slice where
  off : Nat
  len : Nat
deriving DecidableEq

namespace Slice

/-- The position after the last one of the slice. -/
def stop (s : Slice) : Nat := s.off + s.len

end Slice

namespace Buffer

variable {α : Type} (m : Buffer α)

/-- The buffer with the values `l` put in from position `off` on. -/
def store (off : Nat) (l : List α) : Buffer α := fun i =>
  if off ≤ i then (l[i - off]?).getD (m i) else m i

/-- What a slice of the buffer holds. -/
def load (s : Slice) : List α := (List.range s.len).map fun i => m (s.off + i)

@[simp] theorem length_load (s : Slice) : (m.load s).length = s.len := by
  simp [load]

theorem store_of_lt {off i : Nat} (h : i < off) (l : List α) : m.store off l i = m i :=
  if_neg (by omega)

theorem store_nil (off : Nat) : m.store off [] = m := by
  funext i
  simp [store]

theorem load_store (off : Nat) (l : List α) : (m.store off l).load ⟨off, l.length⟩ = l := by
  refine List.ext_getElem (by simp) fun i hi hi' => ?_
  simp [load, store, hi']

theorem load_store_of_le {s : Slice} {off : Nat} (h : s.stop ≤ off) (l : List α) :
    (m.store off l).load s = m.load s := by
  refine List.map_congr_left fun i hi => ?_
  have hi := List.mem_range.1 hi
  rw [Slice.stop] at h
  exact m.store_of_lt (by omega) l

theorem store_store (off : Nat) (a b : List α) :
    (m.store off a).store (off + a.length) b = m.store off (a ++ b) := by
  funext i
  rcases Nat.lt_or_ge i off with hi | hi
  · rw [store_of_lt _ (by omega), store_of_lt _ hi, store_of_lt _ hi]
  rcases Nat.lt_or_ge i (off + a.length) with hia | hia
  · rw [store, store, store, if_neg (by omega), if_pos hi, if_pos hi,
      List.getElem?_append_left (by omega)]
  · have hsub : i - off - a.length = i - (off + a.length) := by omega
    rw [store, store, store, if_pos hia, if_pos hi, if_pos hi,
      List.getElem?_append_right (by omega), hsub,
      List.getElem?_eq_none (by omega : a.length ≤ i - off), Option.getD_none]

end Buffer

end Obtcd
