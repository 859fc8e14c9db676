import Mathlib.Data.Nat.Digits.Lemmas

/-!
# Numerals with leading zeros

A list of digits, the highest first, is a number behind some zeros.  `spell` writes the two down and
`zeros` and `value` read them off, and neither loses anything (`spell_zeros_value`, `zeros_spell`,
`value_spell`).
-/

namespace Obtcd.Numeral

open List

variable {b : Nat}

/-- How many zeros a numeral starts with. -/
def zeros (ds : List Nat) : Nat := (ds.takeWhile (· == 0)).length

/-- The number that a numeral stands for. -/
def value (b : Nat) (ds : List Nat) : Nat := Nat.ofDigits b ds.reverse

/-- The digits of `n` behind `z` zeros. -/
def spell (b z n : Nat) : List Nat := replicate z 0 ++ (Nat.digits b n).reverse

theorem value_append (ds es : List Nat) :
    value b (ds ++ es) = value b ds * b ^ es.length + value b es := by
  rw [value, reverse_append, Nat.ofDigits_append, length_reverse, Nat.mul_comm, Nat.add_comm]
  rfl

theorem value_cons (d : Nat) (ds : List Nat) :
    value b (d :: ds) = d * b ^ ds.length + value b ds := by
  simpa [value] using value_append (b := b) [d] ds

theorem zeros_cons (d : Nat) (ds : List Nat) :
    zeros (d :: ds) = if d = 0 then zeros ds + 1 else 0 := by
  by_cases h : d = 0 <;> simp [zeros, h]

/-- The zeros of the digits that the characters of a string stand for. -/
theorem zeros_map {α : Type} [BEq α] [LawfulBEq α] {f : α → Nat} {k : α}
    (h : ∀ c, f c = 0 ↔ c = k) (cs : List α) :
    zeros (cs.map f) = (cs.takeWhile (· == k)).length := by
  have : (fun c => f c == 0) = (· == k) := by
    funext c
    rw [Bool.eq_iff_iff, beq_iff_eq, beq_iff_eq, h c]
  rw [zeros, takeWhile_map, length_map, ← this]
  rfl

/-- A numeral is its value behind its zeros. -/
theorem spell_zeros_value (hb : 1 < b) {ds : List Nat} (h : ∀ d ∈ ds, d < b) :
    spell b (zeros ds) (value b ds) = ds := by
  induction ds with
  | nil => simp [spell, zeros, value]
  | cons d ds ih =>
    rw [zeros_cons]
    split_ifs with hd
    · subst hd
      rw [value_cons, Nat.zero_mul, Nat.zero_add, spell, replicate_succ, cons_append]
      exact congrArg (0 :: ·) (ih fun e he => h e (mem_cons_of_mem _ he))
    · -- the highest digit is not zero, so the digits of the value are the numeral itself
      rw [spell, value, Nat.digits_ofDigits b hb _ (fun e he => h e (mem_reverse.mp he))
        (by simpa using hd), reverse_reverse, replicate_zero, nil_append]

theorem zeros_spell (z n : Nat) : zeros (spell b z n) = z := by
  induction z with
  | succ z ih => simpa [spell, replicate_succ, zeros_cons] using ih
  | zero =>
    rcases Nat.eq_zero_or_pos n with rfl | hn
    · simp [spell, zeros]
    · have hne : Nat.digits b n ≠ [] := Nat.digits_ne_nil_iff_ne_zero.mpr hn.ne'
      rw [spell, ← dropLast_append_getLast hne, reverse_concat, replicate_zero, nil_append,
        zeros_cons, if_neg (Nat.getLast_digit_ne_zero b hn.ne')]

theorem value_spell (z n : Nat) : value b (spell b z n) = n := by
  rw [value, spell, reverse_append, reverse_reverse, reverse_replicate,
    Nat.ofDigits_append_replicate_zero, Nat.ofDigits_digits]

theorem lt_of_mem_spell (hb : 1 < b) {z n : Nat} : ∀ d ∈ spell b z n, d < b := by
  intro d hd
  rcases mem_append.mp hd with hd | hd
  · rw [eq_of_mem_replicate hd]
    omega
  · exact Nat.digits_lt_base hb (mem_reverse.mp hd)

end Obtcd.Numeral
