import Mathlib.FieldTheory.Finite.Basic
import Mathlib.Data.Int.GCD

/-!
# Fractions modulo a prime

A quantity that is only ever multiplied and divided can be kept as a pair of residues, with the
division put off to the end: multiply the numerator, multiply the denominator, and take one modular
inverse when the quotient is wanted.  `Fraction` is that pair, over plain numbers and for an
arbitrary modulus `p`.

For a prime `p` the pair has a `value` in `ZMod p`, the two updates multiply and divide it
(`value_mulNumerator`, `value_mulDenominator`), and as long as only nonzero residues are multiplied
in (`Nonzero`), the quotient exists and is the canonical representative of the value
(`quotient_eq`).  So two pairs with one value have one quotient, whatever their halves are.
-/

namespace Obtcd

/-- The inverse of `a` modulo `n` in `[0, n)`, if there is one. -/
def modInverse (a n : Nat) : Option Nat :=
  if Nat.gcd a n = 1 then some ((Nat.gcdA a n) % n).toNat else none

/-- A numerator and a denominator. -/
structure Fraction where
  numerator : Nat
  denominator : Nat
deriving DecidableEq

namespace Fraction

/-- Multiply the numerator, modulo `p`. -/
def mulNumerator (p : Nat) (f : Fraction) (n : Nat) : Fraction :=
  { f with numerator := f.numerator * n % p }

/-- Multiply the denominator, modulo `p`. -/
def mulDenominator (p : Nat) (f : Fraction) (n : Nat) : Fraction :=
  { f with denominator := f.denominator * n % p }

/-- The quotient modulo `p`, if the denominator can be inverted. -/
def quotient (p : Nat) (f : Fraction) : Option Nat :=
  (modInverse f.denominator p).map fun inv => f.numerator * inv % p

/-- Both halves are residues modulo `p`. -/
structure Reduced (p : Nat) (f : Fraction) : Prop where
  numerator_lt : f.numerator < p
  denominator_lt : f.denominator < p

section Reduced

variable {p : Nat} {f : Fraction}

theorem Reduced.mulNumerator (h : f.Reduced p) (n : Nat) : (f.mulNumerator p n).Reduced p :=
  ⟨Nat.mod_lt _ (Nat.zero_lt_of_lt h.numerator_lt), h.denominator_lt⟩

theorem Reduced.mulDenominator (h : f.Reduced p) (n : Nat) : (f.mulDenominator p n).Reduced p :=
  ⟨h.numerator_lt, Nat.mod_lt _ (Nat.zero_lt_of_lt h.numerator_lt)⟩

end Reduced

variable (p : Nat) [hp : Fact p.Prime]

/-- The element of the field that the pair stands for. -/
def value (f : Fraction) : ZMod p := (f.numerator : ZMod p) / (f.denominator : ZMod p)

/-- Neither half is zero in the field. -/
structure Nonzero (f : Fraction) : Prop where
  numerator : (f.numerator : ZMod p) ≠ 0
  denominator : (f.denominator : ZMod p) ≠ 0

variable {p}

theorem natCast_ne_zero {n : Nat} (h0 : 0 < n) (hn : n < p) : (n : ZMod p) ≠ 0 := by
  intro h
  rw [ZMod.natCast_eq_zero_iff] at h
  exact absurd (Nat.le_of_dvd h0 h) (by omega)

theorem numerator_mulNumerator (f : Fraction) (n : Nat) :
    ((f.mulNumerator p n).numerator : ZMod p) = f.numerator * n := by
  rw [mulNumerator, ZMod.natCast_mod, Nat.cast_mul]

theorem denominator_mulDenominator (f : Fraction) (n : Nat) :
    ((f.mulDenominator p n).denominator : ZMod p) = f.denominator * n := by
  rw [mulDenominator, ZMod.natCast_mod, Nat.cast_mul]

theorem Nonzero.mulNumerator {f : Fraction} (h : f.Nonzero p) {n : Nat} (hn : (n : ZMod p) ≠ 0) :
    (f.mulNumerator p n).Nonzero p := by
  refine ⟨?_, h.denominator⟩
  rw [numerator_mulNumerator]
  exact mul_ne_zero h.numerator hn

theorem Nonzero.mulDenominator {f : Fraction} (h : f.Nonzero p) {n : Nat}
    (hn : (n : ZMod p) ≠ 0) : (f.mulDenominator p n).Nonzero p := by
  refine ⟨h.numerator, ?_⟩
  rw [denominator_mulDenominator]
  exact mul_ne_zero h.denominator hn

theorem value_mulNumerator (f : Fraction) (n : Nat) :
    (f.mulNumerator p n).value p = f.value p * n := by
  rw [value, numerator_mulNumerator, value]
  exact mul_div_right_comm _ _ _

theorem value_mulDenominator (f : Fraction) (n : Nat) :
    (f.mulDenominator p n).value p = f.value p / n := by
  rw [value, denominator_mulDenominator, value]
  exact (div_div _ _ _).symm

theorem modInverse_eq {a : Nat} (h : (a : ZMod p) ≠ 0) :
    ∃ b, modInverse a p = some b ∧ (b : ZMod p) = (a : ZMod p)⁻¹ := by
  have hcop : Nat.gcd a p = 1 := by
    have hdvd : ¬ p ∣ a := fun hd => h ((ZMod.natCast_eq_zero_iff _ _).2 hd)
    exact Nat.Coprime.symm ((hp.out.coprime_iff_not_dvd).2 hdvd)
  refine ⟨_, if_pos hcop, ?_⟩
  have hpos : (0 : Int) < (p : Int) := by exact_mod_cast hp.out.pos
  have hnonneg : 0 ≤ Nat.gcdA a p % (p : Int) := Int.emod_nonneg _ (by omega)
  have hcast : ((Nat.gcdA a p % (p : Int)).toNat : ZMod p) = (Nat.gcdA a p : ZMod p) := by
    rw [← Int.cast_natCast (R := ZMod p), Int.toNat_of_nonneg hnonneg, ZMod.intCast_mod]
  -- Bézout's identity, read modulo the prime
  have hbez := congrArg (Int.cast (R := ZMod p)) (Nat.gcd_eq_gcd_ab a p)
  rw [hcop] at hbez
  push_cast at hbez
  rw [CharP.cast_eq_zero (ZMod p) p, zero_mul, add_zero] at hbez
  rw [hcast]
  exact eq_inv_of_mul_eq_one_right hbez.symm

/-- The quotient exists and is a function of the value. -/
theorem quotient_eq {f : Fraction} (h : f.Nonzero p) : f.quotient p = some (f.value p).val := by
  obtain ⟨b, hb, hinv⟩ := modInverse_eq h.denominator
  have hval : f.numerator * b % p = (f.value p).val := by
    rw [value, div_eq_mul_inv, ← hinv, ← Nat.cast_mul, ZMod.val_natCast]
  rw [quotient, hb, Option.map_some, hval]

end Fraction

end Obtcd
