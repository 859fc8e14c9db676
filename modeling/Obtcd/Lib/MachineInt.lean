import Mathlib.Algebra.Order.BigOperators.Group.List
import Mathlib.Algebra.Order.Ring.Int
import Mathlib.Order.Compare

/-!
# Machine integers read as numbers

Signed machine words are reasoned about through `toInt`, unsigned ones through `toNat`.  What is
here are the bridges between the two that the core library does not have: a word that is not
negative keeps its value when it is reread as unsigned, and signed words compare as their values do.
-/

namespace Obtcd.MachineInt

variable {a b : Int64}

theorem toUInt64_inj : a.toUInt64 = b.toUInt64 ↔ a = b := by
  refine ⟨fun h => ?_, fun h => h ▸ rfl⟩
  rw [← Int64.toInt64_toUInt64 a, h, Int64.toInt64_toUInt64]

theorem toNat_toUInt64 (h : 0 ≤ a) : (a.toUInt64.toNat : Int) = a.toInt := by
  have h0 : 0 ≤ a.toInt := Int64.le_iff_toInt_le.1 h
  rw [Int64.toNat_toUInt64_of_le h, ← Int64.toNat_toInt, Int.toNat_of_nonneg h0]

theorem toNat_toUInt64_toInt64 {a : Int32} (h : 0 ≤ a) :
    (a.toInt64.toUInt64.toNat : Int) = a.toInt := by
  have h0 : 0 ≤ a.toInt := Int32.le_iff_toInt_le.1 h
  rw [toNat_toUInt64, Int32.toInt_toInt64]
  rwa [Int64.le_iff_toInt_le, Int32.toInt_toInt64]

/-- Adding to a widened word that is not negative does not wrap, as long as the sum fits. -/
theorem toUInt64_add {a : Int32} (h : 0 ≤ a) (b : UInt64) :
    a.toInt64.toUInt64 + b = UInt64.ofNat (a.toInt.toNat + b.toNat) := by
  have ha := toNat_toUInt64_toInt64 h
  apply UInt64.toNat_inj.1
  rw [UInt64.toNat_add, UInt64.toNat_ofNat']
  congr 2
  omega

theorem toInt_sub_one {a : Int32} (h : 0 ≤ a.toInt) : (a - 1).toInt = a.toInt - 1 := by
  have hlt : a.toInt < 2 ^ 31 := a.toInt_lt
  have h1 : (1 : Int32).toInt = 1 := rfl
  rw [Int32.toInt_sub, h1]
  exact Int.bmod_eq_of_le (by omega) (by omega)

/-! ### Arithmetic that does not overflow -/

theorem toInt_add (hlo : -2 ^ 63 ≤ a.toInt + b.toInt) (hhi : a.toInt + b.toInt < 2 ^ 63) :
    (a + b).toInt = a.toInt + b.toInt := by
  rw [Int64.toInt_add]
  exact Int.bmod_eq_of_le (by omega) (by omega)

theorem toInt_sub (hlo : -2 ^ 63 ≤ a.toInt - b.toInt) (hhi : a.toInt - b.toInt < 2 ^ 63) :
    (a - b).toInt = a.toInt - b.toInt := by
  rw [Int64.toInt_sub]
  exact Int.bmod_eq_of_le (by omega) (by omega)

theorem toInt_mul (hlo : -2 ^ 63 ≤ a.toInt * b.toInt) (hhi : a.toInt * b.toInt < 2 ^ 63) :
    (a * b).toInt = a.toInt * b.toInt := by
  rw [Int64.toInt_mul]
  exact Int.bmod_eq_of_le (by omega) (by omega)

/-- Dividing by a positive word rounds towards zero and never overflows. -/
theorem toInt_div (hb : 0 < b.toInt) : (a / b).toInt = a.toInt.tdiv b.toInt := by
  have hlo : -2 ^ 63 ≤ a.toInt := a.le_toInt
  have hhi : a.toInt < 2 ^ 63 := a.toInt_lt
  have habs : (a.toInt.tdiv b.toInt).natAbs ≤ a.toInt.natAbs := by
    rw [Int.natAbs_tdiv]
    exact Nat.div_le_self _ _
  rw [Int64.toInt_div]
  rcases lt_or_ge a.toInt 0 with hneg | hpos
  · have hle : a.toInt.tdiv b.toInt ≤ 0 := by
      simpa using Int.tdiv_le_tdiv hb hneg.le
    exact Int.bmod_eq_of_le (by omega) (by omega)
  · exact Int.bmod_eq_of_le (by omega) (by omega)

/-- An arithmetic shift to the right is a division that rounds down. -/
theorem toInt_shiftRight_sixteen (a : Int64) : (a >>> (16 : Int64)).toInt = a.toInt / 65536 := by
  rw [← Int64.toInt_toBitVec, Int64.toBitVec_shiftRight]
  change (a.toBitVec.sshiftRight 16).toInt = _
  rw [BitVec.toInt_sshiftRight, Int64.toInt_toBitVec, Int.shiftRight_eq_div_pow]
  rfl

/-- The share `n / d` of an amount, as long as multiplying does not overflow. -/
theorem toInt_mul_div {n d : Int64} (ha : 0 ≤ a.toInt) (hn : 0 ≤ n.toInt) (hd : 0 < d.toInt)
    (hhi : a.toInt * n.toInt < 2 ^ 63) : (a * n / d).toInt = a.toInt * n.toInt / d.toInt := by
  have hmul : 0 ≤ a.toInt * n.toInt := Int.mul_nonneg ha hn
  have heq : (a * n).toInt = a.toInt * n.toInt := toInt_mul (by omega) hhi
  rw [toInt_div hd, heq, Int.tdiv_eq_ediv_of_nonneg hmul]

/-- A number as an `int` holds it, which has 64 bits. -/
def wrapInt (x : Int) : Int := x.bmod (2 ^ 64)

theorem wrapInt_eq {x : Int} (hlo : -2 ^ 63 ≤ x) (hhi : x < 2 ^ 63) : wrapInt x = x :=
  Int.bmod_eq_of_le (by omega) (by omega)

/-- A sum that is too large comes out negative. -/
theorem wrapInt_neg {x : Int} (hlo : 2 ^ 63 ≤ x) (hhi : x < 2 ^ 64) : wrapInt x < 0 := by
  rw [wrapInt, Int.bmod_def]
  split_ifs <;> omega

/-- An arithmetic operation on machine words. -/
inductive Op where
  | add (a b : Int64)
  | sub (a b : Int64)
  | mul (a b : Int64)
  | div (a b : Int64)

/-- The operation gives the number it stands for: it does not overflow. -/
def Op.Exact : Op → Prop
  | .add a b => (a + b).toInt = a.toInt + b.toInt
  | .sub a b => (a - b).toInt = a.toInt - b.toInt
  | .mul a b => (a * b).toInt = a.toInt * b.toInt
  | .div a b => (a / b).toInt = a.toInt.tdiv b.toInt

theorem Op.Exact.add (hlo : -2 ^ 63 ≤ a.toInt + b.toInt) (hhi : a.toInt + b.toInt < 2 ^ 63) :
    (Op.add a b).Exact := toInt_add hlo hhi

theorem Op.Exact.sub (hlo : -2 ^ 63 ≤ a.toInt - b.toInt) (hhi : a.toInt - b.toInt < 2 ^ 63) :
    (Op.sub a b).Exact := toInt_sub hlo hhi

theorem Op.Exact.div (hb : 0 < b.toInt) : (Op.div a b).Exact := toInt_div hb

/-- An arithmetic operation on unsigned machine words. -/
inductive UOp where
  | add (a b : UInt64)
  | mul (a b : UInt64)

/-- The operation gives the number it stands for: it does not overflow. -/
def UOp.Exact : UOp → Prop
  | .add a b => (a + b).toNat = a.toNat + b.toNat
  | .mul a b => (a * b).toNat = a.toNat * b.toNat

theorem UOp.Exact.add {a b : UInt64} (h : a.toNat + b.toNat < 2 ^ 64) : (UOp.add a b).Exact := by
  rw [UOp.Exact, UInt64.toNat_add, Nat.mod_eq_of_lt h]

theorem UOp.Exact.mul {a b : UInt64} (h : a.toNat * b.toNat < 2 ^ 64) : (UOp.mul a b).Exact := by
  rw [UOp.Exact, UInt64.toNat_mul, Nat.mod_eq_of_lt h]

theorem sum_map_nonneg {α : Type} {f : α → Int} {l : List α} (h : ∀ x ∈ l, 0 ≤ f x) :
    0 ≤ (l.map f).sum := by
  refine List.sum_nonneg ?_
  rwa [List.forall_mem_map]

/-- The operations of a loop that adds up words. -/
def sumOps (total : Int64) : List Int64 → List Op
  | [] => []
  | a :: as => .add total a :: sumOps (total + a) as

theorem exact_sumOps {total : Int64} {as : List Int64} (ht : 0 ≤ total.toInt)
    (hnonneg : ∀ a ∈ as, 0 ≤ a.toInt) (hfit : total.toInt + (as.map Int64.toInt).sum < 2 ^ 63) :
    ∀ op ∈ sumOps total as, op.Exact := by
  induction as generalizing total with
  | nil => simp [sumOps]
  | cons a as ih =>
    obtain ⟨ha, has⟩ := List.forall_mem_cons.1 hnonneg
    have hrest := sum_map_nonneg has
    rw [List.map_cons, List.sum_cons] at hfit
    have hadd : (total + a).toInt = total.toInt + a.toInt := toInt_add (by omega) (by omega)
    rw [sumOps, List.forall_mem_cons]
    exact ⟨hadd, ih (by omega) has (by omega)⟩

theorem toInt_toInt32_add (a : Int32) (b : UInt64) :
    (a.toInt64.toUInt64 + b).toUInt32.toInt32.toInt = (a.toInt + b.toNat).bmod (2 ^ 32) := by
  have hwide : (a.toInt64.toUInt64.toNat : Int) % 2 ^ 32 = a.toInt % 2 ^ 32 := by
    have h₁ : (a.toInt64.toUInt64.toNat : Int).bmod (2 ^ 64) = a.toInt := by
      rw [← Int32.toInt_toInt64 a]
      exact (BitVec.toInt_eq_toNat_bmod _).symm
    rw [← h₁]
    have h₂ := Int.bmod_emod (x := (a.toInt64.toUInt64.toNat : Int)) (m := 2 ^ 64)
    omega
  have hcut : (a.toInt64.toUInt64 + b).toUInt32.toInt32.toInt =
      (((a.toInt64.toUInt64.toNat + b.toNat) % 2 ^ 64 % 2 ^ 32 : Nat) : Int).bmod (2 ^ 32) := by
    rw [← UInt64.toNat_add, ← UInt64.toNat_toUInt32]
    exact BitVec.toInt_eq_toNat_bmod _
  rw [hcut, ← Int.emod_bmod (a.toInt + b.toNat)]
  congr 1
  omega

/-! ### Order -/

theorem compare_int64 (a b : Int64) : compare a b = compare a.toInt b.toInt := by
  simp only [compare, compareOfLessAndEq, Int64.lt_iff_toInt_lt, ← Int64.toInt_inj]

theorem compare_toNat_toUInt64 (ha : 0 ≤ a) (hb : 0 ≤ b) :
    compare a.toUInt64.toNat b.toUInt64.toNat = compare a b := by
  have h₁ := toNat_toUInt64 ha
  have h₂ := toNat_toUInt64 hb
  rw [compare_int64]
  rcases lt_trichotomy a.toInt b.toInt with h | h | h
  · rw [compare_lt_iff_lt.2 h, Nat.compare_eq_lt.2 (by omega)]
  · rw [compare_eq_iff_eq.2 h, Nat.compare_eq_eq.2 (by omega)]
  · rw [compare_gt_iff_gt.2 h, Nat.compare_eq_gt.2 (by omega)]

end Obtcd.MachineInt
