import Mathlib.Algebra.Order.Field.Power
import Mathlib.Data.Rat.Floor
import Mathlib.Tactic.FieldSimp
import Mathlib.Tactic.GCongr
import Mathlib.Tactic.Linarith
import Mathlib.Tactic.Positivity
import Obtcd.Blockchain.Compact
import Obtcd.Lib.MachineInt

/-!
# ASERT

Above the fork height a target is the one of an anchor block, moved by an exponential in how far the
chain is ahead of or behind its schedule: it doubles with every half-life of delay.  The source
computes the exponential in fixed point.  An exponent in units of `2 ^ -16` is cut into its integer
part, a shift of the target, and its fraction, for which a cubic approximates `2 ^ frac`.

## What is here

* `exactTarget` is the value that is meant, a rational number, with the cubic as it stands in the
  source.  It doubles when the exponent grows by one unit (`exactTarget_add_radix`) and it is
  monotone (`exactTarget_mono`), also where the fraction wraps, because the cubic stays below two.
* `asertUnclamped_eq` compares the machine arithmetic with it: the target before it is clamped is
  the floor of `exactTarget`, for every exponent that a word can hold.
* `asertOps_spec` is the same for the exponent, which is a quotient rounded *towards zero*.
* `asert_exact` and `asert_mono` put these together for the headers there can be.

The exponent is rounded towards zero on both sides of the schedule, so that the half-life across
zero has one unit less than the others (`tdiv_add_half_life`).
-/

namespace Obtcd

open Chaincfg (second minute hour obtcMainNetParams)
open MachineInt

namespace Blockchain

/-! ## The exponential -/

/-- The cubic in place of `2 ^ (frac / 2 ^ 16)`, in units of `2 ^ -16`. -/
def cubicFactor (frac : Nat) : Nat :=
  65536 + (195766423245049 * frac + 971821376 * frac ^ 2 + 5127 * frac ^ 3 + 2 ^ 47) / 2 ^ 48

theorem cubicFactor_mono {a b : Nat} (h : a ≤ b) : cubicFactor a ≤ cubicFactor b := by
  rw [cubicFactor, cubicFactor]
  gcongr

theorem le_cubicFactor (frac : Nat) : 65536 ≤ cubicFactor frac := Nat.le_add_right _ _

theorem cubicFactor_le {frac : Nat} (h : frac < 65536) : cubicFactor frac ≤ 2 * 65536 :=
  le_trans (cubicFactor_mono (Nat.le_of_lt_succ h)) (by decide)

/-- The target that is meant: the one of the anchor times the factor of the exponent. -/
def exactTarget (target exponent : Int) : ℚ :=
  target * cubicFactor (exponent % 65536).toNat * 2 ^ (exponent / 65536) / 2 ^ 16

/-- One more unit in the exponent doubles the target. -/
theorem exactTarget_add_radix (target exponent : Int) :
    exactTarget target (exponent + 65536) = 2 * exactTarget target exponent := by
  have hdiv : (exponent + 65536) / 65536 = exponent / 65536 + 1 := by omega
  rw [exactTarget, exactTarget, Int.add_emod_right, hdiv, zpow_add_one₀ (by norm_num)]
  ring

/-- The factor of an exponent grows with it, also where the fraction starts again from zero. -/
theorem cubicFactor_zpow_mono {e e' : Int} (h : e ≤ e') :
    (cubicFactor (e % 65536).toNat : ℚ) * 2 ^ (e / 65536) ≤
      cubicFactor (e' % 65536).toNat * 2 ^ (e' / 65536) := by
  rcases lt_or_eq_of_le (Int.ediv_le_ediv (by norm_num : (0 : Int) < 65536) h) with hlt | heq
  · calc (cubicFactor (e % 65536).toNat : ℚ) * 2 ^ (e / 65536)
        ≤ (2 * 65536) * 2 ^ (e / 65536) := by
          gcongr
          exact_mod_cast cubicFactor_le (by omega)
      _ = 65536 * 2 ^ (e / 65536 + 1) := by
          rw [zpow_add_one₀ (by norm_num)]
          ring
      _ ≤ cubicFactor (e' % 65536).toNat * 2 ^ (e' / 65536) := by
          gcongr
          · exact_mod_cast le_cubicFactor _
          · norm_num
          · omega
  · rw [heq]
    gcongr
    exact cubicFactor_mono (by omega)

theorem exactTarget_mono {target e e' : Int} (ht : 0 ≤ target) (h : e ≤ e') :
    exactTarget target e ≤ exactTarget target e' := by
  have htarget : (0 : ℚ) ≤ target := by exact_mod_cast ht
  have hfactor := cubicFactor_zpow_mono h
  rw [exactTarget, exactTarget, mul_assoc, mul_assoc]
  gcongr

/-- Without a positive target there is nothing to move. -/
theorem exactTarget_nonpos {target : Int} (ht : target ≤ 0) (e : Int) :
    exactTarget target e ≤ 0 := by
  have htarget : (target : ℚ) ≤ 0 := by exact_mod_cast ht
  have hfactor : (0 : ℚ) ≤ cubicFactor (e % 65536).toNat * 2 ^ (e / 65536) := by positivity
  rw [exactTarget, mul_assoc]
  exact div_nonpos_of_nonpos_of_nonneg (mul_nonpos_of_nonpos_of_nonneg htarget hfactor)
    (by norm_num)

/-! ## The arithmetic of the source -/

/-- The operations of the cubic, in the order of the source. -/
def cubicOps (frac : UInt64) : List UOp :=
  let linear := 195766423245049 * frac
  let square := 971821376 * frac * frac
  let cube := 5127 * frac * frac * frac
  [.mul 195766423245049 frac, .mul 971821376 frac, .mul (971821376 * frac) frac,
    .mul 5127 frac, .mul (5127 * frac) frac, .mul (5127 * frac * frac) frac,
    .add linear square, .add (linear + square) cube,
    .add (linear + square + cube) ((1 : UInt64) <<< (47 : UInt64)),
    .add asertRadix.toUInt64
      ((linear + square + cube + (1 : UInt64) <<< (47 : UInt64)) >>> (48 : UInt64))]

/-- What the cubic computes, as long as the fraction has sixteen bits. -/
theorem cubic_spec {frac : UInt64} (h : frac.toNat < 65536) :
    (∀ op ∈ cubicOps frac, op.Exact) ∧ (asertFactor frac).toNat = cubicFactor frac.toNat := by
  have hsq : frac.toNat * frac.toNat ≤ 65535 * 65535 := Nat.mul_le_mul (by omega) (by omega)
  have hcube : frac.toNat * frac.toNat * frac.toNat ≤ 65535 * 65535 * 65535 :=
    Nat.mul_le_mul hsq (by omega)
  have h₁ : (195766423245049 * frac).toNat = 195766423245049 * frac.toNat :=
    UOp.Exact.mul (show 195766423245049 * frac.toNat < 2 ^ 64 by omega)
  have h₂ : (971821376 * frac).toNat = 971821376 * frac.toNat :=
    UOp.Exact.mul (show 971821376 * frac.toNat < 2 ^ 64 by omega)
  have h₃ : (971821376 * frac * frac).toNat = 971821376 * (frac.toNat * frac.toNat) := by
    rw [← Nat.mul_assoc, ← h₂]
    refine UOp.Exact.mul ?_
    rw [h₂, Nat.mul_assoc]
    omega
  have h₄ : (5127 * frac).toNat = 5127 * frac.toNat :=
    UOp.Exact.mul (show 5127 * frac.toNat < 2 ^ 64 by omega)
  have h₅ : (5127 * frac * frac).toNat = 5127 * (frac.toNat * frac.toNat) := by
    rw [← Nat.mul_assoc, ← h₄]
    refine UOp.Exact.mul ?_
    rw [h₄, Nat.mul_assoc]
    omega
  have h₆ : (5127 * frac * frac * frac).toNat = 5127 * (frac.toNat * frac.toNat * frac.toNat) := by
    rw [← Nat.mul_assoc, ← h₅]
    refine UOp.Exact.mul ?_
    rw [h₅, Nat.mul_assoc]
    omega
  have hhalf : ((1 : UInt64) <<< (47 : UInt64)).toNat = 2 ^ 47 := rfl
  have h₇ : (195766423245049 * frac + 971821376 * frac * frac).toNat = _ :=
    UOp.Exact.add (by omega)
  have h₈ : (195766423245049 * frac + 971821376 * frac * frac +
      5127 * frac * frac * frac).toNat = _ := UOp.Exact.add (by omega)
  have h₉ : (195766423245049 * frac + 971821376 * frac * frac + 5127 * frac * frac * frac +
      (1 : UInt64) <<< (47 : UInt64)).toNat = _ := UOp.Exact.add (by omega)
  have hshift : ((195766423245049 * frac + 971821376 * frac * frac + 5127 * frac * frac * frac +
      (1 : UInt64) <<< (47 : UInt64)) >>> (48 : UInt64)).toNat =
        (195766423245049 * frac.toNat + 971821376 * (frac.toNat * frac.toNat) +
          5127 * (frac.toNat * frac.toNat * frac.toNat) + 2 ^ 47) / 2 ^ 48 := by
    rw [UInt64.toNat_shiftRight, Nat.shiftRight_eq_div_pow, h₉, h₈, h₇, h₁, h₃, h₆, hhalf]
    rfl
  have hradix : asertRadix.toUInt64.toNat = 65536 := rfl
  have hfactor : (asertFactor frac).toNat = _ := UOp.Exact.add (by omega)
  refine ⟨?_, by rw [hfactor, hshift, hradix, cubicFactor, pow_two, pow_three']⟩
  rw [cubicOps]
  simp only [List.forall_mem_cons, List.not_mem_nil, false_imp_iff, implies_true, and_true]
  refine ⟨h₁, h₂, ?_, h₄, ?_, ?_, h₇, h₈, h₉, hfactor⟩
  · exact h₃.trans (by rw [h₂, Nat.mul_assoc])
  · exact h₅.trans (by rw [h₄, Nat.mul_assoc])
  · exact h₆.trans (by rw [h₅, Nat.mul_assoc 5127])

/-- The target before it is clamped. -/
def asertUnclamped (target : Int) (exponent : Int64) : Int :=
  let shifts := exponent >>> (16 : Int64)
  let factor := asertFactor (exponent - shifts * asertRadix).toUInt64
  let scaled := target * factor.toNat
  (if shifts < 0 then scaled >>> (-shifts).toUInt64.toNat
    else scaled * 2 ^ shifts.toUInt64.toNat) >>> (16 : Nat)

/-- The last steps: a target is positive and at most the limit of the network. -/
def asertClamp (powLimit newTarget : Int) : Int :=
  let newTarget := if newTarget ≤ 0 then 1 else newTarget
  if newTarget > powLimit then powLimit else newTarget

/-- The integer part of an exponent and its fraction. -/
theorem toInt_shifts (exponent : Int64) :
    (exponent >>> (16 : Int64) * asertRadix).toInt = exponent.toInt / 65536 * 65536 ∧
      (exponent - exponent >>> (16 : Int64) * asertRadix).toInt = exponent.toInt % 65536 ∧
      (exponent - exponent >>> (16 : Int64) * asertRadix).toUInt64.toNat =
        (exponent.toInt % 65536).toNat := by
  have hlo := exponent.le_toInt
  have hhi := exponent.toInt_lt
  have hshift := toInt_shiftRight_sixteen exponent
  have hradix : asertRadix.toInt = 65536 := rfl
  have hprod : (exponent >>> (16 : Int64)).toInt * asertRadix.toInt =
      exponent.toInt / 65536 * 65536 := by
    rw [hshift, hradix]
  have hmul : (exponent >>> (16 : Int64) * asertRadix).toInt = exponent.toInt / 65536 * 65536 := by
    rw [toInt_mul (by omega) (by omega), hprod]
  have hsub : (exponent - exponent >>> (16 : Int64) * asertRadix).toInt =
      exponent.toInt % 65536 := by
    rw [toInt_sub (by omega) (by omega), hmul]
    omega
  refine ⟨hmul, hsub, ?_⟩
  have hnonneg : 0 ≤ exponent - exponent >>> (16 : Int64) * asertRadix := by
    rw [Int64.le_iff_toInt_le, hsub]
    exact Int.emod_nonneg _ (by decide)
  have hnat := toNat_toUInt64 hnonneg
  omega

theorem frac_lt (exponent : Int64) :
    (exponent - exponent >>> (16 : Int64) * asertRadix).toUInt64.toNat < 65536 := by
  rw [(toInt_shifts exponent).2.2]
  omega

/-- The operations that cut an exponent into its parts and turn the shift round. -/
def shiftOps (exponent : Int64) : List Op :=
  let shifts := exponent >>> (16 : Int64)
  [.mul shifts asertRadix, .sub exponent (shifts * asertRadix), .sub 0 shifts]

theorem exact_shiftOps (exponent : Int64) : ∀ op ∈ shiftOps exponent, op.Exact := by
  have hlo := exponent.le_toInt
  have hhi := exponent.toInt_lt
  have hshift := toInt_shiftRight_sixteen exponent
  have hradix : asertRadix.toInt = 65536 := rfl
  have hzero : (0 : Int64).toInt = 0 := rfl
  obtain ⟨hmul, hsub, -⟩ := toInt_shifts exponent
  simp only [shiftOps, List.forall_mem_cons, List.not_mem_nil, false_imp_iff, implies_true,
    and_true]
  refine ⟨hmul.trans (by rw [hshift, hradix]), hsub.trans ?_, .sub (by omega) (by omega)⟩
  rw [hmul]
  omega

/-- The target before it is clamped is the floor of what is meant. -/
theorem asertUnclamped_eq (target : Int) (exponent : Int64) :
    asertUnclamped target exponent = ⌊exactTarget target exponent.toInt⌋ := by
  have hlo := exponent.le_toInt
  have hhi := exponent.toInt_lt
  have hshift := toInt_shiftRight_sixteen exponent
  obtain ⟨-, -, hfrac⟩ := toInt_shifts exponent
  have hfactor := (cubic_spec (frac_lt exponent)).2
  rw [asertUnclamped, hfactor, hfrac, exactTarget]
  generalize cubicFactor (exponent.toInt % 65536).toNat = factor
  by_cases hneg : exponent >>> (16 : Int64) < 0
  · -- a shift to the right, then sixteen more bits: two floors are one
    have hsign : (exponent >>> (16 : Int64)).toInt < 0 := Int64.lt_iff_toInt_lt.1 hneg
    have hneg' : (-(exponent >>> (16 : Int64))).toInt = -(exponent.toInt / 65536) := by
      rw [Int64.toInt_neg, hshift]
      exact Int.bmod_eq_of_le (by omega) (by omega)
    have hnat : ((-(exponent >>> (16 : Int64))).toUInt64.toNat : Int) =
        -(exponent.toInt / 65536) := by
      rw [toNat_toUInt64 (Int64.le_iff_toInt_le.2 (by rw [hneg']; change 0 ≤ _; omega)), hneg']
    generalize (-(exponent >>> (16 : Int64))).toUInt64.toNat = n at hnat
    have hexp : exponent.toInt / 65536 = -(n : Int) := by omega
    rw [if_pos hneg, hexp, Int.shiftRight_eq_div_pow, Int.shiftRight_eq_div_pow,
      Int.ediv_ediv_of_nonneg (by positivity), ← Int.natCast_mul,
      ← Rat.floor_intCast_div_natCast, zpow_neg, zpow_natCast]
    push_cast
    congr 1
    field_simp
    norm_num
  · have hnat : ((exponent >>> (16 : Int64)).toUInt64.toNat : Int) = exponent.toInt / 65536 := by
      rw [toNat_toUInt64 (Int64.not_lt.1 hneg), hshift]
    generalize (exponent >>> (16 : Int64)).toUInt64.toNat = n at hnat
    rw [if_neg hneg, ← hnat, Int.shiftRight_eq_div_pow, ← Rat.floor_intCast_div_natCast,
      zpow_natCast]
    push_cast
    rfl

/-- The exponent: how many half-lives the block is behind its schedule, in units of `2 ^ -16`. -/
def asertExponent (anchor : HeaderCtx) (nextHeight : Int32)
    (newBlockTime targetSpacing halfLife : Int64) : Int64 :=
  ((newBlockTime - anchor.timestamp -
    (nextHeight - anchor.height).toInt64 * (targetSpacing / second)) * asertRadix) /
      (halfLife / second)

/-- The signed operations of the source, in its order. -/
def asertOps (anchor : HeaderCtx) (nextHeight : Int32)
    (newBlockTime targetSpacing halfLife : Int64) : List Op :=
  let timeDiff := newBlockTime - anchor.timestamp
  let heightDiff := (nextHeight - anchor.height).toInt64
  let targetSpacingSeconds := targetSpacing / second
  let halfLifeSeconds := halfLife / second
  [.sub newBlockTime anchor.timestamp, .div targetSpacing second, .div halfLife second,
    .mul heightDiff targetSpacingSeconds, .sub timeDiff (heightDiff * targetSpacingSeconds),
    .mul (timeDiff - heightDiff * targetSpacingSeconds) asertRadix,
    .div ((timeDiff - heightDiff * targetSpacingSeconds) * asertRadix) halfLifeSeconds] ++
    shiftOps (asertExponent anchor nextHeight newBlockTime targetSpacing halfLife)

variable {powLimit : Int}

/-- `calcASERTRequiredDifficulty` returns the exponential, clamped and in its compact form. -/
theorem calcASERTRequiredDifficulty_some {anchor : HeaderCtx} {nextHeight : Int32}
    {newBlockTime targetSpacing halfLife : Int64} (hspacing : 0 < targetSpacing)
    (hhalfLife : 0 < halfLife) (hseconds : halfLife / second ≠ 0) :
    calcASERTRequiredDifficulty (some anchor) nextHeight newBlockTime targetSpacing halfLife
        powLimit =
      .ok (bigToCompact (asertClamp powLimit (asertUnclamped (compactToBig anchor.bits)
        (asertExponent anchor nextHeight newBlockTime targetSpacing halfLife)))) := by
  have htiming : ¬ (halfLife ≤ 0 ∨ targetSpacing ≤ 0) :=
    fun h => h.elim (Int64.not_le.2 hhalfLife) (Int64.not_le.2 hspacing)
  simp only [calcASERTRequiredDifficulty, if_neg htiming, if_neg hseconds]
  rfl

/-! ## The headers there can be -/

/-- A header states its time in 32 bits. -/
def IsHeaderTime (time : Int64) : Prop := 0 ≤ time.toInt ∧ time.toInt < 2 ^ 32

instance (time : Int64) : Decidable (IsHeaderTime time) := inferInstanceAs (Decidable (_ ∧ _))

/-- A node of the block index, whose height is not negative. -/
structure HeaderCtx.Valid (node : HeaderCtx) : Prop where
  height : 0 ≤ node.height.toInt
  timestamp : IsHeaderTime node.timestamp

/-- The parameters of an OBTC network: blocks at most ten minutes apart and half-lives of at least
an hour. -/
structure AsertParams (targetSpacing halfLife : Int64) (powLimit : Int) : Prop where
  spacing_pos : 0 < targetSpacing.toInt
  spacing_le : targetSpacing.toInt ≤ (10 * minute).toInt
  hour_le : hour.toInt ≤ halfLife.toInt
  one_le : 1 ≤ powLimit
  lt : powLimit < 2 ^ 256

/-- Both half-lives of the one network that has the rule. -/
theorem asertParams_obtcMainNet {halfLife : Int64}
    (h : halfLife = obtcMainNetParams.forkDAABootstrapHalfLife ∨
      halfLife = obtcMainNetParams.forkDAANormalHalfLife) :
    AsertParams obtcMainNetParams.targetTimePerBlock halfLife obtcMainNetParams.powLimit := by
  rcases h with rfl | rfl
  · exact ⟨by decide, by decide, by decide, by decide, by decide⟩
  · exact ⟨by decide, by decide, by decide, by decide, by decide⟩

/-- How many seconds the block is behind its schedule. -/
def asertDrift (anchor : HeaderCtx) (nextHeight : Int32) (newBlockTime targetSpacing : Int64) :
    Int :=
  newBlockTime.toInt - anchor.timestamp.toInt -
    (nextHeight.toInt - anchor.height.toInt) * (targetSpacing / second).toInt

variable {anchor : HeaderCtx} {nextHeight : Int32} {newBlockTime targetSpacing halfLife : Int64}

section Domain

theorem AsertParams.toInt_seconds (hparams : AsertParams targetSpacing halfLife powLimit) :
    0 ≤ (targetSpacing / second).toInt ∧ (targetSpacing / second).toInt ≤ 600 ∧
      0 < (halfLife / second).toInt := by
  have hsecond : second.toInt = 1000000000 := rfl
  have hten : (10 * minute).toInt = 600000000000 := rfl
  have hhour : hour.toInt = 3600000000000 := rfl
  have h₁ := hparams.spacing_pos
  have h₂ := hparams.spacing_le
  have h₃ := hparams.hour_le
  rw [toInt_div (by omega), toInt_div (by omega),
    Int.tdiv_eq_ediv_of_nonneg h₁.le, Int.tdiv_eq_ediv_of_nonneg (by omega), hsecond]
  omega

/-- The height difference of two nodes fits. -/
theorem toInt_heightDiff (hanchor : anchor.Valid) (hheight : 0 ≤ nextHeight.toInt) :
    (nextHeight - anchor.height).toInt = nextHeight.toInt - anchor.height.toInt := by
  have h₁ := hanchor.height
  have h₂ : anchor.height.toInt < 2 ^ 31 := anchor.height.toInt_lt
  have h₃ : nextHeight.toInt < 2 ^ 31 := nextHeight.toInt_lt
  rw [Int32.toInt_sub]
  exact Int.bmod_eq_of_le (by omega) (by omega)

/-- No signed operation overflows, and the exponent is the drift in half-lives, rounded towards
zero. -/
theorem asertOps_spec (hparams : AsertParams targetSpacing halfLife powLimit)
    (hanchor : anchor.Valid) (hheight : 0 ≤ nextHeight.toInt) (htime : IsHeaderTime newBlockTime) :
    (∀ op ∈ asertOps anchor nextHeight newBlockTime targetSpacing halfLife, op.Exact) ∧
      (asertExponent anchor nextHeight newBlockTime targetSpacing halfLife).toInt =
        (asertDrift anchor nextHeight newBlockTime targetSpacing * 65536).tdiv
          (halfLife / second).toInt := by
  obtain ⟨hspacing, hspacing', hhalfLife⟩ := hparams.toInt_seconds
  obtain ⟨ha, ha'⟩ := hanchor.timestamp
  obtain ⟨ht, ht'⟩ := htime
  have hdiff : (nextHeight - anchor.height).toInt64.toInt =
      nextHeight.toInt - anchor.height.toInt := by
    rw [Int32.toInt_toInt64, toInt_heightDiff hanchor hheight]
  have hdiff_lo : -2 ^ 31 ≤ (nextHeight - anchor.height).toInt64.toInt := by
    rw [Int32.toInt_toInt64]
    exact Int32.le_toInt _
  have hdiff_hi : (nextHeight - anchor.height).toInt64.toInt < 2 ^ 31 := by
    rw [Int32.toInt_toInt64]
    exact Int32.toInt_lt _
  have hradix : asertRadix.toInt = 65536 := rfl
  have hlo : -2 ^ 31 * 600 ≤
      (nextHeight - anchor.height).toInt64.toInt * (targetSpacing / second).toInt :=
    le_trans (mul_le_mul_of_nonpos_left hspacing' (by decide))
      (mul_le_mul_of_nonneg_right hdiff_lo hspacing)
  have hhi : (nextHeight - anchor.height).toInt64.toInt * (targetSpacing / second).toInt ≤
      2 ^ 31 * 600 :=
    le_trans (mul_le_mul_of_nonneg_right hdiff_hi.le hspacing)
      (mul_le_mul_of_nonneg_left hspacing' (by decide))
  have h₁ := toInt_sub (a := newBlockTime) (b := anchor.timestamp) (by omega) (by omega)
  have h₂ := toInt_mul (a := (nextHeight - anchor.height).toInt64)
    (b := targetSpacing / second) (by omega) (by omega)
  have h₃ := toInt_sub (a := newBlockTime - anchor.timestamp)
    (b := (nextHeight - anchor.height).toInt64 * (targetSpacing / second)) (by omega) (by omega)
  have hdrift : (newBlockTime - anchor.timestamp -
      (nextHeight - anchor.height).toInt64 * (targetSpacing / second)).toInt =
        asertDrift anchor nextHeight newBlockTime targetSpacing := by
    rw [h₃, h₁, h₂, hdiff, asertDrift]
  have h₄ := toInt_mul (a := newBlockTime - anchor.timestamp -
    (nextHeight - anchor.height).toInt64 * (targetSpacing / second)) (b := asertRadix)
    (by rw [hradix]; omega) (by rw [hradix]; omega)
  have hexponent : (asertExponent anchor nextHeight newBlockTime targetSpacing halfLife).toInt = _ :=
    toInt_div hhalfLife
  refine ⟨?_, by rw [hexponent, h₄, hdrift, hradix]⟩
  have hsecond : 0 < second.toInt := by decide
  simp only [asertOps, List.cons_append, List.nil_append, List.forall_mem_cons]
  exact ⟨h₁, .div hsecond, .div hsecond, h₂, h₃, h₄, hexponent, exact_shiftOps _⟩

end Domain

/-! ## One half-life more -/

/-- A quotient rounded towards zero, one half-life later.  Between a negative quotient and a
positive one the rounding changes its direction. -/
theorem tdiv_add_half_life {h : Int} (hh : 0 < h) (drift : Int) :
    ((drift + h) * 65536).tdiv h =
      if -h < drift ∧ drift < 0 ∧ ¬ h ∣ drift * 65536 then (drift * 65536).tdiv h + 65535
      else (drift * 65536).tdiv h + 65536 := by
  have hadd : (drift + h) * 65536 = drift * 65536 + h * 65536 := by ring
  have hdvd : h ∣ drift * 65536 + h * 65536 ↔ h ∣ drift * 65536 :=
    (Int.dvd_add_left (Dvd.intro _ rfl))
  rw [hadd, Int.tdiv_eq_ediv, Int.tdiv_eq_ediv, Int.add_mul_ediv_left _ _ hh.ne',
    Int.sign_eq_one_of_pos hh]
  simp only [hdvd]
  by_cases hd : h ∣ drift * 65536
  · simp only [hd, or_true, not_true_eq_false, and_false, if_true, if_false]
    omega
  · have hne : drift * 65536 + h * 65536 ≠ 0 := fun h0 => hd (by
      have : drift * 65536 = h * (-65536) := by linarith
      exact Dvd.intro _ this.symm)
    simp only [hd, or_false, not_false_eq_true, and_true]
    split_ifs <;> omega

/-! ## The required difficulty -/

theorem asertClamp_range (h : 1 ≤ powLimit) (newTarget : Int) :
    1 ≤ asertClamp powLimit newTarget ∧ asertClamp powLimit newTarget ≤ powLimit := by
  rw [asertClamp]
  split_ifs <;> omega

theorem asertClamp_mono {a b : Int} (h : a ≤ b) :
    asertClamp powLimit a ≤ asertClamp powLimit b := by
  rw [asertClamp, asertClamp]
  split_ifs <;> omega

theorem asertClamp_of_nonpos {a b : Int} (ha : a ≤ 0) (hb : b ≤ 0) :
    asertClamp powLimit a = asertClamp powLimit b := by
  rw [asertClamp, asertClamp, if_pos ha, if_pos hb]

/-- A larger exponent never gives a smaller target, for any anchor. -/
theorem asertClamp_unclamped_mono {target : Int} {e e' : Int64} (h : e.toInt ≤ e'.toInt) :
    asertClamp powLimit (asertUnclamped target e) ≤
      asertClamp powLimit (asertUnclamped target e') := by
  rw [asertUnclamped_eq, asertUnclamped_eq]
  rcases le_total 0 target with ht | ht
  · exact asertClamp_mono (Int.floor_mono (exactTarget_mono ht h))
  · have hfloor (e : Int) : ⌊exactTarget target e⌋ ≤ 0 := by
      rw [Int.floor_le_iff]
      exact lt_of_le_of_lt (exactTarget_nonpos ht e) (by norm_num)
    exact (asertClamp_of_nonpos (hfloor _) (hfloor _)).le

section Results

/-- The bits that are returned stand for a target in range. -/
theorem AsertParams.returns (hparams : AsertParams targetSpacing halfLife powLimit) :
    calcASERTRequiredDifficulty (some anchor) nextHeight newBlockTime targetSpacing halfLife
        powLimit =
      .ok (bigToCompact (asertClamp powLimit (asertUnclamped (compactToBig anchor.bits)
        (asertExponent anchor nextHeight newBlockTime targetSpacing halfLife)))) := by
  obtain ⟨-, -, hseconds⟩ := hparams.toInt_seconds
  have hhour : hour.toInt = 3600000000000 := rfl
  have hspacing := hparams.spacing_pos
  have hhalfLife := hparams.hour_le
  refine calcASERTRequiredDifficulty_some (Int64.lt_iff_toInt_lt.2 hspacing)
    (Int64.lt_iff_toInt_lt.2 ?_) ?_
  · change 0 < halfLife.toInt
    omega
  · intro h0
    rw [h0] at hseconds
    exact absurd hseconds (by decide)

/-- **ASERT is exact and in range.**  For the headers there can be no operation overflows, the
target before it is clamped is the floor of the exact one, and what is returned passes the range
check of a header.  A block that comes one half-life later gets the double of the exact target,
except where the drift passes zero between two multiples of a unit: the exponent is rounded towards
zero and grows by one unit less. -/
theorem asert_exact (hparams : AsertParams targetSpacing halfLife powLimit)
    (hanchor : anchor.Valid) (hheight : 0 ≤ nextHeight.toInt) (htime : IsHeaderTime newBlockTime) :
    let target := compactToBig anchor.bits
    let drift := asertDrift anchor nextHeight newBlockTime targetSpacing
    let h := (halfLife / second).toInt
    let exponent := asertExponent anchor nextHeight newBlockTime targetSpacing halfLife
    (nextHeight - anchor.height).toInt = nextHeight.toInt - anchor.height.toInt ∧
    (∀ op ∈ asertOps anchor nextHeight newBlockTime targetSpacing halfLife, op.Exact) ∧
    (∀ op ∈ cubicOps (exponent - exponent >>> (16 : Int64) * asertRadix).toUInt64, op.Exact) ∧
    exponent.toInt = (drift * 65536).tdiv h ∧
    asertUnclamped target exponent = ⌊exactTarget target ((drift * 65536).tdiv h)⌋ ∧
    (∃ bits, calcASERTRequiredDifficulty (some anchor) nextHeight newBlockTime targetSpacing
        halfLife powLimit = .ok bits ∧
      bits = bigToCompact (asertClamp powLimit (asertUnclamped target exponent)) ∧
      1 ≤ compactToBig bits ∧ compactToBig bits ≤ powLimit ∧
      ∀ header : BlockHeader, header.bits = bits → checkProofOfWork header powLimit true = .ok ()) ∧
    ∀ later, IsHeaderTime later → later.toInt = newBlockTime.toInt + h →
      let exponent' := asertExponent anchor nextHeight later targetSpacing halfLife
      if -h < drift ∧ drift < 0 ∧ ¬ h ∣ drift * 65536 then
        asertUnclamped target exponent' = ⌊exactTarget target ((drift * 65536).tdiv h + 65535)⌋
      else
        asertUnclamped target exponent' = ⌊2 * exactTarget target ((drift * 65536).tdiv h)⌋ := by
  intro target drift h exponent
  obtain ⟨hops, hexponent⟩ := asertOps_spec hparams hanchor hheight htime
  obtain ⟨-, -, hseconds⟩ := hparams.toInt_seconds
  have hclamp := asertClamp_range hparams.one_le (asertUnclamped target exponent)
  have hlt := hparams.lt
  have hcompact := compactToBig_bigToCompact_range hclamp.1 (by omega)
  refine ⟨toInt_heightDiff hanchor hheight, hops, (cubic_spec (frac_lt exponent)).1, hexponent,
    ?_, ⟨_, hparams.returns, rfl, hcompact.1, hcompact.2.trans hclamp.2, ?_⟩, ?_⟩
  · rw [asertUnclamped_eq, hexponent]
  · rintro header hbits
    refine checkProofOfWork_of_range ?_ ?_ (by simp)
    · rw [hbits]
      exact hcompact.1
    · rw [hbits]
      exact hcompact.2.trans hclamp.2
  · intro later hlater hlater_eq
    have hdrift : asertDrift anchor nextHeight later targetSpacing = drift + h := by
      rw [asertDrift, hlater_eq]
      change _ = newBlockTime.toInt - _ - _ + h
      ring
    obtain ⟨-, hexponent'⟩ := asertOps_spec hparams hanchor hheight hlater
    rw [hdrift, tdiv_add_half_life hseconds] at hexponent'
    dsimp only
    rw [asertUnclamped_eq, hexponent']
    split_ifs
    · rfl
    · rw [exactTarget_add_radix]

/-- An anchor with the easiest target of the main network. -/
def Sample.asertAnchor : HeaderCtx := ⟨1000, 0x1d00ffff, 1700000000⟩

theorem asert_exact_sample :
    ∃ bits, calcASERTRequiredDifficulty (some Sample.asertAnchor) 1001 1700000599
        obtcMainNetParams.targetTimePerBlock
        obtcMainNetParams.forkDAABootstrapHalfLife
        obtcMainNetParams.powLimit = .ok bits ∧
      1 ≤ compactToBig bits ∧ compactToBig bits ≤ obtcMainNetParams.powLimit := by
  obtain ⟨-, -, -, -, -, ⟨bits, hbits, -, hlo, hhi, -⟩, -⟩ :=
    asert_exact (asertParams_obtcMainNet (Or.inl rfl))
      (show Sample.asertAnchor.Valid from ⟨by decide, by decide, by decide⟩)
      (show 0 ≤ (1001 : Int32).toInt by decide) (show IsHeaderTime 1700000599 by decide)
  exact ⟨bits, hbits, hlo, hhi⟩

/-- One second ahead of its schedule a block has a target that one more half-life does not double:
the exponents are `-18` and `65517`. -/
theorem asert_not_doubled :
    let target := compactToBig Sample.asertAnchor.bits
    let exponent := asertExponent Sample.asertAnchor 1001 1700000599 (10 * minute) hour
    let exponent' := asertExponent Sample.asertAnchor 1001 (1700000599 + 3600) (10 * minute) hour
    hour / second = 3600 ∧ exponent = -18 ∧ exponent' = 65517 ∧
      asertUnclamped target exponent' < 2 * asertUnclamped target exponent := by
  decide +kernel

/-- **ASERT is monotone**: at one height a later block never has a smaller target, and at one time a
higher block never has a larger one. -/
theorem asert_mono (hparams : AsertParams targetSpacing halfLife powLimit)
    (hanchor : anchor.Valid) :
    (∀ nextHeight time time', 0 ≤ nextHeight.toInt → IsHeaderTime time → IsHeaderTime time' →
      time ≤ time' → ∃ bits bits',
        calcASERTRequiredDifficulty (some anchor) nextHeight time targetSpacing halfLife powLimit =
          .ok bits ∧
        calcASERTRequiredDifficulty (some anchor) nextHeight time' targetSpacing halfLife
          powLimit = .ok bits' ∧
        compactToBig bits ≤ compactToBig bits') ∧
    ∀ nextHeight nextHeight' time, 0 ≤ nextHeight.toInt → nextHeight ≤ nextHeight' →
      IsHeaderTime time → ∃ bits bits',
        calcASERTRequiredDifficulty (some anchor) nextHeight time targetSpacing halfLife powLimit =
          .ok bits ∧
        calcASERTRequiredDifficulty (some anchor) nextHeight' time targetSpacing halfLife
          powLimit = .ok bits' ∧
        compactToBig bits' ≤ compactToBig bits := by
  obtain ⟨hspacing, -, hseconds⟩ := hparams.toInt_seconds
  -- both parts are about the drift
  have hmono {n n' : Int32} {t t' : Int64} (hn : 0 ≤ n.toInt) (hn' : 0 ≤ n'.toInt)
      (ht : IsHeaderTime t) (ht' : IsHeaderTime t')
      (hle : asertDrift anchor n t targetSpacing ≤ asertDrift anchor n' t' targetSpacing) :
      compactToBig (bigToCompact (asertClamp powLimit (asertUnclamped (compactToBig anchor.bits)
          (asertExponent anchor n t targetSpacing halfLife)))) ≤
        compactToBig (bigToCompact (asertClamp powLimit (asertUnclamped (compactToBig anchor.bits)
          (asertExponent anchor n' t' targetSpacing halfLife)))) := by
    have hexponent : (asertExponent anchor n t targetSpacing halfLife).toInt ≤
        (asertExponent anchor n' t' targetSpacing halfLife).toInt := by
      rw [(asertOps_spec hparams hanchor hn ht).2, (asertOps_spec hparams hanchor hn' ht').2]
      exact Int.tdiv_le_tdiv hseconds (by omega)
    refine compactToBig_bigToCompact_mono (asertClamp_range hparams.one_le _).1
      (asertClamp_unclamped_mono hexponent) ?_
    exact lt_of_le_of_lt (asertClamp_range hparams.one_le _).2 hparams.lt
  refine ⟨fun n t t' hn ht ht' hle => ⟨_, _, hparams.returns, hparams.returns, ?_⟩,
    fun n n' t hn hle ht => ⟨_, _, hparams.returns, hparams.returns, ?_⟩⟩
  · have hle' := Int64.le_iff_toInt_le.1 hle
    refine hmono hn hn ht ht' ?_
    rw [asertDrift, asertDrift]
    omega
  · have hle' := Int32.le_iff_toInt_le.1 hle
    refine hmono (by omega) hn ht ht ?_
    have := mul_le_mul_of_nonneg_right (sub_le_sub_right hle' anchor.height.toInt) hspacing
    rw [asertDrift, asertDrift]
    omega

theorem asert_mono_sample :
    ∃ bits bits', calcASERTRequiredDifficulty (some Sample.asertAnchor) 1001 1700000599
        obtcMainNetParams.targetTimePerBlock
        obtcMainNetParams.forkDAABootstrapHalfLife
        obtcMainNetParams.powLimit = .ok bits ∧
      calcASERTRequiredDifficulty (some Sample.asertAnchor) 1001 1700000600
        obtcMainNetParams.targetTimePerBlock
        obtcMainNetParams.forkDAABootstrapHalfLife
        obtcMainNetParams.powLimit = .ok bits' ∧
      compactToBig bits ≤ compactToBig bits' :=
  (asert_mono (asertParams_obtcMainNet (Or.inl rfl))
    ⟨by decide, by decide, by decide⟩).1 1001 1700000599 1700000600 (by decide) (by decide)
    (by decide) (by decide)

end Results

end Blockchain

end Obtcd
