import Mathlib.Algebra.BigOperators.Group.Finset.Piecewise
import Mathlib.Algebra.BigOperators.Group.List.Basic
import Mathlib.Data.List.Induction
import Obtcd.Lib.MachineInt
import Obtcd.Lib.OrdMap

/-!
# Tallies

A program that adds up machine amounts by key, `m[k] += a`, keeps the map `tally` of a list of
pairs.  As numbers, the amounts under a key add up to `sumOf`.  The two agree as long as the amounts
are positive and their total fits (`getElem?_tally`), and then two lists have the same tally exactly
when they have the same sums (`tally_inj`).
-/

set_option linter.unusedSectionVars false

namespace Obtcd

open List

namespace Tally

open Std

variable {κ : Type} [Ord κ] [TransOrd κ] [LawfulEqOrd κ] [DecidableEq κ]

/-- `m[k] += a`. -/
def add (m : OrdMap κ Int64) (k : κ) (a : Int64) : OrdMap κ Int64 :=
  m.insert k ((m[k]?).getD 0 + a)

/-- The amounts of a list, added up by key. -/
def tally (l : List (κ × Int64)) : OrdMap κ Int64 := l.foldl (fun m x => add m x.1 x.2) ∅

/-- What a list has under a key. -/
def sumOf (l : List (κ × Int64)) (k : κ) : Int :=
  (l.map fun x => if x.1 = k then x.2.toInt else 0).sum

/-- What a list has in all. -/
def total (l : List (κ × Int64)) : Int := (l.map fun x => x.2.toInt).sum

/-- All amounts are positive, and together they fit a machine word. -/
structure Fits (l : List (κ × Int64)) : Prop where
  pos : ∀ x ∈ l, 0 < x.2.toInt
  total_lt : total l < 2 ^ 63

theorem sumOf_append (l : List (κ × Int64)) (x : κ × Int64) (k : κ) :
    sumOf (l ++ [x]) k = sumOf l k + if x.1 = k then x.2.toInt else 0 := by
  simp [sumOf]

theorem total_append (l : List (κ × Int64)) (x : κ × Int64) :
    total (l ++ [x]) = total l + x.2.toInt := by
  simp [total]

theorem tally_append (l : List (κ × Int64)) (x : κ × Int64) :
    tally (l ++ [x]) = add (tally l) x.1 x.2 := by
  simp [tally]

variable {l : List (κ × Int64)}

theorem Fits.of_append {x : κ × Int64} (h : Fits (l ++ [x])) :
    Fits l ∧ 0 < x.2.toInt ∧ total l + x.2.toInt < 2 ^ 63 := by
  have hx := h.pos x (by simp)
  have ht := h.total_lt
  rw [total_append] at ht
  exact ⟨⟨fun y hy => h.pos y (by simp [hy]), by omega⟩, hx, ht⟩

theorem sumOf_nonneg (hpos : ∀ x ∈ l, 0 < x.2.toInt) (k : κ) : 0 ≤ sumOf l k := by
  refine sum_nonneg fun a ha => ?_
  obtain ⟨x, hx, rfl⟩ := mem_map.1 ha
  have := hpos x hx
  split <;> omega

theorem sumOf_le_total (hpos : ∀ x ∈ l, 0 < x.2.toInt) (k : κ) : sumOf l k ≤ total l := by
  refine sum_le_sum fun x hx => ?_
  have := hpos x hx
  split <;> omega

/-- What a tally holds under a key: nothing if no amount is there, and their sum otherwise. -/
theorem getElem?_tally (h : Fits l) (k : κ) :
    (tally l)[k]? = if sumOf l k = 0 then none else some (Int64.ofInt (sumOf l k)) := by
  -- the list is taken apart at its end, where the loop has just been
  induction l using List.reverseRecOn with
  | nil => simp [tally, sumOf]
  | append_singleton l x ih =>
    obtain ⟨hl, hx, hfit⟩ := h.of_append
    have hnonneg := sumOf_nonneg hl.pos k
    have hle := sumOf_le_total hl.pos k
    rw [tally_append, add, OrdMap.getElem?_insert', sumOf_append]
    by_cases hk : x.1 = k
    · subst hk
      have hval : ((tally l)[x.1]?).getD 0 = Int64.ofInt (sumOf l x.1) := by
        rw [ih hl]
        split_ifs with h0
        · rw [h0]
          rfl
        · rfl
      have hsum : Int64.ofInt (sumOf l x.1) + x.2 = Int64.ofInt (sumOf l x.1 + x.2.toInt) := by
        apply Int64.toInt_inj.1
        have hof := Int64.toInt_ofInt_of_le (n := sumOf l x.1) (by omega) (by omega)
        rw [MachineInt.toInt_add (by omega) (by omega), hof,
          Int64.toInt_ofInt_of_le (by omega) (by omega)]
      rw [if_pos rfl, if_pos rfl, if_neg (by omega), hval, hsum]
    · rw [if_neg hk, if_neg hk, Int.add_zero, ih hl]

theorem toInt_getD_tally (h : Fits l) (k : κ) : (((tally l)[k]?).getD 0).toInt = sumOf l k := by
  have h₁ := sumOf_nonneg h.pos k
  have h₂ := sumOf_le_total h.pos k
  have h₃ := h.total_lt
  rw [getElem?_tally h]
  split
  · rename_i h0
    rw [h0]
    rfl
  · exact Int64.toInt_ofInt_of_le (by omega) (by omega)

/-- Adding to a tally does not overflow as long as the total fits. -/
theorem exact_add {k : κ} {a : Int64} (h : Fits (l ++ [(k, a)])) :
    (MachineInt.Op.add (((tally l)[k]?).getD 0) a).Exact := by
  obtain ⟨hl, ha, hfit⟩ := h.of_append
  have hval := toInt_getD_tally hl k
  have hnonneg := sumOf_nonneg hl.pos k
  have hle := sumOf_le_total hl.pos k
  dsimp only at ha hfit
  exact .add (by omega) (by omega)

/-- Two lists have one tally exactly when they have the same sums. -/
theorem tally_inj {l' : List (κ × Int64)} (h : Fits l) (h' : Fits l') :
    tally l = tally l' ↔ ∀ k, sumOf l k = sumOf l' k := by
  refine ⟨fun heq k => ?_, fun hsum => OrdMap.ext' fun k => ?_⟩
  · have hget := getElem?_tally h k
    rw [heq, getElem?_tally h' k] at hget
    have h₁ := sumOf_nonneg h.pos k
    have h₂ := sumOf_le_total h.pos k
    have h₃ := h.total_lt
    have h₁' := sumOf_nonneg h'.pos k
    have h₂' := sumOf_le_total h'.pos k
    have h₃' := h'.total_lt
    split at hget
    · split at hget
      · omega
      · cases hget
    · split at hget
      · cases hget
      · have hint := congrArg Int64.toInt (Option.some.inj hget)
        rw [Int64.toInt_ofInt_of_le (by omega) (by omega),
          Int64.toInt_ofInt_of_le (by omega) (by omega)] at hint
        exact hint.symm
  · rw [getElem?_tally h, getElem?_tally h', hsum]

/-- The sums over the keys of a list add up to its total. -/
theorem sum_sumOf {S : Finset κ} (hS : ∀ x ∈ l, x.1 ∈ S) : ∑ k ∈ S, sumOf l k = total l := by
  induction l with
  | nil => simp [sumOf, total]
  | cons x l ih =>
    have hl : ∀ y ∈ l, y.1 ∈ S := fun y hy => hS y (mem_cons_of_mem x hy)
    have hx : x.1 ∈ S := hS x (mem_cons_self ..)
    have hstep : ∀ k ∈ S, sumOf (x :: l) k = (if x.1 = k then x.2.toInt else 0) + sumOf l k := by
      intro k _
      rw [sumOf, map_cons, sum_cons]
      rfl
    rw [Finset.sum_congr rfl hstep, Finset.sum_add_distrib, Finset.sum_ite_eq, if_pos hx, ih hl,
      total, total, map_cons, sum_cons]

theorem total_eq_of_sumOf_eq {l' : List (κ × Int64)} (h : ∀ k, sumOf l k = sumOf l' k) :
    total l = total l' := by
  let S : Finset κ := (l.map Prod.fst ++ l'.map Prod.fst).toFinset
  have hl : ∀ x ∈ l, x.1 ∈ S := fun x hx =>
    mem_toFinset.2 (mem_append_left _ (mem_map_of_mem hx))
  have hl' : ∀ x ∈ l', x.1 ∈ S := fun x hx =>
    mem_toFinset.2 (mem_append_right _ (mem_map_of_mem hx))
  rw [← sum_sumOf hl, ← sum_sumOf hl', Finset.sum_congr rfl fun k _ => h k]

theorem sumOf_eq_zero {k : κ} (h : ∀ x ∈ l, x.1 ≠ k) : sumOf l k = 0 := by
  refine sum_eq_zero fun a ha => ?_
  obtain ⟨x, hx, rfl⟩ := mem_map.1 ha
  rw [if_neg (h x hx)]

/-- In a list without repeated keys, a key has the one amount that stands with it. -/
theorem sumOf_of_mem (hnodup : (l.map Prod.fst).Nodup) {k : κ} {a : Int64} (h : (k, a) ∈ l) :
    sumOf l k = a.toInt := by
  induction l with
  | nil => cases h
  | cons x l ih =>
    obtain ⟨hx, hl⟩ := nodup_cons.1 (map_cons ▸ hnodup)
    have hcons : sumOf (x :: l) k = (if x.1 = k then x.2.toInt else 0) + sumOf l k := rfl
    rw [hcons]
    rcases mem_cons.1 h with rfl | h
    · have hrest : sumOf l k = 0 := by
        refine sumOf_eq_zero fun y hy heq => hx ?_
        exact mem_map.2 ⟨y, hy, heq⟩
      rw [if_pos rfl, hrest, Int.add_zero]
    · have hne : x.1 ≠ k := fun heq => hx (mem_map.2 ⟨(k, a), h, heq.symm⟩)
      rw [if_neg hne, ih hl h, Int.zero_add]

theorem sumOf_toList_tally (h : Fits l) (k : κ) : sumOf (tally l).toList k = sumOf l k := by
  have hget := getElem?_tally h k
  by_cases h0 : sumOf l k = 0
  · rw [if_pos h0] at hget
    rw [h0]
    refine sumOf_eq_zero ?_
    rintro ⟨k', a⟩ hmem rfl
    rw [(OrdMap.mem_toList _ _ _).1 hmem] at hget
    cases hget
  · rw [if_neg h0] at hget
    have h₁ := sumOf_nonneg h.pos k
    have h₂ := sumOf_le_total h.pos k
    have h₃ := h.total_lt
    rw [sumOf_of_mem (OrdMap.nodup_keys_toList _) ((OrdMap.mem_toList _ _ _).2 hget),
      Int64.toInt_ofInt_of_le (by omega) (by omega)]

theorem total_toList_tally (h : Fits l) : total (tally l).toList = total l :=
  total_eq_of_sumOf_eq (sumOf_toList_tally h)

theorem pos_of_mem_toList_tally (h : Fits l) {x : κ × Int64} (hx : x ∈ (tally l).toList) :
    0 < x.2.toInt := by
  have hget := getElem?_tally h x.1
  rw [(OrdMap.mem_toList (tally l) x.1 x.2).1 hx] at hget
  have h₁ := sumOf_nonneg h.pos x.1
  have h₂ := sumOf_le_total h.pos x.1
  have h₃ := h.total_lt
  split_ifs at hget
  · rw [Option.some.inj hget, Int64.toInt_ofInt_of_le (by omega) (by omega)]
    omega

/-- Leaving out terms that are zero does not change a sum. -/
theorem sum_filter_pos {α : Type} (f : α → Int) (c : α → Bool) (l : List α)
    (h : ∀ x ∈ l, c x = false → f x = 0) : ((l.filter c).map f).sum = (l.map f).sum := by
  induction l with
  | nil => rfl
  | cons x l ih =>
    have hl := ih fun y hy => h y (mem_cons_of_mem x hy)
    cases hc : c x with
    | true => rw [filter_cons_of_pos hc, map_cons, map_cons, sum_cons, sum_cons, hl]
    | false =>
      rw [filter_cons_of_neg (by rw [hc]; decide), map_cons, sum_cons, hl,
        h x (mem_cons_self ..) hc, Int.zero_add]

/-- A running total of machine amounts is the total, as long as it fits. -/
theorem toInt_foldl_add {α : Type} {f : α → Int64} {l : List α} {t : Int64} (ht : 0 ≤ t.toInt)
    (hnonneg : ∀ x ∈ l, 0 ≤ (f x).toInt)
    (hfit : t.toInt + (l.map fun x => (f x).toInt).sum < 2 ^ 63) :
    (l.foldl (fun t x => t + f x) t).toInt = t.toInt + (l.map fun x => (f x).toInt).sum := by
  induction l generalizing t with
  | nil => simp
  | cons x l ih =>
    have hx := hnonneg x (mem_cons_self ..)
    have hl : ∀ y ∈ l, 0 ≤ (f y).toInt := fun y hy => hnonneg y (mem_cons_of_mem x hy)
    have hrest := MachineInt.sum_map_nonneg hl
    rw [map_cons, sum_cons] at hfit ⊢
    have hadd : (t + f x).toInt = t.toInt + (f x).toInt :=
      MachineInt.toInt_add (by omega) (by omega)
    rw [foldl_cons, ih (by omega) hl (by omega), hadd]
    omega

/-- A running total from zero. -/
theorem toInt_foldl_add_zero {α : Type} {f : α → Int64} {l : List α}
    (hnonneg : ∀ x ∈ l, 0 ≤ (f x).toInt) (hfit : (l.map fun x => (f x).toInt).sum < 2 ^ 63) :
    (l.foldl (fun t x => t + f x) 0).toInt = (l.map fun x => (f x).toInt).sum := by
  have hzero : (0 : Int64).toInt = 0 := Int64.toInt_zero
  rw [toInt_foldl_add hzero.ge hnonneg (by omega), hzero, Int.zero_add]

end Tally

end Obtcd
