import Obtcd.Mining.BlueprintWeight

/-!
# Cutting a plan to its budget

`BuildBudgetedBlueprint` builds the blueprint of a whole plan, weighs it, and takes inputs off the
end until it is within both limits.  It returns the blueprint of the longest beginning of the plan
that is within them: every longer one has been built and found too heavy, and weights only grow with
the number of inputs, so that nothing shorter could have been too heavy either.

The loop looks at the whole plan first.  An input that is missing from the view, or spent, or whose
refund would be negative, ends it at once, even if that input would have been cut off anyway
(`missing_input_ends_loop`).
-/

namespace Obtcd

open List

namespace Mining

/-! ## Weights -/

variable {r : REAPParams} {v : UtxoViewpoint} {plan : REAPPlan} (maxTxWeight : Int)

theorem isBlueprint_iff (hlen : plan.inputs.length < 2 ^ 63) {tx : MsgTx} {plan' : REAPPlan} :
    IsBlueprint v r plan tx plan' ↔ Spendable r v plan.inputs ∧ plan' = normalized r v plan ∧
      tx = blueprintTx r plan.height plan.inputs (plan.inputs.filterMap v.unspent) := by
  rw [IsBlueprint, normalizePlan_iff]
  constructor
  · rintro ⟨⟨hall, rfl⟩, h⟩
    have hlen' : (normalized r v plan).inputs.length < 2 ^ 63 := hlen
    exact ⟨hall, rfl, (eq_blueprintTx hlen' h).2⟩
  · rintro ⟨hall, rfl, rfl⟩
    exact ⟨⟨hall, rfl⟩, buildBlueprint_normalized hlen hall⟩

/-- A blueprint does not get lighter when inputs are appended. -/
theorem blueprintSize_le_of_append (height : Int32) {ops t : List OutPoint}
    (hall : Spendable r v (ops ++ t)) :
    blueprintSize height ops.length (totalsOf r (ops.filterMap v.unspent)).refundByScript ≤
      blueprintSize height (ops ++ t).length
        (totalsOf r ((ops ++ t).filterMap v.unspent)).refundByScript := by
  induction t using List.reverseRecOn with
  | nil => rw [append_nil]
  | append_singleton t op ih =>
    rw [← append_assoc] at hall ⊢
    obtain ⟨hinit, hlast⟩ := forall_mem_append.1 hall
    obtain ⟨e, he, -⟩ := hlast op (mem_singleton_self op)
    have hentries : [op].filterMap v.unspent = [e] := by
      rw [filterMap_cons, he, filterMap_nil]
    rw [filterMap_append, hentries, length_append, length_singleton]
    exact Nat.le_trans (ih hinit) (blueprintSize_le_append ..)

theorem weight_le_of_cut_le {j k : Nat} (hjk : j ≤ k) (hlen : plan.inputs.length < 2 ^ 63)
    {tx tx' : MsgTx} {p p' : REAPPlan} (h : IsBlueprint v r (plan.cut j) tx p)
    (h' : IsBlueprint v r (plan.cut k) tx' p') :
    getTransactionWeight tx ≤ getTransactionWeight tx' := by
  have hcut : ∀ i, (plan.cut i).inputs.length < 2 ^ 63 := fun i =>
    Nat.lt_of_le_of_lt (length_take_le' ..) hlen
  obtain ⟨-, -, rfl⟩ := (isBlueprint_iff (hcut j)).1 h
  obtain ⟨hall, -, rfl⟩ := (isBlueprint_iff (hcut k)).1 h'
  rw [getTransactionWeight_blueprintTx r _ (hcut j), getTransactionWeight_blueprintTx r _ (hcut k)]
  obtain ⟨t, ht⟩ : (plan.cut j).inputs <+: (plan.cut k).inputs :=
    take_prefix_take_left hjk
  rw [← ht] at hall ⊢
  exact Nat.mul_le_mul_left 4 (blueprintSize_le_of_append plan.height hall)

/-! ## The loop -/

/-- The blueprint of the first `k` inputs of a plan, with the plan it is the blueprint of. -/
def blueprintOf (r : REAPParams) (v : UtxoViewpoint) (plan : REAPPlan) (k : Nat) :
    MsgTx × REAPPlan :=
  (blueprintTx r plan.height (plan.inputs.take k) ((plan.inputs.take k).filterMap v.unspent),
    normalized r v (plan.cut k))

/-- The number of inputs is fuel enough: with more, the loop does the same. -/
theorem budgetLoop_eq_of_le {fuel fuel' : Nat} (hne : plan.inputs ≠ [])
    (h : plan.inputs.length ≤ fuel) (h' : plan.inputs.length ≤ fuel') :
    budgetLoop v r maxTxWeight fuel plan = budgetLoop v r maxTxWeight fuel' plan := by
  induction fuel generalizing fuel' plan with
  | zero => exact absurd (length_eq_zero_iff.1 (by omega)) hne
  | succ fuel ih =>
    have hpos := length_pos_iff.2 hne
    obtain ⟨fuel', rfl⟩ : ∃ n, fuel' = n + 1 := ⟨fuel' - 1, by omega⟩
    have hrest : plan.inputs.length ≠ 1 →
        budgetLoop v r maxTxWeight fuel { plan with inputs := plan.inputs.dropLast } =
          budgetLoop v r maxTxWeight fuel' { plan with inputs := plan.inputs.dropLast } := by
      intro hone
      have hdrop : plan.inputs.dropLast.length = plan.inputs.length - 1 := length_dropLast
      refine ih (ne_nil_of_length_pos ?_) ?_ ?_ <;> dsimp only <;> omega
    rw [budgetLoop, budgetLoop]
    by_cases hone : plan.inputs.length = 1
    · simp only [hone, if_true]
    · simp only [hone, if_false, hrest hone]

/-- If the loop finds nothing, no beginning of the plan is within the limits. -/
theorem not_withinLimits_of_budgetLoop (hlen : plan.inputs.length < 2 ^ 63)
    (hall : Spendable r v plan.inputs) {fuel : Nat} (hfuel : plan.inputs.length ≤ fuel)
    (hnone : ∀ x, budgetLoop v r maxTxWeight fuel plan ≠ .ok (some x)) {k : Nat} (hk : 0 < k)
    (hk' : k ≤ plan.inputs.length) {tx : MsgTx} {plan' : REAPPlan}
    (hbp : IsBlueprint v r (plan.cut k) tx plan') : ¬ WithinLimits r maxTxWeight tx := by
  induction fuel generalizing plan with
  | zero => omega
  | succ fuel ih =>
    have hwhole := (isBlueprint_iff hlen).2 ⟨hall, rfl, rfl⟩
    rcases budgetLoop_succ maxTxWeight fuel hwhole with ⟨-, heq⟩ | ⟨hout, heq⟩
    · exact absurd heq (hnone _)
    by_cases hlast : k = plan.inputs.length
    · rw [hlast, cut_length] at hbp
      rwa [← hwhole.unique hbp]
    -- the last input goes, and the rest is a plan with the same beginnings
    rw [if_neg (by omega)] at heq
    have hcut : (plan.cut (plan.inputs.length - 1)).inputs.length = plan.inputs.length - 1 := by
      rw [REAPPlan.cut, length_take]
      omega
    rw [heq] at hnone
    refine ih (by omega) (fun op hop => hall op (mem_of_mem_take hop)) (by omega) hnone (by omega) ?_
    rwa [cut_cut (by omega)]

/-! ## The result -/

/-- The taxes and the refunds of some entries, each added up as the source does. -/
theorem totalsOf_eq_foldl (es : List UtxoEntry) :
    (totalsOf r es).taxTotal = es.foldl (fun t e => t + taxFor r e.amount) 0 ∧
      (totalsOf r es).refundTotal = es.foldl (fun t e => t + refundFor r e.amount) 0 := by
  induction es using List.reverseRecOn with
  | nil => exact ⟨rfl, rfl⟩
  | append_singleton es e ih =>
    rw [totalsOf_append, Totals.entry_taxTotal, Totals.entry_refundTotal, foldl_append,
      foldl_append, ih.1, ih.2]
    exact ⟨rfl, rfl⟩

/-- A transaction and a plan are for the longest beginning, of `k` inputs, that is within the
limits, and the plan has the totals of these inputs. -/
structure LongestWithin (v : UtxoViewpoint) (r : REAPParams) (maxTxWeight : Int) (plan : REAPPlan)
    (k : Nat) (tx : MsgTx) (plan' : REAPPlan) : Prop where
  pos : 0 < k
  le_length : k ≤ plan.inputs.length
  blueprint : IsBlueprint v r (plan.cut k) tx plan'
  inputs : plan'.inputs = plan.inputs.take k
  within : WithinLimits r maxTxWeight tx
  longest : ∀ j tx' p, k < j → j ≤ plan.inputs.length → IsBlueprint v r (plan.cut j) tx' p →
    ¬ WithinLimits r maxTxWeight tx'
  taxTotal : plan'.taxTotal =
    ((plan.inputs.take k).filterMap v.unspent).foldl (fun t e => t + taxFor r e.amount) 0
  refundTotal : plan'.refundTotal =
    ((plan.inputs.take k).filterMap v.unspent).foldl (fun t e => t + refundFor r e.amount) 0
  totalOut : totalOut tx.txOut = plan'.refundTotal

/-- The outputs of a blueprint pay the refunds. -/
theorem totalOut_blueprintTx (height : Int32) (ops : List OutPoint) (es : List UtxoEntry) :
    totalOut (blueprintTx r height ops es).txOut = (totalsOf r es).refundTotal := by
  have hsum := totalOut_eq_sumValues (totalsOf r es).refundByScript
  rw [sumValues_totalsOf] at hsum
  rw [blueprintTx, totalOut, foldl_append, ← totalOut, hsum]
  simp

section Spec

variable (hlen : plan.inputs.length < 2 ^ 63)

include hlen

theorem longestWithin_of_eq_some {tx : MsgTx} {plan' : REAPPlan}
    (h : buildBudgetedBlueprint plan v r maxTxWeight = .ok (some (tx, plan'))) :
    ∃ k, LongestWithin v r maxTxWeight plan k tx plan' := by
  rw [buildBudgetedBlueprint] at h
  have hne : plan.inputs ≠ [] := by
    rintro hnil
    rw [hnil] at h
    cases h
  obtain ⟨k, hk, hpos, hbp, hin, hmax⟩ := budgetLoop_spec h
  have hcut : (plan.cut k).inputs.length < 2 ^ 63 :=
    Nat.lt_of_le_of_lt (length_take_le' ..) hlen
  obtain ⟨-, hplan, htx⟩ := (isBlueprint_iff hcut).1 hbp
  have hsums := totalsOf_eq_foldl (r := r) ((plan.inputs.take k).filterMap v.unspent)
  refine ⟨k, hpos hne, hk, hbp, by rw [hplan]; rfl, hin, hmax, ?_, ?_, ?_⟩
  · rw [hplan, ← hsums.1]
    rfl
  · rw [hplan, ← hsums.2]
    rfl
  · rw [htx, totalOut_blueprintTx, hplan]
    rfl

/-- **What `BuildBudgetedBlueprint` returns.**  The number of inputs bounds its rounds.  A transaction
it returns is the blueprint of the longest beginning of the plan within the limits.  Weights only grow
with the beginning.  Without a transaction, no beginning is within the limits, unless some input of
the plan cannot be spent at all. -/
theorem buildBudgetedBlueprint_longest :
    (plan.inputs ≠ [] → ∀ fuel, plan.inputs.length ≤ fuel →
        budgetLoop v r maxTxWeight fuel plan = buildBudgetedBlueprint plan v r maxTxWeight) ∧
      (∀ tx plan', buildBudgetedBlueprint plan v r maxTxWeight = .ok (some (tx, plan')) →
        ∃ k, LongestWithin v r maxTxWeight plan k tx plan') ∧
      (∀ j k tx p tx' p', j ≤ k → IsBlueprint v r (plan.cut j) tx p →
        IsBlueprint v r (plan.cut k) tx' p' →
        getTransactionWeight tx ≤ getTransactionWeight tx') ∧
      ((∀ x, buildBudgetedBlueprint plan v r maxTxWeight ≠ .ok (some x)) →
        Spendable r v plan.inputs → ∀ k tx p, 0 < k → k ≤ plan.inputs.length →
          IsBlueprint v r (plan.cut k) tx p → ¬ WithinLimits r maxTxWeight tx) := by
  refine ⟨fun hne fuel hfuel => budgetLoop_eq_of_le maxTxWeight hne hfuel (Nat.le_refl _),
    fun tx plan' => longestWithin_of_eq_some maxTxWeight hlen,
    fun j k tx p tx' p' hjk => weight_le_of_cut_le hjk hlen, ?_⟩
  intro hnone hall k tx p hk hk' hbp
  exact not_withinLimits_of_budgetLoop maxTxWeight hlen hall (Nat.le_refl _) hnone hk hk' hbp

end Spec

namespace Sample

/-- The parameters of the sample with a budget that a second input would exceed. -/
def tightParams : REAPParams := { estimateParams with weightBudget := 700 }

/-- An outpoint that the view does not have. -/
def missingOp : OutPoint := ⟨doubleHashRaw [3], 0⟩

end Sample

open Sample

theorem buildBudgetedBlueprint_longest_tightParams :
    ∃ x, buildBudgetedBlueprint ⟨[op, secondOp], 0, 0, 200⟩ estimateView
        tightParams 4000000 = .ok (some x) ∧
      ∃ k, LongestWithin estimateView tightParams 4000000
        ⟨[op, secondOp], 0, 0, 200⟩ k x.1 x.2 := by
  have hrun : buildBudgetedBlueprint ⟨[op, secondOp], 0, 0, 200⟩ estimateView
      tightParams 4000000 = .ok (some (blueprintOf tightParams estimateView
        ⟨[op, secondOp], 0, 0, 200⟩ 1)) := by decide +kernel
  exact ⟨_, hrun, (buildBudgetedBlueprint_longest 4000000 (by decide)).2.1 _ _ hrun⟩

/-- The first input alone is within the limits, but the second is missing: there is an error. -/
theorem missing_input_ends_loop :
    (∀ x, buildBudgetedBlueprint ⟨[op, missingOp], 0, 0, 200⟩ estimateView
        tightParams 4000000 ≠ .ok (some x)) ∧
      ∃ tx p, IsBlueprint estimateView tightParams
          (REAPPlan.cut ⟨[op, missingOp], 0, 0, 200⟩ 1) tx p ∧
        WithinLimits tightParams 4000000 tx := by
  have hrun : buildBudgetedBlueprint ⟨[op, missingOp], 0, 0, 200⟩
      estimateView tightParams 4000000 =
        .error (.other ("missing utxo in view: " ++ missingOp.string)) := by decide +kernel
  refine ⟨fun x => by rw [hrun]; simp, (blueprintOf tightParams estimateView
    ⟨[op], 0, 0, 200⟩ 1).1, (blueprintOf tightParams estimateView
    ⟨[op], 0, 0, 200⟩ 1).2, ⟨by decide +kernel, by decide +kernel⟩, fun _ => ?_, fun _ => ?_⟩
  · decide +kernel
  · decide +kernel

end Mining

end Obtcd
