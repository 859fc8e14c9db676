import Obtcd.Blockchain.ReapAccounting
import Obtcd.Mining.Reap

/-!
# What the miner builds is valid

`maybeBuildREAPTx` follows the consensus rules through code of its own.  This module proves that the
two agree: a transaction it returns passes every REAP rule at the height it was built for
(`maybeBuildREAPTx_valid`).

The proof goes through what the steps keep.  Selection takes a beginning of the list of expired
candidates and stays within the tier limits (`selectLoop_spec`); cutting inputs off the end does not
change either (`budgetLoop_spec`).  The transaction that is built has one input for each, an output
for each script that is owed something, and the marker (`buildBlueprint_spec`).

`Ready` is what is assumed of the index and the view, and `Built` what is then known of the
transaction (`maybeBuildREAPTx_spec`).  No later proof opens the code of the miner: each rule has a
lemma of its own, which follows from `Built`.  The sums of a rule are over what its inputs are owed,
and `Blueprint` pays the same pairs of scripts and amounts, added up script by script.
-/

namespace Obtcd

open UtxoEntry Reap ExpiryIndex.ExpiryParams Txscript List

namespace Mining

open Chaincfg (Params ExpiryParams getExpiryParams)

/-! ## Parameters -/

/-- The miner's parameters are the consensus ones. -/
structure REAPParams.Matches (r : REAPParams) (p : ExpiryParams) : Prop where
  maxInputs : r.maxInputs = p.reapMaxInputs
  dustMaxInputs : r.dustMaxInputs = p.reapDustMaxInputs
  weightBudget : r.weightBudget = p.reapMaxWeight
  taxNum : r.taxNum = p.reapTaxNumerator
  taxDen : r.taxDen = p.reapTaxDenominator
  dust : r.dustThresholdSat = p.reapDustThresholdSat

variable {p : ExpiryParams}

theorem defaultREAPParamsForNet_matches {params : Params} (h : getExpiryParams params = some p) :
    (defaultREAPParamsForNet params).Matches p := by
  have hp := Chaincfg.getExpiryParams_sane h
  have hmax : p.reapMaxInputs > 0 := hp.maxInputs_pos
  have hdust : p.reapDustMaxInputs > 0 := lt_of_lt_of_le hp.maxInputs_pos hp.maxInputs_le
  rw [defaultREAPParamsForNet, h]
  dsimp only
  rw [if_pos hmax, if_pos hdust, hp.weight, hp.numerator, hp.denominator, hp.dust]
  repeat' split
  all_goals exact ⟨rfl, rfl, hp.weight.symm, hp.numerator.symm, hp.denominator.symm, hp.dust.symm⟩

section Matches

variable {r : REAPParams} (hm : r.Matches p)

include hm

theorem taxForValue_eq (v : Int64) : taxForValue v r = reapTaxForValue v p := by
  rw [taxForValue, reapTaxForValue, hm.taxNum, hm.taxDen]

theorem applyDustRule_eq (value refund tax : Int64) :
    applyDustRule value refund tax r.dustThresholdSat = applyReapDustRule value refund tax p := by
  rw [applyDustRule, applyReapDustRule, hm.dust]

theorem isDustTierAmount_eq (amount : Int64) :
    isDustTierAmount amount r.dustThresholdSat = isReapDustTierAmount amount p := by
  rw [isDustTierAmount, isReapDustTierAmount, hm.dust]

/-! ## Selection -/

/-- A candidate that may be selected is one that consensus counts. -/
theorem countTier_of_canSelect (hpos : 0 < p.reapDustMaxInputs) {amount : Int64} {d n : Nat}
    (h : canSelectTierCandidate (isReapDustTierAmount amount p) d n r = true) :
    countTier p amount d n =
      .ok (if isReapDustTierAmount amount p then (d + 1, n) else (d, n + 1)) := by
  rw [canSelectTierCandidate, hm.dustMaxInputs, hm.maxInputs, if_neg (not_le.2 hpos)] at h
  split at h
  · cases h
  rename_i hcaps
  have hcaps' := hcaps
  rw [Bool.or_eq_true, decide_eq_true_iff, decide_eq_true_iff, not_or] at hcaps'
  rw [countTier, if_neg (by simp [hcaps'.1]), if_neg (by simp [hcaps'.2]), if_neg hcaps]

end Matches

/-- Consensus counts a list of amounts without reaching a cap, after so many of each tier. -/
def TiersOk (p : ExpiryParams) : Nat → Nat → List Int64 → Prop
  | _, _, [] => True
  | d, n, a :: as => ∃ d' n', countTier p a d n = .ok (d', n') ∧ TiersOk p d' n' as

theorem TiersOk.take {d n : Nat} {as : List Int64} (h : TiersOk p d n as) (k : Nat) :
    TiersOk p d n (as.take k) := by
  induction as generalizing d n k with
  | nil => simpa using h
  | cons a as ih =>
    cases k with
    | zero => trivial
    | succ k =>
      obtain ⟨d', n', hcount, hrest⟩ := h
      exact ⟨d', n', hcount, ih hrest k⟩

variable {r : REAPParams}

/-- Selection takes candidates from the start, as many as the caps allow or fewer. -/
theorem selectLoop_spec (hm : r.Matches p) (hpos : 0 < p.reapDustMaxInputs) (d n : Nat)
    (plan : REAPPlan) (cs : List ReapPrefixCandidate) :
    ∃ k, (selectLoop r d n plan cs).inputs = plan.inputs ++ (cs.take k).map (·.outPoint) ∧
      (selectLoop r d n plan cs).height = plan.height ∧
      TiersOk p d n ((cs.take k).map (·.amount)) := by
  induction cs generalizing d n plan with
  | nil => exact ⟨0, by simp [selectLoop], rfl, trivial⟩
  | cons c cs ih =>
    have hstop : ∃ k, plan.inputs = plan.inputs ++ ((c :: cs).take k).map (·.outPoint) ∧
        plan.height = plan.height ∧ TiersOk p d n (((c :: cs).take k).map (·.amount)) :=
      ⟨0, by simp, rfl, trivial⟩
    rw [selectLoop, isDustTierAmount_eq hm]
    dsimp only
    split
    · exact hstop
    rename_i hcan
    split
    · exact hstop
    have hselect : canSelectTierCandidate (isReapDustTierAmount c.amount p) d n r = true := by
      simpa using hcan
    have hcount := countTier_of_canSelect hm hpos hselect
    rw [show (if isReapDustTierAmount c.amount p then (d + 1, n) else (d, n + 1)) =
        (if isReapDustTierAmount c.amount p then d + 1 else d,
          if isReapDustTierAmount c.amount p then n else n + 1) by split <;> rfl] at hcount
    generalize (if isReapDustTierAmount c.amount p then d + 1 else d) = d' at hcount ⊢
    generalize (if isReapDustTierAmount c.amount p then n else n + 1) = n' at hcount ⊢
    split
    · exact ⟨1, rfl, rfl, _, _, hcount, trivial⟩
    · obtain ⟨k, hinputs, hheight, htiers⟩ := ih d' n' (plan.pick c r)
      exact ⟨k + 1, hinputs.trans (append_assoc ..), hheight, _, _, hcount, htiers⟩

variable {cs : List ReapPrefixCandidate}

theorem selectPrefixCandidates_spec (hm : r.Matches p) (hpos : 0 < p.reapDustMaxInputs)
    {tip : Int32} {plan : REAPPlan} (h : selectPrefixCandidates tip cs r = .ok plan) :
    ∃ k, plan.inputs = (cs.take k).map (·.outPoint) ∧ plan.height = tip ∧
      TiersOk p 0 0 ((cs.take k).map (·.amount)) := by
  rw [selectPrefixCandidates] at h
  split_ifs at h
  cases h
  exact selectLoop_spec hm hpos 0 0 ⟨[], 0, 0, tip⟩ cs

theorem prefixCandidateLimit_le (hm : r.Matches p) (hp : p.Sane) :
    r.prefixCandidateLimit.toNat ≤ 2048 := by
  have h₁ := hp.maxInputs_pos
  have h₂ := hp.maxInputs_le
  have h₃ := hp.dustMaxInputs_le
  rw [REAPParams.prefixCandidateLimit, hm.dustMaxInputs, hm.maxInputs, if_neg (by omega),
    MachineInt.wrapInt_eq (by omega) (by omega)]
  omega

/-! ## Totals -/

/-- The refund of an amount and the tax on it, as `Totals.entry` has them. -/
theorem applyDustRule_tax (hm : r.Matches p) (hp : p.Sane) {v : Int64} (hv : InRange v) :
    (applyDustRule v (v - taxForValue v r) (taxForValue v r) r.dustThresholdSat).1 =
        reapRefund p v ∧
      (applyDustRule v (v - taxForValue v r) (taxForValue v r) r.dustThresholdSat).2.toInt =
        v.toInt - (reapRefund p v).toInt := by
  have hadd := toInt_reapTax_add hp hv
  rw [taxForValue_eq hm, applyDustRule_eq hm]
  refine ⟨rfl, ?_⟩
  change (reapTax p v).toInt = _
  omega

variable {v : UtxoViewpoint} {ops : List OutPoint}

/-- An entry that a blueprint can spend: its refund is not negative. -/
def Refundable (r : REAPParams) (e : UtxoEntry) : Prop := ¬ e.amount - taxForValue e.amount r < 0

/-- Every input is unspent in the view and refundable. -/
def Spendable (r : REAPParams) (v : UtxoViewpoint) (ops : List OutPoint) : Prop :=
  ∀ op ∈ ops, ∃ e, v.unspent op = some e ∧ Refundable r e

/-- The totals of some entries. -/
def totalsOf (r : REAPParams) (es : List UtxoEntry) : Totals := es.foldl (Totals.entry r) {}

/-- The loop over the inputs succeeds exactly when all are spendable, and has their totals. -/
theorem foldlM_input_iff {t t' : Totals} : ops.foldlM (Totals.input r v) t = .ok t' ↔
      Spendable r v ops ∧ t' = (ops.filterMap v.unspent).foldl (Totals.entry r) t := by
  induction ops generalizing t with
  | nil => simp [Spendable, eq_comm, pure, Except.pure]
  | cons op ops ih =>
    rw [foldlM_cons, Totals.input, Spendable, forall_mem_cons]
    cases hget : v.unspent op with
    | none => simp [error_bind]
    | some e =>
      rw [filterMap_cons, hget, foldl_cons]
      simp only [Option.some.injEq, exists_eq_left']
      by_cases he : e.amount - taxForValue e.amount r < 0
      · simp [he, Refundable, error_bind]
      · rw [if_neg he, ok_bind, ih]
        simp [he, Refundable, Spendable]

section Totals

variable (hm : r.Matches p) (hp : p.Sane)

include hm hp

variable {es : List UtxoEntry}

/-- What the refunds add up to, by script: exactly the tally consensus makes of them. -/
theorem refundByScript_foldl (hes : ∀ e ∈ es, InRange e.amount) (t : Totals) :
    (es.foldl (Totals.entry r) t).refundByScript =
      (refundPairs p es).foldl (fun m x => Tally.add m x.1 x.2) t.refundByScript := by
  induction es generalizing t with
  | nil => rfl
  | cons e es ih =>
    obtain ⟨he, hrest⟩ := forall_mem_cons.1 hes
    have hrefund := (applyDustRule_tax hm hp he).1
    have hentry : (t.entry r e).refundByScript = if reapRefund p e.amount = 0 then t.refundByScript
        else Tally.add t.refundByScript e.pkScript (reapRefund p e.amount) := by
      rw [← hrefund]
      rfl
    -- a refund is never negative, so it is zero exactly when it is not positive
    have hnonneg := (refund_bounds hp he.1).1
    rw [← toInt_reapRefund hp he] at hnonneg
    rw [foldl_cons, ih hrest, hentry]
    by_cases hz : reapRefund p e.amount = 0
    · have hneg : decide (reapRefund p e.amount > 0) = false := by rw [hz]; decide
      rw [if_pos hz, refundPairs, refundPairs, map_cons, filter_cons_of_neg (by simpa using hneg)]
    · have hpos : decide (reapRefund p e.amount > 0) = true := by
        rw [decide_eq_true_iff, gt_iff_lt, Int64.lt_iff_toInt_lt, Int64.toInt_zero]
        have hne : (reapRefund p e.amount).toInt ≠ 0 := fun h0 =>
          hz (Int64.toInt_inj.1 (h0.trans Int64.toInt_zero.symm))
        omega
      rw [if_neg hz, refundPairs, refundPairs, map_cons,
        filter_cons_of_pos (by simpa using hpos), foldl_cons]

/-- The tax adds up to what is not refunded. -/
theorem taxTotal_foldl (hes : ∀ e ∈ es, InRange e.amount) {t : Totals} (ht : 0 ≤ t.taxTotal.toInt)
    (hsum : t.taxTotal.toInt + (es.map fun e => e.amount.toInt).sum < 2 ^ 63) :
    (es.foldl (Totals.entry r) t).taxTotal.toInt =
      t.taxTotal.toInt + (es.map fun e => e.amount.toInt).sum -
        (es.map fun e => (reapRefund p e.amount).toInt).sum := by
  induction es generalizing t with
  | nil => simp
  | cons e es ih =>
    obtain ⟨he, hrest⟩ := forall_mem_cons.1 hes
    have htax := (applyDustRule_tax hm hp he).2
    have hbounds := refund_bounds hp he.1
    rw [← toInt_reapRefund hp he] at hbounds
    have hle := MachineInt.sum_map_nonneg fun e he => (hrest e he).1
    simp only [map_cons, sum_cons] at hsum ⊢
    have hadd : (t.entry r e).taxTotal.toInt =
        t.taxTotal.toInt + (e.amount.toInt - (reapRefund p e.amount).toInt) := by
      show (t.taxTotal + (applyDustRule e.amount (e.amount - taxForValue e.amount r)
        (taxForValue e.amount r) r.dustThresholdSat).2).toInt = _
      rw [MachineInt.toInt_add (by rw [htax]; omega) (by rw [htax]; omega), htax]
    rw [foldl_cons, ih hrest (by omega) (by omega), hadd]
    omega

theorem taxTotal_eq (hes : ∀ e ∈ es, InRange e.amount)
    (hsum : (es.map fun e => e.amount.toInt).sum < 2 ^ 63) :
    (es.foldl (Totals.entry r) {}).taxTotal.toInt = (es.map fun e => e.amount.toInt).sum -
      (es.map fun e => (reapRefund p e.amount).toInt).sum := by
  have h0 : ({} : Totals).taxTotal.toInt = 0 := rfl
  rw [taxTotal_foldl hm hp hes (by rw [h0]) (by rwa [h0, Int.zero_add]), h0, Int.zero_add]

end Totals

/-! ## The transaction -/

variable {plan : REAPPlan}

/-- What `normalizePlan` makes of a plan. -/
def normalized (r : REAPParams) (v : UtxoViewpoint) (plan : REAPPlan) : REAPPlan :=
  { plan with
    taxTotal := (totalsOf r (plan.inputs.filterMap v.unspent)).taxTotal
    refundTotal := (totalsOf r (plan.inputs.filterMap v.unspent)).refundTotal }

theorem normalizePlan_iff {plan plan' : REAPPlan} : normalizePlan plan v r = .ok plan' ↔
      Spendable r v plan.inputs ∧ plan' = normalized r v plan := by
  rw [normalizePlan, bind_eq_ok]
  constructor
  · rintro ⟨t, ht, h⟩
    obtain ⟨hall, rfl⟩ := foldlM_input_iff.1 ht
    exact ⟨hall, (Except.ok.inj h).symm⟩
  · rintro ⟨hall, rfl⟩
    exact ⟨_, foldlM_input_iff.2 ⟨hall, rfl⟩, rfl⟩

/-- A plan with only its first `k` inputs. -/
def REAPPlan.cut (plan : REAPPlan) (k : Nat) : REAPPlan :=
  { plan with inputs := plan.inputs.take k }

/-- `tx` is the blueprint of a plan, and `plan'` is the plan with its totals recomputed. -/
def IsBlueprint (v : UtxoViewpoint) (r : REAPParams) (plan : REAPPlan) (tx : MsgTx)
    (plan' : REAPPlan) : Prop :=
  normalizePlan plan v r = .ok plan' ∧ buildBlueprint plan' v r = .ok tx

/-- A transaction within the budget and below the hard limit.  A limit that is not positive is not a
limit. -/
structure WithinLimits (r : REAPParams) (maxTxWeight : Int) (tx : MsgTx) : Prop where
  budget : 0 < r.weightBudget → (getTransactionWeight tx : Int) ≤ r.weightBudget.toInt
  hard : 0 < maxTxWeight → (getTransactionWeight tx : Int) < maxTxWeight

variable {tx : MsgTx} (maxTxWeight : Int)

/-- There is only one blueprint. -/
theorem IsBlueprint.unique {tx' : MsgTx} {plan₁ plan₂ : REAPPlan} (h : IsBlueprint v r plan tx plan₁)
    (h' : IsBlueprint v r plan tx' plan₂) : tx = tx' := by
  obtain rfl := Except.ok.inj (h.1.symm.trans h'.1)
  exact Except.ok.inj (h.2.symm.trans h'.2)

theorem cut_length : plan.cut plan.inputs.length = plan := by
  rw [REAPPlan.cut, take_length]

theorem dropLast_eq_cut :
    { plan with inputs := plan.inputs.dropLast } = plan.cut (plan.inputs.length - 1) := by
  rw [REAPPlan.cut, dropLast_eq_take]

theorem cut_cut {j k : Nat} (h : j ≤ k) : (plan.cut k).cut j = plan.cut j := by
  rw [REAPPlan.cut, REAPPlan.cut, REAPPlan.cut, take_take, Nat.min_eq_left h]

/-- One round over a plan that can be built. -/
theorem budgetLoop_succ (fuel : Nat) {plan' : REAPPlan} (h : IsBlueprint v r plan tx plan') :
    (WithinLimits r maxTxWeight tx ∧
        budgetLoop v r maxTxWeight (fuel + 1) plan = .ok (some (tx, plan'))) ∨
      (¬ WithinLimits r maxTxWeight tx ∧
        if plan.inputs.length = 1 then
          ∀ x, budgetLoop v r maxTxWeight (fuel + 1) plan ≠ .ok (some x)
        else budgetLoop v r maxTxWeight (fuel + 1) plan =
          budgetLoop v r maxTxWeight fuel (plan.cut (plan.inputs.length - 1))) := by
  rw [budgetLoop, h.1, ok_bind, h.2, ok_bind, dropLast_eq_cut]
  by_cases hhard : 0 < maxTxWeight ∧ maxTxWeight ≤ getTransactionWeight tx
  · refine Or.inr ⟨fun hin => absurd (hin.hard hhard.1) (Int.not_lt.2 hhard.2), ?_⟩
    simp only [hhard.1, hhard.2, gt_iff_lt, decide_true, Bool.and_self, if_true]
    split_ifs
    · simp
    · rfl
  · have hhard' : (decide (maxTxWeight > 0) && decide ((getTransactionWeight tx : Int) ≥ maxTxWeight)) =
        false := by simpa using hhard
    simp only [hhard', Bool.false_eq_true, if_false]
    by_cases hsoft : 0 < r.weightBudget ∧ r.weightBudget.toInt < getTransactionWeight tx
    · refine Or.inr ⟨fun hin => absurd (hin.budget hsoft.1) (Int.not_le.2 hsoft.2), ?_⟩
      simp only [hsoft.1, hsoft.2, decide_true, Bool.and_self, if_true]
      split_ifs
      · simp
      · rfl
    · have hsoft' : (decide (r.weightBudget > 0) &&
          decide ((getTransactionWeight tx : Int) > r.weightBudget.toInt)) = false := by
        simpa using hsoft
      simp only [hsoft', Bool.false_eq_true, if_false]
      refine Or.inl ⟨⟨fun hpos => ?_, fun hpos => ?_⟩, trivial⟩
      · by_contra hlt
        exact hsoft ⟨hpos, by omega⟩
      · by_contra hlt
        exact hhard ⟨hpos, by omega⟩

variable {maxTxWeight}

/-- What the loop returns is the blueprint of a beginning of the plan, the longest one within the
limits. -/
theorem budgetLoop_spec {fuel : Nat} {plan' : REAPPlan}
    (h : budgetLoop v r maxTxWeight fuel plan = .ok (some (tx, plan'))) :
    ∃ k ≤ plan.inputs.length, (plan.inputs ≠ [] → 0 < k) ∧ IsBlueprint v r (plan.cut k) tx plan' ∧
      WithinLimits r maxTxWeight tx ∧
      ∀ j tx' p, k < j → j ≤ plan.inputs.length → IsBlueprint v r (plan.cut j) tx' p →
        ¬ WithinLimits r maxTxWeight tx' := by
  induction fuel generalizing plan with
  | zero => cases h
  | succ fuel ih =>
    obtain ⟨normalized, hnorm, hrest⟩ := bind_eq_ok.1 (show _ >>= _ = _ by rwa [budgetLoop] at h)
    obtain ⟨tx₀, hbuild, -⟩ := bind_eq_ok.1 hrest
    have hwhole : IsBlueprint v r plan tx₀ normalized := ⟨hnorm, hbuild⟩
    rcases budgetLoop_succ maxTxWeight fuel hwhole with ⟨hin, heq⟩ | ⟨hout, heq⟩
    · cases Option.some.inj (Except.ok.inj (heq.symm.trans h))
      exact ⟨_, le_rfl, length_pos_iff.2, by rwa [cut_length], hin, fun j _ _ hj hj' => by omega⟩
    · split_ifs at heq with hone
      · exact absurd h (heq _)
      -- the last input goes, and the rest is a plan with the same beginnings
      rw [heq] at h
      obtain ⟨k, hk, hpos, hbp, hin, hmax⟩ := ih h
      have hcut : (plan.cut (plan.inputs.length - 1)).inputs.length = plan.inputs.length - 1 := by
        rw [REAPPlan.cut, length_take]
        omega
      rw [hcut] at hk hmax
      rw [cut_cut hk] at hbp
      refine ⟨k, by omega, fun hne => hpos (ne_nil_of_length_pos ?_), hbp, hin, ?_⟩
      · have := length_pos_iff.2 hne
        omega
      · intro j tx' p hj hj' hbp'
        by_cases hlast : j ≤ plan.inputs.length - 1
        · exact hmax j tx' p hj hlast (by rwa [cut_cut hlast])
        · obtain rfl : j = plan.inputs.length := by omega
          rw [cut_length] at hbp'
          rwa [← hwhole.unique hbp']

/-- A marker script that could be built. -/
theorem markerScript_spec {height : Int32} {count : Nat} {inputs : List OutPoint} {script : Bytes}
    (h : markerScript height count inputs = .ok script) :
    script = opReturn :: pushData (markerPayload height count inputs) ∧
      (markerPayload height count inputs).length ≤ maxScriptElementSize := by
  rw [markerScript] at h
  obtain ⟨s, hs, h⟩ := bind_eq_ok.1 h
  cases hs
  rw [addData] at h
  split_ifs at h with _ hlen
  exact ⟨(Except.ok.inj h).symm, not_lt.1 hlen⟩

/-- The refunds of some coins, with the scripts they go to. -/
def refundsOf (p : ExpiryParams) (coins : List SpentTxOut) : List (Bytes × Int64) :=
  (coins.map fun c => (c.pkScript, reapRefund p c.amount)).filter fun x => x.2 > 0

theorem refundPairs_eq (p : ExpiryParams) (es : List UtxoEntry) :
    refundPairs p es = refundsOf p (es.map stxo) := by
  rw [refundPairs, refundsOf, map_map]
  rfl

/-- A REAP transaction for some outpoints, which unlock these coins. -/
structure Blueprint (p : ExpiryParams) (height : Int32) (ops : List OutPoint)
    (coins : List SpentTxOut) (tx : MsgTx) : Prop where
  version : tx.version = reapTxVersion
  txIn : tx.txIn.map TxIn.previousOutPoint = ops
  txOut : tx.txOut = (Tally.tally (refundsOf p coins)).toList.map (fun r => ⟨r.2, r.1⟩) ++
    [⟨0, opReturn :: pushData (markerPayload height ops.length ops)⟩]
  payload : (markerPayload height ops.length ops).length ≤ maxScriptElementSize

theorem buildBlueprint_spec (hm : r.Matches p) (hp : p.Sane)
    (h : buildBlueprint plan v r = .ok tx)
    (hrange : ∀ e ∈ plan.inputs.filterMap v.unspent, InRange e.amount) :
    Blueprint p plan.height plan.inputs ((plan.inputs.filterMap v.unspent).map stxo)
      tx := by
  rw [buildBlueprint] at h
  obtain ⟨t, ht, h⟩ := bind_eq_ok.1 h
  obtain ⟨-, rfl⟩ := foldlM_input_iff.1 ht
  have hrefunds : ((plan.inputs.filterMap v.unspent).foldl (Totals.entry r) {}).refundByScript =
      Tally.tally (refundsOf p ((plan.inputs.filterMap v.unspent).map stxo)) := by
    rw [refundByScript_foldl hm hp hrange, refundPairs_eq]
    rfl
  cases hmarker : markerScript plan.height plan.inputs.length plan.inputs with
  | error text => rw [hmarker] at h; cases h
  | ok script =>
    rw [hmarker] at h
    obtain ⟨rfl, hlen⟩ := markerScript_spec hmarker
    dsimp only at h
    split at h
    · cases h
    split at h
    · cases h
    cases h
    refine ⟨rfl, ?_, ?_, hlen⟩
    · rw [map_map]
      exact map_id _
    · rw [hrefunds]

/-! ## The marker -/

theorem not_mem_reapTag : reapSep ∉ reapTag := by decide

/-- A payload is taken apart into what it was made of. -/
theorem parseReapMarkerPayload_markerPayload {height : Int32} (hh : 0 ≤ height.toInt) {count : Nat}
    (hcount : count < 2 ^ 63) (inputs : List OutPoint) :
    parseReapMarkerPayload (markerPayload height count inputs) =
      .ok (height, (count : Int), markerDigest inputs) := by
  have hsep : reapSep.toNat = 0x3a := rfl
  have hsplit : (markerPayload height count inputs).splitOn reapSep =
      [reapTag, Strconv.itoa height.toInt, Strconv.itoa count, markerDigest inputs] := by
    rw [markerPayload, splitOn_intercalate]
    · intro l hl
      simp only [mem_cons, not_mem_nil, or_false] at hl
      rcases hl with rfl | rfl | rfl | rfl
      · exact not_mem_reapTag
      · exact Strconv.not_mem_itoa hh (by omega)
      · exact Strconv.not_mem_itoa (by omega) (by omega)
      · exact Strconv.not_mem_hexEncode (by omega) (by omega)
    · simp
  have hhlo := height.le_toInt
  have hhhi := height.toInt_lt
  rw [parseReapMarkerPayload, hsplit]
  dsimp only
  rw [if_neg (not_not.2 rfl), Strconv.parseInt_itoa (by decide) (by omega) (by omega)]
  rw [Strconv.parseInt_itoa (by decide) (by omega) (by omega)]
  rw [markerDigest, Strconv.hexDecode_hexEncode]
  dsimp only
  rw [Int32.ofInt_toInt]

theorem isPrefix_markerPayload (height : Int32) (count : Nat) (inputs : List OutPoint) :
    reapTag ++ [reapSep] <+: markerPayload height count inputs := by
  rw [markerPayload, List.intercalate]
  exact ⟨_, append_assoc ..⟩

section Blueprint

variable {height : Int32} {coins : List SpentTxOut} (h : Blueprint p height ops coins tx)

include h

theorem Blueprint.length_txIn : tx.txIn.length = ops.length := by
  rw [← h.txIn, length_map]

theorem Blueprint.marker :
    Obtcd.extractMarkerPayload (opReturn :: pushData (markerPayload height ops.length ops)) =
      some (markerPayload height ops.length ops) := by
  have hmin : 2 ≤ (markerPayload height ops.length ops).length := by
    refine le_trans ?_ (isPrefix_markerPayload height ops.length ops).length_le
    decide
  rw [Obtcd.extractMarkerPayload, pushedData_return hmin h.payload]

theorem Blueprint.isLikelyReapTx : isLikelyReapTx tx = true :=
  (isLikelyReapTx_iff tx).2 ⟨h.version, _, _, _, h.txOut, rfl, h.marker, isPrefix_markerPayload ..⟩

theorem Blueprint.checkReapMarker (hh : 0 ≤ height.toInt) (hlen : ops.length < 2 ^ 63) :
    checkReapMarker tx height = .ok () := by
  have hdigest : markerDigest ops = reapInputDigest tx := by
    rw [markerDigest, reapInputDigest, ← h.txIn, flatMap_map]
  rw [Obtcd.checkReapMarker, h.isLikelyReapTx, h.txOut, List.getLast?_concat, Option.bind_some,
    h.marker]
  dsimp only
  rw [parseReapMarkerPayload_markerPayload hh hlen, h.length_txIn, hdigest]
  simp

end Blueprint

/-! ## The state the miner works from -/

open ExpiryIndex (Index Buckets)

/-- A view has the unspent outputs of `u` at some outpoints. -/
def Agrees (u : Utxos) (v : UtxoViewpoint) (ops : List OutPoint) : Prop :=
  ∀ op ∈ ops, (v.unspent op).map stxo = u[op]?

/-- What the miner works from when it builds on a chain with the unspent outputs `u`: the cache
answers from them, and the expiry index represents them and is on the block before `height`.  The
amounts are in range as on every chain of sane transactions. -/
structure Ready (g : BlkTmplGenerator) (idx : Index) (db : Buckets) (u : Utxos) (height : Int32) :
    Prop where
  index : g.reapIndex = some (idx.prefixSource db)
  params : ExpiryIndex.getExpiryParams g.chainParams = some idx.expiryParams
  enabled : idx.disabled = false
  buckets : idx.expiryParams.RepBuckets u db
  tip : ExpiryIndex.dbGetTipHeightIndexed db = .ok (height - 1)
  cache : ∀ op, ((g.fetchEntry op).filter fun e => !e.spent).map stxo = u[op]?
  amounts : Ledger.AllCoins (fun coin => InRange coin.amount) u

section Miner

variable {g : BlkTmplGenerator} {idx : Index} {db : Buckets} {u : Utxos} {height : Int32} {n : Nat}
  {fee : Int64}

theorem Agrees.map_stxo (h : Agrees u v ops) :
    (ops.filterMap v.unspent).map stxo = ops.filterMap (u[·]?) := by
  rw [map_filterMap]
  exact filterMap_congr h

section Ready

variable (hr : Ready g idx db u height)

include hr

/-- The index has the window of the network. -/
theorem Ready.expiryParams (hp : getExpiryParams g.chainParams = some p) :
    idx.expiryParams = ⟨p.windowBlocks, p.listBatchLimit, p.startScanHeight, p.enableAtHeight,
      p.expiryCommitmentEnableAtHeight⟩ := by
  have h := hr.params
  rw [ExpiryIndex.getExpiryParams, hp] at h
  exact (Option.some.inj h).symm

/-- What the miner's view has at the inputs is what is unspent. -/
theorem Ready.agrees
    (hall : ∀ op ∈ ops, ∃ e, (UtxoViewpoint.fetchUtxoView g.fetchEntry tx).unspent op = some e) :
    Agrees u (UtxoViewpoint.fetchUtxoView g.fetchEntry tx) ops := by
  intro op hop
  obtain ⟨e, he⟩ := hall op hop
  obtain ⟨hlookup, hspent⟩ := UtxoViewpoint.unspent_eq_some.1 he
  have hfetch := UtxoViewpoint.fetchEntry_of_fetchUtxoView hlookup
  rw [he, ← hr.cache op, hfetch, Option.filter_some, if_pos (by simp [hspent])]

theorem Ready.inRange {coin : SpentTxOut} (h : coin ∈ ops.filterMap (u[·]?)) :
    InRange coin.amount := by
  obtain ⟨op, -, hget⟩ := mem_filterMap.1 h
  exact hr.amounts op coin hget

/-- So few coins in the range of money add up to a number that fits. -/
theorem Ready.sum_lt (hlen : ops.length ≤ 2048) :
    ((ops.filterMap (u[·]?)).map fun c => c.amount.toInt).sum < 2 ^ 63 := by
  have hle : ((ops.filterMap (u[·]?)).map fun c => c.amount.toInt).sum ≤
      (ops.filterMap (u[·]?)).length • maxSatoshi.toInt := by
    have := sum_le_card_nsmul ((ops.filterMap (u[·]?)).map fun c => c.amount.toInt)
      maxSatoshi.toInt (by
        intro a ha
        obtain ⟨c, hc, rfl⟩ := mem_map.1 ha
        exact (hr.inRange hc).2)
    rwa [length_map] at this
  have hlen' := length_filterMap_le (u[·]?) ops
  rw [maxSatoshi_toInt, nsmul_eq_mul] at hle
  omega

end Ready

/-- **What `maybeBuildREAPTx` returns**: a transaction for the first so many expired outputs, within
the tier limits and the weight limit, and the tax on them. -/
structure Built (p : ExpiryParams) (cs : List ReapPrefixCandidate) (u : Utxos) (height : Int32)
    (tx : MsgTx) (fee : Int64) : Prop where
  blueprint : Blueprint p height (cs.map (·.outPoint)) ((cs.map (·.outPoint)).filterMap (u[·]?)) tx
  length_le : cs.length ≤ 2048
  tiers : TiersOk p 0 0 (cs.map (·.amount))
  weight : (getTransactionWeight tx : Int) ≤ p.reapMaxWeight.toInt
  fee : fee.toInt = (((cs.map (·.outPoint)).filterMap (u[·]?)).map fun c => c.amount.toInt).sum -
    (((cs.map (·.outPoint)).filterMap (u[·]?)).map fun c => (reapRefund p c.amount).toInt).sum

theorem maybeBuildREAPTx_spec (hr : Ready g idx db u height)
    (h : maybeBuildREAPTx g height = .ok (some (tx, fee))) :
    ∃ p k, getExpiryParams g.chainParams = some p ∧ p.enableAtHeight ≤ height ∧
      Built p ((idx.expiryParams.expiredCandidates u height).take k) u height tx fee := by
  obtain ⟨_ | plan, hselect, h⟩ := bind_eq_ok.1 h
  · cases h
  rw [templatePlan, hr.index] at hselect
  cases hp : getExpiryParams g.chainParams with
  | none => rw [hp] at hselect; cases hselect
  | some p =>
    have hsane := Chaincfg.getExpiryParams_sane hp
    have hm := defaultREAPParamsForNet_matches hp
    have hdust : 0 < p.reapDustMaxInputs := lt_of_lt_of_le hsane.maxInputs_pos hsane.maxInputs_le
    rw [hp] at hselect
    dsimp only at hselect
    split at hselect
    · cases hselect
    rename_i hactive
    have hactive' : p.enableAtHeight ≤ height := Int32.not_lt.1 hactive
    have hpos : 0 ≤ height.toInt := by
      have h₁ := hsane.enable_pos
      have h₂ := Int32.le_iff_toInt_le.1 hactive'
      omega
    obtain ⟨⟨⟩, -, hselect⟩ := bind_eq_ok.1 hselect
    obtain ⟨candidates, hcandidates, hselect⟩ := bind_eq_ok.1 hselect
    have hfront := hcandidates.symm.trans
      (ExpiryIndex.reapPrefixCandidates_eq hr.enabled hr.buckets hpos _)
    split at hselect
    · cases hselect
    obtain ⟨plan', hplan, hselect⟩ := bind_eq_ok.1 hselect
    split at hselect
    · cases hselect
    cases hselect
    obtain ⟨k, hinputs, hheight, htiers⟩ := selectPrefixCandidates_spec hm hdust hplan
    obtain ⟨built, hbuilt, h⟩ := bind_eq_ok.1 h
    cases built with
    | none => cases h
    | some r =>
      obtain ⟨tx', plan'⟩ := r
      cases Except.ok.inj h
      obtain ⟨k', -, -, ⟨hnorm, hbuild⟩, hin, -⟩ := budgetLoop_spec hbuilt
      obtain ⟨hall, rfl⟩ := normalizePlan_iff.1 hnorm
      have hagrees : Agrees u (UtxoViewpoint.fetchUtxoView g.fetchEntry (dummyTx plan.inputs))
          (plan.inputs.take k') := hr.agrees fun op hop => (hall op hop).imp fun e he => he.1
      have hrange : ∀ e ∈ (plan.inputs.take k').filterMap
          (UtxoViewpoint.fetchUtxoView g.fetchEntry (dummyTx plan.inputs)).unspent,
          InRange e.amount := by
        intro e he
        have hcoin := mem_map_of_mem (f := stxo) he
        rw [hagrees.map_stxo] at hcoin
        exact hr.inRange hcoin
      -- both cuts and the limit of the query leave a beginning of the expired outputs
      have htake : ∃ n ≤ 2048, (candidates.take k).take k' =
          (idx.expiryParams.expiredCandidates u height).take n := by
        have hlimit := prefixCandidateLimit_le hm hsane
        refine ⟨min (min k' k) _, le_trans (min_le_right _ _) hlimit, ?_⟩
        rw [Except.ok.inj hfront, take_take, take_take]
      obtain ⟨n, hn, htake⟩ := htake
      have hops : plan.inputs.take k' =
          ((idx.expiryParams.expiredCandidates u height).take n).map (·.outPoint) := by
        rw [hinputs, ← map_take, htake]
      have hblue : Blueprint p plan.height (plan.inputs.take k') (((plan.inputs.take k').filterMap
          (UtxoViewpoint.fetchUtxoView g.fetchEntry (dummyTx plan.inputs)).unspent).map stxo) tx :=
        buildBlueprint_spec hm hsane hbuild hrange
      rw [hheight, hagrees.map_stxo, hops] at hblue
      have htax := taxTotal_eq hm hsane hrange
      rw [hops] at hagrees htax
      have hlen : (((idx.expiryParams.expiredCandidates u height).take n).map (·.outPoint)).length ≤
          2048 := by
        rw [length_map]
        exact le_trans (length_take_le _ _) hn
      refine ⟨p, n, rfl, hactive', hblue, by rwa [length_map] at hlen, ?_, ?_, ?_⟩
      · have htiers' := htiers.take k'
        rwa [← map_take, htake] at htiers'
      · rw [← hm.weightBudget]
        refine hin.budget ?_
        rw [hm.weightBudget, hsane.weight]
        decide
      · have hsum := hr.sum_lt hlen
        rw [← hagrees.map_stxo, map_map] at hsum
        rw [← hagrees.map_stxo, map_map, map_map, normalized, totalsOf, REAPPlan.cut, hops]
        exact htax hsum

/-! ## Order and caps -/

/-- Inputs in canonical order, within the tier limits, pass the loop of the hardening rule. -/
theorem checkReapInputs_of_sorted (hdust : 0 < p.reapDustMaxInputs)
    (hkeys : ∀ c ∈ cs, makeReapInputOrderKey c.outPoint v p = .ok c.orderKey)
    (hsorted : cs.Pairwise fun a b => a.le b = true) {prev : Option ReapInputOrderKey}
    (hprev : ∀ k ∈ prev, ∀ c ∈ cs, (compareReapInputOrderKey k c.orderKey).isLE = true)
    {d n : Nat} (htiers : TiersOk p d n (cs.map (·.amount))) {tis : List TxIn}
    (htis : tis.map TxIn.previousOutPoint = cs.map (·.outPoint)) :
    checkReapInputs v p prev d n tis = .ok () := by
  induction cs generalizing prev d n tis with
  | nil =>
    obtain rfl := map_eq_nil_iff.1 htis
    rfl
  | cons c cs ih =>
    obtain ⟨ti, tis, rfl, hti, htis⟩ := map_eq_cons_iff.1 htis
    obtain ⟨hkey, hkeys⟩ := forall_mem_cons.1 hkeys
    obtain ⟨hfirst, hsorted⟩ := pairwise_cons.1 hsorted
    obtain ⟨d', n', hcount, htiers⟩ := htiers
    have horder : ¬ (prev.any fun k => compareReapInputOrderKey k c.orderKey == .gt) = true := by
      cases prev with
      | none => simp
      | some k =>
        have hle := hprev k rfl c (mem_cons_self ..)
        cases hcmp : compareReapInputOrderKey k c.orderKey with
        | lt => simp [hcmp]
        | eq => simp [hcmp]
        | gt => rw [hcmp] at hle; cases hle
    rw [checkReapInputs, hti, hkey, ok_bind, if_neg horder, if_pos hdust]
    show (countTier p c.amount d n >>= fun r => checkReapInputs v p (some c.orderKey) r.1 r.2 tis) = _
    rw [hcount, ok_bind]
    refine ih hkeys hsorted ?_ htiers htis
    intro k hk c' hc'
    cases hk
    exact hfirst c' hc'

/-! ## The rules -/

/-- The outputs of a transaction are those the prefix rule expects. -/
theorem checkPrefixInputs_of_eq {tis : List TxIn}
    (h : tis.map TxIn.previousOutPoint = cs.map (·.outPoint)) (i : Nat) :
    checkPrefixInputs i tis cs = .ok () := by
  induction cs generalizing tis i with
  | nil =>
    obtain rfl := map_eq_nil_iff.1 h
    rfl
  | cons c cs ih =>
    obtain ⟨ti, tis, rfl, hti, htis⟩ := map_eq_cons_iff.1 h
    rw [checkPrefixInputs, if_neg (not_not.2 hti)]
    exact ih htis (i + 1)

theorem secondReap_eq_none {txs : List MsgTx} (h : ∀ tx ∈ txs, isLikelyReapTx tx = false)
    (i n : Nat) : secondReap i n txs = none := by
  induction txs generalizing i with
  | nil => rfl
  | cons tx txs ih =>
    obtain ⟨htx, htxs⟩ := forall_mem_cons.1 h
    rw [secondReap, htx]
    exact ih htxs (i + 1)

/-- One REAP transaction among others is not two. -/
theorem secondReap_append_cons {pre post : List MsgTx}
    (hpre : ∀ tx ∈ pre, isLikelyReapTx tx = false)
    (hpost : ∀ tx ∈ post, isLikelyReapTx tx = false) (i : Nat) :
    secondReap i 0 (pre ++ tx :: post) = none := by
  induction pre generalizing i with
  | nil =>
    rw [nil_append, secondReap]
    split
    · exact secondReap_eq_none hpost _ _
    · exact secondReap_eq_none hpost _ _
  | cons tx' pre ih =>
    obtain ⟨htx', hpre'⟩ := forall_mem_cons.1 hpre
    rw [cons_append, secondReap, htx']
    exact ih hpre' (i + 1)

section Amounts

variable (hr : Ready g idx db u height) (hp : p.Sane) (hb : Built p cs u height tx fee)
  (hv : Agrees u v (tx.txIn.map TxIn.previousOutPoint))

include hb hv

/-- What the transaction spends, as the view has it. -/
theorem Built.map_stxo_spentEntries : (spentEntries v tx.txIn).map stxo =
    (cs.map (·.outPoint)).filterMap (u[·]?) := by
  rw [← hb.blueprint.txIn, ← hv.map_stxo, filterMap_map]
  rfl

/-- The outputs are the tally of the refunds, and the marker. -/
theorem Built.paidPairs_eq :
    paidPairs tx = (Tally.tally (refundPairs p (spentEntries v tx.txIn))).toList := by
  rw [paidPairs, hb.blueprint.txOut, dropLast_concat, map_map, refundPairs_eq,
    hb.map_stxo_spentEntries hv]
  exact map_id _

include hr

theorem Built.inRange_spentEntries : ∀ e ∈ spentEntries v tx.txIn, InRange e.amount := by
  intro e he
  have hcoin := mem_map_of_mem (f := stxo) he
  rw [hb.map_stxo_spentEntries hv] at hcoin
  exact hr.inRange hcoin

theorem Built.sum_spentEntries_lt :
    ((spentEntries v tx.txIn).map fun e => e.amount.toInt).sum < 2 ^ 63 := by
  have hlen : (cs.map (·.outPoint)).length ≤ 2048 := by
    rw [length_map]
    exact hb.length_le
  have hsum := hr.sum_lt hlen
  rwa [← hb.map_stxo_spentEntries hv, map_map] at hsum

include hp

theorem Built.fits : Tally.Fits (refundPairs p (spentEntries v tx.txIn)) :=
  fits_refundPairs hp (hb.inRange_spentEntries hr hv) (hb.sum_spentEntries_lt hr hv)

theorem Built.sum_txOut : (tx.txOut.map fun o => o.value.toInt).sum =
    ((spentEntries v tx.txIn).map fun e => (reapRefund p e.amount).toInt).sum := by
  have htotal := Tally.total_toList_tally (hb.fits hr hp hv)
  rw [← hb.paidPairs_eq hv, total_refundPairs hp (hb.inRange_spentEntries hr hv), Tally.total,
    paidPairs, map_map] at htotal
  rw [← htotal, hb.blueprint.txOut, dropLast_concat, map_append, sum_append,
    map_singleton, sum_singleton, Int64.toInt_zero, Int.add_zero]
  rfl

theorem Built.pos_of_mem_dropLast {o : TxOut} (ho : o ∈ tx.txOut.dropLast) : 0 < o.value.toInt := by
  have hmem : (o.pkScript, o.value) ∈ paidPairs tx := mem_map_of_mem ho
  rw [hb.paidPairs_eq hv] at hmem
  exact Tally.pos_of_mem_toList_tally (hb.fits hr hp hv) hmem

end Amounts

section Rules

variable (hr : Ready g idx db u height) (hp : getExpiryParams g.chainParams = some p)
  (hactive : p.enableAtHeight ≤ height)
  (hb : Built p ((idx.expiryParams.expiredCandidates u height).take n) u height tx fee)

include hp hactive in
theorem height_pos : 0 < height.toInt := by
  have h₁ := (Chaincfg.getExpiryParams_sane hp).enable_pos
  have h₂ := Int32.le_iff_toInt_le.1 hactive
  omega

include hb in
/-- Each input of the transaction is a candidate. -/
theorem Built.of_mem_txIn {ti : TxIn} (hti : ti ∈ tx.txIn) :
    ∃ c ∈ (idx.expiryParams.expiredCandidates u height).take n, c.outPoint = ti.previousOutPoint := by
  have hmem := mem_map_of_mem (f := TxIn.previousOutPoint) hti
  rw [hb.blueprint.txIn] at hmem
  exact mem_map.1 hmem

include hr hp hactive

/-- A candidate is an unspent output that is expired. -/
theorem Ready.of_mem_expired {c : ReapPrefixCandidate}
    (hc : c ∈ idx.expiryParams.expiredCandidates u height) :
    ∃ coin, u[c.outPoint]? = some coin ∧
      c.orderKey = ⟨p.calculateExpiryKey coin.height, coin.amount, c.outPoint⟩ ∧
      coin.height.toInt + p.windowBlocks.toNat ≤ height.toInt := by
  have hsane := Chaincfg.getExpiryParams_sane hp
  have hparams := hr.expiryParams hp
  obtain ⟨hmem, hkey⟩ := mem_filter.1 hc
  obtain ⟨op, coin, hget, hcov, rfl⟩ := mem_candidates.1 hmem
  have hpos : 0 < coin.height :=
    (ExpiryIndex.covers_iff (by rw [hparams]; exact hsane.startScan) coin).1 hcov
  have hwindow : idx.expiryParams.windowBlocks = p.windowBlocks := by rw [hparams]
  have hle := (ExpiryIndex.keyOf_le_iff (by rw [hwindow]; exact hsane.window_lt) hpos
    (le_of_lt (height_pos hp hactive))).1 (of_decide_eq_true hkey)
  refine ⟨coin, hget, ?_, by rwa [hwindow] at hle⟩
  rw [ReapPrefixCandidate.orderKey, candidateOf, keyOf, hparams]
  rfl

include hb

section Block

variable {block : Block} {coinbase : MsgTx} {pre post : List MsgTx}
  (hblock : block.transactions = coinbase :: (pre ++ tx :: post))
  (hpre : ∀ tx ∈ pre, isLikelyReapTx tx = false)

omit hr hp hactive hb in
include hblock in
theorem afterFirst_eq : block.afterFirst = .ok (pre ++ tx :: post) := by
  rw [Block.afterFirst, hblock]

include hblock hpre

theorem Built.checkReapGlobalPrefix :
    checkReapGlobalPrefix block height (some (idx.prefixSource db)) g.chainParams = .ok () := by
  have hreap := hb.blueprint.isLikelyReapTx
  have hfind : findReapTx block = .ok (some tx) := by
    have hnone : pre.find? isLikelyReapTx = none := by
      refine List.find?_eq_none.2 fun tx' htx' => ?_
      rw [hpre tx' htx']
      decide
    rw [findReapTx, afterFirst_eq hblock, ok_bind, List.find?_append, hnone, Option.none_or,
      List.find?_cons_of_pos hreap]
  have htip : (idx.prefixSource db).reapPrefixTipHeight = .ok (height - 1) := by
    show idx.reapPrefixTipHeight db = _
    rw [ExpiryIndex.Index.reapPrefixTipHeight, hr.enabled]
    exact hr.tip
  -- as many candidates as the transaction has inputs are the ones it was built from
  have hlen : tx.txIn.length = ((idx.expiryParams.expiredCandidates u height).take n).length := by
    rw [hb.blueprint.length_txIn, length_map]
  have hfront : (idx.prefixSource db).reapPrefixCandidates height tx.txIn.length =
      .ok ((idx.expiryParams.expiredCandidates u height).take n) := by
    show idx.reapPrefixCandidates db height tx.txIn.length = _
    rw [ExpiryIndex.reapPrefixCandidates_eq hr.enabled hr.buckets
      (le_of_lt (height_pos hp hactive)), hlen, length_take, ← take_take,
      take_length]
  rw [Obtcd.checkReapGlobalPrefix, hp]
  dsimp only
  split
  · rfl
  rw [hfind, ok_bind]
  dsimp only
  rw [htip, ok_bind, if_neg (not_not.2 rfl)]
  split
  · rfl
  rw [hfront, ok_bind, if_neg (by omega)]
  exact checkPrefixInputs_of_eq hb.blueprint.txIn 0

omit hr hactive hb in
theorem checkReapBlockHardening_of_single (hpost : ∀ tx ∈ post, isLikelyReapTx tx = false) :
    checkReapBlockHardening block height g.chainParams = .ok () := by
  rw [checkReapBlockHardening, hp]
  dsimp only
  split
  · rfl
  rw [afterFirst_eq hblock, ok_bind, secondReap_append_cons hpre hpost]

end Block

variable (hv : Agrees u v (tx.txIn.map TxIn.previousOutPoint))

include hv

/-- Each candidate is found in the view. -/
theorem Built.unspent {c : ReapPrefixCandidate}
    (hc : c ∈ (idx.expiryParams.expiredCandidates u height).take n) :
    ∃ e, v.unspent c.outPoint = some e ∧ u[c.outPoint]? = some e.stxo ∧
      c.orderKey = ⟨p.calculateExpiryKey e.blockHeight, e.amount, c.outPoint⟩ ∧
      e.blockHeight.toInt + p.windowBlocks.toNat ≤ height.toInt := by
  obtain ⟨coin, hget, hkey, hexp⟩ := hr.of_mem_expired hp hactive (mem_of_mem_take hc)
  have hagree := hv c.outPoint (by rw [hb.blueprint.txIn]; exact mem_map_of_mem hc)
  rw [hget] at hagree
  obtain ⟨e, he, rfl⟩ := Option.map_eq_some_iff.1 hagree
  exact ⟨e, he, hget, hkey, hexp⟩

theorem Built.checkExpirySpendRules : checkExpirySpendRules tx height v g.chainParams = .ok () := by
  have hsane := Chaincfg.getExpiryParams_sane hp
  rw [checkExpirySpendRules_eq_ok hp hactive, hb.blueprint.isLikelyReapTx]
  intro ti hti
  obtain ⟨c, hc, hop⟩ := hb.of_mem_txIn hti
  obtain ⟨e, he, -, -, hexp⟩ := hb.unspent hr hp hactive hv hc
  refine ⟨e, hop ▸ he, ?_⟩
  have hmined : e.blockHeight ≠ unminedInputHeight := by
    intro heq
    have h₁ : unminedInputHeight.toInt = 2 ^ 31 - 1 := by decide
    have h₂ := height.toInt_lt
    have h₃ := hsane.window_pos
    rw [heq, h₁] at hexp
    omega
  rw [Reap.ExpiryOk, if_neg hmined, expiredAt_iff hsane (le_of_lt (height_pos hp hactive))]
  exact .inl hexp

theorem Built.checkReapConsensusHardening :
    checkReapConsensusHardening tx height v g.chainParams = .ok () := by
  have hsane := Chaincfg.getExpiryParams_sane hp
  have hdust : 0 < p.reapDustMaxInputs := lt_of_lt_of_le hsane.maxInputs_pos hsane.maxInputs_le
  rw [Obtcd.checkReapConsensusHardening, hb.blueprint.isLikelyReapTx, hp]
  dsimp only
  rw [if_neg (by decide)]
  split
  · rfl
  have hweight : ¬ ((p.reapMaxWeight > 0 &&
      (getTransactionWeight tx : Int) > p.reapMaxWeight.toInt) = true) := by
    rw [Bool.and_eq_true, decide_eq_true_iff, decide_eq_true_iff]
    exact fun h => absurd h.2 (not_lt.2 hb.weight)
  rw [if_neg hweight, if_neg (by simp [hdust])]
  refine checkReapInputs_of_sorted hdust ?_ ?_ (by simp) hb.tiers hb.blueprint.txIn
  · intro c hc
    obtain ⟨e, he, -, hkey, -⟩ := hb.unspent hr hp hactive hv hc
    rw [makeReapInputOrderKey, he, hkey]
  · exact ((sorted_candidates u).filter _).sublist (take_sublist _ _)

theorem Built.checkReapTaxRules : checkReapTaxRules tx height v g.chainParams = .ok () := by
  have hsane := Chaincfg.getExpiryParams_sane hp
  have hes := hb.inRange_spentEntries hr hv
  have hsum := hb.sum_spentEntries_lt hr hv
  have hreap := hb.blueprint.isLikelyReapTx
  have hpos := fun o ho => hb.pos_of_mem_dropLast hr hsane hv (o := o) ho
  refine (checkReapTaxRules_eq_ok hp hactive hreap ?_ hsum ?_ ?_).2 ⟨?_, ?_⟩
  · intro ti hti
    obtain ⟨c, hc, hop⟩ := hb.of_mem_txIn hti
    obtain ⟨e, he, -, -, -⟩ := hb.unspent hr hp hactive hv hc
    rw [hop] at he
    exact ⟨e, he, hes e (mem_filterMap.2 ⟨ti, hti, he⟩)⟩
  · intro o ho
    rw [hb.blueprint.txOut] at ho hpos
    rcases mem_append.1 ho with ho | ho
    · exact le_of_lt (hpos o (by rwa [dropLast_concat]))
    · rw [mem_singleton.1 ho, Int64.toInt_zero]
  · rw [hb.sum_txOut hr hsane hv]
    exact lt_of_le_of_lt (sum_reapRefund_le hsane hes) hsum
  · exact fun o ho => Int64.lt_iff_toInt_lt.2 (hpos o ho)
  · intro script
    rw [← sumOf_paidPairs hreap, hb.paidPairs_eq hv,
      Tally.sumOf_toList_tally (hb.fits hr hsane hv), sumOf_refundPairs hsane hes]

end Rules

end Miner

/-- **What the miner builds is valid.**  Whatever the unspent outputs are, as long as the expiry index
represents them: every transaction `maybeBuildREAPTx` returns passes the four rules on transactions
in any view that has these outputs, and the two rules on blocks in any block that has no other REAP
transaction; and its inputs exceed its outputs by the fee that is returned with it. -/
theorem maybeBuildREAPTx_valid {g : BlkTmplGenerator} {idx : Index} {db : Buckets} {u : Utxos}
    {height : Int32} (hr : Ready g idx db u height) {tx : MsgTx} {fee : Int64}
    (h : maybeBuildREAPTx g height = .ok (some (tx, fee))) :
    (∀ v, Agrees u v (tx.txIn.map TxIn.previousOutPoint) →
      checkReapMarker tx height = .ok () ∧
      checkExpirySpendRules tx height v g.chainParams = .ok () ∧
      checkReapConsensusHardening tx height v g.chainParams = .ok () ∧
      checkReapTaxRules tx height v g.chainParams = .ok () ∧
      ((Reap.spentEntries v tx.txIn).map fun e => e.amount.toInt).sum -
        (tx.txOut.map fun o => o.value.toInt).sum = fee.toInt) ∧
    (∀ block coinbase pre post, block.transactions = coinbase :: (pre ++ tx :: post) →
      (∀ tx' ∈ pre ++ post, isLikelyReapTx tx' = false) →
      checkReapGlobalPrefix block height (some (idx.prefixSource db)) g.chainParams = .ok () ∧
      checkReapBlockHardening block height g.chainParams = .ok ()) := by
  obtain ⟨p, n, hp, hactive, hb⟩ := maybeBuildREAPTx_spec hr h
  refine ⟨fun v hv => ?_, fun block coinbase pre post hblock hother => ?_⟩
  · refine ⟨?_, hb.checkExpirySpendRules hr hp hactive hv,
      hb.checkReapConsensusHardening hr hp hactive hv, hb.checkReapTaxRules hr hp hactive hv, ?_⟩
    · refine hb.blueprint.checkReapMarker (le_of_lt (height_pos hp hactive)) ?_
      have hlen := hb.length_le
      rw [List.length_map]
      omega
    · rw [hb.sum_txOut hr (Chaincfg.getExpiryParams_sane hp) hv, hb.fee,
        ← hb.map_stxo_spentEntries hv, List.map_map, List.map_map]
      rfl
  · rw [List.forall_mem_append] at hother
    exact ⟨hb.checkReapGlobalPrefix hr hp hactive hblock hother.1,
      checkReapBlockHardening_of_single hp hblock hother.1 hother.2⟩

namespace Sample

/-! Two expired outputs of one script on the regression test network, one of them dust. -/

def idx : Index := ⟨⟨144, 1000, 0, 110, 110⟩, 199, false⟩

def op : OutPoint := ⟨doubleHashRaw [1], 0⟩
def dustOp : OutPoint := ⟨doubleHashRaw [2], 7⟩
def coin : SpentTxOut := ⟨100000, [op1], 10, false⟩
def dustCoin : SpentTxOut := ⟨500, [op1], 12, false⟩

def utxos : Utxos := ((∅ : Utxos).insert op coin).insert dustOp dustCoin

def db : Buckets :=
  ((ExpiryIndex.dbPutTipHeightIndexed ⟨∅, ∅, ∅, ∅, ∅⟩ 199).putEntry op (idx.expiryParams.keyOf coin)
    (ExpiryIndex.reapStrictKey (idx.expiryParams.keyOf coin) coin.amount op)).putEntry dustOp
    (idx.expiryParams.keyOf dustCoin)
    (ExpiryIndex.reapStrictKey (idx.expiryParams.keyOf dustCoin) dustCoin.amount dustOp)

def generator : BlkTmplGenerator where
  chainParams := Chaincfg.obtcRegTestParams
  reapIndex := some (idx.prefixSource db)
  fetchEntry o := (utxos[o]?).map fun c =>
    { amount := c.amount, pkScript := c.pkScript, blockHeight := c.height, coinBase := c.isCoinBase }
  blockMaxWeight := some 4000000

theorem ready : Ready generator idx db utxos 200 where
  index := rfl
  params := by decide
  enabled := rfl
  buckets := by
    have hnew : (∅ : Utxos)[op]? = none := Std.ExtTreeMap.getElem?_empty
    have hnew' : ((∅ : Utxos).insert op coin)[dustOp]? = none := by decide +kernel
    have hempty := repBuckets_empty (p := idx.expiryParams)
      (ExpiryIndex.dbPutTipHeightIndexed ⟨∅, ∅, ∅, ∅, ∅⟩ 199).expiryMeta
    have hcov : idx.expiryParams.covers coin.height = true := by decide
    have hcov' : idx.expiryParams.covers dustCoin.height = true := by decide
    exact ((hempty.connect hnew hcov (by decide)).2.connect hnew' hcov' (by decide)).2
  tip := by decide +kernel
  cache o := by
    unfold generator
    dsimp only
    generalize utxos[o]? = c
    cases c <;> rfl
  amounts := by
    have hempty : Ledger.AllCoins (fun coin => InRange coin.amount) ∅ := by
      intro o c h
      rw [Std.ExtTreeMap.getElem?_empty] at h
      cases h
    exact (hempty.insert ⟨by decide, by decide⟩).insert ⟨by decide, by decide⟩

end Sample

theorem maybeBuildREAPTx_valid_sample :
    ∃ tx, maybeBuildREAPTx Sample.generator 200 = .ok (some (tx, 30500)) ∧
      ∀ v, Agrees Sample.utxos v (tx.txIn.map TxIn.previousOutPoint) →
        checkReapTaxRules tx 200 v Sample.generator.chainParams = .ok () := by
  have hbuilt : (maybeBuildREAPTx Sample.generator 200).toOption.join.map Prod.snd = some 30500 := by
    decide +kernel
  obtain ⟨⟨tx, fee⟩, hsome, hfee⟩ := Option.map_eq_some_iff.1 hbuilt
  obtain rfl : fee = 30500 := hfee
  have h : maybeBuildREAPTx Sample.generator 200 = .ok (some (tx, 30500)) :=
    eq_ok_of_toOption (Option.join_eq_some_iff.1 hsome)
  exact ⟨tx, h, fun v hv => ((maybeBuildREAPTx_valid Sample.ready h).1 v hv).2.2.2.1⟩

end Mining

end Obtcd
