import Obtcd.Mining.ReapValid

/-!
# The tier caps of validation and of selection

Validation and selection both stop at the caps of the two tiers, dust and normal, but at different
places.  `checkReapConsensusHardening` looks at the caps when it comes to an input and refuses the
input if one of them has been reached; `SelectPrefixCandidates` looks after it has picked an input
and ends there.  `tier_caps_agree` says that this is the same rule: what validation accepts is what
selection picks in full, and both are the sequences in which a cap is reached by the last input at
most.

On the networks there are, the weight budget allows as many inputs as the caps do.  What is selected
from a list of candidates is then `picked`: those before which no cap has been reached.
-/

namespace Obtcd

open List

namespace Mining

open Chaincfg (Params ExpiryParams getExpiryParams)

/-- A cap is reached after so many inputs of each tier. -/
def CapReached (p : ExpiryParams) (dustCount normalCount : Nat) : Prop :=
  p.reapDustMaxInputs ≤ dustCount ∨ p.reapMaxInputs ≤ normalCount

/-- How many of some amounts are dust. -/
def dustCount (p : ExpiryParams) (as : List Int64) : Nat :=
  as.countP fun a => isReapDustTierAmount a p

/-- How many of some amounts are not. -/
def normalCount (p : ExpiryParams) (as : List Int64) : Nat :=
  as.countP fun a => !isReapDustTierAmount a p

/-- **Each cap is reached by the last amount at most**: before none of them is a cap reached, when
`d` and `n` inputs of the two tiers came before the first. -/
def WithinCaps (p : ExpiryParams) (d n : Nat) (as : List Int64) : Prop :=
  ∀ k < as.length, ¬ CapReached p (d + dustCount p (as.take k)) (n + normalCount p (as.take k))

/-- The inputs that `SelectPrefixCandidates` picks.  With an error it returns an empty plan. -/
def pickedInputs (tip : Int32) (cs : List ReapPrefixCandidate) (r : REAPParams) : List OutPoint :=
  match selectPrefixCandidates tip cs r with
  | .ok plan => plan.inputs
  | .error _ => []

/-! ## One input -/

/-- The counts of the two tiers with one more amount. -/
def tierStep (p : ExpiryParams) (a : Int64) (d n : Nat) : Nat × Nat :=
  if isReapDustTierAmount a p then (d + 1, n) else (d, n + 1)

theorem tierStep_eq_ite (p : ExpiryParams) (a : Int64) (d n : Nat) : tierStep p a d n =
    (if isReapDustTierAmount a p then d + 1 else d,
      if isReapDustTierAmount a p then n else n + 1) := by
  rw [tierStep]
  split <;> rfl

variable {p : ExpiryParams}

/-- Validation counts an input exactly when no cap has been reached before it. -/
theorem countTier_eq_ok {a : Int64} {d n : Nat} {r : Nat × Nat} :
    countTier p a d n = .ok r ↔ ¬ CapReached p d n ∧ r = tierStep p a d n := by
  rw [countTier, CapReached, tierStep]
  by_cases hd : p.reapDustMaxInputs ≤ d <;> by_cases hn : p.reapMaxInputs ≤ n <;>
    cases isReapDustTierAmount a p <;> simp [hd, hn, eq_comm]

theorem tierStep_eq (p : ExpiryParams) (a : Int64) (d n : Nat) :
    tierStep p a d n = (d + dustCount p [a], n + normalCount p [a]) := by
  rw [tierStep, dustCount, normalCount]
  cases h : isReapDustTierAmount a p <;> simp [h]

theorem withinCaps_cons {d n : Nat} {a : Int64} {as : List Int64} : WithinCaps p d n (a :: as) ↔
      ¬ CapReached p d n ∧ WithinCaps p (tierStep p a d n).1 (tierStep p a d n).2 as := by
  have hcount : ∀ k, d + dustCount p ((a :: as).take (k + 1)) =
        (tierStep p a d n).1 + dustCount p (as.take k) ∧
      n + normalCount p ((a :: as).take (k + 1)) =
        (tierStep p a d n).2 + normalCount p (as.take k) := by
    intro k
    rw [tierStep_eq, take_succ_cons, ← singleton_append]
    simp only [dustCount, normalCount, countP_append]
    omega
  constructor
  · intro h
    refine ⟨by simpa [dustCount, normalCount] using h 0 (by simp), fun k hk => ?_⟩
    have hstep := h (k + 1) (by simpa using hk)
    rwa [(hcount k).1, (hcount k).2] at hstep
  · rintro ⟨hfirst, hrest⟩ (_ | k) hk
    · simpa [dustCount, normalCount] using hfirst
    · rw [(hcount k).1, (hcount k).2]
      exact hrest k (by simpa using hk)

/-! ## Validation -/

/-- The counting loop accepts the sequences within the caps. -/
theorem tiersOk_iff {d n : Nat} {as : List Int64} : TiersOk p d n as ↔ WithinCaps p d n as := by
  induction as generalizing d n with
  | nil => simp [TiersOk, WithinCaps]
  | cons a as ih =>
    rw [TiersOk, withinCaps_cons]
    constructor
    · rintro ⟨d', n', hcount, hrest⟩
      obtain ⟨hcap, hstep⟩ := countTier_eq_ok.1 hcount
      rw [← hstep]
      exact ⟨hcap, ih.1 hrest⟩
    · rintro ⟨hcap, hrest⟩
      exact ⟨_, _, countTier_eq_ok.2 ⟨hcap, rfl⟩, ih.2 hrest⟩

/-- What the loop of `checkReapConsensusHardening` accepts, with two tiers: inputs that are
unspent, in canonical order and within the caps. -/
theorem checkReapInputs_eq_ok {v : UtxoViewpoint} (hdust : 0 < p.reapDustMaxInputs)
    {tis : List TxIn} {keys : List ReapInputOrderKey}
    (hkeys : tis.map (fun ti => makeReapInputOrderKey ti.previousOutPoint v p) = keys.map .ok)
    {prev : Option ReapInputOrderKey} {d n : Nat} : checkReapInputs v p prev d n tis = .ok () ↔
      (prev.toList ++ keys).IsChain (fun a b => compareReapInputOrderKey a b ≠ .gt) ∧
        WithinCaps p d n (keys.map (·.amount)) := by
  induction keys generalizing tis prev d n with
  | nil =>
    obtain rfl := map_eq_nil_iff.1 hkeys
    cases prev <;> simp [checkReapInputs, WithinCaps]
  | cons key keys ih =>
    obtain ⟨ti, tis, rfl, hkey, hkeys⟩ := map_eq_cons_iff.1 hkeys
    have hchain : (prev.toList ++ key :: keys).IsChain
          (fun a b => compareReapInputOrderKey a b ≠ .gt) ↔
        (prev.any fun k => compareReapInputOrderKey k key == .gt) = false ∧
          ((some key).toList ++ keys).IsChain fun a b => compareReapInputOrderKey a b ≠ .gt := by
      cases prev <;> simp
    rw [checkReapInputs, hkey, ok_bind, hchain, map_cons, withinCaps_cons]
    cases horder : prev.any fun k => compareReapInputOrderKey k key == .gt with
    | true => simp
    | false =>
      rw [if_neg (by decide), if_pos hdust]
      by_cases hcap : CapReached p d n
      · cases hcount : countTier p key.amount d n with
        | error e => simp [hcap, error_bind]
        | ok r => exact absurd hcap (countTier_eq_ok.1 hcount).1
      · rw [countTier_eq_ok.2 ⟨hcap, rfl⟩, ok_bind]
        show checkReapInputs v p (some key) (tierStep p key.amount d n).1
          (tierStep p key.amount d n).2 tis = _ ↔ _
        rw [ih hkeys]
        simp [hcap]

/-! ## Selection -/

/-- Selection adds candidates from the start of the list. -/
theorem inputs_selectLoop (r : REAPParams) (d n : Nat) (plan : REAPPlan)
    (cs : List ReapPrefixCandidate) :
    ∃ k, (selectLoop r d n plan cs).inputs = plan.inputs ++ (cs.map (·.outPoint)).take k := by
  induction cs generalizing d n plan with
  | nil => exact ⟨0, by simp [selectLoop]⟩
  | cons c cs ih =>
    rw [selectLoop]
    dsimp only
    split
    · exact ⟨0, by simp⟩
    split
    · exact ⟨0, by simp⟩
    generalize (if isDustTierAmount c.amount r.dustThresholdSat then d + 1 else d) = d'
    generalize (if isDustTierAmount c.amount r.dustThresholdSat then n else n + 1) = n'
    split
    · exact ⟨1, by simp [REAPPlan.pick]⟩
    · obtain ⟨k, hk⟩ := ih d' n' (plan.pick c r)
      exact ⟨k + 1, by rw [hk]; simp [REAPPlan.pick]⟩

section Selection

variable {r : REAPParams} (hmax : r.maxInputs = p.reapMaxInputs)
  (hdustMax : r.dustMaxInputs = p.reapDustMaxInputs)
  (hthreshold : r.dustThresholdSat = p.reapDustThresholdSat) (hdust : 0 < p.reapDustMaxInputs)
  (hbudget : r.weightBudget ≤ 0)

include hmax hdustMax hdust

theorem canSelectTierCandidate_eq (dustTier : Bool) (d n : Nat) :
    canSelectTierCandidate dustTier d n r = true ↔ ¬ CapReached p d n := by
  rw [canSelectTierCandidate, hdustMax, hmax, if_neg (by omega), CapReached]
  by_cases hd : p.reapDustMaxInputs ≤ d <;> by_cases hn : p.reapMaxInputs ≤ n <;>
    cases dustTier <;> simp [hd, hn] <;> omega

theorem tierLimitReached_eq (d n : Nat) : tierLimitReached d n r = true ↔ CapReached p d n := by
  rw [tierLimitReached, hdustMax, hmax, if_neg (by omega), CapReached]
  simp

include hthreshold hbudget

/-- Without a weight budget selection picks all that is within the caps, and nothing more. -/
theorem length_selectLoop (d n : Nat) (plan : REAPPlan) (cs : List ReapPrefixCandidate) :
    (selectLoop r d n plan cs).inputs.length = plan.inputs.length + cs.length ↔
      WithinCaps p d n (cs.map (·.amount)) := by
  induction cs generalizing d n plan with
  | nil => simp [selectLoop, WithinCaps]
  | cons c cs ih =>
    have htier : isDustTierAmount c.amount r.dustThresholdSat = isReapDustTierAmount c.amount p := by
      rw [isDustTierAmount, isReapDustTierAmount, hthreshold]
    have hweight : ¬ ((r.weightBudget > 0 &&
        (estimateNextWeight (isReapDustTierAmount c.amount p) d n plan.inputs.length r : Int) >
          r.weightBudget.toInt && !plan.inputs.isEmpty) = true) := by
      simp [Int64.not_lt.2 hbudget]
    rw [selectLoop, htier, map_cons, withinCaps_cons, tierStep_eq_ite]
    rw [if_neg hweight]
    by_cases hcap : CapReached p d n
    · have hcan : ¬ canSelectTierCandidate (isReapDustTierAmount c.amount p) d n r = true := by
        rw [canSelectTierCandidate_eq hmax hdustMax hdust]
        exact not_not.2 hcap
      simp [hcan, hcap]
    · have hcan := (canSelectTierCandidate_eq hmax hdustMax hdust
        (isReapDustTierAmount c.amount p) d n).2 hcap
      rw [hcan, if_neg (by decide), and_iff_right hcap]
      generalize (if isReapDustTierAmount c.amount p then d + 1 else d) = d'
      generalize (if isReapDustTierAmount c.amount p then n else n + 1) = n'
      by_cases hlimit : tierLimitReached d' n' r = true
      · -- the cap has been reached, so this must have been the last candidate
        rw [if_pos hlimit]
        have hreached := (tierLimitReached_eq hmax hdustMax hdust d' n').1 hlimit
        cases cs with
        | nil => simp [WithinCaps, REAPPlan.pick]
        | cons c' cs =>
          rw [map_cons, withinCaps_cons]
          simp [hreached, REAPPlan.pick]
      · rw [if_neg hlimit, ← ih d' n' (plan.pick c r)]
        simp only [REAPPlan.pick, length_append, length_cons, length_nil]
        omega

/-- Selection picks a sequence in full exactly when it is within the caps. -/
theorem isPrefix_pickedInputs (tip : Int32) (cs : List ReapPrefixCandidate) :
    cs.map (·.outPoint) <+: pickedInputs tip cs r ↔ WithinCaps p 0 0 (cs.map (·.amount)) := by
  rw [pickedInputs, selectPrefixCandidates, if_neg (show ¬ r.dustMaxInputs < 0 by omega)]
  by_cases hpos : r.maxInputs ≤ 0
  · -- nothing is picked, and nothing is within a cap of zero
    rw [if_pos hpos]
    cases cs with
    | nil => simp [WithinCaps]
    | cons c cs =>
      have hcap : CapReached p 0 0 := .inr (by rw [← hmax]; exact hpos)
      rw [map_cons, map_cons, withinCaps_cons]
      simp [hcap]
  · rw [if_neg hpos]
    dsimp only
    rw [← length_selectLoop hmax hdustMax hthreshold hdust hbudget 0 0 ⟨[], 0, 0, tip⟩ cs]
    obtain ⟨k, hinputs⟩ := inputs_selectLoop r 0 0 ⟨[], 0, 0, tip⟩ cs
    rw [nil_append] at hinputs
    rw [hinputs, length_nil, Nat.zero_add, ← map_take]
    constructor
    · intro h
      have := h.length_le
      simp only [length_map, length_take] at this ⊢
      omega
    · intro h
      rw [take_of_length_le]
      simp only [length_map, length_take] at h
      omega

/-- **The caps of validation are the caps of selection.**  For every sequence of amounts, the counting
loop of validation accepts it exactly when it is a beginning of what selection picks from it without
a weight budget, and exactly when each cap is reached by the last amount at most.  For a transaction
whose inputs are unspent and in canonical order this is what decides the whole loop. -/
theorem tier_caps_agree (tip : Int32) :
    (∀ cs : List ReapPrefixCandidate,
      (TiersOk p 0 0 (cs.map (·.amount)) ↔ cs.map (·.outPoint) <+: pickedInputs tip cs r) ∧
        (TiersOk p 0 0 (cs.map (·.amount)) ↔ WithinCaps p 0 0 (cs.map (·.amount)))) ∧
      ∀ (v : UtxoViewpoint) (tis : List TxIn) (keys : List ReapInputOrderKey),
        tis.map (fun ti => makeReapInputOrderKey ti.previousOutPoint v p) = keys.map .ok →
        keys.IsChain (fun a b => compareReapInputOrderKey a b ≠ .gt) →
        (checkReapInputs v p none 0 0 tis = .ok () ↔ TiersOk p 0 0 (keys.map (·.amount))) := by
  refine ⟨fun cs => ⟨?_, tiersOk_iff⟩, fun v tis keys hkeys horder => ?_⟩
  · rw [tiersOk_iff, isPrefix_pickedInputs hmax hdustMax hthreshold hdust hbudget]
  · rw [checkReapInputs_eq_ok hdust hkeys, tiersOk_iff]
    exact and_iff_right horder

end Selection

/-- The parameters of the regression test network with room for one normal and two dust inputs. -/
def Sample.smallCaps : ExpiryParams :=
  { Chaincfg.regTestExpiryParams with reapMaxInputs := 1, reapDustMaxInputs := 2 }

/-- The same caps for selection, without a weight budget. -/
def Sample.smallSelection : REAPParams :=
  { defaultREAPParams with maxInputs := 1, dustMaxInputs := 2, weightBudget := 0 }

theorem tier_caps_agree_smallCaps :
    TiersOk Sample.smallCaps 0 0 [500, 100000] ∧
      [Sample.dustOp, Sample.op] <+: pickedInputs 200
        [⟨Sample.dustOp, 150, 500⟩, ⟨Sample.op, 151, 100000⟩] Sample.smallSelection := by
  have hagree := (tier_caps_agree (p := Sample.smallCaps) (r := Sample.smallSelection) rfl rfl rfl
    (by decide) (by decide) 200).1 [⟨Sample.dustOp, 150, 500⟩, ⟨Sample.op, 151, 100000⟩]
  have htiers : TiersOk Sample.smallCaps 0 0 [500, 100000] :=
    ⟨1, 0, by decide, 1, 1, by decide, trivial⟩
  exact ⟨htiers, hagree.1.1 htiers⟩

/-! ## What selection picks -/

instance (p : ExpiryParams) (d n : Nat) : Decidable (CapReached p d n) :=
  inferInstanceAs (Decidable (_ ∨ _))

/-- The candidates before which no cap has been reached, when `d` and `n` inputs of the two tiers
came before the first. -/
def picked (p : ExpiryParams) : Nat → Nat → List ReapPrefixCandidate → List ReapPrefixCandidate
  | _, _, [] => []
  | d, n, c :: cs =>
    if CapReached p d n then []
    else c :: picked p (tierStep p c.amount d n).1 (tierStep p c.amount d n).2 cs

variable {n d : Nat}

theorem picked_of_capReached (h : CapReached p d n) (cs : List ReapPrefixCandidate) :
    picked p d n cs = [] := by
  cases cs with
  | nil => rfl
  | cons c cs => rw [picked, if_pos h]

variable {cs : List ReapPrefixCandidate}

theorem picked_subset {c : ReapPrefixCandidate} (h : c ∈ picked p d n cs) : c ∈ cs := by
  induction cs generalizing d n with
  | nil => exact h
  | cons c' cs ih =>
    rw [picked] at h
    split at h
    · cases h
    · rcases mem_cons.1 h with rfl | h
      · exact mem_cons_self
      · exact mem_cons_of_mem _ (ih h)

/-- Only the amounts decide. -/
theorem picked_map {f : ReapPrefixCandidate → ReapPrefixCandidate}
    (hf : ∀ c, (f c).amount = c.amount) (d n : Nat) (cs : List ReapPrefixCandidate) :
    picked p d n (cs.map f) = (picked p d n cs).map f := by
  induction cs generalizing d n with
  | nil => rfl
  | cons c cs ih =>
    rw [map_cons, picked, picked, hf]
    split
    · rfl
    · rw [ih, map_cons]

/-- What is picked, by position: the candidates with no cap reached before them. -/
theorem mem_picked {c : ReapPrefixCandidate} : c ∈ picked p d n cs ↔ ∃ k, cs[k]? = some c ∧
      ¬ CapReached p (d + dustCount p ((cs.take k).map (·.amount)))
        (n + normalCount p ((cs.take k).map (·.amount))) := by
  induction cs generalizing d n with
  | nil => simp [picked]
  | cons c' cs ih =>
    have hcount : ∀ k, d + dustCount p (((c' :: cs).take (k + 1)).map (·.amount)) =
          (tierStep p c'.amount d n).1 + dustCount p ((cs.take k).map (·.amount)) ∧
        n + normalCount p (((c' :: cs).take (k + 1)).map (·.amount)) =
          (tierStep p c'.amount d n).2 + normalCount p ((cs.take k).map (·.amount)) := by
      intro k
      rw [tierStep_eq, take_succ_cons, map_cons, ← singleton_append]
      simp only [dustCount, normalCount, countP_append]
      omega
    rw [picked]
    by_cases hcap : CapReached p d n
    · -- a cap that has been reached stays reached
      rw [if_pos hcap]
      refine iff_of_false not_mem_nil ?_
      rintro ⟨k, -, hk⟩
      refine hk ?_
      rw [CapReached] at hcap ⊢
      omega
    · rw [if_neg hcap, mem_cons, ih]
      constructor
      · rintro (rfl | ⟨k, hget, hk⟩)
        · exact ⟨0, rfl, by simpa [dustCount, normalCount] using hcap⟩
        · refine ⟨k + 1, hget, ?_⟩
          rwa [(hcount k).1, (hcount k).2]
      · rintro ⟨_ | k, hget, hk⟩
        · exact .inl (Option.some.inj hget).symm
        · rw [(hcount k).1, (hcount k).2] at hk
          exact .inr ⟨k, hget, hk⟩

/-- Leaving out candidates that are not picked does not change what is. -/
theorem picked_filter {q : ReapPrefixCandidate → Bool} (h : ∀ c ∈ picked p d n cs, q c = true) :
    picked p d n (cs.filter q) = picked p d n cs := by
  induction cs generalizing d n with
  | nil => rfl
  | cons c cs ih =>
    by_cases hcap : CapReached p d n
    · rw [picked_of_capReached hcap, picked_of_capReached hcap]
    · rw [picked, if_neg hcap] at h
      obtain ⟨hc, hcs⟩ := forall_mem_cons.1 h
      rw [filter_cons_of_pos hc, picked, if_neg hcap, picked, if_neg hcap, ih hcs]

/-- The caps end selection before the candidates that are asked for do. -/
theorem picked_take {limit : Nat}
    (h : p.reapMaxInputs + p.reapDustMaxInputs ≤ (limit + d + n : Nat)) :
    picked p d n (cs.take limit) = picked p d n cs := by
  induction cs generalizing d n limit with
  | nil => rw [take_nil]
  | cons c cs ih =>
    by_cases hcap : CapReached p d n
    · rw [picked_of_capReached hcap, picked_of_capReached hcap]
    · cases limit with
      | zero =>
        rw [CapReached] at hcap
        omega
      | succ limit =>
        have hstep : (tierStep p c.amount d n).1 + (tierStep p c.amount d n).2 = d + n + 1 := by
          rw [tierStep]
          split <;> dsimp only <;> omega
        rw [take_succ_cons, picked, if_neg hcap, picked, if_neg hcap, ih (by omega)]

/-- The weight of a transaction with as many inputs as the caps allow is within the budget. -/
def Roomy (p : ExpiryParams) : Prop :=
  (estimateTieredBlueprintWeight p.reapDustMaxInputs.toNat p.reapMaxInputs.toNat : Int) ≤
    p.reapMaxWeight.toInt

theorem getExpiryParams_roomy {params : Params} (h : getExpiryParams params = some p) :
    Roomy p := by
  rw [Roomy]
  rcases Chaincfg.getExpiryParams_cases h with rfl | rfl | rfl <;> decide

/-- Selection picks the candidates before which no cap has been reached. -/
theorem selectLoop_eq_picked {r : REAPParams} (hm : r.Matches p) (hdust : 0 < p.reapDustMaxInputs)
    (hroomy : Roomy p) (d n : Nat) (plan : REAPPlan) (cs : List ReapPrefixCandidate) :
    selectLoop r d n plan cs = (picked p d n cs).foldl (fun plan c => plan.pick c r) plan := by
  induction cs generalizing d n plan with
  | nil => rfl
  | cons c cs ih =>
    rw [selectLoop, isDustTierAmount_eq hm]
    by_cases hcap : CapReached p d n
    · have hcan : ¬ canSelectTierCandidate (isReapDustTierAmount c.amount p) d n r = true := by
        rw [canSelectTierCandidate_eq hm.maxInputs hm.dustMaxInputs hdust]
        exact not_not.2 hcap
      rw [picked_of_capReached hcap, if_pos (by simpa using hcan)]
      rfl
    · have hcan := (canSelectTierCandidate_eq hm.maxInputs hm.dustMaxInputs hdust
        (isReapDustTierAmount c.amount p) d n).2 hcap
      have hweight : (estimateNextWeight (isReapDustTierAmount c.amount p) d n
          plan.inputs.length r : Int) ≤ r.weightBudget.toInt := by
        rw [Roomy, estimateTieredBlueprintWeight] at hroomy
        rw [CapReached, not_or, not_le, not_le] at hcap
        rw [estimateNextWeight, hm.dustMaxInputs, if_neg (by omega), hm.weightBudget]
        refine le_trans ?_ hroomy
        simp only [estimateTieredBlueprintWeight, estBaseWeight, estInputWeight,
          estRefundOutputWeight, estMarkOutputWeight]
        split <;> omega
      rw [hcan, if_neg (by decide), if_neg (by simp [not_lt.2 hweight]), picked, if_neg hcap,
        tierStep_eq_ite, foldl_cons]
      generalize (if isReapDustTierAmount c.amount p then d + 1 else d) = d'
      generalize (if isReapDustTierAmount c.amount p then n else n + 1) = n'
      by_cases hlimit : tierLimitReached d' n' r = true
      · rw [if_pos hlimit, picked_of_capReached
          ((tierLimitReached_eq hm.maxInputs hm.dustMaxInputs hdust d' n').1 hlimit)]
        rfl
      · rw [if_neg hlimit, ih]

/-- The plan made of some candidates. -/
def planOf (r : REAPParams) (tip : Int32) (cs : List ReapPrefixCandidate) : REAPPlan :=
  cs.foldl (fun plan c => plan.pick c r) ⟨[], 0, 0, tip⟩

theorem inputs_planOf (r : REAPParams) (tip : Int32) (cs : List ReapPrefixCandidate) :
    (planOf r tip cs).inputs = cs.map (·.outPoint) := by
  suffices h : ∀ plan : REAPPlan, (cs.foldl (fun plan c => plan.pick c r) plan).inputs =
      plan.inputs ++ cs.map (·.outPoint) from h ⟨[], 0, 0, tip⟩
  intro plan
  induction cs generalizing plan with
  | nil => simp
  | cons c cs ih => rw [foldl_cons, ih]; simp [REAPPlan.pick]

end Mining

end Obtcd
