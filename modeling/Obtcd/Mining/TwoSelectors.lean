import Obtcd.Mining.ReapPlan

/-!
# Two ways to select

`selectCandidatesWithScanner` pages through `expiry-to-outpoints`, looks every output up in a view and
sorts what it finds; `SelectPrefixCandidates` is given the beginning of the bucket of strict keys, as
much of it as `PrefixCandidateLimit` says.  The two lists are in the same order, and the limit is no
less than the caps allow to pick (`selectLoop_take`), so the two plans are the same.

There are two exceptions.  A negative height becomes a very large expiry key for the scan, which
then returns every output of the index, while `ReapPrefixCandidates` returns none.  And the limit is
a sum that may overflow, in which case nothing is asked for.  `selectors_agree_iff` says that these
are all: the plans differ exactly if one of the two happens and there is anything to select.
-/

namespace Obtcd.Mining

open ExpiryIndex (Index Buckets)

/-- The view has every covered output of `u`, unspent and with its amount. -/
def ShowsIndexed (view : UtxoViewpoint) (ip : ExpiryIndex.ExpiryParams) (u : Utxos) : Prop :=
  ∀ (op : OutPoint) (coin : SpentTxOut), u[op]? = some coin → ip.Covers coin →
    (view.unspent op).map UtxoEntry.amount = some coin.amount

/-- `SelectPrefixCandidates`, of what `ReapPrefixCandidates` returns for `PrefixCandidateLimit`. -/
def selectFromPrefix (tip : Int32) (idx : Index) (db : Buckets) (r : REAPParams) :
    Except GoError REAPPlan := do
  let candidates ← idx.reapPrefixCandidates db tip r.prefixCandidateLimit.toNat
  selectPrefixCandidates tip candidates r

/-! ## The loop -/

/-- How many more inputs the caps allow. -/
def room (r : REAPParams) (d n : Nat) : Nat :=
  if r.dustMaxInputs ≤ 0 then (r.maxInputs - (d + n : Nat)).toNat
  else (r.dustMaxInputs - d).toNat + (r.maxInputs - n).toNat

theorem room_pos {r : REAPParams} {dustTier : Bool} {d n : Nat}
    (h : canSelectTierCandidate dustTier d n r = true) : 0 < room r d n := by
  rw [canSelectTierCandidate] at h
  rw [room]
  split_ifs at h ⊢ with hdust hcap
  · have := of_decide_eq_true h
    omega
  · simp only [Bool.or_eq_true, decide_eq_true_eq, not_or] at hcap
    omega
  · simp only [Bool.or_eq_true, decide_eq_true_eq, not_or] at hcap
    omega

/-- An input takes up room, unless a cap has been reached with it. -/
theorem room_step {r : REAPParams} {dustTier : Bool} {d n k : Nat} (hk : room r d n ≤ k + 1)
    (hlimit : ¬ tierLimitReached (if dustTier then d + 1 else d) (if dustTier then n else n + 1) r =
      true) :
    room r (if dustTier then d + 1 else d) (if dustTier then n else n + 1) ≤ k := by
  rw [room] at hk ⊢
  rw [tierLimitReached] at hlimit
  cases dustTier <;> split_ifs at hk hlimit ⊢ with hdust <;> simp at hlimit <;> simp <;> omega

/-- A list that is cut off behind what the caps allow is as good as the whole. -/
theorem selectLoop_take (r : REAPParams) (d n : Nat) (plan : REAPPlan)
    (cs : List ReapPrefixCandidate) {k : Nat} (hk : room r d n ≤ k) :
    selectLoop r d n plan (cs.take k) = selectLoop r d n plan cs := by
  induction cs generalizing d n plan k with
  | nil => rw [List.take_nil]
  | cons c cs ih =>
    cases k with
    | zero =>
      have hcan : canSelectTierCandidate (isDustTierAmount c.amount r.dustThresholdSat) d n r =
          false := by
        by_contra h
        have := room_pos (Bool.not_eq_false _ ▸ h)
        omega
      rw [List.take_zero, selectLoop, selectLoop]
      simp [hcan]
    | succ k =>
      rw [List.take_succ_cons, selectLoop, selectLoop]
      split
      · rfl
      split
      · rfl
      by_cases hlimit : tierLimitReached
          (if isDustTierAmount c.amount r.dustThresholdSat then d + 1 else d)
          (if isDustTierAmount c.amount r.dustThresholdSat then n else n + 1) r = true
      · rw [if_pos hlimit, if_pos hlimit]
      · rw [if_neg hlimit, if_neg hlimit]
        exact ih _ _ _ (room_step hk hlimit)

/-- The first candidate is always picked. -/
theorem inputs_selectLoop_ne_nil {r : REAPParams} (hmax : 0 < r.maxInputs) (tip : Int32)
    (c : ReapPrefixCandidate) (cs : List ReapPrefixCandidate) :
    (selectLoop r 0 0 ⟨[], 0, 0, tip⟩ (c :: cs)).inputs ≠ [] := by
  have hcan : canSelectTierCandidate (isDustTierAmount c.amount r.dustThresholdSat) 0 0 r = true := by
    rw [canSelectTierCandidate]
    split_ifs with h₁ h₂
    · simpa using hmax
    · simp only [Bool.or_eq_true, decide_eq_true_eq] at h₂
      omega
    · simp only [decide_eq_true_eq]
      omega
    · simpa using hmax
  rw [selectLoop]
  dsimp only
  rw [hcan, if_neg (by decide), if_neg (by simp)]
  generalize (if isDustTierAmount c.amount r.dustThresholdSat then 0 + 1 else 0) = d
  generalize (if isDustTierAmount c.amount r.dustThresholdSat then 0 else 0 + 1) = n
  split
  · simp [REAPPlan.pick]
  · obtain ⟨k, hk⟩ := inputs_selectLoop r d n ((⟨[], 0, 0, tip⟩ : REAPPlan).pick c r) cs
    rw [hk]
    simp [REAPPlan.pick]

/-! ## The two plans -/

section Agree

variable {idx : Index} {u : Utxos} {db : Buckets} {r : REAPParams} {view : UtxoViewpoint} {tip : Int32}

section Plans

variable (hidx : idx.disabled = false) (hrep : idx.expiryParams.RepBuckets u db)

include hidx hrep

/-- The selection that scans, in terms of the outputs that are unspent. -/
theorem scanned_plan (hview : ShowsIndexed view idx.expiryParams u) (hbatch : 1 ≤ r.scanBatch)
    (hmax : 0 < r.maxInputs) (hdust : 0 ≤ r.dustMaxInputs) (tip : Int32) {pages : Nat}
    (hpages : pageBound db ≤ pages) :
    selectCandidatesWithScanner pages tip (idx.scanExpiringUTXOs db) view r .strict =
      .ok (selectLoop r 0 0 ⟨[], 0, 0, tip⟩ (idx.expiryParams.expiredCandidates u tip)) := by
  rw [selectCandidatesWithScanner_eq hidx hrep (by omega) tip hmax hdust view hpages,
    sort_liveRows (fun _ => true) hview, List.filter_true]

theorem prefix_ok (tip : Int32) (limit : Nat) :
    ∃ cs, idx.reapPrefixCandidates db tip limit = .ok cs := by
  by_cases htip : 0 ≤ tip
  · exact ⟨_, ExpiryIndex.reapPrefixCandidates_eq hidx hrep (Int32.le_iff_toInt_le.1 htip) limit⟩
  · refine ⟨[], ?_⟩
    rw [Index.reapPrefixCandidates, hidx, if_neg (by decide), if_pos (Int32.not_le.1 htip)]

/-- The selection from a prefix, at a height that is not negative and with a limit that is large
enough. -/
theorem prefix_plan (hmax : 0 < r.maxInputs) (hdust : 0 ≤ r.dustMaxInputs) (htip : 0 ≤ tip)
    (hfits : r.maxInputs + r.dustMaxInputs < 2 ^ 63) : selectFromPrefix tip idx db r =
      .ok (selectLoop r 0 0 ⟨[], 0, 0, tip⟩ (idx.expiryParams.expiredCandidates u tip)) := by
  have hlimit : room r 0 0 ≤ r.prefixCandidateLimit.toNat := by
    rw [room, REAPParams.prefixCandidateLimit]
    split_ifs
    · simp
    · rw [MachineInt.wrapInt_eq (by omega) hfits]
      simp
      omega
  rw [selectFromPrefix, ExpiryIndex.reapPrefixCandidates_eq hidx hrep
    (Int32.le_iff_toInt_le.1 htip), ok_bind, selectPrefixCandidates, if_neg (by omega),
    if_neg (by omega), selectLoop_take r 0 0 _ _ hlimit]

/-- Otherwise nothing is selected from the prefix. -/
theorem prefix_plan_of_overflow (hmax : 0 < r.maxInputs) (hdust : 0 ≤ r.dustMaxInputs)
    (hmaxInt : r.maxInputs < 2 ^ 63) (hdustInt : r.dustMaxInputs < 2 ^ 63)
    (h : ¬ (0 ≤ tip ∧ r.maxInputs + r.dustMaxInputs < 2 ^ 63)) :
    selectFromPrefix tip idx db r = .ok ⟨[], 0, 0, tip⟩ := by
  have hnone : idx.reapPrefixCandidates db tip r.prefixCandidateLimit.toNat = .ok [] := by
    by_cases htip : 0 ≤ tip
    · have hneg : r.prefixCandidateLimit < 0 := by
        have hover : 2 ^ 63 ≤ r.maxInputs + r.dustMaxInputs := by
          by_contra hlt
          exact h ⟨htip, by omega⟩
        rw [REAPParams.prefixCandidateLimit, if_neg (by omega)]
        exact MachineInt.wrapInt_neg hover (by omega)
      rw [ExpiryIndex.reapPrefixCandidates_eq hidx hrep (Int32.le_iff_toInt_le.1 htip),
        Int.toNat_of_nonpos hneg.le, List.take_zero]
    · rw [Index.reapPrefixCandidates, hidx, if_neg (by decide), if_pos (Int32.not_le.1 htip)]
  rw [selectFromPrefix, hnone, ok_bind, selectPrefixCandidates, if_neg (by omega),
    if_neg (by omega), selectLoop]

end Plans

/-- There is nothing to select: no covered output has an expiry key up to the height, read as an
unsigned number. -/
def NothingExpired (ip : ExpiryIndex.ExpiryParams) (u : Utxos) (tip : Int32) : Prop :=
  ∀ (op : OutPoint) (coin : SpentTxOut), u[op]? = some coin → ip.Covers coin →
    ¬ ip.keyOf coin ≤ tip.toInt64.toUInt64

theorem expiredCandidates_eq_nil {ip : ExpiryIndex.ExpiryParams} :
    ip.expiredCandidates u tip = [] ↔ NothingExpired ip u tip := by
  rw [ExpiryIndex.ExpiryParams.expiredCandidates, List.filter_eq_nil_iff]
  simp only [ExpiryIndex.ExpiryParams.mem_candidates, decide_eq_true_iff]
  constructor
  · intro h op coin hcoin hcov
    exact h _ ⟨op, coin, hcoin, hcov, rfl⟩
  · rintro h _ ⟨op, coin, hcoin, hcov, rfl⟩
    exact h op coin hcoin hcov

/-- Where there is something to select, the first of it is selected. -/
theorem scanned_plan_ne_nil (hmax : 0 < r.maxInputs) (h : ¬ NothingExpired idx.expiryParams u tip) :
    (selectLoop r 0 0 ⟨[], 0, 0, tip⟩ (idx.expiryParams.expiredCandidates u tip)).inputs ≠ [] := by
  rw [← expiredCandidates_eq_nil] at h
  cases hcs : idx.expiryParams.expiredCandidates u tip with
  | nil => exact absurd hcs h
  | cons c cs => exact inputs_selectLoop_ne_nil hmax tip c cs

/-- **The two selectors agree** on every consistent index, for every view that has the indexed outputs
and every batch size, exactly when the parameters are refused by both, or the height is not negative
and the limit does not overflow, or there is nothing to select. -/
theorem selectors_agree_iff (hidx : idx.disabled = false) (hrep : idx.expiryParams.RepBuckets u db)
    (hview : ShowsIndexed view idx.expiryParams u) (hbatch : 1 ≤ r.scanBatch)
    (hmaxInt : r.maxInputs < 2 ^ 63) (hdustInt : r.dustMaxInputs < 2 ^ 63) (tip : Int32)
    {pages : Nat} (hpages : pageBound db ≤ pages) :
    selectCandidatesWithScanner pages tip (idx.scanExpiringUTXOs db) view r .strict =
        selectFromPrefix tip idx db r ↔
      (r.maxInputs ≤ 0 ∨ r.dustMaxInputs < 0) ∨
        (0 ≤ tip ∧ r.maxInputs + r.dustMaxInputs < 2 ^ 63) ∨
        NothingExpired idx.expiryParams u tip := by
  by_cases hrefused : r.maxInputs ≤ 0 ∨ r.dustMaxInputs < 0
  · refine iff_of_true ?_ (.inl hrefused)
    obtain ⟨cs, hcs⟩ := prefix_ok hidx hrep tip r.prefixCandidateLimit.toNat
    rw [selectFromPrefix, hcs, ok_bind, selectPrefixCandidates, selectCandidatesWithScanner]
    by_cases hmax : r.maxInputs ≤ 0
    · rw [if_pos hmax, if_pos hmax]
    · have hdust := hrefused.resolve_left hmax
      rw [if_neg hmax, if_neg hmax, if_pos hdust, if_pos hdust]
  rw [not_or, Int.not_le, Int.not_lt] at hrefused
  obtain ⟨hmax, hdust⟩ := hrefused
  rw [scanned_plan hidx hrep hview hbatch hmax hdust tip hpages,
    or_iff_right (show ¬ (r.maxInputs ≤ 0 ∨ r.dustMaxInputs < 0) by omega)]
  by_cases hok : 0 ≤ tip ∧ r.maxInputs + r.dustMaxInputs < 2 ^ 63
  · exact iff_of_true (prefix_plan hidx hrep hmax hdust hok.1 hok.2).symm (.inl hok)
  · rw [prefix_plan_of_overflow hidx hrep hmax hdust hmaxInt hdustInt hok, or_iff_right hok]
    by_cases hnone : NothingExpired idx.expiryParams u tip
    · refine iff_of_true ?_ hnone
      rw [expiredCandidates_eq_nil.2 hnone, selectLoop]
    · refine iff_of_false (fun h => scanned_plan_ne_nil hmax hnone ?_) hnone
      exact congrArg REAPPlan.inputs (Except.ok.inj h)

end Agree

namespace Sample

/-- A view of the two outputs of the index. -/
def bothView : UtxoViewpoint :=
  (UtxoViewpoint.new.put op (some (.ofCoin coin))).put dustOp (some (.ofCoin dustCoin))

theorem showsIndexed_bothView : ShowsIndexed bothView idx.expiryParams utxos := by
  intro o c hget _
  rw [utxos, OrdMap.getElem?_insert', OrdMap.getElem?_insert'] at hget
  rw [bothView, UtxoViewpoint.unspent, UtxoViewpoint.lookupEntry_put, UtxoViewpoint.lookupEntry_put]
  split_ifs at hget ⊢
  · rw [← Option.some.inj hget]
    rfl
  · rw [← Option.some.inj hget]
    rfl
  · simp at hget

/-- The parameters of the regression test network. -/
def regParams : REAPParams := defaultREAPParamsForNet Chaincfg.obtcRegTestParams

/-- Parameters that pass `Validate` with the largest cap there is. -/
def wideParams : REAPParams := { regParams with maxInputs := 2 ^ 63 - 1, dustMaxInputs := 1 }

theorem expired_utxos {tip : Int32} (h : 154 ≤ tip.toInt64.toUInt64) :
    ¬ NothingExpired idx.expiryParams utxos tip := fun hnone =>
  hnone op coin (by decide +kernel) (show idx.expiryParams.covers coin.height = true by decide)
    (UInt64.le_trans (by decide) h)

end Sample

open Sample in
theorem selectors_agree_iff_bothView :
    selectCandidatesWithScanner (pageBound db) 200 (idx.scanExpiringUTXOs db) bothView regParams
      .strict = selectFromPrefix 200 idx db regParams :=
  (selectors_agree_iff rfl ready.buckets showsIndexed_bothView (by decide) (by decide) (by decide) 200
    (Nat.le_refl _)).2 (.inr (.inl ⟨by decide, by decide⟩))

open Sample in
/-- **The selectors differ** where the limit overflows, and at a negative height: the scan leads to a
plan with an input, the prefix to an empty one. -/
theorem selectors_differ :
    (wideParams.validate = .ok () ∧ selectFromPrefix 200 idx db wideParams = .ok ⟨[], 0, 0, 200⟩ ∧
      ∃ plan, selectCandidatesWithScanner (pageBound db) 200 (idx.scanExpiringUTXOs db) bothView
        wideParams .strict = .ok plan ∧ plan.inputs ≠ []) ∧
    regParams.validate = .ok () ∧ selectFromPrefix (-1) idx db regParams = .ok ⟨[], 0, 0, -1⟩ ∧
      ∃ plan, selectCandidatesWithScanner (pageBound db) (-1) (idx.scanExpiringUTXOs db) bothView
        regParams .strict = .ok plan ∧ plan.inputs ≠ [] :=
  ⟨⟨rfl, prefix_plan_of_overflow rfl ready.buckets (by decide) (by decide) (by decide)
      (by decide) (by decide),
      _, scanned_plan rfl ready.buckets showsIndexed_bothView (by decide) (by decide) (by decide) 200
        (Nat.le_refl _), scanned_plan_ne_nil (by decide) (expired_utxos (by decide))⟩,
    rfl, prefix_plan_of_overflow rfl ready.buckets (by decide) (by decide) (by decide)
      (by decide) (by decide),
      _, scanned_plan rfl ready.buckets showsIndexed_bothView (by decide) (by decide) (by decide) (-1)
        (Nat.le_refl _), scanned_plan_ne_nil (by decide) (expired_utxos (by decide))⟩

end Obtcd.Mining
