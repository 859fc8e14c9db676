import Obtcd.Blockchain.Validate

/-!
# What the REAP rules enforce

The rules of `validation_reap.go` in terms of numbers: when an output is expired, what the refund of
an amount is, and that the outputs of a transaction give back to every script exactly what it is
owed.  `Reap.Sweep` is the whole of it for one transaction.

Two lemmas tie the rules to these terms.  `checkExpirySpendRules_eq_ok` is exact up to the int32 the
expiry key is cut down to, and `expiredAt_iff` says what that does: a key that does not fit is taken
for one long past.  `checkReapTaxRules_eq_ok` is exact as long as the amounts are in range, which
`CheckTransactionSanity` and the later part of `CheckTransactionInputs` see to.
-/

namespace Obtcd

open Chaincfg (Params ExpiryParams getExpiryParams)
open List Tally

namespace Reap

/-! ## The terms -/

/-- An output of height `createHeight` is expired at `height`. -/
def Expired (p : ExpiryParams) (height createHeight : Int) : Prop :=
  createHeight + p.windowBlocks.toNat ≤ height

instance (p : ExpiryParams) (height createHeight : Int) : Decidable (Expired p height createHeight) :=
  inferInstanceAs (Decidable (_ ≤ _))

/-- What is given back of an amount: all but the tax, and nothing of dust. -/
def refund (p : ExpiryParams) (v : Int) : Int :=
  if 0 < v ∧ v < p.reapDustThresholdSat.toInt then 0
  else v - v * p.reapTaxNumerator.toInt / p.reapTaxDenominator.toInt

/-- The unspent outputs that a transaction's inputs find in a view. -/
def spentEntries (v : UtxoViewpoint) (tis : List TxIn) : List UtxoEntry :=
  tis.filterMap fun ti => v.unspent ti.previousOutPoint

theorem spentEntries_cons {v : UtxoViewpoint} {ti : TxIn} {tis : List TxIn} {e : UtxoEntry}
    (h : v.unspent ti.previousOutPoint = some e) :
    spentEntries v (ti :: tis) = e :: spentEntries v tis :=
  filterMap_cons_some h

/-- What some outputs owe to a script. -/
def owedTo (p : ExpiryParams) (es : List UtxoEntry) (script : Bytes) : Int :=
  (es.map fun e => if e.pkScript = script then refund p e.amount.toInt else 0).sum

/-- What a transaction pays to a script. -/
def paidTo (tx : MsgTx) (script : Bytes) : Int :=
  (tx.txOut.map fun o => if o.pkScript = script then o.value.toInt else 0).sum

/-- A transaction sweeps expired outputs: all its inputs are expired, and it pays back to each
script exactly the refunds of the inputs that were locked by it. -/
structure Sweep (p : ExpiryParams) (height : Int32) (v : UtxoViewpoint) (tx : MsgTx) : Prop where
  expired : ∀ ti ∈ tx.txIn, ∃ e, v.unspent ti.previousOutPoint = some e ∧
    Expired p height.toInt e.blockHeight.toInt
  refunds : ∀ script, paidTo tx script = owedTo p (spentEntries v tx.txIn) script

/-! ## Expiry -/

/-- The comparison the code makes: on the key, cut down to 32 bits. -/
theorem expiredAt_iff_bmod (p : ExpiryParams) (txHeight createHeight : Int32) :
    expiredAt p txHeight createHeight = true ↔
      (createHeight.toInt + p.windowBlocks.toNat).bmod (2 ^ 32) ≤ txHeight.toInt := by
  rw [expiredAt, decide_eq_true_iff, ge_iff_le, Int32.le_iff_toInt_le,
    ExpiryParams.calculateExpiryKey, MachineInt.toInt_toInt32_add]

variable {txHeight : Int32} {p : ExpiryParams}

/-- A key that fits an int32 is compared as it should be, and any other counts as expired. -/
theorem expiredAt_iff (hp : p.Sane) (hh : 0 ≤ txHeight.toInt) (createHeight : Int32) :
    expiredAt p txHeight createHeight = true ↔
      Expired p txHeight.toInt createHeight.toInt ∨
        2 ^ 31 ≤ createHeight.toInt + p.windowBlocks.toNat := by
  have hlo := createHeight.le_toInt
  have hhi := createHeight.toInt_lt
  have hw := hp.window_lt
  rw [expiredAt_iff_bmod, Expired]
  by_cases hfit : createHeight.toInt + p.windowBlocks.toNat < 2 ^ 31
  · rw [Int.bmod_eq_of_le (by omega) (by omega)]
    omega
  · have hwrap : (createHeight.toInt + p.windowBlocks.toNat).bmod (2 ^ 32) =
        createHeight.toInt + p.windowBlocks.toNat - 2 ^ 32 := by
      rw [← Int.sub_bmod_right]
      exact Int.bmod_eq_of_le (by omega) (by omega)
    rw [hwrap]
    omega

/-- What the loop over the inputs asks of each. -/
def ExpiryOk (p : ExpiryParams) (txHeight : Int32) (isReap : Bool) (e : UtxoEntry) : Prop :=
  if e.blockHeight = unminedInputHeight then isReap = false
  else expiredAt p txHeight e.blockHeight = isReap

variable {v : UtxoViewpoint}

theorem checkExpiryInputs_eq_ok {isReap : Bool} {tis : List TxIn} :
    checkExpiryInputs v p txHeight isReap tis = .ok () ↔
      ∀ ti ∈ tis, ∃ e, v.unspent ti.previousOutPoint = some e ∧ ExpiryOk p txHeight isReap e := by
  induction tis with
  | nil => simp [checkExpiryInputs]
  | cons ti tis ih =>
    rw [checkExpiryInputs, forall_mem_cons, ← ih]
    cases hget : v.unspent ti.previousOutPoint with
    | none => simp
    | some e =>
      simp only [Option.some.injEq, exists_eq_left', ExpiryOk]
      by_cases hun : e.blockHeight = unminedInputHeight
      · cases isReap <;> simp [hun]
      · cases isReap <;> cases hexp : expiredAt p txHeight e.blockHeight <;> simp [hun]

/-- The expiry rule, for a network and a height at which it is on. -/
theorem checkExpirySpendRules_eq_ok {params : Params} {tx : MsgTx}
    (hp : getExpiryParams params = some p) (hh : p.enableAtHeight ≤ txHeight) :
    checkExpirySpendRules tx txHeight v params = .ok () ↔
      ∀ ti ∈ tx.txIn, ∃ e, v.unspent ti.previousOutPoint = some e ∧
        ExpiryOk p txHeight (isLikelyReapTx tx) e := by
  have hlt : ¬ txHeight < p.enableAtHeight := Int32.not_lt.2 hh
  rw [checkExpirySpendRules, hp]
  dsimp only
  rw [if_neg hlt, checkExpiryInputs_eq_ok]

/-! ## Refunds -/

/-- The refund of an amount, as the code computes it. -/
def reapRefund (p : ExpiryParams) (v : Int64) : Int64 :=
  (applyReapDustRule v (v - reapTaxForValue v p) (reapTaxForValue v p) p).1

/-- An amount in the range of money. -/
def InRange (a : Int64) : Prop := 0 ≤ a.toInt ∧ a.toInt ≤ maxSatoshi.toInt

theorem maxSatoshi_toInt : maxSatoshi.toInt = 2100000000000000 := by decide

theorem toInt_30 : (30 : Int64).toInt = 30 := by decide

theorem toInt_100 : (100 : Int64).toInt = 100 := by decide

theorem toInt_720 : (720 : Int64).toInt = 720 := by decide

section Refund

variable (hp : p.Sane)

include hp

theorem toInt_reapTaxForValue {v : Int64} (hv : InRange v) :
    (reapTaxForValue v p).toInt = v.toInt * 30 / 100 := by
  obtain ⟨hlo, hhi⟩ := hv
  rw [maxSatoshi_toInt] at hhi
  rw [reapTaxForValue, hp.numerator, hp.denominator]
  by_cases h0 : v ≤ 0
  · have hz : v.toInt = 0 := by
      have := Int64.le_iff_toInt_le.1 h0
      rw [Int64.toInt_zero] at this
      omega
    simp [h0, hz]
  · have hguard : ¬ ((v ≤ 0 || (100 : Int64) ≤ 0 || (30 : Int64) ≤ 0) = true) := by
      simp only [h0, decide_false, Bool.false_or]
      decide
    rw [if_neg hguard, MachineInt.toInt_mul_div hlo (by rw [toInt_30]; decide)
      (by rw [toInt_100]; decide) (by rw [toInt_30]; omega), toInt_30, toInt_100]

theorem toInt_sub_tax {v : Int64} (hv : InRange v) :
    (v - reapTaxForValue v p).toInt = v.toInt - v.toInt * 30 / 100 := by
  have htax := toInt_reapTaxForValue hp hv
  obtain ⟨hlo, hhi⟩ := hv
  rw [maxSatoshi_toInt] at hhi
  rw [MachineInt.toInt_sub (by omega) (by omega), htax]

theorem toInt_reapRefund {v : Int64} (hv : InRange v) :
    (reapRefund p v).toInt = refund p v.toInt := by
  have hsub := toInt_sub_tax hp hv
  rw [reapRefund, applyReapDustRule, refund, hp.numerator, hp.denominator, hp.dust, toInt_30,
    toInt_100, toInt_720, if_neg (by decide)]
  have hiff : (v > 0 && v < 720) = true ↔ 0 < v.toInt ∧ v.toInt < 720 := by
    rw [Bool.and_eq_true, decide_eq_true_iff, decide_eq_true_iff, gt_iff_lt, Int64.lt_iff_toInt_lt,
      Int64.lt_iff_toInt_lt, Int64.toInt_zero, toInt_720]
  by_cases hdust : 0 < v.toInt ∧ v.toInt < 720
  · rw [if_pos (hiff.2 hdust), if_pos hdust]
    rfl
  · rwa [if_neg fun h => hdust (hiff.1 h), if_neg hdust]

theorem refund_bounds {v : Int} (hv : 0 ≤ v) : 0 ≤ refund p v ∧ refund p v ≤ v := by
  rw [refund, hp.numerator, hp.denominator, toInt_30, toInt_100]
  split <;> omega

end Refund

/-- The refunds of some outputs, with the scripts they go to. -/
def refundPairs (p : ExpiryParams) (es : List UtxoEntry) : List (Bytes × Int64) :=
  (es.map fun e => (e.pkScript, reapRefund p e.amount)).filter fun x => x.2 > 0

/-- The loop over the inputs adds up the refunds of the outputs they spend. -/
theorem expectedRefunds_eq (hp : p.Sane) {tis : List TxIn}
    (hin : ∀ ti ∈ tis, ∃ e, v.unspent ti.previousOutPoint = some e ∧ InRange e.amount)
    (m : OrdMap Bytes Int64) (t : Int64) : expectedRefunds v p m t tis =
      .ok ((refundPairs p (spentEntries v tis)).foldl (fun m x => add m x.1 x.2) m,
        (spentEntries v tis).foldl (fun t e => t + reapRefund p e.amount) t) := by
  induction tis generalizing m t with
  | nil => rfl
  | cons ti tis ih =>
    obtain ⟨⟨e, hget, hrange⟩, hrest⟩ := forall_mem_cons.1 hin
    have hnonneg : ¬ e.amount - reapTaxForValue e.amount p < 0 := by
      have hsub := toInt_sub_tax hp hrange
      obtain ⟨hlo, -⟩ := hrange
      rw [Int64.lt_iff_toInt_lt, Int64.toInt_zero, hsub]
      omega
    rw [expectedRefunds, hget]
    dsimp only
    rw [if_neg hnonneg, spentEntries_cons hget, foldl_cons]
    have hstep := ih hrest
      (if reapRefund p e.amount > 0 then add m e.pkScript (reapRefund p e.amount) else m)
      (t + reapRefund p e.amount)
    refine hstep.trans ?_
    congr 2
    by_cases hpos : reapRefund p e.amount > 0
    · simp only [refundPairs, map_cons, hpos, decide_true, filter_cons_of_pos, if_true, foldl_cons]
    · simp only [refundPairs, map_cons, hpos, decide_false, Bool.false_eq_true,
        not_false_eq_true, filter_cons_of_neg, if_false]

/-- The loop over the outputs adds up what they pay, if all of them pay something. -/
theorem actualRefunds_eq_ok {os : List TxOut} {m m' : OrdMap Bytes Int64} {t t' : Int64} :
    actualRefunds m t os = .ok (m', t') ↔
      (∀ o ∈ os, 0 < o.value) ∧
        m' = (os.map fun o => (o.pkScript, o.value)).foldl (fun m x => add m x.1 x.2) m ∧
        t' = os.foldl (fun t o => t + o.value) t := by
  induction os generalizing m t with
  | nil => simp [actualRefunds, eq_comm]
  | cons o os ih =>
    rw [actualRefunds]
    by_cases hpos : o.value ≤ 0
    · simp [hpos, Int64.not_lt.2 hpos]
    · rw [if_neg hpos, ih, forall_mem_cons]
      simp [Int64.not_le.1 hpos]

/-- What `isLikelyReapTx` looks at. -/
theorem isLikelyReapTx_iff (tx : MsgTx) :
    isLikelyReapTx tx = true ↔ tx.version = reapTxVersion ∧ ∃ os marker payload,
      tx.txOut = os ++ [marker] ∧ marker.value = 0 ∧
        extractMarkerPayload marker.pkScript = some payload ∧ reapTag ++ [reapSep] <+: payload := by
  rw [isLikelyReapTx]
  by_cases hv : tx.version = reapTxVersion
  · rw [if_neg (not_not.2 hv)]
    rcases eq_nil_or_concat tx.txOut with hnil | ⟨os, marker, hout⟩
    · rw [hnil]
      simp
    · rw [concat_eq_append] at hout
      simp only [hv, true_and, hout, List.getLast?_concat]
      by_cases hval : marker.value = 0
      · rw [if_neg (not_not.2 hval)]
        cases hext : extractMarkerPayload marker.pkScript <;> simp [hval, hext]
      · simp [hval]
  · simp [hv]

section Tax

variable (hp : p.Sane) {es : List UtxoEntry} (hes : ∀ e ∈ es, InRange e.amount)

include hp hes

theorem reapRefund_eq_zero {e : UtxoEntry} (he : e ∈ es)
    (h : decide (reapRefund p e.amount > 0) = false) : (reapRefund p e.amount).toInt = 0 := by
  have hle := Int64.le_iff_toInt_le.1 (Int64.not_lt.1 (of_decide_eq_false h))
  have hnonneg := (refund_bounds hp (hes e he).1).1
  rw [← toInt_reapRefund hp (hes e he)] at hnonneg
  rw [Int64.toInt_zero] at hle
  omega

theorem sumOf_refundPairs (script : Bytes) :
    sumOf (refundPairs p es) script = owedTo p es script := by
  rw [sumOf, refundPairs, sum_filter_pos, map_map, owedTo]
  · congr 1
    refine map_congr_left fun e he => ?_
    simp only [Function.comp_apply, toInt_reapRefund hp (hes e he)]
  · intro x hx hc
    obtain ⟨e, he, rfl⟩ := mem_map.1 hx
    rw [reapRefund_eq_zero hp hes he hc, ite_self]

theorem total_refundPairs :
    total (refundPairs p es) = (es.map fun e => (reapRefund p e.amount).toInt).sum := by
  rw [total, refundPairs, sum_filter_pos, map_map]
  · rfl
  · intro x hx hc
    obtain ⟨e, he, rfl⟩ := mem_map.1 hx
    exact reapRefund_eq_zero hp hes he hc

theorem sum_reapRefund_le :
    (es.map fun e => (reapRefund p e.amount).toInt).sum ≤ (es.map fun e => e.amount.toInt).sum := by
  refine sum_le_sum fun e he => ?_
  rw [toInt_reapRefund hp (hes e he)]
  exact (refund_bounds hp (hes e he).1).2

theorem fits_refundPairs (hsum : (es.map fun e => e.amount.toInt).sum < 2 ^ 63) :
    Tally.Fits (refundPairs p es) where
  pos x hx := by
    have hpos := of_decide_eq_true (mem_filter.1 hx).2
    exact Int64.lt_iff_toInt_lt.1 hpos
  total_lt := by
    have := sum_reapRefund_le hp hes
    rw [total_refundPairs hp hes]
    omega

end Tax

/-- The refund outputs of a transaction, with their scripts. -/
def paidPairs (tx : MsgTx) : List (Bytes × Int64) :=
  tx.txOut.dropLast.map fun o => (o.pkScript, o.value)

variable {tx : MsgTx}

/-- A marker pays nothing, so the refund outputs pay all that is paid. -/
theorem sumOf_paidPairs (hreap : isLikelyReapTx tx = true) (script : Bytes) :
    sumOf (paidPairs tx) script = paidTo tx script := by
  obtain ⟨-, os, marker, payload, hout, hval, -, -⟩ := (isLikelyReapTx_iff tx).1 hreap
  rw [sumOf, paidPairs, paidTo, hout, dropLast_concat, map_map, map_append, sum_append,
    map_singleton, sum_singleton, hval, Int64.toInt_zero, ite_self, Int.add_zero]
  rfl

/-- What a list of outputs pays in all is at least what all but the last pay. -/
theorem sum_dropLast_le {os : List TxOut} (hout : ∀ o ∈ os, 0 ≤ o.value.toInt) :
    (os.dropLast.map fun o => o.value.toInt).sum ≤ (os.map fun o => o.value.toInt).sum := by
  refine List.Sublist.sum_le_sum ((dropLast_sublist os).map _) fun a ha => ?_
  obtain ⟨o, ho, rfl⟩ := mem_map.1 ha
  exact hout o ho

/-- Comparing two maps by size and entry by entry compares them. -/
theorem refunds_differ_iff (actual expected : OrdMap Bytes Int64) :
    (actual.size ≠ expected.size || expected.toList.any fun entry => actual[entry.1]? ≠ some entry.2)
      = false ↔ actual = expected := by
  rw [Bool.or_eq_false_iff, decide_eq_false_iff_not, not_not, any_eq_false]
  refine ⟨fun ⟨hsize, hall⟩ => (OrdMap.eq_of_size_eq hsize fun k a hk => ?_).symm, ?_⟩
  · have := hall (k, a) ((OrdMap.mem_toList expected k a).2 hk)
    simpa using this
  · rintro rfl
    refine ⟨rfl, ?_⟩
    rintro ⟨k, a⟩ hmem
    simpa using (OrdMap.mem_toList actual k a).1 hmem

variable {params : Params}

/-- The tax rule, for a network and a height at which it is on, and amounts in range: every
refund output pays something, and every script is paid what it is owed. -/
theorem checkReapTaxRules_eq_ok (hp : getExpiryParams params = some p)
    (hh : p.enableAtHeight ≤ txHeight) (hreap : isLikelyReapTx tx = true)
    (hin : ∀ ti ∈ tx.txIn, ∃ e, v.unspent ti.previousOutPoint = some e ∧ InRange e.amount)
    (hsum : ((spentEntries v tx.txIn).map fun e => e.amount.toInt).sum < 2 ^ 63)
    (hout : ∀ o ∈ tx.txOut, 0 ≤ o.value.toInt)
    (hsum' : (tx.txOut.map fun o => o.value.toInt).sum < 2 ^ 63) :
    checkReapTaxRules tx txHeight v params = .ok () ↔
      (∀ o ∈ tx.txOut.dropLast, 0 < o.value) ∧
        ∀ script, paidTo tx script = owedTo p (spentEntries v tx.txIn) script := by
  have hsane := Chaincfg.getExpiryParams_sane hp
  have hes : ∀ e ∈ spentEntries v tx.txIn, InRange e.amount := by
    intro e he
    obtain ⟨ti, hti, hget⟩ := mem_filterMap.1 he
    obtain ⟨e', hget', hrange⟩ := hin ti hti
    cases hget.symm.trans hget'
    exact hrange
  have hfits := fits_refundPairs hsane hes hsum
  have hle := sum_dropLast_le hout
  rw [checkReapTaxRules, hreap, hp]
  dsimp only
  rw [if_neg (by decide), if_neg (Int32.not_lt.2 hh), expectedRefunds_eq hsane hin]
  show (actualRefunds ∅ 0 tx.txOut.dropLast >>= _) = _ ↔ _
  by_cases hpos : ∀ o ∈ tx.txOut.dropLast, 0 < o.value
  · have hactual : actualRefunds ∅ 0 tx.txOut.dropLast = .ok (tally (paidPairs tx),
        tx.txOut.dropLast.foldl (fun t o => t + o.value) 0) :=
      actualRefunds_eq_ok.2 ⟨hpos, rfl, rfl⟩
    have hfits' : Tally.Fits (paidPairs tx) := by
      refine ⟨fun x hx => ?_, ?_⟩
      · obtain ⟨o, ho, rfl⟩ := mem_map.1 hx
        exact Int64.lt_iff_toInt_lt.1 (hpos o ho)
      · rw [total, paidPairs, map_map]
        exact lt_of_le_of_lt hle hsum'
    have hsums : tally (paidPairs tx) = tally (refundPairs p (spentEntries v tx.txIn)) ↔
        ∀ script, paidTo tx script = owedTo p (spentEntries v tx.txIn) script := by
      rw [tally_inj hfits' hfits]
      simp only [sumOf_paidPairs hreap, sumOf_refundPairs hsane hes]
    -- equal sums make the totals equal, so the comparison of totals is never the one to fail
    have htotals : tally (paidPairs tx) =
        tally (refundPairs p (spentEntries v tx.txIn)) →
        tx.txOut.dropLast.foldl (fun t o => t + o.value) 0 =
          (spentEntries v tx.txIn).foldl (fun t e => t + reapRefund p e.amount) 0 := by
      intro htally
      have htotal := total_eq_of_sumOf_eq ((tally_inj hfits' hfits).1 htally)
      rw [total_refundPairs hsane hes, total, paidPairs, map_map] at htotal
      have hrle := sum_reapRefund_le hsane hes
      have hrnonneg : ∀ e ∈ spentEntries v tx.txIn, 0 ≤ (reapRefund p e.amount).toInt := by
        intro e he
        rw [toInt_reapRefund hsane (hes e he)]
        exact (refund_bounds hsane (hes e he).1).1
      apply Int64.toInt_inj.1
      rwa [toInt_foldl_add_zero (fun o ho => hout o (mem_of_mem_dropLast ho)) (by omega),
        toInt_foldl_add_zero hrnonneg (by omega)]
    rw [hactual, ok_bind, ← hsums, and_iff_right hpos]
    rw [show (refundPairs p (spentEntries v tx.txIn)).foldl (fun m x => add m x.1 x.2) ∅ =
      tally (refundPairs p (spentEntries v tx.txIn)) from rfl]
    constructor
    · intro h
      split_ifs at h
      · rename_i hdiff
        exact (refunds_differ_iff _ _).1 (Bool.eq_false_iff.2 hdiff)
    · intro htally
      rw [if_neg (not_not.2 (htotals htally)),
        if_neg (Bool.eq_false_iff.1 ((refunds_differ_iff _ _).2 htally))]
  · have hfail : ∀ r, actualRefunds ∅ 0 tx.txOut.dropLast ≠ .ok r :=
      fun r hr => hpos (actualRefunds_eq_ok.1 hr).1
    refine ⟨fun h => ?_, fun h => absurd h.1 hpos⟩
    obtain ⟨r, hr, -⟩ := bind_eq_ok.1 h
    exact absurd hr (hfail r)

/-! ## Amounts in range -/

/-- The input loop lets only amounts in range through, and its total does not overflow. -/
theorem checkInputValues_ok {i : Nat} {t t' : Int64} {tis : List TxIn}
    (h : checkInputValues tx txHeight v params i t tis = .ok t') (ht : InRange t) :
    (∀ ti ∈ tis, ∃ e, v.unspent ti.previousOutPoint = some e ∧ InRange e.amount) ∧
      t'.toInt = t.toInt + ((spentEntries v tis).map fun e => e.amount.toInt).sum ∧
      InRange t' := by
  induction tis generalizing i t with
  | nil =>
    cases h
    exact ⟨by simp, by simp [spentEntries], ht⟩
  | cons ti tis ih =>
    rw [checkInputValues] at h
    cases hget : v.unspent ti.previousOutPoint with
    | none => simp [hget] at h
    | some e =>
      rw [hget] at h
      dsimp only at h
      split_ifs at h with _ hneg hmax htotal
      rw [Bool.or_eq_true, decide_eq_true_iff, decide_eq_true_iff, not_or] at htotal
      have hrange : InRange e.amount :=
        ⟨Int64.le_iff_toInt_le.1 (Int64.not_lt.1 hneg), Int64.le_iff_toInt_le.1 (Int64.not_lt.1 hmax)⟩
      have hsumhi := Int64.le_iff_toInt_le.1 (Int64.not_lt.1 htotal.2)
      have hadd : (t + e.amount).toInt = t.toInt + e.amount.toInt := by
        have h₁ := hrange.2
        have h₂ := ht.2
        rw [maxSatoshi_toInt] at h₁ h₂
        have h₃ := hrange.1
        have h₄ := ht.1
        exact MachineInt.toInt_add (by omega) (by omega)
      obtain ⟨hin, hsum, hrange'⟩ := ih h ⟨by rw [hadd]; exact Int.add_nonneg ht.1 hrange.1, hsumhi⟩
      refine ⟨forall_mem_cons.2 ⟨⟨e, hget, hrange⟩, hin⟩, ?_, hrange'⟩
      rw [hsum, hadd, spentEntries_cons hget, map_cons, sum_cons, Int.add_assoc]

/-- The sanity check lets only outputs in range through. -/
theorem checkOutputValues_ok {t : Int64} {os : List TxOut} (h : checkOutputValues t os = .ok ())
    (ht : InRange t) : (∀ o ∈ os, 0 ≤ o.value.toInt) ∧
      t.toInt + (os.map fun o => o.value.toInt).sum ≤ maxSatoshi.toInt := by
  induction os generalizing t with
  | nil => exact ⟨by simp, by simpa using ht.2⟩
  | cons o os ih =>
    rw [checkOutputValues] at h
    split_ifs at h with hneg hmax htotal htotalmax
    have hneg' : 0 ≤ o.value.toInt := Int64.le_iff_toInt_le.1 (Int64.not_lt.1 hneg)
    have hadd : (t + o.value).toInt = t.toInt + o.value.toInt := by
      have h₁ := Int64.le_iff_toInt_le.1 (Int64.not_lt.1 hmax)
      have h₂ := ht.2
      rw [maxSatoshi_toInt] at h₁ h₂
      have h₃ := ht.1
      exact MachineInt.toInt_add (by omega) (by omega)
    obtain ⟨hout, hsum⟩ := ih h
      ⟨Int64.le_iff_toInt_le.1 (Int64.not_lt.1 htotal),
        Int64.le_iff_toInt_le.1 (Int64.not_lt.1 htotalmax)⟩
    refine ⟨forall_mem_cons.2 ⟨hneg', hout⟩, ?_⟩
    rw [map_cons, sum_cons]
    omega

/-- What the sanity check promises about a transaction's outputs and inputs. -/
theorem checkTransactionSanity_ok (h : checkTransactionSanity tx = .ok ()) :
    tx.txIn ≠ [] ∧ (tx.txIn.map TxIn.previousOutPoint).Nodup ∧ (∀ o ∈ tx.txOut, 0 ≤ o.value.toInt) ∧
      (tx.txOut.map fun o => o.value.toInt).sum ≤ maxSatoshi.toInt := by
  rw [checkTransactionSanity] at h
  split at h
  · cases h
  rename_i hin
  split at h
  · cases h
  split at h
  · cases h
  obtain ⟨⟨⟩, hvalues, h⟩ := bind_eq_ok.1 h
  obtain ⟨hout, hsum⟩ := checkOutputValues_ok hvalues ⟨by decide, by decide⟩
  rw [Int64.toInt_zero, Int.zero_add] at hsum
  split at h
  · cases h
  rename_i hdup
  exact ⟨by simpa using hin, by simpa using hdup, hout, hsum⟩

/-- What `CheckTransactionInputs` lets through: the four REAP rules hold, and the amounts are in
range. -/
structure InputsOk (params : Params) (txHeight : Int32) (v : UtxoViewpoint) (tx : MsgTx) : Prop where
  marker : checkReapMarker tx txHeight = .ok ()
  expiry : checkExpirySpendRules tx txHeight v params = .ok ()
  hardening : checkReapConsensusHardening tx txHeight v params = .ok ()
  tax : checkReapTaxRules tx txHeight v params = .ok ()
  inRange : ∀ ti ∈ tx.txIn, ∃ e, v.unspent ti.previousOutPoint = some e ∧ InRange e.amount
  sum_lt : ((spentEntries v tx.txIn).map fun e => e.amount.toInt).sum < 2 ^ 63

theorem checkTransactionInputs_ok {fee : Int64} (hcb : isCoinBaseTx tx = false)
    (h : checkTransactionInputs tx txHeight v params = .ok fee) :
    InputsOk params txHeight v tx := by
  rw [checkTransactionInputs, hcb, if_neg (by decide)] at h
  obtain ⟨⟨⟩, hmarker, h⟩ := bind_eq_ok.1 h
  obtain ⟨⟨⟩, hexpiry, h⟩ := bind_eq_ok.1 h
  obtain ⟨⟨⟩, hhard, h⟩ := bind_eq_ok.1 h
  obtain ⟨⟨⟩, htax, h⟩ := bind_eq_ok.1 h
  obtain ⟨total, hvalues, -⟩ := bind_eq_ok.1 h
  obtain ⟨hin, hsum, hrange⟩ := checkInputValues_ok hvalues ⟨by decide, by decide⟩
  refine ⟨hmarker, hexpiry, hhard, htax, hin, ?_⟩
  have h₁ := hrange.2
  rw [hsum, Int64.toInt_zero, maxSatoshi_toInt] at h₁
  omega

end Reap

end Obtcd
