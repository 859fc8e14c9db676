import Obtcd.Blockchain.ReapSpec

/-!
# What an accepted REAP transaction adds up to

`checkReapTaxRules` compares what the inputs are owed and what the outputs pay as two maps, by their
totals, their sizes and a lookup for each script that is owed something.  `reap_accounting` draws
the balance: every script is paid the refunds of its inputs and no other script anything, what is
missing between inputs and outputs is the tax, and none of the int64 operations on the way
overflows.

The operations are listed as the loops come to them (`expectedOps`, `actualOps`), so that "does not
overflow" is a statement about each of them and not about the results alone.
-/

namespace Obtcd

open Chaincfg (Params ExpiryParams getExpiryParams)
open List MachineInt

namespace Reap

/-! ## The terms -/

/-- The tax on an amount, as the code computes it. -/
def reapTax (p : ExpiryParams) (v : Int64) : Int64 :=
  (applyReapDustRule v (v - reapTaxForValue v p) (reapTaxForValue v p) p).2

/-- What is given back of an amount: nothing below the dust threshold, and otherwise all but 30% of
it, rounded down. -/
def refundOf (p : ExpiryParams) (v : Int) : Int :=
  if v < p.reapDustThresholdSat.toInt then 0 else v - v * 30 / 100

/-- What a transaction's outputs other than the marker pay to a script. -/
def refundedTo (tx : MsgTx) (script : Bytes) : Int :=
  (tx.txOut.dropLast.map fun o => if o.pkScript = script then o.value.toInt else 0).sum

/-- The operations of `reapTaxForValue`. -/
def taxOps (p : ExpiryParams) (v : Int64) : List Op :=
  if v ≤ 0 || p.reapTaxDenominator ≤ 0 || p.reapTaxNumerator ≤ 0 then []
  else [.mul v p.reapTaxNumerator, .div (v * p.reapTaxNumerator) p.reapTaxDenominator]

/-- The operations of the loop over the inputs. -/
def expectedOps (v : UtxoViewpoint) (p : ExpiryParams) :
    OrdMap Bytes Int64 → Int64 → List TxIn → List Op
  | _, _, [] => []
  | m, total, ti :: tis =>
    match v.unspent ti.previousOutPoint with
    | none => []
    | some e =>
      let tax := reapTaxForValue e.amount p
      taxOps p e.amount ++ .sub e.amount tax ::
        if e.amount - tax < 0 then []
        else
          let refund := (applyReapDustRule e.amount (e.amount - tax) tax p).1
          (if refund > 0 then [.add ((m[e.pkScript]?).getD 0) refund] else []) ++
            .add total refund ::
              expectedOps v p (if refund > 0 then Tally.add m e.pkScript refund else m)
                (total + refund) tis

/-- The operations of the loop over the outputs. -/
def actualOps : OrdMap Bytes Int64 → Int64 → List TxOut → List Op
  | _, _, [] => []
  | m, total, o :: os =>
    if o.value ≤ 0 then []
    else
      .add ((m[o.pkScript]?).getD 0) o.value :: .add total o.value ::
        actualOps (Tally.add m o.pkScript o.value) (total + o.value) os

/-- The operations of `checkReapTaxRules` on a REAP transaction. -/
def reapTaxOps (tx : MsgTx) (v : UtxoViewpoint) (p : ExpiryParams) : List Op :=
  expectedOps v p ∅ 0 tx.txIn ++ actualOps ∅ 0 tx.txOut.dropLast

/-- The operations by which `CheckTransactionInputs` finds the fee. -/
def feeOps (tx : MsgTx) (v : UtxoViewpoint) : List Op :=
  let ins := (spentEntries v tx.txIn).map (·.amount)
  let outs := tx.txOut.map (·.value)
  sumOps 0 ins ++ sumOps 0 outs ++ [.sub (ins.foldl (· + ·) 0) (outs.foldl (· + ·) 0)]

/-- **The balance of a REAP transaction.** -/
structure Balanced (p : ExpiryParams) (txHeight : Int32) (v : UtxoViewpoint) (params : Params)
    (tx : MsgTx) : Prop where
  /-- Every input is unspent. -/
  unspent : ∀ ti ∈ tx.txIn, (v.unspent ti.previousOutPoint).isSome
  /-- Each script is paid the refunds of the inputs that were locked by it. -/
  refunds : ∀ script, refundedTo tx script =
    ((spentEntries v tx.txIn).map fun e =>
      if e.pkScript = script then refundOf p e.amount.toInt else 0).sum
  /-- No other script is paid. -/
  scripts : ∀ o ∈ tx.txOut.dropLast, ∃ e ∈ spentEntries v tx.txIn, e.pkScript = o.pkScript
  /-- What is not paid out is the tax. -/
  taxes : ((spentEntries v tx.txIn).map fun e => e.amount.toInt).sum -
      (tx.txOut.map fun o => o.value.toInt).sum =
    ((spentEntries v tx.txIn).map fun e => (reapTax p e.amount).toInt).sum
  /-- It is the fee. -/
  fee : ∀ fee, isCoinBaseTx tx = false → checkTransactionInputs tx txHeight v params = .ok fee →
    fee.toInt = ((spentEntries v tx.txIn).map fun e => (reapTax p e.amount).toInt).sum
  /-- Each input is split into refund and tax. -/
  split : ∀ e ∈ spentEntries v tx.txIn, (reapRefund p e.amount).toInt = refundOf p e.amount.toInt ∧
    (reapTax p e.amount).toInt + (reapRefund p e.amount).toInt = e.amount.toInt
  /-- No operation overflows. -/
  exact : ∀ op ∈ reapTaxOps tx v p ++ feeOps tx v, op.Exact

/-! ## One input -/

section Input

variable {p : ExpiryParams} (hp : p.Sane)

include hp

theorem refund_eq_refundOf {v : Int} (hv : 0 ≤ v) : refund p v = refundOf p v := by
  rw [refund, refundOf, hp.numerator, hp.denominator, hp.dust, toInt_30, toInt_100, toInt_720]
  split_ifs <;> omega

theorem toInt_reapTax_add {v : Int64} (hv : InRange v) :
    (reapTax p v).toInt + (reapRefund p v).toInt = v.toInt := by
  have htax := toInt_reapTaxForValue hp hv
  have hsub := toInt_sub_tax hp hv
  rw [reapTax, reapRefund, applyReapDustRule]
  split_ifs
  · rw [hsub, htax]
    omega
  · rw [Int64.toInt_zero, Int.add_zero]
  · rw [hsub, htax]
    omega

theorem exact_taxOps {v : Int64} (hv : InRange v) : ∀ op ∈ taxOps p v, op.Exact := by
  obtain ⟨hlo, hhi⟩ := hv
  rw [maxSatoshi_toInt] at hhi
  have hmul : (v * 30).toInt = v.toInt * 30 := by
    rw [Int64.toInt_mul, toInt_30]
    exact Int.bmod_eq_of_le (by omega) (by omega)
  rw [taxOps, hp.numerator, hp.denominator]
  split_ifs
  · simp
  · intro op hop
    rcases mem_pair.1 hop with rfl | rfl
    · rw [Op.Exact, hmul, toInt_30]
    · rw [Op.Exact, Int64.toInt_div, hmul, toInt_100, Int.tdiv_eq_ediv_of_nonneg (by omega)]
      exact Int.bmod_eq_of_le (by omega) (by omega)

end Input

/-! ## The loops -/

theorem refundPairs_append (p : ExpiryParams) (es : List UtxoEntry) (e : UtxoEntry) :
    refundPairs p (es ++ [e]) = refundPairs p es ++
      if reapRefund p e.amount > 0 then [(e.pkScript, reapRefund p e.amount)] else [] := by
  rw [refundPairs, refundPairs, map_append, filter_append, map_singleton]
  congr 1
  by_cases h : reapRefund p e.amount > 0
  · rw [if_pos h, filter_cons_of_pos (by simpa using h), filter_nil]
  · rw [if_neg h, filter_cons_of_neg (by simpa using h), filter_nil]

section Inputs

variable {p : ExpiryParams} (hp : p.Sane) {es : List UtxoEntry} {e : UtxoEntry}
  (hes : ∀ e' ∈ es ++ [e], InRange e'.amount)
  (hsum : ((es ++ [e]).map fun e => e.amount.toInt).sum < 2 ^ 63)

include hp hes

theorem reapRefund_nonneg {e' : UtxoEntry} (he' : e' ∈ es ++ [e]) :
    0 ≤ (reapRefund p e'.amount).toInt := by
  rw [toInt_reapRefund hp (hes e' he')]
  exact (refund_bounds hp (hes e' he').1).1

include hsum

/-- Adding the next refund to the total does not overflow: the refunds are at most the amounts. -/
theorem exact_refundTotal :
    (Op.add (es.foldl (fun t e => t + reapRefund p e.amount) 0) (reapRefund p e.amount)).Exact := by
  have hle := sum_reapRefund_le hp hes
  have hlast : 0 ≤ (reapRefund p e.amount).toInt := reapRefund_nonneg hp hes (by simp)
  have hnonneg : ∀ e' ∈ es, 0 ≤ (reapRefund p e'.amount).toInt := fun e' he' =>
    reapRefund_nonneg hp hes (mem_append_left _ he')
  have hsums := sum_map_nonneg hnonneg
  rw [map_append, sum_append, map_singleton, sum_singleton] at hle
  have hfit : (es.map fun e => (reapRefund p e.amount).toInt).sum + (reapRefund p e.amount).toInt <
      2 ^ 63 := lt_of_le_of_lt hle hsum
  have htotal := Tally.toInt_foldl_add_zero hnonneg (by omega)
  refine .add ?_ ?_
  · rw [htotal]
    omega
  · rwa [htotal]

/-- Adding the next refund under its script does not overflow. -/
theorem exact_refundByScript (hpos : reapRefund p e.amount > 0) :
    (Op.add (((Tally.tally (refundPairs p es))[e.pkScript]?).getD 0)
      (reapRefund p e.amount)).Exact := by
  have hfits := fits_refundPairs hp hes hsum
  rw [refundPairs_append, if_pos hpos] at hfits
  exact Tally.exact_add hfits

end Inputs

variable {v : UtxoViewpoint}

/-- The loop over the inputs does not overflow, after some entries whose amounts fit together with
those to come. -/
theorem exact_expectedOps {p : ExpiryParams} (hp : p.Sane) {tis : List TxIn}
    (hin : ∀ ti ∈ tis, ∀ e, v.unspent ti.previousOutPoint = some e → InRange e.amount)
    (es : List UtxoEntry) (hes : ∀ e ∈ es, InRange e.amount)
    (hsum : ((es ++ spentEntries v tis).map fun e => e.amount.toInt).sum < 2 ^ 63) :
    ∀ op ∈ expectedOps v p (Tally.tally (refundPairs p es))
      (es.foldl (fun t e => t + reapRefund p e.amount) 0) tis, op.Exact := by
  induction tis generalizing es with
  | nil => simp [expectedOps]
  | cons ti tis ih =>
    obtain ⟨hti, htis⟩ := forall_mem_cons.1 hin
    rw [expectedOps]
    cases hget : v.unspent ti.previousOutPoint with
    | none => simp
    | some e =>
      have he := hti e hget
      have hsub := toInt_sub_tax hp he
      have hes' : ∀ e' ∈ es ++ [e], InRange e'.amount := by
        rw [forall_mem_append, forall_mem_singleton]
        exact ⟨hes, he⟩
      rw [spentEntries_cons hget, append_cons] at hsum
      have hfit : ((es ++ [e]).map fun e => e.amount.toInt).sum < 2 ^ 63 := by
        have hrest : 0 ≤ ((spentEntries v tis).map fun e => e.amount.toInt).sum := by
          refine sum_map_nonneg fun e' he' => ?_
          obtain ⟨ti', hti', hget'⟩ := mem_filterMap.1 he'
          exact (htis ti' hti' e' hget').1
        rw [map_append, sum_append] at hsum
        omega
      have hstep := ih htis _ hes' hsum
      rw [refundPairs_append, foldl_append] at hstep
      have hrefund : (applyReapDustRule e.amount (e.amount - reapTaxForValue e.amount p)
        (reapTaxForValue e.amount p) p).1 = reapRefund p e.amount := rfl
      have hneg : ¬ e.amount - reapTaxForValue e.amount p < 0 := by
        have hlo := he.1
        rw [Int64.lt_iff_toInt_lt, Int64.toInt_zero, hsub]
        omega
      rw [forall_mem_append, forall_mem_cons, if_neg hneg, hrefund,
        forall_mem_append, forall_mem_cons]
      refine ⟨exact_taxOps hp he, ?_, ?_, exact_refundTotal hp hes' hfit, ?_⟩
      · rw [Op.Exact, hsub, toInt_reapTaxForValue hp he]
      · split_ifs with hpos
        · exact forall_mem_singleton.2 (exact_refundByScript hp hes' hfit hpos)
        · simp
      · split_ifs with hpos
        · rw [if_pos hpos, Tally.tally_append] at hstep
          exact hstep
        · rw [if_neg hpos, append_nil] at hstep
          exact hstep

/-- The loop over the outputs does not overflow, after some that fit together with those to come. -/
theorem exact_actualOps {os : List TxOut} (os₀ : List TxOut) (hpos₀ : ∀ o ∈ os₀, 0 < o.value.toInt)
    (hnonneg : ∀ o ∈ os, 0 ≤ o.value.toInt)
    (hsum : ((os₀ ++ os).map fun o => o.value.toInt).sum < 2 ^ 63) :
    ∀ op ∈ actualOps (Tally.tally (os₀.map fun o => (o.pkScript, o.value)))
      (os₀.foldl (fun t o => t + o.value) 0) os, op.Exact := by
  induction os generalizing os₀ with
  | nil => simp [actualOps]
  | cons o os ih =>
    obtain ⟨-, hos⟩ := forall_mem_cons.1 hnonneg
    rw [actualOps]
    split_ifs with hle
    · simp
    have hpos : 0 < o.value.toInt := Int64.lt_iff_toInt_lt.1 (Int64.not_le.1 hle)
    have hpos' : ∀ o' ∈ os₀ ++ [o], 0 < o'.value.toInt := by
      rw [forall_mem_append, forall_mem_singleton]
      exact ⟨hpos₀, hpos⟩
    rw [append_cons] at hsum
    have hrest := sum_map_nonneg hos
    have hstep := ih _ hpos' hos hsum
    rw [map_append, sum_append, map_append, sum_append, map_singleton, sum_singleton] at hsum
    have hfits : Tally.Fits ((os₀.map fun o => (o.pkScript, o.value)) ++ [(o.pkScript, o.value)]) := by
      refine ⟨?_, ?_⟩
      · rw [forall_mem_append, forall_mem_singleton, forall_mem_map]
        exact ⟨hpos₀, hpos⟩
      · rw [Tally.total_append, Tally.total, map_map]
        change (os₀.map fun o => o.value.toInt).sum + o.value.toInt < 2 ^ 63
        omega
    have hnonneg₀ : ∀ o' ∈ os₀, 0 ≤ o'.value.toInt := fun o' ho' => le_of_lt (hpos₀ o' ho')
    have hsums := sum_map_nonneg hnonneg₀
    have htotal := Tally.toInt_foldl_add_zero hnonneg₀ (by omega)
    rw [map_append, map_singleton, Tally.tally_append, foldl_append] at hstep
    rw [forall_mem_cons, forall_mem_cons]
    exact ⟨Tally.exact_add hfits, .add (by rw [htotal]; omega) (by rw [htotal]; omega), hstep⟩

/-- If the loop over the inputs succeeds it found them all. -/
theorem isSome_of_expectedRefunds {p : ExpiryParams} {m : OrdMap Bytes Int64} {t : Int64}
    {tis : List TxIn} {r : OrdMap Bytes Int64 × Int64} (h : expectedRefunds v p m t tis = .ok r) :
    ∀ ti ∈ tis, (v.unspent ti.previousOutPoint).isSome := by
  induction tis generalizing m t with
  | nil => simp
  | cons ti tis ih =>
    rw [expectedRefunds] at h
    cases hget : v.unspent ti.previousOutPoint with
    | none => simp [hget] at h
    | some e =>
      rw [hget] at h
      dsimp only at h
      split at h
      · cases h
      · exact forall_mem_cons.2 ⟨by rw [hget]; rfl, ih h⟩

/-! ## The balance -/

/-- Finding the fee does not overflow. -/
theorem exact_feeOps {tx : MsgTx} (hes : ∀ e ∈ spentEntries v tx.txIn, InRange e.amount)
    (hsum : ((spentEntries v tx.txIn).map fun e => e.amount.toInt).sum ≤ maxSatoshi.toInt)
    (hout : ∀ o ∈ tx.txOut, 0 ≤ o.value.toInt)
    (hsum' : (tx.txOut.map fun o => o.value.toInt).sum ≤ maxSatoshi.toInt) :
    ∀ op ∈ feeOps tx v, op.Exact := by
  have hzero : (0 : Int64).toInt = 0 := Int64.toInt_zero
  rw [maxSatoshi_toInt] at hsum hsum'
  have hins : ∀ a ∈ (spentEntries v tx.txIn).map (·.amount), 0 ≤ a.toInt := by
    rw [forall_mem_map]
    exact fun e he => (hes e he).1
  have houts : ∀ a ∈ tx.txOut.map (·.value), 0 ≤ a.toInt := by
    rwa [forall_mem_map]
  have hfit : (((spentEntries v tx.txIn).map (·.amount)).map Int64.toInt).sum ≤
      2100000000000000 := by
    rwa [map_map]
  have hfit' : ((tx.txOut.map (·.value)).map Int64.toInt).sum ≤ 2100000000000000 := by
    rw [map_map]
    exact hsum'
  have hnonneg := sum_map_nonneg hins
  have hnonneg' := sum_map_nonneg houts
  have hin : _ = (map Int64.toInt _).sum :=
    Tally.toInt_foldl_add_zero hins (hfit.trans_lt (by decide))
  have hout : _ = (map Int64.toInt _).sum :=
    Tally.toInt_foldl_add_zero houts (hfit'.trans_lt (by decide))
  rw [feeOps, forall_mem_append, forall_mem_append, forall_mem_singleton]
  refine ⟨⟨exact_sumOps (by decide) hins (by rw [hzero]; omega),
    exact_sumOps (by decide) houts (by rw [hzero]; omega)⟩, .sub ?_ ?_⟩
  · rw [hin, hout]
    omega
  · rw [hin, hout]
    omega

/-- **The accounting of a REAP transaction.**  A transaction with sane outputs, whose inputs are in
the range of money one by one and together, and that `checkReapTaxRules` accepts where the rule is
on, is balanced. -/
theorem reap_accounting {params : Params} {p : ExpiryParams} {tx : MsgTx} {txHeight : Int32}
    {v : UtxoViewpoint} (hp : getExpiryParams params = some p) (hh : p.enableAtHeight ≤ txHeight)
    (hreap : isLikelyReapTx tx = true) (hsane : checkTransactionSanity tx = .ok ())
    (hin : ∀ ti ∈ tx.txIn, ∀ e, v.unspent ti.previousOutPoint = some e → InRange e.amount)
    (hsum : ((spentEntries v tx.txIn).map fun e => e.amount.toInt).sum ≤ maxSatoshi.toInt)
    (h : checkReapTaxRules tx txHeight v params = .ok ()) : Balanced p txHeight v params tx := by
  have hps := Chaincfg.getExpiryParams_sane hp
  obtain ⟨-, -, hout, hsum'⟩ := checkTransactionSanity_ok hsane
  have hmax := maxSatoshi_toInt
  have hes : ∀ e ∈ spentEntries v tx.txIn, InRange e.amount := by
    intro e he
    obtain ⟨ti, hti, hget⟩ := List.mem_filterMap.1 he
    exact hin ti hti e hget
  have hfound : ∀ ti ∈ tx.txIn, (v.unspent ti.previousOutPoint).isSome := by
    rw [checkReapTaxRules, hreap, hp] at h
    dsimp only at h
    rw [if_neg (by decide), if_neg (Int32.not_lt.2 hh)] at h
    obtain ⟨r, hr, -⟩ := bind_eq_ok.1 h
    exact isSome_of_expectedRefunds hr
  have hrange : ∀ ti ∈ tx.txIn, ∃ e, v.unspent ti.previousOutPoint = some e ∧ InRange e.amount := by
    intro ti hti
    obtain ⟨e, he⟩ := Option.isSome_iff_exists.1 (hfound ti hti)
    exact ⟨e, he, hin ti hti e he⟩
  obtain ⟨hpos, hpaid⟩ := (checkReapTaxRules_eq_ok hp hh hreap hrange (by omega) hout (by omega)).1 h
  have hsplit : ∀ e ∈ spentEntries v tx.txIn,
      (reapRefund p e.amount).toInt = refundOf p e.amount.toInt ∧
        (reapTax p e.amount).toInt + (reapRefund p e.amount).toInt = e.amount.toInt := by
    intro e he
    rw [← refund_eq_refundOf hps (hes e he).1, ← toInt_reapRefund hps (hes e he)]
    exact ⟨rfl, toInt_reapTax_add hps (hes e he)⟩
  have hrefunds : ∀ script, refundedTo tx script = ((spentEntries v tx.txIn).map fun e =>
      if e.pkScript = script then refundOf p e.amount.toInt else 0).sum := by
    intro script
    have hsumOf := sumOf_paidPairs hreap script
    rw [hpaid script, Tally.sumOf, paidPairs, List.map_map, owedTo] at hsumOf
    refine hsumOf.trans (congrArg List.sum (List.map_congr_left fun e he => ?_))
    rw [refund_eq_refundOf hps (hes e he).1]
  have htaxes : ((spentEntries v tx.txIn).map fun e => e.amount.toInt).sum -
      (tx.txOut.map fun o => o.value.toInt).sum =
        ((spentEntries v tx.txIn).map fun e => (reapTax p e.amount).toInt).sum := by
    have htotal : Tally.total (paidPairs tx) = Tally.total (refundPairs p (spentEntries v tx.txIn)) :=
      Tally.total_eq_of_sumOf_eq fun script => by
        rw [sumOf_paidPairs hreap, hpaid, sumOf_refundPairs hps hes]
    rw [total_refundPairs hps hes, Tally.total, paidPairs, List.map_map] at htotal
    obtain ⟨-, os, marker, payload, houts, hval, -, -⟩ := (isLikelyReapTx_iff tx).1 hreap
    have hall : (tx.txOut.map fun o => o.value.toInt).sum =
        ((spentEntries v tx.txIn).map fun e => (reapRefund p e.amount).toInt).sum := by
      rw [← htotal, houts, List.dropLast_concat, List.map_append, List.sum_append,
        List.map_singleton, List.sum_singleton, hval, Int64.toInt_zero, Int.add_zero]
      rfl
    have hadd : ((spentEntries v tx.txIn).map fun e => (reapTax p e.amount).toInt).sum +
        ((spentEntries v tx.txIn).map fun e => (reapRefund p e.amount).toInt).sum =
          ((spentEntries v tx.txIn).map fun e => e.amount.toInt).sum := by
      rw [← List.sum_map_add]
      exact congrArg List.sum (List.map_congr_left fun e he => (hsplit e he).2)
    omega
  refine ⟨hfound, hrefunds, fun o ho => ?_, htaxes, fun fee hcb hfee => ?_, hsplit, ?_⟩
  · -- the script of a refund output has a positive sum, so it is the script of an input
    by_contra hnone
    have hzero : refundedTo tx o.pkScript = 0 := by
      rw [hrefunds]
      refine List.sum_eq_zero fun a ha => ?_
      obtain ⟨e, he, rfl⟩ := List.mem_map.1 ha
      exact if_neg fun heq => hnone ⟨e, he, heq⟩
    have hle : o.value.toInt ≤ refundedTo tx o.pkScript := by
      have hmem : o.value.toInt ∈ tx.txOut.dropLast.map fun o' =>
          if o'.pkScript = o.pkScript then o'.value.toInt else 0 :=
        List.mem_map.2 ⟨o, ho, if_pos rfl⟩
      refine List.single_le_sum ?_ _ hmem
      intro a ha
      obtain ⟨o', ho', rfl⟩ := List.mem_map.1 ha
      split_ifs
      · exact hout o' (List.mem_of_mem_dropLast ho')
      · exact le_refl _
    have hval := Int64.lt_iff_toInt_lt.1 (hpos o ho)
    rw [Int64.toInt_zero] at hval
    omega
  · rw [checkTransactionInputs, hcb, if_neg (by decide)] at hfee
    obtain ⟨⟨⟩, -, hfee⟩ := bind_eq_ok.1 hfee
    obtain ⟨⟨⟩, -, hfee⟩ := bind_eq_ok.1 hfee
    obtain ⟨⟨⟩, -, hfee⟩ := bind_eq_ok.1 hfee
    obtain ⟨⟨⟩, -, hfee⟩ := bind_eq_ok.1 hfee
    obtain ⟨total, hvalues, hfee⟩ := bind_eq_ok.1 hfee
    obtain ⟨-, htotal, htotalRange⟩ := checkInputValues_ok hvalues ⟨by decide, by decide⟩
    rw [Int64.toInt_zero, Int.zero_add] at htotal
    have hnonneg := sum_map_nonneg hout
    have htotalOut : (totalOut tx.txOut).toInt = (tx.txOut.map fun o => o.value.toInt).sum :=
      Tally.toInt_foldl_add_zero hout (by omega)
    dsimp only at hfee
    split at hfee
    · cases hfee
    have hlo := htotalRange.1
    have hhi := htotalRange.2
    rw [← Except.ok.inj hfee, toInt_sub (by omega) (by omega), htotal, htotalOut, htaxes]
  · rw [reapTaxOps, List.forall_mem_append, List.forall_mem_append]
    refine ⟨⟨exact_expectedOps hps hin [] (by simp) (by rw [List.nil_append]; omega),
      exact_actualOps [] (by simp)
        (fun o ho => hout o (List.mem_of_mem_dropLast ho)) ?_⟩, exact_feeOps hes hsum hout hsum'⟩
    have hle := sum_dropLast_le hout
    rw [List.nil_append]
    omega

namespace Sample

/-! Three outputs swept on the regression test network: two of one script, and one that is too small
to be refunded. -/

def swept (n : UInt8) : OutPoint := ⟨doubleHashRaw [n], 0⟩

def coin (amount : Int64) (op : UInt8) : UtxoEntry :=
  { amount, pkScript := [op], blockHeight := 10, coinBase := false }

def view : UtxoViewpoint :=
  ((UtxoViewpoint.new.put (swept 1) (some (coin 100000 Txscript.op1))).put (swept 2)
    (some (coin 50000 Txscript.op1))).put (swept 3) (some (coin 700 0x52))

def sweep : MsgTx where
  version := reapTxVersion
  txIn := [1, 2, 3].map fun n => { previousOutPoint := swept n }
  txOut := [⟨105000, [Txscript.op1]⟩, ⟨0, Txscript.opReturn :: 5 :: (reapTag ++ [reapSep])⟩]

end Sample

open Sample

theorem reap_accounting_sweep :
    checkReapTaxRules sweep 200 view Chaincfg.obtcRegTestParams = .ok () ∧
      Balanced Chaincfg.regTestExpiryParams 200 view Chaincfg.obtcRegTestParams
        sweep := by
  have hok : checkReapTaxRules sweep 200 view Chaincfg.obtcRegTestParams = .ok () := by
    decide +kernel
  have hall : ∀ ti ∈ sweep.txIn, ∀ e ∈ view.unspent ti.previousOutPoint,
      0 ≤ e.amount.toInt ∧ e.amount.toInt ≤ maxSatoshi.toInt := by decide +kernel
  have hin : ∀ ti ∈ sweep.txIn, ∀ e, view.unspent ti.previousOutPoint = some e →
      InRange e.amount := fun ti hti e he => hall ti hti e he
  exact ⟨hok, reap_accounting (by decide) (by decide) (by decide +kernel) (by decide +kernel) hin
    (by decide +kernel) hok⟩

end Reap

end Obtcd
