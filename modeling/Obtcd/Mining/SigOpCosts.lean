import Obtcd.Blockchain.LoadedView
import Obtcd.Mining.Commitments

/-!
# The signature operations of a template

`NewBlockTemplate` records a cost for every transaction it takes, which it counts on the view it
selects with, and checks the sum against the limit.  The chain counts again when it checks the
template, on the view it loads for the block.

The two counts agree for a transaction of the pool: it is counted with its inputs in the view, and
the scripts in the two views come from the same sources.  The REAP transaction is counted *before*
its inputs are put into the view.  An input that is not there already is missing then, and
`GetSigOpCost` makes zero of that.  So what is recorded is right in three cases: the transaction is
not appended after all, the view has its inputs, or it has no signature operations.
`sigOpCosts_iff_counted` says that all costs are right exactly then, and that the limits hold then.
`template_miscounts` is a template in which the recorded cost is wrong.
-/

namespace Obtcd

open Option List UtxoViewpoint

/-! ## Merging views -/

namespace UtxoViewpoint

section Merge

variable {fetch : OutPoint → Option UtxoEntry} {txs : List MsgTx} {dst src : UtxoViewpoint}
  {replace : Option (Option UtxoEntry) → Bool} {op : OutPoint}

/-- What every replacement preserves holds of the merged view. -/
theorem mergeEntries_induction {P : UtxoViewpoint → Prop} (h : P dst)
    (hput : ∀ v op x, P v → src.entries[op]? = some x → replace v.entries[op]? = true →
      P (v.put op x)) : P (mergeEntries replace dst src) := by
  refine List.foldlRecOn src.entries.toList _ h fun v hv r hr => ?_
  split
  · rename_i hreplace
    exact hput v r.1 r.2 hv ((OrdMap.mem_toList ..).1 hr) hreplace
  · exact hv

/-- Every entry of a view, `nil` or not, is what the cache answers. -/
def FromCache (fetch : OutPoint → Option UtxoEntry) (v : UtxoViewpoint) : Prop :=
  ∀ op x, v.entries[op]? = some x → x = fetch op

theorem entries_put (v : UtxoViewpoint) (op op' : OutPoint) (x : Option UtxoEntry) :
    (v.put op x).entries[op']? = if op = op' then some x else v.entries[op']? :=
  OrdMap.getElem?_insert' ..

theorem FromCache.put {v : UtxoViewpoint} (h : FromCache fetch v) (op : OutPoint) :
    FromCache fetch (v.put op (fetch op)) := by
  intro op' x hx
  rw [entries_put] at hx
  split at hx
  · rename_i heq
    rw [← Option.some.inj hx, heq]
  · exact h op' x hx

theorem fromCache_new : FromCache fetch new := by
  intro op x hx
  rw [new, Std.ExtTreeMap.getElem?_empty] at hx
  cases hx

theorem fromCache_fetchUtxoView (tx : MsgTx) : FromCache fetch (fetchUtxoView fetch tx) := by
  intro op x hx
  rw [fetchUtxoView, entries_fetchUtxosFromCache] at hx
  by_cases hmem : op ∈ tx.outPoints ++
      if isCoinBaseTx tx then [] else tx.txIn.map TxIn.previousOutPoint
  · rw [if_pos hmem] at hx
    exact (Option.some.inj hx).symm
  · rw [if_neg hmem] at hx
    exact fromCache_new op x hx

/-- The inputs of a transaction are loaded. -/
theorem entries_fetchUtxoView {tx : MsgTx} (hcoinbase : isCoinBaseTx tx = false) {ti : TxIn}
    (hti : ti ∈ tx.txIn) :
    (fetchUtxoView fetch tx).entries[ti.previousOutPoint]? = some (fetch ti.previousOutPoint) := by
  rw [fetchUtxoView, entries_fetchUtxosFromCache, hcoinbase, if_neg Bool.false_ne_true, if_pos]
  exact mem_append_right _ (mem_map_of_mem hti)

theorem FromCache.mergeUtxoView (hdst : FromCache fetch dst) (hsrc : FromCache fetch src) :
    FromCache fetch (dst.mergeUtxoView src) := by
  refine mergeEntries_induction hdst fun v op x hv hx _ => ?_
  rw [hsrc op x hx]
  exact hv.put op

end Merge

/-! ## Spending a transaction -/

section Spend

variable {fetch : OutPoint → Option UtxoEntry} {txs : List MsgTx} {v : UtxoViewpoint} {tx : MsgTx}

theorem Scripted.spendTransaction (h : Scripted fetch txs v) (htx : tx ∈ txs) (height : Int32) :
    Scripted fetch txs (v.spendTransaction tx height) := by
  refine Scripted.addTxOuts (List.foldlRecOn (motive := Scripted fetch txs) tx.txIn _ h
    fun v hv ti _ => ?_) htx height
  split
  · rename_i e he
    exact hv.spend he
  · exact hv

end Spend

end UtxoViewpoint

namespace Mining

open Txscript

/-! ## When the REAP transaction is counted -/

section Condition

variable (g : Generator)

/-- The REAP transaction is left out for another reason than its cost: it is too heavy, the limit is
exceeded without it, or an input is not accepted. -/
def DropsREAP (s : Selection) (tx : MsgTx) : Prop :=
  s.overweight g.policy.blockMaxWeight tx = true ∨ maxBlockSigOpsCost < s.blockSigOpCost ∨
    (checkTransactionInputs tx g.nextBlockHeight
      (s.view.mergeUtxoEntriesIfMissing (fetchUtxoView g.fetchEntry tx)) g.consensus.params).isOk =
        false

/-- The REAP transaction that is planned is counted as the chain does when it is appended to a
selection: it is left out, or its inputs are in the view, or it has no signature operations. -/
def CountsREAP (segwitActive : Bool) (s : Selection) : Prop :=
  ∀ tx fee, g.plannedREAP = some (tx, fee) → DropsREAP g s tx ∨ s.view.HasInputs tx ∨
    getSigOpCost g.consensus.engine tx false (fetchUtxoView g.fetchEntry tx) true segwitActive =
      .ok 0

end Condition

variable {txs : List MsgTx} {tx : MsgTx} {g : Generator} {segwitActive : Bool}
  {engine : ScriptEngine}

theorem view_add (s : Scan) (item : TxPrioItem) : (s.add item).view = s.view := by
  rw [Scan.add]
  split <;> rfl

/-- A transaction of the pool brings nothing into the view but what the cache answers. -/
theorem fromCache_scanTx {s : Scan} (h : FromCache g.fetchEntry s.view) (desc : TxDesc) :
    FromCache g.fetchEntry (g.scanTx s desc).view := by
  rw [Generator.scanTx]
  dsimp only
  split
  · exact h
  split
  · exact h
  split
  · split
    · exact h
    · rwa [view_add]
  · exact h.mergeUtxoView (fromCache_fetchUtxoView desc.tx)

theorem fromCache_scan (g : Generator) : FromCache g.fetchEntry g.scan.view :=
  List.foldlRecOn (motive := fun s : Scan => FromCache g.fetchEntry s.view) g.miningDescs _
    fromCache_new fun _ hs desc _ => fromCache_scanTx hs desc

/-! ## The recorded costs -/

/-- A cost was counted on a view that has the inputs of the transaction, with the scripts that the
cache and some other transactions give them. -/
def Recorded (g : Generator) (segwitActive : Bool) (txs : List MsgTx) (tx : MsgTx) (cost : Nat) :
    Prop :=
  isCoinBaseTx tx = false → ∃ v, Scripted g.fetchEntry txs v ∧ v.HasInputs tx ∧
    getSigOpCost g.consensus.engine tx false v true segwitActive = .ok cost

/-- What is known about the costs of a selection. -/
structure Costed (g : Generator) (coinbaseTx : MsgTx) (segwitActive : Bool) (s : Selection) :
    Prop where
  recorded : List.Forall₂ (Recorded g segwitActive s.blockTxns) s.blockTxns s.txSigOpCosts
  total : s.blockSigOpCost =
    countSigOps g.consensus.engine coinbaseTx * witnessScaleFactor + s.txSigOpCosts.sum
  limit : s.blockTxns ≠ [] → s.blockSigOpCost ≤ maxBlockSigOpsCost

/-- What is known about the costs and the view while transactions are selected. -/
structure Counted (g : Generator) (coinbaseTx : MsgTx) (segwitActive : Bool) (s : Selection) : Prop
    extends Costed g coinbaseTx segwitActive s where
  scripted : Scripted g.fetchEntry s.blockTxns s.view

section Counted

variable {coinbaseTx : MsgTx} {s s' : Selection}

theorem Recorded.mono {txs txs' : List MsgTx} (hsub : txs ⊆ txs') {cost : Nat}
    (h : Recorded g segwitActive txs tx cost) : Recorded g segwitActive txs' tx cost := by
  intro hcoinbase
  obtain ⟨v, hscripted, hinputs, hcost⟩ := h hcoinbase
  exact ⟨v, hscripted.mono hsub, hinputs, hcost⟩

/-- Taking a transaction whose cost was counted. -/
theorem Costed.take (h : Costed g coinbaseTx segwitActive s) {cost : Nat}
    (hrecorded : Recorded g segwitActive (s.blockTxns ++ [tx]) tx cost)
    (htotal : s.blockSigOpCost + cost ≤ maxBlockSigOpsCost) (view : UtxoViewpoint) (fee : Int64)
    (height : Int32) :
    Costed g coinbaseTx segwitActive ({ s with view := view }.take tx fee cost height) := by
  have hsub : s.blockTxns ⊆ s.blockTxns ++ [tx] := subset_append_left ..
  refine ⟨?_, ?_, fun _ => htotal⟩
  · refine rel_append (h.recorded.imp fun _ _ hr => hr.mono hsub) ?_
    exact .cons hrecorded .nil
  · show s.blockSigOpCost + cost = _ + (s.txSigOpCosts ++ [cost]).sum
    rw [h.total, sum_append, sum_singleton, Nat.add_assoc]

/-- A transaction of the pool is counted with its inputs in the view. -/
theorem Counted.considers {limit : UInt32} {item : TxPrioItem}
    {rest : List TxPrioItem} (h : Counted g coinbaseTx segwitActive s)
    (hround : Considers g coinbaseTx segwitActive limit { s with queue := rest } item s') :
    Counted g coinbaseTx segwitActive s' := by
  cases hround with
  | pass queue sortedByFee hqueue hsorted =>
    exact ⟨⟨h.recorded, h.total, h.limit⟩, h.scripted⟩
  | take sortedByFee sigOpCost hsorted hwitness hadmitted hinputs =>
    obtain ⟨fee, hfee⟩ := hinputs
    have hsub : s.blockTxns ⊆ s.blockTxns ++ [item.tx] := subset_append_left ..
    have hrecorded : Recorded g segwitActive (s.blockTxns ++ [item.tx]) item.tx sigOpCost :=
      fun hcoinbase => ⟨s.view, h.scripted.mono hsub,
        hasInputs_of_checkTransactionInputs hcoinbase hfee, hadmitted.cost⟩
    have htake := h.toCosted.take hrecorded hadmitted.total s.view item.fee g.nextBlockHeight
    refine ⟨⟨htake.recorded, htake.total, htake.limit⟩, ?_⟩
    exact (h.scripted.mono hsub).spendTransaction
      (mem_append_right _ mem_cons_self) g.nextBlockHeight

theorem counted_selectTransactions (limit : UInt32) :
    Counted g coinbaseTx segwitActive (selectTransactions g coinbaseTx segwitActive limit) := by
  refine select_induction (fun _ hs hround => hs.considers hround)
    ⟨⟨.nil, rfl, fun hne => absurd rfl hne⟩, ?_⟩
  intro op e he
  rw [startSelection, lookupEntry, join_eq_some_iff] at he
  exact .inl ⟨e, (fromCache_scan g op _ he).symm, rfl⟩

/-- The inputs of the planned REAP transaction are unspent in the cache. -/
theorem fetchEntry_plannedREAP {fee : Int64} (h : g.plannedREAP = some (tx, fee)) {ti : TxIn}
    (hti : ti ∈ tx.txIn) : ∃ e, g.fetchEntry ti.previousOutPoint = some e ∧ e.spent = false := by
  obtain ⟨plan, ops, p, hbuild⟩ := built_plannedREAP h
  obtain ⟨e, he⟩ := isSome_iff_exists.1 ((inputs_buildBlueprint hbuild).2 ti hti)
  obtain ⟨hlookup, hunspent⟩ := unspent_eq_some.1 he
  exact ⟨e, fetchEntry_of_fetchUtxoView hlookup, hunspent⟩

/-- The REAP transaction has its inputs in a view of its own. -/
theorem hasInputs_plannedREAP {fee : Int64} (h : g.plannedREAP = some (tx, fee))
    (hcoinbase : isCoinBaseTx tx = false) : (fetchUtxoView g.fetchEntry tx).HasInputs tx := by
  intro ti hti
  obtain ⟨e, hfetch, hunspent⟩ := fetchEntry_plannedREAP h hti
  rw [unspent, lookupEntry, entries_fetchUtxoView hcoinbase hti, hfetch]
  simp [hunspent]

/-- Without an input in the view the REAP transaction is counted as zero. -/
theorem getSigOpCost_of_not_hasInputs (h : ¬ s.view.HasInputs tx) :
    getSigOpCost g.consensus.engine tx false s.view true segwitActive = .ok 0 := by
  rw [UtxoViewpoint.HasInputs] at h
  push Not at h
  obtain ⟨ti, hti, hnone⟩ := h
  exact getSigOpCost_of_missing hti (by simpa using hnone)

/-- The REAP transaction is counted right, if the condition holds where it is appended. -/
theorem Counted.recorded_reap {fee : Int64} {cost : Nat} (h : Counted g coinbaseTx segwitActive s)
    (hreap : CountsREAP g segwitActive s) (hplanned : g.plannedREAP = some (tx, fee))
    (hadmitted : Admitted g segwitActive g.policy.blockMaxWeight s tx cost)
    (hinputs : ∃ fee, checkTransactionInputs tx g.nextBlockHeight
      (s.view.mergeUtxoEntriesIfMissing (fetchUtxoView g.fetchEntry tx)) g.consensus.params =
        .ok fee) :
    Recorded g segwitActive (s.blockTxns ++ [tx]) tx cost := by
  intro hcoinbase
  by_cases hview : s.view.HasInputs tx
  · exact ⟨s.view, h.scripted.mono (subset_append_left ..), hview, hadmitted.cost⟩
  rcases hreap tx fee hplanned with hdrops | hview' | hzero
  · obtain ⟨fee', hfee'⟩ := hinputs
    have htotal := hadmitted.total
    rcases hdrops with hweight | hlimit | hbad
    · cases hadmitted.weight.symm.trans hweight
    · omega
    · rw [hfee'] at hbad
      cases hbad
  · exact absurd hview' hview
  · have hcost := hadmitted.cost
    rw [getSigOpCost_of_not_hasInputs hview] at hcost
    cases hcost
    exact ⟨fetchUtxoView g.fetchEntry tx, scripted_fetchUtxoView _ _ _,
      hasInputs_plannedREAP hplanned hcoinbase, hzero⟩

/-- Where the condition fails the REAP transaction is appended with cost zero. -/
theorem appendREAP_of_miscounted (fee : Int64) (hdrops : ¬ DropsREAP g s tx)
    (hview : ¬ s.view.HasInputs tx) :
    (appendREAP g segwitActive s tx fee).blockTxns = s.blockTxns ++ [tx] ∧
      (appendREAP g segwitActive s tx fee).txSigOpCosts = s.txSigOpCosts ++ [0] := by
  rw [DropsREAP, not_or, not_or] at hdrops
  obtain ⟨hweight, hlimit, hinputs⟩ := hdrops
  rw [appendREAP, if_neg hweight, getSigOpCost_of_not_hasInputs hview]
  dsimp only
  rw [if_neg (by omega)]
  split
  · rename_i hbad
    rw [hbad] at hinputs
    exact absurd rfl hinputs
  · exact ⟨rfl, rfl⟩

theorem costed_selection (hreap : CountsREAP g segwitActive
      (selectTransactions g coinbaseTx segwitActive g.normalTxWeightLimit)) :
    Costed g coinbaseTx segwitActive (g.selection coinbaseTx segwitActive) := by
  rw [Generator.normalTxWeightLimit] at hreap
  rw [Generator.selection]
  generalize hs : selectTransactions g coinbaseTx segwitActive
    (normalTxWeightLimit g.policy (g.plannedREAP.map fun r => txWeight r.1)) = s at *
  have hcounted : Counted g coinbaseTx segwitActive s := hs ▸ counted_selectTransactions _
  split
  · exact hcounted.toCosted
  rename_i reapTx fee hplanned
  have happends := appends g segwitActive s reapTx fee
  generalize appendREAP g segwitActive s reapTx fee = s' at happends
  cases happends with
  | skip view => exact ⟨hcounted.recorded, hcounted.total, hcounted.limit⟩
  | take sigOpCost hadmitted hinputs =>
    have hrecorded := hcounted.recorded_reap hreap hplanned hadmitted hinputs
    exact hcounted.toCosted.take hrecorded hadmitted.total _ fee g.nextBlockHeight

/-- Where the condition fails the REAP transaction ends the selection, with cost zero, and it does
have signature operations. -/
theorem selection_of_miscounted (hs : selectTransactions g coinbaseTx segwitActive
      g.normalTxWeightLimit = s) (hmis : ¬ CountsREAP g segwitActive s) :
    ∃ tx fee, g.plannedREAP = some (tx, fee) ∧
      (g.selection coinbaseTx segwitActive).blockTxns = s.blockTxns ++ [tx] ∧
      (g.selection coinbaseTx segwitActive).txSigOpCosts = s.txSigOpCosts ++ [0] ∧
      getSigOpCost g.consensus.engine tx false (fetchUtxoView g.fetchEntry tx) true segwitActive ≠
        .ok 0 := by
  rw [CountsREAP] at hmis
  push Not at hmis
  obtain ⟨tx, fee, hplanned, hdrops, hview, hcost⟩ := hmis
  have hselection : g.selection coinbaseTx segwitActive = appendREAP g segwitActive s tx fee := by
    rw [Generator.normalTxWeightLimit] at hs
    rw [Generator.selection, hs, hplanned]
  obtain ⟨htxns, hcosts⟩ := appendREAP_of_miscounted fee hdrops hview
  rw [hselection]
  exact ⟨tx, fee, hplanned, htxns, hcosts, hcost⟩

end Counted

/-! ## The coinbase -/

section Coinbase

theorem countSigOps_addTxOut (tx : MsgTx) (o : TxOut) :
    countSigOps engine (addTxOut tx o) = countSigOps engine tx + engine.getSigOpCount o.pkScript := by
  simp [countSigOps, addTxOut, Nat.add_assoc]

theorem countSigOps_addFees (tx : MsgTx) (fees : Int64) :
    countSigOps engine (addFees tx fees) = countSigOps engine tx := by
  rw [countSigOps, countSigOps, addFees]
  cases tx.txOut <;> rfl

theorem countSigOps_setFirstWitness (tx : MsgTx) (witness : List Bytes) :
    countSigOps engine (setFirstWitness tx witness) = countSigOps engine tx := by
  rw [countSigOps, countSigOps, setFirstWitness]
  cases tx.txIn <;> rfl

/-- The outputs that are appended to the coinbase have no signature operations. -/
theorem countSigOps_finalCoinbase {g : Generator} {payToAddress : Option Address}
    {t : BlockTemplate} (hengine : g.consensus.engine.getSigOpCount = Txscript.getSigOpCount)
    (a : Assembled g payToAddress t) :
    countSigOps g.consensus.engine a.finalCoinbase =
      countSigOps g.consensus.engine a.coinbaseTx := by
  have hwitness : ∀ s : Selection, countSigOps g.consensus.engine (s.witnessCoinbase a.coinbaseTx) =
      countSigOps g.consensus.engine a.coinbaseTx := by
    intro s
    rw [Selection.witnessCoinbase]
    split
    · rw [addWitnessCommitment, countSigOps_addTxOut, countSigOps_setFirstWitness,
        countSigOps_addFees, hengine]
      refine Nat.add_eq_left.2 (getSigOpCount_return (by decide) (by decide) ?_)
      rw [append_eq, length_append, commitWitnessRoot, Hash.length_bytes]
      rfl
    · exact countSigOps_addFees ..
  have hexpiry := a.expiry
  rw [Generator.commitExpiry] at hexpiry
  split at hexpiry
  · obtain ⟨root, -, hok⟩ := bind_eq_ok.1 hexpiry
    rw [← Except.ok.inj hok, addExpiryCommitment, countSigOps_addTxOut, hwitness, hengine]
    refine Nat.add_eq_left.2 (getSigOpCount_return (by decide) (by decide) ?_)
    simp [root.property, ExpiryIndex.expiryCommitmentTag]
    rfl
  · rw [← Except.ok.inj hexpiry, hwitness]

/-- A coinbase costs what its own scripts cost. -/
theorem getSigOpCost_coinbase (tx : MsgTx) (v : UtxoViewpoint) (segWit : Bool) :
    getSigOpCost engine tx true v true segWit =
      .ok (countSigOps engine tx * witnessScaleFactor) := by
  rw [getSigOpCost, if_pos rfl, countP2SHSigOps, if_pos rfl]
  simp

end Coinbase

/-! ## The checks of the chain -/

section Checks

variable {costs : List Nat}

theorem checkSigOps_of_le
    (h : List.Forall₂ (fun tx cost => countSigOps engine tx * witnessScaleFactor ≤ cost) txs costs)
    {total : Nat} (hmax : total + costs.sum ≤ maxBlockSigOpsCost) :
    checkSigOps engine total txs = .ok () := by
  induction h generalizing total with
  | nil => rfl
  | cons hcost _ ih =>
    rw [sum_cons] at hmax
    rw [checkSigOps, if_neg (by omega)]
    exact ih (by omega)

theorem checkSigOpCosts_of_le {v : UtxoViewpoint} {bip16 segWit : Bool}
    (h : List.Forall₂ (fun tx cost => ∃ c, getSigOpCost engine tx false v bip16 segWit = .ok c ∧
      c ≤ cost) txs costs)
    {i total : Nat} (hi : i ≠ 0) (hmax : total + costs.sum ≤ maxBlockSigOpsCost) :
    checkSigOpCosts engine v bip16 segWit i total txs = .ok () := by
  induction h generalizing i total with
  | nil => rfl
  | cons hcost _ ih =>
    obtain ⟨c, hc, hle⟩ := hcost
    rw [sum_cons] at hmax
    rw [checkSigOpCosts, beq_eq_false_iff_ne.2 hi, hc, ok_bind, if_neg (by omega)]
    exact ih (Nat.succ_ne_zero i) (by omega)

end Checks

/-! ## The template -/

/-- The node of a template, as `CheckConnectBlockTemplate` makes it. -/
def Generator.templateNode (g : Generator) (t : BlockTemplate) : BlockNode :=
  ⟨t.block.hash, g.best.hash, g.best.height + 1, t.block.header.timestamp.toNat⟩

/-- The view that `checkConnectBlock` loads for a template. -/
def Generator.loadedView (g : Generator) (t : BlockTemplate) : Except GoError UtxoViewpoint :=
  loadInputs g.consensus g.chainReads (g.templateNode t) t.block (new.setBestHash g.best.hash)

/-- The costs that `checkConnectBlock` counts for a template on a view. -/
def Generator.checkedCosts (g : Generator) (t : BlockTemplate) (segwitActive : Bool)
    (v : UtxoViewpoint) : List (Except GoError Nat) :=
  t.block.transactions.mapIdx fun i tx => getSigOpCost g.consensus.engine tx (i == 0) v
    ((g.templateNode t).timestamp ≥ bip16Activation) segwitActive

section Recorded

variable {all : List MsgTx} {cost : Nat} {v : UtxoViewpoint}
  (h : Recorded g segwitActive txs tx cost) (hcoinbase : isCoinBaseTx tx = false)

include h hcoinbase

theorem Recorded.countSigOps_le :
    countSigOps g.consensus.engine tx * witnessScaleFactor ≤ cost := by
  obtain ⟨v, -, hinputs, hcost⟩ := h hcoinbase
  obtain ⟨c, hc, hle⟩ := getSigOpCost_of_hasInputs g.consensus.engine segwitActive hinputs
  rw [hcost] at hc
  rwa [Except.ok.inj hc]

/-- Where the sources agree, every view with the inputs gives the recorded cost. -/
theorem Recorded.getSigOpCost_eq (hsub : txs ⊆ all) (hagree : SourcesAgree g.fetchEntry all)
    (hscripted : Scripted g.fetchEntry all v) (hinputs : v.HasInputs tx) :
    getSigOpCost g.consensus.engine tx false v true segwitActive = .ok cost := by
  obtain ⟨w, hw, hwinputs, hcost⟩ := h hcoinbase
  rw [← hcost]
  refine getSigOpCost_congr fun ti hti => ?_
  obtain ⟨e, he⟩ := isSome_iff_exists.1 (hinputs ti hti)
  obtain ⟨e', he'⟩ := isSome_iff_exists.1 (hwinputs ti hti)
  exact ⟨e, e', he, he', (hscripted _ e (unspent_eq_some.1 he).1).unique hagree
    ((hw.mono hsub) _ e' (unspent_eq_some.1 he').1)⟩

/-- Without the inputs, a view gives no more than the recorded cost. -/
theorem Recorded.getSigOpCost_le (hsub : txs ⊆ all) (hagree : SourcesAgree g.fetchEntry all)
    (hscripted : Scripted g.fetchEntry all v) :
    ∃ c, getSigOpCost g.consensus.engine tx false v true segwitActive = .ok c ∧ c ≤ cost := by
  by_cases hinputs : v.HasInputs tx
  · exact ⟨cost, h.getSigOpCost_eq hcoinbase hsub hagree hscripted hinputs, le_rfl⟩
  · rw [UtxoViewpoint.HasInputs] at hinputs
    push Not at hinputs
    obtain ⟨ti, hti, hnone⟩ := hinputs
    exact ⟨0, getSigOpCost_of_missing hti (by simpa using hnone), Nat.zero_le _⟩

end Recorded

section Template

variable {payToAddress : Option Address} {t : BlockTemplate}

/-- A relation that holds along two lists, used at the members of the first. -/
theorem forall₂_imp_of_mem {α β : Type} {R S : α → β → Prop} {l : List α} {l' : List β}
    (h : List.Forall₂ R l l') (himp : ∀ a ∈ l, ∀ b, R a b → S a b) : List.Forall₂ S l l' := by
  induction h with
  | nil => exact .nil
  | cons hab _ ih =>
    exact .cons (himp _ mem_cons_self _ hab) (ih fun a ha => himp a (mem_cons_of_mem _ ha))

/-- The costs that the chain counts: the coinbase without inputs, the others with theirs. -/
theorem checkedCosts_eq {coinbaseTx : MsgTx} {txs : List MsgTx} {costs : List Nat}
    {v : UtxoViewpoint} (htxs : t.block.transactions = coinbaseTx :: txs)
    (htime : bip16Activation ≤ t.block.header.timestamp.toNat)
    (hcosts : List.Forall₂ (fun tx cost =>
      getSigOpCost g.consensus.engine tx false v true segwitActive = .ok cost) txs costs) :
    g.checkedCosts t segwitActive v =
      (countSigOps g.consensus.engine coinbaseTx * witnessScaleFactor :: costs).map .ok := by
  have hbip16 : decide ((g.templateNode t).timestamp ≥ bip16Activation) = true :=
    decide_eq_true htime
  rw [Generator.checkedCosts, htxs, mapIdx_cons, hbip16, map_cons]
  refine congrArg₂ _ (getSigOpCost_coinbase ..) ?_
  clear htxs
  induction hcosts with
  | nil => rfl
  | cons hcost _ ih =>
    rw [mapIdx_cons, map_cons, ← hcost]
    exact congrArg₂ _ rfl ih

/-- Where the counts agree they agree for the last transaction. -/
theorem getSigOpCost_last {coinbaseTx : MsgTx} {txs : List MsgTx} {costs : List Nat}
    {first last : Nat} {v : UtxoViewpoint}
    (htxs : t.block.transactions = coinbaseTx :: (txs ++ [tx]))
    (htime : bip16Activation ≤ t.block.header.timestamp.toNat) (hlen : txs.length = costs.length)
    (hcosts : g.checkedCosts t segwitActive v = (first :: (costs ++ [last])).map .ok) :
    getSigOpCost g.consensus.engine tx false v true segwitActive = .ok last := by
  have hbip16 : decide ((g.templateNode t).timestamp ≥ bip16Activation) = true :=
    decide_eq_true htime
  rw [Generator.checkedCosts, htxs, hbip16] at hcosts
  simpa [hlen] using congrArg (·[txs.length + 1]?) hcosts

section Assembled

variable (a : Assembled g payToAddress t)
include a

/-- Only the first transaction is a coinbase. -/
theorem isCoinBaseTx_selection (h : checkCoinbases t.block.transactions = .ok ()) :
    ∀ tx ∈ (g.selection a.coinbaseTx a.segwitActive).blockTxns, isCoinBaseTx tx = false := by
  obtain ⟨first, rest, hfirst, -, hrest⟩ := checkCoinbases_ok h
  rw [a.transactions] at hfirst
  rwa [(List.cons.inj hfirst).2]

/-- In a template that is returned, every transaction finds its inputs in the view that is loaded. -/
theorem hasInputs_loaded (h : g.newBlockTemplate payToAddress = .ok t) {v : UtxoViewpoint}
    (hv : g.loadedView t = .ok v) :
    ∀ tx ∈ (g.selection a.coinbaseTx a.segwitActive).blockTxns, v.HasInputs tx := by
  intro tx htx
  obtain ⟨-, hchecked⟩ := newBlockTemplate_ok h
  obtain ⟨v', stxos, hconnects⟩ := hchecked.connects
  obtain ⟨stages⟩ := checkConnectBlock_stages hconnects
  obtain rfl : stages.loaded = v := Except.ok.inj (stages.load.symm.trans hv)
  have hsane := hchecked.toSane
  obtain ⟨-, w, hfetch⟩ := scripted_loadInputs hsane.distinct hv UtxoViewpoint.scripted_new
  obtain ⟨pre, post, hsplit⟩ := List.append_of_mem htx
  have hposition : t.block.transactions = (a.finalCoinbase :: pre) ++ tx :: post := by
    rw [a.transactions, hsplit]
    rfl
  exact unspent_loaded hsane.distinct hsane.coinbases hfetch stages.transactions hposition (by simp)

end Assembled

section Costs

variable (hcache : ∀ tx ∈ t.block.transactions, ∀ op e, g.fetchEntry op = some e →
  tx.txHash = op.hash → ∃ o, tx.txOut[op.index.toNat]? = some o ∧ o.pkScript = e.pkScript)
  (hsane : t.block.Sane) {v : UtxoViewpoint} (hv : g.loadedView t = .ok v)
include hcache hsane hv

/-- The view that is loaded gives a transaction the cost that another view with its inputs gives. -/
theorem Recorded.getSigOpCost_loaded {cost : Nat} (h : Recorded g segwitActive txs tx cost)
    (hsub : txs ⊆ t.block.transactions) (hcoinbase : isCoinBaseTx tx = false) :
    (v.HasInputs tx →
      getSigOpCost g.consensus.engine tx false v true segwitActive = .ok cost) ∧
    ∃ c, getSigOpCost g.consensus.engine tx false v true segwitActive = .ok c ∧ c ≤ cost := by
  have hagree : SourcesAgree g.fetchEntry t.block.transactions :=
    ⟨hsane.distinct, fun tx htx => length_txOut_lt hsane.size htx, hcache⟩
  have hscripted : Scripted g.fetchEntry t.block.transactions v :=
    (scripted_loadInputs hsane.distinct hv UtxoViewpoint.scripted_new).1
  exact ⟨h.getSigOpCost_eq hcoinbase hsub hagree hscripted,
    h.getSigOpCost_le hcoinbase hsub hagree hscripted⟩

end Costs

/-- **When the recorded costs are right.**  The hash of no transaction of the template is that of a
cached output with another script.  Then in a template that is returned the recorded costs are the
ones that the chain counts exactly if the REAP transaction is counted right where it is appended.  And
if it is, a template with the REAP transaction never exceeds the limit, neither by the count without
inputs nor by the one with them. -/
theorem sigOpCosts_iff_counted {coinbaseTx : MsgTx}
    (hengine : g.consensus.engine.getSigOpCount = Txscript.getSigOpCount)
    (hnew : g.newCoinbase payToAddress = .ok coinbaseTx)
    (hsegwit : g.consensus.deploymentActive g.best.hash .segwit = .ok segwitActive)
    (hassemble : g.assemble payToAddress = .ok t)
    (htime : bip16Activation ≤ t.block.header.timestamp.toNat)
    (hcache : ∀ tx ∈ t.block.transactions, ∀ op e, g.fetchEntry op = some e →
      tx.txHash = op.hash → ∃ o, tx.txOut[op.index.toNat]? = some o ∧ o.pkScript = e.pkScript) :
    (g.newBlockTemplate payToAddress = .ok t → ∀ v, g.loadedView t = .ok v →
      (g.checkedCosts t segwitActive v = t.sigOpCosts.map .ok ↔
        CountsREAP g segwitActive
          (selectTransactions g coinbaseTx segwitActive g.normalTxWeightLimit))) ∧
    (CountsREAP g segwitActive
        (selectTransactions g coinbaseTx segwitActive g.normalTxWeightLimit) →
      ∀ tx fee, g.plannedREAP = some (tx, fee) → tx ∈ t.block.transactions.tail →
        (checkCoinbases t.block.transactions = .ok () →
          checkSigOps g.consensus.engine 0 t.block.transactions = .ok ()) ∧
        (checkBlockSanity g.headerRules g.consensus.engine t.block = .ok () →
          ∀ v, g.loadedView t = .ok v →
            checkSigOpCosts g.consensus.engine v ((g.templateNode t).timestamp ≥ bip16Activation)
              segwitActive 0 0 t.block.transactions = .ok ())) := by
  obtain ⟨a⟩ := assembled hassemble
  obtain rfl : a.coinbaseTx = coinbaseTx := Except.ok.inj (a.new.symm.trans hnew)
  obtain rfl : a.segwitActive = segwitActive := Except.ok.inj (a.segwit.symm.trans hsegwit)
  have hcount := countSigOps_finalCoinbase hengine a
  have htxs := a.transactions
  have hsub : (g.selection a.coinbaseTx a.segwitActive).blockTxns ⊆ t.block.transactions := by
    rw [htxs]
    exact List.subset_cons_self ..
  refine ⟨fun h v hv => ⟨fun hcosts => ?_, fun hreap => ?_⟩, fun hreap tx fee _ hmem => ?_⟩
  · -- the entry of the REAP transaction would be zero, and the chain counts something
    by_contra hmis
    obtain ⟨tx, fee, hplanned, htxns, hzero, hcost⟩ := selection_of_miscounted rfl hmis
    have hsane := (newBlockTemplate_ok h).2.toSane
    have hmem : tx ∈ (g.selection a.coinbaseTx a.segwitActive).blockTxns := by
      rw [htxns]
      exact mem_append_right _ mem_cons_self
    have hcoinbase := isCoinBaseTx_selection a hsane.coinbases tx hmem
    have hown := hasInputs_plannedREAP hplanned hcoinbase
    obtain ⟨c, hc, -⟩ := getSigOpCost_of_hasInputs g.consensus.engine a.segwitActive hown
    have hrecorded : Recorded g a.segwitActive [] tx c :=
      fun _ => ⟨_, scripted_fetchUtxoView _ _ _, hown, hc⟩
    have hloaded := (hrecorded.getSigOpCost_loaded hcache hsane hv (nil_subset _) hcoinbase).1
      (hasInputs_loaded a h hv tx hmem)
    have hcounted : Counted g a.coinbaseTx a.segwitActive _ :=
      counted_selectTransactions g.normalTxWeightLimit
    rw [htxns] at htxs
    rw [a.sigOpCosts, hzero] at hcosts
    have hlast := getSigOpCost_last htxs htime hcounted.recorded.length_eq hcosts
    rw [hloaded, ← hc] at hlast
    exact hcost hlast
  · have hcosted : Costed g a.coinbaseTx a.segwitActive _ := costed_selection hreap
    rw [a.sigOpCosts, checkedCosts_eq htxs htime, hcount]
    refine forall₂_imp_of_mem hcosted.recorded fun tx htx cost hrecorded => ?_
    have hsane := (newBlockTemplate_ok h).2.toSane
    exact (hrecorded.getSigOpCost_loaded hcache hsane hv hsub
      (isCoinBaseTx_selection a hsane.coinbases tx htx)).1 (hasInputs_loaded a h hv tx htx)
  · have hcosted : Costed g a.coinbaseTx a.segwitActive _ := costed_selection hreap
    rw [htxs, List.tail_cons] at hmem
    have hlimit := hcosted.limit (List.ne_nil_of_mem hmem)
    rw [hcosted.total] at hlimit
    refine ⟨fun hcoinbases => ?_, fun hsanity v hv => ?_⟩
    · rw [htxs, checkSigOps, hcount, if_neg (by omega)]
      refine checkSigOps_of_le (forall₂_imp_of_mem hcosted.recorded fun tx htx cost hrecorded =>
        hrecorded.countSigOps_le (isCoinBaseTx_selection a hcoinbases tx htx)) (by omega)
    · have hsane := checkBlockSanity_ok hsanity
      have hbip16 : decide ((g.templateNode t).timestamp ≥ bip16Activation) = true :=
        decide_eq_true htime
      rw [htxs, checkSigOpCosts, hbip16, beq_self_eq_true, getSigOpCost_coinbase, ok_bind, hcount,
        if_neg (by omega)]
      refine checkSigOpCosts_of_le (forall₂_imp_of_mem hcosted.recorded
        fun tx htx cost hrecorded => (hrecorded.getSigOpCost_loaded hcache hsane hv hsub
          (isCoinBaseTx_selection a hsane.coinbases tx htx)).2) (Nat.succ_ne_zero 0) (by omega)

end Template

namespace Regtest

/-- A script that pays to the hash of a public key, with one signature operation. -/
def payToHash : Bytes :=
  [opDup, opHash160, 20] ++ List.replicate 20 0 ++ [opEqualVerify, opCheckSig]

/-- The coinbase of height 10, which pays to a script. -/
def minted (pkScript : Bytes) : MsgTx where
  version := 1
  txIn := [{ previousOutPoint := ⟨Hash.zero, OutPoint.maxIndex⟩, signatureScript := [1, 10] }]
  txOut := [⟨100000, pkScript⟩]

/-- The block at height 199.  All coinbases but the one at height 10 have burned their reward. -/
def lastBlock : Block := BlockChain.Regtest.coinbaseBlock Hash.zero 199 [opReturn]

/-- The expiry index at that block. -/
def expiryIndex : ExpiryIndex.Index := ⟨⟨144, 1000, 0, 110, 110⟩, 199, false⟩

def expiryBuckets (pkScript : Bytes) : ExpiryIndex.Buckets :=
  let block : Block := ⟨⟨1, Hash.zero, Hash.zero, 1700000000, 0, 0⟩, [minted pkScript], 10⟩
  let db := ((expiryIndex.connectBlock ExpiryIndex.createIndex block).toOption.map Prod.snd).getD
    ExpiryIndex.createIndex
  ExpiryIndex.dbPutTipHeightIndexed (ExpiryIndex.dbPutAccumulatorTipHash db lastBlock.hash) 199

/-- A node at height 199 with an empty pool.  The output of height 10 has expired. -/
def sweeping (pkScript : Bytes) : Generator :=
  { generator 4000000 [] with
    fetchEntry := fun op =>
      if op = (minted pkScript).outPoint 0 then
        some { amount := 100000, pkScript := pkScript, blockHeight := 10, coinBase := true }
      else none
    best := BlockNode.ofBlock lastBlock
    reapPrefixSource := some (expiryIndex.prefixSource (expiryBuckets pkScript))
    reapIndex := some (expiryIndex.prefixSource (expiryBuckets pkScript))
    expiryState := some (expiryIndex.getAccumulatorSnapshot (expiryBuckets pkScript)) }

end Regtest

open Regtest in
/-- **A template with a wrong cost.**  The expired output pays to the hash of a public key, and so
does the refund.  The REAP transaction is recorded with cost zero, and the chain counts four. -/
theorem template_miscounts :
    ((sweeping payToHash).newBlockTemplate none).toOption.bind (fun t =>
      ((sweeping payToHash).loadedView t).toOption.map fun v =>
        (t.sigOpCosts, (sweeping payToHash).checkedCosts t false v)) =
      some ([0, 0], [.ok 0, .ok 4]) := by
  decide +kernel

open Regtest in
/-- The general statement with an expired output that anyone can spend. -/
theorem sigOpCosts_iff_counted_sweeping :
    ∃ t, (sweeping [op1]).newBlockTemplate none = .ok t ∧ t.sigOpCosts = [0, 0] ∧
      ∀ v, (sweeping [op1]).loadedView t = .ok v →
        (sweeping [op1]).checkedCosts t false v = t.sigOpCosts.map .ok := by
  have hrun : ((sweeping [op1]).newBlockTemplate none).toOption.map (fun t =>
      (t.sigOpCosts, t.block.header.timestamp, t.block.transactions.map fun tx =>
        decide (tx.txHash = (minted [op1]).txHash))) =
      some ([0, 0], 1700000600, [false, false]) := by
    decide +kernel
  have hplanned : (sweeping [op1]).plannedREAP.map (fun r =>
      getSigOpCost engine r.1 false
        (fetchUtxoView (sweeping [op1]).fetchEntry r.1) true false) = some (.ok 0) := by
    decide +kernel
  obtain ⟨t, ht, hvalues⟩ := map_eq_some_iff.1 hrun
  obtain ⟨hcosts, hvalues⟩ := Prod.mk.inj hvalues
  obtain ⟨htime, hhashes⟩ := Prod.mk.inj hvalues
  have hok := eq_ok_of_toOption ht
  refine ⟨t, hok, hcosts, ?_⟩
  obtain ⟨t', hassemble, hchecked⟩ := bind_eq_ok.1 hok
  obtain ⟨⟨⟩, -, heq⟩ := bind_eq_ok.1 hchecked
  cases heq
  obtain ⟨⟨a⟩, -⟩ := newBlockTemplate_ok hok
  have hreap (s : Selection) : CountsREAP (sweeping [op1]) false s := by
    refine fun tx fee hplan => .inr (.inr ?_)
    rw [hplan] at hplanned
    exact Option.some.inj hplanned
  refine fun v hv => ((sigOpCosts_iff_counted rfl a.new rfl hassemble ?_ ?_).1 hok v hv).2 (hreap _)
  · rw [htime]
    decide
  · intro tx htx op e hop hhash
    have hother : decide (tx.txHash = (minted [op1]).txHash) ∈ [false, false] := by
      rw [← hhashes]
      exact List.mem_map_of_mem htx
    have hop' : op = (minted [op1]).outPoint 0 :=
      (ite_none_right_eq_some.1 hop).1
    rw [hhash, hop'] at hother
    simp [MsgTx.outPoint] at hother

end Mining

end Obtcd
