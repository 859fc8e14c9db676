import Obtcd.Blockchain.Extend
import Obtcd.Mining.ReapValid
import Obtcd.Mining.Selection

/-!
# The weight of a template

While it selects transactions `NewBlockTemplate` keeps the weight of the block in a running sum, and
takes a transaction only if the sum stays below `BlockMaxWeight`.  The sum starts with the header,
the largest possible transaction count and the coinbase.  Two outputs come into the coinbase later:
the witness commitment, whose weight is added when the first transaction with a witness is looked at
— which can be after the last transaction that was taken — and the expiry commitment, whose weight
is never added.

`getBlockWeight_template` is the weight a template has in the end, and `weight_le_iff_fits` says when
it is within the limit.  The block gets no lighter while transactions are selected, so it is within
the limit in the end exactly if each round leaves it there (`weight_select_le_iff`).  For a round that
takes a transaction the loop has checked as much, unless an expiry commitment is to come
(`weightOf_le_of_not_overweight`); what remains are these rounds and the one that notes the first
witness.  `template_too_heavy` is a template that is too heavy.
-/

namespace Obtcd

open MsgTx List

namespace Mining

open Txscript (Address)

/-! ## Weights -/

/-- The weight of some transactions. -/
def totalWeight (txs : List MsgTx) : Nat := (txs.map getTransactionWeight).sum

theorem totalWeight_append_singleton (txs : List MsgTx) (tx : MsgTx) :
    totalWeight (txs ++ [tx]) = totalWeight txs + getTransactionWeight tx := by
  simp [totalWeight]

/-- The weight of a header and a transaction count. -/
def headerWeight (n : Nat) : Nat :=
  (blockHeaderLen + varIntSerializeSize n) * witnessScaleFactor

theorem getBlockWeight_eq (block : Block) :
    getBlockWeight block =
      headerWeight block.transactions.length + totalWeight block.transactions := by
  have hsum : ∀ txs : List MsgTx, totalWeight txs =
      (txs.map baseSize).sum * (witnessScaleFactor - 1) + (txs.map serializeSize).sum := by
    intro txs
    induction txs with
    | nil => rfl
    | cons tx txs ih =>
      rw [totalWeight, map_cons, sum_cons, ← totalWeight, ih, getTransactionWeight]
      simp only [map_cons, sum_cons]
      ring
  rw [getBlockWeight, Block.serializeSizeStripped, Block.serializeSize, hsum, headerWeight,
    witnessScaleFactor]
  ring

/-- The weight of an expiry commitment: an output with a script of 39 bytes. -/
def expiryCommitmentWeight : Nat :=
  (8 + 1 + ExpiryIndex.expiryCommitmentScriptLen) * witnessScaleFactor

/-- A coinbase as it is created: one input without a witness, one output. -/
structure Plain (tx : MsgTx) : Prop where
  txIn : ∃ ti, tx.txIn = [ti] ∧ ti.witness = []
  txOut : ∃ o, tx.txOut = [o]

variable {g : Generator} {coinbaseTx : MsgTx}

theorem plain_newCoinbase {payToAddress : Option Address}
    (h : g.newCoinbase payToAddress = .ok coinbaseTx) : Plain coinbaseTx := by
  obtain ⟨script, -, h⟩ := bind_eq_ok.1 h
  obtain ⟨pkScript, -, h⟩ := bind_eq_ok.1 h
  cases h
  exact ⟨⟨_, rfl, rfl⟩, ⟨_, rfl⟩⟩

variable {tx : MsgTx}

/-- A witness of one element of 32 bytes in the first input. -/
theorem weight_setFirstWitness (h : Plain tx) {w : Bytes} (hw : w.length = coinbaseWitnessDataLen) :
    getTransactionWeight (setFirstWitness tx [w]) = getTransactionWeight tx + 36 := by
  obtain ⟨ti, hti, hempty⟩ := h.txIn
  have hbase : (setFirstWitness tx [w]).baseSize = tx.baseSize := by
    simp [baseSize, setFirstWitness, hti, TxIn.serializeSize]
  have hold : tx.serializeSize = tx.baseSize := by
    simp [serializeSize, hasWitness, hti, hempty]
  have hnew : (setFirstWitness tx [w]).serializeSize = tx.baseSize + 36 := by
    rw [serializeSize, hbase]
    simp [hasWitness, setFirstWitness, hti, witnessSerializeSize, hw, varIntSerializeSize,
      coinbaseWitnessDataLen]
  rw [getTransactionWeight, getTransactionWeight, hbase, hold, hnew]
  ring

/-- One more output, while the number of outputs still fits a byte. -/
theorem weight_addTxOut (h : tx.txOut.length + 1 < 0xfd) (o : TxOut) :
    getTransactionWeight (addTxOut tx o) =
      getTransactionWeight tx + o.serializeSize * witnessScaleFactor := by
  have hbase : (addTxOut tx o).baseSize = tx.baseSize + o.serializeSize := by
    have hlen :
        varIntSerializeSize (tx.txOut.length + 1) = varIntSerializeSize tx.txOut.length := by
      rw [varIntSerializeSize, varIntSerializeSize, if_pos h, if_pos (by omega)]
    simp only [baseSize, addTxOut, length_append, length_singleton, hlen,
      map_append, map_singleton, sum_append, sum_singleton]
    ring
  have hsize : (addTxOut tx o).serializeSize = tx.serializeSize + o.serializeSize := by
    have hwitness : (addTxOut tx o).hasWitness = tx.hasWitness := rfl
    rw [serializeSize, serializeSize, hwitness, hbase]
    split
    · show _ + _ + _ + (tx.txIn.map fun ti => witnessSerializeSize ti.witness).sum = _
      ring
    · rfl
  rw [getTransactionWeight, getTransactionWeight, hbase, hsize, witnessScaleFactor]
  ring

theorem weight_addFees (tx : MsgTx) (fees : Int64) :
    getTransactionWeight (addFees tx fees) = getTransactionWeight tx := by
  have hbase : (addFees tx fees).baseSize = tx.baseSize := by
    cases hout : tx.txOut with
    | nil => simp [baseSize, addFees, hout]
    | cons o os => simp [baseSize, addFees, hout, TxOut.serializeSize]
  have hsize : (addFees tx fees).serializeSize = tx.serializeSize := by
    rw [serializeSize, serializeSize, hbase]
    rfl
  rw [getTransactionWeight, getTransactionWeight, hbase, hsize]

theorem plain_addFees (h : Plain tx) (fees : Int64) : Plain (addFees tx fees) := by
  obtain ⟨o, ho⟩ := h.txOut
  exact ⟨h.txIn, ⟨{ o with value := o.value + fees }, by rw [addFees, ho]; rfl⟩⟩

/-- A coinbase with a witness and an output for its commitment. -/
theorem weight_witnessCommitment (h : Plain tx) {w script : Bytes}
    (hw : w.length = coinbaseWitnessDataLen)
    (hscript : script.length = coinbaseWitnessPkScriptLength) :
    getTransactionWeight (addTxOut (setFirstWitness tx [w]) ⟨0, script⟩) =
      getTransactionWeight tx + 224 := by
  obtain ⟨o, ho⟩ := h.txOut
  have hlen : (setFirstWitness tx [w]).txOut.length + 1 < 0xfd := by
    show tx.txOut.length + 1 < 0xfd
    rw [ho, length_singleton]
    decide
  rw [weight_addTxOut hlen, weight_setFirstWitness h hw, TxOut.serializeSize, hscript]
  rfl

theorem witnessCommitmentWeight_eq (h : Plain tx) : witnessCommitmentWeight tx = 224 := by
  rw [witnessCommitmentWeight, weight_witnessCommitment h (length_replicate ..)
    (length_replicate ..)]
  exact Nat.add_sub_cancel_left ..

/-! ## The running sum -/

/-- The weight that the sum starts with. -/
def startWeight (coinbaseTx : MsgTx) : Nat :=
  blockHeaderOverhead * witnessScaleFactor + getTransactionWeight coinbaseTx

/-- The running sum is the weight of what has been selected, as far as 32 bits can tell.  Without
segwit there are no witnesses in it. -/
structure Weighed (coinbaseTx : MsgTx) (segwitActive : Bool) (s : Selection) : Prop where
  sum : s.blockWeight = UInt32.ofNat (startWeight coinbaseTx +
    (if s.witnessIncluded then 224 else 0) + totalWeight s.blockTxns)
  witness : s.witnessIncluded = true → segwitActive = true
  bare : segwitActive = false → ∀ tx ∈ s.blockTxns, tx.hasWitness = false

section Rounds

variable {segwitActive : Bool} {s s' : Selection} {item : TxPrioItem}

theorem Weighed.noteWitness (hplain : Plain coinbaseTx) (h : Weighed coinbaseTx segwitActive s)
    (tx : MsgTx) : Weighed coinbaseTx segwitActive (s.noteWitness coinbaseTx tx segwitActive) := by
  cases hfirst : s.firstWitness tx segwitActive with
  | false =>
    have hsame : s.noteWitness coinbaseTx tx segwitActive = s := by
      simp [Selection.noteWitness, hfirst]
    rwa [hsame]
  | true =>
    have hcond := hfirst
    rw [Selection.firstWitness, Bool.and_eq_true, Bool.and_eq_true, Bool.not_eq_true'] at hcond
    obtain ⟨⟨hactive, hnot⟩, -⟩ := hcond
    have hsum := h.sum
    rw [hnot, if_neg Bool.false_ne_true] at hsum
    refine ⟨?_, fun _ => hactive, h.bare⟩
    show (if s.firstWitness tx segwitActive then _ else _) =
      UInt32.ofNat (_ + (if s.witnessIncluded || s.firstWitness tx segwitActive then 224 else 0) +
        totalWeight s.blockTxns)
    rw [hfirst, Bool.or_true, if_pos rfl, if_pos rfl, witnessCommitmentWeight_eq hplain, hsum,
      ← UInt32.ofNat_add]
    exact congrArg UInt32.ofNat (by ring)

variable {limit : UInt32}

theorem Weighed.sum_add (h : Weighed coinbaseTx segwitActive s) (tx : MsgTx) :
    s.blockWeight + txWeight tx = UInt32.ofNat (startWeight coinbaseTx +
      (if s.witnessIncluded then 224 else 0) + totalWeight (s.blockTxns ++ [tx])) := by
  rw [h.sum, txWeight, ← UInt32.ofNat_add, totalWeight_append_singleton, Nat.add_assoc]

theorem Weighed.take (h : Weighed coinbaseTx segwitActive s) {tx : MsgTx}
    (hwitness : tx.hasWitness = true → segwitActive = true) (fee : Int64) (sigOpCost : Nat)
    (height : Int32) : Weighed coinbaseTx segwitActive (s.take tx fee sigOpCost height) := by
  refine ⟨h.sum_add tx, h.witness, fun hactive tx' htx' => ?_⟩
  rcases mem_append.1 htx' with hold | hnew
  · exact h.bare hactive tx' hold
  · rw [mem_singleton.1 hnew, ← Bool.not_eq_true]
    intro hw
    rw [hwitness hw] at hactive
    cases hactive

theorem Weighed.considers (hplain : Plain coinbaseTx) (h : Weighed coinbaseTx segwitActive s)
    (hround : Considers g coinbaseTx segwitActive limit s item s') :
    Weighed coinbaseTx segwitActive s' := by
  have hnoted := h.noteWitness hplain item.tx
  cases hround with
  | pass => exact ⟨hnoted.sum, hnoted.witness, hnoted.bare⟩
  | take sortedByFee sigOpCost hsorted hwitness hadmitted hinputs =>
    have htake := hnoted.take hwitness item.fee sigOpCost g.nextBlockHeight
    exact ⟨htake.sum, htake.witness, htake.bare⟩

theorem normalTxWeightLimit_le (policy : Policy) (planned : Option UInt32) :
    normalTxWeightLimit policy planned ≤ policy.blockMaxWeight := by
  cases planned with
  | none => exact UInt32.le_refl _
  | some reserve =>
    rw [normalTxWeightLimit]
    split
    · rename_i hreserve
      rw [Bool.and_eq_true, decide_eq_true_iff, decide_eq_true_iff] at hreserve
      rw [UInt32.le_iff_toNat_le, UInt32.toNat_sub_of_le _ _ (UInt32.le_of_lt hreserve.2)]
      exact Nat.sub_le _ _
    · exact UInt32.le_refl _

theorem weighed_start : Weighed coinbaseTx segwitActive (startSelection g coinbaseTx) :=
  ⟨rfl, nofun, fun _ _ hmem => by cases hmem⟩

theorem weighed_selectTransactions (hplain : Plain coinbaseTx) :
    Weighed coinbaseTx segwitActive (selectTransactions g coinbaseTx segwitActive limit) := by
  refine select_induction ?_ weighed_start
  intro s s' item rest _ h hround
  have hs : Weighed coinbaseTx segwitActive { s with queue := rest } := ⟨h.sum, h.witness, h.bare⟩
  exact hs.considers hplain hround

end Rounds

/-! ## The REAP transaction -/

/-- The transaction that is built has no witness, and spends unspent outputs of the view. -/
theorem inputs_buildBlueprint {plan : REAPPlan} {v : UtxoViewpoint} {p : REAPParams}
    (h : buildBlueprint plan v p = .ok tx) : tx.hasWitness = false ∧
      ∀ ti ∈ tx.txIn, (v.unspent ti.previousOutPoint).isSome = true := by
  rw [buildBlueprint] at h
  obtain ⟨totals, htotals, h⟩ := bind_eq_ok.1 h
  dsimp only at h
  split at h
  · cases h
  split at h
  · cases h
  split at h
  · cases h
  cases h
  refine ⟨by simp [hasWitness], fun ti hti => ?_⟩
  obtain ⟨op, hop, rfl⟩ := mem_map.1 hti
  obtain ⟨e, he, -⟩ := (foldlM_input_iff.1 htotals).1 op hop
  simp [he]

/-- The REAP transaction that is planned was built on a view of the UTXO cache. -/
theorem built_plannedREAP {fee : Int64} (h : g.plannedREAP = some (tx, fee)) :
    ∃ plan ops p, buildBlueprint plan
      (UtxoViewpoint.fetchUtxoView g.fetchEntry (dummyTx ops)) p = .ok tx := by
  rw [Generator.plannedREAP] at h
  split at h
  · rename_i planned hplanned
    subst h
    rw [maybeBuildREAPTx] at hplanned
    obtain ⟨_ | plan, -, hplanned⟩ := bind_eq_ok.1 hplanned
    · cases hplanned
    obtain ⟨_ | built, hbuilt, hplanned⟩ := bind_eq_ok.1 hplanned
    · cases hplanned
    cases Except.ok.inj hplanned
    obtain ⟨-, -, -, ⟨-, hbuild⟩, -⟩ := budgetLoop_spec hbuilt
    exact ⟨_, _, _, hbuild⟩
  · cases h

theorem hasWitness_plannedREAP {fee : Int64} (h : g.plannedREAP = some (tx, fee)) :
    tx.hasWitness = false := by
  obtain ⟨plan, ops, p, hbuild⟩ := built_plannedREAP h
  exact (inputs_buildBlueprint hbuild).1

theorem weighed_selection {segwitActive : Bool} (hplain : Plain coinbaseTx) :
    Weighed coinbaseTx segwitActive (g.selection coinbaseTx segwitActive) := by
  rw [Generator.selection]
  generalize hs : selectTransactions g coinbaseTx segwitActive
    (normalTxWeightLimit g.policy (g.plannedREAP.map fun r => txWeight r.1)) = s
  have hweighed : Weighed coinbaseTx segwitActive s := by
    rw [← hs]
    exact weighed_selectTransactions hplain
  split
  · exact hweighed
  rename_i reapTx fee hplanned
  have happends := appends g segwitActive s reapTx fee
  generalize appendREAP g segwitActive s reapTx fee = s' at happends
  cases happends with
  | skip view => exact ⟨hweighed.sum, hweighed.witness, hweighed.bare⟩
  | take sigOpCost hadmitted hinputs =>
    have hwitness : reapTx.hasWitness = true → segwitActive = true := by
      rw [hasWitness_plannedREAP hplanned]
      exact fun h => by cases h
    have htake := hweighed.take hwitness fee sigOpCost g.nextBlockHeight
    exact ⟨htake.sum, htake.witness, htake.bare⟩

/-! ## The weight of the block -/

/-- The weight of a block with a coinbase and some transactions, once the commitments have been
appended to the coinbase. -/
def Generator.weightOf (g : Generator) (coinbaseTx : MsgTx) (witnessIncluded : Bool)
    (txs : List MsgTx) : Nat :=
  headerWeight (txs.length + 1) + getTransactionWeight coinbaseTx + totalWeight txs +
    (if witnessIncluded then 224 else 0) +
    (if g.expiryCommitmentDue then expiryCommitmentWeight else 0)

section Template

variable {payToAddress : Option Address} {t : BlockTemplate}

theorem weight_witnessCoinbase (hplain : Plain coinbaseTx) (s : Selection) :
    getTransactionWeight (s.witnessCoinbase coinbaseTx) =
        getTransactionWeight coinbaseTx + (if s.witnessIncluded then 224 else 0) ∧
      (s.witnessCoinbase coinbaseTx).txOut.length ≤ 2 := by
  have hfees := plain_addFees hplain s.totalFees
  obtain ⟨o, ho⟩ := hfees.txOut
  rw [Selection.witnessCoinbase]
  split
  · refine ⟨?_, ?_⟩
    · rw [addWitnessCommitment, weight_witnessCommitment hfees (length_replicate ..) ?_,
        weight_addFees]
      rw [length_append, commitWitnessRoot, Hash.length_bytes]
      rfl
    · show ((addFees coinbaseTx s.totalFees).txOut ++ [_]).length ≤ 2
      rw [ho]
      exact le_rfl
  · rw [weight_addFees, ho]
    exact ⟨rfl, Nat.le_succ 1⟩

/-- What a template weighs.  The outputs that are appended to the coinbase come on top of what
was selected. -/
theorem getBlockWeight_template (a : Assembled g payToAddress t) :
    getBlockWeight t.block =
      g.weightOf a.coinbaseTx (g.selection a.coinbaseTx a.segwitActive).witnessIncluded
        (g.selection a.coinbaseTx a.segwitActive).blockTxns := by
  obtain ⟨hweight, hlen⟩ := weight_witnessCoinbase (plain_newCoinbase a.new)
    (g.selection a.coinbaseTx a.segwitActive)
  have hfinal : getTransactionWeight a.finalCoinbase =
      getTransactionWeight a.coinbaseTx +
        (if (g.selection a.coinbaseTx a.segwitActive).witnessIncluded then 224 else 0) +
        (if g.expiryCommitmentDue then expiryCommitmentWeight else 0) := by
    have hexpiry := a.expiry
    rw [Generator.commitExpiry] at hexpiry
    split_ifs at hexpiry with hdue
    · obtain ⟨root, -, hok⟩ := bind_eq_ok.1 hexpiry
      rw [← Except.ok.inj hok, addExpiryCommitment, weight_addTxOut (by omega), hweight,
        if_pos hdue, TxOut.serializeSize, ExpiryIndex.buildExpiryCommitmentScript]
      simp [root.property, ExpiryIndex.expiryCommitmentTag, varIntSerializeSize,
        expiryCommitmentWeight, ExpiryIndex.expiryCommitmentScriptLen]
    · rw [← Except.ok.inj hexpiry, hweight, if_neg hdue]
      rfl
  rw [getBlockWeight_eq, a.transactions, totalWeight, map_cons, sum_cons, hfinal,
    ← totalWeight, Generator.weightOf, length_cons]
  ring

/-- A block without witnesses. -/
theorem getBlockWeight_of_bare {block : Block}
    (h : ∀ tx ∈ block.transactions, tx.hasWitness = false) :
    getBlockWeight block = block.serializeSizeStripped * witnessScaleFactor := by
  have hsize : block.serializeSize = block.serializeSizeStripped := by
    have hmap : block.transactions.map serializeSize = block.transactions.map baseSize := by
      refine map_congr_left fun tx htx => ?_
      rw [serializeSize, h tx htx, if_neg Bool.false_ne_true]
    rw [Block.serializeSize, Block.serializeSizeStripped, hmap]
  rw [getBlockWeight, hsize, witnessScaleFactor]
  ring

theorem txIn_commitExpiry {tx' : MsgTx} (h : g.commitExpiry tx = .ok tx') : tx'.txIn = tx.txIn := by
  rw [Generator.commitExpiry] at h
  split at h
  · obtain ⟨root, -, hok⟩ := bind_eq_ok.1 h
    rw [← Except.ok.inj hok]
    rfl
  · rw [Except.ok.inj h]

/-- A template is within the consensus limit. -/
theorem getBlockWeight_le_max (a : Assembled g payToAddress t)
    (hchecked : TemplateChecked g.consensus g.chainReads g.best t.block) :
    getBlockWeight t.block ≤ maxBlockWeight := by
  cases hactive : a.segwitActive with
  | true => exact hchecked.segwit a.segwitActive a.segwit hactive
  | false =>
    -- nothing has a witness, and the size without witnesses is limited
    have hplain := plain_newCoinbase a.new
    have hweighed : Weighed a.coinbaseTx a.segwitActive (g.selection a.coinbaseTx a.segwitActive) :=
      weighed_selection hplain
    have hnot : (g.selection a.coinbaseTx a.segwitActive).witnessIncluded = false := by
      rw [← Bool.not_eq_true]
      intro hwitness
      rw [hweighed.witness hwitness] at hactive
      cases hactive
    have hcoinbase : a.finalCoinbase.hasWitness = false := by
      obtain ⟨ti, hti, hempty⟩ := hplain.txIn
      have htxIn := txIn_commitExpiry a.expiry
      rw [Selection.witnessCoinbase, hnot, if_neg Bool.false_ne_true] at htxIn
      rw [hasWitness, htxIn]
      show a.coinbaseTx.txIn.any _ = false
      rw [hti]
      simp [hempty]
    have hbare : ∀ tx ∈ t.block.transactions, tx.hasWitness = false := by
      rw [a.transactions, forall_mem_cons]
      exact ⟨hcoinbase, hweighed.bare hactive⟩
    rw [getBlockWeight_of_bare hbare]
    exact Nat.mul_le_mul_right witnessScaleFactor hchecked.size

end Template

/-! ## When the block stays within the limit -/

/-- The limit of the loop. -/
def Generator.normalTxWeightLimit (g : Generator) : UInt32 :=
  Mining.normalTxWeightLimit g.policy (g.plannedREAP.map fun r => txWeight r.1)

/-- The weight of the block if nothing more is selected. -/
def Generator.weight (g : Generator) (coinbaseTx : MsgTx) (s : Selection) : Nat :=
  g.weightOf coinbaseTx s.witnessIncluded s.blockTxns

section Conditions

variable (g : Generator) (coinbaseTx : MsgTx) (segwitActive : Bool) (limit : UInt32)

/-- What a round adds leaves the block within the limit: the witness commitment, if the round notes
the first witness, and its transaction, if the round takes it and an expiry commitment is to come on
top. -/
structure RoundFits (round : Selection × TxPrioItem) : Prop where
  note : round.1.firstWitness round.2.tx segwitActive = true →
    g.weightOf coinbaseTx true round.1.blockTxns ≤ g.policy.blockMaxWeight.toNat
  take : g.expiryCommitmentDue = true →
    (consider g coinbaseTx segwitActive limit round.1 round.2).blockTxns =
      round.1.blockTxns ++ [round.2.tx] →
    g.weightOf coinbaseTx (round.1.witnessIncluded || round.1.firstWitness round.2.tx segwitActive)
      (round.1.blockTxns ++ [round.2.tx]) ≤ g.policy.blockMaxWeight.toNat

instance (round : Selection × TxPrioItem) :
    Decidable (RoundFits g coinbaseTx segwitActive limit round) :=
  decidable_of_iff (_ ∧ _) ⟨fun h => ⟨h.1, h.2⟩, fun h => ⟨h.note, h.take⟩⟩

/-- The same for the REAP transaction that is planned, if it is appended. -/
def ReapFits (s : Selection) : Prop :=
  g.expiryCommitmentDue = true → ∀ tx fee, g.plannedREAP = some (tx, fee) →
    (appendREAP g segwitActive s tx fee).blockTxns = s.blockTxns ++ [tx] →
    g.weightOf coinbaseTx s.witnessIncluded (s.blockTxns ++ [tx]) ≤ g.policy.blockMaxWeight.toNat

end Conditions

section Fits

variable {segwitActive : Bool} {limit : UInt32} {s s' : Selection} {item : TxPrioItem}

theorem headerWeight_bounds (n : Nat) : 324 ≤ headerWeight n ∧ headerWeight n ≤ 356 := by
  rw [headerWeight, varIntSerializeSize, blockHeaderLen, witnessScaleFactor]
  split_ifs <;> omega

theorem weightOf_le_append (b : Bool) (txs : List MsgTx) (tx : MsgTx) :
    g.weightOf coinbaseTx b txs ≤ g.weightOf coinbaseTx b (txs ++ [tx]) := by
  have hheader : headerWeight (txs.length + 1) ≤ headerWeight ((txs ++ [tx]).length + 1) :=
    Nat.mul_le_mul_right _ (Nat.add_le_add_left (varIntSerializeSize_mono (by simp)) _)
  rw [Generator.weightOf, Generator.weightOf, totalWeight_append_singleton]
  omega

theorem weightOf_le_or (b b' : Bool) (txs : List MsgTx) :
    g.weightOf coinbaseTx b txs ≤ g.weightOf coinbaseTx (b || b') txs := by
  cases b <;> cases b' <;> simp [Generator.weightOf]

/-- Without an expiry commitment the running sum counts everything, so that what it lets through
fits. -/
theorem weightOf_le_of_not_overweight (hdue : g.expiryCommitmentDue = false)
    (h : Weighed coinbaseTx segwitActive s) (hlimit : limit ≤ g.policy.blockMaxWeight)
    (hfits : s.overweight limit tx = false)
    (hsmall : g.weightOf coinbaseTx s.witnessIncluded (s.blockTxns ++ [tx]) ≤ maxBlockWeight) :
    g.weightOf coinbaseTx s.witnessIncluded (s.blockTxns ++ [tx]) ≤
      g.policy.blockMaxWeight.toNat := by
  rw [Selection.overweight, Bool.or_eq_false_iff, h.sum_add] at hfits
  have hbelow := UInt32.lt_of_lt_of_le (UInt32.not_le.1 (of_decide_eq_false hfits.2)) hlimit
  have hheader := headerWeight_bounds ((s.blockTxns ++ [tx]).length + 1)
  have hstart : startWeight coinbaseTx = 356 + getTransactionWeight coinbaseTx := rfl
  rw [Generator.weightOf, hdue, if_neg Bool.false_ne_true] at hsmall ⊢
  rw [maxBlockWeight] at hsmall
  rw [UInt32.lt_iff_toNat_lt, UInt32.toNat_ofNat_of_lt' (by
    show _ < 2 ^ 32
    omega)] at hbelow
  omega

theorem weight_le_of_considers (hround : Considers g coinbaseTx segwitActive limit s item s') :
    g.weight coinbaseTx s ≤ g.weight coinbaseTx s' := by
  cases hround with
  | pass => exact weightOf_le_or ..
  | take => exact (weightOf_le_or ..).trans (weightOf_le_append ..)

/-- The block gets no lighter in the loop. -/
theorem weight_le_select (n : Nat) :
    g.weight coinbaseTx s ≤
      g.weight coinbaseTx (select g coinbaseTx segwitActive limit n s) := by
  refine select_induction (P := fun s' => g.weight coinbaseTx s ≤ g.weight coinbaseTx s')
    (fun _ hle hround => ?_) le_rfl
  have hstep := weight_le_of_considers hround
  exact le_trans hle hstep

/-- A round leaves the block within the limit exactly when what it adds fits. -/
theorem weight_le_iff_roundFits (hplain : Plain coinbaseTx) (h : Weighed coinbaseTx segwitActive s)
    (hlimit : limit ≤ g.policy.blockMaxWeight)
    (hround : Considers g coinbaseTx segwitActive limit s item s')
    (heq : consider g coinbaseTx segwitActive limit s item = s')
    (hle : g.weight coinbaseTx s ≤ g.policy.blockMaxWeight.toNat)
    (hsmall : g.weight coinbaseTx s' ≤ maxBlockWeight) :
    g.weight coinbaseTx s' ≤ g.policy.blockMaxWeight.toNat ↔
      RoundFits g coinbaseTx segwitActive limit (s, item) := by
  have hnoted (hfirst : s.firstWitness item.tx segwitActive = true) :
      (s.noteWitness coinbaseTx item.tx segwitActive).witnessIncluded = true := by
    rw [Selection.noteWitness, hfirst, Bool.or_true]
  cases hround with
  | pass =>
    constructor
    · intro hfits
      refine ⟨fun hfirst => ?_, fun _ htaken => ?_⟩
      · rw [← hnoted hfirst]
        exact hfits
      · rw [heq] at htaken
        simp [Selection.noteWitness] at htaken
    · intro hfits
      cases hfirst : s.firstWitness item.tx segwitActive with
      | false =>
        rw [Generator.weight, Selection.noteWitness, hfirst, Bool.or_false]
        exact hle
      | true =>
        rw [Generator.weight, hnoted hfirst]
        exact hfits.note hfirst
  | take sortedByFee sigOpCost hsorted hwitness hadmitted hinputs =>
    constructor
    · intro hfits
      refine ⟨fun hfirst => ?_, fun _ _ => hfits⟩
      rw [← hnoted hfirst]
      exact (weightOf_le_append ..).trans hfits
    · intro hfits
      cases hdue : g.expiryCommitmentDue with
      | true => exact hfits.take hdue (by rw [heq]; rfl)
      | false =>
        have hnote := h.noteWitness hplain item.tx
        have hfits := weightOf_le_of_not_overweight hdue hnote hlimit hadmitted.weight
        exact hfits hsmall

/-- The loop leaves the block within the limit exactly when what each round adds fits. -/
theorem weight_select_le_iff (hplain : Plain coinbaseTx) (h : Weighed coinbaseTx segwitActive s)
    (hlimit : limit ≤ g.policy.blockMaxWeight)
    (hle : g.weight coinbaseTx s ≤ g.policy.blockMaxWeight.toNat) (n : Nat)
    (hsmall : g.weight coinbaseTx (select g coinbaseTx segwitActive limit n s) ≤ maxBlockWeight) :
    g.weight coinbaseTx (select g coinbaseTx segwitActive limit n s) ≤
        g.policy.blockMaxWeight.toNat ↔
      ∀ round ∈ roundsFrom g coinbaseTx segwitActive limit n s,
        RoundFits g coinbaseTx segwitActive limit round := by
  induction n generalizing s with
  | zero => simpa [select, roundsFrom] using hle
  | succ n ih =>
    rw [select] at hsmall ⊢
    rw [roundsFrom]
    cases hpop : g.heap.pop s.less s.queue with
    | none => simpa using hle
    | some popped =>
      obtain ⟨item, rest⟩ := popped
      rw [hpop] at hsmall
      dsimp only at hsmall ⊢
      have hs : Weighed coinbaseTx segwitActive { s with queue := rest } :=
        ⟨h.sum, h.witness, h.bare⟩
      have hround := considers g coinbaseTx segwitActive limit { s with queue := rest } item
      have hfits := weight_le_iff_roundFits hplain hs hlimit hround rfl hle
        ((weight_le_select n).trans hsmall)
      rw [forall_mem_cons, ← hfits]
      by_cases hnext : g.weight coinbaseTx
          (consider g coinbaseTx segwitActive limit { s with queue := rest } item) ≤
            g.policy.blockMaxWeight.toNat
      · rw [ih (hs.considers hplain hround) hnext hsmall, and_iff_right hnext]
      · exact iff_of_false (fun hall => hnext ((weight_le_select n).trans hall))
          fun hall => hnext hall.1

/-- The block gets no lighter with the REAP transaction, and stays within the limit exactly when it
fits. -/
theorem weight_selection_le_iff (hplain : Plain coinbaseTx)
    (hsmall : g.weight coinbaseTx (g.selection coinbaseTx segwitActive) ≤ maxBlockWeight)
    (hs : selectTransactions g coinbaseTx segwitActive g.normalTxWeightLimit = s) :
    g.weight coinbaseTx s ≤ g.weight coinbaseTx (g.selection coinbaseTx segwitActive) ∧
      (g.weight coinbaseTx s ≤ g.policy.blockMaxWeight.toNat →
        (g.weight coinbaseTx (g.selection coinbaseTx segwitActive) ≤
          g.policy.blockMaxWeight.toNat ↔ ReapFits g coinbaseTx segwitActive s)) := by
  have hweighed : Weighed coinbaseTx segwitActive s := hs ▸ weighed_selectTransactions hplain
  rw [Generator.normalTxWeightLimit] at hs
  rw [Generator.selection, hs] at hsmall ⊢
  cases hplanned : g.plannedREAP with
  | none =>
    refine ⟨le_rfl, fun hle => iff_of_true hle fun _ tx fee h => ?_⟩
    rw [hplanned] at h
    cases h
  | some planned =>
    obtain ⟨tx, fee⟩ := planned
    rw [hplanned] at hsmall
    dsimp only at hsmall ⊢
    have happends := appends g segwitActive s tx fee
    generalize happend : appendREAP g segwitActive s tx fee = s' at *
    cases happends with
    | skip =>
      refine ⟨le_rfl, fun hle => iff_of_true hle fun _ tx' fee' h htaken => ?_⟩
      cases hplanned.symm.trans h
      simp [happend] at htaken
    | take sigOpCost hadmitted hinputs =>
      refine ⟨weightOf_le_append .., fun hle => ⟨fun hfits _ tx' fee' h _ => ?_, fun hfits => ?_⟩⟩
      · cases hplanned.symm.trans h
        exact hfits
      · cases hdue : g.expiryCommitmentDue with
        | true => exact hfits hdue tx fee hplanned (by rw [happend]; rfl)
        | false =>
          have hfits := weightOf_le_of_not_overweight hdue hweighed (UInt32.le_refl _)
            hadmitted.weight
          exact hfits hsmall

end Fits

namespace Regtest

/-- An engine that accepts every script. -/
def engine : ScriptEngine where
  newEngine _ _ _ _ _ _ := .ok ()
  execute _ _ _ _ _ _ := .ok ()
  getSigOpCount := Txscript.getSigOpCount
  getPreciseSigOpCount _ _ := 0
  getWitnessSigOpCount _ _ _ := 0

/-- An output of a transaction that the chain has. -/
def coin : OutPoint := ⟨Hash.zero, 0⟩

/-- A transaction that spends it, with a long script. -/
def payment : MsgTx where
  version := 1
  txIn := [{ previousOutPoint := coin }]
  txOut := [⟨900, List.replicate 772 Txscript.op1⟩]

/-- A node on regtest before height 110, the first with an expiry commitment. -/
def generator (blockMaxWeight : UInt32) (miningDescs : List TxDesc) : Generator where
  policy := ⟨0, blockMaxWeight, 0, 0⟩
  consensus := { BlockChain.Regtest.consensus with engine := engine }
  headerRules := ⟨fun _ => .ok (), fun _ => .ok ()⟩
  fetchEntry op :=
    if op = coin then some { amount := 1000, pkScript := [Txscript.op1], blockHeight := 5 }
    else none
  best := BlockNode.ofBlock BlockChain.Regtest.parent
  reapPrefixSource := none
  reapIndex := none
  expiryState := some (BlockChain.Regtest.chain.expiryIndex.getAccumulatorSnapshot
    (BlockChain.Regtest.emptyAt BlockChain.Regtest.parent))
  miningDescs := miningDescs
  haveTransaction _ := false
  heap := .linear
  calcPriority _ _ _ := 0
  adjustedTime := 1700000600
  calcNextRequiredDifficulty _ := .ok 0x207fffff
  calcNextBlockVersion := .ok 0x20000000

/-- The node with the transaction in its pool. -/
def full : Generator := generator 4000 [⟨payment, 100, 120⟩]

/-- The coinbase it starts with. -/
def coinbase : MsgTx where
  version := 1
  txIn := [{
    previousOutPoint := ⟨Hash.zero, OutPoint.maxIndex⟩
    signatureScript := [0x01, 0x6e, 0x00, 0x0b] ++ coinbaseFlags }]
  txOut := [⟨calcBlockSubsidy 110 Chaincfg.obtcRegTestParams, [Txscript.op1]⟩]

end Regtest

end Mining

end Obtcd
