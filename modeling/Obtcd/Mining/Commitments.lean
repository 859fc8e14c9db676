import Obtcd.Mining.TemplateWeight

/-!
# The commitments of a template

The coinbase of a template pays out in its first output, and may have two more: a witness
commitment, and behind it the expiry commitment.  Both are found by their form, the expiry
commitment from the front for counting and from the back for reading, the witness commitment from
the back.  The three forms exclude each other: a payout script never starts with `OP_RETURN`, and
the opcodes after it push 36 bytes in one commitment and 37 in the other.

A miner that runs through the nonces rewrites the script of the coinbase.  Neither commitment
depends on it: one is to the state before the block, and to the other the coinbase counts as the
zero hash.  `Shape` is what stays, and `template_commitments` is what follows for every template and
every number of rewrites.
-/

namespace Obtcd

open List Txscript

namespace Mining

open ExpiryIndex (Index isExpiryCommitment buildExpiryCommitmentScript extractExpiryCommitment
  countExpiryCommitments expiryCommitmentVersion)

/-! ## The three kinds of output -/

theorem not_isExpiryCommitment_of_head {pkScript : Bytes}
    (h : pkScript.head? ≠ some opReturn) : isExpiryCommitment pkScript = false := by
  cases pkScript with
  | nil => rfl
  | cons b bs =>
    have hb : b ≠ opReturn := fun heq => h (congrArg some heq)
    simp [isExpiryCommitment, hb]

theorem not_isWitnessCommitment_of_head {pkScript : Bytes}
    (h : pkScript.head? ≠ some opReturn) : isWitnessCommitment pkScript = false := by
  cases pkScript with
  | nil => rfl
  | cons b bs =>
    have hb : (opReturn == b) = false :=
      beq_eq_false_iff_ne.2 fun heq => h (congrArg some heq.symm)
    show (_ && (opReturn == b && _)) = false
    rw [hb, Bool.false_and, Bool.and_false]

theorem isExpiryCommitment_build (root : Bytes.Sized 32) :
    isExpiryCommitment (buildExpiryCommitmentScript root) = true := by
  simp [isExpiryCommitment, buildExpiryCommitmentScript, root.property,
    ExpiryIndex.expiryCommitmentTag, ExpiryIndex.expiryCommitmentScriptLen]

theorem not_isWitnessCommitment_build (root : Bytes.Sized 32) :
    isWitnessCommitment (buildExpiryCommitmentScript root) = false := by
  have hpush : ((0x24 : UInt8) == opData37) = false := rfl
  show (_ && (_ && ((0x24 : UInt8) == opData37 && _))) = false
  rw [hpush, Bool.false_and, Bool.and_false, Bool.and_false]

theorem not_isExpiryCommitment_witness (commitment : Bytes) :
    isExpiryCommitment (witnessMagicBytes ++ commitment) = false := by
  simp [isExpiryCommitment, witnessMagicBytes, opData37]

theorem isWitnessCommitment_witness {commitment : Bytes} (h : commitment.length = 32) :
    isWitnessCommitment (witnessMagicBytes ++ commitment) = true := by
  simp [isWitnessCommitment, witnessMagicBytes, h, coinbaseWitnessPkScriptLength]

/-! ## The outputs of a coinbase -/

/-- The outputs of a finished coinbase, with what it commits to. -/
def coinbaseOutputs (payout : TxOut) (witnessCommitment : Option Bytes) (root : Bytes.Sized 32) :
    List TxOut :=
  payout :: (witnessCommitment.map fun c => (⟨0, witnessMagicBytes ++ c⟩ : TxOut)).toList ++
    [⟨0, buildExpiryCommitmentScript root⟩]

section Outputs

variable {payout : TxOut} {witnessCommitment : Option Bytes} {root : Bytes.Sized 32} {tx : MsgTx}

section

variable (h : tx.txOut = coinbaseOutputs payout witnessCommitment root)
include h

theorem countExpiryCommitments_eq_one (hpayout : payout.pkScript.head? ≠ some opReturn) :
    countExpiryCommitments tx = 1 := by
  have hpay := not_isExpiryCommitment_of_head hpayout
  have hbuild := isExpiryCommitment_build root
  rw [countExpiryCommitments, h, coinbaseOutputs]
  cases witnessCommitment with
  | none => simp [hpay, hbuild]
  | some c => simp [hpay, hbuild, not_isExpiryCommitment_witness c]

theorem extractExpiryCommitment_eq :
    extractExpiryCommitment tx = some (expiryCommitmentVersion, root.val) := by
  have hbuild := isExpiryCommitment_build root
  rw [extractExpiryCommitment, h, coinbaseOutputs, reverse_append, reverse_singleton,
    singleton_append]
  simp only [find?_cons, hbuild, Option.map_some]
  show some (expiryCommitmentVersion, root.val.take 32) = _
  rw [take_of_length_le (le_of_eq root.property)]

theorem extractWitnessCommitment_eq (hcoinbase : isCoinBaseTx tx = true)
    (hpayout : payout.pkScript.head? ≠ some opReturn)
    (hlen : ∀ c ∈ witnessCommitment, c.length = 32) :
    extractWitnessCommitment tx = witnessCommitment := by
  have hbuild := not_isWitnessCommitment_build root
  rw [extractWitnessCommitment, hcoinbase, h, coinbaseOutputs, reverse_append,
    reverse_singleton, singleton_append, find?_cons_of_neg (by simp [hbuild])]
  cases witnessCommitment with
  | none => simp [not_isWitnessCommitment_of_head hpayout]
  | some c =>
    have hc : c.length = 32 := hlen c rfl
    have hfound := isWitnessCommitment_witness hc
    have hread : ((witnessMagicBytes ++ c).take coinbaseWitnessPkScriptLength).drop
        witnessMagicBytes.length = c := by
      rw [take_of_length_le (by simp [hc, witnessMagicBytes, coinbaseWitnessPkScriptLength]),
        drop_left]
    simp [hfound, hread]

end

end Outputs

/-! ## Rewriting the script of the coinbase -/

/-- The parts of a block that no extra nonce changes: the other transactions, the height, and of the
coinbase its outputs, its witness and that it is one. -/
structure Shape (outputs : List TxOut) (witness : List Bytes) (txs : List MsgTx) (height : Int32)
    (block : Block) : Prop where
  coinbase : ∃ coinbaseTx ti, block.transactions = coinbaseTx :: txs ∧ coinbaseTx.txOut = outputs ∧
    coinbaseTx.txIn = [ti] ∧ ti.previousOutPoint = ⟨Hash.zero, OutPoint.maxIndex⟩ ∧
    ti.witness = witness
  height : block.height = height

/-- The block after any number of calls of `UpdateExtraNonce`.  A call that fails changes
nothing. -/
def Updates : Block → Block → Prop :=
  Relation.ReflTransGen fun block block' =>
    ∃ height extraNonce, updateExtraNonce block height extraNonce = .ok block'

section Shape

variable {outputs : List TxOut} {witness : List Bytes} {txs : List MsgTx} {height : Int32}
  {block block' : Block}

theorem Shape.updateExtraNonce (h : Shape outputs witness txs height block) {blockHeight : Int32}
    {extraNonce : UInt64} (hup : updateExtraNonce block blockHeight extraNonce = .ok block') :
    Shape outputs witness txs height block' := by
  obtain ⟨coinbaseTx, ti, htxs, hout, hin, hnull, hwitness⟩ := h.coinbase
  obtain ⟨script, -, hup⟩ := bind_eq_ok.1 hup
  split_ifs at hup
  rw [htxs] at hup
  dsimp only at hup
  rw [hin] at hup
  cases hup
  exact ⟨⟨_, _, rfl, hout, rfl, hnull, hwitness⟩, h.height⟩

theorem Shape.updates (h : Shape outputs witness txs height block) (hup : Updates block block') :
    Shape outputs witness txs height block' := by
  induction hup with
  | refl => exact h
  | tail _ hstep ih =>
    obtain ⟨blockHeight, extraNonce, hstep⟩ := hstep
    exact ih.updateExtraNonce hstep

theorem Shape.isCoinBaseTx {coinbaseTx : MsgTx} {ti : TxIn} (hin : coinbaseTx.txIn = [ti])
    (hnull : ti.previousOutPoint = ⟨Hash.zero, OutPoint.maxIndex⟩) :
    isCoinBaseTx coinbaseTx = true := by
  rw [Obtcd.isCoinBaseTx, hin]
  dsimp only
  rw [hnull]
  rfl

end Shape

/-! ## The template -/

theorem payoutScript_head {addr : Option Address} {script : Bytes}
    (h : payoutScript addr = .ok script) : script.head? ≠ some opReturn := by
  cases addr with
  | none =>
    cases h
    decide
  | some addr =>
    rw [payoutScript] at h
    cases hscript : payToAddrScript addr with
    | error text => rw [hscript] at h; cases h
    | ok script' =>
      rw [hscript] at h
      cases h
      exact payToAddrScript_head hscript

section Template

variable {g : Generator} {payToAddress : Option Address} {t : BlockTemplate}

/-- The coinbase that a template starts with. -/
theorem newCoinbase_ok {coinbaseTx : MsgTx} (h : g.newCoinbase payToAddress = .ok coinbaseTx) :
    ∃ ti payout, coinbaseTx.txIn = [ti] ∧
      ti.previousOutPoint = ⟨Hash.zero, OutPoint.maxIndex⟩ ∧ coinbaseTx.txOut = [payout] ∧
      payout.pkScript.head? ≠ some opReturn := by
  obtain ⟨script, -, h⟩ := bind_eq_ok.1 h
  obtain ⟨pkScript, hpay, h⟩ := bind_eq_ok.1 h
  cases h
  exact ⟨_, _, rfl, rfl, rfl, payoutScript_head hpay⟩

/-- The block of a template, with an expiry commitment, in parts. -/
theorem shape_template (a : Assembled g payToAddress t) (hdue : g.expiryCommitmentDue = true) :
    ∃ root payout witness, g.expiryRoot = .ok root ∧
      payout.pkScript.head? ≠ some opReturn ∧
      Shape (coinbaseOutputs payout t.witnessCommitment root) witness
        (g.selection a.coinbaseTx a.segwitActive).blockTxns g.nextBlockHeight t.block ∧
      ∀ c ∈ t.witnessCommitment, c.length = 32 ∧ ∃ nonce, witness = [nonce] ∧
        nonce.length = coinbaseWitnessDataLen ∧
        ∀ coinbaseTx, c = commitWitnessRoot (calcMerkleRoot
          (coinbaseTx :: (g.selection a.coinbaseTx a.segwitActive).blockTxns) true) nonce := by
  obtain ⟨ti, payout, hin, hnull, hout, hpayout⟩ := newCoinbase_ok a.new
  have hexpiry := a.expiry
  have htxs := a.transactions
  have hcommitment := a.witnessCommitment
  generalize g.selection a.coinbaseTx a.segwitActive = s at *
  rw [Generator.commitExpiry, if_pos hdue] at hexpiry
  obtain ⟨root, hroot, hok⟩ := bind_eq_ok.1 hexpiry
  have hfinal := Except.ok.inj hok
  refine ⟨root, { payout with value := payout.value + s.totalFees }, ?_⟩
  rw [Selection.witnessCommitment] at hcommitment
  rw [Selection.witnessCoinbase] at hfinal
  cases hwitness : s.witnessIncluded with
  | false =>
    rw [hwitness, if_neg Bool.false_ne_true] at hcommitment hfinal
    refine ⟨ti.witness, hroot, hpayout, ⟨⟨a.finalCoinbase, ti, htxs, ?_, ?_, hnull, rfl⟩, a.height⟩,
      fun c hc => ?_⟩
    · rw [← hfinal, hcommitment]
      simp [addExpiryCommitment, addTxOut, addFees, hout, coinbaseOutputs]
    · rwa [← hfinal]
    · rw [hcommitment] at hc
      cases hc
  | true =>
    rw [hwitness, if_pos rfl] at hcommitment hfinal
    refine ⟨[replicate coinbaseWitnessDataLen 0], hroot, hpayout,
      ⟨⟨a.finalCoinbase, { ti with witness := [replicate coinbaseWitnessDataLen 0] }, htxs, ?_,
        ?_, hnull, rfl⟩, a.height⟩, fun c hc => ?_⟩
    · rw [← hfinal, hcommitment]
      simp [addExpiryCommitment, addWitnessCommitment, setFirstWitness, addTxOut, addFees, hout,
        coinbaseOutputs]
    · rw [← hfinal]
      simp [addExpiryCommitment, addWitnessCommitment, setFirstWitness, addTxOut, addFees, hin]
    · rw [hcommitment, Option.mem_some_iff] at hc
      rw [← hc, addWitnessCommitment]
      refine ⟨Hash.length_bytes _, _, rfl, length_replicate .., fun coinbaseTx => ?_⟩
      rw [calcMerkleRoot_witness_cons _ coinbaseTx]

/-- The index checks the commitment of every block that the generator commits in. -/
theorem isCommitmentActive_of_due {idx : Index}
    (hparams : ExpiryIndex.getExpiryParams g.consensus.params = some idx.expiryParams)
    (hdue : g.expiryCommitmentDue = true) : idx.isCommitmentActive g.nextBlockHeight = true := by
  rw [ExpiryIndex.getExpiryParams, Option.map_eq_some_iff] at hparams
  obtain ⟨cfg, hcfg, hparams⟩ := hparams
  have hsane := Chaincfg.getExpiryParams_sane hcfg
  rw [Generator.expiryCommitmentDue, hcfg] at hdue
  have hpos : cfg.expiryCommitmentEnableAtHeight > 0 := by
    rw [hsane.commitment]
    exact Int32.lt_iff_toInt_lt.2 hsane.enable_pos
  rw [Index.isCommitmentActive, ← hparams]
  simpa [hpos] using hdue

/-- The root to commit to is that of the index. -/
theorem getAccumulatorDigest_of_expiryRoot {idx : Index} {db : ExpiryIndex.Buckets}
    {root : Bytes.Sized 32} (hsource : g.expiryState = some (idx.getAccumulatorSnapshot db))
    (hroot : g.expiryRoot = .ok root) : idx.getAccumulatorDigest db = .ok root := by
  rw [Generator.expiryRoot, hsource] at hroot
  obtain ⟨snapshot, hsnapshot, hroot⟩ := bind_eq_ok.1 hroot
  split_ifs at hroot
  cases hroot
  rw [Index.getAccumulatorDigest]
  cases hstate : idx.getAccumulatorSnapshot db with
  | error e => rw [hstate] at hsnapshot; cases hsnapshot
  | ok snapshot' =>
    rw [hstate] at hsnapshot
    cases hsnapshot
    rfl

/-- **The commitments of a template.**  The expiry commitment is due in the next block, and the
generator reads the expiry index of the node.  Then in every block that a miner makes of a template
by any number of extra nonces, the coinbase has exactly one expiry commitment, it is read as the
root of the state before the block, the index accepts it, and the witness commitment, if there is
one, is found and accepted. -/
theorem template_commitments {idx : Index} {db : ExpiryIndex.Buckets}
    (hparams : ExpiryIndex.getExpiryParams g.consensus.params = some idx.expiryParams)
    (hsource : g.expiryState = some (idx.getAccumulatorSnapshot db))
    (hdue : g.expiryCommitmentDue = true) (h : g.newBlockTemplate payToAddress = .ok t) :
    ∃ root, idx.getAccumulatorDigest db = .ok root ∧
      ∀ block, Updates t.block block → ∃ coinbaseTx txs, block.transactions = coinbaseTx :: txs ∧
        countExpiryCommitments coinbaseTx = 1 ∧
        extractExpiryCommitment coinbaseTx = some (expiryCommitmentVersion, root.val) ∧
        idx.isCommitmentActive block.height = true ∧
        idx.validateExpiryCommitment block root = .ok () ∧
        extractWitnessCommitment coinbaseTx = t.witnessCommitment ∧
        (t.witnessCommitment.isSome = true → validateWitnessCommitment block = .ok ()) := by
  obtain ⟨⟨a⟩, -⟩ := newBlockTemplate_ok h
  obtain ⟨root, payout, witness, hroot, hpayout, hshape, hwitness⟩ := shape_template a hdue
  refine ⟨root, getAccumulatorDigest_of_expiryRoot hsource hroot, fun block hup => ?_⟩
  obtain ⟨coinbaseTx, ti, htxs, hout, hin, hnull, hti⟩ := (hshape.updates hup).coinbase
  have hactive : idx.isCommitmentActive block.height = true := by
    rw [(hshape.updates hup).height]
    exact isCommitmentActive_of_due hparams hdue
  have hcoinbase := Shape.isCoinBaseTx hin hnull
  have hcount := countExpiryCommitments_eq_one hout hpayout
  have hextract := extractExpiryCommitment_eq hout
  have hfound := extractWitnessCommitment_eq hout hcoinbase hpayout fun c hc => (hwitness c hc).1
  refine ⟨coinbaseTx, _, htxs, hcount, hextract, hactive, ?_, hfound, ?_⟩
  · rw [Index.validateExpiryCommitment, hactive, htxs]
    simp [hcount, hextract]
  · intro hsome
    obtain ⟨c, hc⟩ := Option.isSome_iff_exists.1 hsome
    obtain ⟨-, nonce, hnonce, hlen, hcommit⟩ := hwitness c hc
    simp [validateWitnessCommitment, htxs, hin, hfound, hc, hti, hnonce, hlen, ← hcommit coinbaseTx]

end Template

namespace Regtest

/-- A transaction with a witness. -/
def witnessPayment : MsgTx where
  version := 1
  txIn := [{ previousOutPoint := coin, witness := [[1]] }]
  txOut := [⟨900, [op1]⟩]

/-- The node with that transaction in its pool, after the soft forks. -/
def segwit : Generator :=
  { generator 4000 [⟨witnessPayment, 100, 1600⟩] with
    consensus := { BlockChain.Regtest.consensus with
      engine := engine
      deploymentActive := fun _ _ => .ok true } }

end Regtest

open Regtest in
/-- The general statement at a template with both commitments. -/
theorem template_commitments_segwit :
    ∃ t, segwit.newBlockTemplate none = .ok t ∧ ∃ root, ∀ block, Updates t.block block →
      BlockChain.Regtest.chain.expiryIndex.validateExpiryCommitment block root = .ok () ∧
        validateWitnessCommitment block = .ok () := by
  have hresult : (segwit.newBlockTemplate none).toOption.map
      (fun t => t.witnessCommitment.isSome) = some true := by
    decide +kernel
  cases ht : segwit.newBlockTemplate none with
  | error e => rw [ht] at hresult; cases hresult
  | ok t =>
    rw [ht] at hresult
    have hsome : t.witnessCommitment.isSome = true := Option.some.inj hresult
    have hsource : segwit.expiryState =
        some (BlockChain.Regtest.chain.expiryIndex.getAccumulatorSnapshot
          (BlockChain.Regtest.emptyAt BlockChain.Regtest.parent)) := rfl
    obtain ⟨root, -, hall⟩ :=
      template_commitments (by decide +kernel) hsource (by decide +kernel) ht
    refine ⟨t, rfl, root, fun block hup => ?_⟩
    obtain ⟨coinbaseTx, txs, -, -, -, -, hexpiry, -, hwitness⟩ := hall block hup
    exact ⟨hexpiry, hwitness hsome⟩

end Mining

end Obtcd
