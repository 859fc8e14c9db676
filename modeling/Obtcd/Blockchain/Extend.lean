import Obtcd.Blockchain.Frame

/-!
# A block that does not become the tip

`connectBestChain` checks a block that extends the best chain, connects its transactions to the UTXO
cache and only then opens the database transaction in which the expiry index can still reject it.
The transaction is taken back when that happens, and the cache is not: cache and database together
then show the outputs of a block that is not on the chain, or, if pruning had the cache flushed in
the same transaction, they have lost everything since the last flush.

`extension_unchanged_iff` says exactly when a rejected block leaves the state as it was.
-/

namespace Obtcd

open Prog UtxoCache

namespace BlockChain

/-- Cache and database together show the same outputs, the best chain has the same tip, and nothing
has changed in the bucket of the index tips and in those of the expiry index. -/
structure Unchanged (s s' : BlockChain) : Prop where
  lookup : ∀ op, s'.lookup op = s.lookup op
  tip : s'.bestChain.tip = s.bestChain.tip
  indexerTip : s'.db.indexerTip = s.db.indexerTip
  expiry : s'.db.expiry = s.db.expiry

theorem Frame.unchanged {s s' : BlockChain} (h : Frame s s') : Unchanged s s' :=
  ⟨h.lookup, by rw [h.bestChain], by rw [h.db], h.expiry⟩

variable {cfg : Config} {s s' : BlockChain} {node : BlockNode} {block : Block} {e : GoError}

/-! ## Connecting a block -/

theorem countSpentOutputs_error (h : UtxoViewpoint.countSpentOutputs block = .error e) :
    e.isRule = false := by
  rcases bind_eq_error.1 h with hempty | ⟨txs, -, h⟩
  · rw [Block.afterFirst] at hempty
    split at hempty
    · rw [← Except.error.inj hempty]
      rfl
    · cases hempty
  · cases h

theorem connectTransactions_error (h : exec (connectTransactions block) s = (.error e, s')) :
    e.isRule = false :=
  Prog.Raises.bind (.ofExcept fun _ => countSpentOutputs_error) (fun _ => .bind .get fun _ =>
    .focus (raises_connectAll block.height block.transactions)) s e s' h

variable {stxos : List SpentTxOut}

/-- The cache after the transactions of a block have been connected. -/
theorem connectTransactions_ok (h : exec (connectTransactions block) s = (.ok stxos, s')) :
    ∃ cache, exec (connectAll s.db.utxoSet block.height block.transactions) s.utxoCache =
        (.ok stxos, cache) ∧ s' = { s with utxoCache := cache } := by
  obtain ⟨n, -, h⟩ := exec_ofExcept_bind_eq_ok.1 h
  rw [exec_get_bind] at h
  obtain ⟨hres, rfl⟩ := Prod.mk.inj h
  exact ⟨_, Prod.ext hres rfl, rfl⟩

theorem exec_dbFetchIndexerTip (s : BlockChain) : (exec dbFetchIndexerTip s).2 = s := by
  rw [dbFetchIndexerTip, exec_get_bind]
  split <;> rfl

theorem indexConnectBlock_error (h : exec (indexConnectBlock cfg block) s = (.error e, s')) :
    s' = s := by
  have htip := exec_dbFetchIndexerTip s
  rw [indexConnectBlock] at h
  split at h
  · rcases exec_bind_eq_error.1 h with hrun | ⟨tip, s₁, hrun, hrest⟩
    · rw [hrun] at htip
      exact htip
    rw [hrun] at htip
    obtain rfl : s₁ = s := htip
    rcases exec_require_bind_eq_error.1 hrest with ⟨-, -, hs⟩ | ⟨-, hrest⟩
    · exact hs.symm
    rw [exec_get_bind] at hrest
    rcases exec_ofExcept_bind_eq_error.1 hrest with ⟨-, hs⟩ | ⟨r, -, hset⟩
    · exact hs.symm
    · cases hset
  · cases h

theorem connectBlockTx_error (h : exec (connectBlockTx cfg node block stxos) s = (.error e, s')) :
    { s' with db := s.db } = { s with
      utxoCache := if s.pruneFlushes cfg then flushed node.hash else s.utxoCache } := by
  rw [connectBlockTx, prune, exec_modify_bind, modifyDb, exec_modify_bind] at h
  rw [indexConnectBlock_error h]
  split <;> rfl

/-- A block that breaks a rule when it is connected leaves the cache as the transaction left it:
flushed, if pruning asked for that, and otherwise untouched. -/
theorem connectBlock_rule_error (hrule : e.isRule = true)
    (h : exec (connectBlock cfg node block stxos) s = (.error e, s')) :
    s' = { s with
      db := { s.db with nodeStatus := s.nodeStatus }
      utxoCache := if s.pruneFlushes cfg then flushed node.hash else s.utxoCache } := by
  rw [connectBlock, exec_get_bind] at h
  rcases exec_require_bind_eq_error.1 h with ⟨-, rfl, -⟩ | ⟨-, h⟩
  · cases hrule
  rcases exec_ofExcept_bind_eq_error.1 h with ⟨hcount, -⟩ | ⟨n, -, h⟩
  · rw [countSpentOutputs_error hcount] at hrule
    cases hrule
  rcases exec_require_bind_eq_error.1 h with ⟨-, rfl, -⟩ | ⟨-, h⟩
  · cases hrule
  rw [flushToDB, exec_modify_bind] at h
  rcases exec_bind_eq_error.1 h with htx | ⟨⟨⟩, s₂, -, h⟩
  · obtain ⟨s₁, hrun, rfl⟩ := exec_transaction_eq_error.1 htx
    exact connectBlockTx_error hrun
  · -- neither the new tip nor the flush that follows can fail
    rw [setTip, exec_modify_bind] at h
    obtain ⟨s₁, hflush, -⟩ := exec_transaction_eq_error.1 h
    cases hflush

/-! ## The checks before it -/

theorem exec_checkConnectBlock (v : UtxoViewpoint) :
    (exec (checkConnectBlock cfg node block v) s).1 =
      Obtcd.checkConnectBlock cfg.consensus (s.reads cfg) node block v := by
  rw [checkConnectBlock, exec_get_bind, fetchEntries, exec_modify_bind]
  rfl

theorem exec_checkPrefix : exec (checkPrefix cfg node block) s =
    (checkReapGlobalPrefix block node.height (s.prefixSource cfg) cfg.consensus.params, s) := by
  rw [checkPrefix, exec_get_bind]
  rfl

/-- A block that passes `validateTip` passes `checkConnectBlock`, unless that was skipped. -/
theorem validateTip_ok {skip : Bool} {a : Unit}
    (h : exec (validateTip cfg node block skip) s = (.ok a, s')) (hskip : skip = false) :
    (Obtcd.checkConnectBlock cfg.consensus (s.reads cfg) node block
      (viewAt block.header.prevBlock)).isOk = true := by
  rw [validateTip, if_neg (by simp [hskip])] at h
  obtain ⟨r, s₁, hcheck, -⟩ := exec_bind_eq_ok.1 h
  rw [← exec_checkConnectBlock, exec_onError_eq_ok.1 hcheck]
  rfl

/-- A block that does not pass `validateTip` does not pass `checkConnectBlock`. -/
theorem validateTip_error {skip : Bool}
    (h : exec (validateTip cfg node block skip) s = (.error e, s')) :
    skip = false ∧ (Obtcd.checkConnectBlock cfg.consensus (s.reads cfg) node block
      (viewAt block.header.prevBlock)).isOk = false := by
  rw [validateTip] at h
  split at h
  · cases h
  rename_i hskip
  refine ⟨by simpa using hskip, ?_⟩
  rcases exec_bind_eq_error.1 h with hcheck | ⟨r, s₁, -, hrest⟩
  · obtain ⟨s₁, hrun, -⟩ := exec_onError_eq_error.1 hcheck
    rw [← exec_checkConnectBlock, hrun]
    rfl
  · rw [setStatusFlags, exec_modify_bind] at hrest
    cases hrest

/-! ## When a rejected block leaves the state as it was -/

/-- The block is rejected before anything is changed: by `checkConnectBlock`, unless that is skipped,
or by the prefix rule. -/
def RejectedFirst (cfg : Config) (s : BlockChain) (node : BlockNode) (block : Block)
    (fastAdd : Bool) : Prop :=
  (fastAdd || (s.status node.hash).knownValid) = false ∧
      (Obtcd.checkConnectBlock cfg.consensus (s.reads cfg) node block
        (viewAt block.header.prevBlock)).isOk = false ∨
    (checkReapGlobalPrefix block node.height (s.prefixSource cfg) cfg.consensus.params).isOk = false

/-- What cache and database show of the set `u` once the expiry index has rejected the block: what
was flushed last, if pruning flushed the cache, and otherwise the set with the block applied. -/
def leftBehind (cfg : Config) (s : BlockChain) (block : Block) (u : Utxos) : Utxos :=
  if s.pruneFlushes cfg then s.db.utxoSet else Ledger.overwrite block.height u block.transactions

/-- A rejected block was rejected first, and then only checked, or it has been left behind. -/
theorem extendBestChain_rule_error {fastAdd : Bool} {u : Utxos}
    (hwf : s.utxoCache.WF s.db.utxoSet) (hrep : s.utxoCache.Represents s.db.utxoSet u)
    (hnew : ¬ RejectedFirst cfg s node block fastAdd → NewIn s.db.utxoSet block.transactions)
    (hrule : e.isRule = true)
    (h : exec (extendBestChain cfg node block fastAdd) s = (.error e, s')) :
    RejectedFirst cfg s node block fastAdd ∧ Frame s s' ∨
      ¬ RejectedFirst cfg s node block fastAdd ∧ s'.bestChain = s.bestChain ∧
        s'.db = { s.db with nodeStatus := s'.db.nodeStatus } ∧
        s'.utxoCache.Represents s'.db.utxoSet (leftBehind cfg s block u) := by
  rw [extendBestChain, exec_get_bind] at h
  -- `checkConnectBlock`, unless it is skipped
  have hkeep := keeps_validateTip cfg node block (fastAdd || (s.status node.hash).knownValid) s
  rcases exec_bind_eq_error.1 h with hval | ⟨⟨⟩, s₁, hval, h⟩
  · rw [hval] at hkeep
    exact .inl ⟨.inl (validateTip_error hval), hkeep⟩
  rw [hval] at hkeep
  have hframe : Frame s s₁ := hkeep
  -- the prefix rule
  rcases exec_bind_eq_error.1 h with hpre | ⟨⟨⟩, s₂, hpre, h⟩
  · obtain ⟨s₂, hrun, hhandler⟩ := exec_onError_eq_error.1 hpre
    rw [exec_checkPrefix, hframe.prefixSource_eq] at hrun
    obtain ⟨hcheck, rfl⟩ := Prod.mk.inj hrun
    refine .inl ⟨.inr (by rw [hcheck]; rfl), IsTrans.trans _ _ _ hframe ?_⟩
    rw [← hhandler]
    exact keeps_failTip node e s₁
  have hpre' := exec_onError_eq_ok.1 hpre
  rw [exec_checkPrefix, hframe.prefixSource_eq] at hpre'
  obtain ⟨hcheck, rfl⟩ := Prod.mk.inj hpre'
  have hlate : ¬ RejectedFirst cfg s node block fastAdd := by
    rintro (⟨hfast, hbad⟩ | hbad)
    · rw [validateTip_ok hval hfast] at hbad
      cases hbad
    · rw [hcheck] at hbad
      cases hbad
  -- the cache
  rcases exec_bind_eq_error.1 h with hcon | ⟨stxos, s₂, hcon, h⟩
  · rw [connectTransactions_error hcon] at hrule
    cases hrule
  obtain ⟨cache, hall, rfl⟩ := connectTransactions_ok hcon
  have hflush := (keeps_connectAll block.height block.transactions :
    Prog.Keeps _ (connectAll s₁.db.utxoSet block.height block.transactions)) s₁.utxoCache
  rw [hall] at hflush
  rw [hframe.utxoSet] at hall
  obtain ⟨-, hrep'⟩ := connectAll_ok (by simpa [hframe.utxoSet] using hframe.wf hwf)
    (by simpa [hframe.utxoSet] using hframe.represents hrep) (hnew hlate) hall
  have hprune : ({ s₁ with utxoCache := cache } : BlockChain).pruneFlushes cfg =
      s.pruneFlushes cfg := by
    rw [← hframe.pruneFlushes_eq, pruneFlushes, pruneFlushes, flushNeededAfterPrune,
      flushNeededAfterPrune]
    rw [show cache.lastFlushHash = s₁.utxoCache.lastFlushHash from hflush]
    rfl
  -- the transaction
  rcases exec_bind_eq_error.1 h with hblk | ⟨⟨⟩, s₃, -, hmark⟩
  · obtain ⟨s₃, hrun, hhandler⟩ := exec_onError_eq_error.1 hblk
    have hs₃ := connectBlock_rule_error hrule hrun
    have hfinal : Frame s₃ s' := by
      rw [← hhandler]
      exact Prog.Keeps.bind (keeps_markFailed node e) (fun _ => keeps_flushToDB) s₃
    refine .inr ⟨hlate, ?_, ?_, hfinal.represents ?_⟩
    · rw [hfinal.bestChain, hs₃]
      exact hframe.bestChain
    · rw [hfinal.db, hs₃]
      dsimp only
      rw [hframe.db]
    · rw [hs₃, leftBehind, ← hprune]
      rw [hframe.utxoSet]
      split
      · exact represents_flushed _ _
      · exact hrep'
  · rw [markConnected, exec_get_bind] at hmark
    split at hmark
    · rw [setStatusFlags, exec_modify_bind] at hmark
      cases hmark
    · cases hmark

/-- **When a failed extension leaves the chain state unchanged.**  The cache is consistent and
represents the set `u`, and a block that gets to the cache has no output that is in the database.  If
`connectBestChain` returns a rule error for a block on top of the best tip, then cache and database
show the same outputs as before, with the same tip and the same index, exactly if the block was
rejected before it got to the cache, or if what it leaves behind is the set itself. -/
theorem extension_unchanged_iff {ancestors : List BlockNode} {fastAdd : Bool} {u : Utxos}
    (htip : block.header.prevBlock = s.bestChain.tip.hash) (hwf : s.utxoCache.WF s.db.utxoSet)
    (hrep : s.utxoCache.Represents s.db.utxoSet u)
    (hnew : ¬ RejectedFirst cfg s node block fastAdd → NewIn s.db.utxoSet block.transactions)
    (hrun : exec (connectBestChain cfg node ancestors block fastAdd) s = (.error e, s'))
    (hrule : e.isRule = true) :
    Unchanged s s' ↔ RejectedFirst cfg s node block fastAdd ∨ leftBehind cfg s block u = u := by
  rw [connectBestChain, Prog.exec_get_bind, if_pos htip] at hrun
  rcases Prog.exec_bind_eq_error.1 hrun with hext | ⟨⟨⟩, s₁, -, hpure⟩
  · rcases extendBestChain_rule_error hwf hrep hnew hrule hext with
      ⟨hfirst, hframe⟩ | ⟨hlate, hbest, hdb, hleft⟩
    · exact ⟨fun _ => .inl hfirst, fun _ => hframe.unchanged⟩
    · constructor
      · intro hun
        refine .inr (OrdMap.ext' fun op => ?_)
        rw [← hleft op, ← hrep op]
        exact hun.lookup op
      · rintro (hfirst | heq)
        · exact absurd hfirst hlate
        · refine ⟨fun op => ?_, by rw [hbest], by rw [hdb], by rw [hdb]⟩
          rw [heq] at hleft
          exact (hleft op).trans (hrep op).symm
  · cases hpure

/-! ## A rejected block on regtest -/

namespace Regtest

/-- Regtest, without soft forks. -/
def consensus : Consensus where
  params := Chaincfg.obtcRegTestParams
  engine := ScriptEngine.failing
  latestCheckpoint := none
  deploymentActive _ _ := .ok false
  pastMedianTime _ := 0
  ancestorMedianTime _ _ := 0

/-- A node with the expiry index that does not prune. -/
def config : Config where
  consensus := consensus
  workSum _ := 0
  indexManager := true
  reapPrefixSource := true
  pruneBlocks := none
  cacheFull _ := false

/-- A block with nothing but a coinbase, which pays one satoshi to a script. -/
def coinbaseBlock (prevBlock : Hash) (height : Int32) (pkScript : Bytes) : Block where
  header := ⟨1, prevBlock, Hash.zero, 1700000000, 0, 0⟩
  transactions := [{
    version := 1
    txIn := [{ previousOutPoint := ⟨Hash.zero, OutPoint.maxIndex⟩, signatureScript := [1, 1] }]
    txOut := [⟨1, pkScript⟩]
    lockTime := height.toUInt32 }]
  height := height

/-- The block at height 109.  All coinbases up to here have burned their reward, so that nothing is
unspent and the index is empty. -/
def parent : Block := coinbaseBlock Hash.zero 109 [Txscript.opReturn]

/-- An empty index at a block. -/
def emptyAt (block : Block) : ExpiryIndex.Buckets :=
  ExpiryIndex.dbPutTipHeightIndexed
    (ExpiryIndex.dbPutAccumulatorTipHash ExpiryIndex.createIndex block.hash) block.height

/-- A node whose best tip is `parent`. -/
def chain : BlockChain where
  db :=
    { utxoSet := ∅
      utxoStateConsistency := some parent.hash
      bestState := parent.hash
      spendJournal := ∅
      blocks := (∅ : OrdMap Hash Block).insert parent.hash parent
      nodeStatus := ∅
      indexerTip := some (parent.hash, 109)
      expiry := emptyAt parent }
  utxoCache := flushed parent.hash
  bestChain := ⟨BlockNode.ofBlock parent, []⟩
  index := (∅ : OrdMap Hash BlockNode).insert parent.hash (BlockNode.ofBlock parent)
  nodeStatus := ∅
  expiryIndex := ⟨⟨144, 1000, 0, 110, 110⟩, 109, false⟩

/-- A block on top, at the first height at which commitments are required, without one. -/
def uncommitted : Block := coinbaseBlock parent.hash 110 [0x51]

/-- What `connectBestChain` makes of it. -/
abbrev rejection : Except GoError Bool × BlockChain :=
  exec (connectBestChain config (BlockNode.ofBlock uncommitted) [BlockNode.ofBlock parent]
    uncommitted false) chain

/-- The output that the block would create. -/
def ghost : OutPoint := ⟨(uncommitted.transactions.map MsgTx.txHash).headD Hash.zero, 0⟩

theorem rejection_fst : rejection.1 = .error (.rule .errBadExpiryCommitmentMissing
    "block 110 missing required expiry commitment") := by
  decide +kernel

end Regtest

open Regtest in
/-- **A rejected block stays in the cache.**  The state is consistent: the cache is empty, nothing is
unspent, and the index stands at the tip.  The block is rejected for the commitment it lacks, and
afterwards the output it would have created can be spent. -/
theorem rejected_block_stays :
    uncommitted.header.prevBlock = chain.bestChain.tip.hash ∧
      chain.utxoCache.WF chain.db.utxoSet ∧ chain.utxoCache.Represents chain.db.utxoSet ∅ ∧
      rejection.1 = .error (.rule .errBadExpiryCommitmentMissing
        "block 110 missing required expiry commitment") ∧
      rejection.2.bestChain.tip = chain.bestChain.tip ∧ chain.lookup ghost = none ∧
      rejection.2.lookup ghost = some ⟨1, [0x51], 110, true⟩ :=
  ⟨rfl, wf_flushed _, represents_flushed _ _, rejection_fst, by decide +kernel,
    by decide +kernel, by decide +kernel⟩

open Regtest in
/-- The general statement at that block. -/
theorem extension_unchanged_iff_uncommitted :
    Unchanged chain rejection.2 ↔
      RejectedFirst config chain (BlockNode.ofBlock uncommitted) uncommitted false ∨
        leftBehind config chain uncommitted ∅ = ∅ := by
  have htip : uncommitted.header.prevBlock = chain.bestChain.tip.hash := rfl
  have hnew : NewIn chain.db.utxoSet uncommitted.transactions :=
    fun _ _ _ _ => Std.ExtTreeMap.getElem?_empty
  exact extension_unchanged_iff htip (wf_flushed _) (represents_flushed _ _)
    (fun _ => hnew) (Prog.exec_eq_of_fst rejection_fst) rfl

end BlockChain

end Obtcd
