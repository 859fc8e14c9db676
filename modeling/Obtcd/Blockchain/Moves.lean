import Obtcd.Blockchain.Process

/-!
# How the tip moves

`connectBlock` and `disconnectBlock`, seen from the block index: they move the tip by one block if
they succeed, and leave it where it is if they fail.  `Still` says that neither the nodes nor their
marks nor the best chain have changed, and every other function they call keeps it.
-/

namespace Obtcd.BlockChain

open Prog (Keeps exec exec_bind_eq_ok exec_bind_eq_error exec_modify_bind exec_get_bind
  exec_require_bind_eq_ok exec_require_bind_eq_error)

/-- Neither the nodes nor their marks nor the best chain have changed. -/
structure Still (s s' : BlockChain) : Prop where
  index : s'.index = s.index
  nodeStatus : s'.nodeStatus = s.nodeStatus
  bestChain : s'.bestChain = s.bestChain

instance : Std.Refl Still := ⟨fun _ => ⟨rfl, rfl, rfl⟩⟩

instance : IsTrans BlockChain Still where
  trans _ _ _ hab hbc :=
    ⟨hbc.index.trans hab.index, hbc.nodeStatus.trans hab.nodeStatus,
      hbc.bestChain.trans hab.bestChain⟩

/-! ## Functions that are still -/

/-- A transaction that fails puts the database back, which has no part in it. -/
theorem still_dbUpdate {α : Type} {x : ChainM α} (hx : Keeps Still x) : Keeps Still (dbUpdate x) := by
  intro s
  have h := hx s
  rcases hrun : exec x s with ⟨r, s₁⟩
  rw [hrun] at h
  cases r with
  | ok a =>
    rwa [dbUpdate, Prog.exec_transaction_eq_ok.2 hrun]
  | error e =>
    rw [dbUpdate, Prog.exec_transaction_eq_error.2 ⟨s₁, hrun, rfl⟩]
    exact ⟨h.index, h.nodeStatus, h.bestChain⟩

/-- The nodes are in memory. -/
theorem still_modifyDb (f : ChainDb → ChainDb) : Keeps Still (modifyDb f) :=
  .modify fun _ => ⟨rfl, rfl, rfl⟩

theorem still_flushToDB : Keeps Still flushToDB := .modify fun _ => ⟨rfl, rfl, rfl⟩

theorem still_dbFetchIndexerTip : Keeps Still dbFetchIndexerTip := by
  refine .bind .get fun s => ?_
  split
  · exact .throw _
  · exact .pure _

/-- The index manager changes the expiry index and its tip. -/
theorem still_updateIndex {α : Type} (update : BlockChain → Except GoError α)
    (put : BlockChain → α → BlockChain) (hput : ∀ s a, Still s (put s a)) :
    Keeps Still (do
      let s ← get
      let r ← Prog.ofExcept (update s)
      set (put s r) : ChainM Unit) := by
  intro s
  rw [exec_get_bind, Prog.exec_bind, Prog.exec_ofExcept]
  cases update s with
  | ok a => exact hput s a
  | error e => exact Std.Refl.refl s

variable (cfg : Config)

/-- Without an index manager there is nothing to do. -/
theorem still_indexConnectBlock (block : Block) : Keeps Still (indexConnectBlock cfg block) := by
  rw [indexConnectBlock]
  split
  · exact .bind still_dbFetchIndexerTip fun _ => .bind (.require _ _) fun _ =>
      still_updateIndex (fun s => s.expiryIndex.connectBlock s.db.expiry block) _
        fun _ _ => ⟨rfl, rfl, rfl⟩
  · exact .pure _

theorem still_indexDisconnectBlock (block : Block) (stxos : List SpentTxOut) :
    Keeps Still (indexDisconnectBlock cfg block stxos) := by
  rw [indexDisconnectBlock]
  split
  · exact .bind still_dbFetchIndexerTip fun _ => .bind (.require _ _) fun _ =>
      still_updateIndex (fun s => s.expiryIndex.disconnectBlock s.db.expiry block stxos) _
        fun _ _ => ⟨rfl, rfl, rfl⟩
  · exact .pure _

/-- A flush, if there is one, writes the cache. -/
theorem still_flush (mode : FlushMode) (bestHash : Hash) : Keeps Still (flush cfg mode bestHash) := by
  refine .modify fun s => ?_
  split
  · exact ⟨rfl, rfl, rfl⟩
  · exact Std.Refl.refl s

theorem still_prune (bestHash : Hash) : Keeps Still (prune cfg bestHash) := by
  refine .modify fun s => ?_
  split <;> exact ⟨rfl, rfl, rfl⟩

/-- The database transaction of `connectBlock`. -/
theorem still_connectBlockTx (node : BlockNode) (block : Block) (stxos : List SpentTxOut) :
    Keeps Still (connectBlockTx cfg node block stxos) :=
  .bind (still_prune cfg _) fun _ => .bind (still_modifyDb _) fun _ =>
    still_indexConnectBlock cfg block

/-- The database transaction of `disconnectBlock`. -/
theorem still_disconnectBlockTx (prevNode : BlockNode) (block : Block) (v : UtxoViewpoint) :
    Keeps Still (disconnectBlockTx cfg prevNode block v) :=
  .bind (still_modifyDb _) fun _ => .bind (still_flush cfg _ _) fun _ =>
    .bind (still_modifyDb _) fun _ => .bind (keeps_dbFetchSpendJournalEntry block) fun _ =>
    .bind (still_modifyDb _) fun _ => still_indexDisconnectBlock cfg block _

variable {cfg} {s s' : BlockChain} {n : BlockNode} {block : Block} {e : GoError}

/-- The same about a run that is given. -/
theorem still_of_exec {α : Type} {x : ChainM α} {r : Except GoError α} (hx : Keeps Still x)
    (h : exec x s = (r, s')) : Still s s' := by
  have := hx s
  rwa [h] at this

/-! ## One block -/

/-- A block that is connected is on top of the old tip, and is the new one. -/
theorem connectBlock_ok {stxos : List SpentTxOut} {a : Unit}
    (h : exec (connectBlock cfg n block stxos) s = (.ok a, s')) :
    block.header.prevBlock = s.bestChain.tip.hash ∧
      Still { s with bestChain := ⟨n, s.bestChain.nodes⟩ } s' := by
  rw [connectBlock, exec_get_bind] at h
  obtain ⟨hprev, h⟩ := exec_require_bind_eq_ok.1 h
  obtain ⟨count, -, h⟩ := Prog.exec_ofExcept_bind_eq_ok.1 h
  obtain ⟨-, h⟩ := exec_require_bind_eq_ok.1 h
  obtain ⟨⟨⟩, s₁, h₁, h⟩ := exec_bind_eq_ok.1 h
  obtain ⟨⟨⟩, s₂, h₂, h⟩ := exec_bind_eq_ok.1 h
  rw [setTip, exec_modify_bind] at h
  have hs₁ := still_of_exec still_flushToDB h₁
  have hs₂ := still_of_exec (still_dbUpdate (still_connectBlockTx cfg n block stxos)) h₂
  have hs₃ := still_of_exec (still_dbUpdate (still_flush cfg _ _)) h
  refine ⟨hprev, hs₃.index.trans (hs₂.index.trans hs₁.index),
    hs₃.nodeStatus.trans (hs₂.nodeStatus.trans hs₁.nodeStatus), hs₃.bestChain.trans ?_⟩
  rw [hs₂.bestChain, hs₁.bestChain]

/-- Whatever fails, it fails before the tip is set. -/
theorem connectBlock_error {stxos : List SpentTxOut}
    (h : exec (connectBlock cfg n block stxos) s = (.error e, s')) : Still s s' := by
  rw [connectBlock, exec_get_bind] at h
  rcases exec_require_bind_eq_error.1 h with ⟨-, -, rfl⟩ | ⟨-, h⟩
  · exact Std.Refl.refl s
  rcases Prog.exec_ofExcept_bind_eq_error.1 h with ⟨-, rfl⟩ | ⟨count, -, h⟩
  · exact Std.Refl.refl s
  rcases exec_require_bind_eq_error.1 h with ⟨-, -, rfl⟩ | ⟨-, h⟩
  · exact Std.Refl.refl s
  rcases exec_bind_eq_error.1 h with h | ⟨⟨⟩, s₁, h₁, h⟩
  · exact still_of_exec still_flushToDB h
  rcases exec_bind_eq_error.1 h with h | ⟨⟨⟩, s₂, -, h⟩
  · exact IsTrans.trans _ _ _ (still_of_exec still_flushToDB h₁)
      (still_of_exec (still_dbUpdate (still_connectBlockTx cfg n block stxos)) h)
  · -- setting the tip and flushing do not fail
    rw [setTip, exec_modify_bind] at h
    cases h

/-- The block that is disconnected was the tip, and its parent is the new one. -/
theorem disconnectBlock_ok {v v' : UtxoViewpoint}
    (h : exec (disconnectBlock cfg n block v) s = (.ok v', s')) :
    n.hash = s.bestChain.tip.hash ∧ ∃ p below, s.bestChain.below = p :: below ∧
      Still { s with bestChain := ⟨p, below⟩ } s' := by
  rw [disconnectBlock, exec_get_bind] at h
  obtain ⟨htip, h⟩ := exec_require_bind_eq_ok.1 h
  refine ⟨htip, ?_⟩
  split at h
  · cases h
  rename_i p below hbelow
  obtain ⟨b, s₁, h₁, h⟩ := exec_bind_eq_ok.1 h
  obtain ⟨⟨⟩, s₂, h₂, h⟩ := exec_bind_eq_ok.1 h
  obtain ⟨⟨⟩, s₃, h₃, h⟩ := exec_bind_eq_ok.1 h
  rw [exec_modify_bind] at h
  cases h
  have hs₁ := still_of_exec (keeps_dbFetchBlockByNode p) h₁
  have hs₂ := still_of_exec still_flushToDB h₂
  have hs₃ := still_of_exec (still_dbUpdate (still_disconnectBlockTx cfg p block v)) h₃
  exact ⟨p, below, hbelow, hs₃.index.trans (hs₂.index.trans hs₁.index),
    hs₃.nodeStatus.trans (hs₂.nodeStatus.trans hs₁.nodeStatus), rfl⟩

/-- Without a parent, or if something fails, the tip stays. -/
theorem disconnectBlock_error {v : UtxoViewpoint}
    (h : exec (disconnectBlock cfg n block v) s = (.error e, s')) : Still s s' := by
  rw [disconnectBlock, exec_get_bind] at h
  rcases exec_require_bind_eq_error.1 h with ⟨-, -, rfl⟩ | ⟨-, h⟩
  · exact Std.Refl.refl s
  split at h
  · cases h
    exact Std.Refl.refl s
  rename_i p below hbelow
  rcases exec_bind_eq_error.1 h with h | ⟨b, s₁, h₁, h⟩
  · exact still_of_exec (keeps_dbFetchBlockByNode p) h
  have hs₁ := still_of_exec (keeps_dbFetchBlockByNode p) h₁
  rcases exec_bind_eq_error.1 h with h | ⟨⟨⟩, s₂, h₂, h⟩
  · exact IsTrans.trans _ _ _ hs₁ (still_of_exec still_flushToDB h)
  have hs₂ := IsTrans.trans _ _ _ hs₁ (still_of_exec still_flushToDB h₂)
  rcases exec_bind_eq_error.1 h with h | ⟨⟨⟩, s₃, h₃, h⟩
  · exact IsTrans.trans _ _ _ hs₂
      (still_of_exec (still_dbUpdate (still_disconnectBlockTx cfg p block v)) h)
  · rw [exec_modify_bind] at h
    cases h

end Obtcd.BlockChain
