import Obtcd.Blockchain.Chain

/-!
# What checking changes

The functions that check a block before it is connected, alone or as part of a reorganization, run on
the live chain state.  They load entries into the UTXO cache, mark nodes of the block tree and write
the marks to the database, and that is all: `Frame s s'` says that a state differs in nothing else,
and every one of them keeps it, however it ends.

Loaded entries change no answer of the cache, so validation reads the same in both states
(`Frame.lookup`).
-/

namespace Obtcd.BlockChain

/-- `s'` is `s` with entries loaded into the cache and nodes marked. -/
structure Frame (s s' : BlockChain) : Prop where
  db : s'.db = { s.db with nodeStatus := s'.db.nodeStatus }
  entries : ∀ op, s'.fetchEntry op = s.fetchEntry op
  wf : s.utxoCache.WF s.db.utxoSet → s'.utxoCache.WF s'.db.utxoSet
  lastFlushHash : s'.utxoCache.lastFlushHash = s.utxoCache.lastFlushHash
  bestChain : s'.bestChain = s.bestChain
  index : s'.index = s.index
  expiryIndex : s'.expiryIndex = s.expiryIndex

instance : Std.Refl Frame := ⟨fun _ => ⟨rfl, fun _ => rfl, id, rfl, rfl, rfl, rfl⟩⟩

instance : IsTrans BlockChain Frame where
  trans _ _ _ hab hbc :=
    ⟨by rw [hbc.db, hab.db], fun op => (hbc.entries op).trans (hab.entries op), hbc.wf ∘ hab.wf,
      hbc.lastFlushHash.trans hab.lastFlushHash, hbc.bestChain.trans hab.bestChain,
      hbc.index.trans hab.index, hbc.expiryIndex.trans hab.expiryIndex⟩

namespace Frame

variable {s s' : BlockChain} {cfg : Config}

section

variable (h : Frame s s')
include h

/-- What is on disk has not changed. -/
theorem utxoSet : s'.db.utxoSet = s.db.utxoSet := by rw [h.db]

theorem expiry : s'.db.expiry = s.db.expiry := by rw [h.db]

theorem blocks : s'.db.blocks = s.db.blocks := by rw [h.db]

/-- Every outpoint has the same unspent output, or none. -/
theorem lookup (op : OutPoint) : s'.lookup op = s.lookup op := by
  have he := h.entries op
  unfold BlockChain.fetchEntry at he
  rw [BlockChain.lookup, BlockChain.lookup, UtxoCache.lookup, UtxoCache.lookup, he]

/-- Cache and database stand for the same set. -/
theorem represents {u : Utxos} (hrep : s.utxoCache.Represents s.db.utxoSet u) :
    s'.utxoCache.Represents s'.db.utxoSet u := fun op => (h.lookup op).trans (hrep op)

/-- The expiry index answers the same. -/
theorem prefixSource_eq : s'.prefixSource cfg = s.prefixSource cfg := by
  rw [prefixSource, prefixSource, h.expiry, h.expiryIndex]

theorem deletedHashes_eq : s'.deletedHashes cfg = s.deletedHashes cfg := by
  rw [deletedHashes, deletedHashes, h.blocks]

/-- Pruning would delete the same blocks, and flush the cache or not. -/
theorem pruneFlushes_eq : s'.pruneFlushes cfg = s.pruneFlushes cfg := by
  rw [pruneFlushes, pruneFlushes, h.deletedHashes_eq, flushNeededAfterPrune, flushNeededAfterPrune,
    h.index, h.lastFlushHash]

end

end Frame

/-! ## Functions that only read -/

open Prog (Keeps)

section

variable {R : BlockChain → BlockChain → Prop} [Std.Refl R]

/-- Reading a block keeps whatever a state has in common with itself. -/
theorem keeps_dbFetchBlockByNode [IsTrans BlockChain R] (n : BlockNode) :
    Keeps R (dbFetchBlockByNode n) := by
  refine .bind .get fun s => ?_
  split
  · exact .throw _
  · exact .pure _

theorem keeps_dbFetchSpendJournalEntry [IsTrans BlockChain R] (block : Block) :
    Keeps R (dbFetchSpendJournalEntry block) := by
  refine .bind (.ofExcept _) fun n => .bind .get fun s => ?_
  split
  · exact .bind (.require _ _) fun _ => .pure _
  · exact .pure _

end

/-! ## One lemma for each function -/

/-- Loading entries changes no answer. -/
theorem keeps_fetchEntries (ops : List OutPoint) : Keeps Frame (fetchEntries ops) :=
  .modify fun _ =>
    ⟨rfl, fun op => UtxoCache.fetchEntry_fetchEntries ops op, fun h => h.fetchEntries ops,
      UtxoCache.lastFlushHash_fetchEntries ops, rfl, rfl, rfl⟩

/-- A mark is in memory until it is written. -/
theorem keeps_setStatusFlags (hash : Hash) (flags : BlockStatus) :
    Keeps Frame (setStatusFlags hash flags) :=
  .modify fun _ => ⟨rfl, fun _ => rfl, id, rfl, rfl, rfl, rfl⟩

/-- The marks are written to the database, and nothing else. -/
theorem keeps_flushToDB : Keeps Frame flushToDB :=
  .modify fun _ => ⟨rfl, fun _ => rfl, id, rfl, rfl, rfl, rfl⟩

variable (cfg : Config) (node : BlockNode)

/-- The checks themselves work on a view. -/
theorem keeps_checkConnectBlock (block : Block) (v : UtxoViewpoint) :
    Keeps Frame (checkConnectBlock cfg node block v) :=
  .bind .get fun _ => .bind (keeps_fetchEntries _) fun _ => .ofExcept _

theorem keeps_markFailed (e : GoError) : Keeps Frame (markFailed node e) := by
  unfold markFailed
  split
  · exact keeps_setStatusFlags _ _
  · exact .pure _

/-- The mark of a block that failed is written at once. -/
theorem keeps_failTip (e : GoError) : Keeps Frame (failTip node e) := by
  unfold failTip
  split
  · exact .bind (keeps_setStatusFlags _ _) fun _ => keeps_flushToDB
  · exact .pure _

/-- A block on top of the tip is checked and marked, as valid or not. -/
theorem keeps_validateTip (block : Block) (skip : Bool) :
    Keeps Frame (validateTip cfg node block skip) := by
  unfold validateTip
  split
  · exact .pure _
  · exact .bind (.onError (keeps_checkConnectBlock cfg node block _) (keeps_failTip node)) fun _ =>
      .bind (keeps_setStatusFlags _ _) fun _ => keeps_flushToDB

end Obtcd.BlockChain
