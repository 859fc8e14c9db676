import Obtcd.Ffldb.Refine

/-!
# The database one step at a time

A commit is a sequence of actions on the disk and on the shared cache, and other goroutines can come
between any two of them.  `Machine` is a database with its write transaction at some
stage of its life, and `Machine.step` does the next single action: delete a file, write a block,
swap in the new cache, or, when a flush is needed, sync the block file, commit the cached edits to
leveldb, clear the cache and commit the transaction's own edits to leveldb.

`Step` lists what an action can do; its cases are the only way into `Machine.step` for the proofs
about interleavings.  `Step.contents_eq` says when the contents change: only the swap of
the cache and the last write to leveldb change them.
-/

namespace Obtcd.Ffldb

open Std OrdMap

variable [Leveldb]

/-- How far the write transaction has got. -/
inductive Stage where
  /-- There is no write transaction. -/
  | idle
  /-- It is open. -/
  | opened (tx : Transaction)
  /-- It is being committed; the files to delete and blocks to write that are left are in it. -/
  | writing (tx : Transaction)
  /-- The cache is being flushed: the block file has been synced. -/
  | synced (pending : Edits Bytes Bytes)
  /-- The cached edits are in leveldb. -/
  | merged (pending : Edits Bytes Bytes)
  /-- The cache is empty; the transaction is not in leveldb yet. -/
  | cleared (pending : Edits Bytes Bytes)

/-- A database and its write transaction. -/
structure Machine where
  db : Db
  stage : Stage

/-- A single action. -/
inductive Action where
  | begin
  | op (o : Op)
  | prune (targetSize : UInt64)
  | rollback
  | commit
  | deleteFile
  | writeBlock
  | cacheTx
  | sync
  | merge
  | clear
  | writeThrough

/-- What is left of a transaction when its blocks are written: its edits and the write cursor. -/
def Machine.finalEdits (db : Db) (tx : Transaction) : Edits Bytes Bytes :=
  putWriteRow db.store tx.pending

namespace Machine

/-- Do an action, if it is the turn of that action. -/
def step (m : Machine) (a : Action) : Option Machine :=
  let db := m.db
  match m.stage, a with
  | .idle, .begin => some ⟨db, .opened (db.begin true)⟩
  | .opened tx, .op o =>
    match tx.apply o with
    | .ok tx => some ⟨db, .opened tx⟩
    | .error _ => some m
  | .opened tx, .prune targetSize =>
    match tx.pruneBlocks db.store targetSize with
    | .ok (_, tx) => some ⟨db, .opened tx⟩
    | .error _ => some m
  | .opened _, .rollback => some ⟨db, .idle⟩
  | .opened tx, .commit => some ⟨db, .writing tx⟩
  | .writing tx, .deleteFile =>
    match tx.pendingDelFileNums with
    | [] => none
    | fileNum :: fileNums =>
      match db.store.deleteFile fileNum with
      | .ok store => some ⟨{ db with store }, .writing { tx with pendingDelFileNums := fileNums }⟩
      | .error _ => some ⟨db, .idle⟩
  | .writing tx, .writeBlock =>
    match tx.pendingDelFileNums, tx.pendingBlockData with
    | [], block :: blocks =>
      let (store, pending) := writePendingBlock db.store tx.pending block
      some ⟨{ db with store }, .writing { tx with pending, pendingBlockData := blocks }⟩
    | _, _ => none
  | .writing tx, .cacheTx =>
    if tx.pendingDelFileNums.isEmpty && tx.pendingBlockData.isEmpty then
      some ⟨{ db with cache := db.cache.cacheTx (finalEdits db tx) }, .idle⟩
    else none
  | .writing tx, .sync =>
    if tx.pendingDelFileNums.isEmpty && tx.pendingBlockData.isEmpty then
      some ⟨db.syncBlocks, .synced (finalEdits db tx)⟩
    else none
  | .synced pending, .merge =>
    if db.cache.cached.isEmpty then some ⟨db, .cleared pending⟩
    else some ⟨{ db with cache := db.cache.commitTreaps db.cache.cached }, .merged pending⟩
  | .merged pending, .clear => some ⟨{ db with cache := db.cache.clear }, .cleared pending⟩
  | .cleared pending, .writeThrough =>
    some ⟨{ db with cache := db.cache.commitTreaps pending }, .idle⟩
  | _, _ => none

end Machine

/-- What an action does, case by case. -/
inductive Step : Machine → Action → Machine → Prop where
  | begin {db : Db} : Step ⟨db, .idle⟩ .begin ⟨db, .opened (db.begin true)⟩
  | op {db : Db} {tx tx' : Transaction} {o : Op} (h : tx.apply o = .ok tx') :
      Step ⟨db, .opened tx⟩ (.op o) ⟨db, .opened tx'⟩
  | opFails {db : Db} {tx : Transaction} {o : Op} : Step ⟨db, .opened tx⟩ (.op o) ⟨db, .opened tx⟩
  | prune {db : Db} {tx tx' : Transaction} {targetSize : UInt64} {hashes : List Hash}
      (h : tx.pruneBlocks db.store targetSize = .ok (hashes, tx')) :
      Step ⟨db, .opened tx⟩ (.prune targetSize) ⟨db, .opened tx'⟩
  | pruneFails {db : Db} {tx : Transaction} {targetSize : UInt64} :
      Step ⟨db, .opened tx⟩ (.prune targetSize) ⟨db, .opened tx⟩
  | rollback {db : Db} {tx : Transaction} : Step ⟨db, .opened tx⟩ .rollback ⟨db, .idle⟩
  | commit {db : Db} {tx : Transaction} : Step ⟨db, .opened tx⟩ .commit ⟨db, .writing tx⟩
  | deleteFile {db : Db} {tx : Transaction} {fileNum : UInt32} {fileNums : List UInt32}
      {store : BlockStore} (hfiles : tx.pendingDelFileNums = fileNum :: fileNums)
      (h : db.store.deleteFile fileNum = .ok store) :
      Step ⟨db, .writing tx⟩ .deleteFile
        ⟨{ db with store }, .writing { tx with pendingDelFileNums := fileNums }⟩
  | deleteFails {db : Db} {tx : Transaction} {fileNum : UInt32} {fileNums : List UInt32}
      {e : DbError} (hfiles : tx.pendingDelFileNums = fileNum :: fileNums)
      (h : db.store.deleteFile fileNum = .error e) :
      Step ⟨db, .writing tx⟩ .deleteFile ⟨db, .idle⟩
  | writeBlock {db : Db} {tx : Transaction} {block : Hash × Bytes} {blocks : List (Hash × Bytes)}
      (hfiles : tx.pendingDelFileNums = []) (hblocks : tx.pendingBlockData = block :: blocks) :
      Step ⟨db, .writing tx⟩ .writeBlock
        ⟨{ db with store := (writePendingBlock db.store tx.pending block).1 },
          .writing { tx with
            pending := (writePendingBlock db.store tx.pending block).2
            pendingBlockData := blocks }⟩
  | cacheTx {db : Db} {tx : Transaction} (hfiles : tx.pendingDelFileNums = [])
      (hblocks : tx.pendingBlockData = []) :
      Step ⟨db, .writing tx⟩ .cacheTx
        ⟨{ db with cache := db.cache.cacheTx (Machine.finalEdits db tx) }, .idle⟩
  | sync {db : Db} {tx : Transaction} (hfiles : tx.pendingDelFileNums = [])
      (hblocks : tx.pendingBlockData = []) :
      Step ⟨db, .writing tx⟩ .sync ⟨db.syncBlocks, .synced (Machine.finalEdits db tx)⟩
  | mergeEmpty {db : Db} {pending : Edits Bytes Bytes} (h : db.cache.cached.isEmpty = true) :
      Step ⟨db, .synced pending⟩ .merge ⟨db, .cleared pending⟩
  | merge {db : Db} {pending : Edits Bytes Bytes} (h : db.cache.cached.isEmpty = false) :
      Step ⟨db, .synced pending⟩ .merge
        ⟨{ db with cache := db.cache.commitTreaps db.cache.cached }, .merged pending⟩
  | clear {db : Db} {pending : Edits Bytes Bytes} :
      Step ⟨db, .merged pending⟩ .clear ⟨{ db with cache := db.cache.clear }, .cleared pending⟩
  | writeThrough {db : Db} {pending : Edits Bytes Bytes} :
      Step ⟨db, .cleared pending⟩ .writeThrough
        ⟨{ db with cache := db.cache.commitTreaps pending }, .idle⟩

theorem Step.of_step {m m' : Machine} {a : Action} (h : m.step a = some m') : Step m a m' := by
  obtain ⟨db, stage⟩ := m
  cases stage with
  | idle =>
    cases a with
    | begin =>
      cases h
      exact .begin
    | _ => cases h
  | opened tx =>
    cases a with
    | op o =>
      simp only [Machine.step] at h
      split at h
      · rename_i hok
        cases h
        exact .op hok
      · cases h
        exact .opFails
    | prune targetSize =>
      simp only [Machine.step] at h
      split at h
      · rename_i hok
        cases h
        exact .prune hok
      · cases h
        exact .pruneFails
    | rollback =>
      cases h
      exact .rollback
    | commit =>
      cases h
      exact .commit
    | _ => cases h
  | writing tx =>
    cases a with
    | deleteFile =>
      simp only [Machine.step] at h
      split at h
      · cases h
      · rename_i hfiles
        split at h
        · rename_i hok
          cases h
          exact .deleteFile hfiles hok
        · rename_i herror
          cases h
          exact .deleteFails hfiles herror
    | writeBlock =>
      simp only [Machine.step] at h
      split at h
      · rename_i hfiles hblocks
        cases h
        exact .writeBlock hfiles hblocks
      · cases h
    | cacheTx =>
      simp only [Machine.step, Bool.and_eq_true, List.isEmpty_iff] at h
      split_ifs at h with hdone
      cases h
      exact .cacheTx hdone.1 hdone.2
    | sync =>
      simp only [Machine.step, Bool.and_eq_true, List.isEmpty_iff] at h
      split_ifs at h with hdone
      cases h
      exact .sync hdone.1 hdone.2
    | _ => cases h
  | synced pending =>
    cases a with
    | merge =>
      simp only [Machine.step] at h
      split_ifs at h with hempty
      · cases h
        exact .mergeEmpty hempty
      · cases h
        exact .merge (by simpa using hempty)
    | _ => cases h
  | merged pending =>
    cases a with
    | clear =>
      cases h
      exact .clear
    | _ => cases h
  | cleared pending =>
    cases a with
    | writeThrough =>
      cases h
      exact .writeThrough
    | _ => cases h

/-! ## When the contents change -/

namespace Machine

/-- What the metadata stands for. -/
def contents (m : Machine) : Contents := m.db.cache.contents

/-- The edits that an action commits. -/
def committed (m : Machine) (a : Action) : Option (Edits Bytes Bytes) :=
  match m.stage, a with
  | .writing tx, .cacheTx => some (finalEdits m.db tx)
  | .cleared pending, .writeThrough => some pending
  | _, _ => none

/-- In the middle of a flush the cached edits are in leveldb, and then they are gone. -/
def Settled (m : Machine) : Prop :=
  match m.stage with
  | .merged _ => m.contents = Leveldb.contents m.db.cache.ldb
  | .cleared _ => m.db.cache.cached = .empty
  | _ => True

end Machine

theorem Step.settled {m m' : Machine} {a : Action} (h : Step m a m') : m'.Settled := by
  cases h with
  | mergeEmpty h => exact Edits.eq_empty_of_isEmpty h
  | merge h => exact (contents_commitTreaps _).trans (Leveldb.contents_update _ _).symm
  | clear => rfl
  | _ => trivial

/-- Only the swap of the cache and the last write of a flush change the contents, and they lay
the transaction's edits over them. -/
theorem Step.contents_eq {m m' : Machine} {a : Action} (h : Step m a m') (hm : m.Settled) :
    m'.contents =
      match m.committed a with
      | some pending => pending.commit m.contents
      | none => m.contents := by
  cases h with
  | cacheTx hfiles hblocks => exact Edits.commit_append _ _ _
  | merge h => exact contents_commitTreaps _
  | clear => exact (Edits.commit_empty _).trans (Eq.symm hm)
  | writeThrough =>
    rename_i db pending
    have hcached : db.cache.cached = .empty := hm
    simp only [Machine.contents, Machine.committed, DbCache.contents, DbCache.commitTreaps, hcached,
      Leveldb.contents_update, Edits.commit_empty]
  | _ => rfl

end Obtcd.Ffldb
