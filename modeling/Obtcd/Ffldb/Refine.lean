import Obtcd.Ffldb.Db

/-!
# Transactions refine a plain map

Seen from outside, the database is one sorted map from keys to values.  `MapDb` is that database: a
map, and a copy of it that the open write transaction works on.  `Session` is the real one, in which
reads merge a transaction's pending edits, the cached edits and a leveldb snapshot, and a flush
moves the cached edits to leveldb.

`transactions_refine_map` says that the two cannot be told apart: after any sequence of
transactions, committed or rolled back, with flushes anywhere, every lookup and every forward scan,
in the open transaction and in any that is begun next, gives what the map holds, in the order of
the keys.  The rows a commit adds of its own accord, the locations of new blocks and the write
cursor, are part of what is committed.
-/

namespace Obtcd

open Edits

namespace Ffldb

open Std OrdMap Iter Overlay

theorem eq_of_isPrefixOf {a b key : Bytes} (hlen : a.length = b.length)
    (ha : a.isPrefixOf key = true) (hb : b.isPrefixOf key = true) : a = b :=
  (List.prefix_of_prefix_length_le (List.isPrefixOf_iff_prefix.1 ha)
    (List.isPrefixOf_iff_prefix.1 hb) (Nat.le_of_eq hlen)).eq_of_length hlen

section

variable [Leveldb]

/-! ## What a transaction sees -/

/-- What a snapshot stands for. -/
def DbCacheSnapshot.view (snap : DbCacheSnapshot) : Contents :=
  snap.pending.commit (Leveldb.contents snap.dbSnapshot)

/-- What a transaction's reads stand for. -/
def Transaction.view (tx : Transaction) : Contents := tx.pending.commit tx.snapshot.view

/-- What a cache over its database stands for. -/
def DbCache.contents (c : DbCache) : Contents := c.cached.commit (Leveldb.contents c.ldb)

/-- **All reads of a transaction are reads of the map `m`**: lookups, and scans of the keys, of the
nested buckets and of both, which come merged in the order of their raw keys. -/
structure Transaction.Reads (tx : Transaction) (m : Contents) : Prop where
  hasKey (key : Bytes) : tx.hasKey key = m.contains key
  fetchKey (key : Bytes) : tx.fetchKey key = m[key]?
  get (id : BucketId) (key : Bytes) :
    tx.get id key = if key = [] then none else m[bucketizedKey id key]?
  keys (id : BucketId) : tx.scan id .ctKeys = m.toList.filter fun x => id.val.isPrefixOf x.1
  buckets (id : BucketId) :
    tx.scan id .ctBuckets = m.toList.filter fun x => (bucketIndexPrefix ++ id.val).isPrefixOf x.1
  full (id : BucketId) :
    tx.scan id .ctFull =
      List.merge (m.toList.filter fun x => id.val.isPrefixOf x.1)
        (m.toList.filter fun x => (bucketIndexPrefix ++ id.val).isPrefixOf x.1) shown
  forEach (id : BucketId) : id.val ≠ bucketIndexPrefix →
    tx.forEach id =
      (m.toList.filter fun x => id.val.isPrefixOf x.1).map fun x => (x.1.drop 4, some x.2)

namespace DbCacheSnapshot

variable (snap : DbCacheSnapshot)

theorem get_eq (key : Bytes) : snap.get key = snap.view[key]? :=
  (lookup_congr (Leveldb.get_eq _) key).trans (getElem?_commit snap.pending _ key).symm

theorem has_eq (key : Bytes) : snap.has key = snap.view.contains key := by
  rw [contains_eq, ← get_eq, get, isSome_lookup, has, Leveldb.has_eq, Leveldb.get_eq,
    contains_eq (Leveldb.contents _)]

theorem gives_newIterator (r : KeyRange) :
    Gives (first (snap.newIterator r)) (within snap.view r.contains) := by
  have h := Overlay.gives_first_new snap.pending
    (Leveldb.gives_newIterator snap.dbSnapshot r)
    (Cur.gives_first_new (entriesIn snap.pending.keys r))
  rwa [entriesIn, entriesIn, merge_within] at h

end DbCacheSnapshot

namespace Transaction

variable {tx : Transaction}

theorem gives_rangeCursor (r : KeyRange) :
    Gives (first (tx.rangeCursor r)) (within tx.view r.contains) := by
  have h := Overlay.gives_first_new tx.pending (tx.snapshot.gives_newIterator r)
    (Cur.gives_first_new (entriesIn tx.pending.keys r))
  rwa [entriesIn, merge_within] at h

theorem gives_fullCursor (id : BucketId) :
    Gives (first (tx.fullCursor id))
      (List.merge (within tx.view (keyRange id).contains)
        (within tx.view (bucketRange id).contains) shown) := by
  have h := Overlay.gives_first_new tx.pending
    (Leveldb.gives_newMergedIterator (tx.snapshot.gives_newIterator (keyRange id))
      (tx.snapshot.gives_newIterator (bucketRange id)))
    (Leveldb.gives_newMergedIterator (Cur.gives_first_new (entriesIn tx.pending.keys (keyRange id)))
      (Cur.gives_first_new (entriesIn tx.pending.keys (bucketRange id))))
  rwa [entriesIn, entriesIn, merge_merge_within] at h

theorem within_bytesPrefix (m : Contents) (bs : Bytes) :
    within m (Leveldb.bytesPrefix bs).contains = m.toList.filter fun x => bs.isPrefixOf x.1 := by
  rw [within]
  exact congrArg (m.toList.filter ·) (funext fun x => Leveldb.contains_bytesPrefix bs x.1)

section

variable (h : tx.writable = false → tx.pending = .empty)
include h

theorem fetchKey_eq (key : Bytes) : tx.fetchKey key = tx.view[key]? := by
  rw [fetchKey, view, getElem?_commit]
  have hbelow := lookup_congr (e := tx.pending) tx.snapshot.get_eq key
  by_cases hw : tx.writable = true
  · rw [if_pos hw, hbelow]
  · rw [if_neg hw, tx.snapshot.get_eq, h (by simpa using hw), lookup_empty]

theorem hasKey_eq (key : Bytes) : tx.hasKey key = tx.view.contains key := by
  rw [contains_eq, view, getElem?_commit, isSome_lookup, hasKey,
    ← contains_eq tx.snapshot.view, ← tx.snapshot.has_eq]
  by_cases hw : tx.writable = true
  · rw [hw, Bool.true_and, Bool.true_and]
  · rw [Bool.not_eq_true] at hw
    rw [hw, h hw]
    rfl

/-- A transaction reads the map that its edits, laid over its snapshot, stand for. -/
theorem reads_view : tx.Reads tx.view where
  hasKey := hasKey_eq h
  fetchKey := fetchKey_eq h
  get id key := by
    rw [get, fetchKey_eq h]
    cases key <;> rfl
  keys id := by
    rw [scan, scan_eq (gives_rangeCursor (keyRange id)), keyRange, within_bytesPrefix]
  buckets id := by
    rw [scan, scan_eq (gives_rangeCursor (bucketRange id)), bucketRange, within_bytesPrefix]
  full id := by
    rw [scan, scan_eq (gives_fullCursor id), keyRange, bucketRange, within_bytesPrefix,
      within_bytesPrefix]
  forEach id hid := by
    rw [forEach, scan, scan_eq (gives_rangeCursor (keyRange id)), keyRange, within_bytesPrefix]
    refine List.map_congr_left fun x hx => ?_
    rw [cursorEntry, if_neg]
    intro hindex
    exact hid (eq_of_isPrefixOf (by rw [id.property]; rfl) (List.mem_filter.1 hx).2 hindex)

end

end Transaction

/-! ## The two databases -/

/-- A change that a write transaction asks for.  Creating and deleting buckets and deleting at a
cursor come down to `putKey` and `deleteKey`. -/
inductive Op where
  | put (id : BucketId) (key value : Bytes)
  | delete (id : BucketId) (key : Bytes)
  | putKey (key value : Bytes)
  | deleteKey (key : Bytes)
  | storeBlock (hash : Hash) (blockBytes : Bytes)

/-- What happens to a database. -/
inductive Event where
  | begin
  | op (o : Op)
  | commit (needsFlush : Bool)
  | rollback
  | flush

/-- Carry out a change in a transaction. -/
def Transaction.apply (tx : Transaction) : Op → Except DbError Transaction
  | .put id key value => tx.put id key value
  | .delete id key => tx.delete id key
  | .putKey key value => .ok (tx.putKey key value)
  | .deleteKey key => .ok (tx.deleteKey key)
  | .storeBlock hash blockBytes => tx.storeBlock hash blockBytes

/-- A database and its open write transaction. -/
structure Session where
  db : Db
  tx : Option Transaction

namespace Session

/-- One event.  A second write transaction waits for the first, so it does not begin here, and a
change that fails leaves the transaction as it was. -/
def step (s : Session) : Event → Session
  | .begin =>
    match s.tx with
    | none => { s with tx := some (s.db.begin true) }
    | some _ => s
  | .op o =>
    match s.tx with
    | none => s
    | some tx =>
      match tx.apply o with
      | .ok tx => { s with tx := some tx }
      | .error _ => s
  | .commit needsFlush =>
    match s.tx with
    | none => s
    | some tx => ⟨(tx.writePendingAndCommit s.db needsFlush).2, none⟩
  | .rollback => { s with tx := none }
  | .flush => { s with db := s.db.flush }

/-- A sequence of events. -/
def run (s : Session) (events : List Event) : Session := events.foldl step s

end Session

/-- What a transaction of the plain map works on: a copy of the map, and the blocks to store. -/
structure MapTx where
  view : Contents
  blocks : List (Hash × Bytes)

/-- A plain map with its open write transaction, beside the block files. -/
structure MapDb where
  store : BlockStore
  contents : Contents
  tx : Option MapTx

/-- Carry out a change on the copy. -/
def MapTx.apply (tx : MapTx) : Op → MapTx
  | .put id key value =>
    if key = [] then tx else { tx with view := tx.view.insert (bucketizedKey id key) value }
  | .delete id key =>
    if key = [] then tx else { tx with view := tx.view.erase (bucketizedKey id key) }
  | .putKey key value => { tx with view := tx.view.insert key value }
  | .deleteKey key => { tx with view := tx.view.erase key }
  | .storeBlock hash blockBytes =>
    if (tx.blocks.any fun x => x.1 == hash) || tx.view.contains (blockIdxKey hash) then tx
    else { tx with blocks := tx.blocks ++ [(hash, blockBytes)] }

namespace MapDb

/-- Write the blocks to the block files and their locations to the map. -/
def storeBlocks (store : BlockStore) (view : Contents) (blocks : List (Hash × Bytes)) :
    BlockStore × Contents :=
  blocks.foldl (fun x block =>
    ((x.1.writeBlock block.2).2,
      x.2.insert (blockIdxKey block.1) (serializeBlockLoc (x.1.writeBlock block.2).1))) (store, view)

/-- One event: a commit makes the copy the map, with the locations of its blocks and the write
cursor, and a rollback forgets it. -/
def step (m : MapDb) : Event → MapDb
  | .begin =>
    match m.tx with
    | none => { m with tx := some ⟨m.contents, []⟩ }
    | some _ => m
  | .op o => { m with tx := m.tx.map (·.apply o) }
  | .commit needsFlush =>
    match m.tx with
    | none => m
    | some tx =>
      let (store, view) := storeBlocks m.store tx.view tx.blocks
      { store := if needsFlush then store.syncBlocks else store
        contents := view.insert writeLocKey (serializeWriteRow store.curFileNum store.curOffset)
        tx := none }
  | .rollback => { m with tx := none }
  | .flush => { m with store := m.store.syncBlocks }

/-- A sequence of events. -/
def run (m : MapDb) (events : List Event) : MapDb := events.foldl step m

end MapDb

/-! ## The simulation -/

/-- The cached edits may be in leveldb already. -/
theorem contents_commitTreaps (c : DbCache) : (c.commitTreaps c.cached).contents = c.contents := by
  rw [DbCache.contents, DbCache.commitTreaps, Leveldb.contents_update, commit_commit,
    DbCache.contents]

theorem contents_clear_commitTreaps (c : DbCache) :
    ((c.commitTreaps c.cached).clear).contents = c.contents :=
  (commit_empty _).trans (Leveldb.contents_update c.ldb c.cached)

namespace Db

theorem store_flush (db : Db) : db.flush.store = db.store.syncBlocks := by
  rw [flush]
  split <;> rfl

/-- A flush changes where the contents are and not what they are. -/
theorem contents_flush (db : Db) : db.flush.cache.contents = db.cache.contents := by
  rw [flush]
  split
  · rfl
  · exact contents_clear_commitTreaps db.cache

theorem cached_flush (db : Db) : db.flush.cache.cached = .empty := by
  rw [flush]
  split
  · rename_i h
    exact eq_empty_of_isEmpty h
  · rfl

/-- A commit lays the transaction's edits over the contents, with or without a flush. -/
theorem contents_commitTx (db : Db) (needsFlush : Bool) (pending : Edits Bytes Bytes) :
    (db.commitTx needsFlush pending).cache.contents = pending.commit db.cache.contents := by
  rw [commitTx]
  split
  · have h := db.contents_flush
    rw [DbCache.contents, db.cached_flush, commit_empty] at h
    simp only [DbCache.contents, DbCache.commitTreaps, db.cached_flush, commit_empty,
      Leveldb.contents_update, h]
  · rw [DbCache.contents, DbCache.cacheTx, commit_append, DbCache.contents]

theorem store_commitTx (db : Db) (needsFlush : Bool) (pending : Edits Bytes Bytes) :
    (db.commitTx needsFlush pending).store =
      if needsFlush then db.store.syncBlocks else db.store := by
  rw [commitTx]
  split
  · exact db.store_flush
  · rfl

end Db

omit [Leveldb] in
/-- Writing blocks through edits and into a map come to the same. -/
theorem writePendingBlocks_eq (store : BlockStore) (pending : Edits Bytes Bytes) (m : Contents)
    (blocks : List (Hash × Bytes)) :
    (writePendingBlocks store pending blocks).1 =
        (MapDb.storeBlocks store (pending.commit m) blocks).1 ∧
      (writePendingBlocks store pending blocks).2.commit m =
        (MapDb.storeBlocks store (pending.commit m) blocks).2 := by
  induction blocks generalizing store pending with
  | nil => exact ⟨rfl, rfl⟩
  | cons block blocks ih =>
    have h := ih (store.writeBlock block.2).2
      (pending.put (blockIdxKey block.1) (serializeBlockLoc (store.writeBlock block.2).1))
    rw [commit_put] at h
    exact h

/-- A write transaction and its counterpart: one view, the same blocks, over the contents `m`. -/
structure TxMatches (m : Contents) (tx : Transaction) (tx' : MapTx) : Prop where
  writable : tx.writable = true
  files : tx.pendingDelFileNums = []
  snapshot : tx.snapshot.view = m
  view : tx.view = tx'.view
  blocks : tx.pendingBlockData = tx'.blocks

/-- The two databases hold the same, and so do their transactions. -/
structure Matches (s : Session) (m : MapDb) : Prop where
  store : s.db.store = m.store
  contents : s.db.cache.contents = m.contents
  tx : Option.Rel (TxMatches m.contents) s.tx m.tx

variable {tx' : MapTx} {tx : Transaction}

theorem TxMatches.putKey {m : Contents} (h : TxMatches m tx tx') (key value : Bytes) :
    TxMatches m (tx.putKey key value) { tx' with view := tx'.view.insert key value } :=
  ⟨h.writable, h.files, h.snapshot, (commit_put tx.pending key value _).trans
    (congrArg (·.insert key value) h.view), h.blocks⟩

theorem TxMatches.deleteKey {m : Contents} (h : TxMatches m tx tx') (key : Bytes) :
    TxMatches m (tx.deleteKey key) { tx' with view := tx'.view.erase key } :=
  ⟨h.writable, h.files, h.snapshot, (commit_delete tx.pending key _).trans
    (congrArg (·.erase key) h.view), h.blocks⟩

theorem TxMatches.hasBlock {m : Contents} (h : TxMatches m tx tx') (hash : Hash) :
    tx.hasBlock hash =
      ((tx'.blocks.any fun x => x.1 == hash) || tx'.view.contains (blockIdxKey hash)) := by
  rw [Transaction.hasBlock, h.blocks, Transaction.hasKey_eq (fun hw => by
    rw [h.writable] at hw; cases hw), h.view]

/-- A change has the same effect on both, and none if it fails. -/
theorem TxMatches.apply {m : Contents} (h : TxMatches m tx tx') (o : Op) :
    (∀ tx₁, tx.apply o = .ok tx₁ → TxMatches m tx₁ (tx'.apply o)) ∧
      (∀ e, tx.apply o = .error e → tx'.apply o = tx') := by
  cases o with
  | put id key value =>
    rw [Transaction.apply, Transaction.put, h.writable, MapTx.apply]
    cases key with
    | nil => simp
    | cons b key => simpa using h.putKey (bucketizedKey id (b :: key)) value
  | delete id key =>
    rw [Transaction.apply, Transaction.delete, h.writable, MapTx.apply]
    cases key with
    | nil => simpa using h
    | cons b key => simpa using h.deleteKey (bucketizedKey id (b :: key))
  | putKey key value => simpa [Transaction.apply, MapTx.apply] using h.putKey key value
  | deleteKey key => simpa [Transaction.apply, MapTx.apply] using h.deleteKey key
  | storeBlock hash blockBytes =>
    rw [Transaction.apply, Transaction.storeBlock, h.writable, h.hasBlock, MapTx.apply]
    split
    · simp_all
    · split_ifs with hhas
      · simp
      · refine ⟨fun tx₁ htx => ?_, fun e he => nomatch he⟩
        cases htx
        exact ⟨rfl, h.files, h.snapshot, h.view, congrArg (· ++ [(hash, blockBytes)]) h.blocks⟩

theorem Matches.step {s : Session} {m : MapDb} (h : Matches s m) (event : Event) :
    Matches (s.step event) (m.step event) := by
  obtain ⟨db, tx⟩ := s
  obtain ⟨store, contents, tx'⟩ := m
  obtain ⟨rfl, rfl, htx⟩ := h
  cases event with
  | begin =>
    cases htx with
    | none => exact ⟨rfl, rfl, .some ⟨rfl, rfl, rfl, commit_empty _, rfl⟩⟩
    | some htx => exact ⟨rfl, rfl, .some htx⟩
  | op o =>
    cases htx with
    | none => exact ⟨rfl, rfl, .none⟩
    | some htx =>
      rename_i tx tx'
      obtain ⟨hok, herror⟩ := htx.apply o
      simp only [Session.step, MapDb.step]
      cases hr : tx.apply o with
      | ok tx₁ => exact ⟨rfl, rfl, .some (hok tx₁ hr)⟩
      | error e =>
        refine ⟨rfl, rfl, .some ?_⟩
        show TxMatches db.cache.contents tx (tx'.apply o)
        rwa [herror e hr]
  | commit needsFlush =>
    cases htx with
    | none => exact ⟨rfl, rfl, .none⟩
    | some htx =>
      rename_i tx tx'
      obtain ⟨hstore, hview⟩ := writePendingBlocks_eq db.store tx.pending db.cache.contents
        tx.pendingBlockData
      have hcommit : tx.pending.commit db.cache.contents = tx'.view := by
        rw [← htx.view, Transaction.view, htx.snapshot]
      rw [hcommit, htx.blocks] at hstore hview
      refine ⟨?_, ?_, .none⟩
      · simp only [Session.step, MapDb.step, Transaction.writePendingAndCommit, htx.files,
          deletePendingFiles, Db.store_commitTx, htx.blocks, hstore]
      · simp only [Session.step, MapDb.step, Transaction.writePendingAndCommit, htx.files,
          deletePendingFiles, Db.contents_commitTx, htx.blocks, putWriteRow, commit_put,
          hview, hstore]
  | rollback => exact ⟨rfl, rfl, .none⟩
  | flush => exact ⟨db.store_flush, db.contents_flush, htx⟩

theorem Matches.run {s : Session} {m : MapDb} (h : Matches s m) (events : List Event) :
    Matches (s.run events) (m.run events) := by
  induction events generalizing s m with
  | nil => exact h
  | cons event events ih => exact ih (h.step event)

/-- The map that a database with no open transaction stands for. -/
def Db.asMap (db : Db) : MapDb := ⟨db.store, db.cache.contents, none⟩

/-- **Transactions refine a plain map.**  Take any database and any sequence of transactions with
flushes at any points, and let the plain map go through the same.  Then the transaction that is open
reads the copy that its counterpart works on, and any transaction begun now reads the map. -/
theorem transactions_refine_map (db : Db) (events : List Event) :
    (∀ writable, ((Session.run ⟨db, none⟩ events).db.begin writable).Reads
        (db.asMap.run events).contents) ∧
      Option.Rel (fun tx tx' => tx.Reads tx'.view) (Session.run ⟨db, none⟩ events).tx
        (db.asMap.run events).tx := by
  have h : Matches (Session.run ⟨db, none⟩ events) (db.asMap.run events) :=
    Matches.run ⟨rfl, rfl, .none⟩ events
  constructor
  · intro writable
    have hreads : (Db.begin (Session.run ⟨db, none⟩ events).db writable).Reads _ :=
      Transaction.reads_view fun _ => rfl
    have hview : (Db.begin (Session.run ⟨db, none⟩ events).db writable).view =
        (db.asMap.run events).contents :=
      (Edits.commit_empty _).trans h.contents
    rwa [hview] at hreads
  · have hrel := h.tx
    generalize (Session.run ⟨db, none⟩ events).tx = tx at hrel ⊢
    generalize (db.asMap.run events).tx = tx' at hrel ⊢
    cases hrel with
    | none => exact .none
    | some htx =>
      refine .some ?_
      rw [← htx.view]
      refine Transaction.reads_view fun hw => ?_
      rw [htx.writable] at hw
      cases hw

end

attribute [local instance] Memory.leveldb

/-- A new database: no block files, nothing stored. -/
def emptyDb : Db :=
  ⟨BlockStore.newBlockStore "" 0 maxBlockFileSize ∅, ⟨(∅ : Contents), .empty⟩⟩

/-- The bucket of the runs on `emptyDb`. -/
def sampleBucket : BucketId := ⟨[0, 0, 0, 2], rfl⟩

/-- Two keys are put and flushed, one is deleted, another put, and a third transaction is open. -/
def sampleEvents : List Event :=
  [.begin, .op (.put sampleBucket [1] [7]), .op (.put sampleBucket [2] [8]), .commit true,
    .begin, .op (.delete sampleBucket [1]), .op (.put sampleBucket [3] [9]), .commit false,
    .begin, .op (.delete sampleBucket [2])]

theorem transactions_refine_map_sample :
    ((Session.run ⟨emptyDb, none⟩ sampleEvents).db.begin false).scan sampleBucket .ctKeys =
      [(bucketizedKey sampleBucket [2], [8]), (bucketizedKey sampleBucket [3], [9])] :=
  (((transactions_refine_map emptyDb sampleEvents).1 false).keys sampleBucket).trans
    (by decide +kernel)

end Ffldb

end Obtcd
