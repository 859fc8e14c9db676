import Obtcd.Ffldb.BlockIo
import Obtcd.Lib.Scan

/-!
# Transactions of the flat-file database

`database/ffldb/db.go` and `dbcache.go`.  The metadata is a sorted key-value store, leveldb, under a
cache of edits: committing a transaction puts its edits into the cache, and a flush carries the
cache out on leveldb.  A transaction reads through its own pending edits, then through the cached
edits of the snapshot it began with, then in the leveldb snapshot.  Buckets are key prefixes.

The treaps of the source, mutable and immutable, are sorted maps, and their pairs of keys to write
and keys to remove are `Edits`, which no key is in twice.  An iterator is moved through the list of
its entries; the merging iterators of the source, `dbCacheIterator` and `cursor`, are one
definition, `Overlay`, at two levels.  Leveldb is a parameter, the class `Leveldb`, whose laws are
all that is assumed of it; `Memory.leveldb` is one.  A closed transaction is never used here, so
the `ErrTxClosed` checks have no counterpart, and whether a commit flushes, which depends on the
clock, is a parameter of the commit.
-/

namespace Obtcd.Ffldb

open Std OrdMap Iter

/-! ## Keys -/

def bucketIndexPrefix : Bytes := bytesOf "bidx"

/-- The identifier of a bucket, an array of four bytes. -/
abbrev BucketId := Bytes.Sized 4

def metadataBucketID : BucketId := ⟨[0, 0, 0, 0], rfl⟩

def blockIdxBucketID : BucketId := ⟨[0, 0, 0, 1], rfl⟩

def writeLocKeyName : Bytes := bytesOf "ffldb-writeloc"

def bucketizedKey (bucketID : BucketId) (key : Bytes) : Bytes := bucketID.val ++ key

/-- The key of a block in the block index. -/
def blockIdxKey (hash : Hash) : Bytes := bucketizedKey blockIdxBucketID hash.bytes.val

/-- The key of the write cursor. -/
def writeLocKey : Bytes := bucketizedKey metadataBucketID writeLocKeyName

/-- `util.Range`: a first key, and the first key beyond. -/
structure KeyRange where
  start : Bytes
  limit : Option Bytes

def KeyRange.contains (r : KeyRange) (key : Bytes) : Bool :=
  (compare r.start key).isLE &&
    match r.limit with
    | none => true
    | some limit => compare key limit == .lt

/-! ## Leveldb -/

/-- The keys and values of the metadata. -/
abbrev Contents := OrdMap Bytes Bytes

/-- The entries of a map in a range of keys. -/
def entriesIn (m : Contents) (r : KeyRange) : List (Bytes × Bytes) := Overlay.within m r.contains

/-- What is used of goleveldb, and what it is assumed to do. -/
class Leveldb where
  /-- A database, or a snapshot of one. -/
  DB : Type
  contents : DB → Contents
  has : DB → Bytes → Bool
  has_eq (db : DB) (key : Bytes) : has db key = (contents db).contains key
  get : DB → Bytes → Option Bytes
  get_eq (db : DB) (key : Bytes) : get db key = (contents db)[key]?
  /-- Carry out edits in one leveldb transaction. -/
  update : DB → Edits Bytes Bytes → DB
  contents_update (db : DB) (e : Edits Bytes Bytes) :
    contents (update db e) = e.commit (contents db)
  Iterator : Type
  [iter : Iter Iterator (Bytes × Bytes)]
  newIterator : DB → KeyRange → Iterator
  gives_newIterator (db : DB) (r : KeyRange) :
    Gives (first (newIterator db r)) (entriesIn (contents db) r)
  /-- `util.BytesPrefix`. -/
  bytesPrefix : Bytes → KeyRange
  /-- The range of a prefix holds the keys that start with it. -/
  contains_bytesPrefix (bs key : Bytes) : (bytesPrefix bs).contains key = bs.isPrefixOf key
  MergedIterator (σ : Type) [Iter σ (Bytes × Bytes)] : Type
  [mergedIter (σ : Type) [Iter σ (Bytes × Bytes)] : Iter (MergedIterator σ) (Bytes × Bytes)]
  /-- `iterator.NewMergedIterator` of two iterators. -/
  newMergedIterator {σ : Type} [Iter σ (Bytes × Bytes)] (a b : σ) : MergedIterator σ
  /-- The entries of both come in the order of their keys. -/
  gives_newMergedIterator {σ : Type} [Iter σ (Bytes × Bytes)] {a b : σ}
    {l l' : List (Bytes × Bytes)} (ha : Gives (first a) l) (hb : Gives (first b) l') :
    Gives (first (newMergedIterator a b)) (List.merge l l' Overlay.shown)

attribute [reducible, instance] Leveldb.iter Leveldb.mergedIter

namespace Memory

/-- The end of the range of keys with a given start: the last byte below `0xff` is raised, and what
comes after it is cut. -/
def bytesLimit : Bytes → Option Bytes
  | [] => none
  | c :: bs =>
    match bytesLimit bs with
    | some limit => some (c :: limit)
    | none => if c < 0xff then some [c + 1] else none

def bytesPrefix (bs : Bytes) : KeyRange := ⟨bs, bytesLimit bs⟩

theorem contains_bytesPrefix (bs key : Bytes) :
    (bytesPrefix bs).contains key = bs.isPrefixOf key := by
  induction bs generalizing key with
  | nil => cases key <;> rfl
  | cons c bs ih =>
    cases key with
    | nil => rfl
    | cons d ks =>
      have ih := ih ks
      simp only [KeyRange.contains, bytesPrefix] at ih ⊢
      rw [List.isPrefixOf_cons_cons, List.compare_cons_cons, bytesLimit]
      cases h : compare c d with
      | lt =>
        -- The key lies beyond the range.
        rw [compare_eq_lt] at h
        have hne : (c == d) = false := by grind
        rw [hne, Bool.false_and]
        cases bytesLimit bs with
        | some limit => simp [compare_eq_gt.2 h]
        | none =>
          have hlt : c < 0xff := by grind
          have hnext : compare d (c + 1) ≠ .lt := by
            rw [ne_eq, compare_eq_lt]
            grind
          rw [if_pos hlt]
          cases ks <;> cases hcmp : compare d (c + 1) <;> simp_all
      | eq =>
        obtain rfl := compare_eq_iff_eq.1 h
        rw [beq_self_eq_true, Bool.true_and, ← ih]
        cases bytesLimit bs with
        | some limit => simp
        | none =>
          by_cases hlt : c < 0xff
          · have hcmp : compare c (c + 1) = .lt := compare_eq_lt.2 (by grind)
            simp [hlt, hcmp]
          · simp [hlt]
      | gt =>
        rw [compare_eq_gt] at h
        have hne : (c == d) = false := by grind
        rw [hne]
        rfl

theorem gives_overlay {σ : Type} [Iter σ (Bytes × Bytes)] {a b : σ} {l l' : List (Bytes × Bytes)}
    (ha : Gives (first a) l) (hb : Gives (first b) l') :
    Gives (first (Overlay.new (Edits.empty : Edits Bytes Bytes) a b))
      (List.merge l l' Overlay.shown) := by
  have h := Overlay.gives_first_new .empty ha hb
  have hall : (l.filter fun x => !(Edits.empty : Edits Bytes Bytes).touches x.1) = l := by
    rw [List.filter_eq_self]
    intro x _
    rfl
  rwa [hall] at h

/-- A leveldb that is its contents. -/
@[reducible]
def leveldb : Leveldb where
  DB := Contents
  contents m := m
  has m key := m.contains key
  has_eq _ _ := rfl
  get m key := m[key]?
  get_eq _ _ := rfl
  update m e := e.commit m
  contents_update _ _ := rfl
  Iterator := Cur (Bytes × Bytes)
  newIterator m r := .new (entriesIn m r)
  gives_newIterator m r := Cur.gives_first_new (entriesIn m r)
  bytesPrefix := bytesPrefix
  contains_bytesPrefix := contains_bytesPrefix
  MergedIterator σ := Overlay σ σ Bytes Bytes
  mergedIter _ := inferInstance
  newMergedIterator := Overlay.new .empty
  gives_newMergedIterator := gives_overlay

end Memory

variable [Leveldb]

/-! ## The cache and its snapshots -/

/-- An iterator over a treap. -/
abbrev RangeIter := Cur (Bytes × Bytes)

abbrev DbCacheIterator := Overlay Leveldb.Iterator RangeIter Bytes Bytes

/-- `dbCacheSnapshot`; the two treaps are one value. -/
structure DbCacheSnapshot where
  dbSnapshot : Leveldb.DB
  pending : Edits Bytes Bytes

namespace DbCacheSnapshot

def has (snap : DbCacheSnapshot) (key : Bytes) : Bool :=
  if snap.pending.remove.contains key then false
  else if snap.pending.keys.contains key then true
  else Leveldb.has snap.dbSnapshot key

def get (snap : DbCacheSnapshot) (key : Bytes) : Option Bytes :=
  snap.pending.lookup (Leveldb.get snap.dbSnapshot) key

def newIterator (snap : DbCacheSnapshot) (r : KeyRange) : DbCacheIterator :=
  Overlay.new snap.pending (Leveldb.newIterator snap.dbSnapshot r)
    (Cur.new (entriesIn snap.pending.keys r))

end DbCacheSnapshot

/-- The database and the edits cached over it, `cachedKeys` and `cachedRemove`. -/
structure DbCache where
  ldb : Leveldb.DB
  cached : Edits Bytes Bytes

namespace DbCache

/-- `dbCache.Snapshot`, when nothing happens between its two halves. -/
def snapshot (c : DbCache) : DbCacheSnapshot := ⟨c.ldb, c.cached⟩

def commitTreaps (c : DbCache) (pending : Edits Bytes Bytes) : DbCache :=
  { c with ldb := Leveldb.update c.ldb pending }

/-- Replace the cached treaps by empty ones, the last part of `flush`. -/
def clear (c : DbCache) : DbCache := { c with cached := .empty }

/-- Apply a transaction's edits to the cache, the part of `commitTx` without a flush. -/
def cacheTx (c : DbCache) (pending : Edits Bytes Bytes) : DbCache :=
  { c with cached := c.cached.append pending }

end DbCache

/-! ## Transactions -/

structure Transaction where
  writable : Bool
  snapshot : DbCacheSnapshot
  /-- `pendingKeys` and `pendingRemove`. -/
  pending : Edits Bytes Bytes
  /-- `pendingBlockData`; its hashes are the keys of `pendingBlocks`. -/
  pendingBlockData : List (Hash × Bytes)
  pendingDelFileNums : List UInt32

/-- The kinds of cursor. -/
inductive CursorType where
  | ctKeys
  | ctBuckets
  | ctFull
deriving DecidableEq

namespace Transaction

def hasKey (tx : Transaction) (key : Bytes) : Bool :=
  if tx.writable && tx.pending.remove.contains key then false
  else if tx.writable && tx.pending.keys.contains key then true
  else tx.snapshot.has key

def fetchKey (tx : Transaction) (key : Bytes) : Option Bytes :=
  if tx.writable then tx.pending.lookup tx.snapshot.get key else tx.snapshot.get key

def putKey (tx : Transaction) (key value : Bytes) : Transaction :=
  { tx with pending := tx.pending.put key value }

def deleteKey (tx : Transaction) (key : Bytes) : Transaction :=
  { tx with pending := tx.pending.delete key }

/-- `bucket.Put`. -/
def put (tx : Transaction) (id : BucketId) (key value : Bytes) : Except DbError Transaction :=
  if !tx.writable then
    .error (.db .errTxNotWritable "setting a key requires a writable database transaction")
  else if key.isEmpty then .error (.db .errKeyRequired "put requires a key")
  else .ok (tx.putKey (bucketizedKey id key) value)

/-- `bucket.Get`. -/
def get (tx : Transaction) (id : BucketId) (key : Bytes) : Option Bytes :=
  if key.isEmpty then none else tx.fetchKey (bucketizedKey id key)

/-- `bucket.Delete`. -/
def delete (tx : Transaction) (id : BucketId) (key : Bytes) : Except DbError Transaction :=
  if !tx.writable then
    .error (.db .errTxNotWritable "deleting a value requires a writable database transaction")
  else if key.isEmpty then .ok tx
  else .ok (tx.deleteKey (bucketizedKey id key))

/-- A cursor over a range of keys: what `newCursor` makes for `ctKeys` and `ctBuckets`. -/
def rangeCursor (tx : Transaction) (r : KeyRange) : Overlay DbCacheIterator RangeIter Bytes Bytes :=
  Overlay.new tx.pending (tx.snapshot.newIterator r) (Cur.new (entriesIn tx.pending.keys r))

/-- The range of the keys of a bucket. -/
def keyRange (id : BucketId) : KeyRange := Leveldb.bytesPrefix id.val

/-- The range of the entries of a bucket's nested buckets in the bucket index. -/
def bucketRange (id : BucketId) : KeyRange := Leveldb.bytesPrefix (bucketIndexPrefix ++ id.val)

/-- A cursor over the keys and the nested buckets: what `newCursor` makes for `ctFull`. -/
def fullCursor (tx : Transaction) (id : BucketId) :
    Overlay (Leveldb.MergedIterator DbCacheIterator) (Leveldb.MergedIterator RangeIter)
      Bytes Bytes :=
  Overlay.new tx.pending
    (Leveldb.newMergedIterator (tx.snapshot.newIterator (keyRange id))
      (tx.snapshot.newIterator (bucketRange id)))
    (Leveldb.newMergedIterator (Cur.new (entriesIn tx.pending.keys (keyRange id)))
      (Cur.new (entriesIn tx.pending.keys (bucketRange id))))

/-- Run a new cursor forward, `First` and then `Next` until the end: the raw keys and values it
shows. -/
def scan (tx : Transaction) (id : BucketId) : CursorType → List (Bytes × Bytes)
  | .ctKeys => Iter.scan (tx.rangeCursor (keyRange id))
  | .ctBuckets => Iter.scan (tx.rangeCursor (bucketRange id))
  | .ctFull => Iter.scan (tx.fullCursor id)

/-- `cursor.Key` and `cursor.Value` at a raw entry: a nested bucket shows its name and no value. -/
def cursorEntry (x : Bytes × Bytes) : Bytes × Option Bytes :=
  if bucketIndexPrefix.isPrefixOf x.1 then (x.1.drop 8, none) else (x.1.drop 4, some x.2)

/-- What `bucket.ForEach` passes to its callback. -/
def forEach (tx : Transaction) (id : BucketId) : List (Bytes × Option Bytes) :=
  (tx.scan id .ctKeys).map cursorEntry

def hasBlock (tx : Transaction) (hash : Hash) : Bool :=
  (tx.pendingBlockData.any fun x => x.1 == hash) || tx.hasKey (blockIdxKey hash)

/-- `StoreBlock` of a block with its hash and its serialization. -/
def storeBlock (tx : Transaction) (hash : Hash) (blockBytes : Bytes) : Except DbError Transaction :=
  if !tx.writable then
    .error (.db .errTxNotWritable "store block requires a writable database transaction")
  else if tx.hasBlock hash then
    .error (.db .errBlockExists ("block " ++ hash.string ++ " already exists"))
  else .ok { tx with pendingBlockData := tx.pendingBlockData ++ [(hash, blockBytes)] }

end Transaction

/-- The loop of `PruneBlocks` over the files from `i` on: how far they have to go for the total size
to come down to the target.  `n` is the number of files before the last. -/
def filesToDelete (maxSize targetSize : UInt64) : Nat → UInt32 → UInt64 → List UInt32
  | 0, _, _ => []
  | n + 1, i, totalSize =>
    let totalSize := totalSize - maxSize
    i :: if totalSize ≤ targetSize then [] else filesToDelete maxSize targetSize n (i + 1) totalSize

/-- The hash that a key of the block index is, `*(*chainhash.Hash)(key)`. -/
def hashOfKey (key : Bytes) : Except DbError Hash :=
  if h : 32 ≤ key.length then
    .ok ⟨⟨key.take 32, by rw [List.length_take]; omega⟩⟩
  else .error .panic

/-- The loop of `PruneBlocks` over the block index: delete the rows of blocks in the deleted files
and collect their hashes. -/
def Transaction.deleteRows (tx : Transaction) (deletedFiles : List UInt32) :
    List (Bytes × Bytes) → Except DbError (List Hash × Transaction)
  | [] => .ok ([], tx)
  | (key, value) :: rows =>
    if (deserializeBlockLoc value).blockFileNum ∈ deletedFiles then do
      let hash ← hashOfKey (key.drop 4)
      let (hashes, tx) ← (tx.deleteKey key).deleteRows deletedFiles rows
      .ok (hash :: hashes, tx)
    else tx.deleteRows deletedFiles rows

def Transaction.pruneBlocks (tx : Transaction) (store : BlockStore) (targetSize : UInt64) :
    Except DbError (List Hash × Transaction) :=
  let maxSize := store.maxBlockFileSize.toUInt64
  if !tx.writable then
    .error (.db .errTxNotWritable "prune blocks requires a writable database transaction")
  else if targetSize < maxSize then
    .error (.other ("got target size of " ++ toString targetSize.toNat ++
      " but it must be greater than " ++ toString maxSize.toNat ++
      ", the max size of a single block file"))
  else
    match BlockStore.scanBlockFiles store.files with
    | none => .ok ([], tx)
    | some (first, last, lastFileSize) =>
      let totalSize := lastFileSize.toUInt64 + maxSize * (last - first).toUInt64
      if first = last ∨ totalSize ≤ targetSize then .ok ([], tx)
      else
        let deletedFiles := filesToDelete maxSize targetSize (last - first).toNat first totalSize
        let tx := { tx with pendingDelFileNums := tx.pendingDelFileNums ++ deletedFiles }
        tx.deleteRows deletedFiles (tx.scan blockIdxBucketID .ctFull)

/-! ## The database -/

structure Db where
  store : BlockStore
  cache : DbCache

namespace Db

/-- `begin`, when nothing happens while the snapshot is taken. -/
def begin (db : Db) (writable : Bool) : Transaction :=
  { writable, snapshot := db.cache.snapshot, pending := .empty, pendingBlockData := []
    pendingDelFileNums := [] }

/-- Sync the block file, the first part of `flush`. -/
def syncBlocks (db : Db) : Db := { db with store := db.store.syncBlocks }

/-- `dbCache.flush`. -/
def flush (db : Db) : Db :=
  let db := db.syncBlocks
  if db.cache.cached.isEmpty then db
  else { db with cache := (db.cache.commitTreaps db.cache.cached).clear }

def commitTx (db : Db) (needsFlush : Bool) (pending : Edits Bytes Bytes) : Db :=
  if needsFlush then
    let db := db.flush
    { db with cache := db.cache.commitTreaps pending }
  else { db with cache := db.cache.cacheTx pending }

end Db

/-- Write a pending block and record its location: one round of the loop of
`writePendingAndCommit`. -/
def writePendingBlock (store : BlockStore) (pending : Edits Bytes Bytes) (block : Hash × Bytes) :
    BlockStore × Edits Bytes Bytes :=
  let (location, store) := store.writeBlock block.2
  (store, pending.put (blockIdxKey block.1) (serializeBlockLoc location))

/-- The loop of `writePendingAndCommit` over the pending blocks. -/
def writePendingBlocks (store : BlockStore) (pending : Edits Bytes Bytes)
    (blocks : List (Hash × Bytes)) : BlockStore × Edits Bytes Bytes :=
  blocks.foldl (fun x block => writePendingBlock x.1 x.2 block) (store, pending)

/-- Record the write cursor, as `writePendingAndCommit` does after the blocks. -/
def putWriteRow (store : BlockStore) (pending : Edits Bytes Bytes) : Edits Bytes Bytes :=
  pending.put writeLocKey (serializeWriteRow store.curFileNum store.curOffset)

/-- The loop of `writePendingAndCommit` over the files to delete.  Deletions before one that fails
stay. -/
def deletePendingFiles (store : BlockStore) : List UInt32 → Except DbError Unit × BlockStore
  | [] => (.ok (), store)
  | fileNum :: fileNums =>
    match store.deleteFile fileNum with
    | .error e => (.error e, store)
    | .ok store => deletePendingFiles store fileNums

def Transaction.writePendingAndCommit (tx : Transaction) (db : Db) (needsFlush : Bool) :
    Except DbError Unit × Db :=
  match deletePendingFiles db.store tx.pendingDelFileNums with
  | (.error e, store) => (.error e, { db with store })
  | (.ok (), store) =>
    let (store, pending) := writePendingBlocks store tx.pending tx.pendingBlockData
    (.ok (), Db.commitTx { db with store } needsFlush (putWriteRow store pending))

end Obtcd.Ffldb
