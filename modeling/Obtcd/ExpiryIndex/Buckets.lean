import Obtcd.Chaincfg
import Obtcd.ExpiryIndex.Encode
import Obtcd.ExpiryIndex.MuHash

/-!
# The buckets of the expiry index

`buckets.go` and `accumulator.go`: the five buckets the index keeps, and the four records of the
metadata bucket, as the bytes they are stored as.

A database transaction is a value of `Buckets` that is passed along; the functions below read it or
return a new one.  The buckets exist from `Create` on, so the "bucket does not exist" errors of the
source have no counterpart here, and a write cannot fail.
-/

namespace Obtcd.ExpiryIndex

/-- A database bucket. -/
abbrev Bucket := OrdMap Bytes Bytes

/-- The five buckets of the index. -/
structure Buckets where
  /-- `expiry-meta`. -/
  expiryMeta : Bucket
  /-- `outpoint-to-expiry`: outpoint to expiry key. -/
  outpoint2Expiry : Bucket
  /-- `expiry-to-outpoints`: expiry key and ordered outpoint to nothing. -/
  expiry2Outpoints : Bucket
  /-- `reap-strict-candidates`: expiry key, amount and REAP-order outpoint to nothing. -/
  reapStrictCandidates : Bucket
  /-- `outpoint-to-reap-strict`: outpoint to the key of its strict candidate. -/
  outpoint2ReapStrict : Bucket

def emptyIndexValue : Bytes := []

def keyTipHeightIndexed : Bytes := bytesOf "tip-height"
def keyIndexVersion : Bytes := bytesOf "version"
def keyAccumulatorState : Bytes := bytesOf "accumulator-state"
def keyAccumulatorTipHash : Bytes := bytesOf "accumulator-tip-hash"

def currentIndexVersion : UInt16 := 6

/-! ## Metadata -/

def dbPutIndexMeta (db : Buckets) (key value : Bytes) : Buckets :=
  { db with expiryMeta := db.expiryMeta.insert key value }

def dbGetIndexMeta (db : Buckets) (key : Bytes) : Option Bytes := db.expiryMeta[key]?

def dbPutTipHeightIndexed (db : Buckets) (height : Int32) : Buckets :=
  dbPutIndexMeta db keyTipHeightIndexed (Bytes.le 4 height.toUInt32.toNat)

/-- The indexed height, `-1` if there is none. -/
def dbGetTipHeightIndexed (db : Buckets) : Except GoError Int32 :=
  match dbGetIndexMeta db keyTipHeightIndexed with
  | none => .ok (-1)
  | some heightBytes =>
    if heightBytes.length ≠ 4 then
      .error (.other ("invalid tip height encoding: got " ++ toString heightBytes.length ++ " bytes"))
    else .ok (UInt32.ofNat (Bytes.leNat heightBytes)).toInt32

def dbPutIndexVersion (db : Buckets) (version : UInt16) : Buckets :=
  dbPutIndexMeta db keyIndexVersion (Bytes.le 2 version.toNat)

/-- The accumulator, the identity if none is stored. -/
def dbGetAccumulatorState (db : Buckets) : Except GoError MuHash :=
  match dbGetIndexMeta db keyAccumulatorState with
  | none => .ok MuHash.new
  | some data => wrapError "failed to deserialize accumulator: " (MuHash.deserialize data)

def dbPutAccumulatorState (db : Buckets) (mh : MuHash) : Buckets :=
  dbPutIndexMeta db keyAccumulatorState (MuHash.serialize mh)

/-- The hash the accumulator belongs to, zero if none is stored. -/
def dbGetAccumulatorTipHash (db : Buckets) : Except GoError Hash :=
  match dbGetIndexMeta db keyAccumulatorTipHash with
  | none => .ok Hash.zero
  | some data =>
    if data.length ≠ 32 then
      .error (.other ("invalid accumulator tip hash length: got " ++ toString data.length ++
        ", want 32"))
    else .ok (hashOfBytes data)

def dbPutAccumulatorTipHash (db : Buckets) (hash : Hash) : Buckets :=
  dbPutIndexMeta db keyAccumulatorTipHash hash.bytes.val

/-- What the accumulator hashes for an indexed output. -/
def computeEntryData (op : OutPoint) (expiryKey : UInt64) : Bytes :=
  op.hash.bytes.val ++ Bytes.le 4 op.index.toNat ++ Bytes.be 8 expiryKey.toNat

/-- `Create`: `createExpiryIndexBuckets`, and the version. -/
def createIndex : Buckets :=
  dbPutIndexVersion ⟨∅, ∅, ∅, ∅, ∅⟩ currentIndexVersion

/-! ## Reading back what was stored -/

@[simp] theorem dbGetIndexMeta_put (db : Buckets) (k k' value : Bytes) :
    dbGetIndexMeta (dbPutIndexMeta db k value) k' =
      if k = k' then some value else dbGetIndexMeta db k' := by
  simp [dbGetIndexMeta, dbPutIndexMeta]

section Keys

variable (db : Buckets) (height : Int32) (mh : MuHash) (hash : Hash)

@[simp] theorem dbGetTipHeightIndexed_put :
    dbGetTipHeightIndexed (dbPutTipHeightIndexed db height) = .ok height := by
  have hlt : height.toUInt32.toNat < 256 ^ 4 := height.toUInt32.toNat_lt
  simp [dbGetTipHeightIndexed, dbPutTipHeightIndexed, Bytes.leNat_le_of_lt hlt]

@[simp] theorem dbGetAccumulatorTipHash_put :
    dbGetAccumulatorTipHash (dbPutAccumulatorTipHash db hash) = .ok hash := by
  simp [dbGetAccumulatorTipHash, dbPutAccumulatorTipHash]

theorem dbGetAccumulatorState_put (h : mh.Reduced muhashPrime) :
    dbGetAccumulatorState (dbPutAccumulatorState db mh) = .ok mh := by
  simp [dbGetAccumulatorState, dbPutAccumulatorState, MuHash.deserialize_serialize h, wrapError]

-- The records do not disturb each other.

@[simp] theorem dbGetAccumulatorTipHash_putHeight :
    dbGetAccumulatorTipHash (dbPutTipHeightIndexed db height) = dbGetAccumulatorTipHash db := by
  simp +decide [dbGetAccumulatorTipHash, dbPutTipHeightIndexed]

@[simp] theorem dbGetAccumulatorState_putHeight :
    dbGetAccumulatorState (dbPutTipHeightIndexed db height) = dbGetAccumulatorState db := by
  simp +decide [dbGetAccumulatorState, dbPutTipHeightIndexed]

@[simp] theorem dbGetAccumulatorState_putTipHash :
    dbGetAccumulatorState (dbPutAccumulatorTipHash db hash) = dbGetAccumulatorState db := by
  simp +decide [dbGetAccumulatorState, dbPutAccumulatorTipHash]

end Keys

end Obtcd.ExpiryIndex
