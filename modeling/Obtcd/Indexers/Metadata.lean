import Obtcd.Blockchain.Error
import Obtcd.Lib.BucketTree
import Obtcd.Lib.Commits
import Obtcd.Lib.Strconv

/-!
# The metadata buckets

The metadata of the database as `database.Tx` and `database.Bucket` show it to the index manager:
buckets nested in one root bucket, read in a `View` and changed in an `Update`, each of which is
committed as a whole or not at all.

A `database.Bucket` is an interface value, and `Bucket` returns nil for a bucket that does not exist.
A `Handle` is such a value: the path of a bucket, or nil.  Every method but those on nil handles is
the operation of `BucketTree`; a method on nil is a nil pointer dereference, and the panic passes
through the transaction and ends the process.

The raw keys under which ffldb stores the buckets are left out.  All that depends on them here is
the order of a full cursor, which meets the keys of a bucket before the buckets nested in it: their
raw keys start with `bidx`, and those of the keys with a bucket id, a number counted up from zero.
-/

namespace Obtcd.Indexers

/-- The metadata of the database. -/
abbrev Metadata := BucketTree Bytes Bytes

/-- A `database.Bucket`. -/
abbrev Handle := Option (List Bytes)

/-- What a method of a nil bucket does. -/
def nilDereference : GoError :=
  .panic "runtime error: invalid memory address or nil pointer dereference"

/-- The bucket a method is called on. -/
def Handle.deref : Handle → Except GoError (List Bytes)
  | some p => .ok p
  | none => .error nilDereference

namespace Metadata

/-- `Metadata`: the root bucket. -/
def rootBucket : Handle := some []

def bucket (db : Metadata) (b : Handle) (key : Bytes) : Except GoError Handle := do
  let p ← b.deref
  return if p ++ [key] ∈ db then some (p ++ [key]) else none

/-- The loop that goes down to a nested bucket, name by name. -/
def bucketAt (db : Metadata) : Handle → List Bytes → Except GoError Handle
  | b, [] => .ok b
  | b, name :: names => do
    let b ← bucket db b name
    bucketAt db b names

def get (db : Metadata) (b : Handle) (key : Bytes) : Except GoError (Option Bytes) := do
  let p ← b.deref
  return if key = [] then none else db.get? p key

/-- The entries of a bucket. -/
def entriesOf (db : Metadata) (p : List Bytes) : OrdMap Bytes Bytes := (db.entries? p).getD ∅

def put (db : Metadata) (b : Handle) (key value : Bytes) : Except GoError Metadata := do
  let p ← b.deref
  if key = [] then .error (.other "put requires a key")
  else .ok (db.setEntries p ((entriesOf db p).insert key value))

def delete (db : Metadata) (b : Handle) (key : Bytes) : Except GoError Metadata := do
  let p ← b.deref
  if key = [] then .ok db
  else .ok (db.setEntries p ((entriesOf db p).erase key))

/-- The bucket and all that is nested in it. -/
def deleteBucket (db : Metadata) (b : Handle) (key : Bytes) : Except GoError Metadata := do
  let p ← b.deref
  if p ++ [key] ∈ db then .ok (db.removeBucket p key)
  else .error (.other ("bucket " ++ Strconv.quote key ++ " does not exist"))

/-- What a full cursor points to. -/
inductive CursorItem where
  | key (k : Bytes)
  | bucket (k : Bytes)

/-- What a full cursor over a bucket meets, in order. -/
def cursor (db : Metadata) (p : List Bytes) : List CursorItem :=
  (entriesOf db p).keys.map .key ++ (db.subBuckets p).map .bucket

end Metadata

/-! ## Transactions -/

/-- A job on the database in several transactions. -/
abbrev DbM := Prog (Store Metadata GoError) GoError

/-- `db.View`. -/
def view {α : Type} (f : Metadata → Except GoError α) : DbM α := do
  let s ← get
  Prog.ofExcept (f s.cur)

/-- `db.Update`. -/
def update (f : Metadata → Except GoError Metadata) : DbM Unit := Store.update f

/-- `db.Update` of a function that also sets a variable of its caller. -/
def updateGet {α : Type} (f : Metadata → Except GoError (Metadata × α)) : DbM α := do
  let r ← view f
  update fun _ => .ok r.1
  return r.2

end Obtcd.Indexers
