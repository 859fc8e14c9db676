import Obtcd.Lib.Bytes

/-!
# Files with unsynced writes

A file on disk is what has been synced and the writes since, oldest first.  A reader sees all of
them (`File.contents`).
-/

namespace Obtcd

/-- Overwrite part of a byte string from an offset on, after filling it up with zeros. -/
def Bytes.writeAt (b : Bytes) (off : Nat) (data : Bytes) : Bytes :=
  b.take off ++ List.replicate (off - b.length) 0 ++ data ++ b.drop (off + data.length)

namespace Bytes

/-- The part of a byte string from an offset on, of a length. -/
def slice (b : Bytes) (off len : Nat) : Bytes := (b.drop off).take len

end Bytes

/-- A file: what is synced, and the unsynced writes with their offsets, oldest first. -/
structure File where
  synced : Bytes
  writes : List (Nat × Bytes)

namespace File

/-- An empty file. -/
def empty : File := ⟨[], []⟩

/-- What the writes make of the synced part. -/
def settle (b : Bytes) (writes : List (Nat × Bytes)) : Bytes :=
  writes.foldl (fun b w => b.writeAt w.1 w.2) b

/-- What a reader sees. -/
def contents (f : File) : Bytes := settle f.synced f.writes

/-- Write at an offset. -/
def write (f : File) (off : Nat) (data : Bytes) : File :=
  { f with writes := f.writes ++ [(off, data)] }

/-- Bring all writes to the disk. -/
def sync (f : File) : File := ⟨f.contents, []⟩

end File

end Obtcd
