import Obtcd.Wire
import Obtcd.Lib.Crc32
import Obtcd.Lib.Disk

/-!
# The flat block files

The writing half of `database/ffldb/blockio.go`: blocks are appended to numbered flat files, each as
network, length, bytes and checksum, and the location of a block and the position of the next one are
kept as rows of the metadata.

A `BlockStore` is the block files together with the write cursor.  A file keeps apart what has been
synced and what has not (`Obtcd.File`).  Files are named by their number with nine digits, so that for numbers below `10^9`
the names sort as the numbers do, and the map of files is keyed by the number.  Input and output
errors other than a missing file are left out: writes go through.
-/

namespace Obtcd.Ffldb

open Std OrdMap

/-- `database.ErrorCode`, the codes raised by the block files and by transactions. -/
inductive DbErrorCode where
  | errTxNotWritable
  | errKeyRequired
  | errBlockExists
  | errDriverSpecific
deriving DecidableEq, Repr

/-- `database.Error`, or the run-time panic of an index out of range. -/
inductive DbError where
  | db (code : DbErrorCode) (description : String)
  | other (text : String)
  | panic
deriving DecidableEq, Repr

def maxBlockFileSize : UInt32 := 512 * 1024 * 1024

/-- The checksum of a byte string, `crc32.Checksum(data, castagnoli)`. -/
def checksum (data : Bytes) : UInt32 := Crc32.checksum Crc32.castagnoli data

structure BlockLocation where
  blockFileNum : UInt32
  fileOffset : UInt32
  blockLen : UInt32
deriving DecidableEq, Repr

/-- The number on four bytes in little-endian order, `byteOrder.PutUint32`. -/
def putUint32 (n : UInt32) : Bytes := Bytes.le 4 n.toNat

/-- `byteOrder.Uint32`. -/
def uint32 (b : Bytes) : UInt32 := UInt32.ofNat (Bytes.leNat b)

def serializeBlockLoc (loc : BlockLocation) : Bytes :=
  putUint32 loc.blockFileNum ++ putUint32 loc.fileOffset ++ putUint32 loc.blockLen

def deserializeBlockLoc (serializedLoc : Bytes) : BlockLocation where
  blockFileNum := uint32 (serializedLoc.slice 0 4)
  fileOffset := uint32 (serializedLoc.slice 4 4)
  blockLen := uint32 (serializedLoc.slice 8 4)

/-- `blockStore` with its `writeCursor`. -/
structure BlockStore where
  network : UInt32
  basePath : String
  maxBlockFileSize : UInt32
  /-- The block files on disk. -/
  files : OrdMap UInt32 File
  curFileNum : UInt32
  curOffset : UInt32
  /-- Is the current file open, `wc.curFile.file != nil`? -/
  curFileOpen : Bool

def blockFilePath (dbPath : String) (fileNum : UInt32) : String :=
  let digits := toString fileNum.toNat
  dbPath ++ "/" ++ String.ofList (List.replicate (9 - digits.length) '0') ++ digits ++ ".fdb"

/-! ## Writing -/

namespace BlockStore

/-- The file of the write cursor. -/
def curFile (s : BlockStore) : File := s.files[s.curFileNum]?.getD File.empty

/-- Close the current file and start writes into the next one, as `writeBlock` does when the block
does not fit. -/
def nextFile (s : BlockStore) : BlockStore :=
  { s with curFileNum := s.curFileNum + 1, curOffset := 0, curFileOpen := false }

/-- Open the current file if needed, which creates it if it is not there. -/
def openWriteFile (s : BlockStore) : BlockStore :=
  if s.curFileOpen then s
  else { s with files := s.files.insert s.curFileNum s.curFile, curFileOpen := true }

def writeData (s : BlockStore) (data : Bytes) : BlockStore :=
  { s with
    files := s.files.insert s.curFileNum (s.curFile.write s.curOffset.toNat data)
    curOffset := s.curOffset + UInt32.ofNat data.length }

/-- Does the block go to a new file?  `finalOffset` overflows or exceeds the maximum. -/
def rollsOver (s : BlockStore) (rawBlock : Bytes) : Bool :=
  let finalOffset := s.curOffset + (UInt32.ofNat rawBlock.length + 12)
  finalOffset < s.curOffset || s.maxBlockFileSize < finalOffset

/-- The store with the cursor where the block will be written. -/
def forBlock (s : BlockStore) (rawBlock : Bytes) : BlockStore :=
  openWriteFile (if s.rollsOver rawBlock then s.nextFile else s)

/-- Network, length and bytes of a block: what its checksum is about. -/
def recordBody (network : UInt32) (rawBlock : Bytes) : Bytes :=
  putUint32 network ++ putUint32 (UInt32.ofNat rawBlock.length) ++ rawBlock

def writeBlock (s : BlockStore) (rawBlock : Bytes) : BlockLocation × BlockStore :=
  let fullLen := UInt32.ofNat rawBlock.length + 12
  let s := s.forBlock rawBlock
  let s' := s.writeData (putUint32 s.network)
  let s' := s'.writeData (putUint32 (UInt32.ofNat rawBlock.length))
  let s' := s'.writeData rawBlock
  let s' := s'.writeData (Bytes.be 4 (checksum (recordBody s.network rawBlock)).toNat)
  (⟨s.curFileNum, s.curOffset, fullLen⟩, s')

/-- Sync the current file, if one is open. -/
def syncBlocks (s : BlockStore) : BlockStore :=
  if s.curFileOpen then { s with files := s.files.insert s.curFileNum s.curFile.sync } else s

/-! ## Opening and deleting -/

/-- `deleteFile`, after the file has been closed. -/
def deleteFile (s : BlockStore) (fileNum : UInt32) : Except DbError BlockStore :=
  if s.files.contains fileNum then .ok { s with files := s.files.erase fileNum }
  else
    .error (.db .errDriverSpecific ("remove " ++ blockFilePath s.basePath fileNum ++
      ": no such file or directory"))

/-- The first and the last file and the length of the last one, if there is a
file. -/
def scanBlockFiles (files : OrdMap UInt32 File) : Option (UInt32 × UInt32 × UInt32) :=
  match files.minKey?, files.maxKey? with
  | some firstFile, some lastFile =>
    some (firstFile, lastFile, UInt32.ofNat (files[lastFile]?.getD File.empty).contents.length)
  | _, _ => none

/-- The write cursor is at the end of the last file. -/
def newBlockStore (basePath : String) (network maxBlockFileSize : UInt32)
    (files : OrdMap UInt32 File) : BlockStore :=
  let cursor :=
    match scanBlockFiles files with
    | some (_, fileNum, fileOff) => (fileNum, fileOff)
    | none => (0, 0)
  { network, basePath, maxBlockFileSize, files, curFileNum := cursor.1, curOffset := cursor.2
    curFileOpen := false }

end BlockStore

def serializeWriteRow (curBlockFileNum curFileOffset : UInt32) : Bytes :=
  let row := putUint32 curBlockFileNum ++ putUint32 curFileOffset
  row ++ putUint32 (checksum row)

end Obtcd.Ffldb
