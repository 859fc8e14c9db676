import Obtcd.Lib.Buffer
import Obtcd.Lib.Prog
import Obtcd.Wire

/-!
# Encoding and decoding transactions and blocks

`MsgTx.btcEncode` and `MsgBlock.btcEncode` are the wire encodings, with and without witnesses.  The
decoders `MsgTx.btcDecode`, `MsgBlock.btcDecode` and `MsgBlock.deserializeTxLoc` read them back from
an arbitrary byte string.

While a transaction is decoded its scripts and witness items live in one borrowed buffer, the
*slab*: `readScriptBuf` reads a script into what is left of it, and the caller moves on past the
script it got.  Only when the whole transaction has been read are the scripts copied, one behind the
other, into a buffer of their own size (`packScripts`).  A `Stream` is what the decoders share: the
bytes not yet read, the slab, and where what is left of the slab begins.

A decoder ends with a value, with an error it returns, or with a run-time panic: slicing a buffer
beyond its capacity is one.  `Abort` is what is not a value.  The eight bytes of scratch space for
numbers are not modelled, and neither is the free list the slab is borrowed from: the slab holds
anything at all when decoding begins, and what a failed read has put into it is never looked at.
-/

namespace Obtcd

inductive MessageEncoding
  | base
  | witness
deriving DecidableEq

structure MsgBlock where
  header : BlockHeader
  transactions : List MsgTx
deriving DecidableEq

structure TxLoc where
  txStart : Nat
  txLen : Nat
deriving DecidableEq

/-! ## Encoding -/

/-- `TxFlagMarker` and `WitnessFlag`, which announce a transaction with witnesses. -/
def txFlag : Bytes := [0x00, 0x01]

def MsgTx.btcEncode (enc : MessageEncoding) (tx : MsgTx) : Bytes :=
  let doWitness := enc = .witness ∧ tx.hasWitness = true
  Bytes.le 4 tx.version.toUInt32.toNat ++
    (if doWitness then txFlag else []) ++
    writeVarInt tx.txIn.length ++ tx.txIn.flatMap TxIn.write ++
    writeVarInt tx.txOut.length ++ tx.txOut.flatMap TxOut.write ++
    (if doWitness then tx.txIn.flatMap fun ti => writeTxWitness ti.witness else []) ++
    Bytes.le 4 tx.lockTime.toNat

theorem MsgTx.btcEncode_witness (tx : MsgTx) : tx.btcEncode .witness = tx.serialize := by
  by_cases h : tx.hasWitness = true <;> simp [btcEncode, serialize, serializeNoWitness, h, txFlag]

theorem MsgTx.btcEncode_base (tx : MsgTx) : tx.btcEncode .base = tx.serializeNoWitness := by
  simp [btcEncode, serializeNoWitness]

/-- `writeBlockHeaderBuf`. -/
def BlockHeader.write (bh : BlockHeader) : Bytes :=
  Bytes.le 4 bh.version.toUInt32.toNat ++ bh.prevBlock.bytes.val ++ bh.merkleRoot.bytes.val ++
    Bytes.le 4 bh.timestamp.toNat ++ Bytes.le 4 bh.bits.toNat ++ Bytes.le 4 bh.nonce.toNat

def MsgBlock.btcEncode (enc : MessageEncoding) (b : MsgBlock) : Bytes :=
  b.header.write ++ writeVarInt b.transactions.length ++
    b.transactions.flatMap (MsgTx.btcEncode enc)

namespace Wire

/-! ## Limits -/

def maxMessagePayload : Nat := 1024 * 1024 * 32

def maxBlockPayload : Nat := 4000000

def minTxInPayload : Nat := 9 + 32

def maxTxInPerMessage : Nat := maxMessagePayload / minTxInPayload + 1

def minTxOutPayload : Nat := 9

def maxTxOutPerMessage : Nat := maxMessagePayload / minTxOutPayload + 1

def minTxPayload : Nat := 10

def maxTxPerBlock : Nat := maxBlockPayload / minTxPayload + 1

def maxWitnessItemsPerInput : Nat := 4000000

/-- `maxWitnessItemSize`, which also bounds the scripts. -/
def maxWitnessItemSize : Nat := 4000000

def scriptSlabSize : Nat := 2 ^ 22

/-! ## How decoding can end early -/

/-- The errors the decoders return. -/
inductive DecodeError
  | eof
  | unexpectedEOF
  | message (func description : String)
  | superfluousWitnessRecord
deriving DecidableEq

/-- A decoder that does not end with a value returns an error or panics. -/
inductive Abort
  | error (err : DecodeError)
  | panic (text : String)
deriving DecidableEq

def messageError (func description : String) : Abort := .error (.message func description)

/-- The run-time panic of slicing up to `stop` where only `capacity` is there. -/
def sliceOutOfRange (stop capacity : Nat) : Abort :=
  .panic ("runtime error: slice bounds out of range [:" ++ toString stop ++ "] with capacity " ++
    toString capacity)

/-- What the decoders share: the bytes not yet read, the slab, and where what is left of the slab,
`sbuf` in the source, begins. -/
structure Stream where
  r : Bytes
  slab : Buffer UInt8
  sbuf : Nat := 0

abbrev DecM := Prog Stream Abort

/-! ## Numbers -/

/-- `io.ReadFull` into `n` bytes. -/
def readFull (n : Nat) : DecM (Bytes.Sized n) := do
  let s ← get
  set { s with r := s.r.drop n }
  if h : n ≤ s.r.length then return ⟨s.r.take n, by simp [h]⟩
  else throw (.error (if s.r = [] then .eof else .unexpectedEOF))

/-- `littleEndian.Uint16`, `Uint32` or `Uint64` of the next `w` bytes. -/
def readUint (w : Nat) : DecM Nat := do
  let bs ← readFull w
  return Bytes.leNat bs.val

/-- `fmt.Sprintf("%x", n)`. -/
def hex (n : Nat) : String := String.ofList (Nat.toDigits 16 n)

/-- One of the marked forms of a variable length integer: `w` bytes, of a value that no shorter form
could have held. -/
def readMarked (discriminant w min : Nat) : DecM Nat := do
  let rv ← readUint w
  Prog.require (min ≤ rv) (messageError "ReadVarInt"
    ("non-canonical varint " ++ hex rv ++ " - discriminant " ++ hex discriminant ++
      " must encode a value greater than " ++ hex min))
  return rv

/-- `ReadVarIntBuf`. -/
def readVarInt : DecM Nat := do
  let discriminant ← readUint 1
  if discriminant = 0xff then readMarked discriminant 8 0x100000000
  else if discriminant = 0xfe then readMarked discriminant 4 0x10000
  else if discriminant = 0xfd then readMarked discriminant 2 0xfd
  else return discriminant

/-- The refusal of a count that is larger than anything that fits. -/
def tooMany (func what : String) (count max : Nat) : Abort :=
  messageError func (what ++ " [count " ++ toString count ++ ", max " ++ toString max ++ "]")

/-! ## Scripts in the slab -/

/-- A script of at most `maxWitnessItemSize` bytes, read into the slab where what is
left of it begins. -/
def readScriptBuf (fieldName : String) : DecM Slice := do
  let count ← readVarInt
  Prog.require (count ≤ maxWitnessItemSize)
    (tooMany "readScript" (fieldName ++ " is larger than the max allowed size") count
      maxWitnessItemSize)
  let s ← get
  Prog.require (s.sbuf + count ≤ scriptSlabSize) (sliceOutOfRange count (scriptSlabSize - s.sbuf))
  let bs ← readFull count
  modify fun s => { s with slab := s.slab.store s.sbuf bs.val }
  return ⟨s.sbuf, count⟩

/-- `sbuf = sbuf[n:]`. -/
def advance (n : Nat) : DecM Unit := modify fun s => { s with sbuf := s.sbuf + n }

/-- A `TxIn` whose scripts are slices of a buffer. -/
structure RawTxIn where
  previousOutPoint : OutPoint
  signatureScript : Slice
  witness : List Slice := []
  sequence : UInt32

/-- A `TxOut` whose script is a slice of a buffer. -/
structure RawTxOut where
  value : Int64
  pkScript : Slice

/-- `readOutPointBuf`. -/
def readOutPoint : DecM OutPoint := do
  let hash ← readFull 32
  let index ← readUint 4
  return ⟨⟨hash⟩, UInt32.ofNat index⟩

/-- `readTxInBuf`. -/
def readTxIn : DecM RawTxIn := do
  let previousOutPoint ← readOutPoint
  let signatureScript ← readScriptBuf "transaction input signature script"
  let sequence ← readUint 4
  return { previousOutPoint, signatureScript, sequence := UInt32.ofNat sequence }

/-- `readTxOutBuf`. -/
def readTxOut : DecM RawTxOut := do
  let value ← readUint 8
  let pkScript ← readScriptBuf "transaction output public key script"
  return ⟨(UInt64.ofNat value).toInt64, pkScript⟩

/-! ## The loops of `MsgTx.btcDecode` -/

/-- A turn of the loop over the inputs. -/
def nextTxIn : DecM RawTxIn := do
  let ti ← readTxIn
  advance ti.signatureScript.len
  return ti

/-- A turn of the loop over the outputs. -/
def nextTxOut : DecM RawTxOut := do
  let out ← readTxOut
  advance out.pkScript.len
  return out

/-- A turn of the loop over the witness items of an input. -/
def nextWitnessItem : DecM Slice := do
  let item ← readScriptBuf "script witness item"
  advance item.len
  return item

/-- The witness of an input: how many items it has, and the items. -/
def readWitness : DecM (List Slice) := do
  let witCount ← readVarInt
  Prog.require (witCount ≤ maxWitnessItemsPerInput)
    (tooMany "MsgTx.BtcDecode" "too many witness items to fit into max message size" witCount
      maxWitnessItemsPerInput)
  Prog.times witCount nextWitnessItem

/-- The number of inputs, and whether witnesses have been announced: with the witness encoding a
number of zero is the marker of a flag. -/
def readTxInCount (enc : MessageEncoding) : DecM (Nat × Bool) := do
  let count ← readVarInt
  if count = 0 ∧ enc = .witness then do
    let flag ← readFull 1
    Prog.require (flag.val = [0x01])
      (messageError "MsgTx.BtcDecode" ("witness tx but flag byte is " ++ Bytes.hex flag.val))
    let count ← readVarInt
    return (count, true)
  else return (count, false)

/-- `MsgTx.HasWitness`, of inputs whose scripts are slices. -/
def hasWitness (txIn : List RawTxIn) : Bool := txIn.any fun ti => !ti.witness.isEmpty

/-- The witnesses of all the inputs, if they have been announced.  One at least has to have an
item. -/
def readTxWitness (flag : Bool) (txIn : List RawTxIn) : DecM (List RawTxIn) :=
  if flag then do
    let txIn ← txIn.mapM fun ti => do
      let witness ← readWitness
      return { ti with witness }
    Prog.require (hasWitness txIn = true) (.error .superfluousWitnessRecord)
    return txIn
  else return txIn

/-! ## Scripts in a buffer of their own -/

/-- The buffer the scripts are copied to, and how much of it is filled. -/
structure Packing where
  scripts : Buffer UInt8
  offset : Nat := 0

/-- Copy a script out of the slab to the end of what is filled of a buffer of `size` bytes. -/
def packScript (slab : Buffer UInt8) (size : Nat) (script : Slice) : Prog Packing Abort Slice := do
  let p ← get
  Prog.require (p.offset + script.len ≤ size) (sliceOutOfRange (p.offset + script.len) size)
  set (⟨p.scripts.store p.offset (slab.load script), p.offset + script.len⟩ : Packing)
  return ⟨p.offset, script.len⟩

/-- The signature script and the witness items of an input. -/
def packTxIn (slab : Buffer UInt8) (size : Nat) (ti : RawTxIn) : Prog Packing Abort RawTxIn := do
  let signatureScript ← packScript slab size ti.signatureScript
  let witness ← ti.witness.mapM (packScript slab size)
  return { ti with signatureScript, witness }

/-- The script of an output. -/
def packTxOut (slab : Buffer UInt8) (size : Nat) (out : RawTxOut) :
    Prog Packing Abort RawTxOut := do
  let pkScript ← packScript slab size out.pkScript
  return { out with pkScript }

/-- All the scripts of a transaction. -/
def packScripts (slab : Buffer UInt8) (size : Nat) (txIn : List RawTxIn) (txOut : List RawTxOut) :
    Prog Packing Abort (List RawTxIn × List RawTxOut) := do
  let txIn ← txIn.mapM (packTxIn slab size)
  let txOut ← txOut.mapM (packTxOut slab size)
  return (txIn, txOut)

/-- The number of script bytes of an input. -/
def RawTxIn.size (ti : RawTxIn) : Nat := ti.signatureScript.len + (ti.witness.map Slice.len).sum

def totalScriptSize (txIn : List RawTxIn) (txOut : List RawTxOut) : Nat :=
  (txIn.map RawTxIn.size).sum + (txOut.map fun out => out.pkScript.len).sum

/-- What an input is when the buffer of its slices holds `m`. -/
def RawTxIn.resolve (m : Buffer UInt8) (ti : RawTxIn) : TxIn :=
  ⟨ti.previousOutPoint, m.load ti.signatureScript, ti.witness.map m.load, ti.sequence⟩

/-- What an output is when the buffer of its slice holds `m`. -/
def RawTxOut.resolve (m : Buffer UInt8) (out : RawTxOut) : TxOut := ⟨out.value, m.load out.pkScript⟩

/-- The transaction, with its scripts in a buffer of their own, which is fresh. -/
def packTx (slab : Buffer UInt8) (version : Int32) (txIn : List RawTxIn) (txOut : List RawTxOut)
    (lockTime : UInt32) : Except Abort MsgTx :=
  match Prog.exec (packScripts slab (totalScriptSize txIn txOut) txIn txOut)
      { scripts := fun _ => 0 } with
  | (.ok (txIn, txOut), p) =>
    .ok ⟨version, txIn.map (RawTxIn.resolve p.scripts), txOut.map (RawTxOut.resolve p.scripts), lockTime⟩
  | (.error e, _) => .error e

/-! ## The decoders -/

/-- The end of `MsgTx.btcDecode`, from the witnesses on. -/
def decodeTail (version : Int32) (flag : Bool) (txIn : List RawTxIn) (txOut : List RawTxOut) :
    DecM MsgTx := do
  let txIn ← readTxWitness flag txIn
  let lockTime ← readUint 4
  let s ← get
  Prog.ofExcept (packTx s.slab version txIn txOut (UInt32.ofNat lockTime))

/-- The end of it, from the number of outputs on. -/
def decodeOutputs (version : Int32) (flag : Bool) (txIn : List RawTxIn) : DecM MsgTx := do
  let count ← readVarInt
  Prog.require (count ≤ maxTxOutPerMessage)
    (tooMany "MsgTx.BtcDecode" "too many output transactions to fit into max message size" count
      maxTxOutPerMessage)
  let txOut ← Prog.times count nextTxOut
  decodeTail version flag txIn txOut

/-- `MsgTx.btcDecode`, given all of the slab. -/
def decodeTx (enc : MessageEncoding) : DecM MsgTx := do
  modify fun s => { s with sbuf := 0 }
  let version ← readUint 4
  let (count, flag) ← readTxInCount enc
  Prog.require (count ≤ maxTxInPerMessage)
    (tooMany "MsgTx.BtcDecode" "too many input transactions to fit into max message size" count
      maxTxInPerMessage)
  let txIn ← Prog.times count nextTxIn
  decodeOutputs (UInt32.ofNat version).toInt32 flag txIn

/-- `readBlockHeaderBuf`. -/
def readBlockHeader : DecM BlockHeader := do
  let version ← readUint 4
  let prevBlock ← readFull 32
  let merkleRoot ← readFull 32
  let timestamp ← readUint 4
  let bits ← readUint 4
  let nonce ← readUint 4
  return ⟨(UInt32.ofNat version).toInt32, ⟨prevBlock⟩, ⟨merkleRoot⟩, UInt32.ofNat timestamp,
    UInt32.ofNat bits, UInt32.ofNat nonce⟩

/-- The header of a block and the number of its transactions. -/
def readTxCount (func : String) : DecM (BlockHeader × Nat) := do
  let header ← readBlockHeader
  let txCount ← readVarInt
  Prog.require (txCount ≤ maxTxPerBlock)
    (tooMany func "too many transactions to fit into a block" txCount maxTxPerBlock)
  return (header, txCount)

/-- `MsgBlock.BtcDecode`. -/
def decodeBlock (enc : MessageEncoding) : DecM MsgBlock := do
  let (header, txCount) ← readTxCount "MsgBlock.BtcDecode"
  let transactions ← Prog.times txCount (decodeTx enc)
  return ⟨header, transactions⟩

/-- A turn of the loop of `DeserializeTxLoc`, on a buffer that had `fullLen` bytes at first. -/
def decodeTxLoc (fullLen : Nat) : DecM (MsgTx × TxLoc) := do
  let before ← get
  let txStart := fullLen - before.r.length
  let tx ← decodeTx .witness
  let after ← get
  return (tx, ⟨txStart, fullLen - after.r.length - txStart⟩)

/-- `MsgBlock.DeserializeTxLoc`. -/
def decodeBlockTxLoc : DecM (MsgBlock × List TxLoc) := do
  let s ← get
  let (header, txCount) ← readTxCount "MsgBlock.DeserializeTxLoc"
  let read ← Prog.times txCount (decodeTxLoc s.r.length)
  return (⟨header, read.map Prod.fst⟩, read.map Prod.snd)

/-- Run a decoder on a byte string, with a slab that holds anything: what it ends with, and the
bytes it has left. -/
def decode {α : Type} (x : DecM α) (slab : Buffer UInt8) (r : Bytes) : Except Abort α × Bytes :=
  ((Prog.exec x { r, slab }).1, (Prog.exec x { r, slab }).2.r)

end Wire

def MsgTx.btcDecode (enc : MessageEncoding) (slab : Buffer UInt8) (r : Bytes) :
    Except Wire.Abort MsgTx × Bytes := Wire.decode (Wire.decodeTx enc) slab r

def MsgBlock.btcDecode (enc : MessageEncoding) (slab : Buffer UInt8) (r : Bytes) :
    Except Wire.Abort MsgBlock × Bytes := Wire.decode (Wire.decodeBlock enc) slab r

def MsgBlock.deserializeTxLoc (slab : Buffer UInt8) (r : Bytes) :
    Except Wire.Abort (MsgBlock × List TxLoc) × Bytes :=
  Wire.decode Wire.decodeBlockTxLoc slab r

end Obtcd
