import Obtcd.Lib.OrdMap
import Obtcd.Lib.Sha256

/-!
# Transactions and blocks

The data of package `wire` that validation and the expiry index read: hashes, outpoints,
transactions and blocks, their serialization as far as a transaction hash, a block hash or a weight
depends on it, and `btcutil.Block`, which pairs a block with the height it was given.

Fields keep the machine types of the source: an amount is an `Int64`, a height an `Int32`, an
output index a `UInt32`.  Byte slices are lists, and a witness is a list of byte strings.

Outpoints and hashes are ordered by the bytes they are stored under, which makes them usable as
keys of an `OrdMap`.
-/

namespace Obtcd

open Std Bytes

/-- `chainhash.Hash`, an array of 32 bytes. -/
structure Hash where
  bytes : Bytes.Sized 32
deriving DecidableEq

namespace Hash

/-- The zero hash, `var hash chainhash.Hash`. -/
def zero : Hash := ⟨⟨List.replicate 32 0, rfl⟩⟩

/-- `Hash.String`: the bytes in reverse, in hexadecimal. -/
def string (h : Hash) : String := hex h.bytes.val.reverse

@[simp] theorem length_bytes (h : Hash) : h.bytes.val.length = 32 := h.bytes.property

theorem bytes_injective : Function.Injective fun h : Hash => h.bytes.val := by
  rintro ⟨a⟩ ⟨b⟩ h
  exact congrArg Hash.mk (Subtype.ext h)

instance : Ord Hash := ⟨compareOn fun h => h.bytes.val⟩
instance : TransOrd Hash := inferInstanceAs (TransCmp (compareOn fun h : Hash => h.bytes.val))
instance : LawfulEqOrd Hash := lawfulEqCmp_compareOn bytes_injective

end Hash

/-- `chainhash.DoubleHashRaw` of what has been written. -/
def doubleHashRaw (written : Bytes) : Hash := ⟨Sha256.sum256 (Sha256.sum256 written).val⟩

structure OutPoint where
  hash : Hash
  index : UInt32
deriving DecidableEq

namespace OutPoint

/-- The largest index, which marks the outpoint a coinbase spends (`math.MaxUint32`). -/
def maxIndex : UInt32 := 0xffffffff

/-- `writeOutPoint`: the hash and the little-endian index. -/
def write (op : OutPoint) : Bytes := op.hash.bytes.val ++ le 4 op.index.toNat

/-- `OutPoint.String`: `hash:index`. -/
def string (op : OutPoint) : String := op.hash.string ++ ":" ++ toString op.index.toNat

@[simp] theorem length_write (op : OutPoint) : op.write.length = 36 := by
  simp [write]

theorem write_injective : Function.Injective write := by
  rintro ⟨h, i⟩ ⟨h', i'⟩ heq
  obtain ⟨hh, hi⟩ := List.append_inj heq (by simp)
  have hidx : i.toNat = i'.toNat := le_inj i.toNat_lt i'.toNat_lt hi
  have hhash : h = h' := Hash.bytes_injective hh
  rw [hhash, UInt32.toNat_inj.1 hidx]

instance : Ord OutPoint := ⟨compareOn write⟩
instance : TransOrd OutPoint := inferInstanceAs (TransCmp (compareOn write))
instance : LawfulEqOrd OutPoint := lawfulEqCmp_compareOn write_injective

end OutPoint

structure TxIn where
  previousOutPoint : OutPoint
  signatureScript : Bytes := []
  witness : List Bytes := []
  sequence : UInt32 := 0xffffffff
deriving DecidableEq

structure TxOut where
  value : Int64
  pkScript : Bytes
deriving DecidableEq

structure MsgTx where
  version : Int32
  txIn : List TxIn
  txOut : List TxOut
  lockTime : UInt32 := 0
deriving DecidableEq

/-! ## Serialization -/

def writeVarInt (val : Nat) : Bytes :=
  if val < 0xfd then le 1 val
  else if val ≤ 0xffff then 0xfd :: le 2 val
  else if val ≤ 0xffffffff then 0xfe :: le 4 val
  else 0xff :: le 8 val

def varIntSerializeSize (val : Nat) : Nat :=
  if val < 0xfd then 1
  else if val ≤ 0xffff then 3
  else if val ≤ 0xffffffff then 5
  else 9

theorem varIntSerializeSize_mono {a b : Nat} (h : a ≤ b) :
    varIntSerializeSize a ≤ varIntSerializeSize b := by
  rw [varIntSerializeSize, varIntSerializeSize]
  split_ifs <;> omega

def writeVarBytes (bs : Bytes) : Bytes := writeVarInt bs.length ++ bs

def writeTxWitness (w : List Bytes) : Bytes := writeVarInt w.length ++ w.flatMap writeVarBytes

/-- `writeTxIn`. -/
def TxIn.write (ti : TxIn) : Bytes :=
  ti.previousOutPoint.write ++ writeVarBytes ti.signatureScript ++ le 4 ti.sequence.toNat

/-- `WriteTxOut`. -/
def TxOut.write (o : TxOut) : Bytes :=
  le 8 o.value.toUInt64.toNat ++ writeVarBytes o.pkScript

def TxIn.serializeSize (ti : TxIn) : Nat :=
  40 + varIntSerializeSize ti.signatureScript.length + ti.signatureScript.length

def TxOut.serializeSize (o : TxOut) : Nat :=
  8 + varIntSerializeSize o.pkScript.length + o.pkScript.length

/-- `TxWitness.SerializeSize`. -/
def witnessSerializeSize (w : List Bytes) : Nat :=
  varIntSerializeSize w.length + (w.map fun item => varIntSerializeSize item.length + item.length).sum

namespace MsgTx

def serializeNoWitness (tx : MsgTx) : Bytes :=
  le 4 tx.version.toUInt32.toNat ++
    writeVarInt tx.txIn.length ++ tx.txIn.flatMap TxIn.write ++
    writeVarInt tx.txOut.length ++ tx.txOut.flatMap TxOut.write ++
    le 4 tx.lockTime.toNat

def txHash (tx : MsgTx) : Hash := doubleHashRaw tx.serializeNoWitness

def hasWitness (tx : MsgTx) : Bool := tx.txIn.any fun ti => !ti.witness.isEmpty

/-- `MsgTx.Serialize`: marker, flag and witnesses only if there is a witness. -/
def serialize (tx : MsgTx) : Bytes :=
  if tx.hasWitness then
    le 4 tx.version.toUInt32.toNat ++ [0x00, 0x01] ++
      writeVarInt tx.txIn.length ++ tx.txIn.flatMap TxIn.write ++
      writeVarInt tx.txOut.length ++ tx.txOut.flatMap TxOut.write ++
      tx.txIn.flatMap (fun ti => writeTxWitness ti.witness) ++
      le 4 tx.lockTime.toNat
  else tx.serializeNoWitness

/-- `MsgTx.baseSize`, which is also `SerializeSizeStripped`. -/
def baseSize (tx : MsgTx) : Nat :=
  8 + varIntSerializeSize tx.txIn.length + varIntSerializeSize tx.txOut.length +
    (tx.txIn.map TxIn.serializeSize).sum + (tx.txOut.map TxOut.serializeSize).sum

def serializeSize (tx : MsgTx) : Nat :=
  if tx.hasWitness then
    tx.baseSize + 2 + (tx.txIn.map fun ti => witnessSerializeSize ti.witness).sum
  else tx.baseSize

/-- The outpoint of the transaction's output number `i`. -/
def outPoint (tx : MsgTx) (i : Nat) : OutPoint := ⟨tx.txHash, UInt32.ofNat i⟩

/-- The outpoints of all the transaction's outputs. -/
def outPoints (tx : MsgTx) : List OutPoint := (List.range tx.txOut.length).map tx.outPoint

end MsgTx

/-! ## Blocks -/

/-- `wire.BlockHeader`.  The timestamp is the 32-bit number that is serialized. -/
structure BlockHeader where
  version : Int32
  prevBlock : Hash
  merkleRoot : Hash
  timestamp : UInt32
  bits : UInt32
  nonce : UInt32
deriving DecidableEq

def BlockHeader.blockHash (bh : BlockHeader) : Hash :=
  doubleHashRaw <|
    le 4 bh.version.toUInt32.toNat ++ bh.prevBlock.bytes.val ++ bh.merkleRoot.bytes.val ++
      le 4 bh.timestamp.toNat ++ le 4 bh.bits.toNat ++ le 4 bh.nonce.toNat

/-- `btcutil.Block`: a block and the height it has been given. -/
structure Block where
  header : BlockHeader
  transactions : List MsgTx
  height : Int32
deriving DecidableEq

def Block.hash (b : Block) : Hash := b.header.blockHash

/-- The size of a serialized header (`wire.MaxBlockHeaderPayload`). -/
def blockHeaderLen : Nat := 80

/-- `MsgBlock.SerializeSizeStripped`. -/
def Block.serializeSizeStripped (b : Block) : Nat :=
  blockHeaderLen + varIntSerializeSize b.transactions.length +
    (b.transactions.map MsgTx.baseSize).sum

/-- `MsgBlock.SerializeSize`. -/
def Block.serializeSize (b : Block) : Nat :=
  blockHeaderLen + varIntSerializeSize b.transactions.length +
    (b.transactions.map MsgTx.serializeSize).sum

end Obtcd
