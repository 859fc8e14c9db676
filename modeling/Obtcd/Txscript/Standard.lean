import Obtcd.Blockchain.Error
import Obtcd.Txscript

/-!
# Building standard scripts, and counting their signature operations

The rest of the script builder that mining needs: numbers, and `PayToAddrScript` with the script of
each kind of address.  A payout script starts with one of five opcodes, and `OP_RETURN` is none of
them (`payToAddrScript_head`): no payout can be taken for a commitment.

`GetSigOpCount` counts the signature operations of a script up to where it stops parsing.
-/

namespace Obtcd.Txscript

/-! ## Numbers -/

/-- The magnitude of a number in bytes, the lowest first. -/
def magnitude (n : Nat) : Bytes :=
  if n = 0 then [] else Bytes.le (n.log2 / 8 + 1) n

/-- `scriptNum.Bytes`, of a number that has a magnitude of 64 bits. -/
def scriptNumBytes (n : Int) : Bytes :=
  let result := magnitude n.natAbs
  if result.getLastD 0 &&& 0x80 ≠ 0 then result ++ [if n < 0 then 0x80 else 0x00]
  else if n < 0 then result.dropLast ++ [result.getLastD 0 ||| 0x80]
  else result

/-- `ScriptBuilder.AddInt64`. -/
def addInt64 (script : Bytes) (val : Int64) : Except String Bytes :=
  if script.length + 1 > maxScriptSize then
    .error ("adding an integer would exceed the maximum allow canonical script length of " ++
      toString maxScriptSize)
  else if val = 0 then .ok (script ++ [op0])
  else if val = -1 || (val ≥ 1 && val ≤ 16) then
    .ok (script ++ [UInt8.ofNat ((op1.toNat - 1 + val.toInt) % 256).toNat])
  else if val = Int64.minValue then
    -- `scriptNum.Bytes` panics: the magnitude wraps around
    .error "runtime error: index out of range [-1]"
  else addData script (scriptNumBytes val.toInt)

/-! ## Addresses -/

def op16 : UInt8 := 0x60
def opDup : UInt8 := 0x76
def opEqual : UInt8 := 0x87
def opEqualVerify : UInt8 := 0x88
def opHash160 : UInt8 := 0xa9
def opCheckSig : UInt8 := 0xac
def opCheckSigVerify : UInt8 := 0xad
def opCheckMultiSig : UInt8 := 0xae
def opCheckMultiSigVerify : UInt8 := 0xaf

/-- `btcutil.Address`: the kinds of address, each with its `ScriptAddress`.  A public key is
serialized compressed, uncompressed or in the hybrid format. -/
inductive Address where
  | pubKeyHash (hash : Bytes.Sized 20)
  | scriptHash (hash : Bytes.Sized 20)
  | pubKey (serialized : Bytes) (length : serialized.length = 33 ∨ serialized.length = 65)
  | witnessPubKeyHash (program : Bytes.Sized 20)
  | witnessScriptHash (program : Bytes.Sized 32)
  | taproot (program : Bytes.Sized 32)

/-- One call of the builder. -/
inductive Piece where
  | op (opcode : UInt8)
  | data (bytes : Bytes)
  | int (val : Int64)

/-- A call of the builder on the script so far. -/
def Piece.addTo (script : Bytes) : Piece → Except String Bytes
  | .op opcode => addOp script opcode
  | .data bytes => addData script bytes
  | .int val => addInt64 script val

/-- A chain of calls of the builder: the first that fails ends it. -/
def build (pieces : List Piece) : Except String Bytes := pieces.foldlM Piece.addTo []

/-- `PayToAddrScript`, with the scripts that it hands out. -/
def payToAddrScript : Address → Except String Bytes
  | .pubKeyHash hash =>
    build [.op opDup, .op opHash160, .data hash.val, .op opEqualVerify, .op opCheckSig]
  | .scriptHash hash => build [.op opHash160, .data hash.val, .op opEqual]
  | .pubKey serialized _ => build [.data serialized, .op opCheckSig]
  | .witnessPubKeyHash program => build [.op op0, .data program.val]
  | .witnessScriptHash program => build [.op op0, .data program.val]
  | .taproot program => build [.op op1, .data program.val]

variable {script script' : Bytes}

theorem addData_ok {data : Bytes} (h : addData script data = .ok script') :
    data.length ≤ maxScriptElementSize ∧ script' = script ++ pushData data := by
  rw [addData] at h
  split_ifs at h
  · exact ⟨not_lt.1 ‹_›, (Except.ok.inj h).symm⟩

theorem addOp_ok {opcode : UInt8} (h : addOp script opcode = .ok script') :
    script' = script ++ [opcode] := by
  rw [addOp] at h
  split_ifs at h
  · exact (Except.ok.inj h).symm

/-- A number is pushed by an opcode of its own, or as data. -/
theorem addInt64_ok {val : Int64} (h : addInt64 script val = .ok script') :
    (val = 0 ∧ script' = script ++ [op0]) ∨
      ((val = -1 ∨ 1 ≤ val ∧ val ≤ 16) ∧
        script' = script ++ [UInt8.ofNat ((op1.toNat - 1 + val.toInt) % 256).toNat]) ∨
      addData script (scriptNumBytes val.toInt) = .ok script' := by
  rw [addInt64] at h
  split at h
  · cases h
  split at h
  · exact .inl ⟨‹_›, (Except.ok.inj h).symm⟩
  split at h
  · rename_i hsmall
    exact .inr (.inl ⟨by simpa using hsmall, (Except.ok.inj h).symm⟩)
  split_ifs at h
  · exact .inr (.inr h)

theorem isPrefix_addTo {piece : Piece} (h : piece.addTo script = .ok script') :
    script <+: script' := by
  cases piece with
  | op opcode => exact ⟨_, (addOp_ok h).symm⟩
  | data bytes => exact ⟨_, (addData_ok h).2.symm⟩
  | int val =>
    rcases addInt64_ok h with ⟨-, rfl⟩ | ⟨-, rfl⟩ | hdata
    · exact List.prefix_append ..
    · exact List.prefix_append ..
    · exact ⟨_, (addData_ok hdata).2.symm⟩

theorem isPrefix_foldlM {pieces : List Piece} (h : pieces.foldlM Piece.addTo script = .ok script') :
    script <+: script' := by
  induction pieces generalizing script with
  | nil =>
    obtain rfl : script = script' := Except.ok.inj h
    exact List.prefix_rfl
  | cons piece pieces ih =>
    rw [List.foldlM_cons] at h
    obtain ⟨next, hnext, hrest⟩ := bind_eq_ok.1 h
    exact (isPrefix_addTo hnext).trans (ih hrest)

/-- A script starts with the byte that its first piece starts with. -/
theorem head_build {piece : Piece} {pieces : List Piece} {first : UInt8} {rest : Bytes}
    (hfirst : piece.addTo [] = .ok (first :: rest)) (h : build (piece :: pieces) = .ok script) :
    script.head? = some first := by
  rw [build, List.foldlM_cons, hfirst] at h
  obtain ⟨tail, rfl⟩ := isPrefix_foldlM h
  rfl

/-- A short datum is pushed by the opcode of its length. -/
theorem addData_nil {data : Bytes} (hmin : 2 ≤ data.length)
    (hshort : data.length < opPushData1.toNat) :
    addData [] data = .ok (UInt8.ofNat data.length :: data) := by
  match data, hmin with
  | a :: b :: rest, _ =>
    have hlen : (a :: b :: rest).length < 76 := hshort
    have hcanonical : canonicalDataSize (a :: b :: rest) = 1 + (a :: b :: rest).length :=
      if_pos hshort
    have hpush : pushData (a :: b :: rest) =
        UInt8.ofNat (a :: b :: rest).length :: a :: b :: rest := if_pos hshort
    have hsize : ¬ ([] : Bytes).length + (1 + (a :: b :: rest).length) > maxScriptSize := by
      rw [List.length_nil, maxScriptSize]
      omega
    have helement : ¬ (a :: b :: rest).length > maxScriptElementSize := by
      rw [maxScriptElementSize]
      omega
    rw [addData, hcanonical, if_neg hsize, if_neg helement, hpush]
    rfl

theorem payToAddrScript_head {addr : Address} (h : payToAddrScript addr = .ok script) :
    script.head? ≠ some opReturn := by
  cases addr with
  | pubKeyHash hash => rw [head_build rfl h]; decide
  | scriptHash hash => rw [head_build rfl h]; decide
  | pubKey serialized length =>
    have hshort : serialized.length < opPushData1.toNat := by
      rcases length with hlen | hlen <;> rw [hlen] <;> decide
    have hfirst : Piece.addTo [] (.data serialized) =
        .ok (UInt8.ofNat serialized.length :: serialized) := addData_nil (by omega) hshort
    rw [head_build hfirst h]
    rcases length with hlen | hlen <;> rw [hlen] <;> decide
  | witnessPubKeyHash program => rw [head_build rfl h]; decide
  | witnessScriptHash program => rw [head_build rfl h]; decide
  | taproot program => rw [head_build rfl h]; decide

/-! ## Signature operations -/

def maxPubKeysPerMultiSig : Nat := 20

/-- What one opcode counts for in `countSigOpsV0`, without precise counting. -/
def sigOps (tok : Token) : Nat :=
  if tok.opcode = opCheckSig || tok.opcode = opCheckSigVerify then 1
  else if tok.opcode = opCheckMultiSig || tok.opcode = opCheckMultiSigVerify then
    maxPubKeysPerMultiSig
  else 0

def getSigOpCount (script : Bytes) : Nat := ((spans script).map fun s => sigOps s.1).sum

/-- A script that returns and pushes data has no signature operations. -/
theorem getSigOpCount_return {op : UInt8} {data : Bytes} (hpos : 0 < op.toNat)
    (hlt : op.toNat < 0x4c) (hlen : data.length = op.toNat) :
    getSigOpCount (opReturn :: op :: data) = 0 := by
  have hne : ∀ {other : UInt8}, 0x4c ≤ other.toNat → op ≠ other := by
    rintro other hother rfl
    omega
  have hreturn : next opReturn (op :: data) = some (⟨opReturn, none⟩, op :: data) := rfl
  have hpush : next op data = some (⟨op, some data⟩, []) := by
    have h1 : (op == opPushData1) = false := beq_eq_false_iff_ne.2 (hne (by decide))
    have h2 : (op == opPushData2) = false := beq_eq_false_iff_ne.2 (hne (by decide))
    have h4 : (op == opPushData4) = false := beq_eq_false_iff_ne.2 (hne (by decide))
    rw [next, h1, h2, h4]
    rw [← hlen] at hpos hlt
    simp [hpos, hlt, ← hlen]
  have hcount : sigOps ⟨op, some data⟩ = 0 := by
    have hsig : op ≠ opCheckSig := hne (by decide)
    have hverify : op ≠ opCheckSigVerify := hne (by decide)
    have hmulti : op ≠ opCheckMultiSig := hne (by decide)
    have hmultiVerify : op ≠ opCheckMultiSigVerify := hne (by decide)
    simp [sigOps, hsig, hverify, hmulti, hmultiVerify]
  rw [getSigOpCount, spans, List.length_cons, List.length_cons, spansFuel, hreturn]
  dsimp only
  rw [spansFuel, hpush]
  dsimp only
  rw [spansFuel, List.map_cons, List.map_cons, hcount]
  rfl

end Obtcd.Txscript
