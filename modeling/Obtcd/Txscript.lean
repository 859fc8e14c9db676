import Obtcd.Wire

/-!
# Scripts, as far as they are parsed

The consensus rules here never execute a script: they look at its first byte, at whether it parses,
and at the data it pushes.  This module models that part of package `txscript`: the tokenizer with
its error paths, `PushedData`, `IsUnspendable`, and the part of the script builder that lays out a
data push.

A tokenizer error is only ever compared with `nil`, so a failed parse is `none`.  The tokenizer's
loop is a recursion with the length of the script as fuel; every opcode consumes a byte
(`next_length_le`), so the fuel never runs out (`tokenize_cons`).
-/

namespace Obtcd

open Bytes List

namespace Txscript

def op0 : UInt8 := 0x00
def opData37 : UInt8 := 0x25
def opPushData1 : UInt8 := 0x4c
def opPushData2 : UInt8 := 0x4d
def opPushData4 : UInt8 := 0x4e
def op1Negate : UInt8 := 0x4f
def op1 : UInt8 := 0x51
def opReturn : UInt8 := 0x6a

/-- The longest script that can be executed. -/
def maxScriptSize : Nat := 10000
/-- The longest element that can be pushed. -/
def maxScriptElementSize : Nat := 520

/-! ## The tokenizer -/

/-- One parsed opcode, with the data it pushes.  An opcode that pushes nothing has no data, which
differs from pushing the empty string. -/
structure Token where
  opcode : UInt8
  data : Option Bytes
deriving DecidableEq

/-- An opcode that carries its data length in the next `w` bytes. -/
def nextPushData (op : UInt8) (w : Nat) (script : Bytes) : Option (Token × Bytes) :=
  if script.length < w then none
  else
    let dataLen := leNat (script.take w)
    let rest := script.drop w
    -- a length of 2³¹ or more reads as a negative int32
    if dataLen > rest.length || dataLen ≥ 2 ^ 31 then none
    else some (⟨op, some (rest.take dataLen)⟩, rest.drop dataLen)

/-- `ScriptTokenizer.Next` on the script that starts with the opcode `op`. -/
def next (op : UInt8) (script : Bytes) : Option (Token × Bytes) :=
  if op == opPushData1 then nextPushData op 1 script
  else if op == opPushData2 then nextPushData op 2 script
  else if op == opPushData4 then nextPushData op 4 script
  else if 0 < op.toNat && op.toNat < 0x4c then
    -- `OP_DATA_1` to `OP_DATA_75`
    if script.length < op.toNat then none
    else some (⟨op, some (script.take op.toNat)⟩, script.drop op.toNat)
  else some (⟨op, none⟩, script)

/-- The tokenizer run as far as it goes: the opcodes with the bytes each is written in, and whether
the end of the script was reached. -/
def spansFuel : Nat → Bytes → List (Token × Bytes) × Bool
  | _, [] => ([], true)
  | 0, _ :: _ => ([], false)
  | n + 1, op :: script =>
    match next op script with
    | none => ([], false)
    | some (tok, rest) =>
      ((tok, (op :: script).take ((op :: script).length - rest.length)) :: (spansFuel n rest).1,
        (spansFuel n rest).2)

/-- The opcodes of a script with their bytes, up to where the tokenizer stops. -/
def spans (script : Bytes) : List (Token × Bytes) := (spansFuel script.length script).1

/-- All tokens of a script, or nothing if the tokenizer stops with an error. -/
def tokenize (script : Bytes) : Option (List Token) :=
  if (spansFuel script.length script).2 then some ((spans script).map (·.1)) else none

variable {script : Bytes}

theorem nextPushData_spells {op : UInt8} {w : Nat} {rest : Bytes} {tok : Token}
    (h : nextPushData op w script = some (tok, rest)) :
    tok.opcode = op ∧ ∃ body, script = body ++ rest ∧
      ∀ rest', nextPushData op w (body ++ rest') = some (tok, rest') := by
  simp only [nextPushData, Bool.or_eq_true, decide_eq_true_eq] at h
  split at h
  · simp at h
  rename_i hw
  split at h
  · simp at h
  rename_i hlen
  obtain ⟨rfl, rfl⟩ := by simpa using h
  have hw' : (script.take w).length = w := by simp; omega
  have hdata : ((script.drop w).take (leNat (script.take w))).length =
      leNat (script.take w) := by simp at hlen ⊢; omega
  refine ⟨rfl, script.take w ++ (script.drop w).take (leNat (script.take w)), ?_, ?_⟩
  · rw [append_assoc, ← drop_drop, take_append_drop, take_append_drop]
  intro rest'
  rw [nextPushData, append_assoc, take_left' hw', drop_left' hw', if_neg (by simp; omega)]
  dsimp only
  rw [take_left' hdata, drop_left' hdata, if_neg (by simp at hlen ⊢; omega)]

/-- An opcode is written in bytes of its own: what follows them does not matter. -/
theorem next_spells {op : UInt8} {rest : Bytes} {tok : Token}
    (h : next op script = some (tok, rest)) :
    tok.opcode = op ∧ ∃ body, script = body ++ rest ∧
      ∀ rest', next op (body ++ rest') = some (tok, rest') := by
  simp only [next] at h ⊢
  split at h
  · simpa [*] using nextPushData_spells h
  split at h
  · simpa [*] using nextPushData_spells h
  split at h
  · simpa [*] using nextPushData_spells h
  split at h
  · split at h
    · simp at h
    rename_i hlen
    obtain ⟨rfl, rfl⟩ := by simpa using h
    have hbody : (script.take op.toNat).length = op.toNat := by simp; omega
    refine ⟨rfl, script.take op.toNat, by simp, fun rest' => ?_⟩
    have hlen' : ¬ (script.take op.toNat ++ rest').length < op.toNat := by
      rw [length_append]; omega
    simp_all [take_left' hbody, drop_left' hbody]
  · obtain ⟨rfl, rfl⟩ := by simpa using h
    exact ⟨rfl, [], by simp, fun rest' => by simp_all⟩

theorem next_length_le {op : UInt8} {rest : Bytes} {tok : Token}
    (h : next op script = some (tok, rest)) : rest.length ≤ script.length := by
  obtain ⟨-, body, rfl, -⟩ := next_spells h
  simp

/-- Once there is a unit of fuel for each byte, more of it changes nothing. -/
theorem spansFuel_eq_of_le {n m : Nat} (hn : script.length ≤ n) (hm : script.length ≤ m) :
    spansFuel n script = spansFuel m script := by
  induction n generalizing m script with
  | zero =>
    obtain rfl : script = [] := length_eq_zero_iff.1 (by omega)
    cases m <;> rfl
  | succ n ih =>
    cases script with
    | nil => cases m <;> rfl
    | cons op script =>
      cases m with
      | zero => simp at hm
      | succ m =>
        rw [length_cons] at hn hm
        rw [spansFuel, spansFuel]
        split
        · rfl
        · rename_i tok rest h
          have hle := next_length_le h
          rw [ih (m := m) (by omega) (by omega)]

/-- The tokenizer's step: one opcode, and the tokens of what it leaves. -/
theorem tokenize_cons (op : UInt8) (script : Bytes) :
    tokenize (op :: script) = (next op script).bind fun p => (tokenize p.2).map (p.1 :: ·) := by
  rw [tokenize, spans, length_cons, spansFuel]
  cases h : next op script with
  | none => rfl
  | some p =>
    obtain ⟨tok, rest⟩ := p
    rw [Option.bind_some, tokenize, spans]
    dsimp only
    have hfuel : spansFuel script.length rest = spansFuel rest.length rest :=
      spansFuel_eq_of_le (next_length_le h) le_rfl
    simp only [hfuel]
    cases (spansFuel rest.length rest).2 <;> rfl

/-- `checkScriptParses`: does the script parse? -/
def scriptParses (script : Bytes) : Bool := (tokenize script).isSome

/-- The data each opcode pushes, with an empty string for `OP_0`. -/
def pushedData (script : Bytes) : Option (List Bytes) :=
  (tokenize script).map fun toks => toks.filterMap fun tok =>
    match tok.data with
    | some data => some data
    | none => if tok.opcode == op0 then some [] else none

/-- Can no input ever spend an output with this script? -/
def isUnspendable (pkScript : Bytes) : Bool :=
  pkScript.head? == some opReturn || pkScript.length > maxScriptSize || !scriptParses pkScript

/-! ## The script builder -/

/-- `ScriptBuilder.AddOp`, on the script built so far. -/
def addOp (script : Bytes) (opcode : UInt8) : Except String Bytes :=
  if script.length + 1 > maxScriptSize then
    .error ("adding an opcode would exceed the maximum allowed canonical script length of " ++
      toString maxScriptSize)
  else .ok (script ++ [opcode])

def canonicalDataSize (data : Bytes) : Nat :=
  match data with
  | [] => 1
  | [b] => if b ≤ 16 || b == 0x81 then 1 else 2
  | _ =>
    if data.length < opPushData1.toNat then 1 + data.length
    else if data.length ≤ 0xff then 2 + data.length
    else if data.length ≤ 0xffff then 3 + data.length
    else 5 + data.length

/-- The bytes `addData` appends: the smallest opcode that pushes the data. -/
def pushData (data : Bytes) : Bytes :=
  match data with
  | [] => [op0]
  | [b] =>
    if b == 0 then [op0]
    else if b ≤ 16 then [op1 - 1 + b]
    else if b == 0x81 then [op1Negate]
    else [1, b]
  | _ =>
    if data.length < opPushData1.toNat then UInt8.ofNat data.length :: data
    else if data.length ≤ 0xff then opPushData1 :: UInt8.ofNat data.length :: data
    else if data.length ≤ 0xffff then opPushData2 :: (le 2 data.length ++ data)
    else opPushData4 :: (le 4 data.length ++ data)

/-- `ScriptBuilder.AddData`. -/
def addData (script data : Bytes) : Except String Bytes :=
  if script.length + canonicalDataSize data > maxScriptSize then
    .error ("adding " ++ toString (canonicalDataSize data) ++
      " bytes of data would exceed the maximum allowed canonical script length of " ++
      toString maxScriptSize)
  else if data.length > maxScriptElementSize then
    .error ("adding a data element of " ++ toString data.length ++
      " bytes would exceed the maximum allowed script element size of " ++
      toString maxScriptElementSize)
  else .ok (script ++ pushData data)

/-- What a length and its data read as. -/
theorem nextPushData_le (op : UInt8) {w : Nat} {data : Bytes} (hw : data.length < 256 ^ w)
    (hmax : data.length < 2 ^ 31) :
    nextPushData op w (le w data.length ++ data) = some (⟨op, some data⟩, []) := by
  have hlen : ¬ (le w data.length ++ data).length < w := by
    rw [length_append, length_le]
    omega
  have htake : (le w data.length ++ data).take w = le w data.length :=
    take_left' (by simp)
  have hdrop : (le w data.length ++ data).drop w = data := drop_left' (by simp)
  rw [nextPushData, if_neg hlen]
  rw [htake, hdrop, leNat_le_of_lt hw]
  have hguard : ¬ ((data.length > data.length || data.length ≥ 2 ^ 31) = true) := by
    simp only [Bool.or_eq_true, decide_eq_true_iff]
    omega
  rw [if_neg hguard, take_length, drop_length]

/-- Data that is pushed is found again, behind the opcode for its length. -/
theorem next_pushData {data : Bytes} (hmin : 2 ≤ data.length)
    (hmax : data.length ≤ maxScriptElementSize) :
    ∃ op body, pushData data = op :: body ∧ next op body = some (⟨op, some data⟩, []) ∧
      op = if data.length < 76 then UInt8.ofNat data.length
        else if data.length ≤ 0xff then opPushData1 else opPushData2 := by
  have hmax' : data.length ≤ 520 := hmax
  have hpush : pushData data =
      if data.length < opPushData1.toNat then UInt8.ofNat data.length :: data
      else if data.length ≤ 0xff then opPushData1 :: UInt8.ofNat data.length :: data
      else if data.length ≤ 0xffff then opPushData2 :: (le 2 data.length ++ data)
      else opPushData4 :: (le 4 data.length ++ data) := by
    match data, hmin with
    | _ :: _ :: _, _ => rfl
  have hone : le 1 data.length ++ data = UInt8.ofNat data.length :: data := rfl
  have hop : opPushData1.toNat = 76 := rfl
  rw [hpush, hop]
  split
  · rename_i hlt
    have hnat : (UInt8.ofNat data.length).toNat = data.length := by
      rw [UInt8.toNat_ofNat']
      omega
    refine ⟨UInt8.ofNat data.length, _, rfl, ?_, rfl⟩
    have hne : ∀ op : UInt8, 76 ≤ op.toNat → (UInt8.ofNat data.length == op) = false := by
      intro op hop'
      rw [beq_eq_false_iff_ne]
      rintro rfl
      omega
    have hrange : (0 < (UInt8.ofNat data.length).toNat && (UInt8.ofNat data.length).toNat < 0x4c) =
        true := by
      rw [hnat, Bool.and_eq_true, decide_eq_true_iff, decide_eq_true_iff]
      omega
    rw [next, hne opPushData1 (by decide), hne opPushData2 (by decide), hne opPushData4 (by decide),
      if_neg (by decide), if_neg (by decide), if_neg (by decide), if_pos hrange, hnat,
      if_neg (lt_irrefl _), take_length, drop_length]
  split
  · rename_i hle
    refine ⟨opPushData1, _, rfl, ?_, rfl⟩
    rw [next, if_pos (by decide), ← hone]
    exact nextPushData_le opPushData1 (by omega) (by omega)
  rw [if_pos (by omega)]
  refine ⟨opPushData2, _, rfl, ?_, rfl⟩
  rw [next, if_neg (by decide), if_pos (by decide)]
  exact nextPushData_le opPushData2 (by omega) (by omega)

/-- A script that returns and pushes some data pushes exactly that. -/
theorem pushedData_return {data : Bytes} (hmin : 2 ≤ data.length)
    (hmax : data.length ≤ maxScriptElementSize) :
    pushedData (opReturn :: pushData data) = some [data] := by
  obtain ⟨op, body, hpush, hnext, -⟩ := next_pushData hmin hmax
  have hret : next opReturn (pushData data) = some (⟨opReturn, none⟩, pushData data) := rfl
  rw [pushedData, tokenize_cons, hret]
  show ((tokenize (pushData data)).map (_ :: ·)).map _ = _
  rw [hpush, tokenize_cons, hnext]
  rfl

end Txscript

end Obtcd
