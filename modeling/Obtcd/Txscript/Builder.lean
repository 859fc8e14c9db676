import Obtcd.Txscript.Remove
import Obtcd.Txscript.SigVerify

/-!
# What a built script pushes

A `ScriptBuilder` writes data with the smallest opcode that pushes it: a number opcode for one small
byte, else one of the opcodes that carry a length.  This module is about reading such a script back
and executing it.  Each call of the builder appends one opcode (`exists_realises`), so the script has
one opcode for each call, and executing that opcode pushes the data of the call
(`tokenize_build`).  The one exception is a single zero byte, which `OP_0` stands for and which comes
out as the empty string.
-/

namespace Obtcd

open List

namespace Txscript

/-! ## Executing a push -/

/-- The name of an opcode up to `OP_PUSHDATA4`. -/
def pushName (op : UInt8) : String :=
  if op = op0 then "OP_0"
  else if op < opPushData1 then "OP_DATA_" ++ toString op.toNat
  else "OP_PUSHDATA" ++ toString (2 ^ (op.toNat - opPushData1.toNat))

/-- Data pushed with the wrong opcode. -/
def expectOpcode (op opcode : UInt8) (what name : String) : Except VmError Unit :=
  require (op = opcode) (.script .errMinimalData
    (what ++ " encoded with opcode " ++ pushName op ++ " instead of " ++ name))

def checkMinimalDataPush (op : UInt8) (data : Bytes) : Except VmError Unit :=
  let bytes := "data push of " ++ toString data.length ++ " bytes"
  match data with
  | [] => expectOpcode op op0 "zero length data push is" "OP_0"
  | [b] =>
    if 1 ≤ b ∧ b ≤ 16 then
      expectOpcode op (op1 + b - 1) ("data push of the value " ++ toString b.toNat)
        ("OP_" ++ toString b.toNat)
    else if b = 0x81 then expectOpcode op op1Negate "data push of the value -1" "OP_1NEGATE"
    else expectOpcode op 1 bytes "OP_DATA_1"
  | _ =>
    if data.length ≤ 75 then
      expectOpcode op (.ofNat data.length) bytes ("OP_DATA_" ++ toString data.length)
    else if data.length ≤ 255 then expectOpcode op opPushData1 bytes "OP_PUSHDATA1"
    else if data.length ≤ 65535 then expectOpcode op opPushData2 bytes "OP_PUSHDATA2"
    else .ok ()

/-- What the handler of an opcode pushes: `opcodeFalse`, `opcodePushData`, `opcode1Negate` and
`opcodeN`. -/
def handlePush (op : UInt8) (data : Bytes) : Bytes :=
  if op = op0 then []
  else if op ≤ opPushData4 then data
  else if op = op1Negate then scriptNumBytes (-1)
  else scriptNumBytes (op - (op1 - 1)).toNat

/-- `executeOpcode` on an opcode that pushes data, in a branch that is executed. -/
def executePush (verifyMinimalData : Bool) (tok : Token) (dstack : List Bytes) :
    Except VmError (List Bytes) := do
  let data := tok.data.getD []
  require (data.length ≤ maxScriptElementSize) (.script .errElementTooBig
    ("element size " ++ toString data.length ++ " exceeds max allowed size " ++
      toString maxScriptElementSize))
  (if verifyMinimalData ∧ tok.opcode ≤ opPushData4 then checkMinimalDataPush tok.opcode data
    else .ok ())
  return handlePush tok.opcode data :: dstack

/-! ## What is written -/

/-- An opcode that carries no data. -/
def CarriesNoData (op : UInt8) : Prop := op = op0 ∨ opPushData4 < op

/-- Executing the opcode pushes the bytes. -/
def Pushes (tok : Token) (bytes : Bytes) : Prop :=
  ∀ verifyMinimalData dstack, executePush verifyMinimalData tok dstack = .ok (bytes :: dstack)

/-- What an opcode has to do for a call. -/
def Piece.Realises : Piece → Token → Prop
  | .op opcode, tok => tok = ⟨opcode, none⟩
  | .data bytes, tok => Pushes tok (if bytes = [0] then [] else bytes)
  | .int val, tok => Pushes tok (scriptNumBytes val.toInt)

variable {op : UInt8} {data script script' : Bytes}

theorem spells_of_next {tok : Token} {body : Bytes} (h : next op body = some (tok, [])) :
    Spells (tok, op :: body) := by
  obtain ⟨rfl, body', rfl, hnext⟩ := next_spells h
  exact ⟨body', by rw [append_nil], hnext⟩

theorem spells_op (h : CarriesNoData op) : Spells (⟨op, none⟩, [op]) := by
  refine spells_of_next ?_
  rcases h with rfl | h
  · rfl
  · have hlt : 0x4e < op.toNat := UInt8.lt_iff_toNat_lt.1 h
    have hne : ∀ op' : UInt8, op'.toNat ≤ 0x4e → (op == op') = false := by
      intro op' hle
      rw [beq_eq_false_iff_ne]
      rintro rfl
      omega
    rw [next, hne opPushData1 (by decide), hne opPushData2 (by decide), hne opPushData4 (by decide)]
    simp
    omega

/-- An opcode that is the right one for its data is executed. -/
theorem pushes_of_minimal {d : Option Bytes} (hlen : (d.getD []).length ≤ maxScriptElementSize)
    (hmin : op ≤ opPushData4 → checkMinimalDataPush op (d.getD []) = .ok ()) :
    Pushes ⟨op, d⟩ (handlePush op (d.getD [])) := by
  intro flag dstack
  rw [executePush, require_eq_ok.2 hlen, ok_bind]
  split
  · rw [hmin (‹_ ∧ _›).2]
    rfl
  · rfl

theorem pushes_none (h : opPushData4 < op) : Pushes ⟨op, none⟩ (handlePush op []) :=
  pushes_of_minimal (Nat.zero_le _) fun hle => absurd h (UInt8.not_lt.2 hle)

/-- The opcodes of the small numbers, as `AddData` and `AddInt64` find them. -/
theorem pushes_small {k : Nat} (hk : 1 ≤ k) (hk' : k ≤ 16) :
    CarriesNoData (op1 - 1 + .ofNat k) ∧ Pushes ⟨op1 - 1 + .ofNat k, none⟩ [.ofNat k] ∧
      scriptNumBytes k = [.ofNat k] ∧
      UInt8.ofNat ((op1.toNat - 1 + k : Int) % 256).toNat = op1 - 1 + .ofNat k := by
  have hall : ∀ k : Fin 17, k ≠ 0 → opPushData4 < op1 - 1 + .ofNat k ∧
      handlePush (op1 - 1 + .ofNat k) [] = [.ofNat k] ∧ scriptNumBytes k = [.ofNat k] ∧
      UInt8.ofNat ((op1.toNat - 1 + k : Int) % 256).toNat = op1 - 1 + .ofNat k := by
    decide +kernel
  obtain ⟨hlt, hpush, hbytes⟩ := hall ⟨k, by omega⟩ (by simp [Fin.ext_iff]; omega)
  exact ⟨.inr hlt, hpush ▸ pushes_none hlt, hbytes⟩

/-- The opcodes that carry a length. -/
theorem pushes_long (hmin : 2 ≤ data.length) (hmax : data.length ≤ maxScriptElementSize)
    (hop : op = if data.length < 76 then UInt8.ofNat data.length
      else if data.length ≤ 0xff then opPushData1 else opPushData2) :
    Pushes ⟨op, some data⟩ data := by
  have hmax' : data.length ≤ 520 := hmax
  have hcheck : checkMinimalDataPush op data = .ok () := by
    match data, hmin with
    | a :: b :: rest, _ =>
      rw [hop]
      show (if _ then _ else if _ then _ else if _ then _ else _) = _
      split_ifs <;> first | omega | exact require_eq_ok.2 rfl
  have hop' : op ≠ op0 ∧ op ≤ opPushData4 := by
    rw [hop]
    split_ifs with hlt
    · have hnat : (UInt8.ofNat data.length).toNat = data.length := by
        rw [UInt8.toNat_ofNat']
        omega
      refine ⟨fun h => ?_, UInt8.le_iff_toNat_le.2 ?_⟩
      · rw [h] at hnat
        exact absurd hnat (by simp [op0]; omega)
      · rw [hnat]
        exact Nat.le_of_lt_succ (hlt.trans (by decide))
    · decide
    · decide
  have hpushes := pushes_of_minimal (d := some data) hmax fun _ => hcheck
  rwa [handlePush, if_neg hop'.1, if_pos hop'.2] at hpushes

theorem leNat_magnitude (m : Nat) : Bytes.leNat (magnitude m) = m := by
  rw [magnitude]
  split
  · rename_i hzero
    rw [hzero]
    rfl
  · rename_i hne
    refine Bytes.leNat_le_of_lt ?_
    rw [show 256 = 2 ^ 8 by rfl, ← Nat.pow_mul, ← Nat.log2_lt hne]
    omega

theorem scriptNumBytes_ne (z : Int) : scriptNumBytes z ≠ [0] := by
  intro h
  have hmag := leNat_magnitude z.natAbs
  rw [scriptNumBytes] at h
  split at h
  · rename_i htop
    rw [(append_inj' (h.trans (nil_append [0]).symm) rfl).1] at htop
    exact htop rfl
  split at h
  · have hlast := singleton_inj.1 (append_inj' (h.trans (nil_append [0]).symm) rfl).2
    have hle := Nat.right_le_or (n := ((magnitude z.natAbs).getLastD 0).toNat) (m := 128)
    have hnat := congrArg UInt8.toNat hlast
    rw [UInt8.toNat_or] at hnat
    exact absurd (hnat ▸ hle) (by decide)
  · rw [h] at hmag
    rw [← hmag] at h
    cases h

theorem exists_pushData (hmax : data.length ≤ maxScriptElementSize) :
    ∃ tok, Spells (tok, pushData data) ∧ Pushes tok (if data = [0] then [] else data) := by
  have hempty : Pushes ⟨op0, none⟩ [] := fun flag _ => by cases flag <;> rfl
  match data with
  | [] => exact ⟨_, spells_op (.inl rfl), hempty⟩
  | [b] =>
    rw [pushData]
    by_cases hzero : b = 0
    · subst hzero
      exact ⟨_, spells_op (.inl rfl), hempty⟩
    have hpos : b.toNat ≠ 0 := fun h => hzero (UInt8.toNat_inj.1 h)
    have hdata : (if [b] = [0] then [] else [b]) = [b] := if_neg (by simpa using hzero)
    rw [hdata, if_neg (by simpa using hzero)]
    by_cases hsmall : b ≤ 16
    · obtain ⟨hop, hpush, -⟩ := pushes_small (Nat.pos_of_ne_zero hpos) (UInt8.le_iff_toNat_le.1 hsmall)
      rw [UInt8.ofNat_toNat] at hop hpush
      rw [if_pos hsmall]
      exact ⟨_, spells_op hop, hpush⟩
    rw [if_neg hsmall]
    by_cases hneg : b = 0x81
    · subst hneg
      exact ⟨_, spells_op (.inr (by decide)), pushes_none (show opPushData4 < op1Negate by decide)⟩
    · rw [if_neg (by simpa using hneg)]
      refine ⟨⟨1, some [b]⟩, spells_of_next rfl,
        pushes_of_minimal (by simp [maxScriptElementSize]) fun _ => ?_⟩
      rw [Option.getD_some, checkMinimalDataPush, if_neg fun h => hsmall h.2, if_neg hneg]
      rfl
  | a :: b :: rest =>
    obtain ⟨op, body, hpush, hnext, hop⟩ :=
      next_pushData (show 2 ≤ (a :: b :: rest).length by simp) hmax
    rw [if_neg (by simp), hpush]
    exact ⟨_, spells_of_next hnext, pushes_long (by simp) hmax hop⟩

/-- One call appends one opcode. -/
theorem exists_realises {piece : Piece} (hop : ∀ op, piece = .op op → CarriesNoData op)
    (h : piece.addTo script = .ok script') :
    ∃ span, script' = script ++ span.2 ∧ Spells span ∧ piece.Realises span.1 := by
  cases piece with
  | op opcode => exact ⟨_, addOp_ok h, spells_op (hop opcode rfl), rfl⟩
  | data bytes =>
    obtain ⟨hmax, rfl⟩ := addData_ok h
    obtain ⟨tok, hspells, hpushes⟩ := exists_pushData hmax
    exact ⟨_, rfl, hspells, hpushes⟩
  | int val =>
    rcases addInt64_ok h with ⟨rfl, rfl⟩ | ⟨hsmall, rfl⟩ | hdata
    · exact ⟨_, rfl, spells_op (.inl rfl), fun flag _ => by cases flag <;> rfl⟩
    · rcases hsmall with rfl | ⟨hone, hle⟩
      · exact ⟨_, rfl, spells_op (.inr (by decide)),
          pushes_none (show opPushData4 < op1Negate by decide)⟩
      · have hone : 1 ≤ val.toInt := Int64.le_iff_toInt_le.1 hone
        have hle : val.toInt ≤ 16 := Int64.le_iff_toInt_le.1 hle
        obtain ⟨k, hk⟩ := Int.eq_ofNat_of_zero_le (show 0 ≤ val.toInt by omega)
        obtain ⟨hop, hpush, hbytes, hopcode⟩ := pushes_small (k := k) (by omega) (by omega)
        refine ⟨(⟨op1 - 1 + .ofNat k, none⟩, _), by rw [hk, hopcode], spells_op hop, ?_⟩
        show Pushes _ (scriptNumBytes val.toInt)
        rwa [hk, hbytes]
    · obtain ⟨hmax, rfl⟩ := addData_ok hdata
      obtain ⟨tok, hspells, hpushes⟩ := exists_pushData hmax
      rw [if_neg (scriptNumBytes_ne _)] at hpushes
      exact ⟨_, rfl, hspells, hpushes⟩

/-- **A built script pushes what was asked for**, one opcode for each call.  A single zero byte is
pushed as the empty string. -/
theorem tokenize_build {pieces : List Piece} (hops : ∀ op, .op op ∈ pieces → CarriesNoData op)
    (h : build pieces = .ok script) :
    ∃ toks, tokenize script = some toks ∧ Forall₂ Piece.Realises pieces toks := by
  have hrun : ∀ script₀, pieces.foldlM Piece.addTo script₀ = .ok script →
      ∃ spans : List (Token × Bytes), script = script₀ ++ spans.flatMap (·.2) ∧
        (∀ span ∈ spans, Spells span) ∧ Forall₂ Piece.Realises pieces (spans.map (·.1)) := by
    clear h
    induction pieces with
    | nil =>
      intro script₀ h
      exact ⟨[], by simpa using (Except.ok.inj h).symm, by simp, .nil⟩
    | cons piece pieces ih =>
      intro script₀ h
      rw [foldlM_cons] at h
      obtain ⟨script₁, hfirst, hrest⟩ := bind_eq_ok.1 h
      obtain ⟨span, rfl, hspells, hreal⟩ :=
        exists_realises (fun op hop => hops op (by simp [hop])) hfirst
      obtain ⟨spans, rfl, hall, hreals⟩ := ih (fun op hop => hops op (by simp [hop])) _ hrest
      exact ⟨span :: spans, by simp, forall_mem_cons.2 ⟨hspells, hall⟩, .cons hreal hreals⟩
  obtain ⟨spans, rfl, hall, hreals⟩ := hrun [] h
  exact ⟨_, tokenize_flatMap hall, hreals⟩

/-- A script of five calls. -/
theorem tokenize_build_sample :
    ∃ toks, tokenize [0x76, 0x02, 0x11, 0x12, 0x4f, 0x02, 0xf4, 0x01, 0x55] = some toks ∧
      Forall₂ Piece.Realises [.op opDup, .data [0x11, 0x12], .int (-1), .int 500, .data [5]] toks :=
  tokenize_build (by simp [CarriesNoData, opDup, opPushData4]) (by decide +kernel)

/-- A single zero byte comes out as the empty string. -/
theorem zero_byte_lost :
    build [.data [0x00]] = .ok [op0] ∧ tokenize [op0] = some [⟨op0, none⟩] ∧
      ∀ flag, executePush flag ⟨op0, none⟩ [] = .ok [[]] :=
  ⟨rfl, rfl, fun flag => by cases flag <;> rfl⟩

end Txscript

end Obtcd
