import Obtcd.Txscript.Sighash

/-!
# Taking opcodes out of a script, as the code does it

A signature is checked against a script without its `OP_CODESEPARATOR`s and without the signature
itself.  `removeOpcodeRaw` and `removeOpcodeByData` allocate the shorter script only when there is
something to take out: they walk over the script with the offset behind the previous opcode, copy
the script up to that offset at the first match, and from then on append the bytes of every opcode
that does not match.  The loop is here, and it computes what `Txscript.removeOpcodes` says in one
line (`loop_eq`).

That the result is a script again, with the opcodes that were kept and no others, is not a property
of the loop.  It holds because an opcode is written in bytes of its own (`next_spells`): put behind
one another, the bytes of any opcodes are read back as these opcodes (`spansFuel_flatMap`).  So a
second removal finds nothing.
-/

namespace Obtcd

open List

namespace Txscript

/-! ## The bytes of the opcodes -/

/-- A token and the bytes it is written in, whatever follows. -/
def Spells (span : Token × Bytes) : Prop :=
  ∃ body, span.2 = span.1.opcode :: body ∧
    ∀ rest, next span.1.opcode (body ++ rest) = some (span.1, rest)

variable {script : Bytes}

/-- The first opcode of a script, and the opcodes behind it. -/
theorem spansFuel_cons {n : Nat} {op : UInt8} {rest : Bytes} {tok : Token}
    (h : next op script = some (tok, rest)) :
    ∃ span, script = span ++ rest ∧ Spells (tok, op :: span) ∧
      spansFuel (n + 1) (op :: script) =
        ((tok, op :: span) :: (spansFuel n rest).1, (spansFuel n rest).2) := by
  obtain ⟨rfl, body, rfl, hnext⟩ := next_spells h
  refine ⟨body, rfl, ⟨body, rfl, hnext⟩, ?_⟩
  have htake : (tok.opcode :: (body ++ rest)).length - rest.length =
      (tok.opcode :: body).length := by
    simp only [length_cons, length_append]
    omega
  rw [spansFuel, h]
  dsimp only
  rw [htake, ← cons_append, take_left]

variable {ss : List (Token × Bytes)}

/-- Opcodes put behind one another are read back. -/
theorem spansFuel_flatMap (h : ∀ span ∈ ss, Spells span) {n : Nat}
    (hn : (ss.flatMap (·.2)).length ≤ n) : spansFuel n (ss.flatMap (·.2)) = (ss, true) := by
  induction ss generalizing n with
  | nil => cases n <;> rfl
  | cons span ss ih =>
    obtain ⟨body, hbytes, hnext⟩ := h span (by simp)
    obtain ⟨tok, bytes⟩ := span
    obtain rfl : bytes = tok.opcode :: body := hbytes
    rw [flatMap_cons, cons_append, length_cons, length_append] at hn
    obtain ⟨n, rfl⟩ : ∃ m, n = m + 1 := ⟨n - 1, by omega⟩
    obtain ⟨span, heq, -, hspans⟩ := spansFuel_cons (n := n) (hnext (ss.flatMap (·.2)))
    obtain rfl := append_cancel_right heq
    rw [flatMap_cons, cons_append, hspans, ih (fun s hs => h s (by simp [hs])) (by omega)]

/-- A script that is read to its end is the bytes of its opcodes, in order. -/
theorem flatMap_spansFuel {n : Nat} (h : (spansFuel n script).2 = true) :
    script = (spansFuel n script).1.flatMap (·.2) ∧
      ∀ span ∈ (spansFuel n script).1, Spells span := by
  induction n generalizing script with
  | zero =>
    cases script with
    | nil => exact ⟨rfl, by simp [spansFuel]⟩
    | cons op script => cases h
  | succ n ih =>
    cases script with
    | nil => exact ⟨rfl, by simp [spansFuel]⟩
    | cons op script =>
      cases hnext : next op script with
      | none => simp [spansFuel, hnext] at h
      | some p =>
        obtain ⟨tok, rest⟩ := p
        obtain ⟨span, rfl, hspells, hspans⟩ := spansFuel_cons (n := n) hnext
        rw [hspans] at h ⊢
        obtain ⟨hbytes, hall⟩ := ih h
        refine ⟨?_, forall_mem_cons.2 ⟨hspells, hall⟩⟩
        rw [flatMap_cons, ← hbytes]
        rfl

theorem flatMap_spans {toks : List Token} (h : tokenize script = some toks) :
    script = (spans script).flatMap (·.2) ∧ ∀ span ∈ spans script, Spells span :=
  flatMap_spansFuel (Option.ite_none_right_eq_some.1 h).1

theorem tokenize_flatMap (h : ∀ span ∈ ss, Spells span) :
    tokenize (ss.flatMap (·.2)) = some (ss.map (·.1)) := by
  rw [tokenize, spans, spansFuel_flatMap h le_rfl, if_pos rfl]

variable (remove : Token → Bool)

/-- Without a match the script stays as it is, and that is the bytes of all its opcodes. -/
theorem removeOpcodes_eq (hbytes : script = (spans script).flatMap (·.2)) :
    removeOpcodes remove script = (((spans script).filter fun s => !remove s.1).flatMap (·.2),
      (spans script).any fun s => remove s.1) := by
  rw [removeOpcodes]
  split_ifs with hany
  · rw [hany]
  · have hkeep : ((spans script).filter fun s => !remove s.1) = spans script := by
      refine filter_eq_self.2 fun s hs => ?_
      have hall : ¬ ∃ s ∈ spans script, remove s.1 = true := by simpa using hany
      simpa using fun hs' => hall ⟨s, hs, hs'⟩
    rw [hkeep, ← hbytes, Bool.eq_false_iff.2 hany]

/-- What is left parses, and has nothing that a second removal takes out. -/
theorem removeOpcodes_removeOpcodes {toks : List Token} (h : tokenize script = some toks) :
    (∃ toks', tokenize (removeOpcodes remove script).1 = some toks') ∧
      removeOpcodes remove (removeOpcodes remove script).1 =
        ((removeOpcodes remove script).1, false) := by
  obtain ⟨hbytes, hall⟩ := flatMap_spans h
  rw [removeOpcodes_eq remove hbytes]
  have hkept : ∀ s ∈ (spans script).filter fun s => !remove s.1, Spells s :=
    fun s hs => hall s (mem_of_mem_filter hs)
  refine ⟨⟨_, tokenize_flatMap hkept⟩, ?_⟩
  rw [removeOpcodes, spans, spansFuel_flatMap hkept le_rfl]
  simp

/-! ## The loop -/

/-- A `ScriptTokenizer` between two calls of `Next`: the script and the offset of what follows.
The offset is an `int32`, in which the length of any script fits. -/
structure ScriptTokenizer where
  script : Bytes
  offset : Nat

namespace ScriptTokenizer

/-- `Next`, with the opcode and the data that it leaves in the tokenizer. -/
def next (t : ScriptTokenizer) : Option (Token × ScriptTokenizer) :=
  match t.script.drop t.offset with
  | [] => none
  | op :: script =>
    match Txscript.next op script with
    | none => none
    | some (tok, rest) => some (tok, { t with offset := t.script.length - rest.length })

/-- `removeOpcodeCanonical`, and the body of the loop of `removeOpcodeRaw`: the result so far, where
`none` is the `nil` slice, and whether the opcode in front of the tokenizer matches. -/
def removeOpcode (remove : Token → Bool) (tok : Token) (t : ScriptTokenizer) (prevOffset : Nat)
    (result : Option Bytes) : Option Bytes × Bool :=
  if remove tok then
    match result with
    | none => (some (t.script.take prevOffset), true)
    | some result => (some result, true)
  else
    match result with
    | none => (none, false)
    | some result => (some (result ++ (t.script.take t.offset).drop prevOffset), false)

/-- The loop over the opcodes. -/
def loop (remove : Token → Bool) : Nat → ScriptTokenizer → Nat → Option Bytes → Bool →
    Option Bytes × Bool
  | 0, _, _, result, found => (result, found)
  | n + 1, t, prevOffset, result, found =>
    match t.next with
    | none => (result, found)
    | some (tok, t) =>
      let (result, f) := removeOpcode remove tok t prevOffset result
      loop remove n t t.offset result (found || f)

def removeOpcodeRaw (script : Bytes) (opcode : UInt8) : Bytes :=
  if script.isEmpty then script
  else ((loop (fun tok => tok.opcode == opcode) script.length ⟨script, 0⟩ 0 none false).1).getD script

def removeOpcodeByData (script dataToRemove : Bytes) : Bytes × Bool :=
  if script.isEmpty || dataToRemove.isEmpty then (script, false)
  else
    let (result, found) :=
      loop (fun tok => isCanonicalPush tok.opcode (tok.data.getD []) &&
        tok.data.getD [] == dataToRemove) script.length ⟨script, 0⟩ 0 none false
    (result.getD script, found)

/-- The loop from any point of the script.  `passed` has been walked over and `left` lies ahead;
once there is a match the result is what it was before the match, or else a copy of all that was
passed, and the bytes of the opcodes that are kept. -/
theorem loop_eq (n : Nat) (passed left : Bytes) (result : Option Bytes) (found : Bool) :
    loop remove n ⟨passed ++ left, passed.length⟩ passed.length result found =
      (((if (spansFuel n left).1.any fun s => remove s.1 then some (result.getD passed)
          else result).map
          (· ++ ((spansFuel n left).1.filter fun s => !remove s.1).flatMap (·.2))),
        found || (spansFuel n left).1.any fun s => remove s.1) := by
  induction n generalizing passed left result found with
  | zero => cases left <;> simp [loop, spansFuel]
  | succ n ih =>
    cases left with
    | nil => simp [loop, next, spansFuel]
    | cons op left =>
      cases hnext : Txscript.next op left with
      | none => simp [loop, next, spansFuel, hnext]
      | some p =>
        obtain ⟨tok, rest⟩ := p
        obtain ⟨span, rfl, -, hspans⟩ := spansFuel_cons (n := n) hnext
        have hscript : passed ++ op :: (span ++ rest) = (passed ++ op :: span) ++ rest := by simp
        have hoff : ((passed ++ op :: span) ++ rest).length - rest.length =
            (passed ++ op :: span).length := by
          rw [length_append, Nat.add_sub_cancel]
        have hstep : ScriptTokenizer.next ⟨passed ++ op :: (span ++ rest), passed.length⟩ =
            some (tok, ⟨(passed ++ op :: span) ++ rest, (passed ++ op :: span).length⟩) := by
          rw [next, drop_left]
          simp only [hnext, hscript, hoff]
        rw [loop, hstep, hspans]
        simp only [ih, any_cons, filter_cons]
        -- a match or not, before or after the first
        rcases Bool.eq_false_or_eq_true (remove tok) with hremove | hremove <;>
          rcases Bool.eq_false_or_eq_true ((spansFuel n rest).1.any fun s => remove s.1) with
            hany | hany <;>
          cases result <;> simp [removeOpcode, hremove, hany, take_append]

theorem loop_fst_getD (script : Bytes) :
    ((loop remove script.length ⟨script, 0⟩ 0 none false).1).getD script =
        (removeOpcodes remove script).1 ∧
      (loop remove script.length ⟨script, 0⟩ 0 none false).2 = (removeOpcodes remove script).2 := by
  have hloop := loop_eq remove script.length [] script none false
  rw [nil_append, length_nil] at hloop
  rw [hloop, removeOpcodes]
  rw [spans]
  cases (spansFuel script.length script).1.any fun s => remove s.1 <;> simp

theorem removeOpcodeRaw_eq (script : Bytes) (opcode : UInt8) :
    removeOpcodeRaw script opcode = Txscript.removeOpcodeRaw script opcode := by
  rw [removeOpcodeRaw, Txscript.removeOpcodeRaw]
  split
  · rename_i hempty
    rw [isEmpty_iff.1 hempty]
    rfl
  · exact (loop_fst_getD _ script).1

theorem removeOpcodeByData_eq (script dataToRemove : Bytes) :
    removeOpcodeByData script dataToRemove = Txscript.removeOpcodeByData script dataToRemove := by
  rw [removeOpcodeByData, Txscript.removeOpcodeByData]
  split
  · rfl
  · exact Prod.ext (loop_fst_getD _ script).1 (loop_fst_getD _ script).2

end ScriptTokenizer

/-! ## What is removed -/

/-- Does the opcode push exactly this, with the shortest opcode that can? -/
def Token.pushes (tok : Token) (data : Bytes) : Bool :=
  tok.data == some data && isCanonicalPush tok.opcode data

/-- No opcode carries the empty string canonically: `OP_0` carries nothing. -/
theorem not_pushes_nil {span : Token × Bytes} (h : Spells span) : span.1.pushes [] = false := by
  obtain ⟨body, -, hnext⟩ := h
  obtain ⟨⟨op, data⟩, bytes⟩ := span
  have hnext' := hnext []
  simp only [append_nil, next] at hnext'
  rw [Token.pushes, Bool.and_eq_false_iff]
  split at hnext'
  · rename_i hop
    exact .inr (by rw [eq_of_beq hop]; rfl)
  split at hnext'
  · rename_i hop
    exact .inr (by rw [eq_of_beq hop]; rfl)
  split at hnext'
  · rename_i hop
    exact .inr (by rw [eq_of_beq hop]; rfl)
  split at hnext'
  · rename_i hop
    split at hnext'
    · cases hnext'
    · have hpos : 0 < op.toNat := by simpa using (Bool.and_eq_true_iff.1 hop).1
      obtain ⟨hdata, -⟩ : some (body.take op.toNat) = data ∧ body.length ≤ op.toNat := by
        simpa using hnext'
      left
      rw [← hdata, beq_eq_false_iff_ne]
      intro hnil
      have hlen := congrArg List.length (Option.some.inj hnil)
      simp only [length_take, length_nil] at hlen
      omega
  · obtain ⟨rfl, -⟩ : none = data ∧ body = [] := by simpa using hnext'
    exact .inl rfl

/-- The tests of `removeOpcodeByData`, in its loop and before it. -/
theorem removeOpcodeByData_eq {script : Bytes} {toks : List Token}
    (h : tokenize script = some toks) (dataToRemove : Bytes) :
    removeOpcodeByData script dataToRemove =
      removeOpcodes (fun tok => tok.pushes dataToRemove) script := by
  obtain ⟨-, hall⟩ := flatMap_spans h
  rw [removeOpcodeByData]
  split_ifs with hempty
  · rcases Bool.or_eq_true_iff.1 hempty with hnil | hnil
    · rw [isEmpty_iff.1 hnil]
      rfl
    · obtain rfl := isEmpty_iff.1 hnil
      rw [removeOpcodes, if_neg]
      simpa using fun tok bytes hmem => not_pushes_nil (hall (tok, bytes) hmem)
  · have hne : dataToRemove ≠ [] := by
      rintro rfl
      simp at hempty
    congr 1
    funext tok
    rw [Token.pushes, Bool.and_comm]
    cases tok.data with
    | none => simp [hne]
    | some data =>
      rcases eq_or_ne data dataToRemove with rfl | hdata
      · simp
      · simp [beq_eq_false_iff_ne.2 hdata]

/-- **A removal takes out the opcodes that match and nothing else.**  A script that parses is the
bytes of its opcodes; without an opcode it is the bytes of the others, and without a datum it is the
bytes of the opcodes that do not push it canonically.  The second removal changes nothing. -/
theorem removal_exact {script : Bytes} (hparses : scriptParses script = true) :
    ∃ spans : List (Token × Bytes), tokenize script = some (spans.map (·.1)) ∧
      script = spans.flatMap (·.2) ∧ (∀ span ∈ spans, tokenize span.2 = some [span.1]) ∧
      (∀ opcode : UInt8,
        let removed := ScriptTokenizer.removeOpcodeRaw script opcode
        removed = (spans.filter fun s => !(s.1.opcode == opcode)).flatMap (·.2) ∧
          ScriptTokenizer.removeOpcodeRaw removed opcode = removed) ∧
      ∀ dataToRemove : Bytes,
        let removed := ScriptTokenizer.removeOpcodeByData script dataToRemove
        removed = ((spans.filter fun s => !s.1.pushes dataToRemove).flatMap (·.2),
            spans.any fun s => s.1.pushes dataToRemove) ∧
          ScriptTokenizer.removeOpcodeByData removed.1 dataToRemove = (removed.1, false) := by
  obtain ⟨toks, htoks⟩ := Option.isSome_iff_exists.1 hparses
  obtain ⟨hbytes, hall⟩ := flatMap_spans htoks
  have hparsed : tokenize script = some ((spans script).map (·.1)) :=
    htoks.trans (Option.ite_none_right_eq_some.1 htoks).2.symm
  refine ⟨spans script, hparsed, hbytes, fun span hmem => ?_, fun opcode => ?_, fun dataToRemove => ?_⟩
  · have hone : ∀ s ∈ [span], Spells s := by simpa using hall span hmem
    simpa using tokenize_flatMap hone
  · simp only [ScriptTokenizer.removeOpcodeRaw_eq, removeOpcodeRaw]
    refine ⟨by rw [removeOpcodes_eq _ hbytes], ?_⟩
    rw [(removeOpcodes_removeOpcodes _ htoks).2]
  · simp only [ScriptTokenizer.removeOpcodeByData_eq]
    rw [removeOpcodeByData_eq htoks]
    obtain ⟨⟨toks', htoks'⟩, htwice⟩ :=
      removeOpcodes_removeOpcodes (fun tok => tok.pushes dataToRemove) htoks
    exact ⟨removeOpcodes_eq _ hbytes, by rw [removeOpcodeByData_eq htoks', htwice]⟩

/-- A script that pushes two bytes twice, once with an opcode that is longer than necessary. -/
def pushedTwice : Bytes := [0xab, 0x02, 0x11, 0x12, 0x4c, 0x02, 0x11, 0x12, 0xac]

theorem removal_exact_pushedTwice :
    scriptParses pushedTwice = true ∧
      ScriptTokenizer.removeOpcodeByData pushedTwice [0x11, 0x12] =
        ([0xab, 0x4c, 0x02, 0x11, 0x12, 0xac], true) ∧
      ScriptTokenizer.removeOpcodeByData
        (ScriptTokenizer.removeOpcodeByData pushedTwice [0x11, 0x12]).1 [0x11, 0x12] =
          ((ScriptTokenizer.removeOpcodeByData pushedTwice [0x11, 0x12]).1, false) := by
  have hparses : scriptParses pushedTwice = true := by decide
  obtain ⟨_, -, -, -, -, hdata⟩ := removal_exact hparses
  exact ⟨hparses, by decide, (hdata [0x11, 0x12]).2⟩

end Txscript

end Obtcd
