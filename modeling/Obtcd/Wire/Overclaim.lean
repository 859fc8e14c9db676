import Obtcd.Wire.Blocks

/-!
# When decoding panics

`readScriptBuf` checks the length of a script against `maxWitnessItemSize` and then slices what is
left of the slab up to that length.  The slab is larger than one script may be, but not larger than
two: once the scripts read so far have taken up enough of it, a length that passes the check is
beyond the capacity that is left, and the slice expression panics.  The bytes of that script need not
be there; announcing its length is enough.

`Overclaims enc r` says that the bytes `r` do that: they begin as a transaction begins, up to and
including the length of one of its scripts, and that length together with the scripts before it is
more than the slab has.  `decodeTx_panics_iff` shows that decoding panics exactly then, and
`decoding_returns_iff` says the same of all three decoders.  The shortest such string has about
`scriptSlabSize - maxWitnessItemSize` bytes, less than 200 kB; `decoding_panics` is one of them.
-/

namespace Obtcd

open Prog List

namespace Wire

variable {α β : Type} {s s' : Stream}

/-! ## Panics of the readers -/

/-- The decoder panics. -/
def Panics (x : DecM α) (s : Stream) : Prop := ∃ text s', exec x s = (.error (.panic text), s')

variable {x : DecM α} {f : α → DecM β}

theorem settled_panic : Settled fun o : Except Abort α × Stream =>
    ∃ text s', o = (.error (.panic text), s') := by
  rintro e s ⟨text, s', h⟩
  cases h

theorem not_panics (hx : Raises Returned x) : ¬ Panics x s := by
  rintro ⟨text, s', h⟩
  obtain ⟨err, he⟩ := hx s _ s' h
  cases he

theorem panics_bind :
    Panics (x >>= f) s ↔ Panics x s ∨ ∃ a s₁, exec x s = (.ok a, s₁) ∧ Panics (f a) s₁ := by
  simp only [Panics, exec_bind_eq_error]
  constructor
  · rintro ⟨text, s', h | ⟨a, s₁, ha, h⟩⟩
    · exact .inl ⟨text, s', h⟩
    · exact .inr ⟨a, s₁, ha, text, s', h⟩
  · rintro (⟨text, s', h⟩ | ⟨a, s₁, ha, text, s', h⟩)
    · exact ⟨text, s', .inl h⟩
    · exact ⟨text, s', .inr ⟨a, s₁, ha, h⟩⟩

/-- A reader that cannot panic leaves it to what follows. -/
theorem panics_bind_right (hx : Raises Returned x) :
    Panics (x >>= f) s ↔ ∃ a s₁, exec x s = (.ok a, s₁) ∧ Panics (f a) s₁ := settled_panic.bind hx

/-- What follows leaves it to the reader. -/
theorem panics_bind_left (hf : ∀ a, Raises Returned (f a)) : Panics (x >>= f) s ↔ Panics x s := by
  rw [panics_bind, or_iff_left]
  rintro ⟨a, s₁, -, h⟩
  exact not_panics (hf a) h

/-- Neither can a limit that is refused with an error. -/
theorem panics_require_bind {c : Prop} [Decidable c] {e : DecodeError} {f : Unit → DecM β} :
    Panics (require c (.error e) >>= f) s ↔ c ∧ Panics (f ()) s := settled_panic.require_bind

theorem panics_get_bind {f : Stream → DecM β} : Panics (get >>= f) s ↔ Panics (f s) s := by
  simp only [Panics, exec_get_bind]

theorem raises_readOutPoint : Raises Returned readOutPoint :=
  (raises_readFull 32).bind fun _ => (raises_readUint 4).bind fun _ => .pure _

theorem raises_advance (n : Nat) (a : α) : Raises Returned (do advance n; return a) :=
  (Raises.modify _).bind fun _ => .pure a

/-- A script panics when its length is allowed and the slab has no room for it. -/
theorem panics_readScriptBuf {fieldName : String} :
    Panics (readScriptBuf fieldName) s ↔
      ∃ n rest, n ≤ maxWitnessItemSize ∧ scriptSlabSize < s.sbuf + n ∧ s.r = writeVarInt n ++ rest := by
  rw [readScriptBuf, panics_bind_right raises_readVarInt]
  constructor
  · rintro ⟨n, s₁, hn, h⟩
    obtain ⟨-, rest, hr, rfl⟩ := readVarInt_ok.1 hn
    obtain ⟨hmax, h⟩ := panics_require_bind.1 h
    rw [panics_get_bind] at h
    refine ⟨n, rest, hmax, ?_, hr⟩
    by_contra hroom
    have hroom : s.sbuf + n ≤ scriptSlabSize := Nat.not_lt.1 hroom
    obtain ⟨text, s', h⟩ := h
    rw [exec_require_bind_of_pos hroom] at h
    exact not_panics ((raises_readFull n).bind fun _ => (Raises.modify _).bind fun _ => .pure _)
      ⟨text, s', h⟩
  · rintro ⟨n, rest, hmax, hover, hr⟩
    have hlt : n < 2 ^ 64 := by
      rw [maxWitnessItemSize] at hmax
      omega
    refine ⟨n, { s with r := rest }, readVarInt_ok.2 ⟨hlt, rest, hr, rfl⟩,
      panics_require_bind.2 ⟨hmax, ?_⟩⟩
    rw [panics_get_bind]
    exact ⟨_, _, exec_require_bind_eq_error.2 (.inl ⟨by simpa using hover, rfl, rfl⟩)⟩

/-- What follows the script of a turn of a loop cannot panic. -/
theorem panics_nextWitnessItem :
    Panics nextWitnessItem s ↔
      ∃ n rest, n ≤ maxWitnessItemSize ∧ scriptSlabSize < s.sbuf + n ∧ s.r = writeVarInt n ++ rest := by
  rw [nextWitnessItem, panics_bind_left fun _ => raises_advance _ _, panics_readScriptBuf]

theorem panics_nextTxOut :
    Panics nextTxOut s ↔ ∃ (value : Int64) (n : Nat) (rest : Bytes), n ≤ maxWitnessItemSize ∧
      scriptSlabSize < s.sbuf + n ∧
      s.r = Bytes.le 8 value.toUInt64.toNat ++ (writeVarInt n ++ rest) := by
  rw [nextTxOut, panics_bind_left fun _ => raises_advance _ _, readTxOut,
    panics_bind_right (raises_readUint 8)]
  simp only [panics_bind_left fun _ => .pure _, panics_readScriptBuf]
  constructor
  · rintro ⟨value, s₁, hvalue, n, rest, hmax, hover, hr'⟩
    obtain ⟨hlt, rest₁, hr, rfl⟩ := readUint_ok.1 hvalue
    refine ⟨(UInt64.ofNat value).toInt64, n, rest, hmax, hover, ?_⟩
    rw [UInt64.toUInt64_toInt64, UInt64.toNat_ofNat_of_lt' hlt, hr]
    exact congrArg _ hr'
  · rintro ⟨value, n, rest, hmax, hover, hr⟩
    exact ⟨_, _, readUint_ok.2 ⟨value.toUInt64.toNat_lt, _, hr, rfl⟩, n, rest, hmax, hover, rfl⟩

theorem panics_nextTxIn :
    Panics nextTxIn s ↔ ∃ (op : OutPoint) (n : Nat) (rest : Bytes), n ≤ maxWitnessItemSize ∧
      scriptSlabSize < s.sbuf + n ∧ s.r = op.write ++ (writeVarInt n ++ rest) := by
  rw [nextTxIn, panics_bind_left fun _ => raises_advance _ _, readTxIn,
    panics_bind_right raises_readOutPoint]
  simp only [panics_bind_left fun _ => (raises_readUint 4).bind fun _ => .pure _,
    panics_readScriptBuf]
  constructor
  · rintro ⟨op, s₁, hop, n, rest, hmax, hover, hr'⟩
    obtain ⟨rest₁, hr, rfl⟩ := readOutPoint_ok.1 hop
    exact ⟨op, n, rest, hmax, hover, hr.trans (congrArg _ hr')⟩
  · rintro ⟨op, n, rest, hmax, hover, hr⟩
    exact ⟨_, _, readOutPoint_ok.2 ⟨_, hr, rfl⟩, n, rest, hmax, hover, rfl⟩

/-! ## Panics of the loops -/

theorem panics_times_succ {n : Nat} :
    Panics (Prog.times (n + 1) x) s ↔
      Panics x s ∨ ∃ a s₁, exec x s = (.ok a, s₁) ∧ Panics (Prog.times n x) s₁ := by
  rw [Prog.times, panics_bind]
  simp only [panics_bind_left fun _ => .pure _]

/-- A loop panics in one of its turns, after the turns before it have read what they had to. -/
theorem Reads.panics_times {F : Format α β} (hx : Reads x F) {n : Nat}
    (hs : s.sbuf ≤ scriptSlabSize) :
    Panics (Prog.times n x) s ↔ ∃ (bs : List β) (rest : Bytes), bs.length < n ∧
      (∀ b ∈ bs, F.Fits b) ∧ s.sbuf + (bs.flatMap F.held).length ≤ scriptSlabSize ∧
      s.r = bs.flatMap F.enc ++ rest ∧ Panics x (s.after (bs.flatMap F.held) rest) := by
  induction n generalizing s with
  | zero =>
    refine ⟨fun h => absurd h (not_panics (.pure _)), ?_⟩
    rintro ⟨bs, rest, hlen, -⟩
    cases hlen
  | succ n ih =>
    rw [panics_times_succ]
    constructor
    · rintro (h | ⟨a, s₁, ha, h⟩)
      · refine ⟨[], s.r, Nat.succ_pos n, by simp, hs, rfl, ?_⟩
        rwa [flatMap_nil, Stream.after_nil]
      · obtain ⟨b, rest₁, hfit, hroom, hr, rfl, rfl⟩ := (hx hs).1 ha
        obtain ⟨bs, rest, hlen, hfits, hrooms, hr', h⟩ := (ih hroom).1 h
        rw [Stream.after_after] at h
        refine ⟨b :: bs, rest, by simpa using hlen, ?_, ?_, ?_, h⟩
        · intro c hc
          rcases mem_cons.1 hc with rfl | hc
          · exact hfit
          · exact hfits c hc
        · rwa [flatMap_cons, length_append, ← Nat.add_assoc]
        · rw [hr, show rest₁ = _ from hr', flatMap_cons, append_assoc]
    · rintro ⟨bs, rest, hlen, hfits, hroom, hr, h⟩
      cases bs with
      | nil =>
        rw [flatMap_nil, Stream.after_nil, ← show s.r = rest from hr] at h
        exact .inl h
      | cons b bs =>
        rw [flatMap_cons, length_append] at hroom
        rw [flatMap_cons, append_assoc] at hr
        have hb : s.sbuf + (F.held b).length ≤ scriptSlabSize := by omega
        refine .inr ⟨_, _, (hx hs).2 ⟨b, _, hfits b (by simp), hb, hr, rfl, rfl⟩, (ih hb).2
          ⟨bs, rest, by simpa using hlen, fun c hc => hfits c (by simp [hc]), ?_, rfl, ?_⟩⟩
        · rwa [Stream.sbuf_after, Nat.add_assoc]
        · rwa [Stream.after_after]

/-- A loop and what follows it. -/
theorem Reads.panics_times_bind {γ : Type} {F : Format α β} (hx : Reads x F) {n : Nat}
    {f : List α → DecM γ} (hs : s.sbuf ≤ scriptSlabSize) :
    Panics (Prog.times n x >>= f) s ↔ Panics (Prog.times n x) s ∨ ∃ bs rest, bs.length = n ∧
      (∀ b ∈ bs, F.Fits b) ∧ s.sbuf + (bs.flatMap F.held).length ≤ scriptSlabSize ∧
      s.r = bs.flatMap F.enc ++ rest ∧
      Panics (f (F.lay s.sbuf bs)) (s.after (bs.flatMap F.held) rest) := by
  refine (settled_panic.times_bind hx hs).trans (or_congr ⟨?_, ?_⟩ Iff.rfl)
  · rintro ⟨text, s₁, h, -⟩
    exact ⟨text, s₁, h⟩
  · rintro ⟨text, s₁, h⟩
    exact ⟨text, s₁, h, text, s₁, rfl⟩

theorem panics_readWitness (hs : s.sbuf ≤ scriptSlabSize) :
    Panics readWitness s ↔ ∃ (count : Nat) (items : List Bytes) (n : Nat) (rest : Bytes),
      count ≤ maxWitnessItemsPerInput ∧ items.length < count ∧
      (∀ b ∈ items, b.length ≤ maxWitnessItemSize) ∧
      s.sbuf + items.flatten.length ≤ scriptSlabSize ∧ n ≤ maxWitnessItemSize ∧
      scriptSlabSize < s.sbuf + items.flatten.length + n ∧
      s.r = writeVarInt count ++ (items.flatMap writeVarBytes ++ (writeVarInt n ++ rest)) := by
  have hheld : ∀ items : List Bytes, items.flatMap itemFormat.held = items.flatten :=
    fun items => flatMap_id
  rw [readWitness, panics_bind_right raises_readVarInt]
  constructor
  · rintro ⟨count, s₁, hcount, h⟩
    obtain ⟨-, rest₁, hr, rfl⟩ := readVarInt_ok.1 hcount
    obtain ⟨hmax, h⟩ := panics_require_bind.1 h
    obtain ⟨items, rest₂, hlen, hfits, hroom, hr₂, h⟩ :=
      (reads_nextWitnessItem.panics_times (s := { s with r := rest₁ }) hs).1 h
    obtain ⟨n, rest, hn, hover, hr₃⟩ := panics_nextWitnessItem.1 h
    rw [hheld] at hroom hover
    refine ⟨count, items, n, rest, hmax, hlen, hfits, hroom, hn, hover, ?_⟩
    rw [hr, show rest₁ = _ from hr₂, show rest₂ = _ from hr₃]
    rfl
  · rintro ⟨count, items, n, rest, hmax, hlen, hfits, hroom, hn, hover, hr⟩
    have hlt : count < 2 ^ 64 := by
      rw [maxWitnessItemsPerInput] at hmax
      omega
    refine ⟨count, _, readVarInt_ok.2 ⟨hlt, _, hr, rfl⟩, panics_require_bind.2 ⟨hmax, ?_⟩⟩
    refine (reads_nextWitnessItem.panics_times
      (s := { s with r := items.flatMap writeVarBytes ++ (writeVarInt n ++ rest) }) hs).2
      ⟨items, _, hlen, hfits, ?_, rfl, panics_nextWitnessItem.2 ⟨n, rest, hn, ?_, rfl⟩⟩
    · rwa [hheld]
    · rwa [hheld]

theorem panics_mapM {γ : Type} {x : DecM β} {g : α → β → γ} {l : List α} :
    Panics (l.mapM fun a => do let b ← x; return g a b) s ↔ Panics (Prog.times l.length x) s := by
  induction l generalizing s with
  | nil =>
    rw [mapM_nil]
    exact ⟨fun h => absurd h (not_panics (.pure _)), fun h => absurd h (not_panics (.pure _))⟩
  | cons a l ih =>
    rw [mapM_cons, panics_bind, length_cons, panics_times_succ,
      panics_bind_left fun _ => .pure _]
    simp only [panics_bind_left fun _ => .pure _, ih]
    refine or_congr Iff.rfl ?_
    constructor
    · rintro ⟨c, s₁, hc, h⟩
      obtain ⟨b, s₂, hb, hc⟩ := exec_bind_eq_ok.1 hc
      cases hc
      exact ⟨b, _, hb, h⟩
    · rintro ⟨b, s₁, hb, h⟩
      exact ⟨g a b, s₁, exec_bind_eq_ok.2 ⟨b, s₁, hb, rfl⟩, h⟩

theorem panics_readTxWitness {flag : Bool} {txIn : List RawTxIn} :
    Panics (readTxWitness flag txIn) s ↔
      flag = true ∧ Panics (Prog.times txIn.length readWitness) s := by
  cases flag with
  | false =>
    refine ⟨fun h => absurd h (not_panics (.pure _)), ?_⟩
    rintro ⟨h, -⟩
    cases h
  | true =>
    rw [readTxWitness, if_pos rfl,
      panics_bind_left fun _ => raises_require.bind fun _ => .pure _, panics_mapM]
    simp

/-- What follows the witnesses cannot panic. -/
theorem panics_decodeTail {version : Int32} {flag : Bool} {txIn : List RawTxIn}
    {txOut : List RawTxOut} : Panics (decodeTail version flag txIn txOut) s ↔
      flag = true ∧ Panics (Prog.times txIn.length readWitness) s := by
  rw [decodeTail, panics_bind_left, panics_readTxWitness]
  refine fun txIn => (raises_readUint 4).bind fun _ => Raises.get.bind fun s => .ofExcept ?_
  intro e he
  rw [packTx_eq] at he
  cases he

/-! ## Transactions -/

/-- **The bytes announce a script for which the slab has no room.**  They begin as a transaction
does, up to the length of an input's script, of an output's script or of a witness item.  That
length is allowed, the scripts before it fit into the slab, and together with it they do not. -/
inductive Overclaims (enc : MessageEncoding) (r : Bytes) : Prop
  | signatureScript (version : Int32) (flag : Bool) (count : Nat) (ins : List TxIn) (op : OutPoint)
      (n : Nat) (rest : Bytes) (hflag : flag = true → enc = .witness)
      (hmax : count ≤ maxTxInPerMessage) (hcount : ins.length < count)
      (hins : ∀ ti ∈ ins, ti.witness = [] ∧ ti.signatureScript.length ≤ maxWitnessItemSize)
      (hroom : (ins.flatMap TxIn.signatureScript).length ≤ scriptSlabSize)
      (hn : n ≤ maxWitnessItemSize)
      (hover : scriptSlabSize < (ins.flatMap TxIn.signatureScript).length + n)
      (hr : r = txStart version flag count ++ (ins.flatMap TxIn.write ++ (op.write ++
        (writeVarInt n ++ rest))))
  | pkScript (version : Int32) (flag : Bool) (ins : List TxIn) (count : Nat) (outs : List TxOut)
      (value : Int64) (n : Nat) (rest : Bytes) (hflag : flag = true → enc = .witness)
      (hmark : flag = false → enc = .witness → ins ≠ []) (hmaxIn : ins.length ≤ maxTxInPerMessage)
      (hins : ∀ ti ∈ ins, ti.witness = [] ∧ ti.signatureScript.length ≤ maxWitnessItemSize)
      (hmax : count ≤ maxTxOutPerMessage) (hcount : outs.length < count)
      (houts : ∀ out ∈ outs, out.pkScript.length ≤ maxWitnessItemSize)
      (hroom : (ins.flatMap TxIn.signatureScript).length + (outs.flatMap TxOut.pkScript).length ≤
        scriptSlabSize)
      (hn : n ≤ maxWitnessItemSize)
      (hover : scriptSlabSize < (ins.flatMap TxIn.signatureScript).length +
        (outs.flatMap TxOut.pkScript).length + n)
      (hr : r = txStart version flag ins.length ++ (ins.flatMap TxIn.write ++
        (writeVarInt count ++ (outs.flatMap TxOut.write ++ (Bytes.le 8 value.toUInt64.toNat ++
          (writeVarInt n ++ rest))))))
  | item (version : Int32) (ins : List TxIn) (outs : List TxOut) (ws : List (List Bytes))
      (count : Nat) (items : List Bytes) (n : Nat) (rest : Bytes) (henc : enc = .witness)
      (hmaxIn : ins.length ≤ maxTxInPerMessage)
      (hins : ∀ ti ∈ ins, ti.witness = [] ∧ ti.signatureScript.length ≤ maxWitnessItemSize)
      (hmaxOut : outs.length ≤ maxTxOutPerMessage)
      (houts : ∀ out ∈ outs, out.pkScript.length ≤ maxWitnessItemSize)
      (hws : ws.length < ins.length)
      (hfits : ∀ w ∈ ws, w.length ≤ maxWitnessItemsPerInput ∧
        ∀ b ∈ w, b.length ≤ maxWitnessItemSize)
      (hmax : count ≤ maxWitnessItemsPerInput) (hcount : items.length < count)
      (hitems : ∀ b ∈ items, b.length ≤ maxWitnessItemSize)
      (hroom : (ins.flatMap TxIn.signatureScript).length + (outs.flatMap TxOut.pkScript).length +
        (ws.flatMap List.flatten).length + items.flatten.length ≤ scriptSlabSize)
      (hn : n ≤ maxWitnessItemSize)
      (hover : scriptSlabSize < (ins.flatMap TxIn.signatureScript).length +
        (outs.flatMap TxOut.pkScript).length + (ws.flatMap List.flatten).length +
          items.flatten.length + n)
      (hr : r = txStart version true ins.length ++ (ins.flatMap TxIn.write ++
        (writeVarInt outs.length ++ (outs.flatMap TxOut.write ++ (ws.flatMap writeTxWitness ++
          (writeVarInt count ++ (items.flatMap writeVarBytes ++ (writeVarInt n ++ rest))))))))

variable {enc : MessageEncoding}

/-- Decoding a transaction panics exactly when the bytes announce too much. -/
theorem decodeTx_panics_iff : Panics (decodeTx enc) s ↔ Overclaims enc s.r := by
  refine (decodeTx_iff settled_panic).trans ?_
  constructor
  · rintro ⟨version, flag, count, rest, hflag, hmark, hmax, hr, h⟩
    rcases (reads_nextTxIn.panics_times_bind (Nat.zero_le _)).1 h with
      h | ⟨ins, rest₁, rfl, hins, hroom, hr₁, h⟩
    · obtain ⟨ins, rest₁, hlen, hins, hroom, hr₁, h⟩ :=
        (reads_nextTxIn.panics_times (Nat.zero_le _)).1 h
      obtain ⟨op, n, rest₂, hn, hover, hr₂⟩ := panics_nextTxIn.1 h
      rw [Nat.zero_add] at hroom
      rw [Stream.sbuf_after, Nat.zero_add] at hover
      refine .signatureScript version flag count ins op n rest₂ hflag hmax hlen hins hroom hn hover ?_
      rw [hr, show rest = _ from hr₁, show rest₁ = _ from hr₂]
      rfl
    have hmark : flag = false → enc = .witness → ins ≠ [] :=
      fun hf henc hnil => hmark hf henc (by rw [hnil]; rfl)
    obtain ⟨outCount, rest₂, hmaxOut, hr₂, h⟩ := (decodeOutputs_iff settled_panic).1 h
    rcases (reads_nextTxOut.panics_times_bind hroom).1 h with
      h | ⟨outs, rest₃, rfl, houts, hroom', hr₃, h⟩
    · obtain ⟨outs, rest₃, hlen, houts, hroom', hr₃, h⟩ := (reads_nextTxOut.panics_times hroom).1 h
      obtain ⟨value, n, rest₄, hn, hover, hr₄⟩ := panics_nextTxOut.1 h
      simp only [Stream.sbuf_after, Nat.zero_add] at hroom' hover
      refine .pkScript version flag ins outCount outs value n rest₄ hflag hmark hmax hins hmaxOut hlen
        houts hroom' hn hover ?_
      rw [hr, show rest = _ from hr₁, show rest₁ = _ from hr₂, show rest₂ = _ from hr₃,
        show rest₃ = _ from hr₄]
      rfl
    obtain ⟨rfl, hwit⟩ := panics_decodeTail.1 h
    rw [txInFormat.length_lay] at hwit
    obtain ⟨ws, rest₄, hlenW, hfits, hroomW, hr₄, h⟩ := (reads_readWitness.panics_times hroom').1 hwit
    obtain ⟨itemCount, items, n, rest₅, hmaxI, hlenI, hitems, hroomI, hn, hover, hr₅⟩ :=
      (panics_readWitness hroomW).1 h
    simp only [Stream.sbuf_after, Nat.zero_add] at hroomI hover
    refine .item version ins outs ws itemCount items n rest₅ (hflag rfl) hmax hins hmaxOut houts hlenW
      hfits hmaxI hlenI hitems hroomI hn hover ?_
    rw [hr, show rest = _ from hr₁, show rest₁ = _ from hr₂, show rest₂ = _ from hr₃,
      show rest₃ = _ from hr₄, show rest₄ = _ from hr₅]
    rfl
  · rintro (⟨version, flag, count, ins, op, n, rest, hflag, hmax, hcount, hins, hroom, hn, hover, hr⟩ |
      ⟨version, flag, ins, count, outs, value, n, rest, hflag, hmark, hmaxIn, hins, hmax, hcount, houts,
        hroom, hn, hover, hr⟩ |
      ⟨version, ins, outs, ws, count, items, n, rest, rfl, hmaxIn, hins, hmaxOut, houts, hws, hfits,
        hmax, hcount, hitems, hroom, hn, hover, hr⟩)
    · refine ⟨version, flag, count, _, hflag, fun _ _ => by omega, hmax, hr,
        (reads_nextTxIn.panics_times_bind (Nat.zero_le _)).2 (.inl
        ((reads_nextTxIn.panics_times (Nat.zero_le _)).2 ⟨ins, _, hcount, hins, ?_, rfl,
          panics_nextTxIn.2 ⟨op, n, rest, hn, ?_, rfl⟩⟩))⟩
      · rwa [Nat.zero_add]
      · rwa [Stream.sbuf_after, Nat.zero_add]
    · have hroomIn : 0 + (ins.flatMap TxIn.signatureScript).length ≤ scriptSlabSize := by omega
      refine ⟨version, flag, ins.length, _, hflag,
        fun hf henc hnil => hmark hf henc (length_eq_zero_iff.1 hnil), hmaxIn, hr,
        (reads_nextTxIn.panics_times_bind (Nat.zero_le _)).2 (.inr ⟨ins, _, rfl, hins, hroomIn, rfl,
        (decodeOutputs_iff settled_panic).2 ⟨count, _, hmax, rfl,
        (reads_nextTxOut.panics_times_bind hroomIn).2 (.inl
        ((reads_nextTxOut.panics_times hroomIn).2 ⟨outs, _, hcount, houts, ?_, rfl,
          panics_nextTxOut.2 ⟨value, n, rest, hn, ?_, rfl⟩⟩))⟩⟩)⟩
      · simp only [Stream.sbuf_after, Nat.zero_add]
        exact hroom
      · simp only [Stream.sbuf_after, Nat.zero_add]
        exact hover
    · have hroomIn : 0 + (ins.flatMap TxIn.signatureScript).length ≤ scriptSlabSize := by omega
      have hroomOut : 0 + (ins.flatMap TxIn.signatureScript).length +
          (outs.flatMap TxOut.pkScript).length ≤ scriptSlabSize := by omega
      have hroomW : 0 + (ins.flatMap TxIn.signatureScript).length +
          (outs.flatMap TxOut.pkScript).length + (ws.flatMap List.flatten).length ≤
            scriptSlabSize := by omega
      refine ⟨version, true, ins.length, _, fun _ => rfl, nofun, hmaxIn, hr,
        (reads_nextTxIn.panics_times_bind (Nat.zero_le _)).2 (.inr ⟨ins, _, rfl, hins, hroomIn, rfl,
        (decodeOutputs_iff settled_panic).2 ⟨outs.length, _, hmaxOut, rfl,
        (reads_nextTxOut.panics_times_bind hroomIn).2 (.inr ⟨outs, _, rfl, houts, hroomOut, rfl,
        panics_decodeTail.2 ⟨rfl, (reads_readWitness.panics_times hroomOut).2 ⟨ws, _, ?_, hfits, hroomW,
        rfl, (panics_readWitness hroomW).2
          ⟨count, items, n, rest, hmax, hcount, hitems, ?_, hn, ?_, rfl⟩⟩⟩⟩)⟩⟩)⟩
      · rwa [txInFormat.length_lay]
      · simp only [Stream.sbuf_after, Nat.zero_add]
        exact hroom
      · simp only [Stream.sbuf_after, Nat.zero_add]
        exact hover

/-! ## Blocks -/

/-- A transaction of the block announces too much, and those before it do not. -/
def BlockOverclaims (enc : MessageEncoding) (r : Bytes) : Prop :=
  ∃ (header : BlockHeader) (count : Nat) (txs : List MsgTx) (rest : Bytes), count ≤ maxTxPerBlock ∧
    txs.length < count ∧ (∀ tx ∈ txs, tx.Decodable enc) ∧
    r = header.write ++ writeVarInt count ++ (txs.flatMap (MsgTx.btcEncode enc) ++ rest) ∧
    Overclaims enc rest

theorem panics_times_decodeTx {n : Nat} :
    Panics (Prog.times n (decodeTx enc)) s ↔ ∃ (txs : List MsgTx) (rest : Bytes), txs.length < n ∧
      (∀ tx ∈ txs, tx.Decodable enc) ∧ s.r = txs.flatMap (MsgTx.btcEncode enc) ++ rest ∧
      Overclaims enc rest := by
  induction n generalizing s with
  | zero =>
    refine ⟨fun h => absurd h (not_panics (.pure _)), ?_⟩
    rintro ⟨txs, rest, hlen, -⟩
    cases hlen
  | succ n ih =>
    rw [panics_times_succ, decodeTx_panics_iff]
    constructor
    · rintro (h | ⟨tx, s₁, htx, h⟩)
      · exact ⟨[], s.r, Nat.succ_pos n, by simp, rfl, h⟩
      · obtain ⟨hdec, rest₁, hr, rfl⟩ := decodeTx_ok.1 htx
        obtain ⟨txs, rest, hlen, hdecs, hr', h⟩ := ih.1 h
        refine ⟨tx :: txs, rest, by simpa using hlen, ?_, ?_, h⟩
        · intro t ht
          rcases mem_cons.1 ht with rfl | ht
          · exact hdec
          · exact hdecs t ht
        · rw [hr, show rest₁ = _ from hr', flatMap_cons, append_assoc]
    · rintro ⟨txs, rest, hlen, hdecs, hr, h⟩
      cases txs with
      | nil =>
        rw [show s.r = rest from hr]
        exact .inl h
      | cons tx txs =>
        rw [flatMap_cons, append_assoc] at hr
        exact .inr ⟨tx, _, decodeTx_ok.2 ⟨hdecs tx (by simp), _, hr, rfl⟩, ih.2 ⟨txs, rest,
          by simpa using hlen, fun t ht => hdecs t (by simp [ht]), rfl, h⟩⟩

theorem panics_times_decodeTxLoc {n fullLen : Nat} :
    Panics (Prog.times n (decodeTxLoc fullLen)) s ↔
      Panics (Prog.times n (decodeTx .witness)) s := by
  induction n generalizing s with
  | zero => exact ⟨fun h => absurd h (not_panics (.pure _)), fun h => absurd h (not_panics (.pure _))⟩
  | succ n ih =>
    have hstep : Panics (decodeTxLoc fullLen) s ↔ Panics (decodeTx .witness) s := by
      rw [decodeTxLoc, panics_get_bind, panics_bind_left fun _ => Raises.get.bind fun _ => .pure _]
    rw [panics_times_succ, panics_times_succ, hstep]
    refine or_congr Iff.rfl ?_
    constructor
    · rintro ⟨a, s₁, ha, h⟩
      rw [decodeTxLoc, exec_get_bind] at ha
      obtain ⟨tx, s₂, htx, ha⟩ := exec_bind_eq_ok.1 ha
      cases ha
      exact ⟨tx, _, htx, ih.1 h⟩
    · rintro ⟨tx, s₁, htx, h⟩
      refine ⟨(tx, ⟨fullLen - s.r.length, fullLen - s₁.r.length - (fullLen - s.r.length)⟩), s₁, ?_,
        ih.2 h⟩
      rw [decodeTxLoc, exec_get_bind]
      exact exec_bind_of_ok htx

theorem raises_readTxCount (func : String) : Raises Returned (readTxCount func) := by
  refine .bind ?_ fun _ => raises_readVarInt.bind fun _ => raises_require.bind fun _ => .pure _
  exact (raises_readUint 4).bind fun _ => (raises_readFull 32).bind fun _ =>
    (raises_readFull 32).bind fun _ => (raises_readUint 4).bind fun _ =>
    (raises_readUint 4).bind fun _ => (raises_readUint 4).bind fun _ => .pure _

/-- A block panics in one of its transactions. -/
theorem panics_readTxCount_bind {func : String} {f : BlockHeader × Nat → DecM β}
    (hf : ∀ header n s, Panics (f (header, n)) s ↔ Panics (Prog.times n (decodeTx enc)) s) :
    Panics (readTxCount func >>= f) s ↔ BlockOverclaims enc s.r := by
  rw [panics_bind_right (raises_readTxCount func)]
  constructor
  · rintro ⟨⟨header, n⟩, s₁, h₁, h⟩
    obtain ⟨hmax, rest₁, hr, rfl⟩ := readTxCount_ok.1 h₁
    obtain ⟨txs, rest, hlen, hdecs, hr', h⟩ := panics_times_decodeTx.1 ((hf header n _).1 h)
    exact ⟨header, n, txs, rest, hmax, hlen, hdecs, by rw [hr, ← show rest₁ = _ from hr'], h⟩
  · rintro ⟨header, n, txs, rest, hmax, hlen, hdecs, hr, h⟩
    exact ⟨(header, n), _, readTxCount_ok.2 ⟨hmax, _, hr, rfl⟩,
      (hf header n _).2 (panics_times_decodeTx.2 ⟨txs, rest, hlen, hdecs, rfl, h⟩)⟩

theorem decodeBlock_panics_iff : Panics (decodeBlock enc) s ↔ BlockOverclaims enc s.r := by
  exact panics_readTxCount_bind fun header n s => panics_bind_left fun _ => .pure _

theorem decodeBlockTxLoc_panics_iff : Panics decodeBlockTxLoc s ↔ BlockOverclaims .witness s.r := by
  rw [decodeBlockTxLoc, panics_get_bind]
  refine panics_readTxCount_bind fun header n s => ?_
  rw [panics_bind_left fun _ => .pure _, panics_times_decodeTxLoc]

/-! ## The decoders -/

/-- A decoder ended with a value or with an error it returned. -/
def Returns {α : Type} (result : Except Abort α × Bytes) : Prop := ∀ text, result.1 ≠ .error (.panic text)

theorem returns_decode_iff {slab : Buffer UInt8} {r : Bytes} :
    Returns (decode x slab r) ↔ ¬ Panics x { r, slab } := by
  constructor
  · rintro h ⟨text, s', hrun⟩
    exact h text (by rw [decode, hrun])
  · rintro h text heq
    exact h ⟨text, _, exec_eq_of_fst heq⟩

end Wire

/-- **When decoding ends with a value or an error.**  For every byte string, both encodings and
anything the shared buffer holds: exactly when no transaction in the string announces a script that,
together with the scripts before it in the same transaction, is more than the shared buffer has. -/
theorem decoding_returns_iff (slab : Buffer UInt8) (r : Bytes) :
    (∀ enc, Wire.Returns (MsgTx.btcDecode enc slab r) ↔ ¬ Wire.Overclaims enc r) ∧
    (∀ enc, Wire.Returns (MsgBlock.btcDecode enc slab r) ↔ ¬ Wire.BlockOverclaims enc r) ∧
    (Wire.Returns (MsgBlock.deserializeTxLoc slab r) ↔ ¬ Wire.BlockOverclaims .witness r) := by
  refine ⟨fun enc => ?_, fun enc => ?_, ?_⟩
  · rw [MsgTx.btcDecode, Wire.returns_decode_iff, Wire.decodeTx_panics_iff]
  · rw [MsgBlock.btcDecode, Wire.returns_decode_iff, Wire.decodeBlock_panics_iff]
  · rw [MsgBlock.deserializeTxLoc, Wire.returns_decode_iff, Wire.decodeBlockTxLoc_panics_iff]

/-- The beginning of a transaction of two inputs: a script of just under 200 kB, and the length of a
second one. -/
def overclaimingTx : Bytes :=
  Wire.txStart 1 false 2 ++ (([⟨⟨Hash.zero, 0⟩, List.replicate
    (Wire.scriptSlabSize - Wire.maxWitnessItemSize + 1) 0, [], 0⟩] : List TxIn).flatMap TxIn.write ++
      ((⟨Hash.zero, 0⟩ : OutPoint).write ++ (writeVarInt Wire.maxWitnessItemSize ++ [])))

/-- Decoding it panics, although nothing but its length has been seen of the second script. -/
theorem decoding_panics : ¬ Wire.Returns (MsgTx.btcDecode .witness (fun _ => 0) overclaimingTx) := by
  rw [MsgTx.btcDecode, Wire.returns_decode_iff, not_not, Wire.decodeTx_panics_iff]
  have hheld : (([⟨⟨Hash.zero, 0⟩, List.replicate (Wire.scriptSlabSize - Wire.maxWitnessItemSize + 1)
      0, [], 0⟩] : List TxIn).flatMap TxIn.signatureScript).length =
        Wire.scriptSlabSize - Wire.maxWitnessItemSize + 1 := by
    rw [List.flatMap_cons, List.flatMap_nil, List.append_nil, List.length_replicate]
  refine .signatureScript 1 false 2 _ ⟨Hash.zero, 0⟩ Wire.maxWitnessItemSize [] nofun (by decide)
    (by decide) (fun ti hti => ?_) ?_ le_rfl ?_ rfl
  · obtain rfl := List.mem_singleton.1 hti
    exact ⟨rfl, by rw [List.length_replicate]; decide⟩
  · rw [hheld]
    decide
  · rw [hheld]
    decide

end Obtcd
