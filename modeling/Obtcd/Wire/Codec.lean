import Obtcd.Wire.Decode

/-!
# What the decoders read

Each reader of `Obtcd.Wire.Decode` is characterised once, by when it succeeds: it does exactly if the
bytes begin with the encoding of a value that is within its limits, and then it returns that value
and leaves the rest.  The two directions are the two halves of a canonical encoding.

For a part of the format that holds scripts the value is not returned as such, since the scripts are
slices of the slab at that time.  A `Format` says how a value is encoded, which script bytes it
holds, and what it looks like when those lie in the slab from some position on; `Reads x F` says that
`x` reads `F`.  A loop reads a list of what its body reads (`Reads.times`).
-/

namespace Obtcd

open Bytes Prog List

namespace Wire


variable {s s' : Stream}

/-! ## Numbers -/

variable {n : Nat}

theorem exec_readFull_of_le (h : n ≤ s.r.length) :
    exec (readFull n) s = (.ok ⟨s.r.take n, length_take_of_le h⟩, { s with r := s.r.drop n }) := by
  rw [readFull, exec_get_bind, exec_bind, exec_set]
  simp only [dif_pos h, exec_pure]

theorem exec_readFull_of_lt (h : s.r.length < n) :
    exec (readFull n) s =
      (.error (.error (if s.r = [] then .eof else .unexpectedEOF)), { s with r := s.r.drop n }) := by
  rw [readFull, exec_get_bind, exec_bind, exec_set]
  rw [dif_neg (Nat.not_le.2 h)]
  rfl

theorem readFull_ok {bs : Bytes.Sized n} :
    exec (readFull n) s = (.ok bs, s') ↔ ∃ rest, s.r = bs.val ++ rest ∧ s' = { s with r := rest } := by
  constructor
  · intro h
    rcases Nat.lt_or_ge s.r.length n with hlt | hle
    · rw [exec_readFull_of_lt hlt] at h
      cases h
    · rw [exec_readFull_of_le hle] at h
      obtain ⟨hbs, rfl⟩ := Prod.mk.inj h
      rw [← Except.ok.inj hbs]
      exact ⟨_, (take_append_drop n s.r).symm, rfl⟩
  · rintro ⟨rest, hr, rfl⟩
    have htake : s.r.take n = bs.val := by
      rw [hr]
      exact take_left' bs.property
    have hdrop : s.r.drop n = rest := by
      rw [hr]
      exact drop_left' bs.property
    have hle : n ≤ s.r.length := by
      have := bs.property
      rw [hr, length_append]
      omega
    rw [exec_readFull_of_le hle, hdrop]
    exact Prod.ext (congrArg Except.ok (Subtype.ext htake)) rfl

theorem readUint_ok {w : Nat} :
    exec (readUint w) s = (.ok n, s') ↔
      n < 256 ^ w ∧ ∃ rest, s.r = le w n ++ rest ∧ s' = { s with r := rest } := by
  rw [readUint, exec_bind_eq_ok]
  constructor
  · rintro ⟨bs, s₁, h, hret⟩
    obtain ⟨rest, hr, rfl⟩ := readFull_ok.1 h
    obtain ⟨hn, rfl⟩ := Prod.mk.inj hret
    cases hn
    have hlt := leNat_lt bs.val
    have hle := le_leNat bs.val
    rw [bs.property] at hlt hle
    exact ⟨hlt, rest, by rw [hle, hr], rfl⟩
  · rintro ⟨hn, rest, hr, rfl⟩
    refine ⟨⟨le w n, length_le w n⟩, _, readFull_ok.2 ⟨rest, hr, rfl⟩, ?_⟩
    rw [leNat_le_of_lt hn, exec_pure]

theorem readMarked_ok {d w min : Nat} :
    exec (readMarked d w min) s = (.ok n, s') ↔
      min ≤ n ∧ n < 256 ^ w ∧ ∃ rest, s.r = le w n ++ rest ∧ s' = { s with r := rest } := by
  rw [readMarked, exec_bind_eq_ok]
  constructor
  · rintro ⟨rv, s₁, h, hret⟩
    obtain ⟨hmin, hret⟩ := exec_require_bind_eq_ok.1 hret
    obtain ⟨hn, rfl⟩ := Prod.mk.inj hret
    cases hn
    exact ⟨hmin, readUint_ok.1 h⟩
  · rintro ⟨hmin, h⟩
    exact ⟨n, s', readUint_ok.2 h, exec_require_bind_eq_ok.2 ⟨hmin, rfl⟩⟩

theorem le_one_eq {d : Nat} (b : UInt8) (h : b.toNat = d) : le 1 d = [b] := by
  rw [← h]
  simp [le]

/-- A variable length integer is read from its encoding and from nothing else. -/
theorem readVarInt_ok :
    exec readVarInt s = (.ok n, s') ↔
      n < 2 ^ 64 ∧ ∃ rest, s.r = writeVarInt n ++ rest ∧ s' = { s with r := rest } := by
  rw [readVarInt, exec_bind_eq_ok]
  constructor
  · rintro ⟨d, s₁, hd, h⟩
    obtain ⟨hlt, rest, hr, rfl⟩ := readUint_ok.1 hd
    split at h
    · rename_i hff
      obtain ⟨hmin, hn, rest', hr', rfl⟩ := readMarked_ok.1 h
      refine ⟨by omega, rest', ?_, rfl⟩
      rw [writeVarInt, if_neg (by omega), if_neg (by omega), if_neg (by omega), hr,
        le_one_eq 0xff hff.symm, singleton_append, cons_append]
      exact congrArg _ hr'
    split at h
    · rename_i hfe
      obtain ⟨hmin, hn, rest', hr', rfl⟩ := readMarked_ok.1 h
      refine ⟨by omega, rest', ?_, rfl⟩
      rw [writeVarInt, if_neg (by omega), if_neg (by omega), if_pos (by omega), hr,
        le_one_eq 0xfe hfe.symm, singleton_append, cons_append]
      exact congrArg _ hr'
    split at h
    · rename_i hfd
      obtain ⟨hmin, hn, rest', hr', rfl⟩ := readMarked_ok.1 h
      refine ⟨by omega, rest', ?_, rfl⟩
      rw [writeVarInt, if_neg (by omega), if_pos (by omega), hr,
        le_one_eq 0xfd hfd.symm, singleton_append, cons_append]
      exact congrArg _ hr'
    · obtain ⟨hn, rfl⟩ := Prod.mk.inj h
      cases hn
      refine ⟨by omega, rest, ?_, rfl⟩
      rw [writeVarInt, if_pos (by omega), hr]
  · rintro ⟨hlt, rest, hr, rfl⟩
    rw [writeVarInt] at hr
    split at hr
    · refine ⟨n, _, readUint_ok.2 ⟨by omega, rest, hr, rfl⟩, ?_⟩
      rw [if_neg (by omega), if_neg (by omega), if_neg (by omega), exec_pure]
    split at hr
    · refine ⟨0xfd, { s with r := le 2 n ++ rest }, readUint_ok.2 ⟨by omega, _, hr, rfl⟩, ?_⟩
      rw [if_neg (by omega), if_neg (by omega), if_pos rfl]
      exact readMarked_ok.2 ⟨by omega, by omega, rest, rfl, rfl⟩
    split at hr
    · refine ⟨0xfe, { s with r := le 4 n ++ rest }, readUint_ok.2 ⟨by omega, _, hr, rfl⟩, ?_⟩
      rw [if_neg (by omega), if_pos rfl]
      exact readMarked_ok.2 ⟨by omega, by omega, rest, rfl, rfl⟩
    · refine ⟨0xff, { s with r := le 8 n ++ rest }, readUint_ok.2 ⟨by omega, _, hr, rfl⟩, ?_⟩
      rw [if_pos rfl]
      exact readMarked_ok.2 ⟨by omega, by omega, rest, rfl, rfl⟩

/-! ## Errors and panics -/

/-- An error that is returned, and not a panic. -/
def Returned (e : Abort) : Prop := ∃ err, e = .error err

theorem raises_require {c : Prop} [Decidable c] {e : DecodeError} :
    Prog.Raises Returned (require c (.error e) : DecM Unit) := by
  intro s e' s' h
  rw [exec_require] at h
  by_cases hc : c
  · simp [hc] at h
  · exact ⟨e, by simpa [hc] using (Prod.mk.inj h).1.symm⟩

theorem raises_readFull (n : Nat) : Prog.Raises Returned (readFull n) := by
  intro s e s' h
  rcases Nat.lt_or_ge s.r.length n with hlt | hle
  · rw [exec_readFull_of_lt hlt] at h
    exact ⟨_, (Except.error.inj (Prod.mk.inj h).1).symm⟩
  · rw [exec_readFull_of_le hle] at h
    cases h

theorem raises_readUint (w : Nat) : Prog.Raises Returned (readUint w) :=
  (raises_readFull w).bind fun _ => .pure _

theorem raises_readMarked (d w min : Nat) : Prog.Raises Returned (readMarked d w min) :=
  (raises_readUint w).bind fun _ => raises_require.bind fun _ => .pure _

theorem raises_readVarInt : Prog.Raises Returned readVarInt := by
  refine (raises_readUint 1).bind fun d => ?_
  split_ifs
  · exact raises_readMarked d _ _
  · exact raises_readMarked d _ _
  · exact raises_readMarked d _ _
  · exact .pure d

/-- An outcome that is no returned error: a value, or a panic. -/
def Settled {α : Type} (Q : Except Abort α × Stream → Prop) : Prop := ∀ e s, ¬ Q (.error (.error e), s)

section Settled

variable {α β : Type} {x : DecM α} {f : α → DecM β} {Q : Except Abort β × Stream → Prop}

/-- Such an outcome comes after a reader that cannot panic, if that reader has succeeded. -/
theorem Settled.bind (hQ : Settled Q) (hx : Prog.Raises Returned x) :
    Q (exec (x >>= f) s) ↔ ∃ a s₁, exec x s = (.ok a, s₁) ∧ Q (exec (f a) s₁) := by
  rw [exec_bind]
  rcases hrun : exec x s with ⟨r, s₁⟩
  cases r with
  | ok a => simp
  | error e =>
    obtain ⟨err, rfl⟩ := hx s e s₁ hrun
    simp [hQ err s₁]

theorem Settled.require_bind {c : Prop} [Decidable c] {e : DecodeError} {f : Unit → DecM β}
    (hQ : Settled Q) : Q (exec (require c (.error e) >>= f) s) ↔ c ∧ Q (exec (f ()) s) := by
  rw [exec_bind, exec_require]
  by_cases hc : c <;> simp [hc, hQ e s]

end Settled

/-! ## Formats -/

/-- The stream when `held` has been put into the slab and `rest` is left to be read. -/
def Stream.after (s : Stream) (held rest : Bytes) : Stream :=
  ⟨rest, s.slab.store s.sbuf held, s.sbuf + held.length⟩

@[simp] theorem Stream.sbuf_after (s : Stream) (held rest : Bytes) :
    (s.after held rest).sbuf = s.sbuf + held.length := rfl

@[simp] theorem Stream.r_after (s : Stream) (held rest : Bytes) : (s.after held rest).r = rest := rfl

theorem Stream.after_nil (s : Stream) (rest : Bytes) : s.after [] rest = { s with r := rest } := by
  rw [after, Buffer.store_nil]
  rfl

theorem Stream.after_after (s : Stream) (a b rest rest' : Bytes) :
    (s.after a rest).after b rest' = s.after (a ++ b) rest' := by
  simp [after, Buffer.store_store, Nat.add_assoc]

/-- A part of the wire format whose values `β` appear as `α` while they are decoded. -/
structure Format (α β : Type) where
  /-- How a value is written. -/
  enc : β → Bytes
  /-- The script bytes a value holds, in the order they are read. -/
  held : β → Bytes
  /-- What a value looks like when the bytes it holds lie in the slab from a position on. -/
  raw : Nat → β → α
  /-- The limits of the decoder. -/
  Fits : β → Prop

variable {α β : Type} {x : DecM α} {F : Format α β}

/-- The decoder succeeds exactly on the encodings of values within the limits, as long as the slab
has room for the bytes they hold. -/
def Reads (x : DecM α) (F : Format α β) : Prop :=
  ∀ ⦃s : Stream⦄, s.sbuf ≤ scriptSlabSize → ∀ {a : α} {s' : Stream},
    exec x s = (.ok a, s') ↔ ∃ b rest, F.Fits b ∧ s.sbuf + (F.held b).length ≤ scriptSlabSize ∧
      s.r = F.enc b ++ rest ∧ a = F.raw s.sbuf b ∧ s' = s.after (F.held b) rest

/-- How a list of values lies in the slab. -/
def Format.lay (F : Format α β) : Nat → List β → List α
  | _, [] => []
  | off, b :: bs => F.raw off b :: lay F (off + (F.held b).length) bs

@[simp] theorem Format.length_lay (F : Format α β) (off : Nat) (bs : List β) :
    (F.lay off bs).length = bs.length := by
  induction bs generalizing off with
  | nil => rfl
  | cons b bs ih => rw [lay, length_cons, length_cons, ih]

/-- The format of `n` values one after the other. -/
def Format.list (F : Format α β) (n : Nat) : Format (List α) (List β) where
  enc := List.flatMap F.enc
  held := List.flatMap F.held
  raw := F.lay
  Fits l := l.length = n ∧ ∀ b ∈ l, F.Fits b

/-- A loop reads a list. -/
theorem Reads.times (hx : Reads x F) (n : Nat) : Reads (times n x) (F.list n) := by
  induction n with
  | zero =>
    intro s hs a s'
    rw [exec_times_zero]
    constructor
    · intro h
      obtain ⟨ha, rfl⟩ := Prod.mk.inj h
      refine ⟨[], s.r, ⟨rfl, by simp⟩, hs, rfl, (Except.ok.inj ha).symm, ?_⟩
      exact (s.after_nil s.r).symm
    · rintro ⟨l, rest, ⟨hl, -⟩, -, hr, rfl, rfl⟩
      obtain rfl := length_eq_zero_iff.1 hl
      have hr : s.r = rest := hr
      exact Prod.ext rfl (by rw [← hr]; exact (s.after_nil s.r).symm)
  | succ n ih =>
    intro s hs a s'
    rw [exec_times_succ_eq_ok]
    constructor
    · rintro ⟨a₁, s₁, l', h₁, h₂, rfl⟩
      obtain ⟨b, rest, hb, hroom, hr, rfl, rfl⟩ := (hx hs).1 h₁
      obtain ⟨l, rest', ⟨hlen, hl⟩, hroom', hr', rfl, rfl⟩ := (ih hroom).1 h₂
      refine ⟨b :: l, rest', ⟨by rw [length_cons, hlen], ?_⟩, ?_, ?_, rfl, ?_⟩
      · intro c hc
        rcases mem_cons.1 hc with rfl | hc
        · exact hb
        · exact hl c hc
      · simpa [Format.list, Nat.add_assoc] using hroom'
      · rw [hr, show rest = _ from hr']
        simp [Format.list]
      · exact s.after_after _ _ _ _
    · rintro ⟨l, rest, ⟨hlen, hl⟩, hroom, hr, rfl, rfl⟩
      cases l with
      | nil => simp at hlen
      | cons b l =>
        have hroom : s.sbuf + ((F.held b).length + (l.flatMap F.held).length) ≤ scriptSlabSize := by
          simpa [Format.list] using hroom
        have hb : s.sbuf + (F.held b).length ≤ scriptSlabSize := by omega
        have h₁ := (hx hs).2 ⟨b, l.flatMap F.enc ++ rest, hl b (by simp), hb,
          by rw [hr]; simp [Format.list], rfl, rfl⟩
        have h₂ := (ih (s := s.after (F.held b) (l.flatMap F.enc ++ rest)) hb).2
          ⟨l, rest, ⟨by simpa using hlen, fun c hc => hl c (by simp [hc])⟩,
            by simpa [Format.list, Nat.add_assoc] using hroom, rfl, rfl, rfl⟩
        rw [s.after_after] at h₂
        exact ⟨_, _, _, h₁, h₂, rfl⟩

/-- What comes of a loop and what follows it: the loop panics, or it has read its list. -/
theorem Settled.times_bind {γ : Type} {Q : Except Abort γ × Stream → Prop} (hQ : Settled Q)
    (hx : Reads x F) {n : Nat} {f : List α → DecM γ} (hs : s.sbuf ≤ scriptSlabSize) :
    Q (exec (times n x >>= f) s) ↔
      (∃ text s₁, exec (times n x) s = (.error (.panic text), s₁) ∧ Q (.error (.panic text), s₁)) ∨
      ∃ bs rest, bs.length = n ∧ (∀ b ∈ bs, F.Fits b) ∧
        s.sbuf + (bs.flatMap F.held).length ≤ scriptSlabSize ∧ s.r = bs.flatMap F.enc ++ rest ∧
        Q (exec (f (F.lay s.sbuf bs)) (s.after (bs.flatMap F.held) rest)) := by
  constructor
  · intro h
    rw [exec_bind] at h
    rcases hrun : exec (times n x) s with ⟨(err | text) | a, s₁⟩ <;> rw [hrun] at h
    · exact absurd h (hQ err s₁)
    · exact .inl ⟨text, s₁, rfl, h⟩
    · obtain ⟨bs, rest, ⟨hlen, hfits⟩, hroom, hr, rfl, rfl⟩ := (hx.times n hs).1 hrun
      exact .inr ⟨bs, rest, hlen, hfits, hroom, hr, h⟩
  · rintro (⟨text, s₁, hrun, h⟩ | ⟨bs, rest, hlen, hfits, hroom, hr, h⟩)
    · rwa [exec_bind, hrun]
    · rwa [exec_bind_of_ok ((hx.times n hs).2 ⟨bs, rest, ⟨hlen, hfits⟩, hroom, hr, rfl, rfl⟩)]

/-! ## Scripts, inputs and outputs -/

theorem readScriptBuf_ok {fieldName : String} {sl : Slice} :
    exec (readScriptBuf fieldName) s = (.ok sl, s') ↔
      ∃ bs rest, bs.length ≤ maxWitnessItemSize ∧ s.sbuf + bs.length ≤ scriptSlabSize ∧
        s.r = writeVarBytes bs ++ rest ∧ sl = ⟨s.sbuf, bs.length⟩ ∧
        s' = { s with r := rest, slab := s.slab.store s.sbuf bs } := by
  rw [readScriptBuf, exec_bind_eq_ok]
  constructor
  · rintro ⟨count, s₁, hcount, h⟩
    obtain ⟨-, rest₁, hr, rfl⟩ := readVarInt_ok.1 hcount
    obtain ⟨hmax, h⟩ := exec_require_bind_eq_ok.1 h
    rw [exec_get_bind] at h
    obtain ⟨hroom, h⟩ := exec_require_bind_eq_ok.1 h
    obtain ⟨bs, s₂, hbs, h⟩ := exec_bind_eq_ok.1 h
    obtain ⟨rest, hr', rfl⟩ := readFull_ok.1 hbs
    rw [exec_modify_bind] at h
    obtain ⟨hsl, rfl⟩ := Prod.mk.inj h
    have hlen := bs.property
    refine ⟨bs.val, rest, by omega, ?_, ?_, ?_, rfl⟩
    · rwa [hlen]
    · rw [writeVarBytes, hlen, hr, append_assoc]
      exact congrArg _ hr'
    · rw [hlen]
      exact (Except.ok.inj hsl).symm
  · rintro ⟨bs, rest, hmax, hroom, hr, rfl, rfl⟩
    refine ⟨bs.length, { s with r := bs ++ rest }, readVarInt_ok.2 ⟨?_, bs ++ rest, ?_, rfl⟩, ?_⟩
    · rw [maxWitnessItemSize] at hmax
      omega
    · rw [hr, writeVarBytes, append_assoc]
    refine exec_require_bind_eq_ok.2 ⟨hmax, ?_⟩
    rw [exec_get_bind]
    refine exec_require_bind_eq_ok.2 ⟨hroom, exec_bind_eq_ok.2
      ⟨⟨bs, rfl⟩, _, readFull_ok.2 ⟨rest, rfl, rfl⟩, ?_⟩⟩
    rw [exec_modify_bind, exec_pure]

theorem readOutPoint_ok {op : OutPoint} :
    exec readOutPoint s = (.ok op, s') ↔
      ∃ rest, s.r = op.write ++ rest ∧ s' = { s with r := rest } := by
  rw [readOutPoint, exec_bind_eq_ok]
  constructor
  · rintro ⟨hash, s₁, hhash, h⟩
    obtain ⟨rest₁, hr, rfl⟩ := readFull_ok.1 hhash
    obtain ⟨index, s₂, hindex, h⟩ := exec_bind_eq_ok.1 h
    obtain ⟨hlt, rest, hr', rfl⟩ := readUint_ok.1 hindex
    obtain ⟨hop, rfl⟩ := Prod.mk.inj h
    rw [← Except.ok.inj hop]
    refine ⟨rest, ?_, rfl⟩
    rw [OutPoint.write, UInt32.toNat_ofNat_of_lt' hlt, hr, append_assoc]
    exact congrArg _ hr'
  · rintro ⟨rest, hr, rfl⟩
    rw [OutPoint.write, append_assoc] at hr
    refine ⟨op.hash.bytes, _, readFull_ok.2 ⟨_, hr, rfl⟩, exec_bind_eq_ok.2
      ⟨op.index.toNat, _, readUint_ok.2 ⟨op.index.toNat_lt, rest, rfl, rfl⟩, ?_⟩⟩
    rw [UInt32.ofNat_toNat, exec_pure]

@[simp] theorem exec_advance (n : Nat) :
    exec (advance n) s = (.ok (), { s with sbuf := s.sbuf + n }) := rfl

/-- A script or a witness item. -/
def itemFormat : Format Slice Bytes where
  enc := writeVarBytes
  held := id
  raw off b := ⟨off, b.length⟩
  Fits b := b.length ≤ maxWitnessItemSize

/-- An input, without its witness. -/
def txInFormat : Format RawTxIn TxIn where
  enc := TxIn.write
  held := TxIn.signatureScript
  raw off ti := ⟨ti.previousOutPoint, ⟨off, ti.signatureScript.length⟩, [], ti.sequence⟩
  Fits ti := ti.witness = [] ∧ ti.signatureScript.length ≤ maxWitnessItemSize

/-- An output. -/
def txOutFormat : Format RawTxOut TxOut where
  enc := TxOut.write
  held := TxOut.pkScript
  raw off out := ⟨out.value, ⟨off, out.pkScript.length⟩⟩
  Fits out := out.pkScript.length ≤ maxWitnessItemSize

theorem reads_nextWitnessItem : Reads nextWitnessItem itemFormat := by
  intro s hs a s'
  rw [nextWitnessItem, exec_bind_eq_ok]
  constructor
  · rintro ⟨sl, s₁, hsl, h⟩
    obtain ⟨bs, rest, hmax, hroom, hr, rfl, rfl⟩ := readScriptBuf_ok.1 hsl
    rw [exec_bind, exec_advance] at h
    obtain ⟨ha, rfl⟩ := Prod.mk.inj h
    exact ⟨bs, rest, hmax, hroom, hr, (Except.ok.inj ha).symm, rfl⟩
  · rintro ⟨bs, rest, hmax, hroom, hr, rfl, rfl⟩
    refine ⟨_, _, readScriptBuf_ok.2 ⟨bs, rest, hmax, hroom, hr, rfl, rfl⟩, ?_⟩
    rw [exec_bind, exec_advance]
    rfl

theorem reads_nextTxOut : Reads nextTxOut txOutFormat := by
  intro s hs a s'
  rw [nextTxOut, readTxOut, exec_bind_eq_ok]
  constructor
  · rintro ⟨out, s₁, hout, h⟩
    obtain ⟨value, s₂, hvalue, hout⟩ := exec_bind_eq_ok.1 hout
    obtain ⟨hlt, rest₁, hr, rfl⟩ := readUint_ok.1 hvalue
    obtain ⟨sl, s₃, hsl, hout⟩ := exec_bind_eq_ok.1 hout
    obtain ⟨bs, rest, hmax, hroom, hr', rfl, rfl⟩ := readScriptBuf_ok.1 hsl
    obtain ⟨hraw, rfl⟩ := Prod.mk.inj hout
    cases hraw
    rw [exec_bind, exec_advance] at h
    obtain ⟨ha, rfl⟩ := Prod.mk.inj h
    refine ⟨⟨(UInt64.ofNat value).toInt64, bs⟩, rest, hmax, hroom, ?_, (Except.ok.inj ha).symm, rfl⟩
    show _ = TxOut.write _ ++ _
    rw [TxOut.write, UInt64.toUInt64_toInt64, UInt64.toNat_ofNat_of_lt' hlt, hr, append_assoc]
    exact congrArg _ hr'
  · rintro ⟨out, rest, hmax, hroom, hr, rfl, rfl⟩
    have hr : s.r = le 8 out.value.toUInt64.toNat ++ (writeVarBytes out.pkScript ++ rest) := by
      rw [hr, ← append_assoc]
      rfl
    refine ⟨_, _, exec_bind_eq_ok.2 ⟨_, _, readUint_ok.2 ⟨out.value.toUInt64.toNat_lt, _, hr,
      rfl⟩, exec_bind_eq_ok.2 ⟨_, _, readScriptBuf_ok.2 ⟨out.pkScript, rest, hmax, hroom, rfl,
      rfl, rfl⟩, rfl⟩⟩, ?_⟩
    rw [exec_bind, exec_advance, UInt64.ofNat_toNat, Int64.toInt64_toUInt64]
    rfl

theorem reads_nextTxIn : Reads nextTxIn txInFormat := by
  intro s hs a s'
  rw [nextTxIn, readTxIn, exec_bind_eq_ok]
  constructor
  · rintro ⟨ti, s₁, hti, h⟩
    obtain ⟨op, s₂, hop, hti⟩ := exec_bind_eq_ok.1 hti
    obtain ⟨rest₁, hr, rfl⟩ := readOutPoint_ok.1 hop
    obtain ⟨sl, s₃, hsl, hti⟩ := exec_bind_eq_ok.1 hti
    obtain ⟨bs, rest₂, hmax, hroom, hr₂, rfl, rfl⟩ := readScriptBuf_ok.1 hsl
    obtain ⟨seq, s₄, hseq, hti⟩ := exec_bind_eq_ok.1 hti
    obtain ⟨hlt, rest, hr₃, rfl⟩ := readUint_ok.1 hseq
    obtain ⟨hraw, rfl⟩ := Prod.mk.inj hti
    cases hraw
    rw [exec_bind, exec_advance] at h
    obtain ⟨ha, rfl⟩ := Prod.mk.inj h
    refine ⟨⟨op, bs, [], UInt32.ofNat seq⟩, rest, ⟨rfl, hmax⟩, hroom, ?_, (Except.ok.inj ha).symm,
      rfl⟩
    show _ = TxIn.write _ ++ _
    rw [TxIn.write, UInt32.toNat_ofNat_of_lt' hlt, hr, append_assoc, append_assoc]
    refine congrArg _ (Eq.trans hr₂ ?_)
    exact congrArg _ hr₃
  · rintro ⟨ti, rest, ⟨hwit, hmax⟩, hroom, hr, rfl, rfl⟩
    have hr : s.r = ti.previousOutPoint.write ++
        (writeVarBytes ti.signatureScript ++ (le 4 ti.sequence.toNat ++ rest)) := by
      rw [hr]
      simp [txInFormat, TxIn.write]
    refine ⟨_, _, exec_bind_eq_ok.2 ⟨_, _, readOutPoint_ok.2 ⟨_, hr, rfl⟩,
      exec_bind_eq_ok.2 ⟨_, _, readScriptBuf_ok.2 ⟨ti.signatureScript, _, hmax, hroom, rfl, rfl,
      rfl⟩, exec_bind_eq_ok.2 ⟨_, _, readUint_ok.2 ⟨ti.sequence.toNat_lt, rest, rfl, rfl⟩,
      rfl⟩⟩⟩, ?_⟩
    rw [exec_bind, exec_advance, UInt32.ofNat_toNat]
    rfl

/-! ## Witnesses -/

/-- The witness of an input. -/
def witnessFormat : Format (List Slice) (List Bytes) where
  enc := writeTxWitness
  held := List.flatten
  raw := itemFormat.lay
  Fits w := w.length ≤ maxWitnessItemsPerInput ∧ ∀ b ∈ w, b.length ≤ maxWitnessItemSize

theorem reads_readWitness : Reads readWitness witnessFormat := by
  intro s hs a s'
  rw [readWitness, exec_bind_eq_ok]
  constructor
  · rintro ⟨n, s₁, hn, h⟩
    obtain ⟨-, rest₁, hr, rfl⟩ := readVarInt_ok.1 hn
    obtain ⟨hmax, h⟩ := exec_require_bind_eq_ok.1 h
    obtain ⟨w, rest, ⟨rfl, hw⟩, hroom, hr', rfl, rfl⟩ :=
      (reads_nextWitnessItem.times n (s := { s with r := rest₁ }) hs).1 h
    have hheld : w.flatMap itemFormat.held = w.flatten := flatMap_id
    refine ⟨w, rest, ⟨hmax, hw⟩, ?_, ?_, rfl, ?_⟩
    · rwa [show witnessFormat.held w = _ from hheld.symm]
    · show s.r = writeTxWitness w ++ rest
      rw [writeTxWitness, append_assoc, hr]
      exact congrArg _ hr'
    · rw [show witnessFormat.held w = _ from hheld.symm]
      rfl
  · rintro ⟨w, rest, ⟨hmax, hw⟩, hroom, hr, rfl, rfl⟩
    have hheld : w.flatMap itemFormat.held = w.flatten := flatMap_id
    have hr : s.r = writeVarInt w.length ++ (w.flatMap writeVarBytes ++ rest) := by
      rw [hr, ← append_assoc]
      rfl
    refine ⟨w.length, _, readVarInt_ok.2 ⟨?_, _, hr, rfl⟩, exec_require_bind_eq_ok.2 ⟨hmax, ?_⟩⟩
    · rw [maxWitnessItemsPerInput] at hmax
      omega
    have hroom : s.sbuf + (w.flatMap itemFormat.held).length ≤ scriptSlabSize := by
      rwa [hheld]
    refine (reads_nextWitnessItem.times _
      (s := { s with r := w.flatMap writeVarBytes ++ rest }) hs).2
      ⟨w, rest, ⟨rfl, hw⟩, hroom, rfl, rfl, ?_⟩
    show s.after w.flatten rest = _
    rw [← hheld]
    rfl

end Wire

end Obtcd
