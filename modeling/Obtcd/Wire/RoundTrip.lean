import Obtcd.Wire.Codec

/-!
# Decoding is the inverse of encoding

The readers of `Obtcd.Wire.Codec` put together.  Two things remain once every part of a transaction
has been read.  The scripts are slices of the slab, each behind the one before, so that none is
overwritten by a later one (`Format.Resolves`); and they are copied to a buffer of their own, where
again none overwrites another (`packTx_eq`).

The decoder is taken apart from its front (`decodeTx_iff`, `decodeOutputs_iff`), in the same way
for what it returns and for its panics.  At its end every script is a slice of the slab, and
`decodeTail_ok` reads off there what the transaction is.

`decodeTx_ok` is the outcome: a transaction is decoded exactly from its encoding.  The encoding with
witnesses needs an input, since a number of zero inputs is read as the marker of a flag.
-/

namespace Obtcd

open List

namespace Wire

open Prog (exec exec_bind_eq_ok exec_require_bind_eq_ok exec_get_bind times)

variable {α β γ : Type} {s s' : Stream}

/-! ## Slices of the slab -/

/-- A value can be read off the slab once the bytes it holds are there, whatever is put behind
them. -/
structure Format.Resolves (F : Format α β) (value : Buffer UInt8 → α → β) : Prop where
  self : ∀ (m : Buffer UInt8) off b, F.Fits b → value (m.store off (F.held b)) (F.raw off b) = b
  frame : ∀ (m : Buffer UInt8) off b k l, off + (F.held b).length ≤ k →
    value (m.store k l) (F.raw off b) = value m (F.raw off b)

theorem Format.Resolves.frame_lay {F : Format α β} {value : Buffer UInt8 → α → β}
    (h : F.Resolves value) (m : Buffer UInt8) {off k : Nat} {bs : List β} (l : Bytes)
    (hk : off + (bs.flatMap F.held).length ≤ k) :
    (F.lay off bs).map (value (m.store k l)) = (F.lay off bs).map (value m) := by
  induction bs generalizing off with
  | nil => rfl
  | cons b bs ih =>
    rw [flatMap_cons, length_append] at hk
    rw [lay, map_cons, map_cons, h.frame m off b k l (by omega), ih (by omega)]

/-- Every value of a list is found where it has been put. -/
theorem Format.Resolves.lay {F : Format α β} {value : Buffer UInt8 → α → β} (h : F.Resolves value)
    (m : Buffer UInt8) (off : Nat) {bs : List β} (hbs : ∀ b ∈ bs, F.Fits b) :
    (F.lay off bs).map (value (m.store off (bs.flatMap F.held))) = bs := by
  induction bs generalizing m off with
  | nil => rfl
  | cons b bs ih =>
    rw [flatMap_cons, ← Buffer.store_store, Format.lay, map_cons, h.frame _ _ _ _ _ le_rfl,
      h.self m off b (hbs b (by simp)), ih _ _ fun c hc => hbs c (by simp [hc])]

theorem resolves_itemFormat : itemFormat.Resolves Buffer.load where
  self m off b _ := m.load_store off b
  frame m _ _ _ l h := m.load_store_of_le h l

theorem resolves_txInFormat : txInFormat.Resolves RawTxIn.resolve where
  self m off ti h := by
    obtain ⟨op, script, witness, sequence⟩ := ti
    obtain rfl : witness = [] := h.1
    simp only [RawTxIn.resolve, txInFormat, m.load_store off script, map_nil]
  frame m off ti k l h := by
    simp only [RawTxIn.resolve, txInFormat, map_nil]
    rw [m.load_store_of_le h l]

theorem resolves_txOutFormat : txOutFormat.Resolves RawTxOut.resolve where
  self m off out _ := by
    simp only [RawTxOut.resolve, txOutFormat, m.load_store off out.pkScript]
  frame m off out k l h := by
    simp only [RawTxOut.resolve, txOutFormat]
    rw [m.load_store_of_le h l]

theorem resolves_witnessFormat : witnessFormat.Resolves fun m w => w.map m.load where
  self m off w h := by
    have := resolves_itemFormat.lay m off h.2
    rwa [show w.flatMap itemFormat.held = w.flatten from flatMap_id] at this
  frame m off w k l h := by
    refine resolves_itemFormat.frame_lay m l ?_
    rwa [show w.flatMap itemFormat.held = w.flatten from flatMap_id]

/-! ## The buffer of the scripts -/

/-- Two buffers hold the same up to position `k`. -/
def Agree (m m' : Buffer UInt8) (k : Nat) : Prop := ∀ i < k, m i = m' i

theorem Agree.load {m m' : Buffer UInt8} {k : Nat} (h : Agree m m' k) (sl : Slice)
    (hsl : sl.stop ≤ k) : m.load sl = m'.load sl := by
  refine map_congr_left fun i hi => h _ ?_
  have := mem_range.1 hi
  rw [Slice.stop] at hsl
  omega

theorem Agree.mono {m m' : Buffer UInt8} {j k : Nat} (h : Agree m m' k) (hjk : j ≤ k) :
    Agree m m' j := fun i hi => h i (by omega)

theorem Agree.trans {m₁ m₂ m₃ : Buffer UInt8} {k : Nat} (h : Agree m₁ m₂ k) (h' : Agree m₂ m₃ k) :
    Agree m₁ m₃ k := fun i hi => (h i hi).trans (h' i hi)

/-- The program copies `n` bytes to the end of a buffer of `size` bytes and returns something that
stands for `c` there, whatever is copied behind it. -/
def Copies (size : Nat) (x : Prog Packing Abort α) (n : Nat) (value : Buffer UInt8 → α → γ) (c : γ) :
    Prop :=
  ∀ p : Packing, p.offset + n ≤ size → ∃ a p', exec x p = (.ok a, p') ∧
    p'.offset = p.offset + n ∧ Agree p.scripts p'.scripts p.offset ∧
    ∀ m, Agree p'.scripts m p'.offset → value m a = c

variable (slab : Buffer UInt8) (size : Nat)

theorem copies_packScript (script : Slice) :
    Copies size (packScript slab size script) script.len Buffer.load (slab.load script) := by
  intro p hp
  refine ⟨⟨p.offset, script.len⟩,
    ⟨p.scripts.store p.offset (slab.load script), p.offset + script.len⟩, ?_, rfl, ?_, ?_⟩
  · rw [packScript, exec_get_bind]
    exact exec_require_bind_eq_ok.2 ⟨hp, rfl⟩
  · intro i hi
    exact (p.scripts.store_of_lt hi _).symm
  · intro m hm
    rw [← hm.load ⟨p.offset, script.len⟩ le_rfl]
    have := p.scripts.load_store p.offset (slab.load script)
    rwa [Buffer.length_load] at this

theorem Copies.mapM {size : Nat} {f : β → Prog Packing Abort α} {n : β → Nat}
    {value : Buffer UInt8 → α → γ} {c : β → γ} (h : ∀ b, Copies size (f b) (n b) value (c b))
    (l : List β) :
    Copies size (l.mapM f) (l.map n).sum (fun m as => as.map (value m)) (l.map c) := by
  induction l with
  | nil =>
    intro p _
    exact ⟨[], p, rfl, rfl, fun _ _ => rfl, fun _ _ => rfl⟩
  | cons b l ih =>
    intro p hp
    rw [map_cons, sum_cons] at hp ⊢
    obtain ⟨a, p₁, hx, hoff₁, hagree₁, hval⟩ := h b p (by omega)
    obtain ⟨as, p₂, hxs, hoff₂, hagree₂, hvals⟩ := ih p₁ (by omega)
    refine ⟨a :: as, p₂, ?_, by omega, hagree₁.trans (hagree₂.mono (by omega)), fun m hm => ?_⟩
    · rw [mapM_cons]
      exact exec_bind_eq_ok.2 ⟨a, p₁, hx, exec_bind_eq_ok.2 ⟨as, p₂, hxs, rfl⟩⟩
    · show value m a :: as.map (value m) = c b :: l.map c
      rw [hval m (hagree₂.trans (hm.mono (by omega)))]
      exact congrArg _ (hvals m hm)

theorem copies_packTxIn (ti : RawTxIn) :
    Copies size (packTxIn slab size ti) ti.size RawTxIn.resolve (ti.resolve slab) := by
  intro p hp
  rw [RawTxIn.size] at hp ⊢
  obtain ⟨script, p₁, hx, hoff₁, hagree₁, hval⟩ :=
    copies_packScript slab size ti.signatureScript p (by omega)
  obtain ⟨witness, p₂, hxs, hoff₂, hagree₂, hvals⟩ :=
    Copies.mapM (copies_packScript slab size) ti.witness p₁ (by omega)
  refine ⟨{ ti with signatureScript := script, witness }, p₂, ?_, by omega,
    hagree₁.trans (hagree₂.mono (by omega)), fun m hm => ?_⟩
  · rw [packTxIn]
    exact exec_bind_eq_ok.2 ⟨script, p₁, hx, exec_bind_eq_ok.2 ⟨witness, p₂, hxs, rfl⟩⟩
  · have hwit : witness.map m.load = ti.witness.map slab.load := hvals m hm
    simp only [RawTxIn.resolve, hwit, hval m (hagree₂.trans (hm.mono (by omega)))]

theorem copies_packTxOut (out : RawTxOut) :
    Copies size (packTxOut slab size out) out.pkScript.len RawTxOut.resolve (out.resolve slab) := by
  intro p hp
  obtain ⟨script, p₁, hx, hoff, hagree, hval⟩ :=
    copies_packScript slab size out.pkScript p hp
  refine ⟨{ out with pkScript := script }, p₁, ?_, hoff, hagree, fun m hm => ?_⟩
  · rw [packTxOut]
    exact exec_bind_eq_ok.2 ⟨script, p₁, hx, rfl⟩
  · simp only [RawTxOut.resolve, hval m hm]

/-- Copying the scripts changes nothing.  The buffer is as large as the scripts together, so no
slice is out of range, and each script arrives as it was in the slab. -/
theorem packTx_eq (version : Int32) (txIn : List RawTxIn) (txOut : List RawTxOut)
    (lockTime : UInt32) :
    packTx slab version txIn txOut lockTime =
      .ok ⟨version, txIn.map (RawTxIn.resolve slab), txOut.map (RawTxOut.resolve slab), lockTime⟩ := by
  obtain ⟨ins, p₁, hins, hoff₁, -, hvals₁⟩ :=
    Copies.mapM (copies_packTxIn slab (totalScriptSize txIn txOut)) txIn
      ⟨fun _ => 0, 0⟩ (by show 0 + _ ≤ _; rw [totalScriptSize]; omega)
  have hoff₁ : p₁.offset = (txIn.map RawTxIn.size).sum := hoff₁.trans (Nat.zero_add _)
  obtain ⟨outs, p₂, houts, hoff₂, hagree, hvals₂⟩ :=
    Copies.mapM (copies_packTxOut slab (totalScriptSize txIn txOut)) txOut
      p₁ (by rw [hoff₁, totalScriptSize])
  have hrun : exec (packScripts slab (totalScriptSize txIn txOut) txIn txOut)
      { scripts := fun _ => 0 } = (.ok (ins, outs), p₂) := by
    rw [packScripts]
    exact exec_bind_eq_ok.2 ⟨ins, p₁, hins, exec_bind_eq_ok.2 ⟨outs, p₂, houts, rfl⟩⟩
  have hin : ins.map (RawTxIn.resolve p₂.scripts) = txIn.map (RawTxIn.resolve slab) :=
    hvals₁ p₂.scripts hagree
  have hout : outs.map (RawTxOut.resolve p₂.scripts) = txOut.map (RawTxOut.resolve slab) :=
    hvals₂ p₂.scripts fun _ _ => rfl
  simp only [packTx, hrun, hin, hout]

/-! ## Transactions -/

theorem readTxInCount_ok {enc : MessageEncoding} {n : Nat} {flag : Bool} :
    exec (readTxInCount enc) s = (.ok (n, flag), s') ↔
      n < 2 ^ 64 ∧ (flag = true → enc = .witness) ∧ (flag = false → enc = .witness → n ≠ 0) ∧
        ∃ rest, s.r = (if flag then txFlag else []) ++ writeVarInt n ++ rest ∧
          s' = { s with r := rest } := by
  rw [readTxInCount, exec_bind_eq_ok]
  constructor
  · rintro ⟨count, s₁, hcount, h⟩
    obtain ⟨hlt, rest, hr, rfl⟩ := readVarInt_ok.1 hcount
    split_ifs at h with hmark
    · obtain ⟨fl, s₂, hfl, h⟩ := exec_bind_eq_ok.1 h
      obtain ⟨rest₂, hr₂, rfl⟩ := readFull_ok.1 hfl
      obtain ⟨hone, h⟩ := exec_require_bind_eq_ok.1 h
      obtain ⟨m, s₃, hm, h⟩ := exec_bind_eq_ok.1 h
      obtain ⟨hlt, rest₃, hr₃, rfl⟩ := readVarInt_ok.1 hm
      obtain ⟨hout, rfl⟩ := Prod.mk.inj h
      obtain ⟨rfl, rfl⟩ := Prod.mk.inj (Except.ok.inj hout)
      refine ⟨hlt, fun _ => hmark.2, by simp, rest₃, ?_, rfl⟩
      have hr₂ : rest = [0x01] ++ rest₂ := by rw [← hone, ← hr₂]
      have hr₃ : rest₂ = writeVarInt m ++ rest₃ := hr₃
      rw [hr, hmark.1, hr₂, hr₃]
      rfl
    · obtain ⟨hout, rfl⟩ := Prod.mk.inj h
      cases hout
      exact ⟨hlt, by simp, fun _ henc hn => hmark ⟨hn, henc⟩, rest, by simpa using hr, rfl⟩
  · rintro ⟨hlt, hflag, hnoflag, rest, hr, rfl⟩
    cases flag with
    | true =>
      have hr : s.r = writeVarInt 0 ++ ([0x01] ++ (writeVarInt n ++ rest)) := by rw [hr]; rfl
      refine ⟨0, _, readVarInt_ok.2 ⟨by decide, _, hr, rfl⟩, ?_⟩
      rw [if_pos ⟨rfl, hflag rfl⟩]
      exact exec_bind_eq_ok.2 ⟨⟨[0x01], rfl⟩, _, readFull_ok.2 ⟨_, rfl, rfl⟩,
        exec_require_bind_eq_ok.2 ⟨rfl, exec_bind_eq_ok.2
          ⟨n, _, readVarInt_ok.2 ⟨hlt, rest, rfl, rfl⟩, rfl⟩⟩⟩
    | false =>
      refine ⟨n, _, readVarInt_ok.2 ⟨hlt, rest, by simpa using hr, rfl⟩, ?_⟩
      rw [if_neg fun h => hnoflag rfl h.2 h.1]
      rfl

theorem raises_readTxInCount {enc : MessageEncoding} :
    Prog.Raises Returned (readTxInCount enc) := by
  refine raises_readVarInt.bind fun count => ?_
  split_ifs
  · exact (raises_readFull 1).bind fun _ => raises_require.bind fun _ =>
      raises_readVarInt.bind fun _ => .pure _
  · exact .pure _

/-- Reading something for each element of a list is reading it as often, and pairing up. -/
theorem mapM_ok {x : DecM β} {g : α → β → γ} {l : List α} {out : List γ} :
    exec (l.mapM fun a => do let b ← x; return g a b) s = (.ok out, s') ↔
      ∃ bs, exec (times l.length x) s = (.ok bs, s') ∧ out = List.zipWith g l bs := by
  induction l generalizing s out with
  | nil =>
    rw [mapM_nil, length_nil, Prog.exec_times_zero]
    constructor
    · intro h
      obtain ⟨hout, rfl⟩ := Prod.mk.inj h
      exact ⟨[], rfl, (Except.ok.inj hout).symm⟩
    · rintro ⟨bs, h, rfl⟩
      cases h
      rfl
  | cons a l ih =>
    rw [mapM_cons, exec_bind_eq_ok, length_cons]
    constructor
    · rintro ⟨c, s₁, hc, h⟩
      obtain ⟨b, s₂, hb, hc⟩ := exec_bind_eq_ok.1 hc
      obtain ⟨hgab, rfl⟩ := Prod.mk.inj hc
      obtain ⟨cs, s₃, hcs, h⟩ := exec_bind_eq_ok.1 h
      obtain ⟨hout, rfl⟩ := Prod.mk.inj h
      obtain ⟨bs, hbs, rfl⟩ := ih.1 hcs
      refine ⟨b :: bs, Prog.exec_times_succ_eq_ok.2 ⟨b, _, bs, hb, hbs, rfl⟩, ?_⟩
      rw [← Except.ok.inj hout, ← Except.ok.inj hgab, zipWith_cons_cons]
    · rintro ⟨bs, h, rfl⟩
      obtain ⟨b, s₁, bs', hb, hbs, rfl⟩ := Prog.exec_times_succ_eq_ok.1 h
      exact ⟨g a b, s₁, exec_bind_eq_ok.2 ⟨b, s₁, hb, rfl⟩, exec_bind_eq_ok.2
        ⟨_, s', ih.2 ⟨bs', hbs, rfl⟩, rfl⟩⟩

theorem readTxWitness_true_ok {txIn txIn' : List RawTxIn} :
    exec (readTxWitness true txIn) s = (.ok txIn', s') ↔
      ∃ ws, exec (times txIn.length readWitness) s = (.ok ws, s') ∧
        txIn' = List.zipWith (fun ti witness => { ti with witness }) txIn ws ∧
        hasWitness txIn' = true := by
  rw [readTxWitness, if_pos rfl, exec_bind_eq_ok]
  constructor
  · rintro ⟨out, s₁, hout, h⟩
    obtain ⟨ws, hws, rfl⟩ := mapM_ok.1 hout
    obtain ⟨hhas, h⟩ := exec_require_bind_eq_ok.1 h
    obtain ⟨heq, rfl⟩ := Prod.mk.inj h
    cases heq
    exact ⟨ws, hws, rfl, hhas⟩
  · rintro ⟨ws, hws, rfl, hhas⟩
    exact ⟨_, s', mapM_ok.2 ⟨ws, hws, rfl⟩, exec_require_bind_eq_ok.2 ⟨hhas, rfl⟩⟩

/-- An input without its witness. -/
def bare (ti : TxIn) : TxIn := { ti with witness := [] }

theorem zipWith_bare (l : List TxIn) :
    List.zipWith (fun ti witness => { ti with witness }) (l.map bare) (l.map TxIn.witness) = l := by
  induction l with
  | nil => rfl
  | cons ti l ih => simp [ih, bare]

/-- Inputs without witnesses and as many witnesses are the two parts of a list of inputs. -/
theorem exists_bare {ins : List TxIn} {ws : List (List Bytes)} (hins : ∀ ti ∈ ins, ti.witness = [])
    (hlen : ws.length = ins.length) : ∃ l : List TxIn, ins = l.map bare ∧ ws = l.map TxIn.witness := by
  induction ins generalizing ws with
  | nil => exact ⟨[], rfl, length_eq_zero_iff.1 hlen⟩
  | cons ti ins ih =>
    cases ws with
    | nil => simp at hlen
    | cons w ws =>
      obtain ⟨l, rfl, rfl⟩ := ih (fun t ht => hins t (by simp [ht])) (by simpa using hlen)
      refine ⟨{ ti with witness := w } :: l, ?_, rfl⟩
      have hti : ti = bare { ti with witness := w } := by
        obtain ⟨op, script, witness, sequence⟩ := ti
        obtain rfl : witness = [] := hins _ mem_cons_self
        rfl
      rw [map_cons, ← hti]

theorem flatMap_bare {δ : Type} (f : TxIn → List δ) (hf : ∀ ti, f (bare ti) = f ti) (l : List TxIn) :
    (l.map bare).flatMap f = l.flatMap f := by
  rw [flatMap_map]
  exact flatMap_congr fun ti _ => hf ti

/-- The resolved inputs have a witness if the raw ones do. -/
theorem hasWitness_resolve (m : Buffer UInt8) (txIn : List RawTxIn) (version : Int32)
    (txOut : List TxOut) (lockTime : UInt32) :
    (⟨version, txIn.map (RawTxIn.resolve m), txOut, lockTime⟩ : MsgTx).hasWitness =
      hasWitness txIn := by
  simp [MsgTx.hasWitness, hasWitness, any_map, Function.comp_def, RawTxIn.resolve]

end Wire

/-- The script bytes of a transaction, in the order they are read: signature scripts, public key
scripts, witness items. -/
def MsgTx.scriptBytes (tx : MsgTx) : Bytes :=
  tx.txIn.flatMap TxIn.signatureScript ++ tx.txOut.flatMap TxOut.pkScript ++
    tx.txIn.flatMap fun ti => ti.witness.flatten

/-- A transaction the decoder can return: its numbers of inputs, outputs and witness items, the size
of each script and the size of all of them together are within the limits.  With the base encoding it
has no witness, and with the witness encoding it has an input. -/
structure MsgTx.Decodable (enc : MessageEncoding) (tx : MsgTx) : Prop where
  txIn : tx.txIn.length ≤ Wire.maxTxInPerMessage
  txOut : tx.txOut.length ≤ Wire.maxTxOutPerMessage
  items : ∀ ti ∈ tx.txIn, ti.witness.length ≤ Wire.maxWitnessItemsPerInput
  signatureScript : ∀ ti ∈ tx.txIn, ti.signatureScript.length ≤ Wire.maxWitnessItemSize
  pkScript : ∀ out ∈ tx.txOut, out.pkScript.length ≤ Wire.maxWitnessItemSize
  item : ∀ ti ∈ tx.txIn, ∀ b ∈ ti.witness, b.length ≤ Wire.maxWitnessItemSize
  total : tx.scriptBytes.length ≤ Wire.scriptSlabSize
  base : enc = .base → tx.hasWitness = false
  witness : enc = .witness → tx.txIn ≠ []

namespace Wire

open Prog (exec exec_bind_eq_ok exec_require_bind_eq_ok exec_get_bind times)

variable {s s' : Stream}

/-- The scripts and witnesses of a transaction are found in the slab once all have been read. -/
theorem resolve_slab (m : Buffer UInt8) {l : List TxIn} {outs : List TxOut}
    (hin : ∀ ti ∈ l.map bare, txInFormat.Fits ti) (hout : ∀ out ∈ outs, txOutFormat.Fits out)
    (hwit : ∀ w ∈ l.map TxIn.witness, witnessFormat.Fits w) :
    let a := (l.map bare).flatMap txInFormat.held
    let b := outs.flatMap txOutFormat.held
    let m' := ((m.store 0 a).store (0 + a.length) b).store (0 + a.length + b.length)
      ((l.map TxIn.witness).flatMap witnessFormat.held)
    (List.zipWith (fun ti witness => { ti with witness }) (txInFormat.lay 0 (l.map bare))
        (witnessFormat.lay (0 + a.length + b.length) (l.map TxIn.witness))).map
          (RawTxIn.resolve m') = l ∧
      (txOutFormat.lay (0 + a.length) outs).map (RawTxOut.resolve m') = outs := by
  intro a b m'
  have ha : (txInFormat.lay 0 (l.map bare)).map (RawTxIn.resolve m') = l.map bare := by
    rw [resolves_txInFormat.frame_lay _ _ (by show 0 + a.length ≤ _; omega),
      resolves_txInFormat.frame_lay _ _ (by show 0 + a.length ≤ _; omega)]
    exact resolves_txInFormat.lay m 0 hin
  have hb : (txOutFormat.lay (0 + a.length) outs).map (RawTxOut.resolve m') = outs := by
    rw [resolves_txOutFormat.frame_lay _ _ le_rfl]
    exact resolves_txOutFormat.lay _ _ hout
  have hc : (witnessFormat.lay (0 + a.length + b.length) (l.map TxIn.witness)).map
      (fun w => w.map m'.load) = l.map TxIn.witness := resolves_witnessFormat.lay _ _ hwit
  refine ⟨?_, hb⟩
  calc _ = List.zipWith (fun ti witness => { ti with witness })
          ((txInFormat.lay 0 (l.map bare)).map (RawTxIn.resolve m'))
          ((witnessFormat.lay (0 + a.length + b.length) (l.map TxIn.witness)).map
            fun w => w.map m'.load) := by
        rw [map_zipWith, zipWith_map]
        rfl
    _ = l := by rw [ha, hc, zipWith_bare]

/-- The parts of a transaction's script bytes, as the readers hold them. -/
theorem scriptBytes_eq (tx : MsgTx) :
    tx.scriptBytes = (tx.txIn.map bare).flatMap txInFormat.held ++
      tx.txOut.flatMap txOutFormat.held ++ (tx.txIn.map TxIn.witness).flatMap witnessFormat.held := by
  rw [flatMap_bare _ (fun _ => rfl), flatMap_map]
  rfl

variable {tx : MsgTx}

theorem flatMap_witness_eq_nil (h : tx.hasWitness = false) :
    (tx.txIn.map TxIn.witness).flatMap witnessFormat.held = [] := by
  rw [flatMap_map, flatMap_eq_nil_iff]
  intro ti hti
  have hw : ti.witness = [] := by simpa using any_eq_false.1 h ti hti
  rw [hw]
  rfl

/-- What the readers find when no witnesses have been announced. -/
theorem resolve_slab_bare (m : Buffer UInt8) {ins : List TxIn} {outs : List TxOut}
    (hin : ∀ ti ∈ ins, txInFormat.Fits ti) (hout : ∀ out ∈ outs, txOutFormat.Fits out) :
    let a := ins.flatMap txInFormat.held
    let m' := (m.store 0 a).store (0 + a.length) (outs.flatMap txOutFormat.held)
    (txInFormat.lay 0 ins).map (RawTxIn.resolve m') = ins ∧
      (txOutFormat.lay (0 + a.length) outs).map (RawTxOut.resolve m') = outs := by
  intro a m'
  refine ⟨?_, resolves_txOutFormat.lay _ _ hout⟩
  rw [resolves_txInFormat.frame_lay _ _ (by show 0 + a.length ≤ _; omega)]
  exact resolves_txInFormat.lay m 0 hin

theorem map_bare_of_hasWitness (h : tx.hasWitness = false) : tx.txIn.map bare = tx.txIn := by
  refine (map_congr_left fun ti hti => ?_).trans (map_id _)
  have hw : ti.witness = [] := by simpa using any_eq_false.1 h ti hti
  rw [bare, ← hw]
  rfl

/-- The encoding of a transaction, with the flag and the witnesses written if `flag` says so. -/
def encodeParts (flag : Bool) (tx : MsgTx) : Bytes :=
  Bytes.le 4 tx.version.toUInt32.toNat ++ ((if flag then txFlag else []) ++
    writeVarInt tx.txIn.length ++ (tx.txIn.flatMap TxIn.write ++ (writeVarInt tx.txOut.length ++
    (tx.txOut.flatMap TxOut.write ++
      ((if flag then tx.txIn.flatMap fun ti => writeTxWitness ti.witness else []) ++
    Bytes.le 4 tx.lockTime.toNat)))))

theorem btcEncode_eq {enc : MessageEncoding} (h : tx.hasWitness = true → enc = .witness) :
    tx.btcEncode enc = encodeParts tx.hasWitness tx := by
  cases hw : tx.hasWitness with
  | false => simp [MsgTx.btcEncode, encodeParts, hw]
  | true => simp [MsgTx.btcEncode, encodeParts, hw, h hw]

/-! ### Up to the witnesses -/

/-- The beginning of a transaction: its version, the flag if there is one, the number of inputs. -/
def txStart (version : Int32) (flag : Bool) (count : Nat) : Bytes :=
  Bytes.le 4 version.toUInt32.toNat ++ ((if flag then txFlag else []) ++ writeVarInt count)

variable {enc : MessageEncoding} {Q : Except Abort MsgTx × Stream → Prop} {version : Int32}
  {flag : Bool}

theorem decodeTx_iff (hQ : Settled Q) :
    Q (exec (decodeTx enc) s) ↔ ∃ version flag count rest, (flag = true → enc = .witness) ∧
      (flag = false → enc = .witness → count ≠ 0) ∧ count ≤ maxTxInPerMessage ∧
      s.r = txStart version flag count ++ rest ∧
      Q (exec (times count nextTxIn >>= decodeOutputs version flag)
        { s with r := rest, sbuf := 0 }) := by
  rw [decodeTx, Prog.exec_modify_bind, hQ.bind (raises_readUint 4)]
  constructor
  · rintro ⟨version, s₁, hversion, h⟩
    obtain ⟨hlt, rest₁, hr₁, rfl⟩ := readUint_ok.1 hversion
    obtain ⟨⟨count, flag⟩, s₂, hcount, h⟩ := (hQ.bind raises_readTxInCount).1 h
    obtain ⟨-, hflag, hnoflag, rest, hr₂, rfl⟩ := readTxInCount_ok.1 hcount
    obtain ⟨hmax, h⟩ := hQ.require_bind.1 h
    refine ⟨(UInt32.ofNat version).toInt32, flag, count, rest, hflag, hnoflag, hmax, ?_, h⟩
    rw [txStart, UInt32.toUInt32_toInt32, UInt32.toNat_ofNat_of_lt' hlt, append_assoc]
    exact hr₁.trans (congrArg _ hr₂)
  · rintro ⟨version, flag, count, rest, hflag, hmark, hmax, hr, h⟩
    have hlt : count < 2 ^ 64 := by
      rw [maxTxInPerMessage, maxMessagePayload, minTxInPayload] at hmax
      omega
    rw [txStart, append_assoc] at hr
    refine ⟨_, _, readUint_ok.2 ⟨version.toUInt32.toNat_lt, _, hr, rfl⟩, (hQ.bind
      raises_readTxInCount).2 ⟨_, _, readTxInCount_ok.2 ⟨hlt, hflag, hmark, rest, rfl, rfl⟩,
      hQ.require_bind.2 ⟨hmax, ?_⟩⟩⟩
    rwa [UInt32.ofNat_toNat, Int32.toInt32_toUInt32]

theorem decodeOutputs_iff (hQ : Settled Q) {txIn : List RawTxIn} :
    Q (exec (decodeOutputs version flag txIn) s) ↔ ∃ count rest, count ≤ maxTxOutPerMessage ∧
      s.r = writeVarInt count ++ rest ∧
      Q (exec (times count nextTxOut >>= decodeTail version flag txIn)
        { s with r := rest }) := by
  rw [decodeOutputs, hQ.bind raises_readVarInt]
  constructor
  · rintro ⟨count, s₁, hcount, h⟩
    obtain ⟨-, rest, hr, rfl⟩ := readVarInt_ok.1 hcount
    obtain ⟨hmax, h⟩ := hQ.require_bind.1 h
    exact ⟨count, rest, hmax, hr, h⟩
  · rintro ⟨count, rest, hmax, hr, h⟩
    have hlt : count < 2 ^ 64 := by
      rw [maxTxOutPerMessage, maxMessagePayload, minTxOutPayload] at hmax
      omega
    exact ⟨count, _, readVarInt_ok.2 ⟨hlt, rest, hr, rfl⟩, hQ.require_bind.2 ⟨hmax, h⟩⟩

/-! ### A whole transaction -/

/-- The end of a transaction.  The inputs and outputs have been read, and lie in the slab. -/
theorem decodeTail_ok {ins : List TxIn} {outs : List TxOut} {tx : MsgTx} {r : Bytes}
    (hin : ∀ ti ∈ ins, txInFormat.Fits ti) (hout : ∀ out ∈ outs, txOutFormat.Fits out)
    (hroom : (ins.flatMap txInFormat.held ++ outs.flatMap txOutFormat.held).length ≤ scriptSlabSize) :
    let a := ins.flatMap txInFormat.held
    let b := outs.flatMap txOutFormat.held
    exec (decodeTail version flag (txInFormat.lay 0 ins) (txOutFormat.lay (0 + a.length) outs))
        (({ s with sbuf := 0 }.after a r).after b r) = (.ok tx, s') ↔
      ∃ rest, tx.version = version ∧ tx.txIn.map bare = ins ∧ tx.txOut = outs ∧
        tx.hasWitness = flag ∧ (∀ ti ∈ tx.txIn, witnessFormat.Fits ti.witness) ∧
        tx.scriptBytes.length ≤ scriptSlabSize ∧
        r = (if flag then tx.txIn.flatMap fun ti => writeTxWitness ti.witness else []) ++
          (Bytes.le 4 tx.lockTime.toNat ++ rest) ∧
        s' = { s with sbuf := 0 }.after tx.scriptBytes rest := by
  intro a b
  cases flag with
  | false =>
    obtain ⟨hins, houts⟩ := resolve_slab_bare s.slab hin hout
    rw [decodeTail, show readTxWitness false _ = pure _ from rfl, pure_bind, exec_bind_eq_ok]
    constructor
    · rintro ⟨lockTime, s₁, hlock, h⟩
      obtain ⟨hlt, rest, hr, rfl⟩ := readUint_ok.1 hlock
      rw [exec_get_bind, packTx_eq] at h
      obtain ⟨htx, rfl⟩ := Prod.mk.inj h
      obtain rfl : tx = ⟨version, ins, outs, UInt32.ofNat lockTime⟩ :=
        (Except.ok.inj htx).symm.trans (congrArg₂ (MsgTx.mk _ · · _) hins houts)
      have hhas : MsgTx.hasWitness ⟨version, ins, outs, UInt32.ofNat lockTime⟩ = false :=
        any_eq_false.2 fun ti hti => by simp [(hin ti hti).1]
      have hbare := map_bare_of_hasWitness hhas
      have hheld : MsgTx.scriptBytes ⟨version, ins, outs, UInt32.ofNat lockTime⟩ = a ++ b := by
        rw [scriptBytes_eq, flatMap_witness_eq_nil hhas, append_nil, hbare]
      refine ⟨rest, rfl, hbare, rfl, hhas, fun ti hti => ?_, hheld ▸ hroom, ?_, ?_⟩
      · rw [(hin ti hti).1]
        exact ⟨Nat.zero_le _, nofun⟩
      · rwa [UInt32.toNat_ofNat_of_lt' hlt]
      · rw [hheld, ← Stream.after_after _ _ _ r]
        rfl
    · rintro ⟨rest, rfl, rfl, rfl, hhas, -, -, rfl, rfl⟩
      refine ⟨_, _, readUint_ok.2 ⟨tx.lockTime.toNat_lt, rest, rfl, rfl⟩, ?_⟩
      rw [exec_get_bind, packTx_eq, Prog.exec_ofExcept, UInt32.ofNat_toNat, scriptBytes_eq,
        flatMap_witness_eq_nil hhas, append_nil, ← Stream.after_after _ _ _ rest]
      exact Prod.ext (congrArg Except.ok (congrArg₂ (MsgTx.mk tx.version · · tx.lockTime)
        (hins.trans (map_bare_of_hasWitness hhas)) houts)) rfl
  | true =>
    have hs : (({ s with sbuf := 0 }.after a r).after b r).sbuf ≤ scriptSlabSize := by
      rwa [Stream.sbuf_after, Stream.sbuf_after, Nat.zero_add, ← length_append]
    rw [decodeTail, exec_bind_eq_ok]
    constructor
    · rintro ⟨rawIn, s₁, hwit, h⟩
      obtain ⟨rawW, hrawW, rfl, hhas⟩ := readTxWitness_true_ok.1 hwit
      rw [txInFormat.length_lay] at hrawW
      obtain ⟨ws, r', ⟨hlen, hfits⟩, hroomW, hr, rfl, rfl⟩ := (reads_readWitness.times _ hs).1 hrawW
      obtain ⟨l, rfl, rfl⟩ := exists_bare (fun ti hti => (hin ti hti).1) hlen
      obtain ⟨hins, houts⟩ := resolve_slab s.slab hin hout hfits
      obtain ⟨lockTime, s₂, hlock, h⟩ := exec_bind_eq_ok.1 h
      obtain ⟨hlt, rest, hr', rfl⟩ := readUint_ok.1 hlock
      rw [exec_get_bind, packTx_eq] at h
      obtain ⟨htx, rfl⟩ := Prod.mk.inj h
      obtain rfl : tx = ⟨version, l, outs, UInt32.ofNat lockTime⟩ :=
        (Except.ok.inj htx).symm.trans (congrArg₂ (MsgTx.mk _ · · _) hins houts)
      refine ⟨rest, rfl, rfl, rfl, ?_, fun ti hti => hfits _ (mem_map_of_mem hti), ?_, ?_, ?_⟩
      · rw [← hhas, ← hasWitness_resolve _ _ version outs (UInt32.ofNat lockTime)]
        exact congrArg (fun l => MsgTx.hasWitness ⟨_, l, _, _⟩) hins.symm
      · rwa [scriptBytes_eq, length_append, length_append, ← Nat.zero_add (List.length _ + _),
          ← Nat.add_assoc]
      · rw [UInt32.toNat_ofNat_of_lt' hlt, if_pos rfl, ← show r' = _ from hr', show r = _ from hr]
        simp only [Format.list, flatMap_map]
        rfl
      · rw [scriptBytes_eq, ← Stream.after_after _ _ _ r, ← Stream.after_after _ _ _ r]
        rfl
    · rintro ⟨rest, rfl, rfl, rfl, hhas, hfits, htotal, rfl, rfl⟩
      have hwit : ∀ w ∈ tx.txIn.map TxIn.witness, witnessFormat.Fits w := by
        simpa using hfits
      obtain ⟨hins, houts⟩ := resolve_slab s.slab hin hout hwit
      rw [scriptBytes_eq, length_append, length_append] at htotal
      have hwrite : (tx.txIn.map TxIn.witness).flatMap witnessFormat.enc =
          tx.txIn.flatMap fun ti => writeTxWitness ti.witness := flatMap_map ..
      have hws := (reads_readWitness.times (txInFormat.lay 0 (tx.txIn.map bare)).length hs).2
        ⟨tx.txIn.map TxIn.witness, _, ⟨by simp, hwit⟩, (by
          rw [Stream.sbuf_after, Stream.sbuf_after, Nat.zero_add]
          exact htotal), by rw [Stream.r_after, if_pos rfl, ← hwrite]; rfl, rfl, rfl⟩
      refine ⟨_, _, readTxWitness_true_ok.2 ⟨_, hws, rfl, ?_⟩, exec_bind_eq_ok.2 ⟨_, _,
        readUint_ok.2 ⟨tx.lockTime.toNat_lt, rest, rfl, rfl⟩, ?_⟩⟩
      · rw [← hasWitness_resolve _ _ tx.version tx.txOut tx.lockTime, ← hhas]
        exact congrArg (fun l => MsgTx.hasWitness ⟨_, l, _, _⟩) hins
      · rw [exec_get_bind, packTx_eq, Prog.exec_ofExcept, UInt32.ofNat_toNat, scriptBytes_eq,
          ← Stream.after_after _ _ _ rest, ← Stream.after_after _ _ _ rest]
        exact Prod.ext (congrArg Except.ok (congrArg₂ (MsgTx.mk tx.version · · tx.lockTime)
          hins houts)) rfl

/-- A transaction is decoded exactly from its encoding. -/
theorem decodeTx_ok {tx : MsgTx} :
    exec (decodeTx enc) s = (.ok tx, s') ↔ tx.Decodable enc ∧ ∃ rest,
      s.r = tx.btcEncode enc ++ rest ∧ s' = { s with sbuf := 0 }.after tx.scriptBytes rest := by
  have hQ : Settled fun o => o = ((.ok tx : Except Abort MsgTx), s') := fun e s₁ h => by cases h
  refine (decodeTx_iff hQ).trans ?_
  constructor
  · rintro ⟨version, flag, count, rest, hflag, hmark, hmax, hr, h⟩
    rcases (hQ.times_bind reads_nextTxIn (Nat.zero_le _)).1 h with
      ⟨_, _, _, h⟩ | ⟨ins, rest₁, rfl, hin, hroom, hr₁, h⟩
    · cases h
    obtain ⟨outCount, rest₂, hmaxOut, hr₂, h⟩ := (decodeOutputs_iff hQ).1 h
    rcases (hQ.times_bind reads_nextTxOut hroom).1 h with
      ⟨_, _, _, h⟩ | ⟨outs, rest₃, rfl, hout, hroom', hr₃, h⟩
    · cases h
    obtain ⟨rest₄, rfl, rfl, rfl, rfl, hfits, htotal, hr₄, rfl⟩ :=
      (decodeTail_ok hin hout (by simpa using hroom')).1 h
    rw [length_map] at hmark hmax
    refine ⟨⟨hmax, hmaxOut, fun ti hti => (hfits ti hti).1,
      fun ti hti => (hin _ (mem_map_of_mem hti)).2, hout, fun ti hti => (hfits ti hti).2, htotal,
      fun henc => ?_, fun henc hnil => ?_⟩, rest₄, ?_, rfl⟩
    · rw [← Bool.not_eq_true]
      intro hhas
      cases henc.symm.trans (hflag hhas)
    · exact hmark (by rw [MsgTx.hasWitness, hnil]; rfl) henc (by rw [hnil]; rfl)
    · rw [hr, show rest = _ from hr₁, show rest₁ = _ from hr₂, show rest₂ = _ from hr₃,
        show rest₃ = _ from hr₄, btcEncode_eq hflag, encodeParts, txStart, length_map,
        flatMap_bare _ fun _ => rfl]
      simp only [append_assoc]
      rfl
  · rintro ⟨htx, rest, hr, rfl⟩
    have hflag : tx.hasWitness = true → enc = .witness := by
      intro hhas
      cases enc with
      | base => cases hhas.symm.trans (htx.base rfl)
      | witness => rfl
    have hin : ∀ ti ∈ tx.txIn.map bare, txInFormat.Fits ti := by
      intro ti hti
      obtain ⟨t, ht, rfl⟩ := mem_map.1 hti
      exact ⟨rfl, htx.signatureScript t ht⟩
    have hroom : 0 + ((tx.txIn.map bare).flatMap txInFormat.held).length +
        (tx.txOut.flatMap txOutFormat.held).length ≤ scriptSlabSize := by
      have htotal := htx.total
      rw [scriptBytes_eq, length_append, length_append] at htotal
      omega
    have hins : 0 + ((tx.txIn.map bare).flatMap txInFormat.held).length ≤ scriptSlabSize := by omega
    rw [btcEncode_eq hflag, encodeParts] at hr
    refine ⟨tx.version, tx.hasWitness, tx.txIn.length, tx.txIn.flatMap TxIn.write ++
      (writeVarInt tx.txOut.length ++ (tx.txOut.flatMap TxOut.write ++ ((if tx.hasWitness then
        tx.txIn.flatMap fun ti => writeTxWitness ti.witness else []) ++
          (Bytes.le 4 tx.lockTime.toNat ++ rest)))), hflag,
      fun _ henc hnil => htx.witness henc (length_eq_zero_iff.1 hnil), htx.txIn, ?_, ?_⟩
    · rw [hr, txStart]
      simp only [append_assoc]
    refine (hQ.times_bind reads_nextTxIn (Nat.zero_le _)).2 (.inr ⟨tx.txIn.map bare, _,
      length_map _, hin, hins, by rw [flatMap_bare _ fun _ => rfl]; rfl,
      (decodeOutputs_iff hQ).2 ⟨tx.txOut.length, _, htx.txOut, rfl,
      (hQ.times_bind reads_nextTxOut hins).2 (.inr ⟨tx.txOut, _, rfl, htx.pkScript, hroom, rfl,
      (decodeTail_ok hin htx.pkScript (by simpa using hroom)).2 ⟨rest, rfl, rfl, rfl, rfl,
        fun ti hti => ⟨htx.items ti hti, htx.item ti hti⟩, htx.total, rfl, rfl⟩⟩)⟩⟩)

end Wire

end Obtcd
