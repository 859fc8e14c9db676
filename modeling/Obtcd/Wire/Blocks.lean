import Obtcd.Wire.RoundTrip

/-!
# Blocks, sizes and transaction locations

A block is its header, the number of its transactions and the transactions, each decoded with the
whole slab at its disposal, so everything about blocks follows from `decodeTx_ok` by going through
the list.

`serialization_canonical` puts the statements about transactions and blocks together.  An encoding
that the decoders accept is the only one of its value, `SerializeSize` is its length, and
`DeserializeTxLoc` reports where in the encoding of a block each transaction lies.  The limits are
those of the decoders: a transaction with a script of more than `maxWitnessItemSize` bytes is
encoded and then refused (`not_decoded_of_large_script`), although the slab would have had room.
-/

namespace Obtcd

open MsgTx Prog List

/-! ## Sizes -/

@[simp] theorem length_writeVarInt (n : Nat) : (writeVarInt n).length = varIntSerializeSize n := by
  rw [writeVarInt, varIntSerializeSize]
  split
  · exact Bytes.length_le 1 n
  split
  · simp
  split <;> simp

@[simp] theorem length_writeVarBytes (bs : Bytes) :
    (writeVarBytes bs).length = varIntSerializeSize bs.length + bs.length := by
  simp [writeVarBytes]

@[simp] theorem TxIn.length_write (ti : TxIn) : ti.write.length = ti.serializeSize := by
  simp only [write, serializeSize, length_append, OutPoint.length_write, length_writeVarBytes,
    Bytes.length_le]
  omega

@[simp] theorem TxOut.length_write (out : TxOut) : out.write.length = out.serializeSize := by
  simp only [write, serializeSize, length_append, length_writeVarBytes, Bytes.length_le]
  omega

@[simp] theorem length_writeTxWitness (w : List Bytes) :
    (writeTxWitness w).length = witnessSerializeSize w := by
  simp [writeTxWitness, witnessSerializeSize, length_flatMap]

/-- The length of a list of parts is the sum of their sizes. -/
theorem length_flatMap_of_size {α : Type} {write : α → Bytes} {size : α → Nat}
    (h : ∀ a, (write a).length = size a) (l : List α) : (l.flatMap write).length = (l.map size).sum := by
  rw [length_flatMap]
  exact congrArg List.sum (map_congr_left fun a _ => h a)

theorem MsgTx.length_serialize (tx : MsgTx) : tx.serialize.length = tx.serializeSize := by
  have hin := length_flatMap_of_size TxIn.length_write tx.txIn
  have hout := length_flatMap_of_size TxOut.length_write tx.txOut
  have hwit := length_flatMap_of_size (fun ti : TxIn => length_writeTxWitness ti.witness) tx.txIn
  cases h : tx.hasWitness with
  | false =>
    simp only [serialize, serializeSize, h, Bool.false_eq_true, if_false, serializeNoWitness, baseSize,
      length_append, Bytes.length_le, length_writeVarInt, hin, hout]
    omega
  | true =>
    simp only [serialize, serializeSize, h, if_true, baseSize, length_append, Bytes.length_le,
      length_writeVarInt, hin, hout, hwit, length_cons, length_nil]
    omega

variable {enc : MessageEncoding}

/-- A transaction without witnesses has one encoding. -/
theorem MsgTx.btcEncode_eq_serialize {tx : MsgTx} (h : enc = .base → tx.hasWitness = false) :
    tx.btcEncode enc = tx.serialize := by
  cases enc with
  | witness => exact tx.btcEncode_witness
  | base => rw [tx.btcEncode_base, serialize, h rfl]; rfl

theorem BlockHeader.length_write (bh : BlockHeader) : bh.write.length = blockHeaderLen := by
  simp [write, blockHeaderLen]

namespace Wire

variable {s s' : Stream}

/-! ## Headers -/

theorem readBlockHeader_ok {bh : BlockHeader} :
    exec readBlockHeader s = (.ok bh, s') ↔
      ∃ rest, s.r = bh.write ++ rest ∧ s' = { s with r := rest } := by
  rw [readBlockHeader, exec_bind_eq_ok]
  constructor
  · rintro ⟨version, s₁, h₁, h⟩
    obtain ⟨hv, rest₁, hr₁, rfl⟩ := readUint_ok.1 h₁
    obtain ⟨prevBlock, s₂, h₂, h⟩ := exec_bind_eq_ok.1 h
    obtain ⟨rest₂, hr₂, rfl⟩ := readFull_ok.1 h₂
    obtain ⟨merkleRoot, s₃, h₃, h⟩ := exec_bind_eq_ok.1 h
    obtain ⟨rest₃, hr₃, rfl⟩ := readFull_ok.1 h₃
    obtain ⟨timestamp, s₄, h₄, h⟩ := exec_bind_eq_ok.1 h
    obtain ⟨ht, rest₄, hr₄, rfl⟩ := readUint_ok.1 h₄
    obtain ⟨bits, s₅, h₅, h⟩ := exec_bind_eq_ok.1 h
    obtain ⟨hb, rest₅, hr₅, rfl⟩ := readUint_ok.1 h₅
    obtain ⟨nonce, s₆, h₆, h⟩ := exec_bind_eq_ok.1 h
    obtain ⟨hn, rest₆, hr₆, rfl⟩ := readUint_ok.1 h₆
    obtain ⟨hbh, rfl⟩ := Prod.mk.inj h
    cases hbh
    refine ⟨rest₆, ?_, rfl⟩
    have hr₂ : rest₁ = prevBlock.val ++ rest₂ := hr₂
    have hr₃ : rest₂ = merkleRoot.val ++ rest₃ := hr₃
    have hr₄ : rest₃ = Bytes.le 4 timestamp ++ rest₄ := hr₄
    have hr₅ : rest₄ = Bytes.le 4 bits ++ rest₅ := hr₅
    have hr₆ : rest₅ = Bytes.le 4 nonce ++ rest₆ := hr₆
    rw [hr₁, hr₂, hr₃, hr₄, hr₅, hr₆, BlockHeader.write, UInt32.toUInt32_toInt32,
      UInt32.toNat_ofNat_of_lt' hv, UInt32.toNat_ofNat_of_lt' ht, UInt32.toNat_ofNat_of_lt' hb,
      UInt32.toNat_ofNat_of_lt' hn]
    simp only [append_assoc]
  · rintro ⟨rest, hr, rfl⟩
    simp only [BlockHeader.write, append_assoc] at hr
    refine ⟨_, _, readUint_ok.2 ⟨bh.version.toUInt32.toNat_lt, _, hr, rfl⟩,
      (exec_bind_of_ok (readFull_ok.2 ⟨_, rfl, rfl⟩)).trans <|
      (exec_bind_of_ok (readFull_ok.2 ⟨_, rfl, rfl⟩)).trans <|
      (exec_bind_of_ok (readUint_ok.2 ⟨bh.timestamp.toNat_lt, _, rfl, rfl⟩)).trans <|
      (exec_bind_of_ok (readUint_ok.2 ⟨bh.bits.toNat_lt, _, rfl, rfl⟩)).trans <|
      (exec_bind_of_ok (readUint_ok.2 ⟨bh.nonce.toNat_lt, _, rfl, rfl⟩)).trans ?_⟩
    rw [exec_pure, UInt32.ofNat_toNat, UInt32.ofNat_toNat, UInt32.ofNat_toNat,
      UInt32.ofNat_toNat, Int32.toInt32_toUInt32]

theorem readTxCount_ok {func : String} {bh : BlockHeader} {n : Nat} :
    exec (readTxCount func) s = (.ok (bh, n), s') ↔
      n ≤ maxTxPerBlock ∧ ∃ rest, s.r = bh.write ++ writeVarInt n ++ rest ∧
        s' = { s with r := rest } := by
  rw [readTxCount, exec_bind_eq_ok]
  constructor
  · rintro ⟨header, s₁, h₁, h⟩
    obtain ⟨rest₁, hr₁, rfl⟩ := readBlockHeader_ok.1 h₁
    obtain ⟨txCount, s₂, h₂, h⟩ := exec_bind_eq_ok.1 h
    obtain ⟨-, rest, hr₂, rfl⟩ := readVarInt_ok.1 h₂
    obtain ⟨hmax, h⟩ := exec_require_bind_eq_ok.1 h
    obtain ⟨hout, rfl⟩ := Prod.mk.inj h
    cases hout
    refine ⟨hmax, rest, ?_, rfl⟩
    rw [hr₁, append_assoc]
    exact congrArg _ hr₂
  · rintro ⟨hmax, rest, hr, rfl⟩
    rw [append_assoc] at hr
    have hlt : n < 2 ^ 64 := by
      rw [maxTxPerBlock, maxBlockPayload, minTxPayload] at hmax
      omega
    refine ⟨bh, _, readBlockHeader_ok.2 ⟨_, hr, rfl⟩,
      (exec_bind_of_ok (readVarInt_ok.2 ⟨hlt, rest, rfl, rfl⟩)).trans ?_⟩
    exact exec_require_bind_of_pos hmax

/-! ## Lists of transactions -/

variable {txs : List MsgTx}

theorem times_decodeTx_canonical {n : Nat} (h : exec (times n (decodeTx enc)) s = (.ok txs, s')) :
    txs.length = n ∧ (∀ tx ∈ txs, tx.Decodable enc) ∧
      s.r = txs.flatMap (MsgTx.btcEncode enc) ++ s'.r := by
  induction n generalizing s txs with
  | zero =>
    obtain ⟨htxs, rfl⟩ := Prod.mk.inj h
    cases htxs
    exact ⟨rfl, by simp, rfl⟩
  | succ n ih =>
    obtain ⟨tx, s₁, txs', htx, htxs, rfl⟩ := exec_times_succ_eq_ok.1 h
    obtain ⟨hdec, rest, hr, rfl⟩ := decodeTx_ok.1 htx
    obtain ⟨hlen, hdecs, hr'⟩ := ih htxs
    refine ⟨by rw [length_cons, hlen], ?_, ?_⟩
    · intro t ht
      rcases mem_cons.1 ht with rfl | ht
      · exact hdec
      · exact hdecs t ht
    · rw [hr, show rest = _ from hr', flatMap_cons, append_assoc]

theorem times_decodeTx_encode {rest : Bytes} (hdec : ∀ tx ∈ txs, tx.Decodable enc)
    (hr : s.r = txs.flatMap (MsgTx.btcEncode enc) ++ rest) :
    ∃ s', exec (times txs.length (decodeTx enc)) s = (.ok txs, s') ∧ s'.r = rest := by
  induction txs generalizing s with
  | nil => exact ⟨s, rfl, hr⟩
  | cons tx txs ih =>
    rw [flatMap_cons, append_assoc] at hr
    have htx := decodeTx_ok.2 ⟨hdec tx (by simp), _, hr, rfl⟩
    obtain ⟨s', htxs, hs'⟩ := ih (fun t ht => hdec t (by simp [ht]))
      (s := { s with sbuf := 0 }.after tx.scriptBytes (txs.flatMap (MsgTx.btcEncode enc) ++ rest)) rfl
    exact ⟨s', exec_times_succ_eq_ok.2 ⟨tx, _, txs, htx, htxs, rfl⟩, hs'⟩

/-- Where the transactions of a list lie when the first one begins at `start`. -/
def txLocs : Nat → List MsgTx → List TxLoc
  | _, [] => []
  | start, tx :: txs =>
    ⟨start, tx.serialize.length⟩ :: txLocs (start + tx.serialize.length) txs

theorem length_txLocs (start : Nat) (txs : List MsgTx) : (txLocs start txs).length = txs.length := by
  induction txs generalizing start with
  | nil => rfl
  | cons tx txs ih => rw [txLocs, length_cons, length_cons, ih]

/-- Each location is that of its transaction, behind those before it. -/
theorem getElem?_txLocs (start : Nat) (txs : List MsgTx) (i : Nat) :
    (txLocs start txs)[i]? = txs[i]?.map fun tx =>
      ⟨start + ((txs.take i).flatMap serialize).length, tx.serialize.length⟩ := by
  induction txs generalizing start i with
  | nil => rfl
  | cons tx txs ih =>
    cases i with
    | zero => rfl
    | succ i =>
      rw [txLocs, List.getElem?_cons_succ, List.getElem?_cons_succ, ih, take_succ_cons,
        flatMap_cons, length_append, Nat.add_assoc]

/-- The loop of `DeserializeTxLoc` reads what the loop of `BtcDecode` does, and takes down where. -/
theorem times_decodeTxLoc {rest : Bytes} {fullLen : Nat} (hdec : ∀ tx ∈ txs, tx.Decodable .witness)
    (hr : s.r = txs.flatMap serialize ++ rest) (start : Nat)
    (hstart : start + s.r.length = fullLen) :
    ∃ s', exec (times txs.length (decodeTxLoc fullLen)) s =
      (.ok (txs.zip (txLocs start txs)), s') ∧ s'.r = rest := by
  induction txs generalizing s start with
  | nil => exact ⟨s, rfl, hr⟩
  | cons tx txs ih =>
    rw [flatMap_cons, append_assoc] at hr
    have htx := decodeTx_ok.2 ⟨hdec tx (by simp), _, (tx.btcEncode_witness).symm ▸ hr, rfl⟩
    have hlen := congrArg List.length hr
    rw [length_append] at hlen
    obtain ⟨s', htxs, hs'⟩ := ih (fun t ht => hdec t (by simp [ht]))
      (s := { s with sbuf := 0 }.after tx.scriptBytes (txs.flatMap serialize ++ rest)) rfl
      (start + tx.serialize.length) (by rw [Stream.r_after]; omega)
    refine ⟨s', exec_times_succ_eq_ok.2 ⟨(tx, ⟨start, tx.serialize.length⟩), _, _, ?_, htxs,
      rfl⟩, hs'⟩
    rw [decodeTxLoc, exec_get_bind]
    refine (exec_bind_of_ok htx).trans ?_
    rw [exec_get_bind, exec_pure, Stream.r_after]
    have h₁ : fullLen - s.r.length = start := by omega
    have h₂ : fullLen - (txs.flatMap serialize ++ rest).length - start =
        tx.serialize.length := by omega
    rw [h₁, h₂]

theorem times_decodeTx_of_decodeTxLoc {n fullLen : Nat} {read : List (MsgTx × TxLoc)}
    (h : exec (times n (decodeTxLoc fullLen)) s = (.ok read, s')) :
    exec (times n (decodeTx .witness)) s = (.ok (read.map Prod.fst), s') := by
  induction n generalizing s read with
  | zero =>
    obtain ⟨hread, rfl⟩ := Prod.mk.inj h
    cases hread
    rfl
  | succ n ih =>
    obtain ⟨a, s₁, l, ha, hl, rfl⟩ := exec_times_succ_eq_ok.1 h
    rw [decodeTxLoc, exec_get_bind] at ha
    obtain ⟨tx, s₂, htx, ha⟩ := exec_bind_eq_ok.1 ha
    obtain ⟨heq, rfl⟩ := Prod.mk.inj ha
    cases heq
    exact exec_times_succ_eq_ok.2 ⟨tx, _, _, htx, ih hl, rfl⟩

end Wire

/-- A block the decoder can return. -/
structure MsgBlock.Decodable (enc : MessageEncoding) (b : MsgBlock) : Prop where
  count : b.transactions.length ≤ Wire.maxTxPerBlock
  transactions : ∀ tx ∈ b.transactions, tx.Decodable enc

namespace Wire

variable {s s' : Stream}

variable {b : MsgBlock}

theorem decodeBlock_canonical (h : exec (decodeBlock enc) s = (.ok b, s')) :
    b.Decodable enc ∧ s.r = b.btcEncode enc ++ s'.r := by
  rw [decodeBlock] at h
  obtain ⟨⟨header, n⟩, s₁, h₁, h⟩ := exec_bind_eq_ok.1 h
  obtain ⟨hmax, rest, hr, rfl⟩ := readTxCount_ok.1 h₁
  obtain ⟨txs, s₂, h₂, h⟩ := exec_bind_eq_ok.1 h
  obtain ⟨hb, rfl⟩ := Prod.mk.inj h
  cases hb
  obtain ⟨hlen, hdec, hr'⟩ := times_decodeTx_canonical h₂
  refine ⟨⟨by rw [hlen]; exact hmax, hdec⟩, ?_⟩
  rw [hr, show rest = _ from hr', MsgBlock.btcEncode, hlen]
  simp only [append_assoc]

theorem decodeBlock_encode (hb : b.Decodable enc) {rest : Bytes}
    (hr : s.r = b.btcEncode enc ++ rest) :
    ∃ s', exec (decodeBlock enc) s = (.ok b, s') ∧ s'.r = rest := by
  rw [MsgBlock.btcEncode, append_assoc] at hr
  obtain ⟨s', htxs, hs'⟩ := times_decodeTx_encode hb.transactions
    (s := { s with r := b.transactions.flatMap (MsgTx.btcEncode enc) ++ rest }) rfl
  refine ⟨s', ?_, hs'⟩
  rw [decodeBlock]
  refine (exec_bind_of_ok (readTxCount_ok.2 ⟨hb.count, _, hr, rfl⟩)).trans ?_
  exact exec_bind_of_ok htxs

theorem decodeBlockTxLoc_canonical {locs : List TxLoc}
    (h : exec decodeBlockTxLoc s = (.ok (b, locs), s')) :
    b.Decodable .witness ∧ s.r = b.btcEncode .witness ++ s'.r := by
  rw [decodeBlockTxLoc, exec_get_bind] at h
  obtain ⟨⟨header, n⟩, s₁, h₁, h⟩ := exec_bind_eq_ok.1 h
  obtain ⟨hmax, rest, hr, rfl⟩ := readTxCount_ok.1 h₁
  obtain ⟨read, s₂, h₂, h⟩ := exec_bind_eq_ok.1 h
  obtain ⟨hb, rfl⟩ := Prod.mk.inj h
  cases hb
  obtain ⟨hlen, hdec, hr'⟩ := times_decodeTx_canonical (times_decodeTx_of_decodeTxLoc h₂)
  refine ⟨⟨by rw [hlen]; exact hmax, hdec⟩, ?_⟩
  rw [hr, show rest = _ from hr', MsgBlock.btcEncode, hlen]
  simp only [append_assoc]

theorem decodeBlockTxLoc_encode (hb : b.Decodable .witness) {rest : Bytes}
    (hr : s.r = b.btcEncode .witness ++ rest) :
    ∃ s', exec decodeBlockTxLoc s = (.ok (b, txLocs (b.header.write ++
      writeVarInt b.transactions.length).length b.transactions), s') ∧ s'.r = rest := by
  have hser : b.transactions.flatMap (MsgTx.btcEncode .witness) =
      b.transactions.flatMap serialize :=
    flatMap_congr fun tx _ => tx.btcEncode_witness
  rw [MsgBlock.btcEncode, append_assoc, hser] at hr
  obtain ⟨s', htxs, hs'⟩ := times_decodeTxLoc hb.transactions
    (s := { s with r := b.transactions.flatMap serialize ++ rest }) rfl
    (b.header.write ++ writeVarInt b.transactions.length).length
    (by rw [← length_append, ← hr])
  refine ⟨s', ?_, hs'⟩
  rw [decodeBlockTxLoc, exec_get_bind]
  refine (exec_bind_of_ok (readTxCount_ok.2 ⟨hb.count, _, hr, rfl⟩)).trans ?_
  refine (exec_bind_of_ok htxs).trans ?_
  have hlen := length_txLocs (b.header.write ++ writeVarInt b.transactions.length).length
    b.transactions
  rw [exec_pure, map_fst_zip (by rw [hlen]), map_snd_zip (by rw [hlen])]

/-- A run of a decoder that ends with `a` and the bytes `rest`. -/
theorem decode_eq_ok {α : Type} {x : DecM α} {slab : Buffer UInt8} {r rest : Bytes} {a : α} :
    decode x slab r = (.ok a, rest) ↔ ∃ s', exec x { r, slab } = (.ok a, s') ∧ s'.r = rest := by
  rw [decode, Prod.mk.injEq]
  constructor
  · rintro ⟨h, rfl⟩
    exact ⟨_, exec_eq_of_fst h, rfl⟩
  · rintro ⟨s', h, rfl⟩
    rw [h]
    exact ⟨rfl, rfl⟩

end Wire

theorem MsgTx.decodable_of_btcDecode {slab : Buffer UInt8} {r : Bytes} {tx : MsgTx}
    (h : (btcDecode enc slab r).1 = .ok tx) : tx.Decodable enc :=
  (Wire.decodeTx_ok.1 (exec_eq_of_fst h)).1

theorem MsgBlock.length_btcEncode {b : MsgBlock} (hb : b.Decodable enc) (height : Int32) :
    (b.btcEncode enc).length = (⟨b.header, b.transactions, height⟩ : Block).serializeSize := by
  have htxs : (b.transactions.flatMap (MsgTx.btcEncode enc)).length =
      (b.transactions.map MsgTx.serializeSize).sum := by
    rw [length_flatMap]
    refine congrArg List.sum (map_congr_left fun tx htx => ?_)
    rw [btcEncode_eq_serialize (hb.transactions tx htx).base, tx.length_serialize]
  rw [btcEncode, length_append, length_append, BlockHeader.length_write,
    length_writeVarInt, htxs, Block.serializeSize]

/-- **Serialization is a canonical bijection.**  A transaction or block within the limits of the
decoder is decoded from its encoding, whatever follows, and the encoding has `SerializeSize` bytes;
the bytes a decoder accepts are the encoding of what it returns; and `DeserializeTxLoc` returns for
each transaction the range of the bytes of the block that is its encoding. -/
theorem serialization_canonical (slab : Buffer UInt8) :
    (∀ (enc : MessageEncoding) (tx : MsgTx) (rest : Bytes), tx.Decodable enc →
      btcDecode enc slab (tx.btcEncode enc ++ rest) = (.ok tx, rest) ∧
        (tx.btcEncode enc).length = tx.serializeSize) ∧
    (∀ (enc : MessageEncoding) (r : Bytes) (tx : MsgTx) (rest : Bytes),
      btcDecode enc slab r = (.ok tx, rest) → r = tx.btcEncode enc ++ rest) ∧
    (∀ (enc : MessageEncoding) (b : MsgBlock) (rest : Bytes), b.Decodable enc →
      MsgBlock.btcDecode enc slab (b.btcEncode enc ++ rest) = (.ok b, rest) ∧
        ∀ height, (b.btcEncode enc).length =
          (⟨b.header, b.transactions, height⟩ : Block).serializeSize) ∧
    (∀ (enc : MessageEncoding) (r : Bytes) (b : MsgBlock) (rest : Bytes),
      MsgBlock.btcDecode enc slab r = (.ok b, rest) → r = b.btcEncode enc ++ rest) ∧
    (∀ (b : MsgBlock) (rest : Bytes), b.Decodable .witness → ∃ locs,
      MsgBlock.deserializeTxLoc slab (b.btcEncode .witness ++ rest) = (.ok (b, locs), rest)) ∧
    (∀ (r : Bytes) (b : MsgBlock) (locs : List TxLoc) (rest : Bytes),
      MsgBlock.deserializeTxLoc slab r = (.ok (b, locs), rest) →
        r = b.btcEncode .witness ++ rest ∧ locs.length = b.transactions.length ∧
        ∀ i tx loc, b.transactions[i]? = some tx → locs[i]? = some loc → ∃ before after,
          before = b.header.write ++ writeVarInt b.transactions.length ++
            (b.transactions.take i).flatMap serialize ∧
          r = before ++ tx.serialize ++ after ∧
          loc = ⟨before.length, tx.serialize.length⟩) := by
  refine ⟨fun enc tx rest htx => ⟨?_, ?_⟩, fun enc r tx rest h => ?_,
    fun enc b rest hb => ⟨?_, MsgBlock.length_btcEncode hb⟩, fun enc r b rest h => ?_,
    fun b rest hb => ?_, fun r b locs rest h => ?_⟩
  · exact Wire.decode_eq_ok.2 ⟨_, Wire.decodeTx_ok.2 ⟨htx, _, rfl, rfl⟩, rfl⟩
  · rw [btcEncode_eq_serialize htx.base, tx.length_serialize]
  · obtain ⟨s', hrun, rfl⟩ := Wire.decode_eq_ok.1 h
    obtain ⟨-, rest', hr, rfl⟩ := Wire.decodeTx_ok.1 hrun
    exact hr
  · exact Wire.decode_eq_ok.2 (Wire.decodeBlock_encode hb rfl)
  · obtain ⟨s', hrun, rfl⟩ := Wire.decode_eq_ok.1 h
    exact (Wire.decodeBlock_canonical hrun).2
  · exact ⟨_, Wire.decode_eq_ok.2 (Wire.decodeBlockTxLoc_encode hb rfl)⟩
  · obtain ⟨s', hrun, rfl⟩ := Wire.decode_eq_ok.1 h
    obtain ⟨hb, hr⟩ := Wire.decodeBlockTxLoc_canonical hrun
    obtain ⟨s'', hrun', -⟩ := Wire.decodeBlockTxLoc_encode hb hr
    have hlocs : locs = _ := (Prod.mk.inj (Except.ok.inj (Prod.mk.inj (hrun.symm.trans hrun')).1)).2
    refine ⟨hr, by rw [hlocs, Wire.length_txLocs], fun i tx loc htx hloc => ?_⟩
    rw [hlocs, Wire.getElem?_txLocs, htx] at hloc
    refine ⟨_, (b.transactions.drop (i + 1)).flatMap serialize ++ s'.r, rfl, ?_, ?_⟩
    · obtain ⟨hi, heq⟩ := List.getElem?_eq_some_iff.1 htx
      have hsplit : b.transactions.flatMap (MsgTx.btcEncode .witness) =
          (b.transactions.take i).flatMap serialize ++ (tx.serialize ++
            (b.transactions.drop (i + 1)).flatMap serialize) := by
        rw [List.flatMap_congr fun tx _ => tx.btcEncode_witness, ← List.flatMap_cons, ← heq,
          ← List.drop_eq_getElem_cons hi, ← List.flatMap_append, List.take_append_drop]
      rw [show r = _ from hr, MsgBlock.btcEncode, hsplit]
      simp only [List.append_assoc]
    · rw [List.length_append, ← Option.some.inj hloc]

/-- A transaction with one input and one output, and a block of it. -/
def sampleTx : MsgTx := ⟨1, [⟨⟨Hash.zero, 7⟩, [0x51], [[0xaa], []], 5⟩], [⟨50, [0x52, 0x53]⟩], 9⟩

theorem sampleTx_decodable : sampleTx.Decodable .witness where
  txIn := by decide
  txOut := by decide
  items := by decide
  signatureScript := by decide
  pkScript := by decide
  item := by decide
  total := by decide
  base := nofun
  witness := by decide

theorem serialization_canonical_sampleTx :
    (btcDecode .witness (fun _ => 0) (sampleTx.btcEncode .witness ++ [1, 2]) =
      (.ok sampleTx, [1, 2]) ∧ (sampleTx.btcEncode .witness).length = sampleTx.serializeSize) ∧
    ∃ locs, MsgBlock.deserializeTxLoc (fun _ => 0)
      (MsgBlock.btcEncode .witness ⟨⟨1, Hash.zero, Hash.zero, 2, 3, 4⟩, [sampleTx, sampleTx]⟩ ++ []) =
        (.ok (⟨⟨1, Hash.zero, Hash.zero, 2, 3, 4⟩, [sampleTx, sampleTx]⟩, locs), []) := by
  obtain ⟨htx, -, -, -, hloc, -⟩ := serialization_canonical fun _ => 0
  refine ⟨htx .witness sampleTx [1, 2] sampleTx_decodable, hloc _ [] ⟨by decide, fun tx h => ?_⟩⟩
  obtain rfl : tx = sampleTx := by simpa using h
  exact sampleTx_decodable

/-- A transaction whose only script has one byte more than the decoder allows for a script, and yet
less than the slab has. -/
def largeScriptTx : MsgTx :=
  ⟨1, [⟨⟨Hash.zero, 0⟩, List.replicate (Wire.maxWitnessItemSize + 1) 0, [], 0⟩], [], 0⟩

/-- Numbers within the limits and room in the slab are not enough: a script of more than
`maxWitnessItemSize` bytes is refused. -/
theorem not_decoded_of_large_script :
    largeScriptTx.txIn ≠ [] ∧ largeScriptTx.txIn.length ≤ Wire.maxTxInPerMessage ∧
      largeScriptTx.txOut.length ≤ Wire.maxTxOutPerMessage ∧
      (∀ ti ∈ largeScriptTx.txIn, ti.witness.length ≤ Wire.maxWitnessItemsPerInput) ∧
      largeScriptTx.scriptBytes.length ≤ Wire.scriptSlabSize ∧
      ∀ slab, (btcDecode .witness slab (largeScriptTx.btcEncode .witness)).1 ≠
        .ok largeScriptTx := by
  have hheld : largeScriptTx.scriptBytes = List.replicate (Wire.maxWitnessItemSize + 1) 0 := by
    simp only [scriptBytes, largeScriptTx, List.flatMap_cons, List.flatMap_nil,
      List.flatten_nil, List.append_nil]
  refine ⟨List.cons_ne_nil _ _, show 1 ≤ _ by decide, Nat.zero_le _, fun ti hti => ?_, ?_,
    fun slab h => ?_⟩
  · obtain rfl := List.mem_singleton.1 hti
    exact Nat.zero_le _
  · rw [hheld, List.length_replicate]
    decide
  · have hle := (decodable_of_btcDecode h).signatureScript _ List.mem_cons_self
    rw [List.length_replicate] at hle
    omega

end Obtcd
