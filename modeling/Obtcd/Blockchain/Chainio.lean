import Obtcd.Blockchain.Compress

/-!
# The bytes of the coin database

`chainio.go`: how an unspent output and the outputs that a block spends are stored.  Both are a
header code, the height with the coinbase flag as the lowest bit, and a compressed output.  In the
journal a height above zero is followed by a byte that an earlier format used, and the outputs stand
in reverse order, since that is how they are taken back.

The rest of the development treats the database as a map to coins and the journal as a map to lists
of them.  `storage_roundtrip` is what justifies it: everything that is written is read back.
-/

namespace Obtcd

open UtxoEntry List

/-! ## The header code -/

/-- The height shifted over one bit, and the coinbase flag. -/
def headerCode (height : Int32) (isCoinBase : Bool) : UInt64 :=
  let code := height.toInt64.toUInt64 <<< 1
  if isCoinBase then code ||| 0x01 else code

/-- The coinbase flag and the height of a header code. -/
def decodeHeaderCode (code : UInt64) : Bool × Int32 :=
  (code &&& 0x01 ≠ 0, (code >>> 1).toUInt32.toInt32)

theorem decodeHeaderCode_headerCode {height : Int32} (h : 0 ≤ height) (isCoinBase : Bool) :
    decodeHeaderCode (headerCode height isCoinBase) = (isCoinBase, height) := by
  have hn := MachineInt.toNat_toUInt64_toInt64 h
  have hlt : height.toInt < 2 ^ 31 := height.toInt_lt
  have hcode : (headerCode height isCoinBase).toNat =
      2 * height.toInt64.toUInt64.toNat + isCoinBase.toNat := by
    have hshift : (height.toInt64.toUInt64 <<< 1).toNat = height.toInt64.toUInt64.toNat <<< 1 := by
      rw [UInt64.toNat_shiftLeft]
      simp only [UInt64.reduceToNat, Nat.reduceMod, Nat.shiftLeft_eq]
      omega
    rw [headerCode]
    cases isCoinBase with
    | false =>
      rw [if_neg (by simp), hshift, Nat.shiftLeft_eq, Bool.toNat_false]
      omega
    | true =>
      have hone : (1 : UInt64).toNat = 1 := rfl
      rw [if_pos rfl, UInt64.toNat_or, hshift, hone, ← Nat.shiftLeft_add_eq_or_of_lt (by decide),
        Nat.shiftLeft_eq, Bool.toNat_true]
      omega
  have hflag : (headerCode height isCoinBase &&& 0x01).toNat = isCoinBase.toNat := by
    have hmod : (headerCode height isCoinBase &&& 0x01).toNat =
        (headerCode height isCoinBase).toNat % 2 := by
      rw [UInt64.toNat_and]
      exact Nat.and_one_is_mod _
    rw [hmod, hcode]
    cases isCoinBase <;> simp
  have hheight : ((headerCode height isCoinBase) >>> 1).toNat = height.toInt64.toUInt64.toNat := by
    have hle : isCoinBase.toNat ≤ 1 := Bool.toNat_le isCoinBase
    rw [UInt64.toNat_shiftRight, hcode]
    simp only [UInt64.reduceToNat, Nat.reduceMod, Nat.shiftRight_eq_div_pow]
    omega
  rw [decodeHeaderCode, UInt64.toNat_inj.1 hheight]
  refine Prod.ext ?_ ?_
  · cases isCoinBase with
    | false =>
      have hzero : headerCode height false &&& 0x01 = 0 := UInt64.toNat_inj.1 hflag
      simp [hzero]
    | true =>
      have hone : headerCode height true &&& 0x01 = 1 := UInt64.toNat_inj.1 hflag
      simp [hone]
  · have hsmall : height.toInt64.toUInt64.toUInt32.toNat = height.toInt64.toUInt64.toNat := by
      rw [UInt64.toNat_toUInt32]
      omega
    apply Int32.toInt_inj.1
    rw [← Int32.toInt_toBitVec, UInt32.toBitVec_toInt32,
      BitVec.toInt_eq_toNat_of_lt (by rw [UInt32.toNat_toBitVec]; omega), UInt32.toNat_toBitVec,
      hsmall]
    exact hn

/-! ## The spend journal -/

def spentTxOutHeaderCode (stxo : SpentTxOut) : UInt64 := headerCode stxo.height stxo.isCoinBase

def spentTxOutSerializeSize (parsePubKey : ParsePubKey) (stxo : SpentTxOut) : Nat :=
  serializeSizeVLQ (spentTxOutHeaderCode stxo) +
    (if stxo.height > 0 then serializeSizeVLQ 0 else 0) +
    compressedTxOutSize parsePubKey stxo.amount.toUInt64 stxo.pkScript

def putSpentTxOut (parsePubKey : ParsePubKey) (stxo : SpentTxOut) : Bytes :=
  putVLQ (spentTxOutHeaderCode stxo) ++ (if stxo.height > 0 then putVLQ 0 else []) ++
    putCompressedTxOut parsePubKey stxo.amount.toUInt64 stxo.pkScript

/-- The output and how many bytes it takes. -/
def decodeSpentTxOut (parsePubKey : ParsePubKey) (serialized : Bytes) :
    Except GoError (SpentTxOut × Nat) :=
  if serialized.length = 0 then .error (.other "no serialized bytes")
  else
    let (code, offset) := deserializeVLQ serialized
    if offset ≥ serialized.length then
      .error (.other "unexpected end of data after header code")
    else
      let (isCoinBase, height) := decodeHeaderCode code
      let offset :=
        if height > 0 then offset + (deserializeVLQ (serialized.drop offset)).2 else offset
      if height > 0 && offset ≥ serialized.length then
        .error (.other "unexpected end of data after reserved")
      else do
        let (amount, pkScript, bytesRead) ← wrapError "unable to decode txout: "
          (decodeCompressedTxOut parsePubKey (serialized.drop offset))
        .ok (⟨amount.toInt64, pkScript, height, isCoinBase⟩, offset + bytesRead)

/-- The loops of `deserializeSpendJournalEntry`, over the inputs in reverse: each output that is
read goes in front of the ones read before. -/
def decodeStxos (parsePubKey : ParsePubKey) (serialized : Bytes) :
    List TxIn → Nat → List SpentTxOut → Except GoError (List SpentTxOut × Nat)
  | [], offset, stxos => .ok (stxos, offset)
  | txIn :: txIns, offset, stxos => do
    let (stxo, n) ← wrapError ("unable to decode stxo for " ++ txIn.previousOutPoint.string ++ ": ")
      (decodeSpentTxOut parsePubKey (serialized.drop offset))
    decodeStxos parsePubKey serialized txIns (offset + n) (stxo :: stxos)

/-- `deserializeSpendJournalEntry`, together with the offset it ends at. -/
def readSpendJournalEntry (parsePubKey : ParsePubKey) (serialized : Bytes) (txns : List MsgTx) :
    Except GoError (List SpentTxOut × Nat) :=
  let numStxos := (txns.map fun tx => tx.txIn.length).sum
  if serialized.length = 0 then
    if numStxos ≠ 0 then
      .error (.assert ("mismatched spend journal serialization - no serialization for expected " ++
        toString numStxos ++ " stxos"))
    else .ok ([], 0)
  else decodeStxos parsePubKey serialized (txns.flatMap MsgTx.txIn).reverse 0 []

def deserializeSpendJournalEntry (parsePubKey : ParsePubKey) (serialized : Bytes)
    (txns : List MsgTx) : Except GoError (List SpentTxOut) :=
  (readSpendJournalEntry parsePubKey serialized txns).map Prod.fst

/-- A slice of the given size after some bytes have been written to its front. -/
def fillSlice (size : Nat) (written : Bytes) : Except GoError Bytes :=
  if written.length ≤ size then .ok (written ++ List.replicate (size - written.length) 0)
  else .error (.panic ("runtime error: index out of range [" ++ toString size ++ "]"))

theorem fillSlice_length (written : Bytes) : fillSlice written.length written = .ok written := by
  rw [fillSlice, if_pos le_rfl, Nat.sub_self, replicate_zero, append_nil]

def serializeSpendJournalEntry (parsePubKey : ParsePubKey) (stxos : List SpentTxOut) :
    Except GoError Bytes :=
  if stxos.length = 0 then .ok []
  else
    fillSlice (stxos.map (spentTxOutSerializeSize parsePubKey)).sum
      (stxos.reverse.flatMap (putSpentTxOut parsePubKey))

/-! ## Unspent outputs -/

def utxoEntryHeaderCode (entry : UtxoEntry) : Except GoError UInt64 :=
  if entry.spent then .error (.assert "attempt to serialize spent utxo header")
  else .ok (headerCode entry.blockHeight entry.coinBase)

/-- A spent output has no serialization. -/
def serializeUtxoEntry (parsePubKey : ParsePubKey) (entry : UtxoEntry) :
    Except GoError (Option Bytes) :=
  if entry.spent then .ok none
  else do
    let code ← utxoEntryHeaderCode entry
    let size := serializeSizeVLQ code +
      compressedTxOutSize parsePubKey entry.amount.toUInt64 entry.pkScript
    let serialized ← fillSlice size
      (putVLQ code ++ putCompressedTxOut parsePubKey entry.amount.toUInt64 entry.pkScript)
    .ok (some serialized)

/-- `deserializeUtxoEntry`, together with the offset it ends at. -/
def readUtxoEntry (parsePubKey : ParsePubKey) (serialized : Bytes) :
    Except GoError (UtxoEntry × Nat) :=
  let (code, offset) := deserializeVLQ serialized
  if offset ≥ serialized.length then .error (.other "unexpected end of data after header")
  else do
    let (isCoinBase, blockHeight) := decodeHeaderCode code
    let (amount, pkScript, bytesRead) ← wrapError "unable to decode utxo: "
      (decodeCompressedTxOut parsePubKey (serialized.drop offset))
    .ok ({ amount := amount.toInt64, pkScript, blockHeight, coinBase := isCoinBase },
      offset + bytesRead)

def deserializeUtxoEntry (parsePubKey : ParsePubKey) (serialized : Bytes) :
    Except GoError UtxoEntry :=
  (readUtxoEntry parsePubKey serialized).map Prod.fst

/-! ## What is written is read back -/

/-- What an output of the chain is like: its height counts blocks, its amount is one that passes
validation, and its script is a slice.  Slices are shorter than this on every machine. -/
structure SpentTxOut.Storable (stxo : SpentTxOut) : Prop where
  height : 0 ≤ stxo.height
  amount_nonneg : 0 ≤ stxo.amount
  amount_le : stxo.amount ≤ maxSatoshi
  script : stxo.pkScript.length < 2 ^ 62

theorem SpentTxOut.Storable.toNat_amount {stxo : SpentTxOut} (h : stxo.Storable) :
    stxo.amount.toUInt64.toNat < 2 ^ 60 := by
  have hnat := MachineInt.toNat_toUInt64 h.amount_nonneg
  have hle := Int64.le_iff_toInt_le.1 h.amount_le
  have hmax : maxSatoshi.toInt = 2100000000000000 := by decide
  omega

variable (parsePubKey : ParsePubKey)

theorem length_putSpentTxOut (stxo : SpentTxOut) :
    (putSpentTxOut parsePubKey stxo).length = spentTxOutSerializeSize parsePubKey stxo := by
  rw [putSpentTxOut, spentTxOutSerializeSize, length_append, length_append,
    length_putVLQ, length_putCompressedTxOut]
  split <;> simp

/-- The slice that is allocated for a journal entry is filled exactly. -/
theorem length_flatMap_putSpentTxOut (stxos : List SpentTxOut) :
    (stxos.reverse.flatMap (putSpentTxOut parsePubKey)).length =
      (stxos.map (spentTxOutSerializeSize parsePubKey)).sum := by
  rw [length_flatMap, map_reverse, sum_reverse]
  simp only [length_putSpentTxOut]

theorem length_putCompressedTxOut_pos (amount : UInt64) (script : Bytes) :
    0 < (putCompressedTxOut parsePubKey amount script).length := by
  have := serializeSizeVLQ_pos (compressTxOutAmount amount)
  rw [putCompressedTxOut, length_append, length_putVLQ]
  omega

section RoundTrip

variable {parsePubKey : ParsePubKey} (hparse : Decompresses parsePubKey)

include hparse

theorem SpentTxOut.Storable.decode {stxo : SpentTxOut} (h : stxo.Storable) (rest : Bytes) :
    decodeCompressedTxOut parsePubKey
        (putCompressedTxOut parsePubKey stxo.amount.toUInt64 stxo.pkScript ++ rest) =
      .ok (stxo.amount.toUInt64, stxo.pkScript,
        (putCompressedTxOut parsePubKey stxo.amount.toUInt64 stxo.pkScript).length) :=
  decodeCompressedTxOut_putCompressedTxOut hparse h.toNat_amount h.script rest

/-- A spent output is read back in front of whatever follows it. -/
theorem decodeSpentTxOut_putSpentTxOut {stxo : SpentTxOut} (h : stxo.Storable) (rest : Bytes) :
    decodeSpentTxOut parsePubKey (putSpentTxOut parsePubKey stxo ++ rest) =
      .ok (stxo, (putSpentTxOut parsePubKey stxo).length) := by
  have hdec := h.decode hparse rest
  have hpos := length_putCompressedTxOut_pos parsePubKey stxo.amount.toUInt64 stxo.pkScript
  have hread := deserializeVLQ_putVLQ (spentTxOutHeaderCode stxo)
  have hcode := decodeHeaderCode_headerCode h.height stxo.isCoinBase
  rw [putSpentTxOut, decodeSpentTxOut]
  generalize putCompressedTxOut parsePubKey stxo.amount.toUInt64 stxo.pkScript = out at hdec hpos
  have hvlq := serializeSizeVLQ_pos (spentTxOutHeaderCode stxo)
  rw [← length_putVLQ] at hvlq
  rw [if_neg (by simp only [length_append]; omega), append_assoc, append_assoc, hread]
  simp only
  rw [if_neg (by simp only [length_append]; omega), spentTxOutHeaderCode, hcode]
  simp only [drop_left]
  by_cases hheight : stxo.height > 0
  · -- the reserved byte is passed over
    have hzero := deserializeVLQ_putVLQ 0 (out ++ rest)
    have hend : ¬ (decide (stxo.height > 0) &&
        decide ((putVLQ (headerCode stxo.height stxo.isCoinBase)).length + (putVLQ 0).length ≥
          (putVLQ (headerCode stxo.height stxo.isCoinBase) ++
            (putVLQ 0 ++ (out ++ rest))).length)) = true := by
      simp only [Bool.and_eq_true, decide_eq_true_eq, not_and, length_append]
      intro _
      omega
    simp only [if_pos hheight]
    rw [hzero]
    simp only
    rw [if_neg hend, ← append_assoc, drop_left' (by rw [length_append]), hdec]
    simp [wrapError, Nat.add_assoc]
  · simp only [if_neg hheight, nil_append]
    rw [if_neg (by simp [hheight]), drop_left, hdec]
    simp [wrapError]

/-- The loops read back a run of outputs, from wherever it starts. -/
theorem decodeStxos_eq (before rest : Bytes) {ss : List SpentTxOut} {txIns : List TxIn}
    (hss : ∀ s ∈ ss, s.Storable) (hlen : txIns.length = ss.length) (acc : List SpentTxOut) :
    decodeStxos parsePubKey (before ++ (ss.flatMap (putSpentTxOut parsePubKey) ++ rest)) txIns
        before.length acc =
      .ok (ss.reverse ++ acc, (before ++ ss.flatMap (putSpentTxOut parsePubKey)).length) := by
  induction ss generalizing before txIns acc with
  | nil =>
    obtain rfl := length_eq_zero_iff.1 hlen
    simp [decodeStxos]
  | cons s ss ih =>
    obtain ⟨txIn, txIns, rfl⟩ := exists_cons_of_length_eq_add_one hlen
    have hs := decodeSpentTxOut_putSpentTxOut hparse (hss s mem_cons_self)
      (ss.flatMap (putSpentTxOut parsePubKey) ++ rest)
    have hrest := ih (before ++ putSpentTxOut parsePubKey s)
      (fun t ht => hss t (mem_cons_of_mem _ ht)) (Nat.succ.inj hlen) (s :: acc)
    rw [decodeStxos, drop_left, flatMap_cons, append_assoc, hs]
    simp only [wrapError, ok_bind]
    rw [append_assoc, length_append] at hrest
    rw [hrest]
    simp [append_assoc]

theorem readSpendJournalEntry_serialize {stxos : List SpentTxOut} {txns : List MsgTx}
    (hstxos : ∀ s ∈ stxos, s.Storable)
    (hlen : (txns.map fun tx => tx.txIn.length).sum = stxos.length) :
    ∃ bs, serializeSpendJournalEntry parsePubKey stxos = .ok bs ∧
      readSpendJournalEntry parsePubKey bs txns = .ok (stxos, bs.length) := by
  rw [serializeSpendJournalEntry]
  split
  · rename_i hnil
    obtain rfl := length_eq_zero_iff.1 hnil
    refine ⟨[], rfl, ?_⟩
    have hnone : (txns.map fun tx => tx.txIn.length).sum = 0 := hlen
    rw [readSpendJournalEntry, hnone]
    rfl
  · rename_i hne
    refine ⟨stxos.reverse.flatMap (putSpentTxOut parsePubKey), ?_, ?_⟩
    · rw [← length_flatMap_putSpentTxOut, fillSlice_length]
    · obtain ⟨s, hs⟩ := exists_mem_of_length_pos (Nat.pos_of_ne_zero hne)
      have hpos : (stxos.reverse.flatMap (putSpentTxOut parsePubKey)).length ≠ 0 := by
        intro hzero
        have hnil := flatMap_eq_nil_iff.1 (length_eq_zero_iff.1 hzero) s (mem_reverse.2 hs)
        have hput := serializeSizeVLQ_pos (spentTxOutHeaderCode s)
        have hlen := congrArg List.length hnil
        rw [length_putSpentTxOut, spentTxOutSerializeSize, length_nil] at hlen
        omega
      have hins : (txns.flatMap MsgTx.txIn).reverse.length = stxos.reverse.length := by
        simp [length_flatMap, hlen]
      have hread := decodeStxos_eq hparse [] [] (fun s hs => hstxos s (mem_reverse.1 hs)) hins []
      rw [readSpendJournalEntry, if_neg hpos]
      simpa using hread

theorem readUtxoEntry_serialize {entry : UtxoEntry} (hunspent : entry.spent = false)
    (h : entry.stxo.Storable) :
    ∃ bs, serializeUtxoEntry parsePubKey entry = .ok (some bs) ∧
      readUtxoEntry parsePubKey bs = .ok (ofCoin entry.stxo, bs.length) := by
  have hdec := h.decode hparse []
  have hlen := length_putCompressedTxOut parsePubKey entry.amount.toUInt64 entry.pkScript
  have hpos := length_putCompressedTxOut_pos parsePubKey entry.amount.toUInt64 entry.pkScript
  have hcode := decodeHeaderCode_headerCode h.height entry.coinBase
  change decodeHeaderCode (headerCode entry.blockHeight entry.coinBase) = _ at hcode
  change decodeCompressedTxOut parsePubKey
    (putCompressedTxOut parsePubKey entry.amount.toUInt64 entry.pkScript ++ []) = _ at hdec
  rw [append_nil] at hdec
  refine ⟨putVLQ (headerCode entry.blockHeight entry.coinBase) ++
    putCompressedTxOut parsePubKey entry.amount.toUInt64 entry.pkScript, ?_, ?_⟩
  · rw [serializeUtxoEntry, if_neg (by simp [hunspent]), utxoEntryHeaderCode,
      if_neg (by simp [hunspent]), ok_bind]
    simp only
    rw [← length_putVLQ, ← hlen, ← length_append, fillSlice_length, ok_bind]
  · rw [readUtxoEntry, deserializeVLQ_putVLQ]
    simp only
    rw [if_neg (by simp only [length_append]; omega), hcode, drop_left, hdec]
    simp only [wrapError, ok_bind, length_append, Int64.toInt64_toUInt64]
    rfl

end RoundTrip

/-- **What is stored is read back.**  An unspent entry and the list of outputs that some
transactions spend are serialized without a panic, and deserialized to the same amounts, scripts,
heights and coinbase flags, in order, by a reader that ends where the bytes end. -/
theorem storage_roundtrip {parsePubKey : ParsePubKey} (hparse : Decompresses parsePubKey) :
    (∀ entry : UtxoEntry, entry.spent = false → entry.stxo.Storable →
      ∃ bs, serializeUtxoEntry parsePubKey entry = .ok (some bs) ∧
        deserializeUtxoEntry parsePubKey bs = .ok (ofCoin entry.stxo) ∧
        readUtxoEntry parsePubKey bs = .ok (ofCoin entry.stxo, bs.length)) ∧
    ∀ (stxos : List SpentTxOut) (txns : List MsgTx), (∀ s ∈ stxos, s.Storable) →
      (txns.map fun tx => tx.txIn.length).sum = stxos.length →
      ∃ bs, serializeSpendJournalEntry parsePubKey stxos = .ok bs ∧
        deserializeSpendJournalEntry parsePubKey bs txns = .ok stxos ∧
        readSpendJournalEntry parsePubKey bs txns = .ok (stxos, bs.length) := by
  refine ⟨fun entry hunspent h => ?_, fun stxos txns hstxos hlen => ?_⟩
  · obtain ⟨bs, hser, hread⟩ := readUtxoEntry_serialize hparse hunspent h
    refine ⟨bs, hser, ?_, hread⟩
    rw [deserializeUtxoEntry, hread]
    rfl
  · obtain ⟨bs, hser, hread⟩ := readSpendJournalEntry_serialize hparse hstxos hlen
    refine ⟨bs, hser, ?_, hread⟩
    rw [deserializeSpendJournalEntry, hread]
    rfl

/-- The coordinates of the generator of the curve. -/
def generatorX : Bytes :=
  Bytes.be 32 0x79be667ef9dcbbac55a06295ce870b07029bfcdb2dce28d959f2815b16f81798

def generatorY : Bytes :=
  Bytes.be 32 0x483ada7726a3c4655da4fbfc0e1108a8fd17b448a68554199c47d08ffb10d4b8

def generatorKey : Bytes.Sized 65 := ⟨0x04 :: (generatorX ++ generatorY), by decide⟩

/-- A parser that knows no other key. -/
def parseGenerator : ParsePubKey := fun bs =>
  if bs = generatorKey.val || bs = 0x02 :: generatorX then some generatorKey else none

theorem decompresses_parseGenerator : Decompresses parseGenerator := by
  intro key _ hvalid
  have hkey : key = generatorKey := by
    rw [parseGenerator] at hvalid
    split at hvalid
    · rename_i heq
      simp only [Bool.or_eq_true, decide_eq_true_eq] at heq
      rcases heq with heq | heq
      · exact Subtype.ext heq
      · have hlen := key.property
        rw [heq] at hlen
        exact absurd hlen (by decide)
    · cases hvalid
  rw [hkey]
  decide

/-- A coin of the genesis block for the generator, and one with a script of the same form around
something that is not a key. -/
def generatorCoin : SpentTxOut :=
  ⟨5000000000, Compress.opData65 :: (generatorKey.val ++ [0xac]), 0, true⟩
def lookAlikeCoin : SpentTxOut :=
  ⟨7, Compress.opData65 :: 0x04 :: (List.replicate 64 0 ++ [0xac]), 5, false⟩

/-- A transaction with two inputs. -/
def spendingBoth : MsgTx := ⟨1, [⟨⟨Hash.zero, 0⟩, [], [], 0⟩, ⟨⟨Hash.zero, 1⟩, [], [], 0⟩], [], 0⟩

theorem storage_roundtrip_generator :
    (∃ bs, serializeUtxoEntry parseGenerator (ofCoin generatorCoin) = .ok (some bs) ∧
      deserializeUtxoEntry parseGenerator bs = .ok (ofCoin generatorCoin) ∧
      readUtxoEntry parseGenerator bs = .ok (ofCoin generatorCoin, bs.length)) ∧
    ∃ bs, serializeSpendJournalEntry parseGenerator [generatorCoin, lookAlikeCoin] = .ok bs ∧
      deserializeSpendJournalEntry parseGenerator bs [spendingBoth] =
        .ok [generatorCoin, lookAlikeCoin] ∧
      readSpendJournalEntry parseGenerator bs [spendingBoth] =
        .ok ([generatorCoin, lookAlikeCoin], bs.length) := by
  have hgenerator : generatorCoin.Storable := ⟨by decide, by decide, by decide, by decide⟩
  have hlookAlike : lookAlikeCoin.Storable := ⟨by decide, by decide, by decide, by decide⟩
  obtain ⟨hentry, hjournal⟩ := storage_roundtrip decompresses_parseGenerator
  refine ⟨hentry (ofCoin generatorCoin) rfl hgenerator, ?_⟩
  refine hjournal [generatorCoin, lookAlikeCoin] _ (fun s hs => ?_) rfl
  rcases List.mem_cons.1 hs with rfl | hs
  · exact hgenerator
  · rwa [List.mem_singleton.1 hs]

end Obtcd
