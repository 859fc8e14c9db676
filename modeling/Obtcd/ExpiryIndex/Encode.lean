import Obtcd.Blockchain.Error
import Obtcd.Lib.MachineInt
import Obtcd.Wire

/-!
# Keys of the expiry index

`encode.go`: the byte strings the four buckets are keyed by.  Three encodings of an outpoint are in
use, and they differ on purpose: the plain one has a little-endian index, the *ordered* one reverses
the hash and has a big-endian index, and the *REAP-order* one keeps the hash and has a big-endian
index.  Only the last two are ever sorted.

Every encoding is injective and every decoder undoes its encoder.  The strict REAP key moreover
sorts by expiry key, amount, hash bytes and index (`compare_reapStrictKey`), which is
what makes a cursor over the candidate bucket the canonical order.
-/

namespace Obtcd

open Bytes List

namespace ExpiryIndex

/-! ## Sizes -/

/-- The lengths of the parts of a key, and of the two composite keys. -/
def expiryKeyEncodedSize : Nat := 8
def orderedOutPointEncodedSize : Nat := 36
def amountKeyEncodedSize : Nat := 8
def expiryOutpointCompositeKeySize : Nat := expiryKeyEncodedSize + orderedOutPointEncodedSize
def reapStrictCompositeKeySize : Nat :=
  expiryKeyEncodedSize + amountKeyEncodedSize + orderedOutPointEncodedSize

/-- The first 32 bytes of a byte string as a hash, as `copy(hash[:], bs)` fills it. -/
def hashOfBytes (bs : Bytes) : Hash :=
  ⟨⟨(bs ++ List.replicate 32 0).take 32, by simp⟩⟩

/-- Of 32 bytes none is lost. -/
@[simp] theorem hashOfBytes_bytes (h : Hash) : hashOfBytes h.bytes.val = h := by
  apply Hash.bytes_injective
  change (h.bytes.val ++ List.replicate 32 0).take 32 = h.bytes.val
  rw [take_append_of_le_length (by simp), take_of_length_le (by simp)]

/-! ## Outpoints -/

/-- The plain encoding, that of the wire. -/
def encodeOutPoint (op : OutPoint) : Bytes := op.write

/-- The ordered encoding: the hash as it is displayed, from its last byte on. -/
def encodeOrderedOutPoint (op : OutPoint) : Bytes :=
  op.hash.bytes.val.reverse ++ be 4 op.index.toNat

/-- The REAP-order encoding: the hash as it is stored. -/
def encodeReapOrderOutPoint (op : OutPoint) : Bytes :=
  op.hash.bytes.val ++ be 4 op.index.toNat

def decodeReapOrderOutPoint (encoded : Bytes) : Except GoError OutPoint :=
  if encoded.length ≠ orderedOutPointEncodedSize then
    .error (.other ("invalid REAP-order outpoint encoding length: got " ++
      toString encoded.length ++ ", expected " ++ toString orderedOutPointEncodedSize))
  else .ok ⟨hashOfBytes (encoded.take 32), UInt32.ofNat (beNat (encoded.drop 32))⟩

@[simp] theorem length_encodeOrderedOutPoint (op : OutPoint) :
    (encodeOrderedOutPoint op).length = 36 := by
  simp [encodeOrderedOutPoint]

@[simp] theorem length_encodeReapOrderOutPoint (op : OutPoint) :
    (encodeReapOrderOutPoint op).length = 36 := by
  simp [encodeReapOrderOutPoint]

/-- Different outpoints have different keys, here and in the two encodings below. -/
theorem encodeOutPoint_inj {a b : OutPoint} : encodeOutPoint a = encodeOutPoint b ↔ a = b :=
  OutPoint.write_injective.eq_iff

/-- An index is determined by its four bytes. -/
theorem be_index_inj {i j : UInt32} (h : be 4 i.toNat = be 4 j.toNat) : i = j :=
  UInt32.toNat_inj.1 (be_inj i.toNat_lt j.toNat_lt h)

theorem encodeOrderedOutPoint_inj {a b : OutPoint} :
    encodeOrderedOutPoint a = encodeOrderedOutPoint b ↔ a = b := by
  refine ⟨fun h => ?_, fun h => h ▸ rfl⟩
  obtain ⟨h', i⟩ := a
  obtain ⟨h'', j⟩ := b
  obtain ⟨hh, hi⟩ := append_inj h (by simp)
  have hhash : h' = h'' := Hash.bytes_injective (reverse_inj.1 hh)
  have hidx : i = j := be_index_inj hi
  rw [hhash, hidx]

/-- An outpoint that was encoded is decoded. -/
theorem decodeReapOrderOutPoint_encode (op : OutPoint) :
    decodeReapOrderOutPoint (encodeReapOrderOutPoint op) = .ok op := by
  obtain ⟨h, i⟩ := op
  have htake : (encodeReapOrderOutPoint ⟨h, i⟩).take 32 = h.bytes.val := take_left' (by simp)
  have hdrop : (encodeReapOrderOutPoint ⟨h, i⟩).drop 32 = be 4 i.toNat :=
    drop_left' (by simp)
  rw [decodeReapOrderOutPoint, if_neg (by simp [orderedOutPointEncodedSize]), htake, hdrop,
    hashOfBytes_bytes, beNat_be_of_lt i.toNat_lt, UInt32.ofNat_toNat]

/-! ## Expiry keys -/

/-- An expiry key is a height, in eight bytes that sort as the number does. -/
def encodeExpiryKey (expiry : UInt64) : Bytes := be 8 expiry.toNat

def decodeExpiryKey (encoded : Bytes) : Except GoError UInt64 :=
  if encoded.length ≠ expiryKeyEncodedSize then
    .error (.other ("invalid expiry key length: got " ++ toString encoded.length ++ ", expected " ++
      toString expiryKeyEncodedSize))
  else .ok (UInt64.ofNat (beNat encoded))

@[simp] theorem length_encodeExpiryKey (k : UInt64) : (encodeExpiryKey k).length = 8 := by
  simp [encodeExpiryKey]

@[simp] theorem decodeExpiryKey_encode (k : UInt64) :
    decodeExpiryKey (encodeExpiryKey k) = .ok k := by
  rw [decodeExpiryKey, if_neg (by simp [expiryKeyEncodedSize]), encodeExpiryKey,
    beNat_be_of_lt k.toNat_lt, UInt64.ofNat_toNat]

theorem encodeExpiryKey_inj {a b : UInt64} : encodeExpiryKey a = encodeExpiryKey b ↔ a = b := by
  refine ⟨fun h => ?_, fun h => h ▸ rfl⟩
  exact UInt64.toNat_inj.1 (be_inj a.toNat_lt b.toNat_lt h)

/-! ## Composite keys -/

/-- A key of `expiry2Outpoints`: by expiry key, and then by outpoint. -/
def encodeExpiryOutpointCompositeKey (expiryKey : UInt64) (outpoint : OutPoint) : Bytes :=
  encodeExpiryKey expiryKey ++ encodeOrderedOutPoint outpoint

/-- The key that `encodeReapStrictCompositeKey` lays out once the amount is known not to be
negative. -/
def reapStrictKey (expiryKey : UInt64) (amount : Int64) (outpoint : OutPoint) : Bytes :=
  encodeExpiryKey expiryKey ++ (be 8 amount.toUInt64.toNat ++ encodeReapOrderOutPoint outpoint)

/-- A key of `reapStrictCandidates`, for amounts that are not negative. -/
def encodeReapStrictCompositeKey (expiryKey : UInt64) (amount : Int64) (outpoint : OutPoint) :
    Except GoError Bytes :=
  if amount < 0 then
    .error (.other ("negative REAP candidate amount: " ++ toString amount.toInt))
  else .ok (reapStrictKey expiryKey amount outpoint)

/-- The first bit of the amount has to be zero, since amounts are signed. -/
def decodeReapStrictCompositeKey (encoded : Bytes) : Except GoError (UInt64 × Int64 × OutPoint) :=
  if encoded.length ≠ reapStrictCompositeKeySize then
    .error (.other ("invalid REAP strict composite key length: got " ++ toString encoded.length ++
      ", expected " ++ toString reapStrictCompositeKeySize))
  else do
    let expiryKey ← decodeExpiryKey (encoded.take expiryKeyEncodedSize)
    let amountU64 := beNat ((encoded.drop expiryKeyEncodedSize).take amountKeyEncodedSize)
    if amountU64 > 2 ^ 63 - 1 then
      .error (.other ("invalid REAP strict amount exceeds int64: " ++ toString amountU64))
    else do
      let outpoint ← decodeReapOrderOutPoint
        (encoded.drop (expiryKeyEncodedSize + amountKeyEncodedSize))
      .ok (expiryKey, Int64.ofNat amountU64, outpoint)

variable {op : OutPoint}

/-- A composite key determines its parts. -/
theorem encodeExpiryOutpointCompositeKey_inj {k k' : UInt64} {op' : OutPoint} :
    encodeExpiryOutpointCompositeKey k op = encodeExpiryOutpointCompositeKey k' op' ↔
      k = k' ∧ op = op' := by
  refine ⟨fun h => ?_, fun ⟨h₁, h₂⟩ => by rw [h₁, h₂]⟩
  obtain ⟨hk, hop⟩ := append_inj h (by simp)
  exact ⟨encodeExpiryKey_inj.1 hk, encodeOrderedOutPoint_inj.1 hop⟩

/-! ## The strict REAP key -/

@[simp] theorem length_reapStrictKey (k : UInt64) (amount : Int64) (op : OutPoint) :
    (reapStrictKey k amount op).length = 52 := by
  simp [reapStrictKey]

variable {a : Int64}

/-- So does a strict key. -/
theorem reapStrictKey_inj {k k' : UInt64} {a' : Int64} {op' : OutPoint} :
    reapStrictKey k a op = reapStrictKey k' a' op' ↔ k = k' ∧ a = a' ∧ op = op' := by
  refine ⟨fun h => ?_, fun ⟨h₁, h₂, h₃⟩ => by rw [h₁, h₂, h₃]⟩
  obtain ⟨hk, hrest⟩ := append_inj h (by simp)
  obtain ⟨ha, hop⟩ := append_inj hrest (by simp)
  have hamt : a.toUInt64 = a'.toUInt64 :=
    UInt64.toNat_inj.1 (be_inj a.toUInt64.toNat_lt a'.toUInt64.toNat_lt ha)
  have hop' := congrArg decodeReapOrderOutPoint hop
  rw [decodeReapOrderOutPoint_encode, decodeReapOrderOutPoint_encode] at hop'
  exact ⟨encodeExpiryKey_inj.1 hk, MachineInt.toUInt64_inj.1 hamt, Except.ok.inj hop'⟩

/-- What was laid out is decoded. -/
theorem decodeReapStrictCompositeKey_reapStrictKey (k : UInt64) (h : 0 ≤ a) (op : OutPoint) :
    decodeReapStrictCompositeKey (reapStrictKey k a op) = .ok (k, a, op) := by
  have hkey : (reapStrictKey k a op).take expiryKeyEncodedSize = encodeExpiryKey k :=
    take_left' (by simp [expiryKeyEncodedSize])
  have hrest : (reapStrictKey k a op).drop expiryKeyEncodedSize =
      be 8 a.toUInt64.toNat ++ encodeReapOrderOutPoint op :=
    drop_left' (by simp [expiryKeyEncodedSize])
  have hamount : ((reapStrictKey k a op).drop expiryKeyEncodedSize).take amountKeyEncodedSize =
      be 8 a.toUInt64.toNat := by
    rw [hrest]
    exact take_left' (by simp [amountKeyEncodedSize])
  have hop : (reapStrictKey k a op).drop (expiryKeyEncodedSize + amountKeyEncodedSize) =
      encodeReapOrderOutPoint op := by
    rw [← drop_drop, hrest]
    exact drop_left' (by simp [amountKeyEncodedSize])
  have hval : (a.toUInt64.toNat : Int) = a.toInt := MachineInt.toNat_toUInt64 h
  have hlt : a.toInt < 2 ^ 63 := a.toInt_lt
  have hback : Int64.ofNat a.toUInt64.toNat = a := by
    apply Int64.toInt_inj.1
    rw [Int64.toInt_ofNat_of_lt (by omega), hval]
  rw [decodeReapStrictCompositeKey, if_neg (by simp [reapStrictCompositeKeySize,
    expiryKeyEncodedSize, amountKeyEncodedSize, orderedOutPointEncodedSize]), hkey,
    decodeExpiryKey_encode, hamount, hop, decodeReapOrderOutPoint_encode,
    beNat_be_of_lt a.toUInt64.toNat_lt, ok_bind, if_neg (by omega), ok_bind, hback]

/-- Only encodings are decoded. -/
theorem encodeReapOrderOutPoint_decode {bs : Bytes} (h : decodeReapOrderOutPoint bs = .ok op) :
    encodeReapOrderOutPoint op = bs := by
  rw [decodeReapOrderOutPoint] at h
  split_ifs at h
  · next hlen =>
    have hlen : bs.length = 36 := not_not.1 hlen
    cases h
    have hhash : (hashOfBytes (bs.take 32)).bytes.val = bs.take 32 := by
      change (bs.take 32 ++ List.replicate 32 0).take 32 = bs.take 32
      rw [take_append_of_le_length (by rw [length_take]; omega),
        take_of_length_le (by rw [length_take]; omega)]
    have hdrop : (bs.drop 32).length = 4 := by rw [length_drop, hlen]
    have hlt : beNat (bs.drop 32) < 2 ^ 32 := by
      have := beNat_lt (bs.drop 32)
      rwa [hdrop] at this
    have hbe := be_beNat (bs.drop 32)
    rw [hdrop] at hbe
    simp only [encodeReapOrderOutPoint]
    rw [hhash, UInt32.toNat_ofNat_of_lt' hlt, hbe, take_append_drop]

/-- Encoding and decoding of strict keys are inverse to each other. -/
theorem encodeReapStrictCompositeKey_iff {k : UInt64} {key : Bytes} :
    encodeReapStrictCompositeKey k a op = .ok key ↔
      decodeReapStrictCompositeKey key = .ok (k, a, op) := by
  constructor
  · intro h
    rw [encodeReapStrictCompositeKey] at h
    split_ifs at h
    · next hneg =>
      rw [← Except.ok.inj h]
      exact decodeReapStrictCompositeKey_reapStrictKey k (Int64.not_lt.1 hneg) op
  · intro h
    rw [decodeReapStrictCompositeKey] at h
    split_ifs at h
    next hlen =>
    have hlen : key.length = 52 := not_not.1 hlen
    have htake : (key.take expiryKeyEncodedSize).length = 8 := by
      rw [length_take, hlen, expiryKeyEncodedSize]
      rfl
    have hmid : ((key.drop expiryKeyEncodedSize).take amountKeyEncodedSize).length = 8 := by
      rw [length_take, length_drop, hlen, expiryKeyEncodedSize, amountKeyEncodedSize]
      rfl
    obtain ⟨k', hk, h⟩ := bind_eq_ok.1 h
    rw [decodeExpiryKey, htake, if_neg (by decide)] at hk
    dsimp only at h
    split_ifs at h
    next hamount =>
    obtain ⟨op', hop, h⟩ := bind_eq_ok.1 h
    obtain ⟨rfl, rfl, rfl⟩ : k' = k ∧ Int64.ofNat _ = a ∧ op' = op := by simpa using h
    have hlt := beNat_lt (key.take expiryKeyEncodedSize)
    have hbe := be_beNat (key.take expiryKeyEncodedSize)
    have hbe' := be_beNat ((key.drop expiryKeyEncodedSize).take amountKeyEncodedSize)
    rw [htake] at hlt hbe
    rw [hmid] at hbe'
    generalize beNat ((key.drop expiryKeyEncodedSize).take amountKeyEncodedSize) = n at *
    have hint : (Int64.ofNat n).toInt = n := Int64.toInt_ofNat_of_lt (by omega)
    have hnonneg : ¬ Int64.ofNat n < 0 := by
      rw [Int64.not_lt, Int64.le_iff_toInt_le, hint, Int64.toInt_zero]
      omega
    have hnat : (Int64.ofNat n).toUInt64.toNat = n := by
      have := MachineInt.toNat_toUInt64 (Int64.not_lt.1 hnonneg)
      omega
    rw [encodeReapStrictCompositeKey, if_neg hnonneg, reapStrictKey, encodeExpiryKey,
      ← Except.ok.inj hk, UInt64.toNat_ofNat_of_lt' hlt, hbe, hnat, hbe',
      encodeReapOrderOutPoint_decode hop, ← drop_drop, take_append_drop, take_append_drop]

/-- The strict key sorts by expiry key, amount, hash bytes and index. -/
theorem compare_reapStrictKey (k k' : UInt64) {a' : Int64} (h : 0 ≤ a) (h' : 0 ≤ a')
    (op op' : OutPoint) :
    compare (reapStrictKey k a op) (reapStrictKey k' a' op') =
      (compare k k').then ((compare a a').then
        ((compare op.hash op'.hash).then (compare op.index op'.index))) := by
  have hhash : compare op.hash.bytes.val op'.hash.bytes.val = compare op.hash op'.hash := rfl
  rw [reapStrictKey, reapStrictKey, compare_append (by simp), compare_append (by simp),
    encodeReapOrderOutPoint, encodeReapOrderOutPoint, compare_append (by simp), encodeExpiryKey,
    encodeExpiryKey, compare_be k.toNat_lt k'.toNat_lt,
    compare_be a.toUInt64.toNat_lt a'.toUInt64.toNat_lt,
    compare_be op.index.toNat_lt op'.index.toNat_lt, MachineInt.compare_toNat_toUInt64 h h',
    ← UInt64.compare_eq_toNat_compare_toNat, ← UInt32.compare_eq_toNat_compare_toNat, hhash]

end ExpiryIndex

end Obtcd
