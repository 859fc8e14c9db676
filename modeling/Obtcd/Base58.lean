import Obtcd.Blockchain.BestState
import Obtcd.Lib.Numeral

/-!
# Base58

`Encode` writes a byte string as a number in base 58, and `Decode` reads it.  Both work on ten
digits at a time: `Decode` cuts the string from the front, so that its last chunk may be short, and
`Encode` takes chunks off the low end of the number, so that the first characters come from a short
one.

Behind the chunks both are `Numeral.spell` of what the other reads (`encode_eq_spell`,
`map_toNat_decode`), from base 256 to base 58 and back.
-/

namespace Obtcd.Base58

open List Numeral Bytes BestChainState

/-! ## The tables -/

def alphabet : Bytes :=
  "123456789ABCDEFGHJKLMNPQRSTUVWXYZabcdefghijkmnopqrstuvwxyz".toList.map (UInt8.ofNat ·.toNat)

def alphabetIdx0 : UInt8 := 0x31

/-- The places of the characters in the alphabet, 255 for the others. -/
def b58 (v : UInt8) : Nat :=
  (replicate 48 255 ++ [
    255, 0, 1, 2, 3, 4, 5, 6, 7, 8, 255, 255, 255, 255, 255, 255,
    255, 9, 10, 11, 12, 13, 14, 15, 16, 255, 17, 18, 19, 20, 21, 255,
    22, 23, 24, 25, 26, 27, 28, 29, 30, 31, 32, 255, 255, 255, 255, 255,
    255, 33, 34, 35, 36, 37, 38, 39, 40, 41, 42, 43, 255, 44, 45, 46,
    47, 48, 49, 50, 51, 52, 53, 54, 55, 56, 57]).getD v.toNat 255

/-- `alphabet[m]`. -/
def digit (m : Nat) : UInt8 := alphabet.getD m 0

theorem digit_of_lt : ∀ d < 58, b58 (digit d) = d ∧ digit d ∈ alphabet := by decide +kernel

theorem b58_of_mem : ∀ c ∈ alphabet, b58 c < 58 ∧ digit (b58 c) = c := by decide +kernel

theorem b58_eq_zero {c : UInt8} : b58 c = 0 ↔ c = alphabetIdx0 := by
  have : ∀ i < 256, b58 (UInt8.ofNat i) = 0 ↔ UInt8.ofNat i = alphabetIdx0 := by decide +kernel
  simpa using this c.toNat c.toNat_lt

/-! ## Decode -/

/-- The ten powers of 58, kept in a table with a zero at the front. -/
def bigRadix (n : Nat) : Nat := if n = 0 then 0 else 58 ^ n

/-- One chunk.  The loop is over the runes of the string.  A byte above `0x7f` is not one, but it
makes one that is not in the alphabet, so the answer is the same as for the byte. -/
def readChunk (total : Nat) : Bytes → Option Nat
  | [] => some total
  | v :: t => if b58 v = 255 then none else readChunk (total * 58 + b58 v) t

/-- The loop over the chunks. -/
def decodeLoop (answer : Nat) (t : Bytes) : Option Nat :=
  if t = [] then some answer else do
    let n := min t.length 10
    let total ← readChunk 0 (t.take n)
    decodeLoop (answer * bigRadix n + total) (t.drop n)
termination_by t.length
decreasing_by
  have := length_pos_iff.mpr ‹t ≠ []›
  rw [length_drop]
  omega

def decode (b : Bytes) : Bytes :=
  match decodeLoop 0 b with
  | none => []
  | some answer => replicate (b.takeWhile (· == alphabetIdx0)).length 0 ++ bigBytes answer

/-! ## Encode -/

/-- The last chunk, without extra zeros. -/
def shortChunk (m : Nat) : Bytes :=
  if m = 0 then [] else digit (m % 58) :: shortChunk (m / 58)

/-- A chunk of `w` digits, the lowest first. -/
def fullChunk : Nat → Nat → Bytes
  | 0, _ => []
  | w + 1, m => digit (m % 58) :: fullChunk w (m / 58)

/-- The loop over the chunks. -/
def encodeLoop (x : Nat) : Bytes :=
  if x = 0 then [] else
    let q := x / bigRadix 10
    let mod := x % bigRadix 10
    (if q = 0 then shortChunk mod else fullChunk 10 mod) ++ encodeLoop q
decreasing_by exact Nat.div_lt_self (by omega) (by decide)

def encode (b : Bytes) : Bytes :=
  (encodeLoop (beNat b) ++ replicate (b.takeWhile (· == 0)).length alphabetIdx0).reverse

/-! ## The chunks -/

theorem readChunk_eq {t : Bytes} (h : ∀ c ∈ t, c ∈ alphabet) (total : Nat) :
    readChunk total t = some (total * 58 ^ t.length + value 58 (t.map b58)) := by
  induction t generalizing total with
  | nil => simp [readChunk, value]
  | cons v t ih =>
    obtain ⟨hv, ht⟩ := forall_mem_cons.mp h
    have hlt := (b58_of_mem v hv).1
    rw [readChunk, if_neg (by omega), ih ht, map_cons, value_cons, length_map, length_cons]
    ring_nf

/-- The chunks of a string put together are the string. -/
theorem decodeLoop_eq {t : Bytes} (h : ∀ c ∈ t, c ∈ alphabet) (answer : Nat) :
    decodeLoop answer t = some (answer * 58 ^ t.length + value 58 (t.map b58)) := by
  fun_induction decodeLoop answer t with
  | case1 => simp [value]
  | case2 answer t hne n ih =>
    have hn : 0 < n := by
      have := length_pos_iff.mpr hne
      omega
    have hlen : (t.take n).length = n := by
      rw [length_take]
      omega
    rw [readChunk_eq fun c hc => h c (mem_of_mem_take hc), Option.bind_eq_bind, Option.bind_some,
      ih _ fun c hc => h c (mem_of_mem_drop hc), bigRadix, if_neg hn.ne']
    conv_rhs => rw [← take_append_drop n t]
    rw [map_append, value_append, length_map, length_append, hlen, Nat.pow_add]
    ring_nf

theorem shortChunk_eq (m : Nat) : shortChunk m = (Nat.digits 58 m).map digit := by
  fun_induction shortChunk m with
  | case1 => simp
  | case2 m hm ih => rw [Nat.digits_def' (by decide) (Nat.pos_of_ne_zero hm), map_cons, ih]

/-- The low digits of a number that has more of them. -/
theorem fullChunk_append {w x : Nat} (h : x / 58 ^ w ≠ 0) :
    fullChunk w (x % 58 ^ w) ++ (Nat.digits 58 (x / 58 ^ w)).map digit =
      (Nat.digits 58 x).map digit := by
  induction w generalizing x with
  | zero => simp [fullChunk]
  | succ w ih =>
    have hx : 0 < x := Nat.pos_of_ne_zero fun h0 => h (by rw [h0, Nat.zero_div])
    rw [Nat.pow_succ', ← Nat.div_div_eq_div_mul] at h ⊢
    rw [fullChunk, Nat.mod_mul_right_mod, Nat.mod_mul_right_div_self, cons_append, ih h,
      Nat.digits_def' (by decide) hx, map_cons]

theorem encodeLoop_eq (x : Nat) : encodeLoop x = (Nat.digits 58 x).map digit := by
  fun_induction encodeLoop x with
  | case1 => simp
  | case2 x hx q mod ih =>
    have hbig : bigRadix 10 = 58 ^ 10 := rfl
    rw [ih]
    split_ifs with hq
    · have hmod : mod = x := Nat.mod_eq_of_lt (Nat.lt_of_div_eq_zero (by decide) hq)
      simp [hq, hmod, shortChunk_eq]
    · exact fullChunk_append hq

/-! ## The bytes -/

theorem value_map_toNat (bs : Bytes) : value 256 (bs.map UInt8.toNat) = beNat bs := by
  induction bs with
  | nil => rfl
  | cons b bs ih => rw [map_cons, value_cons, length_map, ih, beNat_cons]

theorem map_toNat_le (n : Nat) :
    (le (Nat.digits 256 n).length n).map UInt8.toNat = Nat.digits 256 n := by
  induction n using Nat.strongRecOn with
  | _ n ih =>
    rcases Nat.eq_zero_or_pos n with rfl | hn
    · simp [le]
    · rw [Nat.digits_def' (by decide) hn, length_cons, le, map_cons, ih _ (by omega),
        UInt8.toNat_ofNat']

/-! ## The numerals -/

theorem zeros_map_b58 (s : Bytes) :
    zeros (s.map b58) = (s.takeWhile (· == alphabetIdx0)).length :=
  zeros_map (fun _ => b58_eq_zero) s

theorem zeros_map_toNat (bs : Bytes) :
    zeros (bs.map UInt8.toNat) = (bs.takeWhile (· == 0)).length :=
  zeros_map (fun _ => UInt8.toNat_inj (b := 0)) bs

/-- `Encode` writes in base 58 what it reads in base 256. -/
theorem encode_eq_spell (b : Bytes) :
    encode b = (spell 58 (b.takeWhile (· == 0)).length (beNat b)).map digit := by
  rw [encode, encodeLoop_eq, spell, reverse_append, reverse_replicate, map_append, map_replicate,
    map_reverse]
  rfl

/-- `Decode` writes in base 256 what it reads in base 58. -/
theorem map_toNat_decode {s : Bytes} (h : ∀ c ∈ s, c ∈ alphabet) :
    (decode s).map UInt8.toNat = spell 256 (zeros (s.map b58)) (value 58 (s.map b58)) := by
  rw [decode, decodeLoop_eq h, Nat.zero_mul, Nat.zero_add, zeros_map_b58, spell, map_append,
    map_replicate, bigBytes, be, map_reverse, map_toNat_le]
  rfl

theorem mem_alphabet_of_mem_encode (b : Bytes) : ∀ c ∈ encode b, c ∈ alphabet := by
  intro c hc
  rw [encode_eq_spell] at hc
  obtain ⟨d, hd, rfl⟩ := mem_map.mp hc
  exact (digit_of_lt d (lt_of_mem_spell (by decide) d hd)).2

theorem map_b58_encode (b : Bytes) :
    (encode b).map b58 = spell 58 (b.takeWhile (· == 0)).length (beNat b) := by
  rw [encode_eq_spell, map_map]
  exact (map_congr_left fun d hd =>
    (digit_of_lt d (lt_of_mem_spell (by decide) d hd)).1).trans (map_id _)

theorem decode_encode (b : Bytes) : decode (encode b) = b := by
  apply map_injective_iff.mpr fun _ _ => UInt8.toNat_inj.mp
  rw [map_toNat_decode (mem_alphabet_of_mem_encode b), map_b58_encode, zeros_spell, value_spell,
    ← zeros_map_toNat, ← value_map_toNat]
  exact spell_zeros_value (by decide) (by simpa using fun c _ => c.toNat_lt)

theorem encode_decode {s : Bytes} (h : ∀ c ∈ s, c ∈ alphabet) : encode (decode s) = s := by
  rw [encode_eq_spell, ← zeros_map_toNat, ← value_map_toNat, map_toNat_decode h, zeros_spell,
    value_spell,
    spell_zeros_value (by decide) (by simpa using fun c hc => (b58_of_mem c (h c hc)).1), map_map]
  exact (map_congr_left fun c hc => (b58_of_mem c (h c hc)).2).trans (map_id s)

theorem mem_alphabet_of_readChunk {t : Bytes} {total n : Nat} (h : readChunk total t = some n) :
    ∀ c ∈ t, c ∈ alphabet := by
  have hchar : ∀ i < 256, b58 (UInt8.ofNat i) ≠ 255 → UInt8.ofNat i ∈ alphabet := by decide +kernel
  fun_induction readChunk total t with
  | case1 => simp
  | case2 => cases h
  | case3 total v t hv ih =>
    exact forall_mem_cons.mpr ⟨by simpa using hchar v.toNat v.toNat_lt (by simpa using hv), ih h⟩

theorem mem_alphabet_of_decodeLoop {t : Bytes} {answer n : Nat} (h : decodeLoop answer t = some n) :
    ∀ c ∈ t, c ∈ alphabet := by
  fun_induction decodeLoop answer t with
  | case1 => simp
  | case2 answer t hne k ih =>
    obtain ⟨total, hchunk, hrest⟩ := Option.bind_eq_some_iff.mp h
    intro c hc
    rw [← take_append_drop k t] at hc
    exact (mem_append.mp hc).elim (mem_alphabet_of_readChunk hchunk c) (ih total hrest c)

/-- **Base58 is a bijection** between the byte strings and the strings over the alphabet, and takes
leading zero bytes to leading ones. -/
theorem base58_bijection :
    (∀ b, decode (encode b) = b ∧ (∀ c ∈ encode b, c ∈ alphabet) ∧
      ((encode b).takeWhile (· == alphabetIdx0)).length = (b.takeWhile (· == 0)).length) ∧
    ∀ s : Bytes, (∀ c ∈ s, c ∈ alphabet) → encode (decode s) = s ∧
      ((decode s).takeWhile (· == 0)).length = (s.takeWhile (· == alphabetIdx0)).length := by
  refine ⟨fun b => ⟨decode_encode b, mem_alphabet_of_mem_encode b, ?_⟩,
    fun s hs => ⟨encode_decode hs, ?_⟩⟩
  · rw [← zeros_map_b58, map_b58_encode, zeros_spell]
  · rw [← zeros_map_toNat, map_toNat_decode hs, zeros_spell, zeros_map_b58]

theorem base58_bijection_sample : encode (decode [0x31, 0x42]) = [0x31, 0x42] :=
  (base58_bijection.2 _ (by decide +kernel)).1

/-! ## With a version and a checksum -/

def errChecksum : GoError := .other "checksum error"

def errInvalidFormat : GoError :=
  .other "invalid format: version and/or checksum bytes missing"

def checksum (input : Bytes) : Bytes := (Sha256.sum256 (Sha256.sum256 input).val).val.take 4

def checkEncode (input : Bytes) (version : UInt8) : Bytes :=
  encode (version :: input ++ checksum (version :: input))

/-- The payload and the version. -/
def checkDecode (input : Bytes) : Except GoError (Bytes × UInt8) :=
  let decoded := decode input
  let body := decoded.take (decoded.length - 4)
  if decoded.length < 5 then .error errInvalidFormat
  else if checksum body ≠ decoded.drop (decoded.length - 4) then .error errChecksum
  else .ok (body.drop 1, decoded.headD 0)

/-- **`CheckDecode` accepts what `CheckEncode` writes, and nothing else.** -/
theorem checkDecode_eq_ok_iff (s input : Bytes) (version : UInt8) :
    checkDecode s = .ok (input, version) ↔ s = checkEncode input version := by
  constructor
  · intro h
    rw [checkDecode] at h
    split_ifs at h with hlen hsum
    have halphabet : ∀ c ∈ s, c ∈ alphabet := by
      cases hloop : decodeLoop 0 s with
      | none => simp [decode, hloop] at hlen
      | some n => exact mem_alphabet_of_decodeLoop hloop
    have hbody : (decode s).take ((decode s).length - 4) =
        (decode s).headD 0 :: ((decode s).take ((decode s).length - 4)).drop 1 := by
      obtain ⟨n, hn⟩ := Nat.exists_eq_add_of_le' (Nat.not_lt.mp hlen)
      cases hdecoded : decode s with
      | nil => simp [hdecoded] at hn
      | cons v rest => simp [hdecoded ▸ hn]
    cases h
    rw [checkEncode, ← hbody, not_not.mp hsum, take_append_drop, encode_decode halphabet]
  · rintro rfl
    have hsum : (checksum (version :: input)).length = 4 := by
      rw [checksum, length_take, (Sha256.sum256 _).2]
      rfl
    simp [checkDecode, checkEncode, decode_encode, hsum]

end Obtcd.Base58
