import Obtcd.Blockchain.Validate
import Obtcd.Lib.Vlq
import Obtcd.Txscript.Sighash

/-!
# Compressed outputs

`compress.go`: the numerals, amounts and scripts of the coin database.

* A VLQ is a numeral in base 128, high digit first, in which every digit but the last has its high
  bit set and stands for one more than it says.
* An amount is split into its trailing zeros, its last digit and the rest.
* A script of one of six forms is stored as the number of the form and the hash or the coordinate
  that fills it in.  Any other script is stored behind its length, to which six is added.

Each reader is shown to find in front of a byte string what its writer put there and how long it is:
`deserializeVLQ_putVLQ`, `decompressTxOutAmount_compressTxOutAmount` and
`decodeCompressedTxOut_putCompressedTxOut`.  A public key is stored without its second coordinate;
that it can be found again is an assumption about the curve, `Decompresses`.

A writer fills a slice that its caller has allocated by a size function.  Here it returns what it
writes, and the size functions are shown to be exact.
-/

namespace Obtcd

open List

/-! ## Numerals -/

/-- The loop of `serializeSizeVLQ`.  A number of 64 bits has at most ten digits. -/
def sizeVLQ : Nat → UInt64 → Nat
  | 0, _ => 0
  | fuel + 1, n => if n > 0x7f then sizeVLQ fuel ((n >>> 7) - 1) + 1 else 1

def serializeSizeVLQ (n : UInt64) : Nat := sizeVLQ 10 n

/-- The loop of `putVLQ`: the digits, low digit first.  The first one is written without the high
bit. -/
def vlqDigits : Nat → UInt8 → UInt64 → Bytes
  | 0, _, _ => []
  | fuel + 1, highBitMask, n =>
    ((n &&& 0x7f).toUInt8 ||| highBitMask) ::
      if n ≤ 0x7f then [] else vlqDigits fuel 0x80 ((n >>> 7) - 1)

def putVLQ (n : UInt64) : Bytes := (vlqDigits 10 0 n).reverse

/-- The loop of `deserializeVLQ`. -/
def readVLQ : UInt64 → Nat → Bytes → UInt64 × Nat
  | n, size, [] => (n, size)
  | n, size, val :: serialized =>
    let n := (n <<< 7) ||| (val &&& 0x7f).toUInt64
    if val &&& 0x80 ≠ 0x80 then (n, size + 1) else readVLQ (n + 1) (size + 1) serialized

/-- The number and how many bytes it takes. -/
def deserializeVLQ (serialized : Bytes) : UInt64 × Nat := readVLQ 0 0 serialized

section Digits

theorem toNat_shiftRight_seven (n : UInt64) : (n >>> 7).toNat = n.toNat / 128 := by
  rw [UInt64.toNat_shiftRight]
  simp [Nat.shiftRight_eq_div_pow]

theorem toNat_and_low (n : UInt64) : (n &&& 0x7f).toNat = n.toNat % 128 := by
  have hmask : (0x7f : UInt64).toNat = 2 ^ 7 - 1 := rfl
  rw [UInt64.toNat_and, hmask, Nat.and_two_pow_sub_one_eq_mod]

theorem shift_or_low (n : UInt64) : ((n >>> 7) <<< 7) ||| (n &&& 0x7f) = n := by
  have hlt := n.toNat_lt
  have hshift : ((n >>> 7) <<< 7).toNat = (n.toNat / 128) <<< 7 := by
    rw [UInt64.toNat_shiftLeft, toNat_shiftRight_seven]
    simp only [UInt64.reduceToNat, Nat.reduceMod, Nat.shiftLeft_eq]
    omega
  apply UInt64.toNat_inj.1
  rw [UInt64.toNat_or, hshift, toNat_and_low,
    ← Nat.shiftLeft_add_eq_or_of_lt (Nat.mod_lt _ (by decide)), Nat.shiftLeft_eq]
  omega

theorem toUInt64_low (n : UInt64) : (n &&& 0x7f).toUInt8.toUInt64 = n &&& 0x7f := by
  have hlow := toNat_and_low n
  apply UInt64.toNat_inj.1
  rw [UInt8.toNat_toUInt64, UInt64.toNat_toUInt8]
  omega

theorem low_lt (n : UInt64) : (n &&& 0x7f).toUInt8.toNat < 128 := by
  rw [UInt64.toNat_toUInt8, toNat_and_low]
  omega

/-- The seven bits of a digit, with either high bit. -/
theorem digit_bits {d : UInt8} (hd : d.toNat < 128) :
    (d ||| 0) &&& 0x7f = d ∧ (d ||| 0) &&& 0x80 ≠ 0x80 ∧
      (d ||| 0x80) &&& 0x7f = d ∧ (d ||| 0x80) &&& 0x80 = 0x80 := by
  have hall : ∀ k : Fin 128, (UInt8.ofNat k ||| 0) &&& 0x7f = UInt8.ofNat k ∧
      (UInt8.ofNat k ||| 0) &&& 0x80 ≠ 0x80 ∧ (UInt8.ofNat k ||| 0x80) &&& 0x7f = UInt8.ofNat k ∧
      (UInt8.ofNat k ||| 0x80) &&& 0x80 = 0x80 := by decide
  have hk := hall ⟨d.toNat, hd⟩
  rwa [UInt8.ofNat_toNat] at hk

end Digits

variable {n : UInt64}

theorem toNat_next (h : ¬ n ≤ 0x7f) : ((n >>> 7) - 1).toNat = n.toNat / 128 - 1 := by
  have hlt : 0x7f < n.toNat := UInt64.lt_iff_toNat_lt.1 (UInt64.not_le.1 h)
  rw [UInt64.toNat_sub_of_le, toNat_shiftRight_seven]
  · rfl
  · rw [UInt64.le_iff_toNat_le, toNat_shiftRight_seven]
    simp only [UInt64.reduceToNat]
    omega

/-- One digit is read on top of the ones above it. -/
theorem readVLQ_digit (n : UInt64) (size : Nat) (rest : Bytes) :
    readVLQ (n >>> 7) size (((n &&& 0x7f).toUInt8 ||| 0x80) :: rest) =
        readVLQ (n + 1) (size + 1) rest ∧
      readVLQ (n >>> 7) size (((n &&& 0x7f).toUInt8 ||| 0) :: rest) = (n, size + 1) := by
  obtain ⟨h₁, h₂, h₃, h₄⟩ := digit_bits (low_lt n)
  rw [readVLQ, readVLQ, h₃, h₁, toUInt64_low, shift_or_low, if_neg (not_not.2 h₄), if_pos h₂]
  exact ⟨rfl, rfl⟩

theorem shiftRight_of_le (h : n ≤ 0x7f) : n >>> 7 = 0 := by
  have hle : n.toNat ≤ 0x7f := UInt64.le_iff_toNat_le.1 h
  apply UInt64.toNat_inj.1
  rw [toNat_shiftRight_seven]
  simp only [UInt64.toNat_zero]
  omega

/-- What is read over the digits above the last: one more than the number they spell. -/
theorem readVLQ_digits {fuel : Nat} (hn : n.toNat < 128 ^ (fuel + 1)) (size : Nat) (rest : Bytes) :
    readVLQ 0 size ((vlqDigits (fuel + 1) 0x80 n).reverse ++ rest) =
      readVLQ (n + 1) (size + (vlqDigits (fuel + 1) 0x80 n).length) rest := by
  induction fuel generalizing n rest with
  | zero =>
    have hle : n ≤ 0x7f := UInt64.le_iff_toNat_le.2 (by simpa using Nat.le_of_lt_succ hn)
    have hread := (readVLQ_digit n size rest).1
    rw [shiftRight_of_le hle] at hread
    rwa [vlqDigits, if_pos hle]
  | succ fuel ih =>
    rw [vlqDigits]
    by_cases hle : n ≤ 0x7f
    · have hread := (readVLQ_digit n size rest).1
      rw [shiftRight_of_le hle] at hread
      rwa [if_pos hle]
    · have hnext : ((n >>> 7) - 1).toNat < 128 ^ (fuel + 1) := by
        rw [Nat.pow_succ] at hn
        rw [toNat_next hle]
        omega
      rw [if_neg hle, reverse_cons, append_assoc, ih hnext, UInt64.sub_add_cancel,
        singleton_append, (readVLQ_digit n _ rest).1, length_cons, Nat.add_assoc]

/-- A numeral is read back, whatever follows it. -/
theorem deserializeVLQ_putVLQ (n : UInt64) (rest : Bytes) :
    deserializeVLQ (putVLQ n ++ rest) = (n, (putVLQ n).length) := by
  have hlt := n.toNat_lt
  rw [deserializeVLQ, putVLQ, vlqDigits]
  by_cases hle : n ≤ 0x7f
  · have hread := (readVLQ_digit n 0 rest).2
    rw [shiftRight_of_le hle] at hread
    rwa [if_pos hle]
  · have hnext : ((n >>> 7) - 1).toNat < 128 ^ (8 + 1) := by
      rw [toNat_next hle]
      omega
    rw [if_neg hle, reverse_cons, append_assoc, readVLQ_digits hnext,
      UInt64.sub_add_cancel, singleton_append, (readVLQ_digit n _ rest).2]
    simp

theorem length_vlqDigits {fuel : Nat} (mask : UInt8) :
    (vlqDigits fuel mask n).length = sizeVLQ fuel n := by
  induction fuel generalizing n mask with
  | zero => rfl
  | succ fuel ih =>
    rw [vlqDigits, sizeVLQ]
    by_cases hle : n ≤ 0x7f
    · rw [if_pos hle, if_neg (UInt64.not_lt.2 hle)]
      rfl
    · rw [if_neg hle, if_pos (UInt64.not_le.1 hle), length_cons, ih]

@[simp] theorem length_putVLQ (n : UInt64) : (putVLQ n).length = serializeSizeVLQ n := by
  rw [putVLQ, length_reverse, length_vlqDigits, serializeSizeVLQ]

theorem serializeSizeVLQ_pos (n : UInt64) : 0 < serializeSizeVLQ n := by
  rw [serializeSizeVLQ, sizeVLQ]
  split <;> omega

theorem serializeSizeVLQ_le (n : UInt64) : serializeSizeVLQ n ≤ 10 := by
  have hbound : ∀ fuel (m : UInt64), sizeVLQ fuel m ≤ fuel := by
    intro fuel
    induction fuel with
    | zero => exact fun _ => le_rfl
    | succ fuel ih =>
      intro m
      have := ih ((m >>> 7) - 1)
      rw [sizeVLQ]
      split <;> omega
  exact hbound 10 n

theorem putVLQ_of_lt (h : n ≤ 0x7f) : putVLQ n = [n.toUInt8] := by
  have hle : n.toNat ≤ 0x7f := UInt64.le_iff_toNat_le.1 h
  have hlow : n &&& 0x7f = n := by
    apply UInt64.toNat_inj.1
    rw [toNat_and_low]
    omega
  rw [putVLQ, vlqDigits, if_pos h, hlow, UInt8.or_zero]
  rfl

/-- The bytes of a digit. -/
theorem digit_byte (n : UInt64) :
    (n &&& 0x7f).toUInt8 ||| 0 = UInt8.ofNat (n.toNat % 128) ∧
      (n &&& 0x7f).toUInt8 ||| 0x80 = UInt8.ofNat (128 + n.toNat % 128) := by
  have hall : ∀ k : Fin 128, UInt8.ofNat k ||| 0 = UInt8.ofNat k ∧
      UInt8.ofNat k ||| 0x80 = UInt8.ofNat (128 + k) := by decide
  have hk := hall ⟨n.toNat % 128, Nat.mod_lt _ (by decide)⟩
  have hlow : UInt8.ofNat (n.toNat % 128) = (n &&& 0x7f).toUInt8 := by
    rw [← toNat_and_low]
    rfl
  rwa [← hlow]

theorem vlqDigits_eq_carry {fuel : Nat} (hn : n.toNat < 128 ^ (fuel + 1)) :
    (vlqDigits (fuel + 1) 0x80 n).reverse = Vlq.carry n.toNat := by
  induction fuel generalizing n with
  | zero =>
    have hle : n ≤ 0x7f := UInt64.le_iff_toNat_le.2 (by simpa using Nat.le_of_lt_succ hn)
    rw [vlqDigits, if_pos hle, Vlq.carry_of_lt (by simpa using hn), (digit_byte n).2]
    rfl
  | succ fuel ih =>
    rw [vlqDigits, (digit_byte n).2]
    by_cases hle : n ≤ 0x7f
    · rw [if_pos hle, Vlq.carry_of_lt (Nat.lt_succ_of_le (UInt64.le_iff_toNat_le.1 hle))]
      rfl
    · have hlt : 0x7f < n.toNat := UInt64.lt_iff_toNat_lt.1 (UInt64.not_le.1 hle)
      have hnext : ((n >>> 7) - 1).toNat < 128 ^ (fuel + 1) := by
        rw [Nat.pow_succ] at hn
        rw [toNat_next hle]
        omega
      rw [if_neg hle, reverse_cons, ih hnext, toNat_next hle, Vlq.carry_of_le hlt]

theorem putVLQ_eq_code (n : UInt64) : putVLQ n = Vlq.code n.toNat := by
  have hlt := n.toNat_lt
  rw [putVLQ, vlqDigits, Vlq.code, (digit_byte n).1]
  by_cases hle : n ≤ 0x7f
  · have hle' : n.toNat ≤ 0x7f := UInt64.le_iff_toNat_le.1 hle
    rw [if_pos hle, if_pos (by omega)]
    rfl
  · have hlt' : 0x7f < n.toNat := UInt64.lt_iff_toNat_lt.1 (UInt64.not_le.1 hle)
    have hnext : ((n >>> 7) - 1).toNat < 128 ^ (8 + 1) := by
      rw [toNat_next hle]
      omega
    rw [if_neg hle, if_neg (by omega), reverse_cons, vlqDigits_eq_carry hnext, toNat_next hle]

/-- **The numerals are the self-delimiting words.**  A numeral is read back with its size, whatever
follows; none is in front of another; and bytes that end at the first one below `0x80` and spell a
number of 64 bits are the numeral of that number alone. -/
theorem putVLQ_selfDelimiting :
    (∀ (n : UInt64) (rest : Bytes), deserializeVLQ (putVLQ n ++ rest) = (n, serializeSizeVLQ n)) ∧
      (∀ m n : UInt64, putVLQ m <+: putVLQ n → m = n) ∧
      ∀ (init : Bytes) (last : UInt8), (∀ b ∈ init, 0x80 ≤ b) → last < 0x80 →
        Vlq.lead init * 128 + last.toNat < 2 ^ 64 → ∃! n, putVLQ n = init ++ [last] := by
  have hread (n : UInt64) (rest : Bytes) :
      deserializeVLQ (putVLQ n ++ rest) = (n, serializeSizeVLQ n) := by
    rw [deserializeVLQ_putVLQ, length_putVLQ]
  have hfree (m n : UInt64) (h : putVLQ m <+: putVLQ n) : m = n := by
    obtain ⟨rest, hrest⟩ := h
    have hself := hread n []
    rw [append_nil, ← hrest, hread] at hself
    exact congrArg Prod.fst hself
  refine ⟨hread, hfree, fun init last hinit hlast hlt => ?_⟩
  have hcode : putVLQ (.ofNat (Vlq.lead init * 128 + last.toNat)) = init ++ [last] := by
    rw [putVLQ_eq_code, UInt64.toNat_ofNat_of_lt' hlt]
    exact Vlq.code_lead (fun b hb => UInt8.le_iff_toNat_le.1 (hinit b hb))
      (UInt8.lt_iff_toNat_lt.1 hlast)
  exact existsUnique_of_exists_of_unique ⟨_, hcode⟩ fun m n hm hn =>
    hfree m n (hm.trans hn.symm ▸ prefix_rfl)

/-- The ten bytes of the greatest number. -/
theorem putVLQ_selfDelimiting_max :
    ∃! n, putVLQ n = [0x80, 0xfe, 0xfe, 0xfe, 0xfe, 0xfe, 0xfe, 0xfe, 0xfe] ++ [0x7f] :=
  putVLQ_selfDelimiting.2.2 _ _ (by decide +kernel) (by decide) (by decide +kernel)

/-! ## Amounts -/

/-- The loop of `compressTxOutAmount`: the amount without up to `fuel` trailing zeros, and their
number. -/
def trimZeros : Nat → UInt64 → UInt64 → UInt64 × UInt64
  | 0, amount, exponent => (amount, exponent)
  | fuel + 1, amount, exponent =>
    if amount % 10 = 0 then trimZeros fuel (amount / 10) (exponent + 1) else (amount, exponent)

def compressTxOutAmount (amount : UInt64) : UInt64 :=
  if amount = 0 then 0
  else
    let (amount, exponent) := trimZeros 9 amount 0
    if exponent < 9 then
      let lastDigit := amount % 10
      let amount := amount / 10
      1 + 10 * (9 * amount + lastDigit - 1) + exponent
    else 10 + 10 * (amount - 1)

/-- The loop of `decompressTxOutAmount`. -/
def scale : Nat → UInt64 → UInt64
  | 0, n => n
  | exponent + 1, n => scale exponent (n * 10)

def decompressTxOutAmount (amount : UInt64) : UInt64 :=
  if amount = 0 then 0
  else
    let amount := amount - 1
    let exponent := amount % 10
    let amount := amount / 10
    let n :=
      if exponent < 9 then
        let lastDigit := amount % 9 + 1
        let amount := amount / 9
        amount * 10 + lastDigit
      else amount + 1
    scale exponent.toNat n

theorem trimZeros_spec (fuel : Nat) (amount exponent : UInt64) (hfuel : fuel ≤ 9)
    (hexp : exponent.toNat + fuel = 9) :
    ∃ k ≤ fuel, (trimZeros fuel amount exponent).2.toNat = exponent.toNat + k ∧
      amount.toNat = (trimZeros fuel amount exponent).1.toNat * 10 ^ k ∧
      (k < fuel → (trimZeros fuel amount exponent).1.toNat % 10 ≠ 0) := by
  induction fuel generalizing amount exponent with
  | zero => exact ⟨0, le_rfl, rfl, by simp [trimZeros], by simp⟩
  | succ fuel ih =>
    rw [trimZeros]
    by_cases hzero : amount % 10 = 0
    · have hmod : amount.toNat % 10 = 0 := by
        have := congrArg UInt64.toNat hzero
        rwa [UInt64.toNat_mod] at this
      have hexp' : (exponent + 1).toNat = exponent.toNat + 1 := by
        rw [UInt64.toNat_add]
        simp only [UInt64.toNat_one]
        omega
      obtain ⟨k, hk, he, ha, hlast⟩ := ih (amount / 10) (exponent + 1) (by omega) (by omega)
      rw [if_pos hzero]
      refine ⟨k + 1, by omega, by omega, ?_, fun h => hlast (by omega)⟩
      have hdiv : (amount / 10).toNat = amount.toNat / 10 := UInt64.toNat_div _ _
      rw [hdiv] at ha
      rw [Nat.pow_succ, ← Nat.mul_assoc, ← ha]
      omega
    · rw [if_neg hzero]
      refine ⟨0, by omega, rfl, by simp, fun _ hmod => hzero ?_⟩
      apply UInt64.toNat_inj.1
      rwa [UInt64.toNat_mod]

theorem toNat_scale {k : Nat} (h : n.toNat * 10 ^ k < 2 ^ 64) :
    (scale k n).toNat = n.toNat * 10 ^ k := by
  induction k generalizing n with
  | zero => simp [scale]
  | succ k ih =>
    have hpow : 0 < 10 ^ k := Nat.pow_pos (by decide)
    have hassoc : n.toNat * 10 ^ (k + 1) = n.toNat * 10 * 10 ^ k := by
      rw [Nat.pow_succ']
      ring
    have hmul : (n * 10).toNat = n.toNat * 10 := by
      have hle : n.toNat * 10 ≤ n.toNat * 10 * 10 ^ k := Nat.le_mul_of_pos_right _ hpow
      rw [UInt64.toNat_mul]
      exact Nat.mod_eq_of_lt (lt_of_le_of_lt hle (hassoc ▸ h))
    rw [scale, ih (by rw [hmul, ← hassoc]; exact h), hmul, hassoc]

/-- The exponent and the rest of a code. -/
theorem code_parts {c : UInt64} {q k : Nat} (hc : c.toNat = 1 + 10 * q + k) (hk : k < 10) :
    c ≠ 0 ∧ ((c - 1) % 10).toNat = k ∧ ((c - 1) / 10).toNat = q := by
  have hpred : (c - 1).toNat = 10 * q + k := by
    rw [UInt64.toNat_sub_of_le _ _ (UInt64.le_iff_toNat_le.2 (by rw [hc]; simp; omega)), hc]
    simp only [UInt64.toNat_one]
    omega
  refine ⟨fun h0 => ?_, ?_, ?_⟩
  · rw [h0, UInt64.toNat_zero] at hc
    omega
  · rw [UInt64.toNat_mod, hpred]
    simp only [UInt64.reduceToNat]
    omega
  · rw [UInt64.toNat_div, hpred]
    simp only [UInt64.reduceToNat]
    omega

/-- The last digit, the rest and the exponent are found in their code. -/
theorem decompressTxOutAmount_of_digit {c : UInt64} {n d k : Nat}
    (hc : c.toNat = 1 + 10 * (9 * n + d - 1) + k) (hd : d ≠ 0) (hd' : d < 10) (hk : k < 9)
    (hmax : 10 * n + d < 2 ^ 60) :
    ∃ m : UInt64, m.toNat = 10 * n + d ∧ decompressTxOutAmount c = scale k m := by
  obtain ⟨hc0, hexp, hrest⟩ := code_parts hc (by omega)
  rw [decompressTxOutAmount, if_neg hc0]
  simp only [hexp]
  rw [if_pos (UInt64.lt_iff_toNat_lt.2 (by rw [hexp]; exact hk))]
  refine ⟨_, ?_, rfl⟩
  generalize (c - 1) / 10 = q at hrest
  simp only [UInt64.toNat_add, UInt64.toNat_mul, UInt64.toNat_div, UInt64.toNat_mod, hrest,
    UInt64.reduceToNat]
  omega

/-- Nine zeros and the rest are found in their code. -/
theorem decompressTxOutAmount_of_nine {c : UInt64} {n : Nat} (hc : c.toNat = 10 + 10 * (n - 1))
    (hn : n ≠ 0) (hmax : n < 2 ^ 60) :
    ∃ m : UInt64, m.toNat = n ∧ decompressTxOutAmount c = scale 9 m := by
  obtain ⟨hc0, hexp, hrest⟩ := code_parts (c := c) (q := n - 1) (k := 9) (by omega) (by omega)
  have hlt : ¬ (c - 1) % 10 < 9 := fun h => by
    have := UInt64.lt_iff_toNat_lt.1 h
    rw [hexp] at this
    exact absurd this (by decide)
  rw [decompressTxOutAmount, if_neg hc0]
  simp only [hexp]
  rw [if_neg hlt]
  refine ⟨_, ?_, rfl⟩
  rw [UInt64.toNat_add, hrest]
  simp only [UInt64.toNat_one]
  omega

/-- An amount is found again.  The bound is far above the number of satoshis there can be. -/
theorem decompressTxOutAmount_compressTxOutAmount {amount : UInt64} (h : amount.toNat < 2 ^ 60) :
    decompressTxOutAmount (compressTxOutAmount amount) = amount := by
  by_cases hzero : amount = 0
  · rw [hzero]
    rfl
  obtain ⟨k, hk, he, ha, hlast⟩ := trimZeros_spec 9 amount 0 le_rfl rfl
  rw [compressTxOutAmount, if_neg hzero]
  generalize trimZeros 9 amount 0 = r at he ha hlast
  obtain ⟨a, e⟩ := r
  simp only [UInt64.toNat_zero, Nat.zero_add] at he ha hlast ⊢
  have hpos : amount.toNat ≠ 0 := fun h0 => hzero (UInt64.toNat_inj.1 h0)
  have hapos : a.toNat ≠ 0 := by
    intro h0
    rw [h0, Nat.zero_mul] at ha
    exact hpos ha
  have hale : a.toNat ≤ amount.toNat := by
    rw [ha]
    exact Nat.le_mul_of_pos_right _ (Nat.pow_pos (by decide))
  have hscale : ∀ n : UInt64, n.toNat = a.toNat → scale k n = amount := by
    intro n hn
    apply UInt64.toNat_inj.1
    rw [toNat_scale (by rw [hn, ← ha]; omega), hn, ← ha]
  by_cases hlt : e < 9
  · -- the last digit is not zero
    have hk9 : k < 9 := by
      have := UInt64.lt_iff_toNat_lt.1 hlt
      simp only [UInt64.reduceToNat] at this
      omega
    have hdigit := hlast hk9
    rw [if_pos hlt]
    have hcode : (1 + 10 * (9 * (a / 10) + a % 10 - 1) + e).toNat =
        1 + 10 * (9 * (a.toNat / 10) + a.toNat % 10 - 1) + k := by
      simp only [UInt64.toNat_add, UInt64.toNat_mul, UInt64.toNat_sub, UInt64.toNat_div,
        UInt64.toNat_mod, UInt64.reduceToNat, he]
      omega
    obtain ⟨m, hm, hdec⟩ :=
      decompressTxOutAmount_of_digit hcode hdigit (by omega) hk9 (by omega)
    rw [hdec]
    exact hscale m (by omega)
  · have hk9 : k = 9 := by
      have := UInt64.le_iff_toNat_le.1 (UInt64.not_lt.1 hlt)
      simp only [UInt64.reduceToNat] at this
      omega
    rw [if_neg hlt]
    have hcode : (10 + 10 * (a - 1)).toNat = 10 + 10 * (a.toNat - 1) := by
      simp only [UInt64.toNat_add, UInt64.toNat_mul, UInt64.toNat_sub, UInt64.reduceToNat]
      omega
    obtain ⟨m, hm, hdec⟩ := decompressTxOutAmount_of_nine hcode hapos (by omega)
    rw [hdec, ← hk9]
    exact hscale m hm

/-! ## Scripts -/

namespace Compress

def opData33 : UInt8 := 0x21
def opData65 : UInt8 := 0x41

/-- `cstPayToPubKeyHash` to `cstPayToPubKeyUncomp5` are the numbers below it. -/
def numSpecialScripts : Nat := 6

end Compress

open Compress
open Txscript (opDup opHash160 opData20 opEqual opEqualVerify opCheckSig)

/-- `btcec.ParsePubKey`.  A key is represented by what `SerializeUncompressed` makes of it. -/
abbrev ParsePubKey := Bytes → Option (Bytes.Sized 65)

/-- The hash, if the script is of this form. -/
def isPubKeyHash (script : Bytes) : Option Bytes :=
  if script.length = 25 && script.take 3 == [opDup, opHash160, opData20] &&
      script.drop 23 == [opEqualVerify, opCheckSig] then
    some ((script.drop 3).take 20)
  else none

def isScriptHash (script : Bytes) : Option Bytes :=
  if script.length = 23 && script.take 2 == [opHash160, opData20] &&
      script.drop 22 == [opEqual] then
    some ((script.drop 2).take 20)
  else none

/-- The serialized key, if the script is of one of the two forms and the key is one. -/
def isPubKey (parsePubKey : ParsePubKey) (script : Bytes) : Option Bytes :=
  let compressed := (script.drop 1).take 33
  let uncompressed := (script.drop 1).take 65
  if script.length = 35 && script.take 1 == [opData33] && script.drop 34 == [opCheckSig] &&
      (compressed.take 1 == [0x02] || compressed.take 1 == [0x03]) &&
      (parsePubKey compressed).isSome then
    some compressed
  else if script.length = 67 && script.take 1 == [opData65] && script.drop 66 == [opCheckSig] &&
      uncompressed.take 1 == [0x04] && (parsePubKey uncompressed).isSome then
    some uncompressed
  else none

def compressedScriptSize (parsePubKey : ParsePubKey) (pkScript : Bytes) : Nat :=
  if (isPubKeyHash pkScript).isSome then 21
  else if (isScriptHash pkScript).isSome then 21
  else if (isPubKey parsePubKey pkScript).isSome then 33
  else
    serializeSizeVLQ (UInt64.ofNat (pkScript.length + numSpecialScripts)) + pkScript.length

/-- The `int` it returns is negative for a size of `2 ^ 63` or
more. -/
def decodeCompressedScriptSize (serialized : Bytes) : Int :=
  let (scriptSize, bytesRead) := deserializeVLQ serialized
  if bytesRead = 0 then 0
  else if scriptSize = 0 || scriptSize = 1 then 21
  else if scriptSize < 6 then 33
  else (scriptSize - 6 + UInt64.ofNat bytesRead).toInt64.toInt

/-- The last case of `putCompressedScript`: the script behind its length. -/
def putPlainScript (pkScript : Bytes) : Bytes :=
  putVLQ (UInt64.ofNat (pkScript.length + numSpecialScripts)) ++ pkScript

def putCompressedScript (parsePubKey : ParsePubKey) (pkScript : Bytes) : Bytes :=
  match isPubKeyHash pkScript with
  | some hash => 0 :: hash
  | none =>
    match isScriptHash pkScript with
    | some hash => 1 :: hash
    | none =>
      match isPubKey parsePubKey pkScript with
      | some serializedPubKey =>
        let pubKeyFormat := serializedPubKey.getD 0 0
        if pubKeyFormat = 0x02 || pubKeyFormat = 0x03 then
          pubKeyFormat :: (serializedPubKey.drop 1).take 32
        else if pubKeyFormat = 0x04 then
          -- the oddness of the second coordinate goes into the type
          (pubKeyFormat ||| (serializedPubKey.getD 64 0 &&& 0x01)) ::
            (serializedPubKey.drop 1).take 32
        else putPlainScript pkScript
      | none => putPlainScript pkScript

/-- A slice expression, which panics when it reaches behind the end. -/
def slice (bs : Bytes) (lo hi : Nat) : Except GoError Bytes :=
  if hi ≤ bs.length then .ok ((bs.take hi).drop lo)
  else
    .error (.panic ("runtime error: slice bounds out of range [:" ++ toString hi ++
      "] with capacity " ++ toString bs.length))

/-- Behind a slice there may be more of the array it is cut from, which is not
modelled: only a numeral that has more than 64 bits leads there. -/
def decompressScript (parsePubKey : ParsePubKey) (compressedPkScript : Bytes) :
    Except GoError Bytes :=
  if compressedPkScript.length = 0 then .ok []
  else
    let (encodedScriptSize, bytesRead) := deserializeVLQ compressedPkScript
    if encodedScriptSize = 0 then do
      let hash ← slice compressedPkScript bytesRead (bytesRead + 20)
      .ok ([opDup, opHash160, opData20] ++ hash ++ [opEqualVerify, opCheckSig])
    else if encodedScriptSize = 1 then do
      let hash ← slice compressedPkScript bytesRead (bytesRead + 20)
      .ok ([opHash160, opData20] ++ hash ++ [opEqual])
    else if encodedScriptSize = 2 || encodedScriptSize = 3 then do
      let x ← slice compressedPkScript bytesRead (bytesRead + 32)
      .ok ([opData33, encodedScriptSize.toUInt8] ++ x ++ [opCheckSig])
    else if encodedScriptSize = 4 || encodedScriptSize = 5 then
      -- the copy stops at the end of the key, and leaves zeros behind what is short of it
      let x := (compressedPkScript.drop 1).take 32
      let compressedKey := (encodedScriptSize - 2).toUInt8 :: (x ++ List.replicate (32 - x.length) 0)
      match parsePubKey compressedKey with
      | none => .ok []
      | some key => .ok (opData65 :: (key.val ++ [opCheckSig]))
    else
      let scriptSize := (encodedScriptSize - 6).toInt64.toInt
      if scriptSize < 0 then .error (.panic "runtime error: makeslice: len out of range")
      else slice compressedPkScript bytesRead (bytesRead + scriptSize.toNat)

/-! ## Outputs -/

def compressedTxOutSize (parsePubKey : ParsePubKey) (amount : UInt64) (pkScript : Bytes) : Nat :=
  serializeSizeVLQ (compressTxOutAmount amount) + compressedScriptSize parsePubKey pkScript

def putCompressedTxOut (parsePubKey : ParsePubKey) (amount : UInt64) (pkScript : Bytes) : Bytes :=
  putVLQ (compressTxOutAmount amount) ++ putCompressedScript parsePubKey pkScript

/-- The amount, the script and how many bytes they take. -/
def decodeCompressedTxOut (parsePubKey : ParsePubKey) (serialized : Bytes) :
    Except GoError (UInt64 × Bytes × Nat) :=
  let (compressedAmount, bytesRead) := deserializeVLQ serialized
  if bytesRead ≥ serialized.length then
    .error (.other "unexpected end of data after compressed amount")
  else
    let scriptSize := decodeCompressedScriptSize (serialized.drop bytesRead)
    if (serialized.drop bytesRead).length < scriptSize then
      .error (.other "unexpected end of data after script size")
    else if scriptSize < 0 then
      .error (.panic "runtime error: slice bounds out of range")
    else do
      let amount := decompressTxOutAmount compressedAmount
      let script ← decompressScript parsePubKey ((serialized.drop bytesRead).take scriptSize.toNat)
      .ok (amount, script, bytesRead + scriptSize.toNat)

/-! ## Scripts are found again -/

/-- The first coordinate of a key on the curve and whether the second one is odd determine the key:
what `ParsePubKey` makes of the compressed form of a valid uncompressed key is that key. -/
def Decompresses (parsePubKey : ParsePubKey) : Prop :=
  ∀ key : Bytes.Sized 65, key.val.getD 0 0 = 0x04 → (parsePubKey key.val).isSome = true →
    parsePubKey ((0x02 ||| (key.val.getD 64 0 &&& 0x01)) :: (key.val.drop 1).take 32) = some key

theorem deserializeVLQ_cons {t : UInt8} (h : t.toNat < 128) (rest : Bytes) :
    deserializeVLQ (t :: rest) = (t.toUInt64, 1) := by
  have hle : t.toUInt64 ≤ 0x7f := by
    rw [UInt64.le_iff_toNat_le, UInt8.toNat_toUInt64]
    simp only [UInt64.reduceToNat]
    omega
  have hread := deserializeVLQ_putVLQ t.toUInt64 rest
  rwa [putVLQ_of_lt hle, UInt8.toUInt8_toUInt64, singleton_append] at hread

theorem take_append_drop_drop (l : Bytes) (i j : Nat) :
    l = l.take i ++ ((l.drop i).take j ++ l.drop (i + j)) := by
  rw [← drop_drop, take_append_drop, take_append_drop]

variable {script hash : Bytes}

/-- A script that is taken for twenty bytes between a front and a back is these. -/
theorem eq_of_form_eq_some {n i : Nat} {front back : Bytes}
    (h : (if script.length = n && script.take i == front && script.drop (i + 20) == back then
      some ((script.drop i).take 20) else none) = some hash) (hi : i + 20 ≤ n) :
    script = front ++ hash ++ back ∧ hash.length = 20 := by
  split_ifs at h with hform
  simp only [Bool.and_eq_true, decide_eq_true_eq, beq_iff_eq] at hform
  obtain ⟨⟨hlen, hfront⟩, hback⟩ := hform
  cases h
  refine ⟨?_, by rw [length_take, length_drop]; omega⟩
  rw [← hfront, ← hback, append_assoc]
  exact take_append_drop_drop script i 20

theorem isPubKeyHash_eq_some (h : isPubKeyHash script = some hash) :
    script = [opDup, opHash160, opData20] ++ hash ++ [opEqualVerify, opCheckSig] ∧
      hash.length = 20 :=
  eq_of_form_eq_some h (by decide)

theorem isScriptHash_eq_some (h : isScriptHash script = some hash) :
    script = [opHash160, opData20] ++ hash ++ [opEqual] ∧ hash.length = 20 :=
  eq_of_form_eq_some h (by decide)

variable {parsePubKey : ParsePubKey}

/-- The two forms of a script that pays to a public key. -/
theorem isPubKey_eq_some {key : Bytes} (h : isPubKey parsePubKey script = some key) :
    (∃ format x, (format = 0x02 ∨ format = 0x03) ∧ x.length = 32 ∧ key = format :: x ∧
        script = [opData33, format] ++ x ++ [opCheckSig]) ∨
      (key.length = 65 ∧ key.getD 0 0 = 0x04 ∧ (parsePubKey key).isSome = true ∧
        script = opData65 :: (key ++ [opCheckSig])) := by
  rw [isPubKey] at h
  split at h
  · rename_i hform
    simp only [Bool.and_eq_true, Bool.or_eq_true, decide_eq_true_eq, beq_iff_eq] at hform
    obtain ⟨⟨⟨⟨hlen, hfront⟩, hback⟩, hformat⟩, -⟩ := hform
    have hsplit := take_append_drop_drop script 1 33
    have hkeylen : ((script.drop 1).take 33).length = 33 := by simp [hlen]
    rw [hfront, hback, Option.some.inj h] at hsplit
    rw [Option.some.inj h] at hformat hkeylen
    cases key with
    | nil => simp at hkeylen
    | cons format x =>
      refine .inl ⟨format, x, ?_, by simpa using hkeylen, rfl, hsplit⟩
      simpa using hformat
  · split at h
    · rename_i hform
      simp only [Bool.and_eq_true, decide_eq_true_eq, beq_iff_eq] at hform
      obtain ⟨⟨⟨⟨hlen, hfront⟩, hback⟩, hformat⟩, hvalid⟩ := hform
      have hsplit := take_append_drop_drop script 1 65
      have hkeylen : ((script.drop 1).take 65).length = 65 := by simp [hlen]
      rw [hfront, hback, Option.some.inj h] at hsplit
      rw [Option.some.inj h] at hformat hkeylen hvalid
      have hfirst : key.getD 0 0 = 0x04 := by
        cases key with
        | nil => simp at hformat
        | cons b key => simpa using hformat
      exact .inr ⟨hkeylen, hfirst, hvalid, hsplit⟩
    · cases h

/-- A byte string that stands for a script in front of whatever follows it. -/
structure Stores (parsePubKey : ParsePubKey) (bs script : Bytes) : Prop where
  size : ∀ rest, decodeCompressedScriptSize (bs ++ rest) = bs.length
  script : decompressScript parsePubKey bs = .ok script
  pos : 0 < bs.length

section Stores

theorem slice_cons (t : UInt8) (bs : Bytes) {n : Nat} (h : bs.length = n) :
    slice (t :: bs) 1 (1 + n) = .ok bs := by
  rw [slice, if_pos (by simp; omega), take_of_length_le (by simp; omega)]
  rfl

theorem stores_pubKeyHash (h : hash.length = 20) : Stores parsePubKey (0 :: hash)
      ([opDup, opHash160, opData20] ++ hash ++ [opEqualVerify, opCheckSig]) where
  size rest := by
    rw [cons_append, decodeCompressedScriptSize, deserializeVLQ_cons (by decide)]
    simp [h]
  script := by
    rw [decompressScript, if_neg (by simp), deserializeVLQ_cons (by decide)]
    simp only
    rw [if_pos (by decide), slice_cons 0 hash h, ok_bind]
  pos := by simp

theorem stores_scriptHash (h : hash.length = 20) :
    Stores parsePubKey (1 :: hash) ([opHash160, opData20] ++ hash ++ [opEqual]) where
  size rest := by
    rw [cons_append, decodeCompressedScriptSize, deserializeVLQ_cons (by decide)]
    simp [h]
  script := by
    rw [decompressScript, if_neg (by simp), deserializeVLQ_cons (by decide)]
    simp only
    rw [if_neg (by decide), if_pos (by decide), slice_cons 1 hash h, ok_bind]
  pos := by simp

theorem stores_compressedKey {format : UInt8} {x : Bytes} (hf : format = 0x02 ∨ format = 0x03)
    (h : x.length = 32) :
    Stores parsePubKey (format :: x) ([opData33, format] ++ x ++ [opCheckSig]) := by
  refine ⟨fun rest => ?_, ?_, by simp⟩
  · rcases hf with rfl | rfl
    all_goals
      rw [cons_append, decodeCompressedScriptSize, deserializeVLQ_cons (by decide)]
      simp only
      rw [if_neg (by decide), if_neg (by decide), if_pos (by decide), length_cons, h]
      rfl
  · rcases hf with rfl | rfl
    all_goals
      rw [decompressScript, if_neg (by simp), deserializeVLQ_cons (by decide)]
      simp only
      rw [if_neg (by decide), if_neg (by decide), if_pos (by decide), slice_cons _ x h, ok_bind]
      rfl

theorem and_one_eq (b : UInt8) : b &&& 0x01 = 0 ∨ b &&& 0x01 = 1 := by
  obtain ⟨b⟩ := b
  revert b
  decide

theorem format_of_type {odd : UInt8} (h : odd = 0 ∨ odd = 1) :
    ((0x04 ||| odd).toUInt64 - 2).toUInt8 = 0x02 ||| odd := by
  rcases h with rfl | rfl <;> decide

theorem stores_uncompressedKey (hparse : Decompresses parsePubKey) {key : Bytes}
    (hlen : key.length = 65) (hformat : key.getD 0 0 = 0x04)
    (hvalid : (parsePubKey key).isSome = true) :
    Stores parsePubKey ((0x04 ||| (key.getD 64 0 &&& 0x01)) :: (key.drop 1).take 32)
      (opData65 :: (key ++ [opCheckSig])) := by
  have hkey := hparse ⟨key, hlen⟩ hformat hvalid
  have hx : ((key.drop 1).take 32).length = 32 := by simp [hlen]
  have hodd := and_one_eq (key.getD 64 0)
  have hbyte := format_of_type hodd
  generalize (key.drop 1).take 32 = x at hkey hx
  generalize key.getD 64 0 &&& 0x01 = odd at hkey hbyte hodd
  refine ⟨fun rest => ?_, ?_, by simp⟩
  · rcases hodd with rfl | rfl
    all_goals
      rw [cons_append, decodeCompressedScriptSize, deserializeVLQ_cons (by decide)]
      simp only
      rw [if_neg (by decide), if_neg (by decide), if_pos (by decide), length_cons, hx]
      rfl
  · rcases hodd with rfl | rfl
    all_goals
      rw [decompressScript, if_neg (by simp), deserializeVLQ_cons (by decide)]
      simp only
      rw [if_neg (by decide), if_neg (by decide), if_neg (by decide), if_pos (by decide),
        drop_one, tail_cons, take_of_length_le (Nat.le_of_eq hx), hx,
        Nat.sub_self, replicate_zero, append_nil, hbyte, hkey]

theorem toInt_toInt64 {n : UInt64} (h : n.toNat < 2 ^ 63) : n.toInt64.toInt = n.toNat := by
  rw [← Int64.toInt_toBitVec, UInt64.toBitVec_toInt64, BitVec.toInt_eq_toNat_of_lt (by simp; omega)]
  rfl

/-- The length of a script behind which it is stored. -/
theorem toNat_plainSize {script : Bytes} (h : script.length < 2 ^ 62) :
    (UInt64.ofNat (script.length + numSpecialScripts)).toNat = script.length + 6 := by
  rw [UInt64.toNat_ofNat', numSpecialScripts]
  omega

theorem stores_plain {script : Bytes} (h : script.length < 2 ^ 62) :
    Stores parsePubKey (putPlainScript script) script := by
  have hsize := toNat_plainSize h
  have hpos := serializeSizeVLQ_pos (UInt64.ofNat (script.length + numSpecialScripts))
  have hten := serializeSizeVLQ_le (UInt64.ofNat (script.length + numSpecialScripts))
  have hread := fun rest => deserializeVLQ_putVLQ
    (UInt64.ofNat (script.length + numSpecialScripts)) rest
  have hlen : (putPlainScript script).length =
      serializeSizeVLQ (UInt64.ofNat (script.length + numSpecialScripts)) + script.length := by
    rw [putPlainScript, length_append, length_putVLQ]
  rw [putPlainScript] at hlen ⊢
  generalize UInt64.ofNat (script.length + numSpecialScripts) = n at *
  rw [length_putVLQ] at hread
  -- the length is none of the numbers of the special forms
  have hne : ∀ t : UInt64, t.toNat < 6 → n ≠ t := by
    rintro t ht rfl
    omega
  have hsub : (n - 6).toNat = script.length := by
    rw [UInt64.toNat_sub_of_le _ _ (UInt64.le_iff_toNat_le.2 (by rw [hsize]; simp)), hsize]
    simp
  refine ⟨fun rest => ?_, ?_, by omega⟩
  · have hsum : (n - 6 + UInt64.ofNat (serializeSizeVLQ n)).toNat =
        serializeSizeVLQ n + script.length := by
      rw [UInt64.toNat_add, hsub, UInt64.toNat_ofNat']
      omega
    rw [append_assoc, decodeCompressedScriptSize, hread]
    simp only
    rw [if_neg (by omega), if_neg (by simp [hne 0 (by decide), hne 1 (by decide)]),
      if_neg (by rw [UInt64.lt_iff_toNat_lt, hsize]; simp), hlen,
      toInt_toInt64 (by rw [hsum]; omega), hsum]
  · have hnil := hread script
    rw [decompressScript, if_neg (by omega), hnil]
    simp only
    rw [if_neg (hne 0 (by decide)), if_neg (hne 1 (by decide)),
      if_neg (by simp [hne 2 (by decide), hne 3 (by decide)]),
      if_neg (by simp [hne 4 (by decide), hne 5 (by decide)]),
      toInt_toInt64 (by rw [hsub]; omega), hsub, if_neg (by omega), Int.toNat_natCast, slice,
      if_pos (by omega), take_of_length_le (by omega), ← length_putVLQ, drop_left]

end Stores

/-- A script is found again, whichever form it has or looks like. -/
theorem stores_putCompressedScript (hparse : Decompresses parsePubKey) {script : Bytes}
    (h : script.length < 2 ^ 62) :
    Stores parsePubKey (putCompressedScript parsePubKey script) script := by
  rw [putCompressedScript]
  split
  · rename_i hash hhash
    obtain ⟨hscript, hlen⟩ := isPubKeyHash_eq_some hhash
    rw [hscript]
    exact stores_pubKeyHash hlen
  split
  · rename_i hash hhash
    obtain ⟨hscript, hlen⟩ := isScriptHash_eq_some hhash
    rw [hscript]
    exact stores_scriptHash hlen
  split
  · rename_i key hkey
    rcases isPubKey_eq_some hkey with ⟨format, x, hformat, hx, rfl, hscript⟩ |
      ⟨hlen, hformat, hvalid, hscript⟩
    · have hcond : (decide (format = 0x02) || decide (format = 0x03)) = true := by
        simpa using hformat
      simp only [getD_cons_zero]
      rw [if_pos hcond, drop_one, tail_cons, take_of_length_le (Nat.le_of_eq hx), hscript]
      exact stores_compressedKey hformat hx
    · simp only [hformat]
      rw [if_neg (by decide), if_pos trivial, hscript]
      exact stores_uncompressedKey hparse hlen hformat hvalid
  · exact stores_plain h

/-- The size that is allocated for a script is the one it takes. -/
theorem length_putCompressedScript (parsePubKey : ParsePubKey) (script : Bytes) :
    (putCompressedScript parsePubKey script).length = compressedScriptSize parsePubKey script := by
  rw [putCompressedScript, compressedScriptSize]
  split
  · rename_i hash hhash
    rw [hhash, length_cons, (isPubKeyHash_eq_some hhash).2]
    rfl
  rename_i hnone
  split
  · rename_i hash hhash
    rw [hnone, hhash, length_cons, (isScriptHash_eq_some hhash).2]
    rfl
  rename_i hnone'
  rw [hnone, hnone']
  split
  · rename_i key hkey
    rw [hkey]
    rcases isPubKey_eq_some hkey with ⟨format, x, hformat, hx, rfl, -⟩ | ⟨hlen, hformat, -, -⟩
    · have hcond : (decide (format = 0x02) || decide (format = 0x03)) = true := by
        simpa using hformat
      simp [hcond, hx]
    · simp only [hformat]
      rw [if_neg (by decide), if_pos trivial]
      simp [hlen]
  · rename_i hkey
    rw [hkey, putPlainScript, length_append, length_putVLQ]
    rfl

theorem length_putCompressedTxOut (parsePubKey : ParsePubKey) (amount : UInt64) (script : Bytes) :
    (putCompressedTxOut parsePubKey amount script).length =
      compressedTxOutSize parsePubKey amount script := by
  rw [putCompressedTxOut, length_append, length_putVLQ, length_putCompressedScript,
    compressedTxOutSize]

/-- An output is found again in front of whatever follows it, together with its size. -/
theorem decodeCompressedTxOut_putCompressedTxOut (hparse : Decompresses parsePubKey)
    {amount : UInt64} {script : Bytes} (hamount : amount.toNat < 2 ^ 60)
    (hscript : script.length < 2 ^ 62) (rest : Bytes) :
    decodeCompressedTxOut parsePubKey (putCompressedTxOut parsePubKey amount script ++ rest) =
      .ok (amount, script, (putCompressedTxOut parsePubKey amount script).length) := by
  obtain ⟨hsize, hdec, hpos⟩ := stores_putCompressedScript hparse hscript
  have hsize := hsize rest
  rw [putCompressedTxOut, decodeCompressedTxOut, append_assoc, deserializeVLQ_putVLQ]
  simp only [drop_left]
  generalize putCompressedScript parsePubKey script = bs at hsize hdec hpos
  rw [if_neg (by simp only [length_append]; omega), hsize,
    if_neg (by simp only [length_append]; omega), if_neg (by omega), Int.toNat_natCast, take_left,
    hdec, ok_bind, decompressTxOutAmount_compressTxOutAmount hamount, length_append]

end Obtcd
