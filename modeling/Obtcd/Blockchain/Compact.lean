import Mathlib.Data.Nat.Bitwise
import Obtcd.Blockchain.Difficulty

/-!
# The compact form of a target

A header states its target as a 32-bit word, a length in bytes and the three highest bytes
(`workmath.BigToCompact`).  Writing a number that way loses its lower bytes, and the top bit of the
mantissa is a sign, so a number whose highest byte has that bit set moves to the next length.

What the form of a positive number stands for is `compactFloor`, the number rounded down
(`compactToBig_bigToCompact`).  The precision depends on the length, so that this keeps the order is
not a fact about one division (`compactFloor_mono`): a power of two just below the next length is
never rounded away (`le_compactFloor`).

The module ends with the check that a header's target is in range, `checkProofOfWork`.
-/

namespace Obtcd.Blockchain

/-! ### The highest bytes of a number -/

/-- The three bytes of `n` at the top of a length of `k` bytes. -/
def topBytes (k n : Nat) : Nat := n * 2 ^ (8 * (3 - k)) / 2 ^ (8 * (k - 3))

theorem topBytes_succ (k n : Nat) : topBytes (k + 1) n = topBytes k n / 2 ^ 8 := by
  rw [topBytes, topBytes, Nat.div_div_eq_div_mul, ← Nat.pow_add]
  rcases Nat.lt_or_ge k 3 with h | h
  · rw [show 8 * (3 - k) = 8 * (3 - (k + 1)) + 8 by omega, Nat.pow_add, ← Nat.mul_assoc,
      show k + 1 - 3 = 0 by omega, show k - 3 = 0 by omega, Nat.mul_zero, Nat.zero_add,
      Nat.mul_div_cancel _ (Nat.two_pow_pos 8), Nat.pow_zero, Nat.div_one]
  · rw [show 3 - k = 0 by omega, show 3 - (k + 1) = 0 by omega,
      show 8 * (k + 1 - 3) = 8 * (k - 3) + 8 by omega]

variable {n : Nat}

theorem topBytes_lt {k j : Nat} (hk : 1 ≤ k) (hj : j ≤ 8) (h : n < 2 ^ (8 * k - j)) :
    topBytes k n < 2 ^ (24 - j) := by
  rw [topBytes]
  apply Nat.div_lt_of_lt_mul
  calc n * 2 ^ (8 * (3 - k)) < 2 ^ (8 * k - j) * 2 ^ (8 * (3 - k)) :=
        Nat.mul_lt_mul_of_pos_right h (Nat.two_pow_pos _)
    _ = 2 ^ (8 * (k - 3)) * 2 ^ (24 - j) := by
        rw [← Nat.pow_add, ← Nat.pow_add]
        congr 1
        omega

theorem le_topBytes {k : Nat} (hk : 1 ≤ k) (h : 2 ^ (8 * k - 1) ≤ n) : 2 ^ 23 ≤ topBytes k n := by
  rw [topBytes, Nat.le_div_iff_mul_le (Nat.two_pow_pos _)]
  calc 2 ^ 23 * 2 ^ (8 * (k - 3)) = 2 ^ (8 * k - 1) * 2 ^ (8 * (3 - k)) := by
        rw [← Nat.pow_add, ← Nat.pow_add]
        congr 1
        omega
    _ ≤ n * 2 ^ (8 * (3 - k)) := Nat.mul_le_mul_right _ h

/-! ### The length of the form -/

/-- The number of bytes in the compact form of a positive number. -/
def compactLen (n : Nat) : Nat := (n.log2 + 1) / 8 + 1

/-- The number that the compact form of `n` stands for: `n` without its lower bytes. -/
def compactFloor (n : Nat) : Nat :=
  n / 2 ^ (8 * (compactLen n - 3)) * 2 ^ (8 * (compactLen n - 3))

theorem one_le_compactLen (n : Nat) : 1 ≤ compactLen n := Nat.le_add_left _ _

theorem lt_two_pow_compactLen (h : 0 < n) : n < 2 ^ (8 * compactLen n - 1) := by
  rw [← Nat.log2_lt (by omega), compactLen]
  omega

theorem two_pow_compactLen_le (h : 1 < compactLen n) : 2 ^ (8 * (compactLen n - 1) - 1) ≤ n := by
  have hn : n ≠ 0 := by
    rintro rfl
    exact absurd h (by decide)
  rw [← Nat.le_log2 hn]
  rw [compactLen] at h ⊢
  omega

theorem compactLen_mono {m : Nat} (hm : 0 < m) (h : m ≤ n) : compactLen m ≤ compactLen n := by
  have hlog : m.log2 ≤ n.log2 := by
    rw [Nat.le_log2 (by omega)]
    exact le_trans (Nat.log2_self_le (by omega)) h
  rw [compactLen, compactLen]
  omega

/-! ### Rounding down -/

theorem compactFloor_le (n : Nat) : compactFloor n ≤ n := Nat.div_mul_le_self _ _

theorem le_compactFloor (h : 1 < compactLen n) :
    2 ^ (8 * (compactLen n - 1) - 1) ≤ compactFloor n := by
  have hle := two_pow_compactLen_le h
  have hdvd : 2 ^ (8 * (compactLen n - 3)) ∣ 2 ^ (8 * (compactLen n - 1) - 1) :=
    Nat.pow_dvd_pow 2 (by omega)
  obtain ⟨q, hq⟩ := hdvd
  rw [hq] at hle ⊢
  rw [compactFloor, Nat.mul_comm]
  exact Nat.mul_le_mul_right _ ((Nat.le_div_iff_mul_le (Nat.two_pow_pos _)).2 (by
    rwa [Nat.mul_comm]))

theorem compactFloor_pos (h : 0 < n) : 0 < compactFloor n := by
  by_cases hlen : 1 < compactLen n
  · exact lt_of_lt_of_le (Nat.two_pow_pos _) (le_compactFloor hlen)
  · rw [compactFloor, show compactLen n - 3 = 0 by omega]
    simpa using h

theorem compactFloor_mono {m : Nat} (hm : 0 < m) (h : m ≤ n) : compactFloor m ≤ compactFloor n := by
  rcases Nat.eq_or_lt_of_le (compactLen_mono hm h) with heq | hlt
  · rw [compactFloor, compactFloor, heq]
    exact Nat.mul_le_mul_right _ (Nat.div_le_div_right h)
  · -- the shorter number is below the power of two that the longer one keeps
    have hlen := one_le_compactLen m
    calc compactFloor m ≤ m := compactFloor_le m
      _ ≤ 2 ^ (8 * compactLen m - 1) := (lt_two_pow_compactLen hm).le
      _ ≤ 2 ^ (8 * (compactLen n - 1) - 1) := Nat.pow_le_pow_right (by omega) (by omega)
      _ ≤ compactFloor n := le_compactFloor (by omega)

/-! ### Reading and writing -/

theorem and_signBit {w : UInt32} (h : w.toNat < 2 ^ 24) :
    w &&& 0x00800000 = 0 ↔ w.toNat < 2 ^ 23 := by
  rw [← UInt32.toNat_inj, UInt32.toNat_and]
  change w.toNat &&& 2 ^ 23 = 0 ↔ _
  rw [Nat.and_two_pow, Nat.testBit_eq_decide_div_mod_eq]
  by_cases hbit : w.toNat / 2 ^ 23 % 2 = 1
  · rw [decide_eq_true hbit]
    exact iff_of_false (by decide) (by omega)
  · rw [decide_eq_false hbit]
    exact iff_of_true rfl (by omega)

section Word

variable {e m : Nat}

theorem toNat_or_word (he : e < 256) (hm : m < 2 ^ 23) :
    (UInt32.ofNat (e <<< 24) ||| UInt32.ofNat m).toNat = e * 2 ^ 24 + m := by
  rw [UInt32.toNat_or, UInt32.toNat_ofNat', UInt32.toNat_ofNat', Nat.shiftLeft_eq,
    Nat.mod_eq_of_lt (by omega), Nat.mod_eq_of_lt (by omega), Nat.mul_comm,
    Nat.two_pow_add_eq_or_of_lt (by omega)]

theorem or_word_signBit (he : e < 256) (hm : m < 2 ^ 23) :
    (UInt32.ofNat (e <<< 24) ||| UInt32.ofNat m) &&& 0x00800000 = 0 := by
  apply UInt32.toNat_inj.1
  rw [UInt32.toNat_and, toNat_or_word he hm]
  change (e * 2 ^ 24 + m) &&& 2 ^ 23 = 0
  rw [Nat.and_two_pow, Nat.testBit_eq_decide_div_mod_eq, decide_eq_false (by omega)]
  rfl

/-- Reading such a word. -/
theorem compactToBig_or (he : e < 256) (hm : m < 2 ^ 23) :
    compactToBig (UInt32.ofNat (e <<< 24) ||| UInt32.ofNat m) =
      ((m * 2 ^ (8 * (e - 3)) / 2 ^ (8 * (3 - e)) : Nat) : Int) := by
  have hword := toNat_or_word he hm
  have hsign := or_word_signBit he hm
  generalize UInt32.ofNat (e <<< 24) ||| UInt32.ofNat m = w at hword hsign
  have hmantissa : (w &&& 0x007fffff).toNat = m := by
    rw [UInt32.toNat_and, hword]
    change (e * 2 ^ 24 + m) &&& (2 ^ 23 - 1) = m
    rw [Nat.and_two_pow_sub_one_eq_mod]
    omega
  have hexp : (w >>> 24).toNat = e := by
    rw [UInt32.toNat_shiftRight, hword]
    change (e * 2 ^ 24 + m) >>> 24 = e
    rw [Nat.shiftRight_eq_div_pow]
    omega
  rw [compactToBig, hmantissa, hexp, hsign, if_neg (fun h => h rfl)]
  by_cases hle : e ≤ 3
  · rw [if_pos hle, Nat.shiftRight_eq_div_pow, show e - 3 = 0 by omega]
    simp
  · rw [if_neg hle, Nat.shiftLeft_eq, show 3 - e = 0 by omega]
    simp

end Word

theorem byteLen_natCast (h : 0 < n) : byteLen n = n.log2 / 8 + 1 := by
  rw [byteLen, if_neg (by omega), Int.natAbs_natCast]

/-- The mantissa that `bigToCompact` starts from. -/
theorem toNat_rawMantissa (h : 0 < n) :
    (if byteLen n ≤ 3 then UInt32.ofNat n <<< UInt32.ofNat (8 * (3 - byteLen n))
      else UInt32.ofNat ((n : Int) >>> (8 * (byteLen n - 3))).natAbs).toNat =
        topBytes (byteLen n) n := by
  have hlen : 1 ≤ byteLen n := by
    rw [byteLen_natCast h]
    omega
  have hlt : n < 2 ^ (8 * byteLen n) := by
    rw [← Nat.log2_lt (by omega), byteLen_natCast h]
    omega
  have hfit := topBytes_lt hlen (Nat.zero_le 8) hlt
  rw [topBytes] at hfit ⊢
  by_cases hle : byteLen n ≤ 3
  · have hn := Nat.le_mul_of_pos_right n (Nat.two_pow_pos (8 * (3 - byteLen n)))
    rw [show byteLen n - 3 = 0 by omega, Nat.mul_zero, Nat.pow_zero, Nat.div_one] at hfit ⊢
    rw [if_pos hle, UInt32.toNat_shiftLeft, UInt32.toNat_ofNat', UInt32.toNat_ofNat',
      Nat.mod_eq_of_lt (show n < 2 ^ 32 by omega),
      Nat.mod_eq_of_lt (show 8 * (3 - byteLen n) < 2 ^ 32 by omega),
      Nat.mod_eq_of_lt (show 8 * (3 - byteLen n) < 32 by omega), Nat.shiftLeft_eq,
      Nat.mod_eq_of_lt (by omega)]
  · rw [show 3 - byteLen n = 0 by omega, Nat.mul_zero, Nat.pow_zero, Nat.mul_one] at hfit ⊢
    rw [if_neg hle, UInt32.toNat_ofNat', Int.shiftRight_eq_div_pow, ← Int.natCast_ediv,
      Int.natAbs_natCast, Nat.mod_eq_of_lt (by omega)]

/-- The compact form of a positive number is its length and its three highest bytes. -/
theorem bigToCompact_natCast (h : 0 < n) :
    bigToCompact n =
      UInt32.ofNat (compactLen n <<< 24) ||| UInt32.ofNat (topBytes (compactLen n) n) := by
  have hraw := toNat_rawMantissa h
  have hlen := byteLen_natCast h
  rw [bigToCompact, if_neg (by omega), Int.natAbs_natCast]
  dsimp only
  generalize hm : (if byteLen n ≤ 3 then UInt32.ofNat n <<< UInt32.ofNat (8 * (3 - byteLen n))
    else UInt32.ofNat ((n : Int) >>> (8 * (byteLen n - 3))).natAbs) = m at hraw
  have hlt : m.toNat < 2 ^ 24 := by
    rw [hraw]
    refine topBytes_lt (by omega) (Nat.zero_le 8) ?_
    rw [← Nat.log2_lt (by omega), hlen]
    omega
  rw [if_neg (show ¬ (n : Int) < 0 by omega)]
  by_cases hhigh : 2 ^ (8 * byteLen n - 1) ≤ n
  · have htop : 2 ^ 23 ≤ m.toNat := hraw ▸ le_topBytes (by omega) hhigh
    have hcompact : compactLen n = byteLen n + 1 := by
      rw [← Nat.le_log2 (by omega)] at hhigh
      rw [compactLen]
      omega
    have hmantissa : UInt32.ofNat (topBytes (compactLen n) n) = m >>> 8 := by
      rw [hcompact, topBytes_succ, ← hraw]
      apply UInt32.toNat_inj.1
      rw [UInt32.toNat_ofNat', UInt32.toNat_shiftRight, Nat.shiftRight_eq_div_pow]
      exact Nat.mod_eq_of_lt (by omega)
    rw [if_pos (mt (and_signBit hlt).1 (by omega)), hmantissa, hcompact]
  · have hcompact : compactLen n = byteLen n := by
      rw [not_le, ← Nat.log2_lt (by omega)] at hhigh
      rw [compactLen]
      omega
    have htop : m.toNat < 2 ^ 23 := by
      rw [hraw]
      exact topBytes_lt (by omega) (by omega) (not_le.1 hhigh)
    rw [if_neg (not_not.2 ((and_signBit hlt).2 htop)), hcompact, ← hraw, UInt32.ofNat_toNat]

theorem compactLen_lt (h : 0 < n) (hlt : n < 2 ^ 2039) : compactLen n < 256 := by
  rw [← Nat.log2_lt (by omega)] at hlt
  rw [compactLen]
  omega

theorem topBytes_compactLen_lt (h : 0 < n) : topBytes (compactLen n) n < 2 ^ 23 :=
  topBytes_lt (one_le_compactLen n) (by omega) (lt_two_pow_compactLen h)

/-- What the compact form of a number stands for is that number, rounded down. -/
theorem compactToBig_bigToCompact (h : 0 < n) (hlt : n < 2 ^ 2039) :
    compactToBig (bigToCompact n) = compactFloor n := by
  rw [bigToCompact_natCast h, compactToBig_or (compactLen_lt h hlt) (topBytes_compactLen_lt h),
    topBytes, compactFloor]
  by_cases hle : compactLen n ≤ 3
  · rw [show compactLen n - 3 = 0 by omega]
    simp
  · rw [show 3 - compactLen n = 0 by omega]
    simp

theorem compactLen_compactFloor (h : 0 < n) : compactLen (compactFloor n) = compactLen n := by
  refine Nat.le_antisymm (compactLen_mono (compactFloor_pos h) (compactFloor_le n)) ?_
  by_cases hlen : 1 < compactLen n
  · have hkept := le_compactFloor hlen
    rw [← Nat.le_log2 (compactFloor_pos h).ne'] at hkept
    rw [compactLen.eq_def (compactFloor n)]
    omega
  · have := one_le_compactLen (compactFloor n)
    omega

theorem bigToCompact_compactFloor (h : 0 < n) : bigToCompact (compactFloor n) = bigToCompact n := by
  have htop : topBytes (compactLen n) (compactFloor n) = topBytes (compactLen n) n := by
    rw [topBytes, topBytes, compactFloor]
    rcases Nat.le_total (compactLen n) 3 with hle | hle
    · rw [show compactLen n - 3 = 0 by omega]
      simp
    · rw [show 3 - compactLen n = 0 by omega]
      simp
  rw [bigToCompact_natCast h, bigToCompact_natCast (compactFloor_pos h), compactLen_compactFloor h,
    htop]

theorem lt_compactFloor_add (h : 0 < n) : n < compactFloor n + 256 ^ (max (byteLen n) 2 - 2) := by
  have hmod := Nat.mod_lt n (Nat.two_pow_pos (8 * (compactLen n - 3)))
  have hle : 2 ^ (8 * (compactLen n - 3)) ≤ 256 ^ (max (byteLen n) 2 - 2) := by
    rw [Nat.pow_mul]
    refine Nat.pow_le_pow_right (by decide) ?_
    rw [compactLen, byteLen_natCast h]
    omega
  have hdiv := Nat.div_add_mod' n (2 ^ (8 * (compactLen n - 3)))
  rw [compactFloor]
  omega

/-- A target that is written and read again is not larger, and still positive. -/
theorem compactToBig_bigToCompact_range {n : Int} (h : 1 ≤ n) (hlt : n < 2 ^ 256) :
    1 ≤ compactToBig (bigToCompact n) ∧ compactToBig (bigToCompact n) ≤ n := by
  obtain ⟨m, rfl⟩ := Int.eq_ofNat_of_zero_le (show 0 ≤ n by omega)
  have hm : 0 < m := by omega
  have hm' : m < 2 ^ 256 := by exact_mod_cast hlt
  have hpos := compactFloor_pos hm
  have hle := compactFloor_le m
  rw [compactToBig_bigToCompact hm (hm'.trans (Nat.pow_lt_pow_right (by omega) (by omega)))]
  omega

/-- Targets that are written and read again keep their order. -/
theorem compactToBig_bigToCompact_mono {m n : Int} (h : 1 ≤ m) (hle : m ≤ n)
    (hlt : n < 2 ^ 256) :
    compactToBig (bigToCompact m) ≤ compactToBig (bigToCompact n) := by
  obtain ⟨a, rfl⟩ := Int.eq_ofNat_of_zero_le (show 0 ≤ m by omega)
  obtain ⟨b, rfl⟩ := Int.eq_ofNat_of_zero_le (show 0 ≤ n by omega)
  have hb : b < 2 ^ 2039 := by
    refine Nat.lt_trans ?_ (Nat.pow_lt_pow_right (show 1 < 2 by omega) (show 256 < 2039 by omega))
    exact_mod_cast hlt
  have hab : a ≤ b := by omega
  rw [compactToBig_bigToCompact (by omega) (lt_of_le_of_lt hab hb),
    compactToBig_bigToCompact (by omega) hb]
  exact_mod_cast compactFloor_mono (by omega) hab

theorem bigToCompact_signBit (h : 0 < n) (hlt : n < 2 ^ 2039) :
    bigToCompact n &&& 0x00800000 = 0 := by
  rw [bigToCompact_natCast h, or_word_signBit (compactLen_lt h hlt) (topBytes_compactLen_lt h)]

theorem calcWork_of_pos {bits : UInt32} (h : 0 < compactToBig bits) :
    BlockTree.calcWork bits = 2 ^ 256 / ((compactToBig bits).toNat + 1) := if_neg (not_le.2 h)

/-- **Targets are rounded consistently**: down, by less than the bytes below the second highest, into
a form without the sign bit that reads and writes to itself, in their order and so against the order
of the work. -/
theorem bigToCompact_consistent :
    (∀ n : Int, 0 ≤ n → n < 2 ^ 256 →
      compactToBig (bigToCompact n) ≤ n ∧
        n - compactToBig (bigToCompact n) < 256 ^ (max (byteLen n) 2 - 2) ∧
        bigToCompact n &&& 0x00800000 = 0 ∧
        bigToCompact (compactToBig (bigToCompact n)) = bigToCompact n) ∧
    (∀ m n : Int, 0 ≤ m → m ≤ n → n < 2 ^ 256 →
      compactToBig (bigToCompact m) ≤ compactToBig (bigToCompact n)) ∧
    ∀ m n : Int, 0 < m → m ≤ n → n < 2 ^ 256 →
      BlockTree.calcWork (bigToCompact n) ≤ BlockTree.calcWork (bigToCompact m) := by
  refine ⟨fun n hn hlt => ?_, fun m n hm hle hlt => ?_, fun m n hm hle hlt => ?_⟩
  · obtain ⟨n, rfl⟩ := Int.eq_ofNat_of_zero_le hn
    rcases Nat.eq_zero_or_pos n with rfl | hpos
    · exact ⟨by decide, by decide, by decide, by decide⟩
    have hlt' : n < 2 ^ 2039 :=
      Nat.lt_trans (by exact_mod_cast hlt) (Nat.pow_lt_pow_right (by omega) (by omega))
    have hfloor := lt_compactFloor_add hpos
    rw [compactToBig_bigToCompact hpos hlt']
    refine ⟨by exact_mod_cast compactFloor_le n, ?_, bigToCompact_signBit hpos hlt',
      bigToCompact_compactFloor hpos⟩
    rw [sub_lt_iff_lt_add']
    exact_mod_cast hfloor
  · rcases hm.eq_or_lt with rfl | hpos
    · rcases hle.eq_or_lt with rfl | hpos
      · exact le_rfl
      · exact le_trans (by decide) (compactToBig_bigToCompact_range hpos hlt).1
    · exact compactToBig_bigToCompact_mono hpos hle hlt
  · have hmono := compactToBig_bigToCompact_mono hm hle hlt
    have hpos := (compactToBig_bigToCompact_range hm (hle.trans_lt hlt)).1
    rw [calcWork_of_pos hpos, calcWork_of_pos (hpos.trans hmono)]
    exact Nat.div_le_div_left (by omega) (Nat.succ_pos _)

/-- A target whose fourth byte is rounded away. -/
theorem bigToCompact_consistent_sample :
    bigToCompact 0x12345678 = 0x04123456 ∧
      (0x12345678 : Int) - compactToBig (bigToCompact 0x12345678) <
        256 ^ (max (byteLen 0x12345678) 2 - 2) :=
  ⟨by decide, (bigToCompact_consistent.1 _ (by decide) (by decide)).2.1⟩

/-! ### The check of a header -/

/-- `%064x` of a number: the sign counts towards the width. -/
def hex064 (n : Int) : String :=
  let sign := if n < 0 then "-" else ""
  let digits := Nat.toDigits 16 n.natAbs
  sign ++ String.ofList (List.replicate (64 - sign.length - digits.length) '0' ++ digits)

/-- `workmath.HashToBig`. -/
def hashToBig (hash : Hash) : Int := Bytes.leNat hash.bytes.val

/-- With `BFNoPoWCheck` only the range of the target is checked. -/
def checkProofOfWork (header : BlockHeader) (powLimit : Int) (noPoWCheck : Bool) :
    Except GoError Unit :=
  let target := compactToBig header.bits
  if target ≤ 0 then
    .error (.rule .errUnexpectedDifficulty
      ("block target difficulty of " ++ hex064 target ++ " is too low"))
  else if target > powLimit then
    .error (.rule .errUnexpectedDifficulty ("block target difficulty of " ++ hex064 target ++
      " is higher than max of " ++ hex064 powLimit))
  else
    let hashNum := hashToBig header.blockHash
    if noPoWCheck = false ∧ hashNum > target then
      .error (.rule .errHighHash ("block hash of " ++ hex064 hashNum ++
        " is higher than expected max of " ++ hex064 target))
    else .ok ()

/-- A target in range is refused for its proof of work at most. -/
theorem checkProofOfWork_of_range {header : BlockHeader} {powLimit : Int}
    (hpos : 0 < compactToBig header.bits) (hle : compactToBig header.bits ≤ powLimit)
    {noPoWCheck : Bool}
    (hpow : noPoWCheck = false → hashToBig header.blockHash ≤ compactToBig header.bits) :
    checkProofOfWork header powLimit noPoWCheck = .ok () := by
  have hhash : ¬ (noPoWCheck = false ∧ hashToBig header.blockHash > compactToBig header.bits) :=
    fun h => absurd (hpow h.1) (not_le.2 h.2)
  rw [checkProofOfWork, if_neg (not_le.2 hpos), if_neg (not_lt.2 hle), if_neg hhash]

end Obtcd.Blockchain
