import Mathlib.Data.List.Induction
import Obtcd.Lib.Bytes

/-!
# Numerals of variable length

The numeral of a number has digits in base 128, the high digit first.  Every byte but the last has
its high bit set, and the digits in front of the last stand for one more than they say, so that no
number has two numerals: `code n` is `carry (n / 128 - 1)` and the last digit.

Numerals of one length sort as bytes like the numbers (`compare_carry`).  Numerals of different
lengths do not: after the bytes of the shorter one but its last, which decide as long as they differ,
the longer one has the greater byte.  `InOrder i j` is what that leaves of the order of two numbers
`i < j`, and `compare_code_iff` says that it is exact.
-/

namespace Obtcd

open List

namespace Vlq

/-- The bytes of a number in front of more digits. -/
def carry (n : Nat) : Bytes :=
  (if n < 128 then [] else carry (n / 128 - 1)) ++ [UInt8.ofNat (128 + n % 128)]
termination_by n
decreasing_by omega

/-- The bytes of a number. -/
def code (n : Nat) : Bytes :=
  (if n < 128 then [] else carry (n / 128 - 1)) ++ [UInt8.ofNat (n % 128)]

/-- How many bytes that are. -/
def size (n : Nat) : Nat := if n < 128 then 1 else size (n / 128 - 1) + 1
termination_by n
decreasing_by omega

/-- What a numeral spells without its last `k` digits. -/
def front : Nat → Nat → Nat
  | 0, n => n
  | k + 1, n => front k (n / 128 - 1)

/-- The number `i` has one digit, or what stands before its last digit is at most what stands at the
same place in `j`. -/
def InOrder (i j : Nat) : Prop := i < 128 ∨ i / 128 - 1 ≤ front (size j - size i + 1) j

theorem inOrder_self (i : Nat) : InOrder i i := by
  rw [InOrder, Nat.sub_self]
  exact .inr le_rfl

variable {n : Nat}

theorem size_of_lt (h : n < 128) : size n = 1 := by rw [size, if_pos h]

theorem size_of_le (h : 128 ≤ n) : size n = size (n / 128 - 1) + 1 := by
  rw [size, if_neg (by omega)]

theorem carry_of_lt (h : n < 128) : carry n = [UInt8.ofNat (128 + n % 128)] := by
  rw [carry, if_pos h, nil_append]

theorem carry_of_le (h : 128 ≤ n) :
    carry n = carry (n / 128 - 1) ++ [UInt8.ofNat (128 + n % 128)] := by
  rw [carry, if_neg (by omega)]

theorem size_pos (n : Nat) : 0 < size n := by
  rw [size]
  split <;> omega

theorem size_mono {i j : Nat} (h : i ≤ j) : size i ≤ size j := by
  induction j using Nat.strongRecOn generalizing i with
  | _ j ih =>
    have hpos := size_pos j
    rcases Nat.lt_or_ge i 128 with hi | hi
    · rw [size_of_lt hi]
      omega
    · have := ih (j / 128 - 1) (by omega) (i := i / 128 - 1) (by omega)
      rw [size_of_le hi, size_of_le (hi.trans h)]
      omega

theorem length_carry (n : Nat) : (carry n).length = size n := by
  induction n using Nat.strongRecOn with
  | _ n ih =>
    rcases Nat.lt_or_ge n 128 with h | h
    · rw [carry_of_lt h, size_of_lt h]
      rfl
    · rw [carry_of_le h, length_append, ih _ (by omega), size_of_le h]
      rfl

/-- What bytes in front of more digits stand for: one more than the number they spell. -/
def lead (bs : Bytes) : Nat := bs.foldl (fun n b => n * 128 + b.toNat % 128 + 1) 0

theorem lead_concat (bs : Bytes) (b : UInt8) :
    lead (bs ++ [b]) = lead bs * 128 + b.toNat % 128 + 1 := by
  rw [lead, foldl_append]
  rfl

/-- Any bytes with the high bit stand in front of the last digit of a number. -/
theorem carry_lead {bs : Bytes} (hbs : ∀ b ∈ bs, 128 ≤ b.toNat) {d : Nat} (hd : d < 128) :
    (if lead bs * 128 + d < 128 then [] else carry ((lead bs * 128 + d) / 128 - 1)) = bs := by
  induction bs using reverseRecOn generalizing d with
  | nil => exact if_pos (by rw [lead, foldl_nil]; omega)
  | append_singleton bs b ih =>
    have hb := hbs b (by simp)
    have hlt := b.toNat_lt
    have hinit := ih (fun b hb => hbs b (mem_append_left _ hb)) (d := b.toNat % 128) (by omega)
    rw [lead_concat, if_neg (by omega),
      show ((lead bs * 128 + b.toNat % 128 + 1) * 128 + d) / 128 - 1 =
        lead bs * 128 + b.toNat % 128 by omega,
      carry, hinit, show 128 + (lead bs * 128 + b.toNat % 128) % 128 = b.toNat by omega,
      UInt8.ofNat_toNat]

/-- Bytes that end at the first one without the high bit are a numeral. -/
theorem code_lead {bs : Bytes} (hbs : ∀ b ∈ bs, 128 ≤ b.toNat) {d : UInt8} (hd : d.toNat < 128) :
    code (lead bs * 128 + d.toNat) = bs ++ [d] := by
  rw [code, carry_lead hbs hd, show (lead bs * 128 + d.toNat) % 128 = d.toNat by omega,
    UInt8.ofNat_toNat]

theorem compare_ofNat {a b : Nat} (ha : a < 256) (hb : b < 256) :
    compare [UInt8.ofNat a] [UInt8.ofNat b] = compare a b := by
  rw [List.compare_cons_cons, UInt8.compare_eq_toNat_compare_toNat, UInt8.toNat_ofNat_of_lt' ha,
    UInt8.toNat_ofNat_of_lt' hb]
  cases compare a b <;> rfl

/-- Above the last digit and in the last digit. -/
theorem compare_digits {m : Nat} (hm : 128 ≤ m) (hn : 128 ≤ n) :
    (compare (m / 128 - 1) (n / 128 - 1)).then (compare (m % 128) (n % 128)) = compare m n := by
  simp only [Nat.compare_eq_ite_lt]
  split_ifs <;> first | rfl | omega

theorem compare_carry {m : Nat} (h : size m = size n) :
    compare (carry m) (carry n) = compare m n := by
  induction m using Nat.strongRecOn generalizing n with
  | _ m ih =>
    have hlast : compare [UInt8.ofNat (128 + m % 128)] [UInt8.ofNat (128 + n % 128)] =
        compare (m % 128) (n % 128) := by
      rw [compare_ofNat (by omega) (by omega)]
      simp only [Nat.compare_eq_ite_lt]
      split_ifs <;> first | rfl | omega
    rcases Nat.lt_or_ge m 128 with hm | hm <;> rcases Nat.lt_or_ge n 128 with hn | hn
    · rw [carry_of_lt hm, carry_of_lt hn, hlast, Nat.mod_eq_of_lt hm, Nat.mod_eq_of_lt hn]
    · rw [size_of_lt hm, size_of_le hn] at h
      have := size_pos (n / 128 - 1)
      omega
    · rw [size_of_le hm, size_of_lt hn] at h
      have := size_pos (m / 128 - 1)
      omega
    · rw [size_of_le hm, size_of_le hn, Nat.add_right_cancel_iff] at h
      have hlen : (carry (m / 128 - 1)).length = (carry (n / 128 - 1)).length := by
        rw [length_carry, length_carry, h]
      rw [carry_of_le hm, carry_of_le hn, Bytes.compare_append hlen, ih _ (by omega) h, hlast,
        compare_digits hm hn]

theorem forall_mem_carry : ∀ b ∈ carry n, 128 ≤ b.toNat := by
  induction n using Nat.strongRecOn with
  | _ n ih =>
    have hlast : 128 ≤ (UInt8.ofNat (128 + n % 128)).toNat := by
      rw [UInt8.toNat_ofNat_of_lt' (show 128 + n % 128 < 256 by omega)]
      omega
    rcases Nat.lt_or_ge n 128 with h | h
    · simpa [carry_of_lt h] using hlast
    · intro b hb
      rw [carry_of_le h, mem_append, mem_singleton] at hb
      rcases hb with hb | rfl
      · exact ih _ (by omega) b hb
      · exact hlast

/-- A numeral starts with the numeral of its leading digits. -/
theorem exists_carry_append {k : Nat} (hk : k < size n) :
    ∃ rest, carry n = carry (front k n) ++ rest ∧ rest.length = k := by
  induction k generalizing n with
  | zero => exact ⟨[], by rw [front, append_nil], rfl⟩
  | succ k ih =>
    have hn : 128 ≤ n := by
      by_contra hlt
      rw [size_of_lt (by omega)] at hk
      omega
    rw [size_of_le hn] at hk
    obtain ⟨rest, hcarry, rfl⟩ := ih (n := n / 128 - 1) (by omega)
    exact ⟨rest ++ [_], by rw [carry_of_le hn, hcarry, append_assoc, front], by simp⟩

theorem compare_last (n : Nat) {b : UInt8} (hb : 128 ≤ b.toNat) (tail : Bytes) :
    compare [UInt8.ofNat (n % 128)] (b :: tail) = .lt := by
  have hlt : compare (UInt8.ofNat (n % 128)) b = .lt := by
    rw [UInt8.compare_eq_toNat_compare_toNat, UInt8.toNat_ofNat_of_lt' (show n % 128 < 256 by omega)]
    exact Nat.compare_eq_lt.2 (by omega)
  rw [List.compare_cons_cons, hlt]
  rfl

/-- How numerals sort.  The smaller number comes first exactly if its leading digits do. -/
theorem compare_code_iff {i j : Nat} (h : i < j) :
    compare (code i) (code j) = .lt ↔ InOrder i j := by
  have hsize := size_mono h.le
  rcases Nat.lt_or_ge i 128 with hi | hi
  · -- a numeral of one byte comes before all longer ones
    refine iff_of_true ?_ (.inl hi)
    rw [code, code, if_pos hi, nil_append]
    split
    · rename_i hj
      rw [nil_append, compare_ofNat (by omega) (by omega), Nat.mod_eq_of_lt hi, Nat.mod_eq_of_lt hj]
      exact Nat.compare_eq_lt.2 h
    · have hne : carry (j / 128 - 1) ≠ [] :=
        ne_nil_of_length_pos (by rw [length_carry]; exact size_pos _)
      obtain ⟨b, tail, hb⟩ := exists_cons_of_ne_nil hne
      rw [hb]
      exact compare_last i (forall_mem_carry b (by rw [hb]; simp)) _
  · have hj : 128 ≤ j := by omega
    have hisize := size_of_le hi
    have hjsize := size_of_le hj
    have hpos := size_pos (i / 128 - 1)
    obtain ⟨rest, hcarry, hrest⟩ :=
      exists_carry_append (n := j / 128 - 1) (k := size j - size i) (by omega)
    have hlen := congrArg List.length hcarry
    rw [length_append, length_carry, length_carry, hrest] at hlen
    have hfront : size (i / 128 - 1) = size (front (size j - size i) (j / 128 - 1)) := by omega
    rw [code, code, if_neg (by omega), if_neg (by omega), hcarry, append_assoc,
      Bytes.compare_append (by rw [length_carry, length_carry, hfront]), compare_carry hfront,
      InOrder, front, or_iff_right (by omega)]
    cases rest with
    | nil =>
      rw [← hrest, length_nil, front, nil_append, compare_ofNat (by omega) (by omega),
        compare_digits hi hj, Nat.compare_eq_lt]
      omega
    | cons b tail =>
      rw [cons_append, compare_last i (forall_mem_carry b (by rw [hcarry]; simp))]
      simp only [Nat.compare_eq_ite_lt]
      split_ifs <;> simp <;> omega

end Vlq

end Obtcd
