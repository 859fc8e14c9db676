import Mathlib.Data.Nat.Log
import Obtcd.Lib.Bytes

/-!
# Numbers as text

Decimal and hexadecimal texts as a Go program writes and reads them: `strconv.Itoa`, `ParseInt` and
`Atoi`, `hex.EncodeToString` and `hex.DecodeString`.  A Go string is a list of bytes.

The readers keep the two ways in which a number can be refused, a text that is no number and a
number that does not fit.  What is proved is that a text that was written is read back
(`parseInt_itoa`, `hexDecode_hexEncode`), and that such a text is free of any byte that is not a
digit (`not_mem_itoa`, `not_mem_hexEncode`), so that it can be cut out of a longer text at its
separators.
-/

namespace Obtcd

open List

namespace Strconv

/-! ## Decimal texts -/

/-- Why a text is not read as a number. -/
inductive NumError where
  | malformed
  | outOfRange
deriving DecidableEq, Repr

/-- The text of `strconv.ErrSyntax` or `strconv.ErrRange`. -/
def NumError.text : NumError → String
  | malformed => "invalid syntax"
  | outOfRange => "value out of range"

/-- The ASCII digit of a number below ten. -/
def digit (d : Nat) : UInt8 := UInt8.ofNat (0x30 + d)

/-- Decimal digits, most significant first; the fuel is a bound on the number. -/
def formatFuel : Nat → Nat → Bytes
  | 0, n => [digit (n % 10)]
  | fuel + 1, n => if n < 10 then [digit n] else formatFuel fuel (n / 10) ++ [digit (n % 10)]

/-- `strconv.FormatUint` in base ten. -/
def formatUint (n : Nat) : Bytes := formatFuel n n

/-- `strconv.Itoa`, which is also what `%d` prints. -/
def itoa (n : Int) : Bytes :=
  if n < 0 then 0x2d :: formatUint n.natAbs else formatUint n.natAbs

/-- The digits of a number, read into the accumulator `n`. -/
def parseDigits (maxVal : Nat) : Nat → Bytes → Except NumError Nat
  | n, [] => .ok n
  | n, c :: s =>
    if c < 0x30 || 0x39 < c then .error .malformed
    else
      let n' := n * 10 + (c.toNat - 0x30)
      if n' > maxVal then .error .outOfRange else parseDigits maxVal n' s

/-- `strconv.ParseUint` in base ten. -/
def parseUint (maxVal : Nat) (s : Bytes) : Except NumError Nat :=
  if s.isEmpty then .error .malformed else parseDigits maxVal 0 s

/-- The number of a sign and a magnitude, if it fits a signed word of so many bits. -/
def signed (bitSize : Nat) (neg : Bool) (un : Nat) : Except NumError Int :=
  if !neg && un ≥ 2 ^ (bitSize - 1) then .error .outOfRange
  else if neg && un > 2 ^ (bitSize - 1) then .error .outOfRange
  else .ok (if neg then -(un : Int) else un)

/-- `strconv.ParseInt` in base ten.  `Atoi` is the same at 64 bits. -/
def parseInt (bitSize : Nat) (s : Bytes) : Except NumError Int :=
  match s with
  | 0x2b :: s' => do signed bitSize false (← parseUint (2 ^ bitSize - 1) s')
  | 0x2d :: s' => do signed bitSize true (← parseUint (2 ^ bitSize - 1) s')
  | s => do signed bitSize false (← parseUint (2 ^ bitSize - 1) s)

/-- `strconv.Quote` of a text, with everything that is not printable ASCII written as `\x..`. -/
def quote (s : Bytes) : String :=
  "\"" ++ String.join (s.map fun c =>
    if c == 0x22 || c == 0x5c then "\\" ++ (Char.ofNat c.toNat).toString
    else if 0x20 ≤ c && c < 0x7f then (Char.ofNat c.toNat).toString
    else "\\x" ++ Bytes.hex [c]) ++ "\""

/-- `NumError.Error`: the function, the text it was given and the reason. -/
def numErrorText (fn : String) (s : Bytes) (e : NumError) : String :=
  "strconv." ++ fn ++ ": parsing " ++ quote s ++ ": " ++ e.text

theorem toNat_digit {d : Nat} (h : d < 10) : (digit d).toNat = 0x30 + d := by
  rw [digit, UInt8.toNat_ofNat']
  omega

variable {n : Nat}

theorem mem_formatFuel {fuel : Nat} {c : UInt8} (h : c ∈ formatFuel fuel n) :
    0x30 ≤ c.toNat ∧ c.toNat ≤ 0x39 := by
  induction fuel generalizing n with
  | zero =>
    rw [formatFuel, mem_singleton] at h
    rw [h, toNat_digit (Nat.mod_lt _ (by decide))]
    omega
  | succ fuel ih =>
    rw [formatFuel] at h
    split at h
    · rename_i hn
      rw [mem_singleton.1 h, toNat_digit hn]
      omega
    · rcases mem_append.1 h with h | h
      · exact ih h
      · rw [mem_singleton.1 h, toNat_digit (Nat.mod_lt _ (by decide))]
        omega

theorem formatFuel_ne_nil (fuel n : Nat) : formatFuel fuel n ≠ [] := by
  cases fuel with
  | zero => simp [formatFuel]
  | succ fuel =>
    rw [formatFuel]
    split <;> simp

theorem length_formatFuel {fuel : Nat} (h : n ≤ fuel) :
    (formatFuel fuel n).length = Nat.log 10 n + 1 := by
  induction fuel generalizing n with
  | zero =>
    obtain rfl : n = 0 := by omega
    simp [formatFuel]
  | succ fuel ih =>
    rw [formatFuel]
    split_ifs with hn
    · rw [Nat.log_of_lt hn]
      rfl
    · have hpos : 0 < Nat.log 10 n := Nat.log_pos (by decide) (by omega)
      rw [length_append, ih (by omega), Nat.log_div_base, length_singleton]
      omega

theorem length_itoa (n : Int) :
    (itoa n).length = Nat.log 10 n.natAbs + 1 + if n < 0 then 1 else 0 := by
  have hlen : (formatUint n.natAbs).length = Nat.log 10 n.natAbs + 1 := length_formatFuel (Nat.le_refl _)
  rw [itoa]
  split
  · rw [length_cons, hlen]
  · exact hlen

variable {maxVal : Nat}

theorem parseDigits_append {m : Nat} {s : Bytes} (t : Bytes) (h : parseDigits maxVal n s = .ok m) :
    parseDigits maxVal n (s ++ t) = parseDigits maxVal m t := by
  induction s generalizing n with
  | nil =>
    cases h
    rfl
  | cons c s ih =>
    rw [parseDigits] at h
    rw [cons_append, parseDigits]
    dsimp only at h ⊢
    split at h
    · cases h
    · rename_i hc
      split_ifs at h
      · rename_i hm
        rw [if_neg hc, if_neg hm, ih h]

theorem parseDigits_digit {d : Nat} (hd : d < 10) (h : n * 10 + d ≤ maxVal) :
    parseDigits maxVal n [digit d] = .ok (n * 10 + d) := by
  have hc := toNat_digit hd
  have hrange : ¬ ((digit d < 0x30 || 0x39 < digit d) = true) := by
    rw [Bool.or_eq_true, decide_eq_true_iff, decide_eq_true_iff, UInt8.lt_iff_toNat_lt,
      UInt8.lt_iff_toNat_lt, hc]
    show ¬ (0x30 + d < 48 ∨ 57 < 0x30 + d)
    omega
  have hval : n * 10 + ((digit d).toNat - 0x30) = n * 10 + d := by omega
  rw [parseDigits, if_neg hrange]
  rw [hval, if_neg (by omega), parseDigits]

/-- Digits are read back, as long as the number fits. -/
theorem parseDigits_formatFuel {fuel : Nat} (hf : n ≤ fuel) (h : n ≤ maxVal) :
    parseDigits maxVal 0 (formatFuel fuel n) = .ok n := by
  induction fuel generalizing n with
  | zero =>
    obtain rfl : n = 0 := by omega
    exact parseDigits_digit (n := 0) (d := 0) (by decide) (by omega)
  | succ fuel ih =>
    rw [formatFuel]
    split_ifs with hn
    · rw [parseDigits_digit hn (by omega)]
      congr 1
      omega
    · have hdiv := ih (n := n / 10) (by omega) (by omega)
      have hmod : n % 10 < 10 := Nat.mod_lt _ (by decide)
      rw [parseDigits_append _ hdiv, parseDigits_digit hmod (by omega)]
      congr 1
      omega

theorem parseUint_formatUint (h : n ≤ maxVal) : parseUint maxVal (formatUint n) = .ok n := by
  have hne : (formatUint n).isEmpty = false := by
    rw [isEmpty_eq_false_iff]
    exact formatFuel_ne_nil n n
  rw [parseUint, hne]
  exact parseDigits_formatFuel le_rfl h

/-- A text that does not start with a sign is read as it stands. -/
theorem parseInt_of_head {bitSize : Nat} {s : Bytes} (h : ∀ c ∈ s, 0x30 ≤ c.toNat) :
    parseInt bitSize s = (do signed bitSize false (← parseUint (2 ^ bitSize - 1) s)) := by
  unfold parseInt
  split
  · exact absurd (h _ (mem_cons_self ..)) (by decide)
  · exact absurd (h _ (mem_cons_self ..)) (by decide)
  · rfl

/-- A number that fits is read back from its text. -/
theorem parseInt_itoa {bitSize : Nat} {n : Int} (hb : 0 < bitSize) (hlo : -2 ^ (bitSize - 1) ≤ n)
    (hhi : n < 2 ^ (bitSize - 1)) : parseInt bitSize (itoa n) = .ok n := by
  obtain ⟨k, rfl⟩ : ∃ k, bitSize = k + 1 := ⟨bitSize - 1, by omega⟩
  rw [Nat.add_sub_cancel] at hlo hhi
  have hcast : ((2 ^ k : Nat) : Int) = 2 ^ k := by push_cast; rfl
  have hpos : 0 < 2 ^ k := Nat.two_pow_pos k
  have hfit : n.natAbs ≤ 2 ^ (k + 1) - 1 := by
    rw [Nat.pow_succ]
    omega
  unfold itoa
  split_ifs with hneg
  · show (do signed (k + 1) true (← parseUint (2 ^ (k + 1) - 1) (formatUint n.natAbs))) = _
    rw [parseUint_formatUint hfit]
    show signed (k + 1) true n.natAbs = .ok n
    have h₁ : ¬ n.natAbs > 2 ^ k := by omega
    simp only [signed, Nat.add_sub_cancel, Bool.not_true, Bool.false_and, Bool.true_and,
      decide_eq_true_iff, Bool.false_eq_true, if_false, if_true, if_neg h₁]
    congr 1
    omega
  · have hdigits : ∀ c ∈ formatUint n.natAbs, 0x30 ≤ c.toNat := fun c hc => (mem_formatFuel hc).1
    rw [parseInt_of_head hdigits, parseUint_formatUint hfit]
    show signed (k + 1) false n.natAbs = .ok n
    have h₁ : ¬ n.natAbs ≥ 2 ^ k := by omega
    simp only [signed, Nat.add_sub_cancel, Bool.not_false, Bool.false_and, Bool.true_and,
      decide_eq_true_iff, Bool.false_eq_true, if_false, if_neg h₁]
    congr 1
    omega

theorem not_mem_itoa {n : Int} (hn : 0 ≤ n) {c : UInt8} (hc : 0x39 < c.toNat) : c ∉ itoa n := by
  intro hmem
  rw [itoa, if_neg (by omega)] at hmem
  have := (mem_formatFuel hmem).2
  omega

/-! ## Hexadecimal texts -/

/-- Why a text is not read as bytes. -/
inductive HexError where
  | invalidByte (c : UInt8)
  | length
deriving DecidableEq, Repr

/-- The `Error` text; a byte is printed with `%#U`. -/
def HexError.text : HexError → String
  | invalidByte c =>
    "encoding/hex: invalid byte: U+00" ++ (Bytes.hex [c]).toUpper ++
      (if 0x20 ≤ c && c < 0x7f then " '" ++ (Char.ofNat c.toNat).toString ++ "'" else "")
  | length => "encoding/hex: odd length hex string"

/-- The hexadecimal digit of a number below sixteen. -/
def hexDigit (d : Nat) : UInt8 := UInt8.ofNat (if d < 10 then 0x30 + d else 0x57 + d)

/-- `hex.EncodeToString`. -/
def hexEncode (bs : Bytes) : Bytes :=
  bs.flatMap fun b => [hexDigit (b.toNat / 16), hexDigit (b.toNat % 16)]

/-- The value of a hexadecimal digit (`reverseHexTable`). -/
def hexValue (c : UInt8) : Option Nat :=
  let n := c.toNat
  if 0x30 ≤ n && n ≤ 0x39 then some (n - 0x30)
  else if 0x61 ≤ n && n ≤ 0x66 then some (n - 0x57)
  else if 0x41 ≤ n && n ≤ 0x46 then some (n - 0x37)
  else none

/-- `hex.DecodeString`. -/
def hexDecode : Bytes → Except HexError Bytes
  | [] => .ok []
  | [c] => if (hexValue c).isNone then .error (.invalidByte c) else .error .length
  | p :: q :: s =>
    match hexValue p, hexValue q with
    | none, _ => .error (.invalidByte p)
    | some _, none => .error (.invalidByte q)
    | some a, some b => do .ok (UInt8.ofNat (a * 16 + b) :: (← hexDecode s))

@[simp] theorem length_hexEncode (bs : Bytes) : (hexEncode bs).length = 2 * bs.length := by
  induction bs with
  | nil => rfl
  | cons b bs ih =>
    have hcons : hexEncode (b :: bs) =
        hexDigit (b.toNat / 16) :: hexDigit (b.toNat % 16) :: hexEncode bs := rfl
    rw [hcons, length_cons, length_cons, ih, length_cons]
    omega

theorem hexValue_hexDigit : ∀ d < 16, hexValue (hexDigit d) = some d := by decide

theorem toNat_hexDigit : ∀ d < 16,
    (0x30 ≤ (hexDigit d).toNat ∧ (hexDigit d).toNat ≤ 0x39) ∨ 0x61 ≤ (hexDigit d).toNat := by
  decide

/-- Bytes are read back from their hexadecimal text. -/
theorem hexDecode_hexEncode (bs : Bytes) : hexDecode (hexEncode bs) = .ok bs := by
  induction bs with
  | nil => rfl
  | cons b bs ih =>
    have hb : b.toNat < 256 := b.toNat_lt
    have hhi := hexValue_hexDigit (b.toNat / 16) (by omega)
    have hlo := hexValue_hexDigit (b.toNat % 16) (by omega)
    have hback : UInt8.ofNat (b.toNat / 16 * 16 + b.toNat % 16) = b := by
      rw [Nat.div_add_mod', UInt8.ofNat_toNat]
    show hexDecode (hexDigit (b.toNat / 16) :: hexDigit (b.toNat % 16) :: hexEncode bs) = _
    rw [hexDecode, hhi, hlo]
    dsimp only
    rw [ih, hback]
    rfl

theorem not_mem_hexEncode {bs : Bytes} {c : UInt8} (hlo : 0x39 < c.toNat) (hhi : c.toNat < 0x61) :
    c ∉ hexEncode bs := by
  intro hmem
  obtain ⟨b, -, hb⟩ := mem_flatMap.1 hmem
  have hlt : b.toNat < 256 := b.toNat_lt
  have h₁ := toNat_hexDigit (b.toNat / 16) (by omega)
  have h₂ := toNat_hexDigit (b.toNat % 16) (by omega)
  simp only [mem_cons, not_mem_nil, or_false] at hb
  rcases hb with rfl | rfl
  · omega
  · omega

end Strconv

end Obtcd
