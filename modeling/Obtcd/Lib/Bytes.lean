import Mathlib.Tactic.Ring
import Mathlib.Order.Compare

/-!
# Byte strings

Byte strings are lists of bytes, compared lexicographically by `compare`.  Two things about them
are needed over and over: the fixed-width numerals, in both byte orders, and the order of a
concatenation of fixed-width fields.

* `Bytes.le w n` and `Bytes.be w n` write the number `n` on `w` bytes, low byte first and high
  byte first; `Bytes.leNat` and `Bytes.beNat` read them back.  Each reader undoes its writer up to
  truncation (`leNat_le`, `beNat_be`), and each writer undoes its reader (`le_leNat`, `be_beNat`).
* `compare_be` says that big-endian numerals of one width sort as the numbers do, and
  `compare_append` that a concatenation sorts field by field.  Together they turn a question about
  the byte order of a composite key into one about the order of its fields.
* `Bytes.Sized n` is the type of the byte strings of length `n`, ordered as byte strings.
-/

namespace Obtcd

/-- A byte string. -/
abbrev Bytes := List UInt8

/-- The bytes of a text. -/
def bytesOf (s : String) : Bytes := s.toUTF8.data.toList

namespace Bytes

/-- A byte string of length `n`, such as an array of `n` bytes. -/
abbrev Sized (n : Nat) := { b : Bytes // b.length = n }

/-! ## Little-endian numerals -/

/-- The number `n` on `w` bytes, low byte first.  What does not fit is dropped. -/
def le : Nat → Nat → Bytes
  | 0, _ => []
  | w + 1, n => UInt8.ofNat n :: le w (n / 256)

/-- The number a byte string spells, low byte first. -/
def leNat : Bytes → Nat
  | [] => 0
  | b :: bs => b.toNat + 256 * leNat bs

@[simp] theorem length_le (w n : Nat) : (le w n).length = w := by
  induction w generalizing n with
  | zero => rfl
  | succ w ih => simp [le, ih]

theorem leNat_le (w n : Nat) : leNat (le w n) = n % 256 ^ w := by
  induction w generalizing n with
  | zero => simp [le, leNat, Nat.mod_one]
  | succ w ih =>
    rw [le, leNat, ih, UInt8.toNat_ofNat', Nat.pow_succ' (n := w), Nat.mod_mul]

variable {w n : Nat}

theorem leNat_le_of_lt (h : n < 256 ^ w) : leNat (le w n) = n := by
  rw [leNat_le, Nat.mod_eq_of_lt h]

theorem leNat_lt (bs : Bytes) : leNat bs < 256 ^ bs.length := by
  induction bs with
  | nil => simp [leNat]
  | cons b bs ih =>
    have hb : b.toNat < 256 := b.toNat_lt
    rw [leNat, List.length_cons, Nat.pow_succ']
    omega

theorem le_leNat (bs : Bytes) : le bs.length (leNat bs) = bs := by
  induction bs with
  | nil => rfl
  | cons b bs ih =>
    have hb : b.toNat < 256 := b.toNat_lt
    have hdiv : (b.toNat + 256 * leNat bs) / 256 = leNat bs := by omega
    have hlow : UInt8.ofNat (b.toNat + 256 * leNat bs) = b := by
      apply UInt8.toNat_inj.1
      rw [UInt8.toNat_ofNat']
      omega
    rw [List.length_cons, leNat, le, hdiv, ih, hlow]

theorem le_inj {m : Nat} (hm : m < 256 ^ w) (hn : n < 256 ^ w) (h : le w m = le w n) : m = n := by
  have h' := congrArg leNat h
  rwa [leNat_le, leNat_le, Nat.mod_eq_of_lt hm, Nat.mod_eq_of_lt hn] at h'

/-! ## Big-endian numerals -/

/-- The number `n` on `w` bytes, high byte first. -/
def be (w n : Nat) : Bytes := (le w n).reverse

/-- The number a byte string spells, high byte first. -/
def beNat (bs : Bytes) : Nat := leNat bs.reverse

@[simp] theorem length_be (w n : Nat) : (be w n).length = w := by
  rw [be, List.length_reverse, length_le]

theorem beNat_be (w n : Nat) : beNat (be w n) = n % 256 ^ w := by
  rw [beNat, be, List.reverse_reverse, leNat_le]

theorem beNat_be_of_lt (h : n < 256 ^ w) : beNat (be w n) = n := by
  rw [beNat_be, Nat.mod_eq_of_lt h]

theorem beNat_lt (bs : Bytes) : beNat bs < 256 ^ bs.length := by
  simpa [beNat] using leNat_lt bs.reverse

theorem be_beNat (bs : Bytes) : be bs.length (beNat bs) = bs := by
  have h := congrArg List.reverse (le_leNat bs.reverse)
  rwa [List.length_reverse, List.reverse_reverse] at h

theorem be_inj {m : Nat} (hm : m < 256 ^ w) (hn : n < 256 ^ w) (h : be w m = be w n) : m = n :=
  le_inj hm hn (List.reverse_inj.1 h)

theorem leNat_append (a b : Bytes) : leNat (a ++ b) = leNat a + 256 ^ a.length * leNat b := by
  induction a with
  | nil => simp [leNat]
  | cons x a ih =>
    rw [List.cons_append, leNat, leNat, ih, List.length_cons, Nat.pow_succ']
    ring

theorem beNat_cons (b : UInt8) (bs : Bytes) :
    beNat (b :: bs) = b.toNat * 256 ^ bs.length + beNat bs := by
  rw [beNat, List.reverse_cons, leNat_append, List.length_reverse, beNat]
  simp only [leNat, Nat.mul_zero, Nat.add_zero]
  ring

/-! ## The lexicographic order -/

/-- A concatenation is compared field by field, as long as the first fields have one width. -/
theorem compare_append {a a' : Bytes} (h : a.length = a'.length) (b b' : Bytes) :
    compare (a ++ b) (a' ++ b') = (compare a a').then (compare b b') := by
  induction a generalizing a' with
  | nil =>
    cases a' with
    | nil => rfl
    | cons => simp at h
  | cons x a ih =>
    cases a' with
    | nil => simp at h
    | cons y a' =>
      rw [List.cons_append, List.cons_append, List.compare_cons_cons, List.compare_cons_cons,
        ih (by simpa using h)]
      cases compare x y <;> rfl

/-- The leading digit decides, and on a tie the rest does. -/
private theorem compare_digit {x y r s : Nat} (hr : r < w) (hs : s < w) :
    compare (x * w + r) (y * w + s) = (compare x y).then (compare r s) := by
  rcases Nat.lt_trichotomy x y with h | h | h
  · have : x * w + r < y * w + s := by
      have h1 : (x + 1) * w ≤ y * w := Nat.mul_le_mul_right w h
      rw [Nat.add_mul, Nat.one_mul] at h1
      omega
    rw [Nat.compare_eq_lt.2 this, Nat.compare_eq_lt.2 h]; rfl
  · subst h
    rw [Nat.compare_eq_eq.2 rfl]
    change _ = compare r s
    rcases Nat.lt_trichotomy r s with h' | h' | h'
    · rw [Nat.compare_eq_lt.2 h', Nat.compare_eq_lt.2 (by omega)]
    · rw [Nat.compare_eq_eq.2 h', Nat.compare_eq_eq.2 (by omega)]
    · rw [Nat.compare_eq_gt.2 h', Nat.compare_eq_gt.2 (by omega)]
  · have : y * w + s < x * w + r := by
      have h1 : (y + 1) * w ≤ x * w := Nat.mul_le_mul_right w h
      rw [Nat.add_mul, Nat.one_mul] at h1
      omega
    rw [Nat.compare_eq_gt.2 this, Nat.compare_eq_gt.2 h]; rfl

/-- Byte strings of one length sort as the big-endian numbers they spell. -/
theorem compare_eq_compare_beNat {a b : Bytes} (h : a.length = b.length) :
    compare a b = compare (beNat a) (beNat b) := by
  induction a generalizing b with
  | nil =>
    cases b with
    | nil => rfl
    | cons => simp at h
  | cons x a ih =>
    cases b with
    | nil => simp at h
    | cons y b =>
      have h' : a.length = b.length := by simpa using h
      rw [List.compare_cons_cons, ih h', beNat_cons, beNat_cons, ← h',
        compare_digit (beNat_lt a) (h' ▸ beNat_lt b), UInt8.compare_eq_toNat_compare_toNat]

/-- Big-endian numerals of one width sort as the numbers do. -/
theorem compare_be {m : Nat} (hm : m < 256 ^ w) (hn : n < 256 ^ w) :
    compare (be w m) (be w n) = compare m n := by
  rw [compare_eq_compare_beNat (by simp), beNat_be, beNat_be, Nat.mod_eq_of_lt hm,
    Nat.mod_eq_of_lt hn]

/-! ## Hexadecimal text -/

/-- The lower-case hexadecimal text of a byte string. -/
def hex (bs : Bytes) : String :=
  String.ofList <| bs.flatMap fun b => [Nat.digitChar (b.toNat / 16), Nat.digitChar (b.toNat % 16)]

end Bytes

end Obtcd
