import Obtcd.Lib.Bytes

/-!
# SHA-256

The hash function of FIPS 180-4, written so that it can be evaluated: words are natural numbers below
`2 ^ 32`, and a block is compressed by a structural recursion over the round constants, which carries
the eight working words and the next sixteen words of the schedule as arguments.  No array is
indexed and nothing needs fuel.

The kernel computes with natural numbers, but it evaluates an argument only when it needs it; `eval`
makes it evaluate the new words of a round before it goes on to the next.

Nothing is assumed about the function and nothing but the length of its output is proved of it:
what is built on it treats the digest as data.
-/

namespace Obtcd.Sha256

/-! ## Words -/

/-- Evaluate a number before it is used. -/
@[inline] def eval {α : Type} (x : Nat) (f : Nat → α) : α :=
  match x with
  | 0 => f 0
  | n + 1 => f (n + 1)

/-- A word twice, side by side, so that its rotations are shifts. -/
def twice (x : Nat) : Nat := x * 0x100000001

def bigSigma0 (x : Nat) : Nat :=
  eval (twice x) fun y => (y >>> 2 ^^^ y >>> 13 ^^^ y >>> 22) % 0x100000000

def bigSigma1 (x : Nat) : Nat :=
  eval (twice x) fun y => (y >>> 6 ^^^ y >>> 11 ^^^ y >>> 25) % 0x100000000

def smallSigma0 (x : Nat) : Nat :=
  eval (twice x) fun y => (y >>> 7 ^^^ y >>> 18) % 0x100000000 ^^^ x >>> 3

def smallSigma1 (x : Nat) : Nat :=
  eval (twice x) fun y => (y >>> 17 ^^^ y >>> 19) % 0x100000000 ^^^ x >>> 10

def ch (x y z : Nat) : Nat := (x &&& y) ^^^ ((0xffffffff - x) &&& z)

def maj (x y z : Nat) : Nat := (x &&& y) ^^^ (x &&& z) ^^^ (y &&& z)

/-- The round constants: the first 32 bits of the fractional parts of the cube roots of the first
64 primes. -/
def roundConstants : List Nat :=
  [0x428a2f98, 0x71374491, 0xb5c0fbcf, 0xe9b5dba5, 0x3956c25b, 0x59f111f1, 0x923f82a4, 0xab1c5ed5,
   0xd807aa98, 0x12835b01, 0x243185be, 0x550c7dc3, 0x72be5d74, 0x80deb1fe, 0x9bdc06a7, 0xc19bf174,
   0xe49b69c1, 0xefbe4786, 0x0fc19dc6, 0x240ca1cc, 0x2de92c6f, 0x4a7484aa, 0x5cb0a9dc, 0x76f988da,
   0x983e5152, 0xa831c66d, 0xb00327c8, 0xbf597fc7, 0xc6e00bf3, 0xd5a79147, 0x06ca6351, 0x14292967,
   0x27b70a85, 0x2e1b2138, 0x4d2c6dfc, 0x53380d13, 0x650a7354, 0x766a0abb, 0x81c2c92e, 0x92722c85,
   0xa2bfe8a1, 0xa81a664b, 0xc24b8b70, 0xc76c51a3, 0xd192e819, 0xd6990624, 0xf40e3585, 0x106aa070,
   0x19a4c116, 0x1e376c08, 0x2748774c, 0x34b0bcb5, 0x391c0cb3, 0x4ed8aa4a, 0x5b9cca4f, 0x682e6ff3,
   0x748f82ee, 0x78a5636f, 0x84c87814, 0x8cc70208, 0x90befffa, 0xa4506ceb, 0xbef9a3f7, 0xc67178f2]

/-! ## Blocks -/

/-- The eight working words, which between blocks are the chaining value. -/
structure State where
  a : Nat
  b : Nat
  c : Nat
  d : Nat
  e : Nat
  f : Nat
  g : Nat
  h : Nat
deriving DecidableEq, Repr

/-- The initial chaining value. -/
def init : State :=
  ⟨0x6a09e667, 0xbb67ae85, 0x3c6ef372, 0xa54ff53a, 0x510e527f, 0x9b05688c, 0x1f83d9ab, 0x5be0cd19⟩

/-- The rounds for the constants `ks`, from the sixteen words of the schedule and the eight working
words. -/
def rounds : List Nat → Nat → Nat → Nat → Nat → Nat → Nat → Nat → Nat → Nat → Nat → Nat → Nat → Nat →
    Nat → Nat → Nat → Nat → Nat → Nat → Nat → Nat → Nat → Nat → Nat → State
  | [], _, _, _, _, _, _, _, _, _, _, _, _, _, _, _, _, a, b, c, d, e, f, g, h =>
    ⟨a, b, c, d, e, f, g, h⟩
  | k :: ks, w0, w1, w2, w3, w4, w5, w6, w7, w8, w9, w10, w11, w12, w13, w14, w15,
      a, b, c, d, e, f, g, h =>
    eval ((smallSigma1 w14 + w9 + smallSigma0 w1 + w0) % 0x100000000) fun w16 =>
    eval (h + bigSigma1 e + ch e f g + k + w0) fun t1 =>
    eval ((t1 + bigSigma0 a + maj a b c) % 0x100000000) fun a' =>
    eval ((d + t1) % 0x100000000) fun e' =>
    rounds ks w1 w2 w3 w4 w5 w6 w7 w8 w9 w10 w11 w12 w13 w14 w15 w16 a' a b c e' e f g

/-- The chaining value after the block whose sixteen words are given. -/
def compress (s : State) : List Nat → State
  | [w0, w1, w2, w3, w4, w5, w6, w7, w8, w9, w10, w11, w12, w13, w14, w15] =>
    match rounds roundConstants w0 w1 w2 w3 w4 w5 w6 w7 w8 w9 w10 w11 w12 w13 w14 w15
      s.a s.b s.c s.d s.e s.f s.g s.h with
    | ⟨a, b, c, d, e, f, g, h⟩ =>
      eval ((s.a + a) % 0x100000000) fun a' => eval ((s.b + b) % 0x100000000) fun b' =>
      eval ((s.c + c) % 0x100000000) fun c' => eval ((s.d + d) % 0x100000000) fun d' =>
      eval ((s.e + e) % 0x100000000) fun e' => eval ((s.f + f) % 0x100000000) fun f' =>
      eval ((s.g + g) % 0x100000000) fun g' => eval ((s.h + h) % 0x100000000) fun h' =>
      ⟨a', b', c', d', e', f', g', h'⟩
  | _ => s

/-! ## Messages -/

/-- The message, one mark bit, zeros up to a block boundary, and the length in bits. -/
def pad (m : Bytes) : Bytes :=
  m ++ 0x80 :: (List.replicate ((119 - m.length % 64) % 64) 0 ++ Bytes.be 8 (8 * m.length))

/-- The big-endian words of a byte string. -/
def words : Bytes → List Nat
  | a :: b :: c :: d :: bs =>
    (((a.toNat * 256 + b.toNat) * 256 + c.toNat) * 256 + d.toNat) :: words bs
  | _ => []

/-- Compress a list of words block by block.  `n` is the number of blocks. -/
def blocks : Nat → List Nat → State → State
  | 0, _, s => s
  | n + 1, w, s => blocks n (w.drop 16) (compress s (w.take 16))

/-- The chaining value spelled out, high byte first. -/
def State.bytes (s : State) : Bytes :=
  Bytes.be 4 s.a ++ Bytes.be 4 s.b ++ Bytes.be 4 s.c ++ Bytes.be 4 s.d ++
    Bytes.be 4 s.e ++ Bytes.be 4 s.f ++ Bytes.be 4 s.g ++ Bytes.be 4 s.h

theorem State.length_bytes (s : State) : s.bytes.length = 32 := by
  simp [State.bytes]

/-- The SHA-256 digest of a byte string. -/
def sum256 (m : Bytes) : Bytes.Sized 32 :=
  let p := pad m
  let s := blocks (p.length / 64) (words p) init
  ⟨s.bytes, s.length_bytes⟩

end Obtcd.Sha256
