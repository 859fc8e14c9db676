import Obtcd.Txscript.SigVerify

/-!
# The curve library

`btcec` as the script engine calls it: the parsers of signatures and keys that are in the repository,
over the library they rest on, `Secp`, of which nothing is known but how long a key is.

A signature has two parsers, a strict and a lax one, and which of them is used depends on the flags
of the engine.  `parseSig_of_der` says that where the strict one succeeds the lax one agrees: so what
a signature stands for does not depend on the flags.
-/

namespace Obtcd.Btcec

/-- `N`, the order of the curve. -/
def curveOrder : Nat :=
  0xfffffffffffffffffffffffffffffffebaaedce6af48a03bbfd25e8cd0364141

def minSigLen : Nat := 8
def maxSigLen : Nat := 72

/-- Go on only if the condition holds. -/
def ensure (c : Prop) [Decidable c] (text : String) : Except String Unit :=
  if c then .ok () else .error text

/-- `canonicalPadding` of the integer of the given name. -/
def canonicalPadding (name : String) (b : Bytes) : Except String Unit := do
  ensure (b.getD 0 0 &&& 0x80 ≠ 0x80) ("signature " ++ name ++ " is negative")
  ensure (¬ (b.length > 1 ∧ b.getD 0 0 = 0x00 ∧ b.getD 1 0 &&& 0x80 ≠ 0x80))
    ("signature " ++ name ++ " is excessively padded")

/-- The integer of the given name without its leading zeros, as a number from one to the order. -/
def parseScalar (name : String) (b : Bytes) : Except String Nat := do
  let b := b.dropWhile (· == 0x00)
  ensure (b.length ≤ 32) ("invalid signature: " ++ name ++ " is larger than 256 bits")
  ensure (Bytes.beNat b < curveOrder) ("invalid signature: " ++ name ++ " >= group order")
  ensure (Bytes.beNat b ≠ 0) ("invalid signature: " ++ name ++ " is 0")
  return Bytes.beNat b

/-- The length in the header is a byte, and so is the sum of it and two. -/
def parseSig (sigStr : Bytes) (der : Bool) : Except String (Nat × Nat) := do
  ensure (minSigLen ≤ sigStr.length) "malformed signature: too short"
  ensure (¬ (der = true ∧ sigStr.length > maxSigLen)) "malformed signature: too long"
  ensure (sigStr.getD 0 0 = 0x30) "malformed signature: no header magic"
  let total := (sigStr.getD 1 0 + 2).toNat
  ensure (¬ (total > sigStr.length ∨ total < minSigLen)) "malformed signature: bad length"
  let sigStr := sigStr.take total
  ensure (sigStr.getD 2 0 = 0x02) "malformed signature: no 1st int marker"
  let rLen := (sigStr.getD 3 0).toNat
  ensure (¬ (rLen = 0 ∨ rLen > sigStr.length - 4 - 3)) "malformed signature: bogus R length"
  let rBytes := (sigStr.drop 4).take rLen
  (if der then canonicalPadding "R" rBytes else .ok ())
  let r ← parseScalar "R" rBytes
  let index := 4 + rLen
  ensure (sigStr.getD index 0 = 0x02) "malformed signature: no 2nd int marker"
  let sLen := (sigStr.getD (index + 1) 0).toNat
  let index := index + 2
  ensure (¬ (sLen = 0 ∨ sLen > sigStr.length - index)) "malformed signature: bogus S length"
  let sBytes := (sigStr.drop index).take sLen
  (if der then canonicalPadding "S" sBytes else .ok ())
  let s ← parseScalar "S" sBytes
  let index := index + sLen
  ensure (index = sigStr.length) ("malformed signature: bad final length " ++ toString index ++
    " != " ++ toString sigStr.length)
  return (r, s)

theorem parseSig_of_der {sigStr : Bytes} {rs : Nat × Nat} (h : parseSig sigStr true = .ok rs) :
    parseSig sigStr false = .ok rs := by
  obtain ⟨⟨⟩, hshort, h⟩ := bind_eq_ok.1 h
  obtain ⟨⟨⟩, -, h⟩ := bind_eq_ok.1 h
  obtain ⟨⟨⟩, hmagic, h⟩ := bind_eq_ok.1 h
  obtain ⟨⟨⟩, htotal, h⟩ := bind_eq_ok.1 h
  obtain ⟨⟨⟩, hfirst, h⟩ := bind_eq_ok.1 h
  obtain ⟨⟨⟩, hrLen, h⟩ := bind_eq_ok.1 h
  obtain ⟨⟨⟩, -, h⟩ := bind_eq_ok.1 h
  obtain ⟨r, hr, h⟩ := bind_eq_ok.1 h
  obtain ⟨⟨⟩, hsecond, h⟩ := bind_eq_ok.1 h
  obtain ⟨⟨⟩, hsLen, h⟩ := bind_eq_ok.1 h
  obtain ⟨⟨⟩, -, h⟩ := bind_eq_ok.1 h
  obtain ⟨s, hs, h⟩ := bind_eq_ok.1 h
  -- the two checks that are left out, and the length
  refine bind_eq_ok.2 ⟨(), hshort, bind_eq_ok.2 ⟨(), rfl, bind_eq_ok.2 ⟨(), hmagic, ?_⟩⟩⟩
  refine bind_eq_ok.2 ⟨(), htotal, bind_eq_ok.2 ⟨(), hfirst, bind_eq_ok.2 ⟨(), hrLen, ?_⟩⟩⟩
  refine bind_eq_ok.2 ⟨(), rfl, bind_eq_ok.2 ⟨r, hr, bind_eq_ok.2 ⟨(), hsecond, ?_⟩⟩⟩
  exact bind_eq_ok.2 ⟨(), hsLen, bind_eq_ok.2 ⟨(), rfl, bind_eq_ok.2 ⟨s, hs, h⟩⟩⟩

/-- The library below, and the Schnorr signatures of `btcec/schnorr`. -/
structure Secp where
  PubKey : Type
  /-- `secp256k1.ParsePubKey`. -/
  parsePubKey : Bytes → Except String PubKey
  /-- A key has 33 bytes if it is compressed, and 65 if it is not. -/
  parsePubKey_length : ∀ b key, parsePubKey b = .ok key → b.length = 33 ∨ b.length = 65
  verify : Nat × Nat → Hash → PubKey → Bool
  SchnorrSignature : Type
  parseSchnorrSignature : Bytes → Except String SchnorrSignature
  verifySchnorr : SchnorrSignature → Hash → PubKey → Bool

/-- `schnorr.ParsePubKey`. -/
def Secp.parseSchnorrPubKey (secp : Secp) (pubKeyStr : Bytes) : Except String secp.PubKey :=
  if pubKeyStr.length ≠ 32 then
    .error ("bad pubkey byte string size (want 32, have " ++ toString pubKeyStr.length ++ ")")
  else secp.parsePubKey (0x02 :: pubKeyStr)

/-- What the engine is given. -/
def Secp.crypto (secp : Secp) : Txscript.Crypto where
  PubKey := secp.PubKey
  Signature := Nat × Nat
  parsePubKey := secp.parsePubKey
  parseDERSignature sigStr := parseSig sigStr true
  parseSignature sigStr := parseSig sigStr false
  verify := secp.verify
  SchnorrPubKey := secp.PubKey
  SchnorrSignature := secp.SchnorrSignature
  parseSchnorrPubKey := secp.parseSchnorrPubKey
  parseSchnorrSignature := secp.parseSchnorrSignature
  verifySchnorr := secp.verifySchnorr

/-- A key of one kind is not one of the other. -/
theorem Secp.not_schnorr_of_parsePubKey {secp : Secp} {b : Bytes} {key key' : secp.PubKey}
    (h : secp.parsePubKey b = .ok key) : secp.parseSchnorrPubKey b ≠ .ok key' := by
  intro h'
  have hlen := secp.parsePubKey_length b key h
  rw [parseSchnorrPubKey, if_pos (by omega)] at h'
  cases h'

/-! ## Three keys -/

namespace Sample

open Bytes (be)
open Txscript

/-- The compressed keys of the private keys one, two and three. -/
def key (n : Nat) : Bytes :=
  0x02 :: be 32 (match n with
    | 1 => 0x79be667ef9dcbbac55a06295ce870b07029bfcdb2dce28d959f2815b16f81798
    | 2 => 0xc6047f9441ed7d6d3045406e95c07cd85c778e4b8cef3ca7abac09b95c709ee5
    | _ => 0xf9308a019258c31049344f85f89d5229b531c845836f99b08601f113bce036f9)

/-- The number `r` of the signatures, which all have the same nonce. -/
def r : Nat := 0x3b78ce563f89a0ed9414f5aa28ad0d96d6795f9c63

/-- A signature in its DER encoding, before the hash type. -/
def der (s : Nat) : Bytes := [0x30, 57, 0x02, 21] ++ be 21 r ++ [0x02, 32] ++ be 32 s

/-- The input of a transaction with one output, which spends the script `OP_CHECKSIG`. -/
def input : Vm where
  flags := 0
  tx := ⟨1, [{ previousOutPoint := ⟨Hash.zero, 0⟩ }], [⟨1000, []⟩], 0⟩
  txIdx := 0
  inputAmount := 2000
  sigHashes := ⟨Hash.zero, Hash.zero, Hash.zero, Hash.zero, Hash.zero, Hash.zero, Hash.zero,
    Hash.zero⟩
  prevOutFetcher _ := none
  witnessProgram := none
  witnessVersion := 0
  taprootCtx := none
  subScript := [opCheckSig]
  verifyMinimalData := false
  numOps := 1
  dstack := []
  sigCache := none

/-- The digest of the input for the hash type one, and the one with replay protection for the hash
type `0x41`. -/
def digest : Hash :=
  ⟨⟨be 32 0xae88e9d8d1fe0947c994beecb6e69f7e3e8d0ae033c9b34b762f9bf4e2318fd8, by decide⟩⟩
def protectedDigest : Hash :=
  ⟨⟨be 32 0x12cf8fd53f61e90c9c2242b5d396f01ee7f2f1bfd6c2d9e48f3ec74eba5708b9, by decide⟩⟩

/-- What is signed with the first and the second key. -/
def s₁ : Nat := 0x5d11d3b1a3fc128f93297e505f69eb7cd5ad1401e2361aac86a80709e6ec1735
def s₂ : Nat := 0x5d11d3b1a3fc128f93297ec7510697fbe8eeef2a0c216efde0c334b6d9ab4ffb
def protectedS : Nat := 0x259f1faa7ec3d219384485e298ca8cbce327bea7d771081a7898bc4a676d4a38

/-- The library on these keys and signatures, and on no others. -/
def secp : Secp where
  PubKey := Bytes
  parsePubKey b :=
    if b = key 1 ∨ b = key 2 ∨ b = key 3 then .ok b else .error "malformed public key"
  parsePubKey_length b k h := by
    split at h
    · rename_i hb
      rcases hb with rfl | rfl | rfl <;> exact .inl (by decide)
    · cases h
  verify rs hash k := decide ((rs, hash, k) ∈ [((r, s₁), digest, key 1), ((r, s₂), digest, key 2),
    ((r, protectedS), protectedDigest, key 1)])
  SchnorrSignature := Unit
  parseSchnorrSignature _ := .error "malformed signature"
  verifySchnorr _ _ _ := false

end Sample

end Obtcd.Btcec
