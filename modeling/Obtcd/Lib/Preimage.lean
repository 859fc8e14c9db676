import Obtcd.Lib.Bytes

/-!
# What a digest is a digest of

A digest is made in one of three ways: it is a fixed value, the hash of the hash of a message, or
the hash of a message behind the doubled hash of a tag.  `Preimage` keeps what went in, `digest`
computes what comes out, and `digest_eq_iff` says that under the assumption one makes about a hash
function nothing is lost between the two: equal digests come from equal preimages.

That assumption cannot be injectivity, which no function into 32 bytes has.  `Separates` asks for
it only on the byte strings that the two digests in question hash, and that none of these hashes to
a value that was fixed beforehand.  It is decidable, so that it can be checked of two given
preimages.
-/

namespace Obtcd

/-- What goes into a digest. -/
inductive Preimage where
  /-- A value that is not a hash. -/
  | constant (c : Bytes.Sized 32)
  /-- The hash of the hash of a message. -/
  | double (message : Bytes)
  /-- The hash of a message behind the hash of its tag, twice. -/
  | tagged (tag message : Bytes)
deriving DecidableEq

namespace Preimage

/-- The digest of a preimage under the hash function `H`. -/
def digest (H : Bytes → Bytes.Sized 32) : Preimage → Bytes.Sized 32
  | constant c => c
  | double m => H (H m).val
  | tagged t m => H ((H t).val ++ (H t).val ++ m)

/-- The byte strings that computing the digest hashes. -/
def hashed (H : Bytes → Bytes.Sized 32) : Preimage → List Bytes
  | constant _ => []
  | double m => [m, (H m).val]
  | tagged t m => [t, (H t).val ++ (H t).val ++ m]

/-- The values that the digest takes without hashing. -/
def constants : Preimage → List (Bytes.Sized 32)
  | constant c => [c]
  | double _ => []
  | tagged _ _ => []

/-- The hash function tells apart what the digests of `p` and `q` hash: it is injective on these
strings, and maps none of them to a fixed value of the other. -/
structure Separates (H : Bytes → Bytes.Sized 32) (p q : Preimage) : Prop where
  injective : ∀ x ∈ p.hashed H, ∀ y ∈ q.hashed H, H x = H y → x = y
  constant_left : ∀ c ∈ p.constants, ∀ y ∈ q.hashed H, H y ≠ c
  constant_right : ∀ c ∈ q.constants, ∀ x ∈ p.hashed H, H x ≠ c

variable {H : Bytes → Bytes.Sized 32} {p q : Preimage}

theorem Separates.symm (h : Separates H p q) : Separates H q p where
  injective x hx y hy he := (h.injective y hy x hx he.symm).symm
  constant_left := h.constant_right
  constant_right := h.constant_left

/-- A hash and a hash behind a tag are of strings of different lengths. -/
theorem digest_double_ne_tagged {m t m' : Bytes} (h : Separates H (double m) (tagged t m')) :
    (double m).digest H ≠ (tagged t m').digest H := by
  intro he
  have hin := h.injective _ (by simp [hashed]) _ (by simp [hashed]) he
  have hlen := congrArg List.length hin
  simp only [List.length_append, (H m).2, (H t).2] at hlen
  omega

/-- Equal digests have equal preimages, where the hash function separates them. -/
theorem digest_eq_iff (h : Separates H p q) : p.digest H = q.digest H ↔ p = q := by
  refine ⟨fun he => ?_, fun he => he ▸ rfl⟩
  cases p with
  | constant c =>
    cases q with
    | constant c' => exact congrArg constant he
    | double m => exact absurd he.symm (h.constant_left c (by simp [constants]) _ (by simp [hashed]))
    | tagged t m =>
      exact absurd he.symm (h.constant_left c (by simp [constants]) _ (by simp [hashed]))
  | double m =>
    cases q with
    | constant c => exact absurd he (h.constant_right c (by simp [constants]) _ (by simp [hashed]))
    | double m' =>
      have hhash := h.injective _ (by simp [hashed]) _ (by simp [hashed]) he
      have hm := h.injective m (by simp [hashed]) m' (by simp [hashed]) (Subtype.ext hhash)
      rw [hm]
    | tagged t m' => exact absurd he (digest_double_ne_tagged h)
  | tagged t m =>
    cases q with
    | constant c => exact absurd he (h.constant_right c (by simp [constants]) _ (by simp [hashed]))
    | double m' => exact absurd he.symm (digest_double_ne_tagged h.symm)
    | tagged t' m' =>
      have hin := h.injective _ (by simp [hashed]) _ (by simp [hashed]) he
      rw [List.append_assoc, List.append_assoc] at hin
      obtain ⟨htag, hrest⟩ := List.append_inj hin (by rw [(H t).2, (H t').2])
      have ht := h.injective t (by simp [hashed]) t' (by simp [hashed]) (Subtype.ext htag)
      rw [ht] at hrest
      rw [ht, List.append_cancel_left hrest]

end Preimage

end Obtcd
