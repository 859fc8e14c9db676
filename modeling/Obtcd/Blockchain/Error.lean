import Mathlib.Tactic.Common

/-!
# Errors

A Go `error` is one of four things here: a `RuleError` with its code and description, an
`AssertError`, any other error with its text, or a panic.  The distinction matters: a rule error
marks a block invalid for good, any other error does not, and a panic unwinds the call (and, inside
a database transaction, rolls that transaction back).
-/

namespace Obtcd

/-- `blockchain.ErrorCode`, the codes that the modelled rules raise. -/
inductive ErrorCode where
  | errDuplicateBlock
  | errBlockVersionTooOld
  | errTimeTooOld
  | errUnexpectedDifficulty
  | errHighHash
  | errTimewarpAttack
  | errBadCheckpoint
  | errForkTooOld
  | errNoTransactions
  | errBlockTooBig
  | errBlockWeightTooHigh
  | errFirstTxNotCoinbase
  | errMultipleCoinbases
  | errBadMerkleRoot
  | errDuplicateTx
  | errMissingCoinbaseHeight
  | errBadCoinbaseHeight
  | errPrevBlockNotBest
  | errNoTxInputs
  | errNoTxOutputs
  | errTxTooBig
  | errBadTxOutValue
  | errDuplicateTxInputs
  | errBadTxInput
  | errMissingTxOut
  | errUnfinalizedTx
  | errOverwriteTx
  | errImmatureSpend
  | errSpendTooHigh
  | errBadFees
  | errTooManySigOps
  | errBadCoinbaseScriptLen
  | errBadCoinbaseValue
  | errScriptMalformed
  | errScriptValidation
  | errUnexpectedWitness
  | errInvalidWitnessCommitment
  | errWitnessCommitmentMismatch
  | errPreviousBlockUnknown
  | errInvalidAncestorBlock
  | errMultipleReapTx
  | errBadReapPrefix
  | errBadExpiryCommitmentDuplicate
  | errBadExpiryCommitmentMissing
  | errBadExpiryCommitmentFormat
  | errBadExpiryCommitmentMismatch
deriving DecidableEq, Repr

/-- What a Go function can fail with. -/
inductive GoError where
  | rule (code : ErrorCode) (description : String)
  | assert (text : String)
  | other (text : String)
  | panic (text : String)
deriving DecidableEq, Repr

namespace GoError

/-- Is this a `RuleError`? -/
def isRule : GoError → Bool
  | rule _ _ => true
  | _ => false

/-- The `Error()` text, as `%v` prints it. -/
def text : GoError → String
  | rule _ description => description
  | assert text => "assertion failed: " ++ text
  | other text => text
  | panic text => text

/-- `fmt.Errorf` with `%v` of an error: the text is kept and the type is lost.  A panic is not an
error value and passes through. -/
def wrap (before : String) : GoError → GoError
  | panic text => panic text
  | e => other (before ++ e.text)

end GoError

theorem exists_ok_of_isOk {ε α : Type} {x : Except ε α} (h : x.isOk = true) : ∃ a, x = .ok a := by
  cases x with
  | error e => simp [Except.isOk, Except.toBool] at h
  | ok a => exact ⟨a, rfl⟩

theorem eq_ok_of_toOption {ε α : Type} {x : Except ε α} {a : α} (h : x.toOption = some a) :
    x = .ok a := by
  cases x with
  | error e => cases h
  | ok b => exact congrArg Except.ok (Option.some.inj h)

/-- Prepend a text to whatever error a computation ends in. -/
def wrapError {α : Type} (before : String) : Except GoError α → Except GoError α
  | .ok a => .ok a
  | .error e => .error (e.wrap before)

section Bind

variable {ε α β : Type}

@[simp] theorem ok_bind (a : α) (f : α → Except ε β) : (Except.ok a >>= f) = f a := rfl

@[simp] theorem error_bind (e : ε) (f : α → Except ε β) :
    ((Except.error e : Except ε α) >>= f) = .error e := rfl

theorem bind_eq_ok {x : Except ε α} {f : α → Except ε β} {b : β} :
    (x >>= f) = .ok b ↔ ∃ a, x = .ok a ∧ f a = .ok b := by
  cases x with
  | error e => simp
  | ok a => simp

theorem bind_eq_error {x : Except ε α} {f : α → Except ε β} {e : ε} :
    (x >>= f) = .error e ↔ x = .error e ∨ ∃ a, x = .ok a ∧ f a = .error e := by
  cases x with
  | error e' => simp
  | ok a => simp

end Bind

end Obtcd
