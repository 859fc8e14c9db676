import Mathlib.Order.Defs.Unbundled

/-!
# Programs that fail and leave their state behind

A Go method changes the structures it can reach and may return an error half way, and what it has
changed by then stays changed.  `Prog σ ε` is such a method on a state `σ` with errors `ε`.  Only a
database transaction takes changes back, and only those to the database: `transaction restore` runs
a program and, should it fail, lets `restore` repair the state.

`exec_bind_eq_ok` and `exec_bind_eq_error` take a run of a sequence apart, at its end and at the
step that failed.  `Keeps R x` says that `x` relates the states before and after it by `R` however
it ends, and `Raises P x` that every error it can end in satisfies `P`; both go through sequences.
-/

namespace Obtcd

/-- A program on a state that may fail. -/
abbrev Prog (σ ε : Type) := ExceptT ε (StateM σ)

namespace Prog

variable {σ ε α β : Type}

/-- Run a program: what it returns, and the state it leaves, also when it fails. -/
def exec (x : Prog σ ε α) (s : σ) : Except ε α × σ := x s

/-- Lift a computation that does not touch the state. -/
def ofExcept (r : Except ε α) : Prog σ ε α := fun s => (r, s)

/-- Run as a transaction: a failure repairs the state it left with the one it started from. -/
def transaction (restore : σ → σ → σ) (x : Prog σ ε α) : Prog σ ε α := fun s =>
  match x s with
  | (.ok a, s') => (.ok a, s')
  | (.error e, s') => (.error e, restore s s')

/-- Fail with `e` unless `c` holds. -/
def require (c : Prop) [Decidable c] (e : ε) : Prog σ ε Unit := if c then pure () else throw e

/-- Run a program on a part of the state. -/
def focus {τ : Type} (part : σ → τ) (put : σ → τ → σ) (x : Prog τ ε α) : Prog σ ε α := fun s =>
  ((x (part s)).1, put s (x (part s)).2)

/-- Run a program and, should it fail, a second one on the error before passing it on. -/
def onError (x : Prog σ ε α) (handler : ε → Prog σ ε Unit) : Prog σ ε α := fun s =>
  match x s with
  | (.ok a, s') => (.ok a, s')
  | (.error e, s') => (.error e, (handler e s').2)

/-- Run a program and return how it ended. -/
def attempt (x : Prog σ ε α) : Prog σ ε (Except ε α) := fun s => (.ok (x s).1, (x s).2)

/-- Run a program and change the error it ends in. -/
def mapError (f : ε → ε) (x : Prog σ ε α) : Prog σ ε α := fun s =>
  match x s with
  | (.ok a, s') => (.ok a, s')
  | (.error e, s') => (.error (f e), s')

/-- Run a program `n` times and collect what it returns. -/
def times : Nat → Prog σ ε α → Prog σ ε (List α)
  | 0, _ => pure []
  | n + 1, x => do
    let a ← x
    let l ← times n x
    return a :: l

/-! ## What a run is -/

variable {x : Prog σ ε α} {r : Except ε α} {s : σ}

theorem exec_eq_of_fst (h : (exec x s).1 = r) : exec x s = (r, (exec x s).2) := by rw [← h]

@[simp] theorem exec_pure (a : α) (s : σ) : exec (pure a : Prog σ ε α) s = (.ok a, s) := rfl

@[simp] theorem exec_get (s : σ) : exec (get : Prog σ ε σ) s = (.ok s, s) := rfl

@[simp] theorem exec_set (s s' : σ) : exec (set s' : Prog σ ε PUnit) s = (.ok ⟨⟩, s') := rfl

@[simp] theorem exec_modify (f : σ → σ) (s : σ) :
    exec (modify f : Prog σ ε PUnit) s = (.ok ⟨⟩, f s) := rfl

@[simp] theorem exec_ofExcept (r : Except ε α) (s : σ) :
    exec (ofExcept r : Prog σ ε α) s = (r, s) := rfl

theorem exec_require (c : Prop) [Decidable c] (e : ε) (s : σ) :
    exec (require c e : Prog σ ε Unit) s = (if c then .ok () else .error e, s) := by
  unfold require
  split <;> rfl

theorem exec_focus {τ : Type} (part : σ → τ) (put : σ → τ → σ) (x : Prog τ ε α) (s : σ) :
    exec (focus part put x) s = ((exec x (part s)).1, put s (exec x (part s)).2) := rfl

@[simp] theorem exec_attempt (x : Prog σ ε α) (s : σ) :
    exec (attempt x) s = (.ok (exec x s).1, (exec x s).2) := rfl

variable {s' : σ}

theorem exec_mapError_of_ok {f : ε → ε} {a : α} (h : exec x s = (.ok a, s')) :
    exec (mapError f x) s = (.ok a, s') := by
  unfold exec at h
  unfold exec mapError
  rw [h]

variable {e : ε}

theorem exec_mapError_of_error {f : ε → ε} (h : exec x s = (.error e, s')) :
    exec (mapError f x) s = (.error (f e), s') := by
  unfold exec at h
  unfold exec mapError
  rw [h]

variable {handler : ε → Prog σ ε Unit}

theorem exec_onError_eq_ok {a : α} :
    exec (onError x handler) s = (.ok a, s') ↔ exec x s = (.ok a, s') := by
  unfold exec onError
  rcases x s with ⟨r, s₁⟩
  cases r <;> simp

theorem exec_onError_eq_error : exec (onError x handler) s = (.error e, s') ↔
      ∃ s₁, exec x s = (.error e, s₁) ∧ (exec (handler e) s₁).2 = s' := by
  unfold exec onError
  rcases x s with ⟨r, s₁⟩
  cases r with
  | ok a => simp
  | error e' =>
    refine ⟨fun h => ?_, ?_⟩
    · obtain ⟨he, hs⟩ := Prod.mk.inj h
      obtain rfl := Except.error.inj he
      exact ⟨s₁, rfl, hs⟩
    · rintro ⟨s₂, heq, rfl⟩
      obtain ⟨he, rfl⟩ := Prod.mk.inj heq
      rw [he]

theorem exec_bind (x : Prog σ ε α) (f : α → Prog σ ε β) (s : σ) :
    exec (x >>= f) s =
      match exec x s with
      | (.ok a, s') => exec (f a) s'
      | (.error e, s') => (.error e, s') := by
  show (match x s with
    | (r, s') => ExceptT.bindCont f r s') = _
  unfold exec
  rcases x s with ⟨r, s'⟩
  cases r <;> rfl

@[simp] theorem exec_get_bind (f : σ → Prog σ ε β) (s : σ) :
    exec (get >>= f) s = exec (f s) s := by rw [exec_bind, exec_get]

@[simp] theorem exec_modify_bind (g : σ → σ) (f : PUnit → Prog σ ε β) (s : σ) :
    exec (modify g >>= f) s = exec (f ⟨⟩) (g s) := by rw [exec_bind, exec_modify]

variable {f : α → Prog σ ε β}

/-- A sequence ends well when both parts do. -/
theorem exec_bind_eq_ok {b : β} : exec (x >>= f) s = (.ok b, s') ↔
      ∃ a s₁, exec x s = (.ok a, s₁) ∧ exec (f a) s₁ = (.ok b, s') := by
  rw [exec_bind]
  rcases exec x s with ⟨r, s₁⟩
  cases r with
  | ok a =>
    refine ⟨fun h => ⟨a, s₁, rfl, h⟩, ?_⟩
    rintro ⟨a', s₂, heq, h⟩
    obtain ⟨ha, rfl⟩ := Prod.mk.inj heq
    cases ha
    exact h
  | error e => simp

/-- A sequence fails in its first part or in its second. -/
theorem exec_bind_eq_error : exec (x >>= f) s = (.error e, s') ↔
      exec x s = (.error e, s') ∨
        ∃ a s₁, exec x s = (.ok a, s₁) ∧ exec (f a) s₁ = (.error e, s') := by
  rw [exec_bind]
  rcases exec x s with ⟨r, s₁⟩
  cases r with
  | ok a =>
    refine ⟨fun h => .inr ⟨a, s₁, rfl, h⟩, ?_⟩
    rintro (heq | ⟨a', s₂, heq, h⟩)
    · cases heq
    · obtain ⟨ha, rfl⟩ := Prod.mk.inj heq
      cases ha
      exact h
  | error e' => simp

/-- A sequence goes on from where its first part ended well. -/
theorem exec_bind_of_ok {s₁ : σ} {a : α} (h : exec x s = (.ok a, s₁)) :
    exec (x >>= f) s = exec (f a) s₁ := by rw [exec_bind, h]

theorem exec_times_zero (x : Prog σ ε α) (s : σ) : exec (times 0 x) s = (.ok [], s) := rfl

theorem exec_times_succ_eq_ok {n : Nat} {l : List α} : exec (times (n + 1) x) s = (.ok l, s') ↔
      ∃ a s₁ l', exec x s = (.ok a, s₁) ∧ exec (times n x) s₁ = (.ok l', s') ∧ l = a :: l' := by
  rw [times, exec_bind_eq_ok]
  refine exists_congr fun a => exists_congr fun s₁ => ?_
  rw [exec_bind_eq_ok]
  constructor
  · rintro ⟨hx, l', s₂, hl, h⟩
    obtain ⟨hl', rfl⟩ := Prod.mk.inj h
    exact ⟨l', hx, hl, (Except.ok.inj hl').symm⟩
  · rintro ⟨l', hx, hl, rfl⟩
    exact ⟨hx, l', s', hl, rfl⟩

theorem exec_require_bind_eq_ok {c : Prop} [Decidable c] {f : Unit → Prog σ ε β} {b : β} :
    exec (require c e >>= f) s = (.ok b, s') ↔ c ∧ exec (f ()) s = (.ok b, s') := by
  rw [exec_bind, exec_require]
  by_cases hc : c <;> simp [hc]

theorem exec_require_bind_eq_error {c : Prop} [Decidable c] {e' : ε} {f : Unit → Prog σ ε β} :
    exec (require c e >>= f) s = (.error e', s') ↔
      ¬ c ∧ e = e' ∧ s = s' ∨ c ∧ exec (f ()) s = (.error e', s') := by
  rw [exec_bind, exec_require]
  by_cases hc : c <;> simp [hc]

theorem exec_require_bind_of_pos {c : Prop} [Decidable c] {f : Unit → Prog σ ε β} (hc : c) :
    exec (require c e >>= f) s = exec (f ()) s := by
  rw [exec_bind, exec_require, if_pos hc]

theorem exec_ofExcept_bind_eq_ok {b : β} :
    exec (ofExcept r >>= f) s = (.ok b, s') ↔ ∃ a, r = .ok a ∧ exec (f a) s = (.ok b, s') := by
  rw [exec_bind, exec_ofExcept]
  cases r <;> simp

theorem exec_ofExcept_bind_eq_error : exec (ofExcept r >>= f) s = (.error e, s') ↔
      r = .error e ∧ s = s' ∨ ∃ a, r = .ok a ∧ exec (f a) s = (.error e, s') := by
  rw [exec_bind, exec_ofExcept]
  cases r <;> simp

theorem exec_transaction (restore : σ → σ → σ) (x : Prog σ ε α) (s : σ) :
    exec (transaction restore x) s = exec (onError x fun _ => modify (restore s)) s := rfl

theorem exec_transaction_eq_ok {restore : σ → σ → σ} {a : α} :
    exec (transaction restore x) s = (.ok a, s') ↔ exec x s = (.ok a, s') := by
  rw [exec_transaction, exec_onError_eq_ok]

theorem exec_transaction_eq_error {restore : σ → σ → σ} :
    exec (transaction restore x) s = (.error e, s') ↔
      ∃ s₁, exec x s = (.error e, s₁) ∧ restore s s₁ = s' := by
  rw [exec_transaction, exec_onError_eq_error]
  rfl

/-! ## What a program keeps -/

/-- The states before and after the program are related, however it ends. -/
def Keeps (R : σ → σ → Prop) (x : Prog σ ε α) : Prop := ∀ s, R s (exec x s).2

section Keeps

variable {R : σ → σ → Prop}

theorem Keeps.pure [Std.Refl R] (a : α) : Keeps R (pure a : Prog σ ε α) := fun s => Std.Refl.refl s

theorem Keeps.throw [Std.Refl R] (e : ε) : Keeps R (throw e : Prog σ ε α) :=
  fun s => Std.Refl.refl s

theorem Keeps.get [Std.Refl R] : Keeps R (get : Prog σ ε σ) := fun s => Std.Refl.refl s

theorem Keeps.ofExcept [Std.Refl R] (r : Except ε α) : Keeps R (ofExcept r : Prog σ ε α) :=
  fun s => Std.Refl.refl s

theorem Keeps.require [Std.Refl R] (c : Prop) [Decidable c] (e : ε) :
    Keeps R (require c e : Prog σ ε Unit) := by
  intro s
  rw [exec_require]
  exact Std.Refl.refl s

theorem Keeps.modify {f : σ → σ} (h : ∀ s, R s (f s)) : Keeps R (modify f : Prog σ ε PUnit) := h

theorem bind_at [IsTrans σ R] (hx : R s (exec x s).2) (hf : ∀ a, Keeps R (f a)) :
    R s (exec (x >>= f) s).2 := by
  rw [exec_bind]
  rcases hrun : exec x s with ⟨_ | a, s₁⟩
  all_goals rw [hrun] at hx
  · exact hx
  · exact IsTrans.trans _ _ _ hx (hf a s₁)

theorem Keeps.bind [IsTrans σ R] {f : α → Prog σ ε β} (hx : Keeps R x) (hf : ∀ a, Keeps R (f a)) :
    Keeps R (x >>= f) := fun s => bind_at (hx s) hf

theorem Keeps.onError [IsTrans σ R] (hx : Keeps R x) (hh : ∀ e, Keeps R (handler e)) :
    Keeps R (onError x handler) := by
  intro s
  have h₁ := hx s
  unfold exec at h₁
  unfold exec Prog.onError
  rcases hrun : x s with ⟨r, s₁⟩
  rw [hrun] at h₁
  cases r with
  | ok a => exact h₁
  | error e => exact IsTrans.trans _ _ _ h₁ (hh e s₁)

theorem Keeps.attempt (hx : Keeps R x) : Keeps R (attempt x) := hx

theorem Keeps.forM_mem [Std.Refl R] [IsTrans σ R] {f : β → Prog σ ε PUnit} {l : List β}
    (hf : ∀ b ∈ l, Keeps R (f b)) : Keeps R (l.forM f) := by
  induction l with
  | nil => exact Keeps.pure _
  | cons b l ih =>
    exact Keeps.bind (hf b (List.mem_cons_self ..)) fun _ =>
      ih fun b' hb' => hf b' (List.mem_cons_of_mem _ hb')

theorem Keeps.forM [Std.Refl R] [IsTrans σ R] {f : β → Prog σ ε PUnit} (hf : ∀ b, Keeps R (f b))
    (l : List β) : Keeps R (l.forM f) := Keeps.forM_mem fun b _ => hf b

theorem Keeps.focus {τ : Type} {part : σ → τ} {put : σ → τ → σ} {Q : τ → τ → Prop}
    {x : Prog τ ε α} (hx : Keeps Q x) (h : ∀ s t, Q (part s) t → R s (put s t)) :
    Keeps R (focus part put x) := fun s => h s _ (hx (part s))

theorem Keeps.ite {y : Prog σ ε α} {c : Prop} [Decidable c] (hx : Keeps R x) (hy : Keeps R y) :
    Keeps R (if c then x else y) := by
  split
  · exact hx
  · exact hy

theorem require_bind_at [Std.Refl R] {c : Prop} [Decidable c] {f : Unit → Prog σ ε β}
    (hf : c → R s (exec (f ()) s).2) : R s (exec (require c e >>= f) s).2 := by
  by_cases hc : c
  · rw [exec_require_bind_of_pos hc]
    exact hf hc
  · rw [require, if_neg hc]
    exact Std.Refl.refl s

theorem ofExcept_bind_at [Std.Refl R] (hf : ∀ a, R s (exec (f a) s).2) :
    R s (exec (ofExcept r >>= f) s).2 := by
  cases r with
  | error e => exact Std.Refl.refl s
  | ok a => exact hf a

end Keeps

/-! ## What a program fails with -/

/-- Every error the program can end in satisfies `P`. -/
def Raises (P : ε → Prop) (x : Prog σ ε α) : Prop := ∀ s e s', exec x s = (.error e, s') → P e

section Raises

variable {P : ε → Prop}

theorem Raises.pure (a : α) : Raises P (pure a : Prog σ ε α) := fun _ _ _ h => by cases h

theorem Raises.get : Raises P (get : Prog σ ε σ) := fun _ _ _ h => by cases h

theorem Raises.modify (f : σ → σ) : Raises P (modify f : Prog σ ε PUnit) := fun _ _ _ h => by cases h

theorem Raises.ofExcept {r : Except ε α} (h : ∀ e, r = .error e → P e) :
    Raises P (ofExcept r : Prog σ ε α) := fun _ e _ hrun => h e (Prod.mk.inj hrun).1

theorem Raises.bind {x : Prog σ ε α} {f : α → Prog σ ε β} (hx : Raises P x)
    (hf : ∀ a, Raises P (f a)) : Raises P (x >>= f) := by
  intro s e s' hrun
  rcases exec_bind_eq_error.1 hrun with h | ⟨a, s₁, -, h⟩
  · exact hx s e s' h
  · exact hf a s₁ e s' h

theorem Raises.focus {τ : Type} {part : σ → τ} {put : σ → τ → σ} {x : Prog τ ε α}
    (hx : Raises P x) : Raises P (focus part put x) := by
  intro s e s' hrun
  exact hx (part s) e _ (Prod.ext (Prod.mk.inj hrun).1 rfl)

end Raises

end Prog

end Obtcd
