import Obtcd.Lib.Prog

/-!
# A program on a part of its state

A method that keeps more books than another one, and otherwise does the same, is the other one on a
part of its state.  `ProjectsAt part x y s` says so of two runs: what `x` returns from `s` is what
`y` returns from the part, and the state `x` leaves has the state `y` leaves as its part, however
they end.  It goes through sequences step by step; steps of `x` that only keep books are steps that
`y` does not have (`ProjectsAt.modify_bind`).
-/

namespace Obtcd.Prog

variable {σ τ ε α β : Type} {part : σ → τ} {s : σ}

/-- On a part of the state, the run of `x` from `s` is a run of `y`. -/
def ProjectsAt (part : σ → τ) (x : Prog σ ε α) (y : Prog τ ε α) (s : σ) : Prop :=
  exec y (part s) = ((exec x s).1, part (exec x s).2)

namespace ProjectsAt

variable {y : Prog τ ε α} {x : Prog σ ε α}

theorem exec_eq (h : ProjectsAt part x y s) {r : Except ε α} {s' : σ} (hx : exec x s = (r, s')) :
    exec y (part s) = (r, part s') := by
  rw [h, hx]

theorem pure (a : α) : ProjectsAt part (pure a : Prog σ ε α) (pure a) s := rfl

theorem throw (e : ε) : ProjectsAt part (throw e : Prog σ ε α) (throw e) s := rfl

theorem ofExcept (r : Except ε α) : ProjectsAt part (ofExcept r : Prog σ ε α) (ofExcept r) s := rfl

theorem require (c : Prop) [Decidable c] (e : ε) :
    ProjectsAt part (require c e : Prog σ ε Unit) (require c e) s := by
  rw [ProjectsAt, exec_require, exec_require]

/-- A program that is run on the part. -/
theorem focus {put : σ → τ → σ} (hput : ∀ s t, part (put s t) = t) (y : Prog τ ε α) :
    ProjectsAt part (focus part put y) y s := by
  rw [ProjectsAt, exec_focus, hput]

theorem bind {f : α → Prog σ ε β} {g : α → Prog τ ε β} (hx : ProjectsAt part x y s)
    (hf : ∀ a s', exec x s = (.ok a, s') → ProjectsAt part (f a) (g a) s') :
    ProjectsAt part (x >>= f) (y >>= g) s := by
  rw [ProjectsAt, exec_bind, exec_bind]
  rcases hrun : exec x s with ⟨r, s'⟩
  rw [hx.exec_eq hrun]
  cases r with
  | ok a => exact hf a s' hrun
  | error e => rfl

theorem get_bind {f : σ → Prog σ ε β} {g : τ → Prog τ ε β}
    (h : ProjectsAt part (f s) (g (part s)) s) :
    ProjectsAt part (get >>= f) (get >>= g) s := by
  rwa [ProjectsAt, exec_get_bind, exec_get_bind]

/-- A step that the part does not see. -/
theorem modify_bind {k : σ → σ} {f : PUnit → Prog σ ε β} {y : Prog τ ε β}
    (hk : part (k s) = part s) (h : ProjectsAt part (f ⟨⟩) y (k s)) :
    ProjectsAt part (modify k >>= f) y s := by
  rwa [ProjectsAt, exec_modify_bind, ← hk]

theorem transaction {restore : σ → σ → σ} {restore' : τ → τ → τ}
    (hrestore : ∀ s s', part (restore s s') = restore' (part s) (part s'))
    (h : ProjectsAt part x y s) :
    ProjectsAt part (transaction restore x) (transaction restore' y) s := by
  rcases hrun : exec x s with ⟨r, s'⟩
  cases r with
  | ok a =>
    rw [ProjectsAt, exec_transaction_eq_ok.2 hrun, exec_transaction_eq_ok.2 (h.exec_eq hrun)]
  | error e =>
    rw [ProjectsAt, exec_transaction_eq_error.2 ⟨s', hrun, rfl⟩,
      exec_transaction_eq_error.2 ⟨part s', h.exec_eq hrun, rfl⟩, hrestore]

end ProjectsAt

end Obtcd.Prog
