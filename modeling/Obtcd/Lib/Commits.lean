import Obtcd.Lib.Prog

/-!
# Work in several transactions

A job too large for one database transaction is done in several.  Each of them is atomic: it is
committed as a whole, or it fails and changes nothing.  Between two of them the process may be
stopped, and what it then leaves behind is what the last transaction has committed.

`Store σ ε` is a database with contents `σ`, together with the contents after each commit so far and
the answers it is going to give to commits, so that a job can be run against a database that fails at
any point.  The states that stopping can leave behind are `commits`.  `Stays P` relates the stores
before and after a piece of work all of whose commits keep `P`; a transaction whose body keeps `P`
is such a piece (`keeps_update`), and so is a sequence of them.
-/

namespace Obtcd

/-- A database and what it has committed. -/
structure Store (σ ε : Type) where
  cur : σ
  /-- The contents after each commit, oldest first. -/
  commits : List σ := []
  /-- What the next commits answer: an error, or success.  Without an answer they succeed. -/
  answers : List (Option ε) := []

namespace Store

variable {σ ε : Type}

/-- The store after a commit that succeeds. -/
def commit (s : Store σ ε) (d : σ) : Store σ ε := ⟨d, s.commits ++ [d], s.answers.tail⟩

/-- Run a transaction. -/
def update (f : σ → Except ε σ) : Prog (Store σ ε) ε Unit := fun s =>
  match f s.cur with
  | .error e => (.error e, s)
  | .ok d =>
    match s.answers with
    | some e :: answers => (.error e, { s with answers })
    | _ => (.ok (), s.commit d)

/-- A transaction changes nothing, or it is committed. -/
theorem exec_update (f : σ → Except ε σ) (s : Store σ ε) :
    (∃ d, f s.cur = .ok d ∧ Prog.exec (update f) s = (.ok (), s.commit d)) ∨
      ∃ e s', Prog.exec (update f) s = (.error e, s') ∧ s'.cur = s.cur ∧ s'.commits = s.commits := by
  rw [Prog.exec, update]
  cases hf : f s.cur with
  | error e => exact Or.inr ⟨e, s, rfl, rfl, rfl⟩
  | ok d =>
    rcases hans : s.answers with _ | ⟨_ | e, answers⟩
    · exact Or.inl ⟨d, rfl, rfl⟩
    · exact Or.inl ⟨d, rfl, rfl⟩
    · exact Or.inr ⟨e, _, rfl, rfl, rfl⟩

theorem exec_update_of_ok {f : σ → Except ε σ} {s : Store σ ε} {d : σ} (hf : f s.cur = .ok d)
    (hans : s.answers = []) : Prog.exec (update f) s = (.ok (), s.commit d) := by
  rw [Prog.exec, update, hf, hans]

/-- From contents with `P`, every commit has kept `P`. -/
def Stays (P : σ → Prop) (s s' : Store σ ε) : Prop :=
  P s.cur → P s'.cur ∧ ∃ new, s'.commits = s.commits ++ new ∧ ∀ d ∈ new, P d

variable {P : σ → Prop}

instance : Std.Refl (Stays P : Store σ ε → Store σ ε → Prop) :=
  ⟨fun s h => ⟨h, [], by rw [List.append_nil], by simp⟩⟩

instance : IsTrans (Store σ ε) (Stays P) where
  trans := by
    intro s₁ s₂ s₃ h h' hP
    obtain ⟨hP₂, new, heq, hnew⟩ := h hP
    obtain ⟨hP₃, new', heq', hnew'⟩ := h' hP₂
    refine ⟨hP₃, new ++ new', by rw [heq', heq, List.append_assoc], ?_⟩
    exact List.forall_mem_append.2 ⟨hnew, hnew'⟩

theorem Stays.of_eq {s s' : Store σ ε} (hcur : s'.cur = s.cur) (hcommits : s'.commits = s.commits) :
    Stays P s s' := fun h =>
  ⟨by rwa [hcur], [], by rw [hcommits, List.append_nil], by simp⟩

/-- A transaction whose body keeps `P` keeps it. -/
theorem keeps_update {f : σ → Except ε σ} (hf : ∀ d d', P d → f d = .ok d' → P d') :
    Prog.Keeps (Stays P) (update f : Prog (Store σ ε) ε Unit) := by
  intro s
  rcases exec_update f s with ⟨d, hd, hrun⟩ | ⟨e, s', hrun, hcur, hcommits⟩
  · rw [hrun]
    intro h
    have hd := hf _ _ h hd
    exact ⟨hd, [d], rfl, by simpa using hd⟩
  · rw [hrun]
    exact Stays.of_eq hcur hcommits

end Store

end Obtcd
