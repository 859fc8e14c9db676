import Obtcd.Ffldb.Machine

/-!
# What a snapshot sees while others commit

`dbCache.Snapshot` has two halves: it takes a leveldb snapshot, and then, under the cache lock, the
cached edits.  A read transaction holds no write lock, so anything a write transaction does can come
between the two.  `System` is a database with the write transaction at work and any number of read
transactions being begun, and a run interleaves their actions.

A swap of the cache between the halves does no harm, nor does committing the cached edits to
leveldb.  But a flush that clears the cache, and a transaction that it then writes straight to
leveldb, are in neither half: the leveldb snapshot is too old for them and the cache too young.
`lostUpdate` is such a run.  `snapshots_isolated` is the theorem for runs without: every snapshot
stands for the contents after some prefix of the committed transactions, one that has all those
committed before the snapshot was begun.
-/

namespace Obtcd.Ffldb

open Std OrdMap

section

variable [Leveldb]

/-- A read transaction that is being begun, or has been; `since` is the number of transactions that
had been committed when it started. -/
inductive Reader where
  /-- It has its leveldb snapshot and waits for the cache lock. -/
  | half (dbSnapshot : Leveldb.DB) (since : Nat)
  | done (snapshot : DbCacheSnapshot) (since : Nat)

/-- A database, the edits of the transactions committed so far, and the readers. -/
structure System where
  machine : Machine
  /-- The contents at the start. -/
  base : Contents
  /-- The edits of the committed transactions, oldest first. -/
  log : List (Edits Bytes Bytes)
  readers : OrdMap Nat Reader

/-- What can happen: an action of the write transaction, the two halves of `Snapshot` for a reader,
and its end. -/
inductive SystemAction where
  | writer (a : Action)
  | getSnapshot (reader : Nat)
  | takeCache (reader : Nat)
  | release (reader : Nat)

namespace System

/-- The contents after the first `n` committed transactions. -/
def contentsAfter (s : System) (n : Nat) : Contents :=
  (s.log.take n).foldl (fun m pending => pending.commit m) s.base

/-- A database with no transactions. -/
def init (db : Db) : System := ⟨⟨db, .idle⟩, db.cache.contents, [], ∅⟩

/-- Do an action, if it is its turn. -/
def step (s : System) : SystemAction → Option System
  | .writer a =>
    (s.machine.step a).map fun machine =>
      { s with machine, log := s.log ++ (s.machine.committed a).toList }
  | .getSnapshot i =>
    match s.readers[i]? with
    | none =>
      some { s with readers := s.readers.insert i (.half s.machine.db.cache.ldb s.log.length) }
    | some _ => none
  | .takeCache i =>
    match s.readers[i]? with
    | some (.half dbSnapshot since) =>
      some { s with
        readers := s.readers.insert i (.done ⟨dbSnapshot, s.machine.db.cache.cached⟩ since) }
    | _ => none
  | .release i =>
    match s.readers[i]? with
    | some (.done _ _) => some { s with readers := s.readers.erase i }
    | _ => none

/-- Do a sequence of actions. -/
def run (s : System) : List SystemAction → Option System
  | [] => some s
  | a :: as => (s.step a).bind (·.run as)

/-- Is a reader between the two halves of its snapshot? -/
def halfTaken (s : System) : Bool :=
  s.readers.toList.any fun
    | (_, .half _ _) => true
    | (_, .done _ _) => false

/-- Every snapshot stands for the contents after some prefix of the committed transactions, and
misses none that was committed before it was begun. -/
def Isolated (s : System) : Prop :=
  ∀ (i : Nat) (snapshot : DbCacheSnapshot) (since : Nat),
    s.readers[i]? = some (Reader.done snapshot since) →
    ∃ n, since ≤ n ∧ n ≤ s.log.length ∧ snapshot.view = s.contentsAfter n

/-- Is it not so that the action clears the cache, or writes a transaction past it, while a snapshot
is half taken? -/
def calm (s : System) : SystemAction → Bool
  | .writer .clear | .writer .writeThrough => !s.halfTaken
  | _ => true

/-- Are all actions of a run calm? -/
def calmRun : System → List SystemAction → Bool
  | _, [] => true
  | s, a :: as =>
    s.calm a &&
      match s.step a with
      | none => true
      | some s' => s'.calmRun as

variable {s : System}

theorem halfTaken_of_half {i : Nat} {dbSnapshot : Leveldb.DB} {since : Nat}
    (h : s.readers[i]? = some (Reader.half dbSnapshot since)) : s.halfTaken = true :=
  List.any_eq_true.2 ⟨_, (mem_toList s.readers i _).2 h, rfl⟩

/-! ## The invariant -/

/-- What every calm run keeps: the log stands for the contents, a half taken snapshot will stand for
them once it has the cache, and the snapshots taken are isolated. -/
structure Inv (s : System) : Prop where
  settled : s.machine.Settled
  contents : s.machine.contents = s.contentsAfter s.log.length
  half (i : Nat) (dbSnapshot : Leveldb.DB) (since : Nat) :
    s.readers[i]? = some (Reader.half dbSnapshot since) →
      since ≤ s.log.length ∧
        DbCacheSnapshot.view ⟨dbSnapshot, s.machine.db.cache.cached⟩ = s.contentsAfter s.log.length
  isolated : s.Isolated

theorem inv_init (db : Db) : (init db).Inv where
  settled := trivial
  contents := rfl
  half i _ _ h := by
    simp [init] at h
  isolated i _ _ h := by
    simp [init] at h

/-- Later commits do not change the contents after an earlier one. -/
theorem contentsAfter_append (s : System) (machine : Machine) (pending : List (Edits Bytes Bytes))
    {n : Nat} (hn : n ≤ s.log.length) :
    contentsAfter { s with machine, log := s.log ++ pending } n = s.contentsAfter n := by
  rw [contentsAfter, contentsAfter, List.take_append_of_le_length hn]

variable {machine : Machine}

/-- The new contents after an action of the writer are those after the whole log. -/
theorem contentsAfter_writer (hs : s.Inv) {a : Action} (h : Step s.machine a machine) :
    machine.contents =
      contentsAfter { s with machine, log := s.log ++ (s.machine.committed a).toList }
        (s.log ++ (s.machine.committed a).toList).length := by
  have hall : s.machine.contents = s.log.foldl (fun m pending => pending.commit m) s.base := by
    rw [hs.contents, contentsAfter, List.take_length]
  rw [h.contents_eq hs.settled, contentsAfter, List.take_length]
  cases s.machine.committed a with
  | none => simpa using hall
  | some pending => simp [hall]

/-- An action of the writer moves a half taken snapshot along with the contents, unless it clears
the cache or writes past it. -/
theorem half_writer (hs : s.Inv) {a : Action} (h : Step s.machine a machine)
    (hcalm : s.calm (.writer a) = true) {i : Nat} {dbSnapshot : Leveldb.DB} {since : Nat}
    (hi : s.readers[i]? = some (Reader.half dbSnapshot since)) :
    DbCacheSnapshot.view ⟨dbSnapshot, machine.db.cache.cached⟩ = machine.contents := by
  have hhalf : s.halfTaken = true := halfTaken_of_half hi
  have hold : DbCacheSnapshot.view ⟨dbSnapshot, s.machine.db.cache.cached⟩ = s.machine.contents :=
    (hs.half i dbSnapshot since hi).2.trans hs.contents.symm
  rw [h.contents_eq hs.settled]
  generalize s.machine = m at h hold
  cases h with
  | cacheTx hfiles hblocks => exact (Edits.commit_append _ _ _).trans (congrArg _ hold)
  | clear => simp [calm, hhalf] at hcalm
  | writeThrough => simp [calm, hhalf] at hcalm
  | _ => exact hold

theorem inv_writer (hs : s.Inv) {a : Action} (h : Step s.machine a machine)
    (hcalm : s.calm (.writer a) = true) :
    Inv { s with machine, log := s.log ++ (s.machine.committed a).toList } where
  settled := h.settled
  contents := contentsAfter_writer hs h
  half i dbSnapshot since hi := by
    refine ⟨?_, (half_writer hs h hcalm hi).trans (contentsAfter_writer hs h)⟩
    have := (hs.half i dbSnapshot since hi).1
    rw [List.length_append]
    omega
  isolated i snapshot since hi := by
    obtain ⟨n, hsince, hn, hview⟩ := hs.isolated i snapshot since hi
    refine ⟨n, hsince, ?_, ?_⟩
    · rw [List.length_append]
      omega
    · rw [hview]
      exact (contentsAfter_append s machine _ hn).symm

/-- Changing one reader keeps what the others have. -/
theorem inv_insert {s : System} (hs : s.Inv) {i : Nat} {reader : Reader}
    (hhalf : ∀ dbSnapshot since, reader = .half dbSnapshot since →
      since ≤ s.log.length ∧
        DbCacheSnapshot.view ⟨dbSnapshot, s.machine.db.cache.cached⟩ = s.contentsAfter s.log.length)
    (hdone : ∀ snapshot since, reader = .done snapshot since →
      ∃ n, since ≤ n ∧ n ≤ s.log.length ∧ snapshot.view = s.contentsAfter n) :
    Inv { s with readers := s.readers.insert i reader } where
  settled := hs.settled
  contents := hs.contents
  half j dbSnapshot since hj := by
    rw [getElem?_insert'] at hj
    split_ifs at hj
    · exact hhalf dbSnapshot since (Option.some.inj hj)
    · exact hs.half j dbSnapshot since hj
  isolated j snapshot since hj := by
    rw [getElem?_insert'] at hj
    split_ifs at hj
    · exact hdone snapshot since (Option.some.inj hj)
    · exact hs.isolated j snapshot since hj

theorem inv_step {s' : System} {a : SystemAction} (hs : s.Inv) (hcalm : s.calm a = true)
    (h : s.step a = some s') : s'.Inv := by
  cases a with
  | writer a =>
    obtain ⟨machine, hmachine, rfl⟩ := Option.map_eq_some_iff.1 h
    exact inv_writer hs (.of_step hmachine) hcalm
  | getSnapshot i =>
    simp only [step] at h
    split at h
    · cases h
      refine inv_insert hs (fun dbSnapshot since hreader => ?_) fun snapshot since hreader => ?_
      · obtain ⟨rfl, rfl⟩ := Reader.half.inj hreader
        exact ⟨Nat.le_refl _, hs.contents⟩
      · cases hreader
    · cases h
  | takeCache i =>
    simp only [step] at h
    split at h
    · rename_i dbSnapshot since hi
      cases h
      refine inv_insert hs (fun _ _ hreader => ?_) fun snapshot since' hreader => ?_
      · cases hreader
      · obtain ⟨rfl, rfl⟩ := Reader.done.inj hreader
        obtain ⟨hsince, hview⟩ := hs.half i dbSnapshot since hi
        exact ⟨s.log.length, hsince, Nat.le_refl _, hview⟩
    · cases h
  | release i =>
    simp only [step] at h
    split at h
    · cases h
      refine ⟨hs.settled, hs.contents, fun j dbSnapshot since hj => ?_,
        fun j snapshot since hj => ?_⟩
      · rw [getElem?_erase'] at hj
        split_ifs at hj
        exact hs.half j dbSnapshot since hj
      · rw [getElem?_erase'] at hj
        split_ifs at hj
        exact hs.isolated j snapshot since hj
    · cases h

theorem inv_run {s' : System} {as : List SystemAction} (hs : s.Inv) (hcalm : s.calmRun as = true)
    (h : s.run as = some s') : s'.Inv := by
  induction as generalizing s with
  | nil =>
    cases h
    exact hs
  | cons a as ih =>
    obtain ⟨s₁, hstep, hrun⟩ := Option.bind_eq_some_iff.1 h
    rw [calmRun, hstep, Bool.and_eq_true] at hcalm
    exact ih (inv_step hs hcalm.1 hstep) hcalm.2 hrun

/-- Does the snapshot of a reader have the key? -/
def sees (s : System) (i : Nat) (key : Bytes) : Bool :=
  match s.readers[i]? with
  | some (.done snapshot _) => snapshot.view.contains (bucketizedKey sampleBucket key)
  | _ => false

/-- **Snapshots are isolated in every calm run.**  Interleave the actions of write transactions,
flushes and the beginning of read transactions in any way, as long as no flush clears the cache, or
writes a transaction past it, while a snapshot is half taken.  Then every read transaction sees the
contents after some prefix of the committed transactions. -/
theorem snapshots_isolated (db : Db) {as : List SystemAction} {s : System}
    (hcalm : (init db).calmRun as = true) (hrun : (init db).run as = some s) : s.Isolated :=
  (inv_run (inv_init db) hcalm hrun).isolated

end System

end

/-! ## Runs on a new database -/

namespace System

attribute [local instance] Memory.leveldb

/-- A transaction that puts a key, up to the point where its edits are to be committed. -/
def putting (key : Bytes) : List SystemAction :=
  [.writer .begin, .writer (.op (.put sampleBucket key [1])), .writer .commit]

/-- A reader begins while a transaction goes to the cache, and another after a flush. -/
def quietFlush : List SystemAction :=
  putting [1] ++ [.writer .cacheTx] ++ [.getSnapshot 0] ++ putting [2] ++ [.writer .cacheTx] ++
    [.takeCache 0] ++ putting [3] ++
    [.writer .sync, .writer .merge, .writer .clear, .writer .writeThrough] ++
    [.getSnapshot 1, .takeCache 1]

theorem snapshots_isolated_quietFlush :
    ∃ s, (init emptyDb).run quietFlush = some s ∧ s.sees 0 [2] = true ∧ s.sees 1 [3] = true ∧
      s.Isolated := by
  refine ⟨((init emptyDb).run quietFlush).get (by decide +kernel), (Option.some_get _).symm, ?_, ?_,
    snapshots_isolated emptyDb (by decide +kernel) (Option.some_get _).symm⟩
  · decide +kernel
  · decide +kernel

/-- The first key is in the cache when a reader takes its leveldb snapshot.  The second transaction
flushes the cache, the third goes to the new cache, and only then the reader takes the cache. -/
def lostUpdate : List SystemAction :=
  putting [1] ++ [.writer .cacheTx] ++ [.getSnapshot 0] ++
    putting [2] ++ [.writer .sync, .writer .merge, .writer .clear, .writer .writeThrough] ++
    putting [3] ++ [.writer .cacheTx] ++ [.takeCache 0]

/-- **The reader of `lostUpdate` sees the third transaction and not the first.** -/
theorem lostUpdate_not_isolated :
    ∃ s, (init emptyDb).run lostUpdate = some s ∧ s.sees 0 [3] = true ∧ s.sees 0 [1] = false ∧
      ¬ s.Isolated := by
  have hrun : ∃ s, (init emptyDb).run lostUpdate = some s ∧ s.sees 0 [3] = true ∧
      s.sees 0 [1] = false ∧ s.log.length = 3 ∧
      ∀ n < 4, (s.contentsAfter n).contains (bucketizedKey sampleBucket [3]) = true →
        (s.contentsAfter n).contains (bucketizedKey sampleBucket [1]) = true := by
    refine ⟨((init emptyDb).run lostUpdate).get (by decide +kernel), (Option.some_get _).symm, ?_⟩
    decide +kernel
  obtain ⟨s, hs, h3, h1, hlog, hbounds⟩ := hrun
  refine ⟨s, hs, h3, h1, fun hisolated => ?_⟩
  rw [sees] at h1 h3
  split at h3
  · rename_i snapshot since hreader
    obtain ⟨n, -, hn, hview⟩ := hisolated 0 snapshot since hreader
    rw [hreader] at h1
    simp only [hview] at h1 h3
    rw [hbounds n (by omega) h3] at h1
    cases h1
  · cases h3

end System

end Obtcd.Ffldb
