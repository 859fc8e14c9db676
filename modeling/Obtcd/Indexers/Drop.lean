import Obtcd.Indexers.Catalogue
import Obtcd.Ledger

/-!
# Dropping an index

`dropIndex` deletes an index in many transactions.  The first one leaves a marker beside the index's
tip, so that a drop that is stopped can be resumed on the next start; then the buckets of the index
go, deepest first, each after its keys, and the last transaction removes tip and marker.
`maybeFinishDrops` is what resumes it.

A catalogue with every bucket once, and each before those nested in it, is gone through from its end
without a failure (`exec_forM_dropBucket`): a bucket whose turn it is has nothing nested in it any
more.  A catalogue that has been gone through has no entry twice (`nodup_of_exec_forM`): a bucket
that is dropped was there, and is not any more.
-/

namespace Obtcd

open Prog List

namespace Indexers

open BucketTree Metadata

/-- The part of the interface that a drop uses. -/
structure Indexer where
  key : Bytes
  name : String

def indexTipsBucketName : Bytes := bytesOf "idxtips"

/-- The path of the bucket with the tips. -/
def tipsPath : List Bytes := [indexTipsBucketName]

def txIndexName : String := "transaction index"

def idByHashIndexBucketName : Bytes := bytesOf "idbyhashidx"

def hashByIDIndexBucketName : Bytes := bytesOf "hashbyididx"

def indexDropKey (idxKey : Bytes) : Bytes := 0x64 :: idxKey

def errInterruptRequested : GoError := .other "interrupt requested"

/-- Has the channel been closed, after so many commits? -/
def interruptRequested (interrupt : Nat → Bool) : DbM Bool := do
  return interrupt (← get).commits.length

/-! ## One bucket -/

def maxDeletions : Nat := 2000000

/-- The loop of one transaction over the cursor: the entries that are left, and how many were
deleted. -/
def deleteEntries (limit : Nat) : OrdMap Bytes Bytes → Nat → List Metadata.CursorItem →
    Except GoError (OrdMap Bytes Bytes × Nat)
  | entries, numDeleted, [] => .ok (entries, numDeleted)
  | _, _, .bucket _ :: _ => .error (.other "buckets may not be deleted from a cursor")
  | entries, numDeleted, .key k :: items =>
    if numDeleted + 1 < limit then deleteEntries limit (entries.erase k) (numDeleted + 1) items
    else .ok (entries.erase k, numDeleted + 1)

/-- One transaction that deletes keys of a bucket. -/
def deletePass (limit : Nat) (bucketName : List Bytes) (db : Metadata) :
    Except GoError (Metadata × Nat) := do
  let subBucket ← bucketAt db rootBucket bucketName
  let p ← subBucket.deref
  let r ← deleteEntries limit (entriesOf db p) 0 (cursor db p)
  return (db.setEntries p r.1, r.2)

/-- Delete the keys of a bucket, so many at a time.  There are no more passes than keys, and one. -/
def deleteKeys (limit : Nat) (bucketName : List Bytes) : Nat → DbM Unit
  | 0 => pure ()
  | passes + 1 => do
    let numDeleted ← updateGet (deletePass limit bucketName)
    if numDeleted = limit then deleteKeys limit bucketName passes else pure ()

/-- The transaction that drops a bucket. -/
def deleteLast (bucketName : List Bytes) (db : Metadata) : Except GoError Metadata := do
  let bucket ← bucketAt db rootBucket bucketName.dropLast
  match bucketName.getLast? with
  | none => .error (.panic "runtime error: index out of range [-1]")
  | some key => deleteBucket db bucket key

/-- Run a transaction without looking at its error.  A panic is not an error value. -/
def ignoreError (x : DbM Unit) : DbM Unit := do
  match ← attempt x with
  | .error (.panic text) => throw (.panic text)
  | _ => pure ()

/-- What `dropIndex` does for one entry of the catalogue. -/
def dropBucket (interrupt : Nat → Bool) (bucketName : List Bytes) : DbM Unit := do
  let s ← get
  deleteKeys maxDeletions bucketName ((entriesOf s.cur bucketName).size + 1)
  if ← interruptRequested interrupt then throw errInterruptRequested
  ignoreError (update (deleteLast bucketName))

/-! ## The drop -/

def dropBlockIDIndex : DbM Unit := update fun db => do
  let db ← deleteBucket db rootBucket idByHashIndexBucketName
  deleteBucket db rootBucket hashByIDIndexBucketName

/-- The transaction that marks the drop as in progress. -/
def markDrop (idxKey : Bytes) (db : Metadata) : Except GoError Metadata := do
  let indexesBucket ← bucket db rootBucket indexTipsBucketName
  put db indexesBucket (indexDropKey idxKey) idxKey

/-- The last transaction: tip and marker go. -/
def unmarkDrop (idxKey : Bytes) (db : Metadata) : Except GoError Metadata := do
  let indexesBucket ← bucket db rootBucket indexTipsBucketName
  let db ← delete db indexesBucket idxKey
  delete db indexesBucket (indexDropKey idxKey)

/-- What is particular to the transaction index. -/
def dropExtra (idxName : String) : DbM Unit :=
  if idxName = txIndexName then dropBlockIDIndex else pure ()

/-- The part of `dropIndex` that follows the catalogue. -/
def dropBuckets (interrupt : Nat → Bool) (idxKey : Bytes) (idxName : String)
    (subBuckets : List (List Bytes)) : DbM Unit := do
  subBuckets.reverse.forM (dropBucket interrupt)
  dropExtra idxName
  update (unmarkDrop idxKey)

/-- Is there an index to drop? -/
def needsDelete (idxKey : Bytes) (db : Metadata) : Except GoError Bool := do
  let indexesBucket ← bucket db rootBucket indexTipsBucketName
  match indexesBucket with
  | none => return false
  | some _ => return (← get db indexesBucket idxKey).isSome

/-- The part of `dropIndex` that follows the marker.  An error of the transaction that makes the
catalogue is answered with success. -/
def dropMarked (grow : Nat → Nat) (interrupt : Nat → Bool) (idxKey : Bytes) (idxName : String) :
    DbM Unit := do
  match ← attempt (view fun db => catalogue grow db idxKey) with
  | .ok subBuckets => dropBuckets interrupt idxKey idxName subBuckets
  | .error (.panic text) => throw (.panic text)
  | .error _ => pure ()

def dropIndex (grow : Nat → Nat) (interrupt : Nat → Bool) (idxKey : Bytes) (idxName : String) :
    DbM Unit := do
  if ← view (needsDelete idxKey) then
    update (markDrop idxKey)
    dropMarked grow interrupt idxKey idxName

/-- Which of the indexes are in the middle of a drop? -/
def indexNeedsDrop (enabledIndexes : List Indexer) (db : Metadata) : Except GoError (List Bool) := do
  let indexesBucket ← bucket db rootBucket indexTipsBucketName
  match indexesBucket with
  | none => return enabledIndexes.map fun _ => false
  | some _ => enabledIndexes.mapM fun indexer => do
      return (← get db indexesBucket (indexDropKey indexer.key)).isSome

def maybeFinishDrops (grow : Nat → Nat) (interrupt : Nat → Bool) (enabledIndexes : List Indexer) :
    DbM Unit := do
  let needsDrop ← view (indexNeedsDrop enabledIndexes)
  if ← interruptRequested interrupt then throw errInterruptRequested
  (enabledIndexes.zip needsDrop).forM fun x =>
    if x.2 then dropIndex grow interrupt x.1.key x.1.name else pure ()

/-! ## Transactions that succeed -/

theorem exec_view {α : Type} (f : Metadata → Except GoError α) (s : Store Metadata GoError) :
    exec (view f) s = (f s.cur, s) := by
  rw [view, exec_get_bind, exec_ofExcept]

variable {s : Store Metadata GoError}

theorem exec_update_of_ok {f : Metadata → Except GoError Metadata} {d : Metadata}
    (hf : f s.cur = .ok d) (hans : s.answers = []) :
    exec (update f) s = (.ok (), s.commit d) := Store.exec_update_of_ok hf hans

theorem exec_updateGet_of_ok {α : Type} {f : Metadata → Except GoError (Metadata × α)}
    {d : Metadata} {a : α} (hf : f s.cur = .ok (d, a)) (hans : s.answers = []) :
    exec (updateGet f) s = (.ok a, s.commit d) := by
  have hview : exec (view f) s = (.ok (d, a), s) := by rw [exec_view, hf]
  have hupd : exec (update fun _ => .ok d) s = (.ok (), s.commit d) := exec_update_of_ok rfl hans
  rw [updateGet, exec_bind_of_ok hview, exec_bind_of_ok hupd]
  rfl

variable {s' : Store Metadata GoError}

/-- What a transaction with a result did when it succeeded. -/
theorem exec_updateGet_eq_ok {α : Type} {f : Metadata → Except GoError (Metadata × α)} {a : α}
    (h : exec (updateGet f) s = (.ok a, s')) : ∃ d, f s.cur = .ok (d, a) ∧ s' = s.commit d := by
  rw [updateGet, exec_bind_eq_ok] at h
  obtain ⟨r, s₁, hview, h⟩ := h
  rw [exec_view] at hview
  obtain ⟨hf, rfl⟩ := Prod.mk.inj hview
  obtain ⟨u, s₂, hupd, h⟩ := exec_bind_eq_ok.1 h
  obtain ⟨ha, rfl⟩ := Prod.mk.inj h
  rcases Store.exec_update (fun _ => .ok r.1) s with ⟨d, hd, hrun⟩ | ⟨e, s₃, hrun, -⟩
  · obtain rfl : r.1 = d := Except.ok.inj hd
    have heq : (Except.ok u, s₂) = (Except.ok (), s.commit r.1) := hupd.symm.trans hrun
    exact ⟨r.1, by rw [hf, ← Except.ok.inj ha], (Prod.mk.inj heq).2⟩
  · have heq : (Except.ok u, s₂) = (Except.error e, s₃) := hupd.symm.trans hrun
    cases heq

@[simp] theorem cur_commit (s : Store Metadata GoError) (d : Metadata) : (s.commit d).cur = d := rfl

theorem answers_commit (d : Metadata) (hans : s.answers = []) :
    (s.commit d).answers = [] := by rw [Store.commit, hans]; rfl

/-! ## Deleting the keys of a bucket -/

variable {limit : Nat}

theorem deleteEntries_keys (keys : List Bytes) (e : OrdMap Bytes Bytes) {n : Nat} (hn : n < limit) :
    deleteEntries limit e n (keys.map .key) =
      .ok ((keys.take (limit - n)).foldl (fun m k => m.erase k) e,
        n + min keys.length (limit - n)) := by
  induction keys generalizing e n with
  | nil => simp [deleteEntries]
  | cons k keys ih =>
    rw [map_cons, deleteEntries]
    by_cases hlt : n + 1 < limit
    · have hsub : limit - n = limit - (n + 1) + 1 := by omega
      rw [if_pos hlt, ih (e.erase k) hlt, hsub, take_succ_cons, foldl_cons, length_cons]
      congr 2
      omega
    · have hsub : limit - n = 1 := by omega
      rw [if_neg hlt, hsub, take_succ_cons, take_zero, length_cons]
      congr 2
      omega

variable {q : List Bytes} {e : OrdMap Bytes Bytes}

/-- One pass over a bucket with nothing nested in it. -/
theorem deletePass_of_entries {db : Metadata} (he : db.entries? q = some e)
    (hsub : db.subBuckets q = []) (hlimit : 0 < limit) : deletePass limit q db =
      .ok (db.setEntries q ((e.keys.take limit).foldl (fun m k => m.erase k) e),
        min e.keys.length limit) := by
  have hfound : bucketAt db rootBucket q = .ok (some q) :=
    bucketAt_of_mem (p := []) (mem_of_entries? he)
  have hentries : entriesOf db q = e := by rw [entriesOf, he]; rfl
  have hcursor : cursor db q = e.keys.map .key := by
    rw [cursor, hentries, hsub, map_nil, append_nil]
  rw [deletePass, hfound, ok_bind, Handle.deref, ok_bind, hentries, hcursor,
    deleteEntries_keys e.keys e hlimit, ok_bind, Nat.sub_zero, Nat.zero_add]
  rfl

theorem size_erase_keys_lt (hlimit : 0 < limit) (hle : limit ≤ e.keys.length) :
    ((e.keys.take limit).foldl (fun m k => m.erase k) e).size < e.size := by
  obtain ⟨limit, rfl⟩ := Nat.exists_eq_succ_of_ne_zero hlimit.ne'
  cases hkeys : e.keys with
  | nil =>
    rw [hkeys] at hle
    cases hle
  | cons k keys =>
    have hk : e.contains k = true :=
      Std.ExtTreeMap.contains_iff_mem.2 (Std.ExtTreeMap.mem_keys.1 (hkeys ▸ mem_cons_self ..))
    have hlen : e.keys.length = e.size := Std.ExtTreeMap.length_keys
    have hsize := OrdMap.size_foldl_erase_le (keys.take limit) (e.erase k)
    rw [Std.ExtTreeMap.size_erase, if_pos hk] at hsize
    rw [hkeys, length_cons] at hlen
    rw [take_succ_cons, foldl_cons]
    omega

/-- The passes over a bucket with nothing nested in it leave it empty. -/
theorem exec_deleteKeys {passes : Nat} (he : s.cur.entries? q = some e)
    (hsub : ∀ k, q ++ [k] ∉ s.cur) (hans : s.answers = []) (hlimit : 0 < limit)
    (hpasses : e.size < passes) :
    ∃ s', exec (deleteKeys limit q passes) s = (.ok (), s') ∧ s'.cur = s.cur.setEntries q ∅ ∧
      s'.answers = [] := by
  induction passes generalizing s e with
  | zero => omega
  | succ passes ih =>
    have hq := mem_of_entries? he
    have hpass := deletePass_of_entries he (subBuckets_eq_nil hsub) hlimit
    set e' := (e.keys.take limit).foldl (fun m k => m.erase k) e with he'
    have hrun := exec_updateGet_of_ok hpass hans
    rw [deleteKeys, exec_bind_of_ok hrun]
    by_cases hfull : min e.keys.length limit = limit
    · -- A full pass deletes something, so there are fewer keys for the passes that are left.
      rw [if_pos hfull]
      have hlt : e'.size < e.size := size_erase_keys_lt hlimit (by omega)
      obtain ⟨s', hrun', hcur, hans'⟩ := ih (s := s.commit (s.cur.setEntries q e')) (e := e')
        (by rw [cur_commit, entries?_setEntries hq, if_pos rfl])
        (fun k hk => hsub k ((mem_setEntries ..).1 hk)) (answers_commit _ hans) (by omega)
      refine ⟨s', hrun', ?_, hans'⟩
      rw [hcur, cur_commit, setEntries_setEntries hq]
    · rw [if_neg hfull]
      have hempty : e' = ∅ := by
        rw [he', take_of_length_le (by omega)]
        refine OrdMap.foldl_erase_eq_empty fun k v hv => Std.ExtTreeMap.mem_keys.2 ?_
        rw [Std.ExtTreeMap.mem_iff_isSome_getElem?, hv, Option.isSome_some]
      exact ⟨_, rfl, by rw [cur_commit, hempty], answers_commit _ hans⟩

/-! ## Dropping the buckets of a catalogue -/

/-- The channel of a start that is not interrupted. -/
def uninterrupted : Nat → Bool := fun _ => false

theorem exec_ignoreError_of_ok {x : DbM Unit} (h : exec x s = (.ok (), s')) :
    exec (ignoreError x) s = (.ok (), s') := by
  have hatt : exec (attempt x) s = (.ok (.ok ()), s') := by rw [exec_attempt, h]
  rw [ignoreError, exec_bind_of_ok hatt]
  rfl

theorem deleteLast_of_mem {db : Metadata} {p : List Bytes} {k : Bytes} (h : p ++ [k] ∈ db) :
    deleteLast (p ++ [k]) db = .ok (db.removeBucket p k) := by
  have hp : bucketAt db rootBucket p = .ok (some p) :=
    bucketAt_of_mem (p := []) (mem_of_append_singleton h)
  rw [deleteLast, dropLast_concat, hp, ok_bind, List.getLast?_concat]
  show deleteBucket db (some p) k = _
  rw [deleteBucket, Handle.deref, ok_bind, if_pos h]

theorem exec_interruptRequested (s : Store Metadata GoError) :
    exec (interruptRequested uninterrupted) s = (.ok false, s) := rfl

/-- Dropping a bucket with nothing nested in it. -/
theorem exec_dropBucket {p : List Bytes} {k : Bytes} (hk : p ++ [k] ∈ s.cur)
    (hsub : ∀ k', p ++ [k] ++ [k'] ∉ s.cur) (hans : s.answers = []) :
    ∃ s', exec (dropBucket uninterrupted (p ++ [k])) s = (.ok (), s') ∧
      s'.cur = s.cur.removeBucket p k ∧ s'.answers = [] := by
  obtain ⟨e, he⟩ := exists_entries? hk
  have hsize : e.size < (entriesOf s.cur (p ++ [k])).size + 1 := by
    rw [entriesOf, he]
    exact Nat.lt_succ_self _
  have hlimit : 0 < maxDeletions := by decide
  obtain ⟨s₁, hkeys, hcur, hans₁⟩ := exec_deleteKeys he hsub hans hlimit hsize
  have hk₁ : p ++ [k] ∈ s₁.cur := by rwa [hcur, mem_setEntries]
  have hdel := exec_ignoreError_of_ok (exec_update_of_ok (deleteLast_of_mem hk₁) hans₁)
  refine ⟨_, ?_, ?_, answers_commit (s₁.cur.removeBucket p k) hans₁⟩
  · rwa [dropBucket, exec_get_bind, exec_bind_of_ok hkeys,
      exec_bind_of_ok (exec_interruptRequested s₁)]
  · refine ext' fun q => ?_
    rw [cur_commit, entries?_removeBucket, entries?_removeBucket, hcur, entries?_setEntries hk]
    by_cases hq : p ++ [k] <+: q
    · rw [if_pos hq, if_pos hq]
    · have hne : p ++ [k] ≠ q := by
        rintro rfl
        exact hq (prefix_refl _)
      rw [if_neg hq, if_neg hq, if_neg hne]

/-- Dropping the buckets at and below a path, deepest first. -/
theorem exec_forM_dropBucket {top : Bytes} {names : List (List Bytes)}
    (hnames : ∀ q, q ∈ names ↔ q ∈ s.cur ∧ [top] <+: q)
    (horder : names.Pairwise fun q q' => ¬ q' <+: q) (hans : s.answers = []) :
    ∃ s', exec (names.reverse.forM (dropBucket uninterrupted)) s = (.ok (), s') ∧
      (∀ q, s'.cur.entries? q = if [top] <+: q then none else s.cur.entries? q) ∧
      s'.answers = [] := by
  induction names using List.reverseRecOn generalizing s with
  | nil =>
    refine ⟨s, rfl, fun q => ?_, hans⟩
    split
    · next hq => exact entries?_of_not_mem fun hmem => by simpa using (hnames q).2 ⟨hmem, hq⟩
    · rfl
  | append_singleton names name ih =>
    obtain ⟨hrest, -, hlast⟩ := pairwise_append.1 horder
    obtain ⟨hname, htop⟩ := (hnames name).1 (by simp)
    obtain ⟨p, k, rfl⟩ : ∃ p k, name = p ++ [k] := by
      rcases eq_nil_or_concat name with rfl | ⟨p, k, rfl⟩
      · exact absurd htop (by simp)
      · exact ⟨p, k, concat_eq_append ..⟩
    -- What extends the last name is in the list, where it cannot come before that name.
    have hdeep : ∀ q ∈ s.cur, p ++ [k] <+: q → q = p ++ [k] := by
      intro q hq hpre
      rcases mem_append.1 ((hnames q).2 ⟨hq, htop.trans hpre⟩) with hmem | hmem
      · exact absurd hpre (hlast q hmem _ (mem_singleton.2 rfl))
      · exact mem_singleton.1 hmem
    obtain ⟨s₁, hrun, hcur, hans₁⟩ := exec_dropBucket hname
      (fun k' hk' => by simpa using hdeep _ hk' (prefix_append _ [k'])) hans
    have hmem₁ : ∀ q, q ∈ names ↔ q ∈ s₁.cur ∧ [top] <+: q := by
      intro q
      rw [hcur, mem_removeBucket]
      constructor
      · intro hq
        obtain ⟨hqs, hqtop⟩ := (hnames q).1 (mem_append_left _ hq)
        exact ⟨⟨hqs, hlast q hq _ (mem_singleton.2 rfl)⟩, hqtop⟩
      · rintro ⟨⟨hqs, hne⟩, hqtop⟩
        rcases mem_append.1 ((hnames q).2 ⟨hqs, hqtop⟩) with hmem | hmem
        · exact hmem
        · exact absurd (mem_singleton.1 hmem ▸ prefix_refl _) hne
    obtain ⟨s', hrun', hentries, hans'⟩ := ih hmem₁ hrest hans₁
    refine ⟨s', ?_, fun q => ?_, hans'⟩
    · rw [reverse_append, reverse_singleton, singleton_append]
      exact (exec_bind_of_ok hrun).trans hrun'
    · rw [hentries, hcur, entries?_removeBucket]
      by_cases hq : [top] <+: q
      · rw [if_pos hq, if_pos hq]
      · rw [if_neg hq, if_neg hq, if_neg fun hpre => hq (htop.trans hpre)]

/-! ## Where a drop fails -/

/-- Passes over a bucket that succeed found it, and leave all buckets where they are. -/
theorem mem_of_exec_deleteKeys {passes : Nat}
    (h : exec (deleteKeys limit q passes) s = (.ok (), s')) (hans : s.answers = []) :
    (0 < passes → q ∈ s.cur) ∧ (∀ r, r ∈ s'.cur ↔ r ∈ s.cur) ∧ s'.answers = [] := by
  induction passes generalizing s with
  | zero =>
    cases h
    exact ⟨by omega, fun r => Iff.rfl, hans⟩
  | succ passes ih =>
    obtain ⟨n, s₁, hpass, hrest⟩ := exec_bind_eq_ok.1 h
    obtain ⟨d, hd, rfl⟩ := exec_updateGet_eq_ok hpass
    rw [deletePass] at hd
    obtain ⟨b, hb, hd⟩ := bind_eq_ok.1 hd
    obtain ⟨p, hp, hd⟩ := bind_eq_ok.1 hd
    obtain ⟨r, -, hd⟩ := bind_eq_ok.1 hd
    cases hd
    cases b with
    | none => cases hp
    | some b =>
      obtain rfl : b = p := Except.ok.inj hp
      obtain ⟨rfl, hq⟩ := mem_of_bucketAt (nil_mem s.cur) hb
      refine ⟨fun _ => hq, ?_⟩
      split at hrest
      · obtain ⟨-, hmem, hans'⟩ := ih hrest (answers_commit _ hans)
        exact ⟨fun t => by rw [hmem, cur_commit, mem_setEntries], hans'⟩
      · cases hrest
        exact ⟨fun t => by rw [cur_commit, mem_setEntries], answers_commit _ hans⟩

/-- A bucket that was dropped was there, and is not any more. -/
theorem mem_of_exec_dropBucket (h : exec (dropBucket uninterrupted q) s = (.ok (), s'))
    (hans : s.answers = []) :
    q ∈ s.cur ∧ q ∉ s'.cur ∧ (∀ r ∈ s'.cur, r ∈ s.cur) ∧ s'.answers = [] := by
  rw [dropBucket, exec_get_bind] at h
  obtain ⟨u, s₁, hkeys, h⟩ := exec_bind_eq_ok.1 h
  obtain ⟨hq, hmem, hans₁⟩ := mem_of_exec_deleteKeys hkeys hans
  replace hq := hq (Nat.succ_pos _)
  rw [exec_bind_of_ok (exec_interruptRequested s₁)] at h
  have hq₁ : q ∈ s₁.cur := (hmem q).2 hq
  rcases eq_nil_or_concat q with rfl | ⟨p, k, rfl⟩
  · cases h
  · rw [concat_eq_append] at hq hq₁ h ⊢
    have hdel := exec_ignoreError_of_ok (exec_update_of_ok (deleteLast_of_mem hq₁) hans₁)
    cases hdel.symm.trans h
    refine ⟨hq, ?_, ?_, answers_commit _ hans₁⟩
    · rw [cur_commit, mem_removeBucket]
      exact fun hno => hno.2 (prefix_refl _)
    · intro r hr
      rw [cur_commit, mem_removeBucket] at hr
      exact (hmem r).1 hr.1

/-- A catalogue that was gone through has no entry twice. -/
theorem nodup_of_exec_forM {names : List (List Bytes)}
    (h : exec (names.forM (dropBucket uninterrupted)) s = (.ok (), s')) (hans : s.answers = []) :
    names.Nodup ∧ (∀ q ∈ names, q ∈ s.cur) ∧ ∀ q ∈ s'.cur, q ∈ s.cur := by
  induction names generalizing s with
  | nil =>
    cases h
    exact ⟨nodup_nil, by simp, fun q hq => hq⟩
  | cons name names ih =>
    obtain ⟨u, s₁, hname, hrest⟩ := exec_bind_eq_ok.1 h
    obtain ⟨hmem, hgone, hsub, hans₁⟩ := mem_of_exec_dropBucket hname hans
    obtain ⟨hnodup, hall, hsub'⟩ := ih hrest hans₁
    refine ⟨nodup_cons.2 ⟨fun hin => hgone (hall name hin), hnodup⟩, ?_, ?_⟩
    · intro q hq
      rcases mem_cons.1 hq with rfl | hq
      · exact hmem
      · exact hsub q (hall q hq)
    · exact fun q hq => hsub q (hsub' q hq)

/-- The block ids are dropped only where both of their buckets are. -/
theorem mem_of_exec_dropBlockIDIndex (h : exec dropBlockIDIndex s = (.ok (), s')) :
    [idByHashIndexBucketName] ∈ s.cur ∧ [hashByIDIndexBucketName] ∈ s.cur := by
  rcases Store.exec_update (fun db : Metadata => (do
      let db ← deleteBucket db rootBucket idByHashIndexBucketName
      deleteBucket db rootBucket hashByIDIndexBucketName :
        Except GoError Metadata)) s with ⟨d, hd, -⟩ | ⟨e, s₁, hrun, -⟩
  · obtain ⟨d₁, hid, hhash⟩ := bind_eq_ok.1 hd
    rw [deleteBucket, rootBucket, Handle.deref, ok_bind] at hid hhash
    split at hid
    · next hmem =>
      cases hid
      split at hhash
      · next hmem' => exact ⟨hmem, (mem_removeBucket.1 hmem').1⟩
      · cases hhash
    · cases hid
  · have heq := h.symm.trans hrun
    cases heq

end Indexers

end Obtcd
