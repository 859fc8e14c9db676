import Mathlib.Data.List.Nodup
import Obtcd.Indexers.Drop

/-!
# Resuming a drop

What a drop that is stopped leaves behind is one of the states that its run has committed.  As long
as the marker is there, such a state is the database before the drop, with the marker and without
some part of the index (`Dropping`, from `commits_dropIndex`).  From there the resumed drop has to
make its catalogue again, of what is left.

It ends with the index gone and everything else as it was (`Dropped`) if the index's own bucket is
left and the catalogue of what is left is right; without the bucket it crashes, and so it does in the
middle of the work when the catalogue has an entry twice.  So a drop that is stopped after its bucket
has gone and before tip and marker have cannot be resumed: every start that follows crashes.
-/

namespace Obtcd

open BucketTree Prog List

namespace Indexers

open Metadata

/-! ## The parts of an index -/

/-- The buckets of an index: its own and those nested in it, and for the transaction index those of
the block ids. -/
def Owned (idxKey : Bytes) (idxName : String) (q : List Bytes) : Prop :=
  [idxKey] <+: q ∨
    idxName = txIndexName ∧ ([idByHashIndexBucketName] <+: q ∨ [hashByIDIndexBucketName] <+: q)

instance (idxKey : Bytes) (idxName : String) (q : List Bytes) :
    Decidable (Owned idxKey idxName q) := inferInstanceAs (Decidable (_ ∨ _))

/-- The bucket of an index is its own, and not one the index manager uses for something else. -/
structure Separate (idxKey : Bytes) (idxName : String) : Prop where
  ne_nil : idxKey ≠ []
  ne_tips : idxKey ≠ indexTipsBucketName
  ne_blockIDs : idxName = txIndexName →
    idxKey ≠ idByHashIndexBucketName ∧ idxKey ≠ hashByIDIndexBucketName

/-- A drop of the index is in progress: the database is what it was before, with the marker, and
without what has been deleted of the index. -/
structure Dropping (idxKey : Bytes) (idxName : String) (before db : Metadata) : Prop where
  tips : db.entries? tipsPath =
    some ((entriesOf before tipsPath).insert (indexDropKey idxKey) idxKey)
  tip : (before.get? tipsPath idxKey).isSome = true
  outside : ∀ q, ¬ Owned idxKey idxName q → q ≠ tipsPath → db.entries? q = before.entries? q

/-- The index has been dropped: nothing is left of it, and all else is what it was before. -/
structure Dropped (idxKey : Bytes) (idxName : String) (before db : Metadata) : Prop where
  gone : ∀ q, Owned idxKey idxName q → q ∉ db
  tips : db.entries? tipsPath =
    some (((entriesOf before tipsPath).erase idxKey).erase (indexDropKey idxKey))
  outside : ∀ q, ¬ Owned idxKey idxName q → q ≠ tipsPath → db.entries? q = before.entries? q

section parts

variable {idxKey : Bytes} {idxName : String}

theorem singleton_prefix_singleton {k k' : Bytes} : [k] <+: [k'] ↔ k = k' := by simp

theorem Separate.not_owned_tips (hsep : Separate idxKey idxName) : ¬ Owned idxKey idxName tipsPath := by
  rintro (h | ⟨-, h | h⟩)
  · exact hsep.ne_tips (singleton_prefix_singleton.1 h)
  · exact absurd (singleton_prefix_singleton.1 h) (by decide +kernel)
  · exact absurd (singleton_prefix_singleton.1 h) (by decide +kernel)

variable {e : OrdMap Bytes Bytes} {db : Metadata}

theorem bucket_tips (h : db.entries? tipsPath = some e) :
    bucket db rootBucket indexTipsBucketName = .ok (some tipsPath) := by
  have hmem : [] ++ [indexTipsBucketName] ∈ db := mem_of_entries? h
  rw [rootBucket, bucket_some, if_pos hmem]
  rfl

variable {p : List Bytes}

theorem entriesOf_of_entries? (h : db.entries? p = some e) :
    entriesOf db p = e := by rw [entriesOf, h]; rfl

theorem markDrop_of_tips (h : db.entries? tipsPath = some e) :
    markDrop idxKey db = .ok (db.setEntries tipsPath (e.insert (indexDropKey idxKey) idxKey)) := by
  rw [markDrop, bucket_tips h, ok_bind, put, Handle.deref, ok_bind,
    if_neg (by simp [indexDropKey]), entriesOf_of_entries? h]

theorem unmarkDrop_of_tips (hne : idxKey ≠ []) (h : db.entries? tipsPath = some e) :
    unmarkDrop idxKey db =
      .ok (db.setEntries tipsPath ((e.erase idxKey).erase (indexDropKey idxKey))) := by
  have hmem := mem_of_entries? h
  have hset : (db.setEntries tipsPath (e.erase idxKey)).entries? tipsPath = some (e.erase idxKey) := by
    rw [entries?_setEntries hmem, if_pos rfl]
  have hdel : delete db (some tipsPath) idxKey = .ok (db.setEntries tipsPath (e.erase idxKey)) := by
    rw [delete, Handle.deref, ok_bind, if_neg hne, entriesOf_of_entries? h]
  rw [unmarkDrop, bucket_tips h, ok_bind, hdel, ok_bind, delete, Handle.deref, ok_bind,
    if_neg (by simp [indexDropKey]), entriesOf_of_entries? hset, setEntries_setEntries hmem]

theorem needsDelete_of_tips (hne : idxKey ≠ []) (h : db.entries? tipsPath = some e) :
    needsDelete idxKey db = .ok (e[idxKey]?).isSome := by
  rw [needsDelete, bucket_tips h, ok_bind]
  rw [Metadata.get, Handle.deref, ok_bind, if_neg hne, get?_of_entries? h]
  rfl

/-- Only an index whose tip is there is dropped. -/
theorem tips_of_needsDelete (hne : idxKey ≠ []) (h : needsDelete idxKey db = .ok true) :
    ∃ e, db.entries? tipsPath = some e ∧ (e[idxKey]?).isSome = true := by
  by_cases hmem : tipsPath ∈ db
  · obtain ⟨e, he⟩ := exists_entries? hmem
    rw [needsDelete_of_tips hne he] at h
    exact ⟨e, he, Except.ok.inj h⟩
  · have hbucket : bucket db rootBucket indexTipsBucketName = .ok none := by
      rw [rootBucket, bucket_some]
      exact congrArg Except.ok (if_neg hmem)
    rw [needsDelete, hbucket] at h
    cases h

/-! ## A drop that succeeds -/

variable {s : Store Metadata GoError}

theorem exec_dropBlockIDIndex (hid : [idByHashIndexBucketName] ∈ s.cur)
    (hhash : [hashByIDIndexBucketName] ∈ s.cur) (hans : s.answers = []) :
    exec dropBlockIDIndex s = (.ok (), s.commit
      ((s.cur.removeBucket [] idByHashIndexBucketName).removeBucket [] hashByIDIndexBucketName)) := by
  have hhash' : [hashByIDIndexBucketName] ∈ s.cur.removeBucket [] idByHashIndexBucketName := by
    refine mem_removeBucket.2 ⟨hhash, fun hpre => ?_⟩
    exact absurd (singleton_prefix_singleton.1 hpre) (by decide +kernel)
  refine exec_update_of_ok ?_ hans
  show (deleteBucket s.cur (some []) _ >>= fun db => deleteBucket db (some []) _) = _
  have hdel : deleteBucket s.cur (some []) idByHashIndexBucketName =
      .ok (s.cur.removeBucket [] idByHashIndexBucketName) := by
    rw [deleteBucket, Handle.deref, ok_bind]
    exact if_pos hid
  rw [hdel, ok_bind, deleteBucket, Handle.deref, ok_bind]
  exact if_pos hhash'

variable {names : List (List Bytes)}

/-- A right catalogue leads to the end of the drop. -/
theorem exec_dropBuckets {e : OrdMap Bytes Bytes} (hsep : Separate idxKey idxName)
    (hnames : ∀ q, q ∈ names ↔ q ∈ s.cur ∧ [idxKey] <+: q)
    (horder : names.Pairwise fun q q' => ¬ q' <+: q)
    (hids : idxName = txIndexName →
      [idByHashIndexBucketName] ∈ s.cur ∧ [hashByIDIndexBucketName] ∈ s.cur)
    (htips : s.cur.entries? tipsPath = some e) (hans : s.answers = []) :
    ∃ s', exec (dropBuckets uninterrupted idxKey idxName names) s = (.ok (), s') ∧
      ∀ q, s'.cur.entries? q =
        if Owned idxKey idxName q then none
        else if tipsPath = q then some ((e.erase idxKey).erase (indexDropKey idxKey))
        else s.cur.entries? q := by
  obtain ⟨s₁, hrun₁, hcur₁, hans₁⟩ := exec_forM_dropBucket hnames horder hans
  -- The buckets of the block ids, if the index has them.
  obtain ⟨s₂, hrun₂, hcur₂, hans₂⟩ : ∃ s₂,
      exec (dropExtra idxName) s₁ = (.ok (), s₂) ∧
        (∀ q, s₂.cur.entries? q = if Owned idxKey idxName q then none else s.cur.entries? q) ∧
        s₂.answers = [] := by
    by_cases htx : idxName = txIndexName
    · obtain ⟨hid, hhash⟩ := hids htx
      obtain ⟨hneid, hnehash⟩ := hsep.ne_blockIDs htx
      have hmem : ∀ {k : Bytes}, [k] ∈ s.cur → idxKey ≠ k → [k] ∈ s₁.cur := by
        intro k hk hne
        rwa [mem_iff, hcur₁, if_neg fun hpre => hne (singleton_prefix_singleton.1 hpre)]
      rw [dropExtra, if_pos htx]
      refine ⟨_, exec_dropBlockIDIndex (hmem hid hneid) (hmem hhash hnehash) hans₁, fun q => ?_,
        answers_commit _ hans₁⟩
      rw [cur_commit, entries?_removeBucket, entries?_removeBucket, hcur₁]
      simp only [Owned, htx, true_and, nil_append]
      by_cases h₁ : [idxKey] <+: q <;> by_cases h₂ : [idByHashIndexBucketName] <+: q <;>
        by_cases h₃ : [hashByIDIndexBucketName] <+: q <;> simp [h₁, h₂, h₃]
    · rw [dropExtra, if_neg htx]
      refine ⟨s₁, rfl, fun q => ?_, hans₁⟩
      rw [hcur₁]
      simp only [Owned, htx, false_and, or_false]
  have htips₂ : s₂.cur.entries? tipsPath = some e := by
    rw [hcur₂, if_neg hsep.not_owned_tips, htips]
  have hrun : exec (dropBuckets uninterrupted idxKey idxName names) s =
      exec (update (unmarkDrop idxKey)) s₂ := by
    rw [dropBuckets, exec_bind_of_ok hrun₁, exec_bind_of_ok hrun₂]
  rw [hrun, exec_update_of_ok (unmarkDrop_of_tips hsep.ne_nil htips₂) hans₂]
  refine ⟨_, rfl, fun q => ?_⟩
  rw [cur_commit, entries?_setEntries (mem_of_entries? htips₂), hcur₂]
  by_cases hq : tipsPath = q
  · rw [if_pos hq, if_pos hq, if_neg (hq ▸ hsep.not_owned_tips)]
  · rw [if_neg hq, if_neg hq]

/-! ## From the marker on -/

variable {interrupt : Nat → Bool} {grow : Nat → Nat}

theorem exec_dropMarked_of_ok (h : catalogue grow s.cur idxKey = .ok names) :
    exec (dropMarked grow interrupt idxKey idxName) s =
      exec (dropBuckets interrupt idxKey idxName names) s := by
  have hview : exec (attempt (view fun db => catalogue grow db idxKey)) s = (.ok (.ok names), s) := by
    rw [exec_attempt, exec_view, h]
  rw [dropMarked, exec_bind_of_ok hview]

theorem exec_dropMarked_of_not_mem (h : [idxKey] ∉ s.cur) :
    exec (dropMarked grow interrupt idxKey idxName) s = (.error nilDereference, s) := by
  have hview : exec (attempt (view fun db => catalogue grow db idxKey)) s =
      (.ok (.error nilDereference), s) := by
    rw [exec_attempt, exec_view, catalogue_of_not_mem h]
  rw [dropMarked, exec_bind_of_ok hview]
  rfl

/-! ## What a stop leaves behind -/

/-- What is true of all states that a drop commits: it is in progress, or the marker is gone. -/
def Midway (idxKey : Bytes) (idxName : String) (before db : Metadata) : Prop :=
  Dropping idxKey idxName before db ∨ db.get? tipsPath (indexDropKey idxKey) = none

variable {before : Metadata}

/-- Changes to the buckets of the index do not matter. -/
theorem Midway.of_agree (hsep : Separate idxKey idxName) {db' : Metadata}
    (h : Midway idxKey idxName before db)
    (hagree : ∀ q, ¬ Owned idxKey idxName q → db'.entries? q = db.entries? q) :
    Midway idxKey idxName before db' := by
  have htips := hagree tipsPath hsep.not_owned_tips
  rcases h with hdrop | hnone
  · refine .inl ⟨by rw [htips, hdrop.tips], hdrop.tip, fun q hq hne => ?_⟩
    rw [hagree q hq, hdrop.outside q hq hne]
  · exact .inr (by rw [get?, htips]; exact hnone)

theorem agree_setEntries (hp : [idxKey] <+: p) (e : OrdMap Bytes Bytes) (q : List Bytes)
    (hq : ¬ Owned idxKey idxName q) : (db.setEntries p e).entries? q = db.entries? q := by
  by_cases hmem : p ∈ db
  · have hne : p ≠ q := by
      rintro rfl
      exact hq (.inl hp)
    rw [entries?_setEntries hmem, if_neg hne]
  · rw [setEntries, dif_neg hmem]

theorem agree_removeBucket {k : Bytes} (hp : ∀ q, p ++ [k] <+: q → Owned idxKey idxName q)
    (q : List Bytes) (hq : ¬ Owned idxKey idxName q) :
    (db.removeBucket p k).entries? q = db.entries? q := by
  rw [entries?_removeBucket, if_neg fun hpre => hq (hp q hpre)]

/-- A transaction with a result whose body keeps `P` keeps it. -/
theorem keeps_updateGet {α : Type} {P : Metadata → Prop}
    {f : Metadata → Except GoError (Metadata × α)}
    (hf : ∀ d d' a, P d → f d = .ok (d', a) → P d') : Keeps (Store.Stays P) (updateGet f) := by
  intro s
  rw [updateGet, exec_bind, exec_view]
  cases hr : f s.cur with
  | error e => exact Std.Refl.refl s
  | ok r =>
    show Store.Stays P s (exec (update (fun _ => .ok r.1) >>= fun _ => pure r.2 : DbM α) s).2
    rw [exec_bind]
    rcases Store.exec_update (fun _ => .ok r.1) s with ⟨d, hd, hrun⟩ | ⟨e, s', hrun, hcur, hcommits⟩
    · obtain rfl : r.1 = d := Except.ok.inj hd
      have hrun : exec (update fun _ => .ok r.1) s = (.ok (), s.commit r.1) := hrun
      rw [hrun]
      intro hP
      have hd := hf _ _ _ hP hr
      exact ⟨hd, [r.1], rfl, by simpa using hd⟩
    · have hrun : exec (update fun _ => .ok r.1) s = (.error e, s') := hrun
      rw [hrun]
      exact Store.Stays.of_eq hcur hcommits

section stops

variable (hsep : Separate idxKey idxName)
include hsep

theorem keeps_deleteKeys {q : List Bytes} (hq : [idxKey] <+: q) (limit passes : Nat) :
    Keeps (Store.Stays (Midway idxKey idxName before)) (deleteKeys limit q passes) := by
  induction passes with
  | zero => exact .pure _
  | succ passes ih =>
    refine .bind (keeps_updateGet ?_) fun n => ?_
    · intro d d' n hd hpass
      rw [deletePass] at hpass
      obtain ⟨b, hb, hpass⟩ := bind_eq_ok.1 hpass
      obtain ⟨p, hp, hpass⟩ := bind_eq_ok.1 hpass
      obtain ⟨r, -, hpass⟩ := bind_eq_ok.1 hpass
      cases hpass
      cases b with
      | none => cases hp
      | some b =>
        obtain rfl : b = p := Except.ok.inj hp
        obtain ⟨rfl, -⟩ := mem_of_bucketAt (nil_mem d) hb
        exact hd.of_agree hsep (agree_setEntries hq r.1)
    · split
      · exact ih
      · exact .pure _

theorem midway_deleteBucket {d d' : Metadata} {p : List Bytes} {k : Bytes}
    (hp : ∀ q, p ++ [k] <+: q → Owned idxKey idxName q) (hd : Midway idxKey idxName before d)
    (h : deleteBucket d (some p) k = .ok d') : Midway idxKey idxName before d' := by
  rw [deleteBucket, Handle.deref, ok_bind] at h
  split at h
  · cases h
    exact hd.of_agree hsep (agree_removeBucket hp)
  · cases h

theorem keeps_dropBucket {q : List Bytes} (hq : [idxKey] <+: q) (interrupt : Nat → Bool) :
    Keeps (Store.Stays (Midway idxKey idxName before)) (dropBucket interrupt q) := by
  refine .bind Keeps.get fun s => .bind (keeps_deleteKeys hsep hq _ _) fun _ => ?_
  refine .bind (.bind Keeps.get fun _ => .pure _) fun stop => ?_
  have hdel : Keeps (Store.Stays (Midway idxKey idxName before)) (update (deleteLast q)) := by
    refine Store.keeps_update fun d d' hd h => ?_
    rcases eq_nil_or_concat q with rfl | ⟨p, k, rfl⟩
    · simp at hq
    · rw [concat_eq_append] at hq h
      rw [deleteLast, dropLast_concat, List.getLast?_concat] at h
      obtain ⟨b, hb, hdel⟩ := bind_eq_ok.1 h
      cases b with
      | none => cases hdel
      | some b =>
        obtain ⟨rfl, -⟩ := mem_of_bucketAt (nil_mem d) hb
        exact midway_deleteBucket hsep (fun r hr => .inl (hq.trans hr)) hd hdel
  have hignore : Keeps (Store.Stays (Midway idxKey idxName before))
      (ignoreError (update (deleteLast q))) := by
    refine .bind hdel.attempt fun r => ?_
    split
    · exact .throw _
    · exact .pure _
  cases stop with
  | true => exact .bind (.throw _) fun _ => hignore
  | false => exact hignore

theorem keeps_dropExtra :
    Keeps (Store.Stays (Midway idxKey idxName before)) (dropExtra idxName) := by
  rw [dropExtra]
  split
  · next htx =>
    refine Store.keeps_update fun d d' hd h => ?_
    obtain ⟨d₁, h₁, h⟩ := bind_eq_ok.1 h
    have hd₁ := midway_deleteBucket hsep (fun q hq => .inr ⟨htx, .inl hq⟩) hd h₁
    exact midway_deleteBucket hsep (fun q hq => .inr ⟨htx, .inr hq⟩) hd₁ h
  · exact .pure _

theorem keeps_unmarkDrop :
    Keeps (Store.Stays (Midway idxKey idxName before)) (update (unmarkDrop idxKey)) := by
  refine Store.keeps_update fun d d' _ h => .inr ?_
  by_cases hmem : tipsPath ∈ d
  · obtain ⟨e, he⟩ := exists_entries? hmem
    rw [unmarkDrop_of_tips hsep.ne_nil he] at h
    cases h
    rw [get?, entries?_setEntries hmem, if_pos rfl]
    simp
  · have hbucket : bucket d rootBucket indexTipsBucketName = .ok none := by
      rw [rootBucket, bucket_some]
      exact congrArg Except.ok (if_neg hmem)
    rw [unmarkDrop, hbucket] at h
    cases h

theorem keeps_dropBuckets (hnames : ∀ q ∈ names, [idxKey] <+: q) (interrupt : Nat → Bool) :
    Keeps (Store.Stays (Midway idxKey idxName before))
      (dropBuckets interrupt idxKey idxName names) := by
  refine .bind (.forM_mem fun q hq => ?_) fun _ =>
    Keeps.bind (keeps_dropExtra hsep) fun _ => keeps_unmarkDrop hsep
  exact keeps_dropBucket hsep (hnames q (mem_reverse.1 hq)) interrupt

theorem keeps_dropMarked (grow : Nat → Nat) (interrupt : Nat → Bool) :
    Keeps (Store.Stays (Midway idxKey idxName before))
      (dropMarked grow interrupt idxKey idxName) := by
  intro s
  by_cases htop : [idxKey] ∈ s.cur
  · obtain ⟨names, hcat, hnames, -, -⟩ := catalogue_of_mem grow htop
    rw [exec_dropMarked_of_ok hcat]
    exact keeps_dropBuckets hsep hnames interrupt s
  · rw [exec_dropMarked_of_not_mem htop]
    exact Std.Refl.refl s

/-- Every state that a drop commits is one of a drop in progress, or has no marker. -/
theorem commits_dropIndex {answers : List (Option GoError)}
    (hdb : db ∈ (exec (dropIndex grow interrupt idxKey idxName) ⟨before, [], answers⟩).2.commits) :
    Midway idxKey idxName before db := by
  rw [dropIndex, exec_bind, exec_view] at hdb
  cases hneed : needsDelete idxKey before with
  | error e =>
    rw [hneed] at hdb
    cases hdb
  | ok need =>
    rw [hneed] at hdb
    cases need with
    | false => cases hdb
    | true =>
      obtain ⟨e, he, htip⟩ := tips_of_needsDelete hsep.ne_nil hneed
      have hmem := mem_of_entries? he
      replace hdb : db ∈ (exec (update (markDrop idxKey) >>= fun _ =>
        dropMarked grow interrupt idxKey idxName) ⟨before, [], answers⟩).2.commits := hdb
      rw [exec_bind] at hdb
      rcases Store.exec_update (markDrop idxKey) ⟨before, [], answers⟩ with
        ⟨d, hd, hrun⟩ | ⟨err, s', hrun, -, hcommits⟩
      · have hrun : exec (update (markDrop idxKey)) ⟨before, [], answers⟩ = _ := hrun
        rw [hrun] at hdb
        have hd : markDrop idxKey before = .ok d := hd
        rw [markDrop_of_tips he] at hd
        cases hd
        -- The marker's own commit.
        have hfirst : Midway idxKey idxName before
            (before.setEntries tipsPath (e.insert (indexDropKey idxKey) idxKey)) := by
          refine .inl ⟨?_, ?_, fun q _ hne => ?_⟩
          · rw [entries?_setEntries hmem, if_pos rfl, entriesOf_of_entries? he]
          · rwa [get?_of_entries? he]
          · rw [entries?_setEntries hmem, if_neg (Ne.symm hne)]
        obtain ⟨-, new, hnew, hall⟩ := keeps_dropMarked hsep grow interrupt
          (Store.commit ⟨before, [], answers⟩
            (before.setEntries tipsPath (e.insert (indexDropKey idxKey) idxKey))) hfirst
        replace hdb := hnew ▸ hdb
        rcases mem_append.1 hdb with hdb | hdb
        · obtain rfl := mem_singleton.1 hdb
          exact hfirst
        · exact hall db hdb
      · have hrun : exec (update (markDrop idxKey)) ⟨before, [], answers⟩ = _ := hrun
        rw [hrun] at hdb
        replace hdb : db ∈ s'.commits := hdb
        rw [hcommits] at hdb
        cases hdb

end stops

/-! ## Resuming -/

section resume

/-- A resumed drop finds the marker it was going to leave. -/
theorem exec_dropIndex_of_dropping (hsep : Separate idxKey idxName)
    (h : Dropping idxKey idxName before db) (grow : Nat → Nat) (hcur : s.cur = db)
    (hans : s.answers = []) : exec (dropIndex grow uninterrupted idxKey idxName) s =
      exec (dropMarked grow uninterrupted idxKey idxName) (s.commit db) := by
  subst hcur
  have hne : indexDropKey idxKey ≠ idxKey := fun heq => by
    have := congrArg List.length heq
    simp [indexDropKey] at this
  have htip : (((entriesOf before tipsPath).insert (indexDropKey idxKey) idxKey)[idxKey]?).isSome =
      true := by
    have := h.tip
    rw [get?] at this
    rw [OrdMap.getElem?_insert', if_neg hne, entriesOf]
    cases hb : before.entries? tipsPath with
    | none => rw [hb] at this; cases this
    | some e => rw [hb] at this; exact this
  have hview : exec (view (needsDelete idxKey)) s = (.ok true, s) := by
    rw [exec_view, needsDelete_of_tips hsep.ne_nil h.tips, htip]
  have hmark : markDrop idxKey s.cur = .ok s.cur := by
    rw [markDrop_of_tips h.tips]
    refine congrArg Except.ok (setEntries_self ?_)
    rw [h.tips]
    refine congrArg some (OrdMap.ext' fun k => ?_)
    simp only [OrdMap.getElem?_insert']
    split <;> rfl
  rw [dropIndex, exec_bind_of_ok hview]
  show exec (update (markDrop idxKey) >>= fun _ => dropMarked grow uninterrupted idxKey idxName) s = _
  rw [exec_bind_of_ok (exec_update_of_ok hmark hans)]

/-- From the marker on, a drop ends where it should if the index's buckets are there and the
catalogue is right, and otherwise fails. -/
theorem exec_dropMarked_iff (hsep : Separate idxKey idxName) (grow : Nat → Nat)
    (h : Dropping idxKey idxName before s.cur) (hans : s.answers = []) :
    (∃ s', exec (dropMarked grow uninterrupted idxKey idxName) s = (.ok (), s') ∧
        Dropped idxKey idxName before s'.cur) ↔
      [idxKey] ∈ s.cur ∧ Unshared grow s.cur [idxKey] ∧
        (idxName = txIndexName →
          [idByHashIndexBucketName] ∈ s.cur ∧ [hashByIDIndexBucketName] ∈ s.cur) := by
  by_cases htop : [idxKey] ∈ s.cur
  · obtain ⟨names, hcat, -, hright, hwrong⟩ := catalogue_of_mem grow htop
    rw [exec_dropMarked_of_ok hcat]
    constructor
    · rintro ⟨s', hrun, -⟩
      obtain ⟨u, s₁, hforM, hrun⟩ := exec_bind_eq_ok.1 hrun
      obtain ⟨u', s₂, hextra, -⟩ := exec_bind_eq_ok.1 hrun
      obtain ⟨hnodup, -, hsub⟩ := nodup_of_exec_forM hforM hans
      refine ⟨htop, ?_, fun htx => ?_⟩
      · by_contra hun
        exact hwrong hun (nodup_reverse.1 hnodup)
      · rw [dropExtra, if_pos htx] at hextra
        obtain ⟨hid, hhash⟩ := mem_of_exec_dropBlockIDIndex hextra
        exact ⟨hsub _ hid, hsub _ hhash⟩
    · rintro ⟨-, hun, hids⟩
      obtain rfl := hright hun
      have hlevels : s.cur.depth < [idxKey].length + (s.cur.depth + 1) := by simp; omega
      obtain ⟨s', hrun, hentries⟩ := exec_dropBuckets hsep
        (fun q => mem_below htop hlevels) (pairwise_below ..) hids h.tips hans
      refine ⟨s', hrun, ?_, ?_, ?_⟩
      · intro q hq
        rw [mem_iff, hentries, if_pos hq]
        simp
      · rw [hentries, if_neg hsep.not_owned_tips, if_pos rfl]
        refine congrArg some (OrdMap.ext' fun k => ?_)
        simp only [OrdMap.getElem?_erase', OrdMap.getElem?_insert']
        split <;> rfl
      · intro q hq hne
        rw [hentries, if_neg hq, if_neg (Ne.symm hne), h.outside q hq hne]
  · rw [exec_dropMarked_of_not_mem htop]
    constructor
    · rintro ⟨s', hrun, -⟩
      cases hrun
    · exact fun hcond => absurd hcond.1 htop

end resume

end parts

/-! ## The next start -/

theorem indexNeedsDrop_of_tips {enabledIndexes : List Indexer} {db : Metadata}
    {e : OrdMap Bytes Bytes} (h : db.entries? tipsPath = some e) :
    indexNeedsDrop enabledIndexes db =
      .ok (enabledIndexes.map fun indexer => (e[indexDropKey indexer.key]?).isSome) := by
  rw [indexNeedsDrop, bucket_tips h, ok_bind]
  show enabledIndexes.mapM (fun indexer =>
    get db (some tipsPath) (indexDropKey indexer.key) >>= fun v => pure v.isSome) = _
  induction enabledIndexes with
  | nil => rfl
  | cons indexer rest ih =>
    have hget : get db (some tipsPath) (indexDropKey indexer.key) =
        .ok e[indexDropKey indexer.key]? := by
      rw [Metadata.get, Handle.deref, ok_bind, if_neg (by simp [indexDropKey]), get?_of_entries? h]
      rfl
    rw [mapM_cons, hget, ok_bind, ih]
    rfl

variable {grow : Nat → Nat}

/-- A loop over indexes that are not marked does nothing. -/
theorem exec_forM_unmarked {l : List Indexer} {marked : Indexer → Bool}
    (h : ∀ indexer ∈ l, marked indexer = false) (s : Store Metadata GoError) :
    exec ((l.zip (l.map marked)).forM fun x =>
      if x.2 then dropIndex grow uninterrupted x.1.key x.1.name else pure ()) s = (.ok (), s) := by
  induction l with
  | nil => rfl
  | cons indexer l ih =>
    rw [map_cons, zip_cons_cons, h indexer (mem_cons_self ..)]
    exact ih fun j hj => h j (mem_cons_of_mem _ hj)

/-- A loop over indexes of which one is marked drops that one. -/
theorem exec_forM_marked {left right : List Indexer} {indexer : Indexer} {marked : Indexer → Bool}
    (hleft : ∀ j ∈ left, marked j = false) (hmarked : marked indexer = true)
    (hright : ∀ j ∈ right, marked j = false) (s : Store Metadata GoError) :
    exec (((left ++ indexer :: right).zip ((left ++ indexer :: right).map marked)).forM fun x =>
        if x.2 then dropIndex grow uninterrupted x.1.key x.1.name else pure ()) s =
      exec (dropIndex grow uninterrupted indexer.key indexer.name) s := by
  induction left with
  | nil =>
    rw [nil_append, map_cons, zip_cons_cons, hmarked]
    refine (exec_bind (dropIndex grow uninterrupted indexer.key indexer.name) _ s).trans ?_
    rcases exec (dropIndex grow uninterrupted indexer.key indexer.name) s with ⟨r, s'⟩
    cases r with
    | ok u => exact exec_forM_unmarked hright s'
    | error e => rfl
  | cons j left ih =>
    rw [cons_append, map_cons, zip_cons_cons, hleft j (mem_cons_self ..)]
    exact ih fun j' hj' => hleft j' (mem_cons_of_mem _ hj')

/-- A start that finds one index marked drops that one. -/
theorem exec_maybeFinishDrops {left right : List Indexer} {indexer : Indexer}
    {s : Store Metadata GoError} {e : OrdMap Bytes Bytes} (h : s.cur.entries? tipsPath = some e)
    (hleft : ∀ j ∈ left, (e[indexDropKey j.key]?).isSome = false)
    (hmarked : (e[indexDropKey indexer.key]?).isSome = true)
    (hright : ∀ j ∈ right, (e[indexDropKey j.key]?).isSome = false) :
    exec (maybeFinishDrops grow uninterrupted (left ++ indexer :: right)) s =
      exec (dropIndex grow uninterrupted indexer.key indexer.name) s := by
  have hview := exec_view (indexNeedsDrop (left ++ indexer :: right)) s
  rw [indexNeedsDrop_of_tips h] at hview
  rw [maybeFinishDrops, exec_bind_of_ok hview, exec_bind_of_ok (exec_interruptRequested s)]
  exact exec_forM_marked hleft hmarked hright s

/-- **A drop that was stopped is finished by the next start exactly if that start still finds the
bucket of the index (and those of the block ids, for the transaction index), and of the buckets that
are left none whose path has room has two buckets nested in it.**  The stop may be after any commit
of the drop up to its last, and the database may also have failed; no other index is being
dropped. -/
theorem resume_iff {grow : Nat → Nat} {enabledIndexes : List Indexer} {indexer : Indexer}
    (hmem : indexer ∈ enabledIndexes) (hkeys : (enabledIndexes.map Indexer.key).Nodup)
    (hsep : Separate indexer.key indexer.name) {before : Metadata}
    (hothers : ∀ j ∈ enabledIndexes, j.key ≠ indexer.key →
      before.get? tipsPath (indexDropKey j.key) = none)
    {interrupt : Nat → Bool} {answers : List (Option GoError)} {db : Metadata}
    (hdb : db ∈ (exec (dropIndex grow interrupt indexer.key indexer.name)
      ⟨before, [], answers⟩).2.commits)
    (hmarked : (db.get? tipsPath (indexDropKey indexer.key)).isSome = true) :
    (∃ s, exec (maybeFinishDrops grow uninterrupted enabledIndexes) ⟨db, [], []⟩ = (.ok (), s) ∧
        Dropped indexer.key indexer.name before s.cur) ↔
      [indexer.key] ∈ db ∧ Unshared grow db [indexer.key] ∧
        (indexer.name = txIndexName →
          [idByHashIndexBucketName] ∈ db ∧ [hashByIDIndexBucketName] ∈ db) := by
  have hdrop : Dropping indexer.key indexer.name before db := by
    rcases commits_dropIndex hsep hdb with hdrop | hnone
    · exact hdrop
    · rw [hnone] at hmarked
      cases hmarked
  obtain ⟨left, right, rfl⟩ := List.append_of_mem hmem
  -- The markers of the other indexes are what they were before the drop.
  have hother : ∀ j ∈ left ++ indexer :: right, j.key ≠ indexer.key →
      (((Metadata.entriesOf before tipsPath).insert (indexDropKey indexer.key)
        indexer.key)[indexDropKey j.key]?).isSome = false := by
    intro j hj hne
    have hdropKey : indexDropKey indexer.key ≠ indexDropKey j.key := fun heq =>
      hne (List.cons.inj heq).2.symm
    have hnone := hothers j hj hne
    rw [OrdMap.getElem?_insert', if_neg hdropKey, Metadata.entriesOf]
    rw [BucketTree.get?] at hnone
    cases hb : before.entries? tipsPath with
    | none => simp
    | some e =>
      rw [hb] at hnone
      have hnone : e[indexDropKey j.key]? = none := hnone
      rw [Option.getD_some, hnone, Option.isSome_none]
  rw [List.map_append, List.map_cons, List.nodup_append, List.nodup_cons] at hkeys
  obtain ⟨-, ⟨hright, -⟩, hleft⟩ := hkeys
  rw [exec_maybeFinishDrops (s := ⟨db, [], []⟩) hdrop.tips
      (fun j hj => hother j (List.mem_append_left _ hj) fun heq =>
        hleft _ (List.mem_map_of_mem hj) _ (List.mem_cons_self ..) heq)
      (by rw [OrdMap.getElem?_insert', if_pos rfl]; rfl)
      (fun j hj => hother j (List.mem_append_right _ (List.mem_cons_of_mem _ hj)) fun heq =>
        hright (heq ▸ List.mem_map_of_mem hj)),
    exec_dropIndex_of_dropping hsep hdrop grow rfl rfl]
  exact exec_dropMarked_iff hsep grow (s := Store.commit ⟨db, [], []⟩ db) hdrop rfl

/-! ## A drop that is stopped -/

namespace Sample

/-- The room that the runtime gives to short slices of names: twice what was full. -/
def growslice (c : Nat) : Nat := max 1 (2 * c)

/-- The address index. -/
def addrIndex : Indexer := ⟨bytesOf "txbyaddridx", "address index"⟩

/-- A database with a bucket of the chain, the tips, and an index with one key. -/
def db : Metadata :=
  ((((empty.addBucket [] (bytesOf "utxosetv2")).addBucket [] indexTipsBucketName).addBucket
    [] addrIndex.key).setEntries tipsPath
      ((∅ : OrdMap Bytes Bytes).insert addrIndex.key (List.replicate 36 0))).setEntries
        [addrIndex.key] ((∅ : OrdMap Bytes Bytes).insert [1] [2])

/-- The same with buckets nested in the index: one, in it one, and in that one two. -/
def nested : Metadata :=
  (((db.addBucket [addrIndex.key] [1]).addBucket [addrIndex.key, [1]] [1]).addBucket
    [addrIndex.key, [1], [1]] [1]).addBucket [addrIndex.key, [1], [1]] [2]

/-- The states that a drop of the index commits. -/
def commits (before : Metadata) : List Metadata :=
  (exec (dropIndex growslice uninterrupted addrIndex.key addrIndex.name) ⟨before, [], []⟩).2.commits

end Sample

open Sample

theorem resume_iff_emptied : ∃ db s, (commits Sample.db)[1]? = some db ∧
    exec (maybeFinishDrops growslice uninterrupted [addrIndex]) ⟨db, [], []⟩ = (.ok (), s) ∧
    Dropped addrIndex.key addrIndex.name Sample.db s.cur := by
  have hcond : ((commits Sample.db)[1]?.map fun db => decide
      ((db.get? tipsPath (indexDropKey addrIndex.key)).isSome = true ∧
        [addrIndex.key] ∈ db ∧
        Unshared growslice db [addrIndex.key])) = some true := by decide +kernel
  obtain ⟨db, hdb, hcond⟩ := Option.map_eq_some_iff.1 hcond
  obtain ⟨hmarked, htop, hun⟩ := of_decide_eq_true hcond
  have hsep : Separate addrIndex.key addrIndex.name :=
    ⟨by decide +kernel, by decide +kernel, fun htx => absurd htx (by decide)⟩
  obtain ⟨s, hrun, hdropped⟩ := (resume_iff (List.mem_singleton.2 rfl) (List.nodup_singleton _) hsep
    (fun j hj hne => absurd (congrArg Indexer.key (List.mem_singleton.1 hj)) hne)
    (List.mem_of_getElem? hdb) hmarked).2 ⟨htop, hun, fun htx => absurd htx (by decide)⟩
  exact ⟨db, s, hdb, hrun, hdropped⟩

/-- **Two drops that cannot be resumed.**  The first was stopped after the bucket of the index was
deleted and before tip and marker were; the second right after the marker was set, for an index with
two buckets nested at the fourth level.  The start that follows crashes. -/
theorem resume_crashes :
    (∃ db, (commits Sample.db)[2]? = some db ∧
      (db.get? tipsPath (indexDropKey addrIndex.key)).isSome = true ∧
      (exec (maybeFinishDrops growslice uninterrupted [addrIndex]) ⟨db, [], []⟩).1 =
        .error nilDereference) ∧
    ∃ db, (commits nested)[0]? = some db ∧
      (db.get? tipsPath (indexDropKey addrIndex.key)).isSome = true ∧
      (exec (maybeFinishDrops growslice uninterrupted [addrIndex]) ⟨db, [], []⟩).1 =
        .error nilDereference := by
  have h : ∀ o : Option Metadata, (o.map fun db => decide
      ((db.get? tipsPath (indexDropKey addrIndex.key)).isSome = true ∧
        (exec (maybeFinishDrops growslice uninterrupted [addrIndex])
          ⟨db, [], []⟩).1 = .error nilDereference)) = some true → ∃ db, o = some db ∧
      (db.get? tipsPath (indexDropKey addrIndex.key)).isSome = true ∧
      (exec (maybeFinishDrops growslice uninterrupted [addrIndex]) ⟨db, [], []⟩).1 =
        .error nilDereference := by
    intro o ho
    obtain ⟨db, hdb, hcond⟩ := Option.map_eq_some_iff.1 ho
    exact ⟨db, hdb, of_decide_eq_true hcond⟩
  exact ⟨h _ (by decide +kernel), h _ (by decide +kernel)⟩

end Indexers

end Obtcd
