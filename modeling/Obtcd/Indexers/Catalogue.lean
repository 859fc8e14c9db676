import Obtcd.Indexers.Metadata
import Obtcd.Lib.Slices

/-!
# The catalogue of a drop

Before `dropIndex` deletes anything it makes a list of the index's buckets, each before those nested
in it.  An entry of the list is a path, and the paths are slices: that of a nested bucket is
`append(tlBucket, subBucket)`, where `tlBucket` is the path of the bucket it is nested in.  Where
that slice has room behind it, all buckets nested in the bucket get the same slice, and what it shows
in the end is the last of them.

`Entered` says what the calls for some of the buckets nested in a bucket add to the list.  Its
two ends are in `catalogue_of_mem`: the list is right when no bucket whose path has room has two
buckets nested in it (`Unshared`), and it has an entry twice when one has.
-/

namespace Obtcd

open Arrays List

namespace Indexers


/-! ## The closure -/

/-- Catalogue a bucket and those nested in it.  The number of levels to go down
stands for the stack, which does not run out. -/
def subBucketClosure (grow : Nat → Nat) (db : Metadata) :
    Nat → Bytes → Window → Arrays Bytes × List Window → Except GoError (Arrays Bytes × List Window)
  | 0, _, _, _ => .error (.panic "stack overflow")
  | levels + 1, subBucket, tlBucket, (arrays, subBuckets) => do
    let r := arrays.append grow (if tlBucket.len = 0 then Window.nil else tlBucket) subBucket
    let bucketName := r.2
    let bucket ← Metadata.bucketAt db Metadata.rootBucket (r.1.read bucketName)
    let p ← bucket.deref
    (db.subBuckets p).foldlM (fun st k => subBucketClosure grow db levels k bucketName st)
      (r.1, subBuckets ++ [bucketName])

/-- The paths that `dropIndex` goes through, as its slices show them when the list is complete. -/
def catalogue (grow : Nat → Nat) (db : Metadata) (idxKey : Bytes) :
    Except GoError (List (List Bytes)) := do
  let r ← subBucketClosure grow db (db.depth + 1) idxKey Window.nil ([], [])
  return r.2.map r.1.read

/-- No bucket at or below a path whose own path has room for another name has two buckets nested in
it. -/
def Unshared (grow : Nat → Nat) (db : Metadata) (p : List Bytes) : Prop :=
  ∀ q ∈ db.paths, p <+: q → q.length < capacity grow q.length → (db.subBuckets q).length ≤ 1

instance (grow : Nat → Nat) (db : Metadata) (p : List Bytes) : Decidable (Unshared grow db p) :=
  inferInstanceAs (Decidable (∀ q ∈ db.paths, _))

theorem unshared_iff {grow : Nat → Nat} {db : Metadata} {p : List Bytes} (hp : p ∈ db) :
    Unshared grow db p ↔ (p.length < capacity grow p.length → (db.subBuckets p).length ≤ 1) ∧
      ∀ k ∈ db.subBuckets p, Unshared grow db (p ++ [k]) := by
  constructor
  · intro h
    refine ⟨h p (BucketTree.mem_paths.2 hp) (prefix_refl p), ?_⟩
    intro k _ q hq hpre
    exact h q hq ((prefix_append p [k]).trans hpre)
  · rintro ⟨hown, hsub⟩ q hq hpre
    rcases BucketTree.prefix_iff_eq_or.1 hpre with rfl | ⟨k, hk⟩
    · exact hown
    · have hkb := BucketTree.mem_of_prefix hk (BucketTree.mem_paths.1 hq)
      exact hsub k (BucketTree.mem_subBuckets.2 hkb) q hq hk

/-! ## Going down -/

namespace Metadata

theorem bucket_some (db : Metadata) (p : List Bytes) (key : Bytes) :
    bucket db (some p) key = .ok (if p ++ [key] ∈ db then some (p ++ [key]) else none) := rfl

theorem bucketAt_of_mem {db : Metadata} {p names : List Bytes} (h : p ++ names ∈ db) :
    bucketAt db (some p) names = .ok (some (p ++ names)) := by
  induction names generalizing p with
  | nil => rw [bucketAt, append_nil]
  | cons name names ih =>
    have hcat : p ++ name :: names = p ++ [name] ++ names := by
      rw [append_assoc, singleton_append]
    rw [hcat] at h ⊢
    have hname : p ++ [name] ∈ db :=
      BucketTree.mem_of_prefix (prefix_append (p ++ [name]) names) h
    rw [bucketAt, bucket_some, if_pos hname]
    exact ih h

/-- Only a bucket that exists is found. -/
theorem mem_of_bucketAt {db : Metadata} {p q names : List Bytes} (hp : p ∈ db)
    (h : bucketAt db (some p) names = .ok (some q)) : q = p ++ names ∧ q ∈ db := by
  induction names generalizing p with
  | nil =>
    obtain rfl : p = q := Option.some.inj (Except.ok.inj h)
    exact ⟨(append_nil p).symm, hp⟩
  | cons name names ih =>
    rw [bucketAt, bucket_some] at h
    by_cases hname : p ++ [name] ∈ db
    · rw [if_pos hname] at h
      obtain ⟨rfl, hq⟩ := ih hname h
      exact ⟨by rw [append_assoc, singleton_append], hq⟩
    · rw [if_neg hname] at h
      cases names with
      | nil => cases h
      | cons name' names => cases h

end Metadata

/-! ## What calls add to the list -/

/-- What the calls for the buckets `ks` nested in the bucket at `p`, whose path is the slice `s`, do
to the arrays, and the slices they add to the list. -/
structure Entered (grow : Nat → Nat) (db : Metadata) (levels : Nat) (h : Arrays Bytes) (s : Window)
    (p : List Bytes) (ks : List Bytes) (h' : Arrays Bytes) (new : List Window) : Prop where
  le : h.length ≤ h'.length
  idle : ks = [] → h' = h
  same : ∀ t, Apart h s t → Same h h' t
  valid : ∀ t ∈ new, ∀ i, t.array = some i → i < h'.length
  under : ∀ t ∈ new, p.length < t.len ∧ h'.read ⟨t.array, p.length⟩ = p
  /-- With room behind `s`, every call adds the same slice. -/
  shared : s.len < h.cap s → ks ≠ [] → ⟨s.array, s.len + 1⟩ ∈ new
  reads : (s.len < h.cap s → ks.length ≤ 1) → (∀ k ∈ ks, Unshared grow db (p ++ [k])) →
    new.map h'.read = ks.flatMap fun k => db.below levels (p ++ [k])
  repeats : (s.len < h.cap s ∧ 2 ≤ ks.length) ∨ (∃ k ∈ ks, ¬ Unshared grow db (p ++ [k])) →
    ¬ new.Nodup

section Entered

variable {grow : Nat → Nat} {db : Metadata} {levels : Nat} {h : Arrays Bytes} {s : Window}
  {p : List Bytes} {subs : List Window}

theorem Entered.nil : Entered grow db levels h s p [] h [] where
  le := Nat.le_refl _
  idle := fun _ => rfl
  same := fun _ _ => ⟨rfl, rfl⟩
  valid := by simp
  under := by simp
  shared := fun _ hne => absurd rfl hne
  reads := fun _ _ => rfl
  repeats := by simp

variable {k : Bytes} {new : List Window}

/-- The calls for one bucket and then for others. -/
theorem Entered.cons {ks : List Bytes} {h₁ h₂ : Arrays Bytes} {new' : List Window}
    (hf : Fits grow h s) (hfst : Entered grow db levels h s p [k] h₁ new)
    (hrest : Entered grow db levels h₁ s p ks h₂ new') (hlen : s.len = p.length) :
    Entered grow db levels h s p (k :: ks) h₂ (new ++ new') := by
  have hs := hfst.same s (apart_self hf)
  have hcap : h₁.cap s = h.cap s := hs.2
  refine ⟨hfst.le.trans hrest.le, (fun hnil => nomatch hnil), ?_, ?_, ?_, ?_, ?_, ?_⟩
  · intro t hap
    exact (hfst.same t hap).trans (hrest.same t (hap.of_same hs hfst.le))
  · intro t ht i hi
    rcases mem_append.1 ht with ht | ht
    · exact Nat.lt_of_lt_of_le (hfst.valid t ht i hi) hrest.le
    · exact hrest.valid t ht i hi
  · intro t ht
    rcases mem_append.1 ht with ht | ht
    · -- What a slice shows of `p` lies before the places that the later calls write.
      obtain ⟨hlt, hread⟩ := hfst.under t ht
      have hap : Apart h₁ s ⟨t.array, p.length⟩ :=
        ⟨hfst.valid t ht, Or.inr (Or.inl (Nat.le_of_eq hlen.symm))⟩
      exact ⟨hlt, (hrest.same _ hap).1.trans hread⟩
    · exact hrest.under t ht
  · intro hroom _
    exact mem_append_left _ (hfst.shared hroom (by simp))
  · intro hroom hun
    have hreads := hfst.reads (fun _ => Nat.le_refl _) fun k' hk' => by
      obtain rfl : k' = k := mem_singleton.1 hk'
      exact hun k' (mem_cons_self ..)
    have hreads' := hrest.reads
      (fun hr => by have := hroom (hcap ▸ hr); simp only [length_cons] at this; omega)
      fun k' hk' => hun k' (mem_cons_of_mem _ hk')
    -- Either nothing follows, or there is no room and the slices of the first call are left alone.
    have hkeep : new.map h₂.read = new.map h₁.read := by
      refine map_congr_left fun t ht => ?_
      by_cases hr : s.len < h.cap s
      · have hks : ks = [] := by
          have := hroom hr
          rw [length_cons] at this
          exact length_eq_zero_iff.1 (by omega)
        rw [hrest.idle hks]
      · exact (hrest.same t ⟨hfst.valid t ht, Or.inr (Or.inr (by omega))⟩).1
    rw [map_append, hkeep, hreads, hreads']
    simp
  · intro hbad hnodup
    obtain ⟨hnew, hnew', hdisj⟩ := nodup_append.1 hnodup
    rcases hbad with ⟨hroom, htwo⟩ | ⟨k', hk', hun⟩
    · have hks : ks ≠ [] := by
        rintro rfl
        simp at htwo
      have hmem := hfst.shared hroom (by simp)
      exact hdisj _ hmem _ (hrest.shared (by rwa [hcap]) hks) rfl
    · rcases mem_cons.1 hk' with rfl | hk'
      · exact hfst.repeats (Or.inr ⟨k', by simp, hun⟩) hnew
      · exact hrest.repeats (Or.inr ⟨k', hk', hun⟩) hnew'

theorem read_append_of (hf : Fits grow h s) (hread : h.read s = p) (k : Bytes) :
    (h.append grow s k).1.read (h.append grow s k).2 = p ++ [k] := by
  rw [read_append hf, hread]

/-- One call is the calls for the buckets nested in its bucket, after its own slice is added. -/
theorem subBucketClosure_succ (hf : Fits grow h s) (hread : h.read s = p) (hk : p ++ [k] ∈ db) :
    subBucketClosure grow db (levels + 1) k s (h, subs) =
      (db.subBuckets (p ++ [k])).foldlM
        (fun st k' => subBucketClosure grow db levels k' (h.append grow s k).2 st)
        ((h.append grow s k).1, subs ++ [(h.append grow s k).2]) := by
  have hif : (if s.len = 0 then Window.nil else s) = s := by
    split
    · next hlen =>
      obtain ⟨a, n⟩ := s
      obtain rfl : a = none := hf.nil.2 hlen
      obtain rfl : n = 0 := hlen
      rfl
    · rfl
  have hpath := read_append_of hf hread k
  have hfound : Metadata.bucketAt db Metadata.rootBucket (p ++ [k]) = .ok (some (p ++ [k])) :=
    Metadata.bucketAt_of_mem hk
  rw [subBucketClosure]
  simp only [hif, hpath, hfound]
  rfl

/-- All slices that a call adds start with the path of its bucket. -/
theorem read_of_append {h' : Arrays Bytes} (hf : Fits grow h s) (hread : h.read s = p)
    (hsub : Entered grow db levels (h.append grow s k).1 (h.append grow s k).2 (p ++ [k])
      (db.subBuckets (p ++ [k])) h' new)
    {t : Window} (ht : t ∈ (h.append grow s k).2 :: new) :
    (p ++ [k]).length ≤ t.len ∧ h'.read ⟨t.array, (p ++ [k]).length⟩ = p ++ [k] := by
  have hpath := read_append_of hf hread k
  have hlen : (h.append grow s k).2.len = (p ++ [k]).length := by
    rw [← hpath, (fits_append hf k).length]
  rcases mem_cons.1 ht with rfl | ht
  · rw [← hlen]
    exact ⟨Nat.le_refl _, (hsub.same _ (apart_self (fits_append hf k))).1.trans hpath⟩
  · exact ⟨Nat.le_of_lt (hsub.under t ht).1, (hsub.under t ht).2⟩

/-- A call adds its own slice and what the calls for the nested buckets add. -/
theorem Entered.of_append {h' : Arrays Bytes} (hf : Fits grow h s) (hread : h.read s = p)
    (hk : p ++ [k] ∈ db)
    (hsub : Entered grow db levels (h.append grow s k).1 (h.append grow s k).2 (p ++ [k])
      (db.subBuckets (p ++ [k])) h' new) :
    Entered grow db (levels + 1) h s p [k] h' ((h.append grow s k).2 :: new) := by
  have hf₁ := fits_append hf k
  have hpath := read_append_of hf hread k
  have hlen₁ : (h.append grow s k).2.len = (p ++ [k]).length := by rw [← hpath, hf₁.length]
  have hroom : (h.append grow s k).2.len < (h.append grow s k).1.cap (h.append grow s k).2 ↔
      (p ++ [k]).length < capacity grow (p ++ [k]).length := by rw [hf₁.cap, hlen₁]
  have hown := hsub.same _ (apart_self hf₁)
  refine ⟨(length_le_append hf k).trans hsub.le, (fun hnil => nomatch hnil), ?_, ?_, ?_, ?_, ?_, ?_⟩
  · intro t hap
    exact (same_append hf k hap).trans (hsub.same t (hap.append hf k))
  · intro t ht i hi
    rcases mem_cons.1 ht with rfl | ht
    · exact Nat.lt_of_lt_of_le (hf₁.lt i hi) hsub.le
    · exact hsub.valid t ht i hi
  · intro t ht
    have hread₁ := read_of_append hf hread hsub ht
    rw [length_append, length_singleton] at hread₁
    refine ⟨hread₁.1, ?_⟩
    rw [read_of_le h' t.array (Nat.le_succ p.length), hread₁.2, take_left]
  · intro hr _
    rw [append_snd_of_lt hf hr]
    exact mem_cons_self ..
  · intro _ hun
    obtain ⟨hfew, hbelow⟩ := (unshared_iff hk).1 (hun k (mem_singleton.2 rfl))
    rw [map_cons, hown.1, hpath, hsub.reads (fun hr => hfew (hroom.1 hr)) hbelow]
    simp [BucketTree.below]
  · rintro (⟨-, htwo⟩ | ⟨k', hk', hun⟩)
    · simp at htwo
    · obtain rfl : k' = k := mem_singleton.1 hk'
      rw [unshared_iff hk, not_and_or] at hun
      have hbad : ¬ new.Nodup := by
        refine hsub.repeats ?_
        rcases hun with hmany | hbelow
        · rw [Classical.not_imp, ← hroom] at hmany
          exact Or.inl ⟨hmany.1, by omega⟩
        · simp only [not_forall] at hbelow
          obtain ⟨k₁, hk₁, hun⟩ := hbelow
          exact Or.inr ⟨k₁, hk₁, hun⟩
      exact fun hnodup => hbad (nodup_cons.1 hnodup).2

/-- The loop over some of the buckets nested in a bucket, given what one call does. -/
theorem exists_entered_foldlM
    (hcall : ∀ {h : Arrays Bytes} {s : Window} {p : List Bytes} {k : Bytes} (subs : List Window),
      Fits grow h s → h.read s = p → p ++ [k] ∈ db → db.depth < p.length + 1 + levels →
      ∃ h' new, subBucketClosure grow db levels k s (h, subs) = .ok (h', subs ++ new) ∧
        Entered grow db levels h s p [k] h' new)
    {ks : List Bytes} (subs : List Window) (hf : Fits grow h s) (hread : h.read s = p)
    (hks : ∀ k ∈ ks, p ++ [k] ∈ db)
    (hlevels : db.depth < p.length + 1 + levels) :
    ∃ h' new, ks.foldlM (fun st k => subBucketClosure grow db levels k s st) (h, subs) =
        .ok (h', subs ++ new) ∧ Entered grow db levels h s p ks h' new := by
  induction ks generalizing h subs with
  | nil => exact ⟨h, [], by rw [append_nil]; rfl, Entered.nil⟩
  | cons k ks ih =>
    obtain ⟨h₁, new, hrun, hent⟩ :=
      hcall subs hf hread (hks k (mem_cons_self ..)) hlevels
    have hs := hent.same s (apart_self hf)
    obtain ⟨h₂, new', hrun', hent'⟩ := ih (subs ++ new) (hf.of_same hs hent.le)
      (hs.1.trans hread) fun k' hk' => hks k' (mem_cons_of_mem _ hk')
    refine ⟨h₂, new ++ new', ?_, Entered.cons hf hent hent' (by rw [← hread, hf.length])⟩
    rw [foldlM_cons, hrun, ← append_assoc]
    exact hrun'

/-- A call for a bucket that exists succeeds, given enough levels. -/
theorem exists_entered (subs : List Window) (hf : Fits grow h s) (hread : h.read s = p)
    (hk : p ++ [k] ∈ db) (hlevels : db.depth < p.length + 1 + levels) :
    ∃ h' new, subBucketClosure grow db levels k s (h, subs) = .ok (h', subs ++ new) ∧
      Entered grow db levels h s p [k] h' new ∧
      ∀ t ∈ new, (p ++ [k]).length ≤ t.len ∧ h'.read ⟨t.array, (p ++ [k]).length⟩ = p ++ [k] := by
  induction levels generalizing h s p k subs with
  | zero =>
    have := BucketTree.length_le_depth hk
    rw [length_append, length_singleton] at this
    omega
  | succ levels ih =>
    have hpath := read_append_of hf hread k
    obtain ⟨h', new, hrun, hent⟩ := exists_entered_foldlM
      (fun subs hf hread hk hlevels => by
        obtain ⟨h', new, hrun, hent, -⟩ := ih subs hf hread hk hlevels
        exact ⟨h', new, hrun, hent⟩)
      (subs ++ [(h.append grow s k).2]) (fits_append hf k) hpath
      (fun k' hk' => BucketTree.mem_subBuckets.1 hk')
      (by rw [length_append, length_singleton]; omega)
    refine ⟨h', (h.append grow s k).2 :: new, ?_, Entered.of_append hf hread hk hent,
      fun t ht => read_of_append hf hread hent ht⟩
    rw [subBucketClosure_succ hf hread hk, hrun, append_assoc, singleton_append]

end Entered

/-! ## The catalogue -/

section catalogue

variable {grow : Nat → Nat} {db : Metadata} {idxKey : Bytes}

/-- Without its bucket an index cannot be catalogued: the process crashes. -/
theorem catalogue_of_not_mem (h : [idxKey] ∉ db) :
    catalogue grow db idxKey = .error nilDereference := by
  have hpath : (append grow ([] : Arrays Bytes) Window.nil idxKey).1.read
      (append grow ([] : Arrays Bytes) Window.nil idxKey).2 = [idxKey] :=
    read_append (fits_nil grow []) idxKey
  have hbucket : Metadata.bucketAt db Metadata.rootBucket [idxKey] = .ok none := by
    rw [Metadata.bucketAt, Metadata.rootBucket, Metadata.bucket_some, nil_append, if_neg h]
    rfl
  have hif : (if Window.nil.len = 0 then Window.nil else Window.nil) = Window.nil := if_pos rfl
  rw [catalogue, subBucketClosure]
  simp only [hif, hpath, hbucket]
  rfl

/-- What the catalogue of an index with its bucket is. -/
theorem catalogue_of_mem (grow : Nat → Nat) (h : [idxKey] ∈ db) :
    ∃ names, catalogue grow db idxKey = .ok names ∧
    (∀ name ∈ names, [idxKey] <+: name) ∧
    (Unshared grow db [idxKey] → names = db.below (db.depth + 1) [idxKey]) ∧
    (¬ Unshared grow db [idxKey] → ¬ names.Nodup) := by
  have hlevels : db.depth < ([] : List Bytes).length + 1 + (db.depth + 1) := by simp; omega
  obtain ⟨h', new, hrun, hent, hunder⟩ :=
    exists_entered [] (fits_nil grow []) (p := []) rfl h hlevels
  refine ⟨new.map h'.read, ?_, ?_, ?_, ?_⟩
  · rw [catalogue, hrun]
    rfl
  · intro name hname
    obtain ⟨t, ht, rfl⟩ := mem_map.1 hname
    obtain ⟨hle, hread⟩ := hunder t ht
    rw [read_of_le h' t.array hle] at hread
    have htake : (h'.read t).take 1 = [idxKey] := hread
    rw [← htake]
    exact take_prefix 1 (h'.read t)
  · intro hun
    rw [hent.reads (fun hroom => Nat.le_refl _) (by simpa using hun)]
    simp
  · intro hun hnodup
    refine hent.repeats (Or.inr ⟨idxKey, by simp, hun⟩) ?_
    exact List.Pairwise.of_map h'.read (fun t t' hne htt => hne (by rw [htt])) hnodup

end catalogue

end Indexers

end Obtcd
