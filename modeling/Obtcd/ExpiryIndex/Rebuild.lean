import Obtcd.Blockchain.UtxoIter
import Obtcd.ExpiryIndex.Root
import Obtcd.Lib.Commits

/-!
# Rebuilding the index from the coin database

`fastRebuildFromUTXO`: instead of connecting every block of the chain, clear the index and enter the
unspent outputs that the coin database holds, a batch at a time, each batch in a transaction of its
own.  The last transaction stores the accumulator and the tip.

Two things have to be true of it.  When it succeeds, the index is the one that connecting all blocks
would have left: the same four buckets, and an accumulator of the same entries, which therefore has the
same root.  The batches do not matter for this, since what is written is the plain fold over all
entries (`Progress`).  And when it is stopped or fails between two of its transactions, the tip that
is stored is `-1`, so that nobody takes the part that has been entered for an index
(`commits_fastRebuild`).
-/

namespace Obtcd

open OrdMap List

namespace ExpiryIndex

open Ledger Prog

def defaultBatchSize : Nat := 1000

/-! ## Clearing -/

/-- Delete the keys of a bucket, one by one, as a cursor meets them. -/
def clearBucket (b : Bucket) : Bucket := b.toList.foldl (fun b row => b.erase row.1) b

def clearExpiryIndexBuckets (db : Buckets) : Buckets :=
  let db :=
    { db with
      outpoint2Expiry := clearBucket db.outpoint2Expiry
      expiry2Outpoints := clearBucket db.expiry2Outpoints
      reapStrictCandidates := clearBucket db.reapStrictCandidates
      outpoint2ReapStrict := clearBucket db.outpoint2ReapStrict }
  let db := dbPutAccumulatorState db MuHash.new
  let db := dbPutAccumulatorTipHash db Hash.zero
  dbPutTipHeightIndexed db (-1)

theorem clearBucket_eq (b : Bucket) : clearBucket b = ∅ := by
  rw [clearBucket, ← foldl_map (f := Prod.fst) (g := fun (b : Bucket) k => b.erase k)]
  refine foldl_erase_eq_empty fun k v hv => ?_
  exact mem_map.2 ⟨(k, v), (mem_toList ..).2 hv, rfl⟩

/-! ## The rebuild -/

/-- What the rebuild asks of it. -/
structure ChainAccessor where
  blockByHeight : Int32 → Except GoError Block
  /-- The bucket that `ForEachUTXOWithAmount` reads. -/
  utxoBucket : Option Bucket

structure RebuildBatchEntry where
  outpoint : OutPoint
  expiryKey : UInt64
  amount : Int64

/-- The state of a rebuild. -/
structure Rebuild where
  store : Store Buckets GoError
  idx : Index
  mh : MuHash := MuHash.new
  batch : List RebuildBatchEntry := []

namespace Rebuild

/-- A transaction on the database of the index. -/
def update (f : Buckets → Except GoError Buckets) : Prog Rebuild GoError Unit :=
  focus Rebuild.store (fun s store => { s with store }) (Store.update f)

/-- `resetToEmpty`, which ignores the error it may get. -/
def resetToEmpty : Prog Rebuild GoError Unit := do
  let _ ← attempt (update fun db => .ok (clearExpiryIndexBuckets db))
  modify fun s => { s with idx := { s.idx with curTipHeight := -1 } }

/-- Enter one output of a batch. -/
def putBatchEntry (db : Buckets) (e : RebuildBatchEntry) : Except GoError Buckets :=
  wrapError ("failed to add UTXO " ++ e.outpoint.string ++ ": ")
    (putTxOutMapping db e.outpoint e.expiryKey e.amount)

def flushBatch : Prog Rebuild GoError Unit := do
  let s ← get
  if s.batch.isEmpty then pure ()
  else
    update fun db => s.batch.foldlM putBatchEntry db
    modify fun s => { s with batch := [] }

def processUTXO (e : UTXOSnapshotEntry) : Prog Rebuild GoError PUnit := do
  let s ← get
  if !s.idx.shouldIndexCreateHeight e.blockHeight then pure ()
  else
    let expiryKey := s.idx.expiryParams.calculateExpiryKey e.blockHeight
    modify fun s =>
      { s with
        mh := s.mh.add (computeEntryData e.outPoint expiryKey)
        batch := s.batch ++ [⟨e.outPoint, expiryKey, e.amount⟩] }
    let s ← get
    if s.batch.length ≥ defaultBatchSize then flushBatch else pure ()

/-- The last transaction: the accumulator and the tip. -/
def finalize (chain : ChainAccessor) (chainTipHeight : Int32) (mh : MuHash) (db : Buckets) :
    Except GoError Buckets := do
  let db := dbPutAccumulatorState db mh
  let tipHash ←
    if chainTipHeight ≥ 0 then do
      let block ← wrapError ("failed to get block hash for height " ++
        toString chainTipHeight.toInt ++ ": ") (chain.blockByHeight chainTipHeight)
      .ok block.hash
    else .ok Hash.zero
  let db := dbPutAccumulatorTipHash db tipHash
  .ok (dbPutTipHeightIndexed db chainTipHeight)

/-- Enter all outputs of the coin database. -/
def populate (parsePubKey : ParsePubKey) (chain : ChainAccessor) : Prog Rebuild GoError Unit := do
  forEachUTXOInDB parsePubKey chain.utxoBucket processUTXO
  flushBatch

def fastRebuildFromUTXO (parsePubKey : ParsePubKey) (chain : Option ChainAccessor)
    (chainTipHeight : Int32) : Prog Rebuild GoError Unit :=
  match chain with
  | none => throw (.other "chain accessor not set - call SetChainAccessor first")
  | some chain => do
    mapError (GoError.wrap "failed to clear index buckets: ")
      (update fun db => .ok (clearExpiryIndexBuckets db))
    modify fun s =>
      { s with idx := { s.idx with curTipHeight := -1 }, mh := MuHash.new, batch := [] }
    onError (populate parsePubKey chain) fun _ => resetToEmpty
    let s ← get
    onError (update (finalize chain chainTipHeight s.mh)) fun _ => resetToEmpty
    modify fun s => { s with idx := { s.idx with curTipHeight := chainTipHeight } }

/-! ## Stopped between two transactions -/

/-- The stored tip says that there is no index. -/
def NoTip (db : Buckets) : Prop := dbGetTipHeightIndexed db = .ok (-1)

/-- From a database without a tip, every commit leaves it without. -/
def StaysNoTip (s s' : Rebuild) : Prop := Store.Stays NoTip s.store s'.store

instance : Std.Refl StaysNoTip := ⟨fun s => Std.Refl.refl (r := Store.Stays NoTip) s.store⟩

instance : IsTrans Rebuild StaysNoTip :=
  ⟨fun s₁ s₂ s₃ => IsTrans.trans (r := Store.Stays NoTip) s₁.store s₂.store s₃.store⟩

theorem noTip_clear (db : Buckets) : NoTip (clearExpiryIndexBuckets db) :=
  dbGetTipHeightIndexed_put ..

variable {db db' : Buckets}

theorem noTip_putBatchEntry {e : RebuildBatchEntry} (h : NoTip db)
    (hput : putBatchEntry db e = .ok db') : NoTip db' := by
  rw [putBatchEntry, putTxOutMapping] at hput
  cases henc : encodeReapStrictCompositeKey e.expiryKey e.amount e.outpoint with
  | error err =>
    rw [henc] at hput
    cases hput
  | ok key =>
    rw [henc] at hput
    cases hput
    exact h

theorem noTip_putBatch {batch : List RebuildBatchEntry} (h : NoTip db)
    (hput : batch.foldlM putBatchEntry db = .ok db') : NoTip db' := by
  induction batch generalizing db with
  | nil =>
    obtain rfl : db = db' := Except.ok.inj hput
    exact h
  | cons e batch ih =>
    rw [foldlM_cons] at hput
    obtain ⟨db₁, hput₁, hrest⟩ := bind_eq_ok.1 hput
    exact ih (noTip_putBatchEntry h hput₁) hrest

theorem keeps_update {f : Buckets → Except GoError Buckets}
    (hf : ∀ db db', NoTip db → f db = .ok db' → NoTip db') :
    Keeps StaysNoTip (update f) :=
  Keeps.focus (Store.keeps_update hf) fun _ _ h => h

theorem keeps_resetToEmpty : Keeps StaysNoTip resetToEmpty := by
  refine .bind (.attempt (keeps_update ?_)) fun _ => .modify fun s => ?_
  · rintro db db' - h
    cases h
    exact noTip_clear db
  · exact Std.Refl.refl (r := Store.Stays NoTip) s.store

theorem keeps_flushBatch : Keeps StaysNoTip flushBatch := by
  refine .bind Keeps.get fun s => ?_
  split
  · exact .pure _
  · exact .bind (keeps_update fun db db' => noTip_putBatch) fun _ =>
      Keeps.modify fun s => Std.Refl.refl (r := Store.Stays NoTip) s.store

theorem keeps_processUTXO (e : UTXOSnapshotEntry) : Keeps StaysNoTip (processUTXO e) := by
  refine .bind Keeps.get fun s => ?_
  split
  · exact .pure _
  · refine .bind (.modify fun s =>
      Std.Refl.refl (r := Store.Stays NoTip) s.store) fun _ => ?_
    refine .bind Keeps.get fun s => ?_
    split
    · exact keeps_flushBatch
    · exact .pure _

theorem keeps_populate (parsePubKey : ParsePubKey) (chain : ChainAccessor) :
    Keeps StaysNoTip (populate parsePubKey chain) := by
  refine .bind ?_ fun _ => keeps_flushBatch
  rcases chain.utxoBucket with _ | bucket
  · exact .pure _
  · exact .forM keeps_processUTXO _

/-- A transaction of a rebuild changes nothing, or it is committed. -/
theorem exec_update (f : Buckets → Except GoError Buckets) (s : Rebuild) :
    (∃ db, f s.store.cur = .ok db ∧
        exec (update f) s = (.ok (), { s with store := s.store.commit db })) ∨
      ∃ e store, exec (update f) s = (.error e, { s with store }) ∧
        store.cur = s.store.cur ∧ store.commits = s.store.commits := by
  rw [update, exec_focus]
  rcases Store.exec_update f s.store with ⟨db, hf, hrun⟩ | ⟨e, store, hrun, hcur, hcommits⟩
  · exact Or.inl ⟨db, hf, by rw [hrun]⟩
  · exact Or.inr ⟨e, store, by rw [hrun], hcur, hcommits⟩

theorem exec_update_of_ok {f : Buckets → Except GoError Buckets} {s : Rebuild}
    (hf : f s.store.cur = .ok db) (hanswers : s.store.answers = []) :
    exec (update f) s = (.ok (), { s with store := s.store.commit db }) := by
  rw [update, exec_focus, Store.exec_update_of_ok hf hanswers]

/-- What a rebuild can leave behind.  Every commit but the last of a rebuild that succeeds stores the
tip `-1`. -/
theorem commits_fastRebuild (parsePubKey : ParsePubKey) (chain : Option ChainAccessor)
    (chainTipHeight : Int32) (s : Rebuild) :
    ∃ new, (∀ db ∈ new, NoTip db) ∧
      match exec (fastRebuildFromUTXO parsePubKey chain chainTipHeight) s with
      | (.error _, s') => s'.store.commits = s.store.commits ++ new
      | (.ok _, s') => s'.store.commits = s.store.commits ++ new ++ [s'.store.cur] := by
  rcases chain with _ | chain
  · exact ⟨[], by simp, by rw [append_nil]; rfl⟩
  rw [fastRebuildFromUTXO]
  rcases exec_update (fun db => .ok (clearExpiryIndexBuckets db)) s with
    ⟨db, hdb, hclear⟩ | ⟨e, store, hclear, -, hcommits⟩
  swap
  · rw [exec_bind, exec_mapError_of_error hclear]
    exact ⟨[], by simp, by rw [append_nil]; exact hcommits⟩
  cases hdb
  rw [exec_bind, exec_mapError_of_ok hclear]
  dsimp only
  rw [exec_modify_bind]
  -- from here on the stored tip is gone
  generalize hs₁ : ({ s with
    store := s.store.commit (clearExpiryIndexBuckets s.store.cur)
    idx := { s.idx with curTipHeight := -1 }, mh := MuHash.new, batch := [] } : Rebuild) = s₁
  have hcur : NoTip s₁.store.cur := by
    rw [← hs₁]
    exact noTip_clear _
  have hcommits : s₁.store.commits =
      s.store.commits ++ [clearExpiryIndexBuckets s.store.cur] := by rw [← hs₁]; rfl
  have hkeeps := Keeps.onError (keeps_populate parsePubKey chain) (fun _ => keeps_resetToEmpty) s₁
  rw [exec_bind]
  rcases hrun : exec (onError (populate parsePubKey chain) fun _ => resetToEmpty) s₁ with ⟨r, s₂⟩
  rw [hrun] at hkeeps
  obtain ⟨hcur₂, new, hnew, hall⟩ := hkeeps hcur
  have hall' : ∀ db ∈ clearExpiryIndexBuckets s.store.cur :: new, NoTip db :=
    forall_mem_cons.2 ⟨noTip_clear _, hall⟩
  cases r with
  | error e =>
    refine ⟨_, hall', ?_⟩
    dsimp only
    rw [hnew, hcommits, append_assoc, singleton_append]
  | ok a =>
    dsimp only
    rw [exec_get_bind, exec_bind]
    rcases exec_update (finalize chain chainTipHeight s₂.mh) s₂ with
      ⟨db, -, hfin⟩ | ⟨e, store, hfin, hstore, hstore'⟩
    · rw [exec_onError_eq_ok.2 hfin]
      refine ⟨_, hall', ?_⟩
      change s₂.store.commits ++ [db] = _
      rw [hnew, hcommits, append_assoc s.store.commits, singleton_append]
      rfl
    · obtain ⟨-, new', hnew', hall''⟩ := keeps_resetToEmpty { s₂ with store } (by rwa [hstore])
      rw [exec_onError_eq_error.2 ⟨_, hfin, rfl⟩]
      refine ⟨_, forall_mem_append.2 ⟨hall', hall''⟩, ?_⟩
      change (exec resetToEmpty { s₂ with store }).2.store.commits = _
      rw [hnew', hstore', hnew, hcommits]
      simp

/-! ## Run to its end -/

/-- The batch entry of an output. -/
def batchEntry (p : ExpiryParams) (e : UTXOSnapshotEntry) : RebuildBatchEntry :=
  ⟨e.outPoint, p.calculateExpiryKey e.blockHeight, e.amount⟩

/-- The entries that are indexed. -/
def covered (p : ExpiryParams) (es : List UTXOSnapshotEntry) : List UTXOSnapshotEntry :=
  es.filter fun e => p.covers e.blockHeight

variable {e : UTXOSnapshotEntry} {p : ExpiryParams}

theorem covered_of_covers (h : p.covers e.blockHeight = true) (es : List UTXOSnapshotEntry) :
    covered p (es ++ [e]) = covered p es ++ [e] := by
  rw [covered, filter_append, filter_singleton, h]
  rfl

theorem covered_of_not_covers (h : ¬ p.covers e.blockHeight = true) (es : List UTXOSnapshotEntry) :
    covered p (es ++ [e]) = covered p es := by
  rw [covered, filter_append, filter_singleton, eq_false_of_ne_true h]
  exact append_nil _

/-- The four writes for an entry. -/
def enter (db : Buckets) (e : RebuildBatchEntry) : Buckets :=
  db.putEntry e.outpoint e.expiryKey (reapStrictKey e.expiryKey e.amount e.outpoint)

theorem putBatch_eq {batch : List RebuildBatchEntry} (h : ∀ e ∈ batch, 0 ≤ e.amount) (db : Buckets) :
    batch.foldlM putBatchEntry db = .ok (batch.foldl enter db) := by
  induction batch generalizing db with
  | nil => rfl
  | cons e batch ih =>
    obtain ⟨he, hrest⟩ := forall_mem_cons.1 h
    rw [foldlM_cons, putBatchEntry, putTxOutMapping, encodeReapStrictCompositeKey,
      if_neg (Int64.not_lt.2 he)]
    exact ih hrest _

/-- Some entries have been dealt with: those to be indexed are in the accumulator, and in the database
or in the batch, as if there were no batches. -/
structure Progress (idx : Index) (db₀ : Buckets) (done : List UTXOSnapshotEntry) (s : Rebuild) :
    Prop where
  idx_eq : s.idx = idx
  answers : s.store.answers = []
  mh : s.mh = ((covered idx.expiryParams done).map fun e =>
    computeEntryData e.outPoint (idx.expiryParams.calculateExpiryKey e.blockHeight)).foldl
      MuHash.add MuHash.new
  amounts : ∀ e ∈ s.batch, 0 ≤ e.amount
  written : ∃ flushed, flushed ++ s.batch =
      (covered idx.expiryParams done).map (batchEntry idx.expiryParams) ∧
    s.store.cur = flushed.foldl enter db₀

variable {idx : Index} {db₀ : Buckets} {done : List UTXOSnapshotEntry} {s : Rebuild}

theorem Progress.flushBatch (h : Progress idx db₀ done s) :
    ∃ s', exec flushBatch s = (.ok (), s') ∧ Progress idx db₀ done s' ∧ s'.batch = [] := by
  rw [Rebuild.flushBatch, exec_get_bind]
  by_cases hempty : s.batch.isEmpty = true
  · rw [if_pos hempty]
    exact ⟨s, rfl, h, isEmpty_iff.1 hempty⟩
  · have hupdate : exec (update fun db => s.batch.foldlM putBatchEntry db) s =
        (.ok (), { s with store := s.store.commit (s.batch.foldl enter s.store.cur) }) :=
      exec_update_of_ok (putBatch_eq h.amounts _) h.answers
    rw [if_neg hempty, exec_bind_of_ok hupdate, exec_modify]
    refine ⟨_, rfl, ⟨h.idx_eq, ?_, h.mh, by simp, ?_⟩, rfl⟩
    · change s.store.answers.tail = []
      rw [h.answers, tail_nil]
    · obtain ⟨flushed, hflushed, hcur⟩ := h.written
      refine ⟨flushed ++ s.batch, by rw [append_nil, hflushed], ?_⟩
      change s.batch.foldl enter s.store.cur = _
      rw [hcur, foldl_append]

theorem Progress.processUTXO (h : Progress idx db₀ done s) (he : 0 ≤ e.amount) :
    ∃ s', exec (processUTXO e) s = (.ok ⟨⟩, s') ∧ Progress idx db₀ (done ++ [e]) s' := by
  rw [Rebuild.processUTXO, exec_get_bind, h.idx_eq]
  by_cases hcov : idx.expiryParams.covers e.blockHeight = true
  · have hcovered := covered_of_covers hcov done
    rw [if_neg (by simp [hcov])]
    rw [exec_modify_bind, exec_get_bind]
    have hnext : Progress idx db₀ (done ++ [e])
        { s with
          mh := s.mh.add (computeEntryData e.outPoint
            (idx.expiryParams.calculateExpiryKey e.blockHeight))
          batch := s.batch ++ [batchEntry idx.expiryParams e] } := by
      refine ⟨h.idx_eq, h.answers, ?_, ?_, ?_⟩
      · rw [hcovered, map_append, foldl_append, ← h.mh]
        rfl
      · exact forall_mem_append.2 ⟨h.amounts, by simpa [batchEntry] using he⟩
      · obtain ⟨flushed, hflushed, hcur⟩ := h.written
        refine ⟨flushed, ?_, hcur⟩
        rw [hcovered, map_append, ← hflushed, append_assoc]
        rfl
    split
    · obtain ⟨s', hrun, hprog, -⟩ := hnext.flushBatch
      exact ⟨s', hrun, hprog⟩
    · exact ⟨_, rfl, hnext⟩
  · have hcovered := covered_of_not_covers hcov done
    rw [if_pos (by simp [hcov])]
    refine ⟨s, rfl, h.idx_eq, h.answers, ?_, h.amounts, ?_⟩
    · rw [hcovered]
      exact h.mh
    · rw [hcovered]
      exact h.written

variable {es : List UTXOSnapshotEntry}

/-- The walk deals with every entry. -/
theorem Progress.forM (h : Progress idx db₀ done s) (hes : ∀ e ∈ es, 0 ≤ e.amount) :
    ∃ s', exec (es.forM Rebuild.processUTXO) s = (.ok ⟨⟩, s') ∧
      Progress idx db₀ (done ++ es) s' := by
  induction es generalizing done s with
  | nil => exact ⟨s, rfl, by rwa [append_nil]⟩
  | cons e es ih =>
    obtain ⟨he, hrest⟩ := forall_mem_cons.1 hes
    obtain ⟨s₁, hrun₁, hprog₁⟩ := h.processUTXO he
    obtain ⟨s₂, hrun₂, hprog₂⟩ := ih hprog₁ hrest
    refine ⟨s₂, ?_, by rwa [append_cons]⟩
    exact (exec_bind_of_ok hrun₁).trans hrun₂

/-! ## What has been entered -/

/-- The set of coins of some entries. -/
def tableOf (es : List UTXOSnapshotEntry) : Utxos :=
  es.foldl (fun u e => u.insert e.outPoint e.coin) ∅

theorem tableOf_append (es : List UTXOSnapshotEntry) (e : UTXOSnapshotEntry) :
    tableOf (es ++ [e]) = (tableOf es).insert e.outPoint e.coin := by
  rw [tableOf, foldl_append]
  rfl

theorem getElem?_tableOf (hnodup : (es.map (·.outPoint)).Nodup) {op : OutPoint} {coin : SpentTxOut} :
    (tableOf es)[op]? = some coin ↔ ∃ e ∈ es, e.outPoint = op ∧ e.coin = coin := by
  induction es using List.reverseRecOn with
  | nil => simp [tableOf]
  | append_singleton es e ih =>
    rw [map_append, nodup_append] at hnodup
    obtain ⟨hnodup, -, hdisj⟩ := hnodup
    rw [tableOf_append, getElem?_insert']
    simp only [mem_append, mem_singleton, or_and_right, exists_or, exists_eq_left]
    split_ifs with hop
    · rw [Option.some.injEq]
      constructor
      · exact fun hcoin => Or.inr ⟨hop, hcoin⟩
      · rintro (⟨e', he', hop', -⟩ | ⟨-, hcoin⟩)
        · exact absurd (hop'.trans hop.symm)
            (hdisj _ (mem_map_of_mem he') _ (mem_map_of_mem (mem_singleton_self e)))
        · exact hcoin
    · rw [ih hnodup, or_iff_left fun h => hop h.1]

/-- Entering the covered entries makes the buckets of their set. -/
theorem repBuckets_enter (h₀ : idx.expiryParams.RepBuckets ∅ db₀)
    (hnodup : (es.map (·.outPoint)).Nodup) (hamounts : ∀ e ∈ es, 0 ≤ e.amount) :
    idx.expiryParams.RepBuckets (tableOf es)
      (((covered idx.expiryParams es).map (batchEntry idx.expiryParams)).foldl enter db₀) := by
  induction es using List.reverseRecOn with
  | nil => exact h₀
  | append_singleton es e ih =>
    obtain ⟨hamounts, he⟩ := forall_mem_append.1 hamounts
    have hnodup' := hnodup
    rw [map_append, nodup_append] at hnodup'
    have hrep := ih hnodup'.1 hamounts
    have hnew : (tableOf es)[e.outPoint]? = none := by
      rw [Option.eq_none_iff_forall_ne_some]
      intro coin hget
      obtain ⟨e', he', hop, -⟩ := (getElem?_tableOf hnodup'.1).1 hget
      exact hnodup'.2.2 _ (mem_map_of_mem he') _ (mem_map_of_mem (mem_singleton_self e)) hop
    rw [tableOf_append]
    by_cases hcov : idx.expiryParams.covers e.blockHeight = true
    · have hcov' : idx.expiryParams.Covers e.coin := hcov
      have hconnect := (hrep.connect hnew hcov' (he e (mem_singleton_self e))).2
      rwa [covered_of_covers hcov, map_append, foldl_append]
    · have hcov' : ¬ idx.expiryParams.Covers e.coin := hcov
      rw [covered_of_not_covers hcov]
      exact hrep.connect_skip hnew hcov'

/-- A database that was cleared has the buckets of the empty set. -/
theorem repBuckets_clear (p : ExpiryParams) (db : Buckets) :
    p.RepBuckets ∅ (clearExpiryIndexBuckets db) := by
  change p.RepBuckets ∅ ⟨_, clearBucket _, clearBucket _, clearBucket _, clearBucket _⟩
  simp only [clearBucket_eq]
  exact ExpiryParams.repBuckets_empty _

/-- The state in which the walk over the coins starts. -/
def cleared (s : Rebuild) : Rebuild :=
  ⟨s.store.commit (clearExpiryIndexBuckets s.store.cur), ⟨s.idx.expiryParams, -1, s.idx.disabled⟩,
    MuHash.new, []⟩

theorem progress_cleared (hanswers : s.store.answers = []) :
    Progress (cleared s).idx (clearExpiryIndexBuckets s.store.cur) [] (cleared s) := by
  refine ⟨rfl, ?_, rfl, by simp [cleared], ⟨[], rfl, rfl⟩⟩
  change s.store.answers.tail = []
  rw [hanswers, tail_nil]

variable {chain : ChainAccessor}

theorem finalize_eq {chainTipHeight : Int32} {tipHash : Hash}
    (htip : 0 ≤ chainTipHeight → ∃ block, chain.blockByHeight chainTipHeight = .ok block ∧
      block.hash = tipHash)
    (hnone : chainTipHeight < 0 → tipHash = Hash.zero) (mh : MuHash) (db : Buckets) :
    finalize chain chainTipHeight mh db = .ok (dbPutTipHeightIndexed
      (dbPutAccumulatorTipHash (dbPutAccumulatorState db mh) tipHash) chainTipHeight) := by
  rw [finalize]
  by_cases hpos : 0 ≤ chainTipHeight
  · obtain ⟨block, hblock, rfl⟩ := htip hpos
    rw [if_pos hpos, hblock]
    rfl
  · rw [if_neg hpos, hnone (Int32.not_le.1 hpos)]
    rfl

/-- The rebuild enters everything and stores the accumulator and the tip. -/
theorem exec_fastRebuild {parsePubKey : ParsePubKey} {bucket : Bucket}
    (hbucket : chain.utxoBucket = some bucket)
    (hamounts : ∀ e ∈ snapshotEntries parsePubKey bucket, 0 ≤ e.amount) {chainTipHeight : Int32}
    {tipHash : Hash}
    (htip : 0 ≤ chainTipHeight → ∃ block, chain.blockByHeight chainTipHeight = .ok block ∧
      block.hash = tipHash)
    (hnone : chainTipHeight < 0 → tipHash = Hash.zero) (hanswers : s.store.answers = []) :
    ∃ s' mh, exec (fastRebuildFromUTXO parsePubKey (some chain) chainTipHeight) s = (.ok (), s') ∧
      s'.idx = ⟨s.idx.expiryParams, chainTipHeight, s.idx.disabled⟩ ∧
      mh = ((covered s.idx.expiryParams (snapshotEntries parsePubKey bucket)).map fun e =>
        computeEntryData e.outPoint (s.idx.expiryParams.calculateExpiryKey e.blockHeight)).foldl
          MuHash.add MuHash.new ∧
      s'.store.cur = dbPutTipHeightIndexed (dbPutAccumulatorTipHash (dbPutAccumulatorState
        (((covered s.idx.expiryParams (snapshotEntries parsePubKey bucket)).map
          (batchEntry s.idx.expiryParams)).foldl enter (clearExpiryIndexBuckets s.store.cur)) mh)
            tipHash) chainTipHeight := by
  have hclear : exec (update fun db => .ok (clearExpiryIndexBuckets db)) s =
      (.ok (), { s with store := s.store.commit (clearExpiryIndexBuckets s.store.cur) }) :=
    exec_update_of_ok rfl hanswers
  obtain ⟨s₁, hrun₁, hprog₁⟩ := (progress_cleared hanswers).forM hamounts
  obtain ⟨s₂, hrun₂, hprog₂, hbatch⟩ := hprog₁.flushBatch
  have hpopulate : exec (populate parsePubKey chain) (cleared s) = (.ok (), s₂) := by
    rw [populate, hbucket]
    exact (exec_bind_of_ok hrun₁).trans hrun₂
  have hupdate := exec_update_of_ok (finalize_eq htip hnone s₂.mh s₂.store.cur) hprog₂.answers
  obtain ⟨flushed, hflushed, hcur⟩ := hprog₂.written
  rw [hbatch, append_nil, nil_append] at hflushed
  rw [hflushed] at hcur
  refine ⟨⟨s₂.store.commit (dbPutTipHeightIndexed (dbPutAccumulatorTipHash
      (dbPutAccumulatorState s₂.store.cur s₂.mh) tipHash) chainTipHeight),
    ⟨s₂.idx.expiryParams, chainTipHeight, s₂.idx.disabled⟩, s₂.mh, s₂.batch⟩, s₂.mh, ?_, ?_, ?_, ?_⟩
  · rw [fastRebuildFromUTXO, exec_bind_of_ok (exec_mapError_of_ok hclear), exec_modify_bind]
    refine (exec_bind_of_ok (exec_onError_eq_ok.2 hpopulate)).trans ?_
    rw [exec_get_bind]
    refine (exec_bind_of_ok (exec_onError_eq_ok.2 hupdate)).trans ?_
    rw [exec_modify]
  · rw [hprog₂.idx_eq]
    rfl
  · rw [hprog₂.mh, nil_append]
    rfl
  · change dbPutTipHeightIndexed (dbPutAccumulatorTipHash (dbPutAccumulatorState s₂.store.cur _) _) _ =
      _
    rw [hcur]
    rfl

/-! ## The same index -/

/-- The coins above height zero are those of `u`. -/
def SameAbove (u u' : Utxos) : Prop :=
  ∀ (op : OutPoint) (coin : SpentTxOut), 0 < coin.height → (u[op]? = some coin ↔ u'[op]? = some coin)

theorem repBuckets_of_sameAbove {p : ExpiryParams} (hp : p.startScanHeight = 0) {u u' : Utxos}
    (hsame : SameAbove u u') {db : Buckets} (h : p.RepBuckets u db)
    (hdb : db'.outpoint2Expiry = db.outpoint2Expiry ∧ db'.expiry2Outpoints = db.expiry2Outpoints ∧
      db'.reapStrictCandidates = db.reapStrictCandidates ∧
      db'.outpoint2ReapStrict = db.outpoint2ReapStrict) :
    p.RepBuckets u' db' := by
  have htable : ∀ {b : Bucket} {key val : OutPoint → SpentTxOut → Bytes},
      Tabulates b u p.Covers key val → Tabulates b u' p.Covers key val := by
    intro b key val htab k v
    rw [htab k v]
    refine exists_congr fun op => exists_congr fun coin => ?_
    constructor
    · rintro ⟨hget, hcov, hrest⟩
      exact ⟨(hsame op coin ((covers_iff hp coin).1 hcov)).1 hget, hcov, hrest⟩
    · rintro ⟨hget, hcov, hrest⟩
      exact ⟨(hsame op coin ((covers_iff hp coin).1 hcov)).2 hget, hcov, hrest⟩
  obtain ⟨h₁, h₂, h₃, h₄⟩ := hdb
  refine ⟨h₁ ▸ htable h.outpoint2Expiry, h₂ ▸ htable h.expiry2Outpoints,
    h₃ ▸ htable h.reapStrictCandidates, h₄ ▸ htable h.outpoint2ReapStrict, ?_⟩
  intro op coin hget hcov
  exact h.amounts op coin ((hsame op coin ((covers_iff hp coin).1 hcov)).2 hget) hcov

/-- Two databases of an index that hold the same outputs and the same tip, and whose accumulators have
the same root. -/
structure SameIndex (idx idx' : Index) (db db' : Buckets) : Prop where
  outpoint2Expiry : db'.outpoint2Expiry = db.outpoint2Expiry
  expiry2Outpoints : db'.expiry2Outpoints = db.expiry2Outpoints
  reapStrictCandidates : db'.reapStrictCandidates = db.reapStrictCandidates
  outpoint2ReapStrict : db'.outpoint2ReapStrict = db.outpoint2ReapStrict
  root : ¬ muhashPrime.Prime ∨ ∃ root, idx.getAccumulatorDigest db = .ok root ∧
    idx'.getAccumulatorDigest db' = .ok root
  tipHeight : ∃ height, dbGetTipHeightIndexed db = .ok height ∧ dbGetTipHeightIndexed db' = .ok height
  tipHash : ∃ hash, dbGetAccumulatorTipHash db = .ok hash ∧ dbGetAccumulatorTipHash db' = .ok hash

theorem sameIndex_of_stored {idx' : Index} {c : Chain} (hidx : Enabled idx) (hidx' : Enabled idx')
    (hparams : idx'.expiryParams = idx.expiryParams) (h : Stored idx.expiryParams c db)
    (h' : Stored idx.expiryParams c db') : SameIndex idx idx' db db' := by
  refine ⟨h'.buckets.outpoint2Expiry.unique h.buckets.outpoint2Expiry,
    h'.buckets.expiry2Outpoints.unique h.buckets.expiry2Outpoints,
    h'.buckets.reapStrictCandidates.unique h.buckets.reapStrictCandidates,
    h'.buckets.outpoint2ReapStrict.unique h.buckets.outpoint2ReapStrict, ?_,
    ⟨_, h.tipHeight, h'.tipHeight⟩, ⟨_, h.tipHash, h'.tipHash⟩⟩
  by_cases hp : muhashPrime.Prime
  swap
  · exact Or.inl hp
  rw [← hparams] at h'
  refine Or.inr ⟨_, getAccumulatorDigest_of_stored hidx h ⟨hp⟩, ?_⟩
  rw [getAccumulatorDigest_of_stored hidx' h' ⟨hp⟩, hparams]

variable {parsePubKey : ParsePubKey} {bucket : Bucket}

/-- The entries that the walk adds to the accumulator are those of the set of coins. -/
theorem entries_perm_covered (hparse : Decompresses parsePubKey) {u : Utxos}
    (hstore : StoresUtxos parsePubKey bucket u) :
    ((covered p (snapshotEntries parsePubKey bucket)).map fun e =>
      computeEntryData e.outPoint (p.calculateExpiryKey e.blockHeight)).Perm (p.entries u) := by
  have hnodup : ((snapshotEntries parsePubKey bucket).map fun e => (e.outPoint, e.coin)).Nodup := by
    have h := hstore.nodup_snapshotEntries hparse
    refine List.Nodup.of_map Prod.fst ?_
    rwa [map_map]
  have hperm : ((snapshotEntries parsePubKey bucket).map fun e => (e.outPoint, e.coin)).Perm
      u.toList := by
    refine (perm_ext_iff_of_nodup hnodup (nodup_toList u)).2 ?_
    rintro ⟨op, coin⟩
    rw [mem_toList, mem_map]
    constructor
    · rintro ⟨e, he, heq⟩
      cases heq
      exact (hstore.mem_snapshotEntries hparse).1 he
    · intro hget
      exact ⟨snapshotOf op coin, (hstore.mem_snapshotEntries hparse).2 hget, rfl⟩
  have h := (hperm.filter fun r => p.covers r.2.height).map fun r => p.entryOf r.1 r.2
  rw [filter_map, map_map] at h
  exact h

/-- The set of coins that the walk has entered is the one that is stored. -/
theorem tableOf_snapshotEntries (hparse : Decompresses parsePubKey) {u : Utxos}
    (hstore : StoresUtxos parsePubKey bucket u) :
    tableOf (snapshotEntries parsePubKey bucket) = u := by
  refine ext' fun op => Option.ext fun coin => ?_
  rw [getElem?_tableOf (hstore.nodup_snapshotEntries hparse)]
  constructor
  · rintro ⟨e, he, rfl, rfl⟩
    exact (hstore.mem_snapshotEntries hparse).1 he
  · intro hget
    exact ⟨snapshotOf op coin, (hstore.mem_snapshotEntries hparse).2 hget, rfl, rfl⟩

/-- A rebuild makes the index of the chain. -/
theorem stored_fastRebuild {c : Chain} (hidx : Enabled s.idx) (hc : Undoable s.idx.expiryParams c)
    (hparse : Decompresses parsePubKey) {u : Utxos} (hstore : StoresUtxos parsePubKey bucket u)
    (hsame : SameAbove u c.utxos) (hbucket : chain.utxoBucket = some bucket)
    (hblock : ∀ l c', c = l :: c' → chain.blockByHeight l.block.height = .ok l.block)
    (hanswers : s.store.answers = []) :
    ∃ s', exec (fastRebuildFromUTXO parsePubKey (some chain) c.tipHeight) s = (.ok (), s') ∧
      s'.idx = ⟨s.idx.expiryParams, c.tipHeight, s.idx.disabled⟩ ∧
      Stored s.idx.expiryParams c s'.store.cur := by
  have hamounts : ∀ e ∈ snapshotEntries parsePubKey bucket, 0 ≤ e.amount := fun e he =>
    (hstore.storable _ _ ((hstore.mem_snapshotEntries hparse).1 he)).amount_nonneg
  have htip : 0 ≤ c.tipHeight → ∃ block,
      chain.blockByHeight c.tipHeight = .ok block ∧ block.hash = c.tipHash := by
    intro hpos
    rcases c with _ | ⟨l, c⟩
    · exact absurd hpos (by decide)
    · exact ⟨l.block, hblock l c rfl, rfl⟩
  have hnone : c.tipHeight < 0 → c.tipHash = Hash.zero := by
    intro hneg
    rcases c with _ | ⟨l, c⟩
    · rfl
    · have hheight := hc.2.2.2.height_nonneg hc.1
      have hlt := Int32.lt_iff_toInt_lt.1 hneg
      rw [Int32.toInt_zero] at hlt
      exact absurd hlt (Int.not_lt.2 hheight)
  obtain ⟨s', mh, hrun, hidx', hmh, hcur⟩ := exec_fastRebuild hbucket hamounts htip hnone hanswers
  have hrep := repBuckets_enter (repBuckets_clear s.idx.expiryParams s.store.cur)
    (hstore.nodup_snapshotEntries hparse) hamounts
  rw [tableOf_snapshotEntries hparse hstore] at hrep
  have hacc := accumulates_foldl ((covered s.idx.expiryParams
    (snapshotEntries parsePubKey bucket)).map fun e =>
      computeEntryData e.outPoint (s.idx.expiryParams.calculateExpiryKey e.blockHeight))
  rw [← hmh] at hacc
  have hindexed : ∀ op height, IndexedAt u op height ↔ IndexedAt c.utxos op height := by
    intro op height
    refine and_congr_right fun hpos => exists_congr fun coin => ?_
    constructor
    · rintro ⟨hget, rfl⟩
      exact ⟨(hsame op coin hpos).1 hget, rfl⟩
    · rintro ⟨hget, rfl⟩
      exact ⟨(hsame op coin hpos).2 hget, rfl⟩
  refine ⟨s', hrun, hidx', ?_⟩
  rw [hcur]
  refine ⟨repBuckets_of_sameAbove hidx.startScan hsame hrep ⟨rfl, rfl, rfl, rfl⟩, ⟨mh, ?_, ?_⟩, ?_, ?_⟩
  · rw [dbGetAccumulatorState_putHeight, dbGetAccumulatorState_putTipHash,
      dbGetAccumulatorState_put _ _ hacc.reduced]
  · exact (hacc.perm (entries_perm_covered hparse hstore)).perm (entries_perm hidx.startScan hindexed)
  · rw [dbGetTipHeightIndexed_put]
  · rw [dbGetAccumulatorTipHash_putHeight, dbGetAccumulatorTipHash_put]

/-- **A fast rebuild makes the index that connecting the blocks makes**, whatever was there before; and
when it is stopped or fails between two of its transactions, the stored tip is `-1`. -/
theorem fastRebuild_eq_connect :
    (∀ (params : Chaincfg.Params) (c : Chain) (idx : Index) (db : Buckets), Run params c idx db →
      ∀ (parsePubKey : ParsePubKey), Decompresses parsePubKey →
      ∀ (bucket : Bucket) (u : Utxos), StoresUtxos parsePubKey bucket u → SameAbove u c.utxos →
      ∀ (chain : ChainAccessor), chain.utxoBucket = some bucket →
        (∀ l c', c = l :: c' → chain.blockByHeight l.block.height = .ok l.block) →
      ∀ (prev : Buckets) (tip : Int32), ∃ s',
        Prog.exec (fastRebuildFromUTXO parsePubKey (some chain) c.tipHeight)
          { store := { cur := prev }, idx := ⟨idx.expiryParams, tip, false⟩ } = (.ok (), s') ∧
        SameIndex idx s'.idx db s'.store.cur) ∧
    ∀ (parsePubKey : ParsePubKey) (chain : Option ChainAccessor) (chainTipHeight : Int32)
      (s : Rebuild), ∃ new, (∀ db ∈ new, dbGetTipHeightIndexed db = .ok (-1)) ∧
        match Prog.exec (fastRebuildFromUTXO parsePubKey chain chainTipHeight) s with
        | (.error _, s') => s'.store.commits = s.store.commits ++ new
        | (.ok _, s') => s'.store.commits = s.store.commits ++ new ++ [s'.store.cur] := by
  refine ⟨?_, commits_fastRebuild⟩
  intro params c idx db hrun parsePubKey hparse bucket u hstore hsame chain hbucket hblock prev tip
  obtain ⟨-, hidx, hundo, hst⟩ := hrun.stored
  have hidx' : Enabled ⟨idx.expiryParams, tip, false⟩ := ⟨rfl, hidx.startScan⟩
  obtain ⟨s', hexec, heq, hst'⟩ := stored_fastRebuild
    (s := { store := { cur := prev }, idx := ⟨idx.expiryParams, tip, false⟩ }) hidx' hundo hparse hstore
    hsame hbucket hblock rfl
  refine ⟨s', hexec, sameIndex_of_stored hidx ?_ ?_ hst hst'⟩
  · rw [heq]
    exact ⟨rfl, hidx.startScan⟩
  · rw [heq]

/-- The output of the second block of the sample chain. -/
def sampleOp : OutPoint := (sampleCoinbase 1).outPoint 0

def sampleCoin : SpentTxOut := ⟨1, [], 1, true⟩

/-- The bytes it is stored as. -/
def sampleValue : Bytes := [3, 1, 6]

theorem storesUtxos_sample : StoresUtxos parseGenerator
    ((∅ : Bucket).insert (outpointKey sampleOp) sampleValue)
    ((∅ : Utxos).insert sampleOp sampleCoin) := by
  have hvalue : serializeUtxoEntry parseGenerator (UtxoEntry.ofCoin sampleCoin) =
      .ok (some sampleValue) := by decide +kernel
  constructor
  · intro k v
    rw [getElem?_insert']
    constructor
    · intro hget
      split_ifs at hget with hk
      · rw [← Option.some.inj hget]
        exact ⟨sampleOp, sampleCoin, by simp, hk, hvalue⟩
      · simp at hget
    · rintro ⟨op, coin, hget, rfl, hser⟩
      rw [getElem?_insert'] at hget
      split_ifs at hget with hop
      · rw [← Option.some.inj hget, hvalue] at hser
        rw [if_pos (congrArg outpointKey hop), Option.some.inj (Except.ok.inj hser)]
      · simp at hget
  · intro op coin hget
    rw [getElem?_insert'] at hget
    split_ifs at hget with hop
    · rw [← Option.some.inj hget]
      exact ⟨by decide, by decide, by decide, by decide⟩
    · simp at hget

theorem sameAbove_sample : SameAbove ((∅ : Utxos).insert sampleOp sampleCoin)
    (Chain.utxos [sampleLink [sampleLink []], sampleLink []]) := by
  have hlist : (Chain.utxos [sampleLink [sampleLink []], sampleLink []]).toList.filter
      (fun r => decide (0 < r.2.height)) = [(sampleOp, sampleCoin)] := by decide +kernel
  intro op coin hpos
  rw [← mem_toList (Chain.utxos _), getElem?_insert']
  constructor
  · intro hget
    split_ifs at hget with hop
    · rw [← hop, ← Option.some.inj hget]
      exact (mem_filter.1 (hlist ▸ mem_singleton_self (sampleOp, sampleCoin))).1
    · simp at hget
  · intro hmem
    have hmem' : (op, coin) ∈ (Chain.utxos [sampleLink [sampleLink []], sampleLink []]).toList.filter
        (fun r => decide (0 < r.2.height)) := mem_filter.2 ⟨hmem, decide_eq_true hpos⟩
    rw [hlist, mem_singleton] at hmem'
    cases hmem'
    rw [if_pos rfl]

theorem fastRebuild_eq_connect_sample : ∃ (idx : Index) (db : Buckets) (s' : Rebuild),
    Run Chaincfg.obtcRegTestParams [sampleLink [sampleLink []], sampleLink []] idx db ∧
    Prog.exec (fastRebuildFromUTXO parseGenerator
      (some ⟨fun _ => .ok (sampleLink [sampleLink []]).block,
        some ((∅ : Bucket).insert (outpointKey sampleOp) sampleValue)⟩) 1)
      { store := { cur := createIndex }, idx := ⟨idx.expiryParams, -1, false⟩ } = (.ok (), s') ∧
    SameIndex idx s'.idx db s'.store.cur := by
  obtain ⟨s, -, -, hrun, -⟩ := sampleRun_run
  obtain ⟨s', hexec, hsame⟩ := fastRebuild_eq_connect.1 _ _ _ _ hrun parseGenerator
    decompresses_parseGenerator _ _ storesUtxos_sample sameAbove_sample
    ⟨fun _ => .ok (sampleLink [sampleLink []]).block,
      some ((∅ : Bucket).insert (outpointKey sampleOp) sampleValue)⟩ rfl
    (by rintro l c' h; rw [(List.cons.inj h).1]) createIndex (-1)
  have htip : Chain.tipHeight [sampleLink [sampleLink []], sampleLink []] = 1 := by decide +kernel
  rw [htip] at hexec
  exact ⟨s.1, s.2, s', hrun, hexec, hsame⟩

end Rebuild

end ExpiryIndex

end Obtcd
