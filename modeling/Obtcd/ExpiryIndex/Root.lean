import Obtcd.ExpiryIndex.Run

/-!
# The expiry root

The root is the digest of the accumulator, and the accumulator is a fraction whose halves remember
every entry that was ever added or removed.  What a history leaves in them depends on the history;
what the digest sees does not.  By `Run.stored` the fraction stands for the product of the residues
of the entries that are in the index now, so two histories that end with the same indexed outputs
have one root, and it is the root of a fresh accumulator to which those entries are added in any
order.

All of this is relative to the primality of the modulus, which is what makes every residue
invertible.
-/

namespace Obtcd.ExpiryIndex

open Ledger

theorem accumulates_foldl (data : List Bytes) :
    ExpiryParams.Accumulates (data.foldl MuHash.add MuHash.new) data := by
  have h : ∀ (mh : MuHash) (done : List Bytes), ExpiryParams.Accumulates mh done →
      ExpiryParams.Accumulates (data.foldl MuHash.add mh) (data.reverse ++ done) := by
    induction data with
    | nil => exact fun mh done h => h
    | cons e data ih =>
      intro mh done h
      rw [List.foldl_cons, List.reverse_cons, List.append_assoc]
      exact ih _ _ (h.add e)
  have hnew := h MuHash.new [] ExpiryParams.accumulates_new
  rw [List.append_nil] at hnew
  exact hnew.perm (List.reverse_perm data)

theorem computeEntryData_inj {op op' : OutPoint} {k k' : UInt64}
    (h : computeEntryData op k = computeEntryData op' k') : op = op' ∧ k = k' := by
  obtain ⟨hop, hk⟩ := List.append_inj h (by simp)
  exact ⟨OutPoint.write_injective hop, encodeExpiryKey_inj.1 hk⟩

/-- The entries of a set, one for each covered coin. -/
theorem mem_entries {p : ExpiryParams} {u : Utxos} {e : Bytes} :
    e ∈ p.entries u ↔ ∃ op coin, u[op]? = some coin ∧ p.Covers coin ∧ p.entryOf op coin = e := by
  simp only [ExpiryParams.entries, List.mem_map, List.mem_filter, Prod.exists, OrdMap.mem_toList,
    ExpiryParams.Covers, and_assoc]

theorem nodup_entries (p : ExpiryParams) (u : Utxos) : (p.entries u).Nodup := by
  rw [ExpiryParams.entries, List.Nodup, List.pairwise_map]
  refine List.Pairwise.filter _ ?_
  refine (Std.ExtTreeMap.distinct_keys_toList (t := u)).imp ?_
  intro a b hne heq
  exact hne (by rw [(computeEntryData_inj heq).1]; exact Std.ReflCmp.compare_self)

/-- The outputs that are indexed: their outpoints and create heights. -/
def IndexedAt (u : Utxos) (op : OutPoint) (height : Int32) : Prop :=
  0 < height ∧ ∃ coin, u[op]? = some coin ∧ coin.height = height

/-- Sets with the same indexed outputs have the same entries. -/
theorem entries_perm {p : ExpiryParams} (hp : p.startScanHeight = 0) {u u' : Utxos}
    (h : ∀ op height, IndexedAt u op height ↔ IndexedAt u' op height) :
    (p.entries u).Perm (p.entries u') := by
  refine (List.perm_ext_iff_of_nodup (nodup_entries p u) (nodup_entries p u')).2 fun e => ?_
  have hmem : ∀ v : Utxos, e ∈ p.entries v ↔ ∃ op height, IndexedAt v op height ∧
      computeEntryData op (p.calculateExpiryKey height) = e := by
    intro v
    rw [mem_entries]
    constructor
    · rintro ⟨op, coin, hop, hc, rfl⟩
      exact ⟨op, coin.height, ⟨(covers_iff hp coin).1 hc, coin, hop, rfl⟩, rfl⟩
    · rintro ⟨op, height, ⟨hpos, coin, hop, rfl⟩, rfl⟩
      exact ⟨op, coin, hop, (covers_iff hp coin).2 hpos, rfl⟩
  rw [hmem u, hmem u']
  simp only [h]

/-- The root that is read from a stored index. -/
theorem getAccumulatorDigest_of_stored {idx : Index} {c : Chain} {db : Buckets}
    (hidx : Enabled idx) (h : Stored idx.expiryParams c db) (hp : Fact muhashPrime.Prime) :
    idx.getAccumulatorDigest db = .ok (Sha256.sum256 (Bytes.le muhashByteLen
      ((idx.expiryParams.entries c.utxos).map MuHash.residue).prod.val)) := by
  obtain ⟨mh, hmh, hacc⟩ := h.accumulator
  rw [Index.getAccumulatorDigest, Index.getAccumulatorSnapshot, hidx.disabled]
  simp only [Bool.false_eq_true, if_false]
  rw [hmh, ok_bind, Index.digest_of_accumulates hacc hp, ok_bind, h.tipHeight, ok_bind, h.tipHash,
    ok_bind, ok_bind]

/-- **The expiry root is a function of the set of indexed outputs.**  Two histories on one network
that end with the same indexed outputs have the same root, which is the digest of a fresh accumulator
to which the entries of those outputs are added, in any order; and no digest that the next
`ConnectBlock` computes panics.  The modulus is taken to be prime. -/
theorem root_eq_of_same_outputs {params : Chaincfg.Params} {c c' : Chain} {idx idx' : Index}
    {db db' : Buckets} (h : Run params c idx db) (h' : Run params c' idx' db')
    (hsame : ∀ op height, IndexedAt c.utxos op height ↔ IndexedAt c'.utxos op height) :
    ¬ muhashPrime.Prime ∨
      (∃ root, idx.getAccumulatorDigest db = .ok root ∧ idx'.getAccumulatorDigest db' = .ok root ∧
        ∀ data : List Bytes, data.Perm (idx.expiryParams.entries c.utxos) →
          MuHash.digest (data.foldl MuHash.add MuHash.new) = .ok root) ∧
      ∀ l text, c.Extends l → idx.connectBlock db l.block ≠ .error (.panic text) := by
  by_cases hp : muhashPrime.Prime
  swap
  · exact .inl hp
  right
  obtain ⟨hpar, hidx, hundo, hst⟩ := h.stored
  obtain ⟨hpar', hidx', -, hst'⟩ := h'.stored
  have hparams : idx'.expiryParams = idx.expiryParams := by
    rw [hpar, Option.some_inj] at hpar'
    exact hpar'.symm
  refine ⟨⟨_, getAccumulatorDigest_of_stored hidx hst ⟨hp⟩, ?_, ?_⟩, ?_⟩
  · rw [getAccumulatorDigest_of_stored hidx' hst' ⟨hp⟩, hparams,
      ((entries_perm hidx.startScan hsame).map _).prod_eq]
  · intro data hperm
    rw [Index.digest_of_accumulates (accumulates_foldl data) ⟨hp⟩, (hperm.map _).prod_eq]
  · intro l text hl herr
    rcases Index.connectBlock_stored hidx hst hl (hundo.height_nonneg hl) with
      ⟨db₁, hok, -⟩ | ⟨e, he, hfail⟩
    · rw [hok] at herr
      simp at herr
    · rw [he] at herr
      obtain rfl : e = .panic text := Except.error.inj herr
      rcases hfail with hrule | ⟨op, amount, -, hneg⟩ | ⟨hnp, -⟩
      · simp [GoError.isRule] at hrule
      · simp at hneg
      · exact hnp hp

/-- The sample history reaches its chain with two different accumulators and one root. -/
theorem root_eq_of_same_outputs_sample : ∃ s s' : Index × Buckets, sampleRun = .ok s ∧
    Run Chaincfg.obtcRegTestParams [sampleLink [sampleLink []], sampleLink []] s'.1 s'.2 ∧
    (¬ muhashPrime.Prime ∨ s.1.getAccumulatorDigest s.2 = s'.1.getAccumulatorDigest s'.2) := by
  obtain ⟨s, s', hs, hrun, hrun'⟩ := sampleRun_run
  refine ⟨s, s', hs, hrun', ?_⟩
  rcases root_eq_of_same_outputs hrun hrun' (fun _ _ => Iff.rfl) with hnp | ⟨⟨root, h, h', -⟩, -⟩
  · exact .inl hnp
  · exact .inr (h.trans h'.symm)

end Obtcd.ExpiryIndex
