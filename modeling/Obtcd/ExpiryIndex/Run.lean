import Obtcd.ExpiryIndex.Blocks

/-!
# Histories of the expiry index

A history is a sequence of `ConnectBlock` and `DisconnectBlock` calls that follows a chain: a
connected block extends the current tip and can be applied by the ledger, a disconnected block is
the tip and comes with the outputs it spent.  `Run params c idx db` says that such a history, started
on a freshly created index of the network `params`, has led to the chain `c` with the index in state
`idx` and the buckets `db`.  A call that fails is rolled back by its caller and leaves all three as
they were, so it does not appear.

`Stored p c db` is the invariant: the buckets and the stored accumulator represent the outputs that
are unspent at the tip of `c`, and the stored height and hash are those of the tip.  One call keeps
it (`connectBlock_stored`, `disconnectBlock_stored`) and so does a history (`Run.stored`).
-/

namespace Obtcd.ExpiryIndex

open Ledger

/-- **The stored index is the index of the chain `c`.** -/
structure Stored (p : ExpiryParams) (c : Chain) (db : Buckets) : Prop where
  buckets : p.RepBuckets c.utxos db
  accumulator : ∃ mh, dbGetAccumulatorState db = .ok mh ∧
    ExpiryParams.Accumulates mh (p.entries c.utxos)
  tipHeight : dbGetTipHeightIndexed db = .ok c.tipHeight
  tipHash : dbGetAccumulatorTipHash db = .ok c.tipHash

/-- What `NewExpiryIndex` sets up for a network. -/
structure Enabled (idx : Index) : Prop where
  disabled : idx.disabled = false
  startScan : idx.expiryParams.startScanHeight = 0

/-- The ways in which connecting a block that extends the chain can fail: the commitment rule, a
negative amount, or, were the modulus not prime, an accumulator that cannot be divided. -/
def ConnectFailure (e : GoError) : Prop :=
  e.isRule = true ∨ NegativeAmount e ∨
    ¬ muhashPrime.Prime ∧ e = .panic "muhash: denominator has no modular inverse"

namespace Index

variable {idx : Index} {c : Chain} {db : Buckets} {l : Link}

/-! ## Amounts of a connected block -/

/-- Every element of a list that a fold got through was accepted in some state. -/
theorem exists_of_foldlM_ok {α β : Type} {f : β → α → Except GoError β} {xs : List α} {b b' : β}
    (h : xs.foldlM f b = .ok b') : ∀ x ∈ xs, ∃ b₁ b₂, f b₁ x = .ok b₂ := by
  induction xs generalizing b with
  | nil => simp
  | cons x xs ih =>
    rw [List.foldlM_cons] at h
    obtain ⟨b₁, hb₁, hrest⟩ := bind_eq_ok.1 h
    intro y hy
    rcases List.mem_cons.1 hy with rfl | hy
    · exact ⟨b, b₁, hb₁⟩
    · exact ih hrest y hy

variable {height : Int32}

/-- An output that was entered has an amount that is not negative. -/
theorem nonneg_of_connectCreate {tx : MsgTx} {w w' : Working} {o : TxOut × Nat}
    (h : idx.connectCreate height tx w o = .ok w') (hidx : idx.indexes height o.1 = true) :
    0 ≤ o.1.value := by
  have hshould : idx.shouldIndexCreateHeight height = true := (Bool.and_eq_true_iff.1 hidx).1
  rw [connectCreate, hidx] at h
  simp only [Bool.not_true, Bool.false_eq_true, if_false] at h
  rcases Int64.lt_or_le o.1.value 0 with hneg | hnn
  · rw [connectTxOut, hshould, putTxOutMapping, encodeReapStrictCompositeKey, if_pos hneg] at h
    simp [wrapError] at h
  · exact hnn

/-- A block that was connected creates no covered output of negative amount. -/
theorem createsNonneg_of_connectTxs {txs : List MsgTx} {w w' : Working}
    (h : txs.foldlM (idx.connectTx height) w = .ok w') :
    CreatesNonneg idx.expiryParams height txs := by
  intro tx htx o ho hidx
  obtain ⟨w₁, w₂, htx⟩ := exists_of_foldlM_ok h tx htx
  rw [connectTx] at htx
  obtain ⟨w₃, -, hcreate⟩ := bind_eq_ok.1 htx
  obtain ⟨i, hi⟩ := List.mem_iff_getElem?.1 ho
  obtain ⟨w₄, w₅, hstep⟩ := exists_of_foldlM_ok hcreate (o, i) (List.mk_mem_zipIdx_iff_getElem?.2 hi)
  exact nonneg_of_connectCreate hstep hidx

/-! ## One call -/

theorem isIndexingEnabled_of_nonneg (hidx : Enabled idx) (h : 0 ≤ height.toInt) :
    idx.expiryParams.isIndexingEnabled height = true := by
  rw [ExpiryParams.isIndexingEnabled, hidx.startScan]
  simpa [Int32.le_iff_toInt_le] using h

/-- With a prime modulus the digest of a multiset is computed from the product of its residues. -/
theorem digest_of_accumulates {mh : MuHash} {data : List Bytes}
    (h : ExpiryParams.Accumulates mh data) (hp : Fact muhashPrime.Prime) :
    MuHash.digest mh =
      .ok (Sha256.sum256 (Bytes.le muhashByteLen (data.map MuHash.residue).prod.val)) := by
  obtain ⟨hnz, hval⟩ := h.value hp
  rw [MuHash.digest_eq hnz, hval]

/-- A digest is computed, or it panics because the modulus is not prime. -/
theorem digest_cases {mh : MuHash} {data : List Bytes} (h : ExpiryParams.Accumulates mh data) :
    (∃ root, MuHash.digest mh = .ok root) ∨ ¬ muhashPrime.Prime ∧
      MuHash.digest mh = .error (.panic "muhash: denominator has no modular inverse") := by
  by_cases hp : muhashPrime.Prime
  · exact .inl ⟨_, digest_of_accumulates h ⟨hp⟩⟩
  · rw [MuHash.digest]
    split
    · exact .inr ⟨hp, rfl⟩
    · exact .inl ⟨_, rfl⟩

/-- On a block with transactions the commitment check raises rule errors only. -/
theorem validateExpiryCommitment_cases (idx : Index) {b : Block} (hb : b.transactions ≠ [])
    (root : Bytes.Sized 32) : idx.validateExpiryCommitment b root = .ok () ∨
      ∃ code text, idx.validateExpiryCommitment b root = .error (.rule code text) := by
  rw [validateExpiryCommitment]
  split
  · exact .inl rfl
  split
  · rename_i htxs
    exact absurd htxs hb
  split
  · exact .inr ⟨_, _, rfl⟩
  split
  · exact .inr ⟨_, _, rfl⟩
  split
  · exact .inr ⟨_, _, rfl⟩
  split
  · exact .inr ⟨_, _, rfl⟩
  · exact .inl rfl

/-- What the calls write last. -/
theorem stored_of_rep {p : ExpiryParams} {mh : MuHash} {height : Int32} {hash : Hash}
    (hrep : p.Rep c.utxos (mh, db)) (hheight : height = c.tipHeight) (hhash : hash = c.tipHash) :
    Stored p c (dbPutTipHeightIndexed
      (dbPutAccumulatorTipHash (dbPutAccumulatorState db mh) hash) height) := by
  have hb := hrep.buckets
  refine ⟨⟨hb.1, hb.2, hb.3, hb.4, hb.5⟩, ⟨mh, ?_, hrep.accumulator⟩, ?_, ?_⟩
  · rw [dbGetAccumulatorState_putHeight, dbGetAccumulatorState_putTipHash,
      dbGetAccumulatorState_put _ _ hrep.accumulator.reduced]
  · rw [dbGetTipHeightIndexed_put, hheight]
  · rw [dbGetAccumulatorTipHash_putHeight, dbGetAccumulatorTipHash_put, hhash]

/-- One call of `ConnectBlock` on a block that extends the chain keeps the invariant or fails in
one of three ways. -/
theorem connectBlock_stored (hidx : Enabled idx) (hc : Stored idx.expiryParams c db) (hl : c.Extends l)
    (hheight : 0 ≤ l.block.height.toInt) :
    (∃ db', idx.connectBlock db l.block = .ok ({ idx with curTipHeight := l.block.height }, db') ∧
        Stored idx.expiryParams (l :: c) db' ∧
        CreatesNonneg idx.expiryParams l.block.height l.block.transactions) ∨
      ∃ e, idx.connectBlock db l.block = .error e ∧ ConnectFailure e := by
  obtain ⟨mh, hmh, hacc⟩ := hc.accumulator
  obtain ⟨tx, txs, htxs, -, -, happly⟩ := applyBlock_eq_some hl.apply
  rw [connectBlock, hidx.disabled, isIndexingEnabled_of_nonneg hidx hheight]
  simp only [Bool.false_eq_true, if_false, Bool.not_true]
  rw [hmh, wrapError, ok_bind]
  -- the root before the block
  rcases digest_cases hacc with ⟨root, hroot⟩ | ⟨hp, hpanic⟩
  swap
  · rw [hpanic]
    exact .inr ⟨_, rfl, .inr (.inr ⟨hp, rfl⟩)⟩
  rw [hroot, ok_bind]
  rcases validateExpiryCommitment_cases idx (b := l.block) (by simp [htxs]) root with
    hval | ⟨code, text, hval⟩
  swap
  · rw [hval]
    exact .inr ⟨_, rfl, .inl rfl⟩
  rw [hval, ok_bind, htxs]
  -- the transactions
  have hrep : idx.expiryParams.Rep c.utxos (mh, db) := ⟨hc.buckets, hacc⟩
  rcases connectTxs_rep hrep happly with ⟨⟨mh', db'⟩, hw, hrep'⟩ | ⟨e, he, hneg⟩
  swap
  · rw [he]
    exact .inr ⟨e, rfl, .inr (.inl hneg)⟩
  rw [hw, ok_bind]
  -- the root after the block
  rcases digest_cases hrep'.accumulator with ⟨root', hroot'⟩ | ⟨hp, hpanic⟩
  swap
  · rw [hpanic]
    exact .inr ⟨_, rfl, .inr (.inr ⟨hp, rfl⟩)⟩
  rw [hroot', ok_bind]
  exact .inl ⟨_, rfl, stored_of_rep hrep' rfl rfl, createsNonneg_of_connectTxs hw⟩

/-- One call of `DisconnectBlock` on the tip succeeds and restores the invariant for the chain
below it. -/
theorem disconnectBlock_stored (hidx : Enabled idx) (hl : c.Extends l)
    (hc : Stored idx.expiryParams (l :: c) db) (hheight : 0 ≤ l.block.height.toInt)
    (hamt : idx.expiryParams.AmountsNonneg c.utxos)
    (hos : CreatesNonneg idx.expiryParams l.block.height l.block.transactions) :
    ∃ db', idx.disconnectBlock db l.block l.stxos =
        .ok ({ idx with curTipHeight := l.block.height - 1 }, db') ∧ Stored idx.expiryParams c db' := by
  obtain ⟨mh, hmh, hacc⟩ := hc.accumulator
  have hrep : idx.expiryParams.Rep l.after (mh, db) := ⟨hc.buckets, hacc⟩
  obtain ⟨⟨mh', db'⟩, hw, hrep'⟩ := disconnectTransactions_rep hamt hos hl.apply hrep
  have hprev : l.block.height - 1 = c.tipHeight := by
    apply Int32.toInt_inj.1
    rw [MachineInt.toInt_sub_one hheight, hl.height, Int.add_sub_cancel]
  rw [disconnectBlock, hidx.disabled, isIndexingEnabled_of_nonneg hidx hheight]
  simp only [Bool.false_eq_true, if_false, Bool.not_true]
  rw [hmh, wrapError, ok_bind, hw, ok_bind]
  exact ⟨_, rfl, stored_of_rep hrep' hprev hl.prev⟩

end Index

/-! ## Histories -/

/-- A history of calls that follows a chain. -/
inductive Run (params : Chaincfg.Params) : Chain → Index → Buckets → Prop
  /-- The index is created empty. -/
  | create {idx : Index} : newExpiryIndex params = .ok idx → Run params [] idx createIndex
  /-- A block that extends the tip is connected. -/
  | connect {c : Chain} {l : Link} {idx idx' : Index} {db db' : Buckets} :
      Run params c idx db → c.Extends l → idx.connectBlock db l.block = .ok (idx', db') →
      Run params (l :: c) idx' db'
  /-- The tip is disconnected, with the outputs it spent. -/
  | disconnect {c : Chain} {l : Link} {idx idx' : Index} {db db' : Buckets} :
      Run params (l :: c) idx db → idx.disconnectBlock db l.block l.stxos = .ok (idx', db') →
      Run params c idx' db'

/-- Every block of the chain extends what is below it, and can be undone: neither the outputs it
spent nor those it created have negative amounts. -/
def Undoable (p : ExpiryParams) : Chain → Prop
  | [] => True
  | l :: c => Chain.Extends c l ∧ p.AmountsNonneg (Chain.utxos c) ∧
      Index.CreatesNonneg p l.block.height l.block.transactions ∧ Undoable p c

theorem Undoable.neg_one_le {p : ExpiryParams} {c : Chain} (h : Undoable p c) :
    -1 ≤ c.tipHeight.toInt := by
  induction c with
  | nil => decide
  | cons l c ih =>
    obtain ⟨hl, -, -, hc⟩ := h
    have := ih hc
    have hheight := hl.height
    change -1 ≤ l.block.height.toInt
    omega

theorem stored_create (p : ExpiryParams) : Stored p [] createIndex := by
  have hrep : p.RepBuckets ∅ ⟨∅, ∅, ∅, ∅, ∅⟩ := ExpiryParams.repBuckets_empty ∅
  exact ⟨⟨hrep.1, hrep.2, hrep.3, hrep.4, hrep.5⟩,
    ⟨MuHash.new, rfl, ExpiryParams.accumulates_new⟩, rfl, rfl⟩

/-- What `NewExpiryIndex` returns. -/
theorem enabled_new {params : Chaincfg.Params} {idx : Index}
    (h : newExpiryIndex params = .ok idx) :
    getExpiryParams params = some idx.expiryParams ∧ Enabled idx := by
  rw [newExpiryIndex] at h
  split at h
  · simp at h
  rename_i p hp
  obtain rfl : (⟨p, -1, false⟩ : Index) = idx := Except.ok.inj h
  obtain ⟨cfg, hcfg, rfl⟩ := Option.map_eq_some_iff.1 hp
  exact ⟨hp, rfl, (Chaincfg.getExpiryParams_sane hcfg).startScan⟩

theorem Undoable.height_nonneg {p : ExpiryParams} {c : Chain} {l : Link} (h : Undoable p c)
    (hl : c.Extends l) : 0 ≤ l.block.height.toInt := by
  have h₁ := h.neg_one_le
  have h₂ := hl.height
  omega

namespace Run

variable {params : Chaincfg.Params} {c : Chain} {idx : Index} {db : Buckets}

/-- A history keeps the invariant. -/
theorem stored (h : Run params c idx db) :
    getExpiryParams params = some idx.expiryParams ∧ Enabled idx ∧
      Undoable idx.expiryParams c ∧ Stored idx.expiryParams c db := by
  induction h with
  | create hnew =>
    obtain ⟨hp, hidx⟩ := enabled_new hnew
    exact ⟨hp, hidx, trivial, stored_create _⟩
  | @connect c l idx idx' db db' _ hl hcon ih =>
    obtain ⟨hp, hidx, hundo, hst⟩ := ih
    have hheight := hundo.height_nonneg hl
    rcases Index.connectBlock_stored hidx hst hl hheight with ⟨db₁, hok, hst₁, hcr⟩ | ⟨e, herr, -⟩
    · obtain ⟨rfl, rfl⟩ : { idx with curTipHeight := l.block.height } = idx' ∧ db₁ = db' := by
        simpa [hok] using hcon
      exact ⟨hp, ⟨hidx.1, hidx.2⟩, ⟨hl, hst.buckets.amounts, hcr, hundo⟩, hst₁⟩
    · simp [herr] at hcon
  | @disconnect c l idx idx' db db' _ hdis ih =>
    obtain ⟨hp, hidx, ⟨hl, hamt, hcr, hundo⟩, hst⟩ := ih
    have hheight := hundo.height_nonneg hl
    obtain ⟨db₁, hok, hst₁⟩ := Index.disconnectBlock_stored hidx hl hst hheight hamt hcr
    obtain ⟨rfl, rfl⟩ : { idx with curTipHeight := l.block.height - 1 } = idx' ∧ db₁ = db' := by
      simpa [hok] using hdis
    exact ⟨hp, ⟨hidx.1, hidx.2⟩, hundo, hst₁⟩

end Run

/-! ## What the buckets hold -/

/-- The expiry key of a coin: its create height plus the window. -/
def expiryKey (window : Nat) (coin : SpentTxOut) : UInt64 :=
  UInt64.ofNat (coin.height.toInt.toNat + window)

/-- **The four buckets hold exactly the outputs of `u` that were created above height zero**, each
under its expiry key and its amount. -/
structure HoldsExactly (window : Nat) (u : Utxos) (db : Buckets) : Prop where
  outpoint2Expiry : Tabulates db.outpoint2Expiry u (fun coin => 0 < coin.height)
    (fun op _ => encodeOutPoint op) (fun _ coin => encodeExpiryKey (expiryKey window coin))
  expiry2Outpoints : Tabulates db.expiry2Outpoints u (fun coin => 0 < coin.height)
    (fun op coin => encodeExpiryOutpointCompositeKey (expiryKey window coin) op)
    (fun _ _ => emptyIndexValue)
  reapStrictCandidates : Tabulates db.reapStrictCandidates u (fun coin => 0 < coin.height)
    (fun op coin => reapStrictKey (expiryKey window coin) coin.amount op)
    (fun _ _ => emptyIndexValue)
  outpoint2ReapStrict : Tabulates db.outpoint2ReapStrict u (fun coin => 0 < coin.height)
    (fun op _ => encodeOutPoint op)
    (fun op coin => reapStrictKey (expiryKey window coin) coin.amount op)

variable {p : ExpiryParams}

theorem covers_iff (hp : p.startScanHeight = 0) (coin : SpentTxOut) :
    p.Covers coin ↔ 0 < coin.height := by
  rw [ExpiryParams.Covers, ExpiryParams.covers, hp, Bool.and_eq_true, decide_eq_true_eq,
    decide_eq_true_eq]
  exact ⟨fun h => h.1, fun h => ⟨h, Int32.le_of_lt h⟩⟩

theorem keyOf_eq {coin : SpentTxOut} (h : 0 < coin.height) :
    p.keyOf coin = expiryKey p.windowBlocks.toNat coin :=
  MachineInt.toUInt64_add (Int32.le_of_lt h) p.windowBlocks

theorem ExpiryParams.RepBuckets.holdsExactly {u : Utxos} {db : Buckets} (hp : p.startScanHeight = 0)
    (h : p.RepBuckets u db) : HoldsExactly p.windowBlocks.toNat u db := by
  have hc := covers_iff hp
  have hkey : ∀ coin, p.Covers coin → p.keyOf coin = expiryKey p.windowBlocks.toNat coin :=
    fun coin hcov => keyOf_eq ((hc coin).1 hcov)
  constructor
  · exact h.outpoint2Expiry.congr hc (fun _ _ _ => rfl) fun _ b hb => by rw [hkey b hb]
  · exact h.expiry2Outpoints.congr hc (fun _ b hb => by rw [hkey b hb]) fun _ _ _ => rfl
  · exact h.reapStrictCandidates.congr hc (fun _ b hb => by rw [hkey b hb]) fun _ _ _ => rfl
  · exact h.outpoint2ReapStrict.congr hc (fun _ _ _ => rfl) fun _ b hb => by rw [hkey b hb]

/-- **The index invariant.**  After every history the four buckets hold exactly the live outputs
above height zero and the stored tip is the tip of the chain.  Whatever block extends the chain, the
next `ConnectBlock` succeeds or fails on the commitment or on a negative amount (or panics in the
accumulator, were its modulus not prime), never on a missing or inconsistent entry; and the next
`DisconnectBlock` succeeds. -/
theorem index_invariant {params : Chaincfg.Params} {c : Chain} {idx : Index} {db : Buckets}
    (h : Run params c idx db) :
    (∃ p, Chaincfg.getExpiryParams params = some p ∧ HoldsExactly p.windowBlocks.toNat c.utxos db) ∧
    dbGetTipHeightIndexed db = .ok c.tipHeight ∧
    dbGetAccumulatorTipHash db = .ok c.tipHash ∧
    (∀ l, c.Extends l → (∃ s, idx.connectBlock db l.block = .ok s) ∨
      ∃ e, idx.connectBlock db l.block = .error e ∧ ConnectFailure e) ∧
    (∀ l c', c = l :: c' → ∃ s, idx.disconnectBlock db l.block l.stxos = .ok s) := by
  obtain ⟨hp, hidx, hundo, hst⟩ := h.stored
  obtain ⟨cfg, hcfg, heq⟩ := Option.map_eq_some_iff.1 hp
  refine ⟨⟨cfg, hcfg, ?_⟩, hst.tipHeight, hst.tipHash, ?_, ?_⟩
  · have hwin : cfg.windowBlocks = idx.expiryParams.windowBlocks := by rw [← heq]
    rw [hwin]
    exact hst.buckets.holdsExactly hidx.startScan
  · intro l hl
    have hheight := hundo.height_nonneg hl
    rcases Index.connectBlock_stored hidx hst hl hheight with ⟨db', hok, -⟩ | herr
    · exact .inl ⟨_, hok⟩
    · exact .inr herr
  · rintro l c' rfl
    obtain ⟨hl, hamt, hcr, hundo'⟩ := hundo
    have hheight := hundo'.height_nonneg hl
    obtain ⟨db', hok, -⟩ := Index.disconnectBlock_stored hidx hl hst hheight hamt hcr
    exact ⟨_, hok⟩

/-- A coinbase that pays one satoshi to an empty script, told apart by its lock time. -/
def sampleCoinbase (n : UInt32) : MsgTx :=
  { version := 1, txIn := [{ previousOutPoint := ⟨Hash.zero, OutPoint.maxIndex⟩ }],
    txOut := [⟨1, []⟩], lockTime := n }

/-- A block on a chain with nothing but a coinbase. -/
def sampleBlock (c : Chain) : Block :=
  { header := ⟨1, c.tipHash, Hash.zero, 0, 0, 0⟩
    transactions := [sampleCoinbase (c.tipHeight + 1).toUInt32], height := c.tipHeight + 1 }

/-- The link of that block. -/
def sampleLink (c : Chain) : Link :=
  let r := (applyBlock c.utxos (sampleBlock c)).getD (∅, [])
  ⟨sampleBlock c, r.2, c.utxos, r.1⟩

theorem sampleLink_extends {c : Chain} (hheight : (c.tipHeight + 1).toInt = c.tipHeight.toInt + 1)
    (happly : (applyBlock c.utxos (sampleBlock c)).isSome = true) : c.Extends (sampleLink c) := by
  obtain ⟨r, hr⟩ := Option.isSome_iff_exists.1 happly
  refine ⟨rfl, hheight, rfl, ?_⟩
  rw [sampleLink, hr]
  rfl

/-- A history on regtest: two blocks, the second of which is disconnected and connected again. -/
def sampleRun : Except GoError (Index × Buckets) := do
  let second := sampleLink [sampleLink []]
  let idx ← newExpiryIndex Chaincfg.obtcRegTestParams
  let s ← idx.connectBlock createIndex (sampleLink []).block
  let s ← s.1.connectBlock s.2 second.block
  let s ← s.1.disconnectBlock s.2 second.block second.stxos
  s.1.connectBlock s.2 second.block

/-- The history reaches the two-block chain twice. -/
theorem sampleRun_run : ∃ s s' : Index × Buckets, sampleRun = .ok s ∧
    Run Chaincfg.obtcRegTestParams [sampleLink [sampleLink []], sampleLink []] s.1 s.2 ∧
    Run Chaincfg.obtcRegTestParams [sampleLink [sampleLink []], sampleLink []] s'.1 s'.2 := by
  have h₀ : Chain.Extends [] (sampleLink []) := sampleLink_extends (by decide) (by decide +kernel)
  have h₁ : Chain.Extends [sampleLink []] (sampleLink [sampleLink []]) :=
    sampleLink_extends (by decide +kernel) (by decide +kernel)
  obtain ⟨s, hs⟩ := exists_ok_of_isOk (x := sampleRun) (by decide +kernel)
  have hrun := hs
  rw [sampleRun] at hrun
  obtain ⟨idx, hnew, hrun⟩ := bind_eq_ok.1 hrun
  obtain ⟨s₁, hs₁, hrun⟩ := bind_eq_ok.1 hrun
  obtain ⟨s₂, hs₂, hrun⟩ := bind_eq_ok.1 hrun
  obtain ⟨s₃, hs₃, hs₄⟩ := bind_eq_ok.1 hrun
  have htwo := Run.connect (.connect (.create hnew) h₀ hs₁) h₁ hs₂
  exact ⟨s, s₂, hs, .connect (.disconnect htwo hs₃) h₁ hs₄, htwo⟩

theorem index_invariant_sample : ∃ s, sampleRun = .ok s ∧
    dbGetTipHeightIndexed s.2 = .ok 1 ∧
    ∃ p, Chaincfg.getExpiryParams Chaincfg.obtcRegTestParams = some p ∧
      HoldsExactly p.windowBlocks.toNat (Chain.utxos [sampleLink [sampleLink []], sampleLink []])
        s.2 := by
  obtain ⟨s, -, hs, hrun, -⟩ := sampleRun_run
  have hinv := index_invariant hrun
  exact ⟨s, hs, hinv.2.1, hinv.1⟩

end Obtcd.ExpiryIndex
