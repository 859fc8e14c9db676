import Obtcd.Blockchain.Extend

/-!
# Histories of the UTXO cache

The cache is right if, whatever happens to it, cache and database together show the outputs that the
connected blocks leave of the outputs there were at the start.  `CacheRun` is whatever can happen:
blocks that spend only unspent outputs and create only outputs that are not unspent are connected,
entries are asked for, and the cache is flushed in any mode.

That an output is not unspent does not mean that it never was.  `addTxOut` takes it to mean that: it
marks every entry as one that the database has never seen.  If the output was spent in the cache and
is created again before a flush, the database still has it, and spending the new one drops the
entry in the cache and lets the old output through (`recreated_output_comes_back`).  As long as no
block creates an output that is still in the database, the cache is right (`cache_refines`).
-/

namespace Obtcd.BlockChain

open Prog (exec)

/-- What can happen to the cache, and the set of unspent outputs it stands for.  The blocks that are
connected are restricted by `ok`, from the database and the transactions. -/
inductive CacheRun (cfg : Config) (ok : Utxos → List MsgTx → Prop) : BlockChain → Utxos → Prop
  /-- The cache starts empty. -/
  | start {s : BlockChain} : s.utxoCache.cachedEntries = ∅ → CacheRun cfg ok s s.db.utxoSet
  /-- `utxoCache.connectTransactions`, of a block that the set allows. -/
  | connect {s : BlockChain} {u u' : Utxos} {block : Block} {stxos : List SpentTxOut}
      {r : Except GoError (List SpentTxOut)} {cache : UtxoCache} :
      CacheRun cfg ok s u → ok s.db.utxoSet block.transactions →
      Ledger.applyTxs block.height u block.transactions = some (u', stxos) →
      exec (UtxoCache.connectTransactions s.db.utxoSet block) s.utxoCache = (r, cache) →
      CacheRun cfg ok { s with utxoCache := cache } u'
  /-- `fetchEntries`. -/
  | fetch {s s' : BlockChain} {u : Utxos} {ops : List OutPoint} {r : Except GoError Unit} :
      CacheRun cfg ok s u → exec (fetchEntries ops) s = (r, s') → CacheRun cfg ok s' u
  /-- `flush`. -/
  | flush {s s' : BlockChain} {u : Utxos} {mode : FlushMode} {bestHash : Hash}
      {r : Except GoError Unit} :
      CacheRun cfg ok s u → exec (dbUpdate (flush cfg mode bestHash)) s = (r, s') →
      CacheRun cfg ok s' u

theorem exec_dbUpdate_flush (cfg : Config) (mode : FlushMode) (bestHash : Hash) (s : BlockChain) :
    exec (dbUpdate (flush cfg mode bestHash)) s =
      (.ok (), if s.flushDue cfg bestHash mode then s.writeCache bestHash else s) := rfl

/-- The cache is well-formed and stands for the set `u`. -/
structure Holds (s : BlockChain) (u : Utxos) : Prop where
  wf : s.utxoCache.WF s.db.utxoSet
  represents : s.utxoCache.Represents s.db.utxoSet u

namespace Holds

variable {s s' : BlockChain} {u : Utxos}

theorem of_empty (h : s.utxoCache.cachedEntries = ∅) : s.Holds s.db.utxoSet := by
  constructor
  · intro op e hget
    rw [h, Std.ExtTreeMap.getElem?_empty] at hget
    cases hget
  · intro op
    refine UtxoCache.lookup_of_none ?_
    rw [h, Std.ExtTreeMap.getElem?_empty]

theorem writeCache (h : s.Holds u) (bestHash : Hash) :
    (s.writeCache bestHash).db.utxoSet = u ∧ (s.writeCache bestHash).Holds u := by
  have heq : (s.writeCache bestHash).db.utxoSet = u := UtxoCache.writeCache_eq h.wf h.represents
  refine ⟨heq, UtxoCache.wf_flushed bestHash, ?_⟩
  rw [heq]
  exact UtxoCache.represents_flushed u bestHash

theorem flush {cfg : Config} {mode : FlushMode} {bestHash : Hash} {r : Except GoError Unit}
    (h : s.Holds u) (hrun : exec (dbUpdate (flush cfg mode bestHash)) s = (r, s')) :
    s'.Holds u := by
  rw [exec_dbUpdate_flush] at hrun
  cases hrun
  split
  · exact (h.writeCache bestHash).2
  · exact h

theorem fetchEntries (h : s.Holds u) {ops : List OutPoint} {r : Except GoError Unit}
    (hrun : exec (fetchEntries ops) s = (r, s')) : s'.Holds u := by
  cases hrun
  exact ⟨h.wf.fetchEntries ops, h.represents.fetchEntries ops⟩

/-- A block that the set allows, and none of whose outputs is in the database, is connected, and
then the cache stands for what it leaves. -/
theorem connect (h : s.Holds u) {u' : Utxos} {block : Block} {stxos : List SpentTxOut}
    (hnew : UtxoCache.NewIn s.db.utxoSet block.transactions)
    (happly : Ledger.applyTxs block.height u block.transactions = some (u', stxos))
    {r : Except GoError (List SpentTxOut)} {cache : UtxoCache}
    (hrun : exec (UtxoCache.connectTransactions s.db.utxoSet block) s.utxoCache = (r, cache)) :
    r = .ok stxos ∧ ({ s with utxoCache := cache } : BlockChain).Holds u' := by
  obtain ⟨cache', hok, hwf, hrep⟩ :=
    UtxoCache.connectAll_of_applyTxs h.wf h.represents hnew happly
  cases hrun.symm.trans hok
  exact ⟨rfl, hwf, hrep⟩

end Holds

theorem CacheRun.holds {cfg : Config} {s : BlockChain} {u : Utxos}
    (h : CacheRun cfg UtxoCache.NewIn s u) : s.Holds u := by
  induction h with
  | start hempty => exact .of_empty hempty
  | connect _ hnew happly hrun ih => exact (ih.connect hnew happly hrun).2
  | fetch _ hrun ih => exact ih.fetchEntries hrun
  | flush _ hrun ih => exact ih.flush hrun

/-- **The UTXO cache refines the plain map of unspent outputs**, in every history in which no block
creates an output that is in the database: cache and database together show the outputs of the map,
a flush that is required leaves the map in the database, and a block that the map allows is
connected and spends what the map says. -/
theorem cache_refines {cfg : Config} {s : BlockChain} {u : Utxos}
    (h : CacheRun cfg UtxoCache.NewIn s u) :
    (∀ op, s.lookup op = u[op]?) ∧
    (∀ bestHash, (exec (dbUpdate (flush cfg .required bestHash)) s).2.db.utxoSet = u) ∧
    ∀ (block : Block) (u' : Utxos) (stxos : List SpentTxOut),
      UtxoCache.NewIn s.db.utxoSet block.transactions →
      Ledger.applyTxs block.height u block.transactions = some (u', stxos) →
      (exec (UtxoCache.connectTransactions s.db.utxoSet block) s.utxoCache).1 = .ok stxos := by
  have hs := h.holds
  refine ⟨hs.represents, fun bestHash => ?_, fun block u' stxos hnew happly => ?_⟩
  · rw [exec_dbUpdate_flush]
    exact (hs.writeCache bestHash).1
  · exact (hs.connect hnew happly rfl).1

/-! ## An output that comes back -/

namespace Recreation

/-- A coinbase that does not name its height, so that it can be mined again. -/
def reward : MsgTx where
  version := 1
  txIn := [{ previousOutPoint := ⟨Hash.zero, OutPoint.maxIndex⟩, signatureScript := [1, 1] }]
  txOut := [⟨50, [0x51]⟩]

/-- A coinbase that creates nothing. -/
def burned (height : UInt32) : MsgTx :=
  { reward with txOut := [⟨50, [Txscript.opReturn]⟩], lockTime := height }

/-- A transaction that spends the reward. -/
def claimed (height : UInt32) : MsgTx where
  version := 1
  txIn := [{ previousOutPoint := reward.outPoint 0 }]
  txOut := [⟨50, [Txscript.opReturn]⟩]
  lockTime := height

def block (height : Int32) (transactions : List MsgTx) : Block where
  header := ⟨1, Hash.zero, Hash.zero, 0, 0, 0⟩
  transactions := transactions
  height := height

/-- The reward of block 1 is in the database.  It is spent in block 2, mined again in block 3 and
spent again in block 4. -/
def block2 : Block := block 2 [burned 2, claimed 2]
def block3 : Block := block 3 [reward]
def block4 : Block := block 4 [burned 4, claimed 4]

/-- The database after block 1. -/
def start : BlockChain :=
  { Regtest.chain with db := { Regtest.chain.db with
      utxoSet := (∅ : Utxos).insert (reward.outPoint 0) ⟨50, [0x51], 1, true⟩ } }

/-- Connect a block to the cache. -/
def connected (s : BlockChain) (b : Block) : BlockChain :=
  { s with utxoCache := (exec (UtxoCache.connectTransactions s.db.utxoSet b) s.utxoCache).2 }

/-- The map after a block. -/
def applied (u : Utxos) (b : Block) : Utxos :=
  ((Ledger.applyTxs b.height u b.transactions).map Prod.fst).getD ∅

/-- One more block in a history. -/
theorem run_connected {cfg : Config} {ok : Utxos → List MsgTx → Prop} {s : BlockChain} {u : Utxos}
    (h : CacheRun cfg ok s u) {b : Block} (hok : ok s.db.utxoSet b.transactions)
    (happly : (Ledger.applyTxs b.height u b.transactions).isSome = true) :
    CacheRun cfg ok (connected s b) (applied u b) := by
  obtain ⟨⟨u', stxos⟩, hu'⟩ := Option.isSome_iff_exists.1 happly
  rw [applied, hu']
  exact h.connect hok hu' rfl

/-- The node and the map after the three blocks. -/
def final : BlockChain := connected (connected (connected start block2) block3) block4
def finalMap : Utxos := applied (applied (applied start.db.utxoSet block2) block3) block4

theorem run_final : CacheRun Regtest.config (fun _ _ => True) final finalMap := by
  have h₀ : CacheRun Regtest.config (fun _ _ => True) start start.db.utxoSet := .start rfl
  have h₁ := run_connected h₀ (b := block2) trivial (by decide +kernel)
  have h₂ := run_connected h₁ (b := block3) trivial (by decide +kernel)
  have h₃ := run_connected h₂ (b := block4) trivial (by decide +kernel)
  rwa [← final, ← finalMap] at h₃

end Recreation

open Recreation in
/-- The general statement in a history of one block, which spends the reward. -/
theorem cache_refines_claimed :
    CacheRun Regtest.config UtxoCache.NewIn (connected start block2)
        (applied start.db.utxoSet block2) ∧
      (connected start block2).lookup (reward.outPoint 0) =
        (applied start.db.utxoSet block2)[reward.outPoint 0]? := by
  have hnew : UtxoCache.NewIn start.db.utxoSet block2.transactions := by
    unfold UtxoCache.NewIn
    decide +kernel
  have hrun : CacheRun Regtest.config UtxoCache.NewIn _ _ :=
    run_connected (.start rfl : CacheRun Regtest.config UtxoCache.NewIn start _)
      (b := block2) hnew (by decide +kernel)
  exact ⟨hrun, (cache_refines hrun).1 _⟩

open Recreation in
/-- **A fully spent output that is created again comes back after it has been spent again.**  Each
block spends only what the map holds and creates only what it does not hold; at the end the map does
not hold the reward, cache and database show it, and a flush leaves it in the database. -/
theorem recreated_output_comes_back :
    CacheRun Regtest.config (fun _ _ => True) final finalMap ∧
      finalMap[reward.outPoint 0]? = none ∧
      final.lookup (reward.outPoint 0) = some ⟨50, [0x51], 1, true⟩ ∧
      (exec (dbUpdate (flush Regtest.config .required Hash.zero)) final).2.db.utxoSet[
        reward.outPoint 0]? = some ⟨50, [0x51], 1, true⟩ :=
  ⟨run_final, by decide +kernel, by decide +kernel, by decide +kernel⟩

end Obtcd.BlockChain
