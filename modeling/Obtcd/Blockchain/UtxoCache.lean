import Obtcd.Blockchain.Utxo
import Obtcd.Lib.Prog

/-!
# The UTXO cache

`utxocache.go`: a write-back cache in front of the UTXO bucket of the database.  An entry of the
cache is *fresh* if the database has never seen the output and *modified* if it may differ from what
the database has; a `nil` entry records that the database does not have the output.  Spending a
fresh entry drops it, spending any other leaves it behind, marked, so that the next flush deletes
the output from the database.

`lookup` is what cache and database together say about an outpoint, and `Represents` compares it
with a set of unspent outputs.  The flags are right in the states that satisfy `WF`; there,
connecting transactions does to the set what the ledger does (`connectAll_ok`), and a flush
writes exactly the set (`writeCache_eq`).

Memory accounting is left out: whether the cache is full is a question to the environment.
-/

namespace Obtcd

open UtxoEntry OrdMap Prog

/-- `utxoCache`, without the database, which is passed separately, and the memory it accounts for. -/
structure UtxoCache where
  cachedEntries : OrdMap OutPoint (Option UtxoEntry)
  lastFlushHash : Hash

namespace UtxoCache

/-! ## Reading -/

/-- Store an entry. -/
def put (s : UtxoCache) (op : OutPoint) (e : Option UtxoEntry) : UtxoCache :=
  { s with cachedEntries := s.cachedEntries.insert op e }

/-- Drop an entry. -/
def delete (s : UtxoCache) (op : OutPoint) : UtxoCache :=
  { s with cachedEntries := s.cachedEntries.erase op }

variable (db : Utxos)

/-- What `fetchEntries` answers for an outpoint. -/
def fetchEntry (s : UtxoCache) (op : OutPoint) : Option UtxoEntry :=
  match s.cachedEntries[op]? with
  | some e => e
  | none => (db[op]?).map ofCoin

/-- What `fetchEntries` leaves in the cache for an outpoint it has asked the database for, also when
the database does not have it. -/
def load (s : UtxoCache) (op : OutPoint) : UtxoCache :=
  if (s.cachedEntries[op]?).isSome then s else s.put op ((db[op]?).map ofCoin)

/-- The cache after `fetchEntries`. -/
def fetchEntries (s : UtxoCache) (ops : List OutPoint) : UtxoCache := ops.foldl (load db) s

/-! ## Connecting transactions -/

def addTxOut (s : UtxoCache) (op : OutPoint) (o : TxOut) (isCoinBase : Bool) (blockHeight : Int32) :
    UtxoCache :=
  if Txscript.isUnspendable o.pkScript then s
  else s.put op (some (UtxoViewpoint.txOutEntry o isCoinBase blockHeight))

/-- The loop of `addTxOuts` over the outputs from number `i` on. -/
def addTxOutsFrom (tx : MsgTx) (blockHeight : Int32) : UtxoCache → Nat → List TxOut → UtxoCache
  | s, _, [] => s
  | s, i, o :: os =>
    addTxOutsFrom tx blockHeight (s.addTxOut (tx.outPoint i) o (isCoinBaseTx tx) blockHeight)
      (i + 1) os

def addTxOuts (s : UtxoCache) (tx : MsgTx) (blockHeight : Int32) : UtxoCache :=
  addTxOutsFrom tx blockHeight s 0 tx.txOut

/-- The cache without an output that was in it as `e`. -/
def spend (s : UtxoCache) (op : OutPoint) (e : UtxoEntry) : UtxoCache :=
  if e.fresh then s.delete op else s.put op (some e.spend)

/-- An entry that is already marked spent is not an error. -/
def addTxIn (ti : TxIn) : Prog UtxoCache GoError SpentTxOut := do
  modify fun s => s.load db ti.previousOutPoint
  match (← get).fetchEntry db ti.previousOutPoint with
  | none => throw (.assert ("missing input " ++ ti.previousOutPoint.string))
  | some e => do
    modify fun s => s.spend ti.previousOutPoint e
    pure e.stxo

/-- The loop of `addTxIns`. -/
def addTxInsLoop : List TxIn → Prog UtxoCache GoError (List SpentTxOut)
  | [] => pure []
  | ti :: tis => do
    let stxo ← addTxIn db ti
    let stxos ← addTxInsLoop tis
    pure (stxo :: stxos)

def addTxIns (tx : MsgTx) : Prog UtxoCache GoError (List SpentTxOut) :=
  if isCoinBaseTx tx then pure [] else addTxInsLoop db tx.txIn

def connectTransaction (tx : MsgTx) (blockHeight : Int32) :
    Prog UtxoCache GoError (List SpentTxOut) := do
  let stxos ← addTxIns db tx
  modify fun s => s.addTxOuts tx blockHeight
  pure stxos

/-- The loop of `connectTransactions`. -/
def connectAll (blockHeight : Int32) : List MsgTx → Prog UtxoCache GoError (List SpentTxOut)
  | [] => pure []
  | tx :: txs => do
    let stxos ← connectTransaction db tx blockHeight
    let stxos' ← connectAll blockHeight txs
    pure (stxos ++ stxos')

def connectTransactions (block : Block) : Prog UtxoCache GoError (List SpentTxOut) :=
  connectAll db block.height block.transactions

/-! ## Flushing -/

/-- What `writeCache` does to the database for an entry. -/
def writeEntry : Option UtxoEntry → OrdMap.Write SpentTxOut
  | none => .delete
  | some e => if e.spent then .delete else if !e.modified then .keep else .put e.stxo

/-- What `writeCache` makes of the UTXO bucket. -/
def writeCache (s : UtxoCache) : Utxos := writeAll db s.cachedEntries writeEntry

/-- The cache after `writeCache`: empty, and flushed at a block. -/
def flushed (hash : Hash) : UtxoCache := ⟨∅, hash⟩

/-! ## What cache and database say together -/

/-- The unspent output at an outpoint. -/
def lookup (s : UtxoCache) (op : OutPoint) : Option SpentTxOut :=
  ((s.fetchEntry db op).filter fun e => !e.spent).map stxo

/-- Cache and database together hold the set `u`. -/
def Represents (s : UtxoCache) (u : Utxos) : Prop := ∀ op, s.lookup db op = u[op]?

/-- The flags of an entry are right: a `nil` entry and a fresh one are not in the database, and one
that is not modified is there as it is. -/
def EntryOk (op : OutPoint) : Option UtxoEntry → Prop
  | none => db[op]? = none
  | some e => (e.fresh = true → db[op]? = none) ∧ (e.modified = false → db[op]? = some e.stxo)

/-- The flags of the cache are right. -/
def WF (s : UtxoCache) : Prop :=
  ∀ (op : OutPoint) (e : Option UtxoEntry), s.cachedEntries[op]? = some e → EntryOk db op e

variable {db} {s s' : UtxoCache} {u : Utxos}

variable {op : OutPoint}

theorem fetchEntry_of_none (h : s.cachedEntries[op]? = none) :
    s.fetchEntry db op = (db[op]?).map ofCoin := by
  rw [fetchEntry, h]

@[simp] theorem fetchEntry_put (op op' : OutPoint) (e : Option UtxoEntry) :
    (s.put op e).fetchEntry db op' = if op = op' then e else s.fetchEntry db op' := by
  rw [fetchEntry, fetchEntry, put, getElem?_insert']
  by_cases h : op = op'
  · rw [if_pos h, if_pos h]
  · rw [if_neg h, if_neg h]

theorem fetchEntry_delete (op op' : OutPoint) :
    (s.delete op).fetchEntry db op' =
      if op = op' then (db[op]?).map ofCoin else s.fetchEntry db op' := by
  rw [fetchEntry, fetchEntry, delete, getElem?_erase']
  by_cases h : op = op'
  · rw [if_pos h, if_pos h, h]
  · rw [if_neg h, if_neg h]

theorem lookup_of_none (h : s.cachedEntries[op]? = none) : s.lookup db op = db[op]? := by
  rw [lookup, fetchEntry_of_none h]
  cases db[op]? <;> rfl

theorem entryOk_load (op : OutPoint) : EntryOk db op ((db[op]?).map ofCoin) := by
  cases h : db[op]? with
  | none => exact h
  | some coin => exact ⟨(by cases ·), fun _ => h⟩

theorem WF.put (h : s.WF db) {e : Option UtxoEntry} (he : EntryOk db op e) :
    (s.put op e).WF db := by
  intro op' e' hget
  rw [UtxoCache.put, getElem?_insert'] at hget
  split at hget
  · rename_i heq
    rwa [← heq, ← Option.some.inj hget]
  · exact h op' e' hget

theorem WF.delete (h : s.WF db) (op : OutPoint) : (s.delete op).WF db := by
  intro op' e hget
  rw [UtxoCache.delete, getElem?_erase'] at hget
  split at hget
  · cases hget
  · exact h op' e hget

/-! ## Reading changes nothing -/

@[simp] theorem fetchEntry_load (op op' : OutPoint) :
    (s.load db op).fetchEntry db op' = s.fetchEntry db op' := by
  rw [load]
  split
  · rfl
  · rename_i h
    rw [fetchEntry_put]
    split
    · rename_i heq
      subst heq
      rw [fetchEntry_of_none (Option.not_isSome_iff_eq_none.1 h)]
    · rfl

theorem WF.load (h : s.WF db) (op : OutPoint) : (s.load db op).WF db := by
  rw [UtxoCache.load]
  split
  · exact h
  · exact h.put (entryOk_load op)

@[simp] theorem fetchEntry_fetchEntries (ops : List OutPoint) (op : OutPoint) :
    (s.fetchEntries db ops).fetchEntry db op = s.fetchEntry db op := by
  induction ops generalizing s with
  | nil => rfl
  | cons op' ops ih => exact (ih (s := s.load db op')).trans (fetchEntry_load op' op)

theorem WF.fetchEntries (h : s.WF db) (ops : List OutPoint) : (s.fetchEntries db ops).WF db := by
  induction ops generalizing s with
  | nil => exact h
  | cons op' ops ih => exact ih (h.load op')

@[simp] theorem lookup_fetchEntries (ops : List OutPoint) (op : OutPoint) :
    (s.fetchEntries db ops).lookup db op = s.lookup db op := by
  rw [lookup, lookup, fetchEntry_fetchEntries]

theorem lastFlushHash_fetchEntries (ops : List OutPoint) :
    (s.fetchEntries db ops).lastFlushHash = s.lastFlushHash := by
  induction ops generalizing s with
  | nil => rfl
  | cons op ops ih =>
    refine (ih (s := s.load db op)).trans ?_
    rw [load]
    split <;> rfl

theorem Represents.fetchEntries (h : s.Represents db u) (ops : List OutPoint) :
    (s.fetchEntries db ops).Represents db u :=
  fun op => (lookup_fetchEntries ops op).trans (h op)

/-! ## Connecting transactions -/

theorem exec_addTxIn (s : UtxoCache) (ti : TxIn) : exec (addTxIn db ti) s =
    match s.fetchEntry db ti.previousOutPoint with
    | none => (.error (.assert ("missing input " ++ ti.previousOutPoint.string)),
        s.load db ti.previousOutPoint)
    | some e => (.ok e.stxo, (s.load db ti.previousOutPoint).spend ti.previousOutPoint e) := by
  rw [← fetchEntry_load (s := s) ti.previousOutPoint ti.previousOutPoint, addTxIn, exec_bind,
    exec_modify]
  dsimp only
  rw [exec_bind, exec_get]
  dsimp only
  split <;> rfl

theorem cachedEntries_load (s : UtxoCache) (op : OutPoint) :
    (s.load db op).cachedEntries[op]? = some (s.fetchEntry db op) := by
  rw [load]
  split_ifs with h
  · obtain ⟨e, he⟩ := Option.isSome_iff_exists.1 h
    rw [fetchEntry, he]
  · rw [put, getElem?_insert', if_pos rfl, fetchEntry_of_none (Option.not_isSome_iff_eq_none.1 h)]

theorem Represents.load (hrep : s.Represents db u) (op : OutPoint) :
    (s.load db op).Represents db u := by
  intro op'
  rw [lookup, fetchEntry_load]
  exact hrep op'

/-- An output that is unspent is found. -/
theorem addTxIn_of_unspent (hrep : s.Represents db u) {ti : TxIn} {coin : SpentTxOut}
    (hcoin : u[ti.previousOutPoint]? = some coin) :
    ∃ s', exec (addTxIn db ti) s = (.ok coin, s') := by
  rw [← hrep, lookup] at hcoin
  obtain ⟨e, he, rfl⟩ := Option.map_eq_some_iff.1 hcoin
  obtain ⟨hget, -⟩ := Option.filter_eq_some_iff.1 he
  exact ⟨_, by rw [exec_addTxIn, hget]⟩

/-- An input that cannot be found breaks no rule. -/
theorem raises_addTxInsLoop (tis : List TxIn) :
    Prog.Raises (fun e => e.isRule = false) (addTxInsLoop db tis) := by
  induction tis with
  | nil => exact .pure _
  | cons ti tis ih =>
    refine .bind (fun s e s' hrun => ?_) fun _ => .bind ih fun _ => .pure _
    rw [exec_addTxIn] at hrun
    split at hrun
    · obtain ⟨he, -⟩ := Prod.mk.inj hrun
      rw [← Except.error.inj he]
      rfl
    · cases hrun

theorem raises_connectAll (height : Int32) (txs : List MsgTx) :
    Prog.Raises (fun e => e.isRule = false) (connectAll db height txs) := by
  induction txs with
  | nil => exact .pure _
  | cons tx txs ih =>
    have hins : Prog.Raises (fun e => e.isRule = false) (addTxIns db tx) := by
      rw [addTxIns]
      split
      · exact .pure _
      · exact raises_addTxInsLoop tx.txIn
    exact .bind (.bind hins fun _ => .bind (.modify _) fun _ => .pure _) fun _ =>
      .bind ih fun _ => .pure _

/-- The two caches were last flushed at the same block. -/
def SameFlush (a b : UtxoCache) : Prop := b.lastFlushHash = a.lastFlushHash

instance : Std.Refl SameFlush := ⟨fun _ => rfl⟩
instance : IsTrans UtxoCache SameFlush := ⟨fun _ _ _ hab hbc => Eq.trans hbc hab⟩

theorem sameFlush_addTxOutsFrom (tx : MsgTx) (height : Int32) (s : UtxoCache) (i : Nat)
    (os : List TxOut) : SameFlush s (addTxOutsFrom tx height s i os) := by
  induction os generalizing s i with
  | nil => rfl
  | cons o os ih =>
    refine (ih _ _).trans ?_
    rw [addTxOut]
    split <;> rfl

theorem keeps_addTxInsLoop (tis : List TxIn) : Prog.Keeps SameFlush (addTxInsLoop db tis) := by
  induction tis with
  | nil => exact .pure _
  | cons ti tis ih =>
    have hload : ∀ s : UtxoCache, SameFlush s (s.load db ti.previousOutPoint) := by
      intro s
      rw [load]
      split <;> rfl
    refine .bind (fun s => ?_) fun _ => .bind ih fun _ => .pure _
    rw [exec_addTxIn]
    split
    · exact hload s
    · refine Eq.trans ?_ (hload s)
      rw [spend]
      split <;> rfl

theorem keeps_connectAll (height : Int32) (txs : List MsgTx) :
    Prog.Keeps SameFlush (connectAll db height txs) := by
  induction txs with
  | nil => exact .pure _
  | cons tx txs ih =>
    have hins : Prog.Keeps SameFlush (addTxIns db tx) := by
      rw [addTxIns]
      split
      · exact .pure _
      · exact keeps_addTxInsLoop tx.txIn
    exact .bind (.bind hins fun _ =>
      .bind (.modify fun s => sameFlush_addTxOutsFrom tx height s 0 tx.txOut) fun _ => .pure _)
      fun _ => .bind ih fun _ => .pure _

/-- None of the outputs of these transactions is in the database. -/
def NewIn (db : Utxos) (txs : List MsgTx) : Prop :=
  ∀ tx ∈ txs, ∀ i < tx.txOut.length, db[tx.outPoint i]? = none

section Specs

variable (h : s.WF db) (hrep : s.Represents db u)
include h hrep

/-- An output that the database does not have enters the set. -/
theorem addTxOut_spec (hdb : db[op]? = none) (o : TxOut) (isCoinBase : Bool) (blockHeight : Int32) :
    (s.addTxOut op o isCoinBase blockHeight).WF db ∧
      (s.addTxOut op o isCoinBase blockHeight).Represents db
        (if Txscript.isUnspendable o.pkScript then u
          else u.insert op ⟨o.value, o.pkScript, blockHeight, isCoinBase⟩) := by
  rw [addTxOut]
  split
  · exact ⟨h, hrep⟩
  refine ⟨h.put ⟨fun _ => hdb, fun hm => by cases hm⟩, fun op' => ?_⟩
  rw [lookup, fetchEntry_put, getElem?_insert']
  split
  · rfl
  · exact hrep op'

variable {height : Int32}

/-- The outputs of a transaction, none of which the database has, enter the set. -/
theorem addTxOutsFrom_spec {tx : MsgTx} {os : List TxOut} {i : Nat}
    (hdb : ∀ j, i ≤ j → j < i + os.length → db[tx.outPoint j]? = none) :
    (addTxOutsFrom tx height s i os).WF db ∧
      (addTxOutsFrom tx height s i os).Represents db (Ledger.insertAll tx height u i os) := by
  induction os generalizing s u i with
  | nil => exact ⟨h, hrep⟩
  | cons o os ih =>
    obtain ⟨h', hrep'⟩ := addTxOut_spec h hrep (hdb i le_rfl (by simp)) o (isCoinBaseTx tx) height
    refine ih h' hrep' fun j hj hlt => hdb j (by omega) ?_
    rw [List.length_cons]
    omega

/-- Spending an entry of the cache takes the output out of the set. -/
theorem spend_spec {e : UtxoEntry} (hget : s.cachedEntries[op]? = some (some e)) :
    (s.spend op e).WF db ∧ (s.spend op e).Represents db (u.erase op) := by
  obtain ⟨hfresh, hclean⟩ := h op (some e) hget
  rw [spend]
  split_ifs with hf
  · refine ⟨h.delete op, fun op' => ?_⟩
    rw [lookup, fetchEntry_delete, getElem?_erase']
    split
    · rw [hfresh hf]
      rfl
    · exact hrep op'
  · refine ⟨h.put ⟨fun hf' => ?_, fun hm => ?_⟩, fun op' => ?_⟩
    · rw [spend_fresh] at hf'
      exact absurd hf' hf
    · rw [spend_stxo]
      exact hclean (modified_of_spend hm)
    · rw [lookup, fetchEntry_put, getElem?_erase']
      split
      · rw [Option.filter_some, if_neg (by simp)]
        rfl
      · exact hrep op'

/-- An input that is found is spent. -/
theorem addTxIn_ok {ti : TxIn} {stxo : SpentTxOut}
    (hrun : exec (addTxIn db ti) s = (.ok stxo, s')) :
    s'.WF db ∧ s'.Represents db (u.erase ti.previousOutPoint) := by
  have hcached : (s.load db ti.previousOutPoint).cachedEntries[ti.previousOutPoint]? =
      some (s.fetchEntry db ti.previousOutPoint) := cachedEntries_load s ti.previousOutPoint
  rw [exec_addTxIn] at hrun
  cases hget : s.fetchEntry db ti.previousOutPoint with
  | none =>
    rw [hget] at hrun
    cases hrun
  | some e =>
    rw [hget] at hrun hcached
    cases hrun
    exact spend_spec (h.load _) (hrep.load _) hcached

variable {stxos : List SpentTxOut}

theorem addTxInsLoop_ok {tis : List TxIn} (hrun : exec (addTxInsLoop db tis) s = (.ok stxos, s')) :
    s'.WF db ∧ s'.Represents db (Ledger.eraseAll u tis) := by
  induction tis generalizing s u stxos with
  | nil =>
    cases hrun
    exact ⟨h, hrep⟩
  | cons ti tis ih =>
    obtain ⟨stxo, s₁, hfirst, hrun⟩ := exec_bind_eq_ok.1 hrun
    obtain ⟨stxos', s₂, hrest, hrun⟩ := exec_bind_eq_ok.1 hrun
    cases hrun
    obtain ⟨h₁, hrep₁⟩ := addTxIn_ok h hrep hfirst
    exact ih h₁ hrep₁ hrest

theorem addTxInsLoop_of_spendAll {tis : List TxIn} {u' : Utxos} {coins : List SpentTxOut}
    (hspend : Ledger.spendAll u tis = some (u', coins)) :
    ∃ s', exec (addTxInsLoop db tis) s = (.ok coins, s') := by
  induction tis generalizing s u coins with
  | nil => exact ⟨s, by rw [← (Prod.mk.inj (Option.some.inj hspend)).2]; rfl⟩
  | cons ti tis ih =>
    obtain ⟨coin, coins', hcoin, hrest, rfl⟩ := Ledger.spendAll_cons hspend
    obtain ⟨s₁, hfirst⟩ := addTxIn_of_unspent hrep hcoin
    obtain ⟨h₁, hrep₁⟩ := addTxIn_ok h hrep hfirst
    obtain ⟨s₂, hloop⟩ := ih h₁ hrep₁ hrest
    exact ⟨s₂, exec_bind_eq_ok.2 ⟨coin, s₁, hfirst, exec_bind_eq_ok.2 ⟨coins', s₂, hloop, rfl⟩⟩⟩

/-- Connecting a transaction does to the set what the transaction says. -/
theorem connectTransaction_ok {tx : MsgTx}
    (hnew : ∀ i < tx.txOut.length, db[tx.outPoint i]? = none)
    (hrun : exec (connectTransaction db tx height) s = (.ok stxos, s')) :
    s'.WF db ∧ s'.Represents db (Ledger.overwriteTx height u tx) := by
  obtain ⟨stxos', s₁, hins, hrun⟩ := exec_bind_eq_ok.1 hrun
  cases hrun
  have h₁ : s₁.WF db ∧
      s₁.Represents db (if isCoinBaseTx tx then u else Ledger.eraseAll u tx.txIn) := by
    rw [addTxIns] at hins
    split_ifs at hins with hcb
    · rw [if_pos hcb]
      cases hins
      exact ⟨h, hrep⟩
    · rw [if_neg hcb]
      exact addTxInsLoop_ok h hrep hins
  exact addTxOutsFrom_spec h₁.1 h₁.2 fun j _ hlt => hnew j (by omega)

/-- Connecting transactions does to the set what they say, when it succeeds. -/
theorem connectAll_ok {txs : List MsgTx} (hnew : NewIn db txs)
    (hrun : exec (connectAll db height txs) s = (.ok stxos, s')) :
    s'.WF db ∧ s'.Represents db (Ledger.overwrite height u txs) := by
  induction txs generalizing s u stxos with
  | nil =>
    cases hrun
    exact ⟨h, hrep⟩
  | cons tx txs ih =>
    obtain ⟨htx, htxs⟩ := List.forall_mem_cons.1 hnew
    obtain ⟨stxos₁, s₁, hfirst, hrun⟩ := exec_bind_eq_ok.1 hrun
    obtain ⟨stxos₂, s₂, hrest, hrun⟩ := exec_bind_eq_ok.1 hrun
    cases hrun
    obtain ⟨h₁, hrep₁⟩ := connectTransaction_ok h hrep htx hfirst
    exact ih h₁ hrep₁ htxs hrest

/-- Transactions that the ledger accepts can be connected, and spend what the ledger says. -/
theorem connectAll_of_applyTxs {txs : List MsgTx} (hnew : NewIn db txs) {u' : Utxos}
    (happly : Ledger.applyTxs height u txs = some (u', stxos)) :
    ∃ s', exec (connectAll db height txs) s = (.ok stxos, s') ∧ s'.WF db ∧ s'.Represents db u' := by
  induction txs generalizing s u stxos with
  | nil =>
    cases happly
    exact ⟨s, rfl, h, hrep⟩
  | cons tx txs ih =>
    obtain ⟨htx, htxs⟩ := List.forall_mem_cons.1 hnew
    obtain ⟨u₁, stxos₁, stxos₂, hfirst, hrest, rfl⟩ := Ledger.applyTxs_cons happly
    have hins : ∃ s₁, exec (addTxIns db tx) s = (.ok stxos₁, s₁) := by
      obtain ⟨u₂, hspend, -⟩ := Ledger.applyTx_eq_some hfirst
      rw [addTxIns]
      split_ifs at hspend with hcb
      · rw [if_pos hcb]
        exact ⟨s, by rw [← (Prod.mk.inj (Option.some.inj hspend)).2]; rfl⟩
      · rw [if_neg hcb]
        exact addTxInsLoop_of_spendAll h hrep hspend
    obtain ⟨s₁, hins⟩ := hins
    have hstep : exec (connectTransaction db tx height) s = (.ok stxos₁, s₁.addTxOuts tx height) :=
      exec_bind_eq_ok.2 ⟨stxos₁, s₁, hins, rfl⟩
    obtain ⟨h₁, hrep₁⟩ := connectTransaction_ok h hrep htx hstep
    rw [Ledger.overwriteTx_of_applyTx hfirst] at hrep₁
    obtain ⟨s₂, hloop, h₂, hrep₂⟩ := ih h₁ hrep₁ htxs hrest
    exact ⟨s₂, exec_bind_eq_ok.2 ⟨stxos₁, _, hstep,
      exec_bind_eq_ok.2 ⟨stxos₂, s₂, hloop, rfl⟩⟩, h₂, hrep₂⟩

end Specs

/-! ## Flushing -/

/-- A flush writes what cache and database say together. -/
theorem getElem?_writeCache (h : s.WF db) (op : OutPoint) :
    (s.writeCache db)[op]? = s.lookup db op := by
  rw [writeCache, getElem?_writeAll]
  cases hget : s.cachedEntries[op]? with
  | none => exact (lookup_of_none hget).symm
  | some e =>
    have hok := h op e hget
    rw [lookup, fetchEntry, hget]
    dsimp only
    cases e with
    | none => rfl
    | some e =>
      rw [writeEntry]
      split
      · rename_i hs
        simp [OrdMap.Write.value, hs]
      rename_i hs
      split_ifs with hm
      · rw [OrdMap.Write.value, hok.2 (by simpa using hm)]
        simp [hs]
      · simp [OrdMap.Write.value, hs]

theorem writeCache_eq (h : s.WF db) (hrep : s.Represents db u) : s.writeCache db = u :=
  ext' fun op => (getElem?_writeCache h op).trans (hrep op)

theorem wf_flushed (hash : Hash) : (flushed hash).WF db := by
  intro op e hget
  rw [flushed, Std.ExtTreeMap.getElem?_empty] at hget
  cases hget

theorem represents_flushed (db : Utxos) (hash : Hash) : (flushed hash).Represents db db :=
  fun _ => lookup_of_none Std.ExtTreeMap.getElem?_empty

end UtxoCache

end Obtcd
