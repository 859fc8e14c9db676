import Obtcd.Blockchain.Error
import Obtcd.Ledger

/-!
# Unspent outputs and views of them

A `UtxoEntry` is an unspent output as validation sees it, with the flags that say whether it has
been spent, changed or created since it was loaded.  A `UtxoViewpoint` is a set of entries around
the transactions of a block: it is filled from the UTXO cache, and connecting a transaction to it
marks the inputs spent and adds the outputs.

A view's map can hold a `nil` entry, which is what loading an outpoint the cache does not know
leaves behind.  Such an outpoint is *in* the view, and is not loaded again, but looking it up finds
nothing; `entries` therefore maps outpoints to optional entries, and `lookupEntry` joins the two
kinds of absence.

Every function here that mutates a view returns the new one.  A caller throws a view away on an
error, so a function that fails returns none.
-/

namespace Obtcd

/-- `UtxoEntry`, with the bits of `packedFlags` as fields. -/
structure UtxoEntry where
  amount : Int64
  pkScript : Bytes
  blockHeight : Int32
  coinBase : Bool := false
  spent : Bool := false
  modified : Bool := false
  fresh : Bool := false
deriving DecidableEq

namespace UtxoEntry

def spend (e : UtxoEntry) : UtxoEntry :=
  if e.spent then e else { e with spent := true, modified := true }

/-- What the spend journal keeps of an entry. -/
def stxo (e : UtxoEntry) : SpentTxOut := ⟨e.amount, e.pkScript, e.blockHeight, e.coinBase⟩

/-- The entry that a coin of the database is read as. -/
def ofCoin (coin : SpentTxOut) : UtxoEntry where
  amount := coin.amount
  pkScript := coin.pkScript
  blockHeight := coin.height
  coinBase := coin.isCoinBase

@[simp] theorem spend_spent (e : UtxoEntry) : e.spend.spent = true := by
  unfold spend
  split
  · assumption
  · rfl

@[simp] theorem spend_stxo (e : UtxoEntry) : e.spend.stxo = e.stxo := by
  unfold spend
  split <;> rfl

@[simp] theorem spend_fresh (e : UtxoEntry) : e.spend.fresh = e.fresh := by
  unfold spend
  split <;> rfl

theorem modified_of_spend {e : UtxoEntry} (h : e.spend.modified = false) : e.modified = false := by
  unfold spend at h
  split at h
  · exact h
  · cases h

end UtxoEntry

/-- `block.Transactions()[1:]`, which panics on a block without transactions. -/
def Block.afterFirst (b : Block) : Except GoError (List MsgTx) :=
  match b.transactions with
  | [] => .error (.panic "runtime error: slice bounds out of range [1:0]")
  | _ :: txs => .ok txs

structure UtxoViewpoint where
  entries : OrdMap OutPoint (Option UtxoEntry)
  bestHash : Hash
deriving DecidableEq

namespace UtxoViewpoint

/-- `NewUtxoViewpoint`. -/
def new : UtxoViewpoint := ⟨∅, Hash.zero⟩

/-- A missing and a `nil` entry look the same. -/
def lookupEntry (v : UtxoViewpoint) (op : OutPoint) : Option UtxoEntry := (v.entries[op]?).join

/-- The outpoint has an entry that is not spent.  This is the test
`utxo == nil || utxo.IsSpent()`, turned around. -/
def unspent (v : UtxoViewpoint) (op : OutPoint) : Option UtxoEntry :=
  (v.lookupEntry op).filter fun e => !e.spent

def fetchPrevOutput (v : UtxoViewpoint) (op : OutPoint) : Option TxOut :=
  (v.lookupEntry op).map fun e => ⟨e.amount, e.pkScript⟩

/-- Store an entry. -/
def put (v : UtxoViewpoint) (op : OutPoint) (e : Option UtxoEntry) : UtxoViewpoint :=
  { v with entries := v.entries.insert op e }

def setBestHash (v : UtxoViewpoint) (h : Hash) : UtxoViewpoint := { v with bestHash := h }

/-- The entry `addTxOut` writes. -/
def txOutEntry (o : TxOut) (isCoinBase : Bool) (blockHeight : Int32) : UtxoEntry where
  amount := o.value
  pkScript := o.pkScript
  blockHeight := blockHeight
  coinBase := isCoinBase
  modified := true
  fresh := true

/-- An output that can never be spent is not added; one that is there is replaced. -/
def addTxOut (v : UtxoViewpoint) (op : OutPoint) (o : TxOut) (isCoinBase : Bool)
    (blockHeight : Int32) : UtxoViewpoint :=
  if Txscript.isUnspendable o.pkScript then v
  else v.put op (some (txOutEntry o isCoinBase blockHeight))

/-- The loop of `AddTxOuts` over the outputs from number `i` on. -/
def addTxOutsFrom (tx : MsgTx) (blockHeight : Int32) :
    UtxoViewpoint → Nat → List TxOut → UtxoViewpoint
  | v, _, [] => v
  | v, i, o :: os =>
    addTxOutsFrom tx blockHeight (v.addTxOut (tx.outPoint i) o (isCoinBaseTx tx) blockHeight)
      (i + 1) os

def addTxOuts (v : UtxoViewpoint) (tx : MsgTx) (blockHeight : Int32) : UtxoViewpoint :=
  addTxOutsFrom tx blockHeight v 0 tx.txOut

/-- The loop of `connectTransaction` over the inputs, which reports what is spent. -/
def spendInputs : UtxoViewpoint → List TxIn → Except GoError (UtxoViewpoint × List SpentTxOut)
  | v, [] => .ok (v, [])
  | v, ti :: tis =>
    match v.lookupEntry ti.previousOutPoint with
    | none => .error (.assert ("view missing input " ++ ti.previousOutPoint.string))
    | some e => do
      let (v', stxos) ← spendInputs (v.put ti.previousOutPoint (some e.spend)) tis
      .ok (v', e.stxo :: stxos)

/-- Spend the inputs, add the outputs. -/
def connectTransaction (v : UtxoViewpoint) (tx : MsgTx) (blockHeight : Int32) :
    Except GoError (UtxoViewpoint × List SpentTxOut) :=
  if isCoinBaseTx tx then .ok (v.addTxOuts tx blockHeight, [])
  else do
    let (v', stxos) ← v.spendInputs tx.txIn
    .ok (v'.addTxOuts tx blockHeight, stxos)

/-- The loop of `connectTransactions`. -/
def connectAll (blockHeight : Int32) :
    UtxoViewpoint → List MsgTx → Except GoError (UtxoViewpoint × List SpentTxOut)
  | v, [] => .ok (v, [])
  | v, tx :: txs => do
    let (v', stxos) ← v.connectTransaction tx blockHeight
    let (v'', stxos') ← connectAll blockHeight v' txs
    .ok (v'', stxos ++ stxos')

def connectTransactions (v : UtxoViewpoint) (block : Block) :
    Except GoError (UtxoViewpoint × List SpentTxOut) := do
  let (v', stxos) ← connectAll block.height v block.transactions
  .ok (v'.setBestHash block.hash, stxos)

/-! ## Disconnecting a block -/

/-- The coinbase does not count. -/
def countSpentOutputs (block : Block) : Except GoError Nat := do
  let txs ← block.afterFirst
  .ok (txs.map fun tx => tx.txIn.length).sum

/-- One output of a disconnected transaction.  It no longer exists, which to a view is the same as
spent; an entry that is not there yet is entered first, for the change to be noticed. -/
def disconnectTxOut (v : UtxoViewpoint) (op : OutPoint) (o : TxOut) (isCoinBase : Bool)
    (blockHeight : Int32) : UtxoViewpoint :=
  if Txscript.isUnspendable o.pkScript then v
  else
    let e := (v.lookupEntry op).getD
      { amount := o.value, pkScript := o.pkScript, blockHeight := blockHeight,
        coinBase := isCoinBase }
    v.put op (some e.spend)

/-- The loop over the outputs of a disconnected transaction from number `i` on. -/
def disconnectTxOutsFrom (tx : MsgTx) (isCoinBase : Bool) (blockHeight : Int32) :
    UtxoViewpoint → Nat → List TxOut → UtxoViewpoint
  | v, _, [] => v
  | v, i, o :: os =>
    disconnectTxOutsFrom tx isCoinBase blockHeight
      (v.disconnectTxOut (tx.outPoint i) o isCoinBase blockHeight) (i + 1) os

def maxOutputsPerBlock : Nat := 111111

/-- Some output of a transaction, in the view or else in the database.  Which one
does not matter, as it is only asked for its height and whether it is a coinbase. -/
def fetchEntryByHash (db : Utxos) (v : UtxoViewpoint) (hash : Hash) : Option UtxoEntry :=
  ((List.range maxOutputsPerBlock).findSome? fun i => v.lookupEntry ⟨hash, UInt32.ofNat i⟩).or
    ((db.toList.find? fun r => r.1.hash == hash).map fun r => .ofCoin r.2)

/-- A view in the middle of `disconnectTransactions`: the spent outputs that have been put back, and
those that are left, last first. -/
structure Undo where
  view : UtxoViewpoint
  done : List SpentTxOut
  left : List SpentTxOut

/-- The entry an output is put back as. -/
def restored (stxo : SpentTxOut) : UtxoEntry :=
  { UtxoEntry.ofCoin stxo with modified := true }

/-- What the spend journal says about an output.  A journal of the first version did not always keep
the height, and then it is looked up. -/
def completeStxo (db : Utxos) (v : UtxoViewpoint) (txHash : Hash) (op : OutPoint)
    (stxo : SpentTxOut) : Except GoError SpentTxOut :=
  if stxo.height = 0 then
    match v.fetchEntryByHash db txHash with
    | none => .error (.assert ("unable to resurrect legacy stxo " ++ op.string))
    | some e => .ok { stxo with height := e.blockHeight, isCoinBase := e.coinBase }
  else .ok stxo

/-- One input of a disconnected transaction: what it spent is put back. -/
def restoreInput (db : Utxos) (txHash : Hash) (s : Undo) (ti : TxIn) : Except GoError Undo :=
  match s.left with
  | [] => .error (.panic "runtime error: index out of range [-1]")
  | stxo :: left => do
    let op := ti.previousOutPoint
    let v := if (s.view.lookupEntry op).isSome then s.view else s.view.put op (some ⟨0, [], 0, false,
      false, false, false⟩)
    let stxo ← completeStxo db v txHash op stxo
    .ok ⟨v.put op (some (restored stxo)), stxo :: s.done, left⟩

/-- One transaction of a disconnected block: its outputs, then, unless it is the first, its inputs
backwards. -/
def disconnectTx (db : Utxos) (blockHeight : Int32) (s : Undo) (tx : MsgTx × Nat) :
    Except GoError Undo :=
  let isCoinBase := tx.2 == 0
  let v := disconnectTxOutsFrom tx.1 isCoinBase blockHeight s.view 0 tx.1.txOut
  if isCoinBase then .ok { s with view := v }
  else tx.1.txIn.reverse.foldlM (restoreInput db tx.1.txHash) { s with view := v }

/-- The view without the block, and the spent outputs, completed. -/
def disconnectTransactions (db : Utxos) (v : UtxoViewpoint) (block : Block)
    (stxos : List SpentTxOut) : Except GoError (UtxoViewpoint × List SpentTxOut) := do
  let n ← countSpentOutputs block
  if stxos.length ≠ n then
    .error (.assert "disconnectTransactions called with bad spent transaction out information")
  else do
    let s ← block.transactions.zipIdx.reverse.foldlM (disconnectTx db block.height)
      ⟨v, [], stxos.reverse⟩
    .ok (s.view.setBestHash block.header.prevBlock, s.done)

/-- What `commit` makes of an entry. -/
def commitEntry : Option UtxoEntry → Option (Option UtxoEntry)
  | none => none
  | some e => if e.modified && e.spent then none else some (some { e with modified := !e.modified })

/-- Forget what is gone.  The flag of every other entry is flipped, not cleared. -/
def commit (v : UtxoViewpoint) : UtxoViewpoint :=
  { v with entries := v.entries.filterMap fun _ => commitEntry }

/-- What `dbPutUtxoView` does to the database for an entry. -/
def putEntry : Option UtxoEntry → OrdMap.Write SpentTxOut
  | none => .keep
  | some e => if !e.modified then .keep else if e.spent then .delete else .put e.stxo

def dbPutUtxoView (db : Utxos) (v : UtxoViewpoint) : Utxos := OrdMap.writeAll db v.entries putEntry

/-! ## Loading from the cache

What the cache answers is a function from outpoints to entries here; the cache itself is modelled
elsewhere, and shown to answer alike however often it is asked. -/

section Fetch

variable (fetch : OutPoint → Option UtxoEntry)

/-- Load the entries of some outpoints, over whatever is there. -/
def fetchUtxosFromCache (v : UtxoViewpoint) : List OutPoint → UtxoViewpoint
  | [] => v
  | op :: ops => fetchUtxosFromCache (v.put op (fetch op)) ops

/-- Load the entries of the outpoints that are not in the view. -/
def fetchUtxos (v : UtxoViewpoint) (ops : List OutPoint) : UtxoViewpoint :=
  v.fetchUtxosFromCache fetch (ops.filter fun op => (v.entries[op]?).isNone)

/-- The last position at which a transaction with each hash stands. -/
def txInFlight : OrdMap Hash Nat → Nat → List MsgTx → OrdMap Hash Nat
  | m, _, [] => m
  | m, i, tx :: txs => txInFlight (m.insert tx.txHash i) (i + 1) txs

/-- One input of the loop of `findInputsToFetch`, of the transaction at position `i + 1`. -/
def findInput (block : Block) (inFlight : OrdMap Hash Nat) (i : Nat)
    (s : UtxoViewpoint × List OutPoint) (ti : TxIn) : UtxoViewpoint × List OutPoint :=
  match inFlight[ti.previousOutPoint.hash]?.filter fun j => i ≥ j with
  | some j =>
    match block.transactions[j]? with
    | some originTx => (s.1.addTxOuts originTx block.height, s.2)
    | none => s
  | none =>
    if (s.1.entries[ti.previousOutPoint]?).isSome then s
    else (s.1, s.2 ++ [ti.previousOutPoint])

/-- The loop of `findInputsToFetch` over the transactions from position `i + 1` on. -/
def findInputs (block : Block) (inFlight : OrdMap Hash Nat) :
    Nat → UtxoViewpoint × List OutPoint → List MsgTx → UtxoViewpoint × List OutPoint
  | _, s, [] => s
  | i, s, tx :: txs =>
    findInputs block inFlight (i + 1) (tx.txIn.foldl (findInput block inFlight i) s) txs

/-- Outputs of earlier transactions of the block are added to the view, other
outputs that are not in it have to be loaded. -/
def findInputsToFetch (v : UtxoViewpoint) (block : Block) :
    Except GoError (UtxoViewpoint × List OutPoint) := do
  let txs ← block.afterFirst
  .ok (findInputs block (txInFlight ∅ 0 block.transactions) 0 (v, []) txs)

def fetchInputUtxos (v : UtxoViewpoint) (block : Block) : Except GoError UtxoViewpoint := do
  let (v', needed) ← v.findInputsToFetch block
  .ok (v'.fetchUtxosFromCache fetch needed)

/-- A view of the outputs of a transaction, in case it is in the chain, and of those
it spends. -/
def fetchUtxoView (tx : MsgTx) : UtxoViewpoint :=
  new.fetchUtxosFromCache fetch
    (tx.outPoints ++ if isCoinBaseTx tx then [] else tx.txIn.map TxIn.previousOutPoint)

end Fetch

/-! ## What a lookup finds -/

@[simp] theorem lookupEntry_put (v : UtxoViewpoint) (op op' : OutPoint) (e : Option UtxoEntry) :
    (v.put op e).lookupEntry op' = if op = op' then e else v.lookupEntry op' := by
  unfold lookupEntry put
  rw [OrdMap.getElem?_insert']
  split <;> rfl

theorem lookupEntry_new (op : OutPoint) : new.lookupEntry op = none := by
  rw [lookupEntry, new, Std.ExtTreeMap.getElem?_empty]
  rfl

theorem entries_fetchUtxosFromCache (fetch : OutPoint → Option UtxoEntry) (v : UtxoViewpoint)
    (ops : List OutPoint) (op : OutPoint) :
    (v.fetchUtxosFromCache fetch ops).entries[op]? =
      if op ∈ ops then some (fetch op) else v.entries[op]? := by
  induction ops generalizing v with
  | nil => rfl
  | cons op' ops ih =>
    rw [fetchUtxosFromCache, ih, put, OrdMap.getElem?_insert']
    by_cases heq : op' = op
    · simp [heq]
    · simp [heq, Ne.symm heq]

theorem lookupEntry_fetchUtxosFromCache (fetch : OutPoint → Option UtxoEntry) (v : UtxoViewpoint)
    (ops : List OutPoint) (op : OutPoint) :
    (v.fetchUtxosFromCache fetch ops).lookupEntry op =
      if op ∈ ops then fetch op else v.lookupEntry op := by
  rw [lookupEntry, entries_fetchUtxosFromCache]
  split <;> rfl

/-- `FetchUtxoView` has nothing that the cache has not. -/
theorem fetchEntry_of_fetchUtxoView {fetch : OutPoint → Option UtxoEntry} {tx : MsgTx}
    {op : OutPoint} {e : UtxoEntry} (h : (fetchUtxoView fetch tx).lookupEntry op = some e) :
    fetch op = some e := by
  rw [fetchUtxoView, lookupEntry_fetchUtxosFromCache, lookupEntry_new] at h
  exact (Option.ite_none_right_eq_some.1 h).2

/-- Connecting a list of transactions, one at a time. -/
theorem connectAll_cons {blockHeight : Int32} {v w w' : UtxoViewpoint} {tx : MsgTx}
    {txs : List MsgTx} {stxos stxos' : List SpentTxOut}
    (hconn : v.connectTransaction tx blockHeight = .ok (w, stxos))
    (hrest : connectAll blockHeight w txs = .ok (w', stxos')) :
    connectAll blockHeight v (tx :: txs) = .ok (w', stxos ++ stxos') := by
  rw [connectAll, hconn]
  show (connectAll blockHeight w txs >>= fun r => .ok (r.1, stxos ++ r.2)) = _
  rw [hrest]
  rfl

theorem unspent_eq_some {v : UtxoViewpoint} {op : OutPoint} {e : UtxoEntry} :
    v.unspent op = some e ↔ v.lookupEntry op = some e ∧ e.spent = false := by
  unfold unspent
  rw [Option.filter_eq_some_iff]
  simp

end UtxoViewpoint

end Obtcd
