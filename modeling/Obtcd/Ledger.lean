import Obtcd.Txscript

/-!
# What a chain of blocks means

The abstract side of the development: the set of unspent outputs a chain leaves, block by block.
`Ledger.applyBlock` is the textbook rule.  A transaction removes the outputs it spends, which must
be there, and adds the outputs it creates, which must not; a coinbase spends nothing; an output that
can never be spent is never added.  The outputs a block spends are reported in order, which is the
list the spend journal keeps for undoing it.

A `Ledger.Chain` is a stack of blocks, each with the set it was applied to, so that the block on top
can be taken off again.  None of this is translated from the source: the caches, views, journals and
indexes of the implementation are later compared with it.
-/

namespace Obtcd

open OrdMap

/-- One input, which spends the zero hash at the largest index. -/
def isCoinBaseTx (tx : MsgTx) : Bool :=
  match tx.txIn with
  | [ti] => ti.previousOutPoint.index == OutPoint.maxIndex && ti.previousOutPoint.hash == Hash.zero
  | _ => false

/-- What has to be kept of an output to undo its spending. -/
structure SpentTxOut where
  amount : Int64
  pkScript : Bytes
  height : Int32
  isCoinBase : Bool
deriving DecidableEq

/-- A set of unspent outputs. -/
abbrev Utxos := OrdMap OutPoint SpentTxOut

namespace Ledger

/-- Spend a list of inputs, in order, and report what was spent. -/
def spendAll : Utxos → List TxIn → Option (Utxos × List SpentTxOut)
  | u, [] => some (u, [])
  | u, ti :: tis =>
    match u[ti.previousOutPoint]? with
    | none => none
    | some coin => (spendAll (u.erase ti.previousOutPoint) tis).map fun r => (r.1, coin :: r.2)

/-- The coin that an output of `tx` becomes at a height. -/
def coinOf (tx : MsgTx) (height : Int32) (o : TxOut) : SpentTxOut :=
  ⟨o.value, o.pkScript, height, isCoinBaseTx tx⟩

/-- Create the outputs of `tx`, the first of which has index `i`. -/
def createAll (tx : MsgTx) (height : Int32) : Utxos → Nat → List TxOut → Option Utxos
  | u, _, [] => some u
  | u, i, o :: os =>
    if Txscript.isUnspendable o.pkScript then createAll tx height u (i + 1) os
    else if u[tx.outPoint i]?.isSome then none
    else createAll tx height (u.insert (tx.outPoint i) (coinOf tx height o)) (i + 1) os

/-- Apply one transaction at a height. -/
def applyTx (height : Int32) (u : Utxos) (tx : MsgTx) : Option (Utxos × List SpentTxOut) :=
  match if isCoinBaseTx tx then some (u, []) else spendAll u tx.txIn with
  | none => none
  | some (u', stxos) => (createAll tx height u' 0 tx.txOut).map fun u'' => (u'', stxos)

/-- Apply a list of transactions at a height. -/
def applyTxs (height : Int32) : Utxos → List MsgTx → Option (Utxos × List SpentTxOut)
  | u, [] => some (u, [])
  | u, tx :: txs =>
    match applyTx height u tx with
    | none => none
    | some (u', stxos) => (applyTxs height u' txs).map fun r => (r.1, stxos ++ r.2)

/-- The first transaction of the block is a coinbase and no other one is. -/
def coinbaseFirst : List MsgTx → Bool
  | [] => false
  | tx :: txs => isCoinBaseTx tx && txs.all fun tx => !isCoinBaseTx tx

/-- Apply a block: the set it leaves, and the outputs it spends. -/
def applyBlock (u : Utxos) (b : Block) : Option (Utxos × List SpentTxOut) :=
  if coinbaseFirst b.transactions then applyTxs b.height u b.transactions else none

/-! ## Chains -/

/-- A block on a chain, with the outputs it spent and the sets before and after it. -/
structure Link where
  block : Block
  stxos : List SpentTxOut
  before : Utxos
  after : Utxos

/-- A chain, tip first. -/
abbrev Chain := List Link

namespace Chain

/-- The outputs that are unspent at the tip. -/
def utxos : Chain → Utxos
  | [] => ∅
  | l :: _ => l.after

/-- The height of the tip, `-1` for the empty chain. -/
def tipHeight : Chain → Int32
  | [] => -1
  | l :: _ => l.block.height

/-- The hash of the tip, zero for the empty chain. -/
def tipHash : Chain → Hash
  | [] => Hash.zero
  | l :: _ => l.block.hash

/-- `l` extends the chain by one block: it names the tip as its parent, sits one higher, spends only
unspent outputs and creates only new ones. -/
structure Extends (c : Chain) (l : Link) : Prop where
  prev : l.block.header.prevBlock = c.tipHash
  height : l.block.height.toInt = c.tipHeight.toInt + 1
  before : l.before = c.utxos
  apply : applyBlock c.utxos l.block = some (l.after, l.stxos)

end Chain

/-! ## Steps -/

variable {op : OutPoint} {u : Utxos}

theorem erase_insert (coin : SpentTxOut) (h : u[op]? = none) : (u.insert op coin).erase op = u := by
  refine ext' fun op' => ?_
  rw [getElem?_erase', getElem?_insert']
  split
  · rename_i heq
    rw [← heq, h]
  · rfl

theorem insert_erase {coin : SpentTxOut} (h : u[op]? = some coin) :
    (u.erase op).insert op coin = u := by
  refine ext' fun op' => ?_
  rw [getElem?_insert', getElem?_erase']
  split
  · rename_i heq
    rw [← heq, h]
  · rfl

theorem erase_insert_comm {op' : OutPoint} (coin : SpentTxOut) (h : op' ≠ op) :
    (u.insert op' coin).erase op = (u.erase op).insert op' coin := by
  refine ext' fun k => ?_
  simp only [getElem?_erase', getElem?_insert']
  by_cases h₁ : op = k
  · subst h₁
    simp [h]
  · simp [h₁]

variable {stxos : List SpentTxOut} {height : Int32} {tx : MsgTx} {u' : Utxos}

/-- Applying a transaction: first its inputs, then its outputs. -/
theorem applyTx_eq_some (h : applyTx height u tx = some (u', stxos)) :
    ∃ u₁, (if isCoinBaseTx tx then some (u, []) else spendAll u tx.txIn) = some (u₁, stxos) ∧
      createAll tx height u₁ 0 tx.txOut = some u' := by
  rw [applyTx] at h
  split at h
  · simp at h
  · rename_i u₁ s₁ hspend
    obtain ⟨u₂, hcreate, heq⟩ := Option.map_eq_some_iff.1 h
    obtain ⟨rfl, rfl⟩ : u₂ = u' ∧ s₁ = stxos := by simpa using heq
    exact ⟨u₁, hspend, hcreate⟩

/-- Applying a list of transactions: the first, then the rest. -/
theorem applyTxs_cons {txs : List MsgTx} (h : applyTxs height u (tx :: txs) = some (u', stxos)) :
    ∃ u₁ s₁ s₂, applyTx height u tx = some (u₁, s₁) ∧ applyTxs height u₁ txs = some (u', s₂) ∧
      stxos = s₁ ++ s₂ := by
  rw [applyTxs] at h
  split at h
  · simp at h
  · rename_i u₁ s₁ htx
    obtain ⟨⟨u₂, s₂⟩, hrest, heq⟩ := Option.map_eq_some_iff.1 h
    obtain ⟨rfl, rfl⟩ : u₂ = u' ∧ s₁ ++ s₂ = stxos := by simpa using heq
    exact ⟨u₁, s₁, s₂, htx, hrest, rfl⟩

/-- A block that can be applied starts with its only coinbase. -/
theorem applyBlock_eq_some {b : Block} (h : applyBlock u b = some (u', stxos)) :
    ∃ tx txs, b.transactions = tx :: txs ∧ isCoinBaseTx tx = true ∧
      (∀ tx' ∈ txs, isCoinBaseTx tx' = false) ∧
      applyTxs b.height u (tx :: txs) = some (u', stxos) := by
  rw [applyBlock] at h
  split at h
  · rename_i hcb
    cases htxs : b.transactions with
    | nil =>
      rw [htxs] at hcb
      simp [coinbaseFirst] at hcb
    | cons tx txs =>
      rw [htxs] at hcb h
      obtain ⟨hfirst, hrest⟩ : isCoinBaseTx tx = true ∧ ∀ tx' ∈ txs, isCoinBaseTx tx' = false := by
        simpa [coinbaseFirst] using hcb
      exact ⟨tx, txs, rfl, hfirst, hrest, h⟩
  · simp at h

variable {coins : List SpentTxOut} {tis : List TxIn}

/-- Spending a list of inputs: the first, then the rest. -/
theorem spendAll_cons {ti : TxIn} (h : spendAll u (ti :: tis) = some (u', coins)) :
    ∃ coin rest, u[ti.previousOutPoint]? = some coin ∧
      spendAll (u.erase ti.previousOutPoint) tis = some (u', rest) ∧ coins = coin :: rest := by
  rw [spendAll] at h
  split at h
  · cases h
  · rename_i coin hcoin
    obtain ⟨⟨u'', rest⟩, hrest, heq⟩ := Option.map_eq_some_iff.1 h
    cases heq
    exact ⟨coin, rest, hcoin, hrest, rfl⟩

theorem length_of_spendAll (h : spendAll u tis = some (u', coins)) : coins.length = tis.length := by
  induction tis generalizing u coins with
  | nil =>
    obtain ⟨-, rfl⟩ : u = u' ∧ [] = coins := by simpa [spendAll] using h
    rfl
  | cons ti tis ih =>
    obtain ⟨c, coins', -, hrest, rfl⟩ := spendAll_cons h
    rw [List.length_cons, List.length_cons, ih hrest]

/-- An outpoint that is not spent can be added before or after spending. -/
theorem spendAll_insert (coin : SpentTxOut) (hop : u[op]? = none)
    (h : spendAll u tis = some (u', coins)) :
    u'[op]? = none ∧ spendAll (u.insert op coin) tis = some (u'.insert op coin, coins) := by
  induction tis generalizing u coins with
  | nil =>
    obtain ⟨rfl, rfl⟩ : u = u' ∧ [] = coins := by simpa [spendAll] using h
    exact ⟨hop, rfl⟩
  | cons ti tis ih =>
    obtain ⟨c, coins', hc, hrest, rfl⟩ := spendAll_cons h
    have hne : op ≠ ti.previousOutPoint := by
      rintro rfl
      rw [hop] at hc
      simp at hc
    have hop' : (u.erase ti.previousOutPoint)[op]? = none := by
      rw [getElem?_erase', if_neg (Ne.symm hne), hop]
    obtain ⟨hnone, hspend⟩ := ih hop' hrest
    refine ⟨hnone, ?_⟩
    rw [spendAll, getElem?_insert', if_neg hne, hc]
    rw [erase_insert_comm coin hne, hspend]
    rfl

/-! ## Applying without checking -/

/-- Take the outputs that some inputs name out of a set, there or not. -/
def eraseAll (u : Utxos) (tis : List TxIn) : Utxos :=
  tis.foldl (fun u ti => u.erase ti.previousOutPoint) u

/-- Put the outputs of `tx` into a set, over whatever is there. -/
def insertAll (tx : MsgTx) (height : Int32) : Utxos → Nat → List TxOut → Utxos
  | u, _, [] => u
  | u, i, o :: os =>
    insertAll tx height
      (if Txscript.isUnspendable o.pkScript then u
        else u.insert (tx.outPoint i) (coinOf tx height o)) (i + 1) os

/-- What a transaction leaves of a set when nothing is checked. -/
def overwriteTx (height : Int32) (u : Utxos) (tx : MsgTx) : Utxos :=
  insertAll tx height (if isCoinBaseTx tx then u else eraseAll u tx.txIn) 0 tx.txOut

/-- What a list of transactions leaves of a set when nothing is checked. -/
def overwrite (height : Int32) (u : Utxos) (txs : List MsgTx) : Utxos :=
  txs.foldl (overwriteTx height) u

theorem eraseAll_of_spendAll (h : spendAll u tis = some (u', coins)) : eraseAll u tis = u' := by
  induction tis generalizing u coins with
  | nil =>
    obtain ⟨rfl, -⟩ : u = u' ∧ [] = coins := by simpa [spendAll] using h
    rfl
  | cons ti tis ih =>
    obtain ⟨_, _, -, hrest, -⟩ := spendAll_cons h
    exact ih hrest

theorem insertAll_of_createAll {i : Nat} {os : List TxOut}
    (h : createAll tx height u i os = some u') : insertAll tx height u i os = u' := by
  induction os generalizing u i with
  | nil => exact Option.some.inj h
  | cons o os ih =>
    rw [createAll] at h
    rw [insertAll]
    split at h
    · rename_i hun
      rw [if_pos hun]
      exact ih h
    rename_i hun
    split_ifs at h
    rw [if_neg hun]
    exact ih h

theorem overwriteTx_of_applyTx (h : applyTx height u tx = some (u', stxos)) :
    overwriteTx height u tx = u' := by
  obtain ⟨u₁, hspend, hcreate⟩ := applyTx_eq_some h
  rw [overwriteTx, ← insertAll_of_createAll hcreate]
  congr 1
  split_ifs at hspend with hcb
  · rw [if_pos hcb]
    exact congrArg Prod.fst (Option.some.inj hspend)
  · rw [if_neg hcb]
    exact eraseAll_of_spendAll hspend

/-! ## Coins of a kind -/

/-- Every coin of a set is of some kind. -/
def AllCoins (P : SpentTxOut → Prop) (u : Utxos) : Prop :=
  ∀ (op : OutPoint) (coin : SpentTxOut), u[op]? = some coin → P coin

section AllCoins

variable {P : SpentTxOut → Prop}

theorem AllCoins.erase (h : AllCoins P u) (op : OutPoint) : AllCoins P (u.erase op) := by
  intro op' coin hop
  rw [getElem?_erase'] at hop
  split_ifs at hop
  · exact h op' coin hop

theorem AllCoins.insert (h : AllCoins P u) {op : OutPoint} {coin : SpentTxOut} (hcoin : P coin) :
    AllCoins P (u.insert op coin) := by
  intro op' coin' hop
  rw [getElem?_insert'] at hop
  split at hop
  · rwa [← Option.some.inj hop]
  · exact h op' coin' hop

theorem AllCoins.spendAll {tis : List TxIn} {coins : List SpentTxOut} (h : AllCoins P u)
    (hspend : spendAll u tis = some (u', coins)) : AllCoins P u' := by
  induction tis generalizing u coins with
  | nil =>
    obtain ⟨rfl, -⟩ : u = u' ∧ [] = coins := by simpa [Ledger.spendAll] using hspend
    exact h
  | cons ti tis ih =>
    obtain ⟨_, _, -, hrest, -⟩ := spendAll_cons hspend
    exact ih (h.erase _) hrest

/-- The outputs that can be spent become coins of the kind. -/
def CreatesOf (P : SpentTxOut → Prop) (height : Int32) (tx : MsgTx) : Prop :=
  ∀ o ∈ tx.txOut, Txscript.isUnspendable o.pkScript = false → P (coinOf tx height o)

theorem AllCoins.createAll {height : Int32} {tx : MsgTx} {os : List TxOut} {i : Nat}
    (h : AllCoins P u)
    (hos : ∀ o ∈ os, Txscript.isUnspendable o.pkScript = false → P (coinOf tx height o))
    (hcreate : createAll tx height u i os = some u') : AllCoins P u' := by
  induction os generalizing u i with
  | nil =>
    obtain rfl : u = u' := by simpa [Ledger.createAll] using hcreate
    exact h
  | cons o os ih =>
    obtain ⟨ho, hos'⟩ := List.forall_mem_cons.1 hos
    rw [Ledger.createAll] at hcreate
    split at hcreate
    · exact ih h hos' hcreate
    rename_i hun
    split_ifs at hcreate
    exact ih (h.insert (ho (Bool.eq_false_iff.2 hun))) hos' hcreate

theorem AllCoins.applyTx {height : Int32} {tx : MsgTx} {stxos : List SpentTxOut}
    (h : AllCoins P u) (hos : CreatesOf P height tx)
    (happly : applyTx height u tx = some (u', stxos)) : AllCoins P u' := by
  obtain ⟨u₁, hspend, hcreate⟩ := applyTx_eq_some happly
  have h₁ : AllCoins P u₁ := by
    split at hspend
    · obtain ⟨rfl, -⟩ : u = u₁ ∧ [] = stxos := by simpa using hspend
      exact h
    · exact h.spendAll hspend
  exact h₁.createAll hos hcreate

end AllCoins

end Ledger

end Obtcd
