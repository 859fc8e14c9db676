import Obtcd.Blockchain.LoadedView

/-!
# A view as a set of unspent outputs

`UtxoViewpoint.coin` is what a view says about an outpoint when entries that are missing, `nil` or
spent are all taken for the same thing, as the source takes them.  Connecting transactions to a view
does to these coins what the ledger does to its set (`connectAll_of_applyTxs`).

What the ledger does to a single outpoint is said first.  A transaction leaves alone what it neither
spends nor creates.
-/

namespace Obtcd

namespace Ledger

variable {tx : MsgTx} {height : Int32} {u u' : Utxos} {op : OutPoint} {coin : SpentTxOut}

/-- Spending adds nothing. -/
theorem getElem?_of_spendAll {tis : List TxIn} {coins : List SpentTxOut}
    (h : spendAll u tis = some (u', coins)) (hop : u'[op]? = some coin) : u[op]? = some coin := by
  induction tis generalizing u coins with
  | nil =>
    cases h
    exact hop
  | cons ti tis ih =>
    obtain ⟨_, _, -, hrest, -⟩ := spendAll_cons h
    have herase := ih hrest
    rw [OrdMap.getElem?_erase'] at herase
    exact (Option.ite_none_left_eq_some.1 herase).2

/-- What is reported as spent was there, under one of the inputs. -/
theorem exists_of_mem_spendAll {tis : List TxIn} {coins : List SpentTxOut}
    (h : spendAll u tis = some (u', coins)) (hmem : coin ∈ coins) :
    ∃ ti ∈ tis, u[ti.previousOutPoint]? = some coin := by
  induction tis generalizing u coins with
  | nil =>
    cases h
    cases hmem
  | cons ti tis ih =>
    obtain ⟨first, coins', hfirst, hrest, rfl⟩ := spendAll_cons h
    rcases List.mem_cons.1 hmem with rfl | hmem
    · exact ⟨ti, List.mem_cons_self, hfirst⟩
    · obtain ⟨ti', hti', hcoin⟩ := ih hrest hmem
      rw [OrdMap.getElem?_erase'] at hcoin
      exact ⟨ti', List.mem_cons_of_mem _ hti', (Option.ite_none_left_eq_some.1 hcoin).2⟩

theorem getElem?_insertAll_of_not (os : List TxOut) (i : Nat) (h : ¬tx.CreatesFrom i os op) :
    (insertAll tx height u i os)[op]? = u[op]? := by
  induction os generalizing u i with
  | nil => rfl
  | cons o os ih =>
    rw [MsgTx.createsFrom_cons, not_or] at h
    rw [insertAll, ih (i + 1) h.2]
    split
    · rfl
    · rename_i hspendable
      rw [OrdMap.getElem?_insert', if_neg fun hop => h.1 ⟨hop, by simpa using hspendable⟩]

/-- What is created was not there, and is there afterwards at the height of the block. -/
theorem createAll_of_creates {os : List TxOut} {i : Nat} (h : createAll tx height u i os = some u')
    (hop : tx.CreatesFrom i os op) :
    u[op]? = none ∧ ∃ coin, u'[op]? = some coin ∧ coin.height = height := by
  induction os generalizing u i with
  | nil => exact absurd hop MsgTx.createsFrom_nil
  | cons o os ih =>
    rw [createAll] at h
    split at h
    · rename_i hun
      rcases MsgTx.createsFrom_cons.1 hop with ⟨-, hspendable⟩ | hop
      · rw [hun] at hspendable
        cases hspendable
      · exact ih h hop
    split at h
    · cases h
    rename_i hnew
    by_cases hlater : tx.CreatesFrom (i + 1) os op
    · obtain ⟨hnone, hcoin⟩ := ih h hlater
      rw [OrdMap.getElem?_insert'] at hnone
      split at hnone
      · cases hnone
      · exact ⟨hnone, hcoin⟩
    · rcases MsgTx.createsFrom_cons.1 hop with ⟨rfl, -⟩ | hop
      · refine ⟨by simpa using hnew, coinOf tx height o, ?_, rfl⟩
        rw [← insertAll_of_createAll h, getElem?_insertAll_of_not os _ hlater,
          OrdMap.getElem?_insert', if_pos rfl]
      · exact absurd hop hlater

theorem createAll_of_not {os : List TxOut} {i : Nat} (h : createAll tx height u i os = some u')
    (hop : ¬tx.CreatesFrom i os op) : u'[op]? = u[op]? := by
  rw [← insertAll_of_createAll h, getElem?_insertAll_of_not os i hop]

end Ledger

namespace UtxoViewpoint

variable {v : UtxoViewpoint} {u : Utxos} {op : OutPoint}

/-- The unspent output at an outpoint. -/
def coin (v : UtxoViewpoint) (op : OutPoint) : Option SpentTxOut :=
  (v.unspent op).map UtxoEntry.stxo

/-- The view holds the set `u`. -/
def Represents (v : UtxoViewpoint) (u : Utxos) : Prop := ∀ op, v.coin op = u[op]?

theorem coin_eq_some {c : SpentTxOut} :
    v.coin op = some c ↔ ∃ e, v.lookupEntry op = some e ∧ e.spent = false ∧ e.stxo = c := by
  rw [coin, Option.map_eq_some_iff]
  simp only [unspent_eq_some, and_assoc]

theorem coin_put (v : UtxoViewpoint) (op op' : OutPoint) (e : UtxoEntry) :
    (v.put op (some e)).coin op' =
      if op = op' then if e.spent then none else some e.stxo else v.coin op' := by
  rw [coin, unspent, lookupEntry_put]
  split
  · cases h : e.spent <;> simp [h]
  · rfl

/-- The unspent outputs of a view. -/
def coins (v : UtxoViewpoint) : Utxos :=
  v.entries.filterMap fun _ e => (e.filter fun e => !e.spent).map UtxoEntry.stxo

theorem represents_coins (v : UtxoViewpoint) : v.Represents v.coins := by
  intro op
  rw [coins, Std.ExtTreeMap.getElem?_filterMap', coin, unspent, lookupEntry]
  cases v.entries[op]? <;> rfl

/-! ## Connecting transactions -/

theorem Represents.spend (h : v.Represents u) (op : OutPoint) (e : UtxoEntry) :
    (v.put op (some e.spend)).Represents (u.erase op) := by
  intro op'
  rw [coin_put, OrdMap.getElem?_erase', UtxoEntry.spend_spent, if_pos rfl]
  split
  · rfl
  · exact h op'

/-- Inputs that are unspent are found, and reported as the ledger reports them. -/
theorem spendInputs_of_spendAll {tis : List TxIn} {u' : Utxos} {coins : List SpentTxOut}
    (hrep : v.Represents u) (h : Ledger.spendAll u tis = some (u', coins)) :
    ∃ w, v.spendInputs tis = .ok (w, coins) ∧ w.Represents u' := by
  induction tis generalizing v u coins with
  | nil =>
    cases h
    exact ⟨v, rfl, hrep⟩
  | cons ti tis ih =>
    obtain ⟨c, coins', hc, hrest, rfl⟩ := Ledger.spendAll_cons h
    obtain ⟨e, he, -, rfl⟩ := coin_eq_some.1 ((hrep _).trans hc)
    obtain ⟨w, hspend, hw⟩ := ih (hrep.spend ti.previousOutPoint e) hrest
    refine ⟨w, ?_, hw⟩
    rw [spendInputs, he]
    dsimp only
    rw [hspend]
    rfl

/-- Outputs are added as the ledger adds them. -/
theorem Represents.addTxOutsFrom (tx : MsgTx) (height : Int32) (os : List TxOut) (i : Nat)
    (h : v.Represents u) :
    (addTxOutsFrom tx height v i os).Represents (Ledger.insertAll tx height u i os) := by
  induction os generalizing v u i with
  | nil => exact h
  | cons o os ih =>
    refine ih (i + 1) ?_
    rw [addTxOut]
    split
    · exact h
    intro op
    rw [coin_put, OrdMap.getElem?_insert']
    split
    · rfl
    · exact h op

/-- A transaction is connected as the ledger applies it. -/
theorem connectTransaction_of_applyTx {tx : MsgTx} {u' : Utxos} {stxos : List SpentTxOut}
    {height : Int32} (hrep : v.Represents u)
    (h : Ledger.applyTx height u tx = some (u', stxos)) :
    ∃ w, v.connectTransaction tx height = .ok (w, stxos) ∧ w.Represents u' := by
  obtain ⟨u₁, hspend, hcreate⟩ := Ledger.applyTx_eq_some h
  rw [← Ledger.insertAll_of_createAll hcreate, connectTransaction]
  cases hcb : isCoinBaseTx tx with
  | true =>
    rw [hcb] at hspend
    cases hspend
    exact ⟨v.addTxOuts tx height, rfl, hrep.addTxOutsFrom tx height tx.txOut 0⟩
  | false =>
    rw [hcb] at hspend
    obtain ⟨w, hw, hrep₁⟩ := spendInputs_of_spendAll hrep hspend
    exact ⟨w.addTxOuts tx height, by rw [hw]; rfl, hrep₁.addTxOutsFrom tx height tx.txOut 0⟩

/-- Transactions are connected to a view as the ledger applies them to its set. -/
theorem connectAll_of_applyTxs {txs : List MsgTx} {u' : Utxos} {stxos : List SpentTxOut}
    {height : Int32} (hrep : v.Represents u)
    (h : Ledger.applyTxs height u txs = some (u', stxos)) :
    ∃ w, connectAll height v txs = .ok (w, stxos) ∧ w.Represents u' := by
  induction txs generalizing v u stxos with
  | nil =>
    cases h
    exact ⟨v, rfl, hrep⟩
  | cons tx txs ih =>
    obtain ⟨u₂, s₁, s₂, htx, hrest, rfl⟩ := Ledger.applyTxs_cons h
    obtain ⟨w₁, hconn, hrep₁⟩ := connectTransaction_of_applyTx hrep htx
    obtain ⟨w, hconns, hw⟩ := ih hrep₁ hrest
    exact ⟨w, connectAll_cons hconn hconns, hw⟩

end UtxoViewpoint

/-! ## A small block -/

namespace SmallBlock

/-- An output of an earlier block. -/
def origin : OutPoint := ⟨Hash.zero, 0⟩

def reward : MsgTx where
  version := 1
  txIn := [{ previousOutPoint := ⟨Hash.zero, OutPoint.maxIndex⟩, signatureScript := [1, 5] }]
  txOut := [⟨50, [0x51]⟩]

/-- A transaction that spends the output. -/
def spending : MsgTx where
  version := 1
  txIn := [{ previousOutPoint := origin }]
  txOut := [⟨50, [0x51]⟩]

/-- A transaction that spends the output of that one. -/
def chained : MsgTx where
  version := 1
  txIn := [{ previousOutPoint := spending.outPoint 0 }]
  txOut := [⟨50, [0x51]⟩]

def block5 : Block where
  header := ⟨1, Hash.zero, Hash.zero, 0, 0, 0⟩
  transactions := [reward, spending, chained]
  height := 5

end SmallBlock

end Obtcd
