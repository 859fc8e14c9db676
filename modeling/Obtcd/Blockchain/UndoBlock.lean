import Obtcd.Blockchain.ViewLedger

/-!
# Taking a block back

`disconnectTransactions` goes through a block backwards: what a transaction created is marked spent,
what it spent is put back from the list that `connectTransactions` reported.  On a view that a block
has just been connected to, this leaves every outpoint as it was (`undo_inverts`).

The undo is followed step by step against the ledger that the block was applied to: if the view
represents the ledger after a transaction, then taking the transaction back makes it represent the
ledger before it.  What has to be known besides is that no height in the list is zero, which the undo
would take for a height that an old journal did not keep.  Views have no unspent output at height
zero, as the coinbase of the genesis block is never put into the UTXO set, and the outputs of a block
that is connected are at its own height (`height_ne_zero_of_applyTxs`).
-/

namespace Obtcd

open Ledger List

variable {height : Int32} {u u' : Utxos} {stxos : List SpentTxOut}

namespace Ledger

variable {txs : List MsgTx}

/-- As many outputs are spent as there are inputs. -/
theorem length_of_applyTxs (hcb : ∀ tx ∈ txs, isCoinBaseTx tx = false)
    (h : applyTxs height u txs = some (u', stxos)) :
    stxos.length = (txs.map fun tx => tx.txIn.length).sum := by
  induction txs generalizing u stxos with
  | nil =>
    cases h
    rfl
  | cons tx txs ih =>
    obtain ⟨hfirst, hcb⟩ := forall_mem_cons.1 hcb
    obtain ⟨u₁, s₁, s₂, htx, hrest, rfl⟩ := applyTxs_cons h
    obtain ⟨u₂, hspend, -⟩ := applyTx_eq_some htx
    rw [hfirst] at hspend
    rw [length_append, map_cons, sum_cons, length_of_spendAll hspend, ih hcb hrest]

/-- No output that is spent is at height zero, if none is there before or is created there. -/
theorem height_ne_zero_of_applyTxs (hu : ∀ (op : OutPoint) (coin : SpentTxOut),
      u[op]? = some coin → coin.height ≠ 0) (hheight : height ≠ 0)
    (h : applyTxs height u txs = some (u', stxos)) : ∀ coin ∈ stxos, coin.height ≠ 0 := by
  induction txs generalizing u stxos with
  | nil =>
    cases h
    exact fun coin hcoin => by cases hcoin
  | cons tx txs ih =>
    obtain ⟨u₂, s₁, s₂, htx, hrest, rfl⟩ := applyTxs_cons h
    obtain ⟨u₁, hspend, hcreate⟩ := applyTx_eq_some htx
    have hspent : (∀ coin ∈ s₁, coin.height ≠ 0) ∧
        ∀ (op : OutPoint) (coin : SpentTxOut), u₁[op]? = some coin → u[op]? = some coin := by
      cases hcb : isCoinBaseTx tx with
      | true =>
        rw [hcb] at hspend
        cases hspend
        exact ⟨(fun coin hcoin => by cases hcoin), fun op coin hop => hop⟩
      | false =>
        rw [hcb] at hspend
        refine ⟨fun coin hcoin => ?_, fun op coin => getElem?_of_spendAll hspend⟩
        obtain ⟨ti, -, hget⟩ := exists_of_mem_spendAll hspend hcoin
        exact hu _ coin hget
    have hu₂ : ∀ (op : OutPoint) (coin : SpentTxOut), u₂[op]? = some coin → coin.height ≠ 0 := by
      intro op coin hop
      by_cases hcreates : tx.CreatesFrom 0 tx.txOut op
      · obtain ⟨-, coin', hcoin', hdated⟩ := createAll_of_creates hcreate hcreates
        cases hop.symm.trans hcoin'
        rw [hdated]
        exact hheight
      · rw [createAll_of_not hcreate hcreates] at hop
        exact hu op coin (hspent.2 op coin hop)
    intro coin hcoin
    rcases mem_append.1 hcoin with hcoin | hcoin
    · exact hspent.1 coin hcoin
    · exact ih hu₂ hrest coin hcoin

end Ledger

namespace UtxoViewpoint

variable {db : Utxos} {v w : UtxoViewpoint} {tx : MsgTx} {more : List SpentTxOut}

/-! ## Step by step back -/

theorem coin_disconnectTxOutsFrom (tx : MsgTx) (isCoinBase : Bool) (height : Int32)
    (os : List TxOut) (v : UtxoViewpoint) (i : Nat) (op : OutPoint) :
    (tx.CreatesFrom i os op ∧ (disconnectTxOutsFrom tx isCoinBase height v i os).coin op = none) ∨
      ¬tx.CreatesFrom i os op ∧
        (disconnectTxOutsFrom tx isCoinBase height v i os).coin op = v.coin op := by
  induction os generalizing v i with
  | nil => exact .inr ⟨MsgTx.createsFrom_nil, rfl⟩
  | cons o os ih =>
    rw [disconnectTxOutsFrom, MsgTx.createsFrom_cons]
    rcases ih (v.disconnectTxOut (tx.outPoint i) o isCoinBase height) (i + 1) with
      ⟨hlater, hcoin⟩ | ⟨hlater, hcoin⟩
    · exact .inl ⟨.inr hlater, hcoin⟩
    · rw [hcoin, disconnectTxOut]
      by_cases hhere : tx.outPoint i = op ∧ Txscript.isUnspendable o.pkScript = false
      · refine .inl ⟨.inl hhere, ?_⟩
        rw [hhere.2, if_neg Bool.false_ne_true, coin_put, if_pos hhere.1, UtxoEntry.spend_spent,
          if_pos rfl]
      · refine .inr ⟨not_or.2 ⟨hhere, hlater⟩, ?_⟩
        split_ifs with hspendable
        · rfl
        · rw [coin_put, if_neg fun hop => hhere ⟨hop, by simpa using hspendable⟩]

/-- The outputs that a transaction created are gone. -/
theorem disconnectTxOuts_of_createAll (isCoinBase : Bool)
    (hcreate : createAll tx height u 0 tx.txOut = some u') (hrep : v.Represents u') :
    (disconnectTxOutsFrom tx isCoinBase height v 0 tx.txOut).Represents u := by
  intro op
  rcases coin_disconnectTxOutsFrom tx isCoinBase height tx.txOut v 0 op with
    ⟨hcreates, hcoin⟩ | ⟨hcreates, hcoin⟩
  · rw [hcoin, (createAll_of_creates hcreate hcreates).1]
  · rw [hcoin, hrep op, createAll_of_not hcreate hcreates]

/-- An output whose height is known is put back as it is. -/
theorem restoreInput_ok (db : Utxos) (hash : Hash) {s : Undo} {coin : SpentTxOut} (ti : TxIn)
    (hrep : s.view.Represents u) (hleft : s.left = coin :: more) (hdated : coin.height ≠ 0) :
    ∃ w done, restoreInput db hash s ti = .ok ⟨w, done, more⟩ ∧
      w.Represents (u.insert ti.previousOutPoint coin) := by
  rw [restoreInput, hleft]
  dsimp only
  rw [completeStxo, if_neg hdated]
  refine ⟨_, _, rfl, fun op => ?_⟩
  rw [coin_put, OrdMap.getElem?_insert', ← hrep op]
  split
  · rfl
  · rename_i hne
    split
    · rfl
    · rw [coin_put, if_neg hne]

/-- The inputs of a transaction are put back, last first. -/
theorem restoreInputs_of_spendAll {hash : Hash} {s : Undo} {tis : List TxIn}
    {coins : List SpentTxOut} (hspend : spendAll u tis = some (u', coins))
    (hrep : s.view.Represents u') (hleft : s.left = coins.reverse ++ more)
    (hdated : ∀ coin ∈ coins, coin.height ≠ 0) :
    ∃ w done, tis.reverse.foldlM (restoreInput db hash) s = .ok ⟨w, done, more⟩ ∧
      w.Represents u := by
  induction tis generalizing u coins more with
  | nil =>
    cases hspend
    obtain ⟨view, done, left⟩ := s
    obtain rfl : left = more := hleft
    exact ⟨view, done, rfl, hrep⟩
  | cons ti tis ih =>
    obtain ⟨coin, coins', hcoin, hrest, rfl⟩ := spendAll_cons hspend
    obtain ⟨hfirst, hdated⟩ := forall_mem_cons.1 hdated
    rw [reverse_cons, append_assoc, singleton_append] at hleft
    obtain ⟨w₁, done₁, hfold, hrep₁⟩ := ih hrest hleft hdated
    obtain ⟨w, done, hlast, hw⟩ := restoreInput_ok (s := ⟨w₁, done₁, coin :: more⟩) db hash ti
      hrep₁ rfl hfirst
    refine ⟨w, done, ?_, by rwa [insert_erase hcoin] at hw⟩
    rw [reverse_cons, foldlM_append, hfold, ok_bind, foldlM_cons]
    rw [hlast, ok_bind]
    rfl

/-- A transaction is taken back. -/
theorem disconnectTx_of_applyTx (db : Utxos) {s : Undo} {i : Nat} (hcb : isCoinBaseTx tx = (i == 0))
    (happly : applyTx height u tx = some (u', stxos)) (hrep : s.view.Represents u')
    (hleft : s.left = stxos.reverse ++ more) (hdated : ∀ coin ∈ stxos, coin.height ≠ 0) :
    ∃ w done, disconnectTx db height s (tx, i) = .ok ⟨w, done, more⟩ ∧ w.Represents u := by
  obtain ⟨u₁, hspend, hcreate⟩ := applyTx_eq_some happly
  have hrep₁ := disconnectTxOuts_of_createAll (i == 0) hcreate hrep
  rw [disconnectTx]
  rw [hcb] at hspend
  cases hfirst : (i == 0) with
  | true =>
    rw [hfirst] at hspend hrep₁
    cases hspend
    refine ⟨_, s.done, ?_, hrep₁⟩
    rw [if_pos rfl, hleft]
    rfl
  | false =>
    rw [hfirst] at hspend hrep₁
    exact restoreInputs_of_spendAll hspend hrep₁ hleft hdated

/-- A list of transactions is taken back, from the last to the first. -/
theorem disconnect_of_applyTxs (db : Utxos) {s : Undo} {txs : List MsgTx} {i : Nat}
    (hcb : ∀ p ∈ txs.zipIdx i, isCoinBaseTx p.1 = (p.2 == 0))
    (happly : applyTxs height u txs = some (u', stxos)) (hrep : s.view.Represents u')
    (hleft : s.left = stxos.reverse ++ more) (hdated : ∀ coin ∈ stxos, coin.height ≠ 0) :
    ∃ w done, (txs.zipIdx i).reverse.foldlM (disconnectTx db height) s = .ok ⟨w, done, more⟩ ∧
      w.Represents u := by
  induction txs generalizing u stxos more i with
  | nil =>
    cases happly
    obtain ⟨view, done, left⟩ := s
    obtain rfl : left = more := hleft
    exact ⟨view, done, rfl, hrep⟩
  | cons tx txs ih =>
    obtain ⟨u₁, s₁, s₂, htx, hrest, rfl⟩ := applyTxs_cons happly
    rw [zipIdx_cons] at hcb ⊢
    obtain ⟨hfirst, hcb⟩ := forall_mem_cons.1 hcb
    rw [reverse_append, append_assoc] at hleft
    obtain ⟨hdated₁, hdated₂⟩ := forall_mem_append.1 hdated
    obtain ⟨w₁, done₁, hfold, hrep₁⟩ := ih hcb hrest hleft hdated₂
    obtain ⟨w, done, hlast, hw⟩ := disconnectTx_of_applyTx (s := ⟨w₁, done₁, _⟩) db hfirst
      htx hrep₁ rfl hdated₁
    refine ⟨w, done, ?_, hw⟩
    rw [reverse_cons, foldlM_append, hfold, ok_bind, foldlM_cons, hlast, ok_bind]
    rfl

/-! ## The whole block -/

variable {block : Block}

/-- Connecting the block and taking it back works, and leaves every outpoint as it was. -/
def Undone (db : Utxos) (v : UtxoViewpoint) (block : Block) : Prop :=
  ∃ w stxos v' done, v.connectTransactions block = .ok (w, stxos) ∧
    w.disconnectTransactions db block stxos = .ok (v', done) ∧ ∀ op, v'.coin op = v.coin op

theorem coinbaseFirst_cases {txs : List MsgTx} (h : coinbaseFirst txs = true) :
    ∃ first rest, txs = first :: rest ∧ isCoinBaseTx first = true ∧
      ∀ tx ∈ rest, isCoinBaseTx tx = false := by
  cases txs with
  | nil => cases h
  | cons first rest => exact ⟨first, rest, rfl, by simpa [coinbaseFirst] using h⟩

/-- Which transaction is the coinbase can be told from where it stands. -/
theorem isCoinBaseTx_zipIdx {first : MsgTx} {rest : List MsgTx}
    (hfirst : isCoinBaseTx first = true) (hrest : ∀ tx ∈ rest, isCoinBaseTx tx = false) :
    ∀ p ∈ (first :: rest).zipIdx, isCoinBaseTx p.1 = (p.2 == 0) := by
  rintro ⟨tx, i⟩ hp
  have hget := mem_zipIdx_iff_getElem?.1 hp
  cases i with
  | zero =>
    cases hget
    exact hfirst
  | succ i => exact hrest tx (mem_of_getElem? hget)

/-- **Undo inverts apply.**  If the transactions of a block spend only what is unspent when their
turn comes and create only what is not, then connecting the block to a view and taking it back
leaves every outpoint as it was, created and spent inside the block or not.  The block starts with
its only coinbase, and neither it nor an unspent output of the view is at height zero. -/
theorem undo_inverts {r : Utxos × List SpentTxOut}
    (happly : Ledger.applyTxs block.height v.coins block.transactions = some r)
    (hcoinbase : Ledger.coinbaseFirst block.transactions = true) (hheight : block.height ≠ 0)
    (hloaded : ∀ op coin, v.coin op = some coin → coin.height ≠ 0) : Undone db v block := by
  obtain ⟨u', stxos⟩ := r
  obtain ⟨first, rest, htxs, hfirst, hrest⟩ := coinbaseFirst_cases hcoinbase
  obtain ⟨w, hconn, hrep⟩ := connectAll_of_applyTxs v.represents_coins happly
  have hdated : ∀ coin ∈ stxos, coin.height ≠ 0 := by
    refine height_ne_zero_of_applyTxs (fun op coin hcoin => ?_) hheight happly
    rw [← v.represents_coins] at hcoin
    exact hloaded op coin hcoin
  have hlength : stxos.length = (rest.map fun tx => tx.txIn.length).sum := by
    rw [htxs] at happly
    obtain ⟨u₁, s₁, s₂, htx, htail, rfl⟩ := applyTxs_cons happly
    obtain ⟨u₂, hspend, -⟩ := applyTx_eq_some htx
    rw [hfirst] at hspend
    cases hspend
    exact length_of_applyTxs hrest htail
  obtain ⟨v', done, hfold, hrep'⟩ := disconnect_of_applyTxs
    (s := ⟨w.setBestHash block.hash, [], stxos.reverse⟩) db
    (by rw [htxs]; exact isCoinBaseTx_zipIdx hfirst hrest) happly hrep
    (append_nil _).symm hdated
  refine ⟨w.setBestHash block.hash, stxos, v'.setBestHash block.header.prevBlock, done, ?_, ?_,
    fun op => (hrep' op).trans (v.represents_coins op).symm⟩
  · rw [connectTransactions, hconn]
    rfl
  · have hcount : countSpentOutputs block = .ok stxos.length := by
      rw [countSpentOutputs, Block.afterFirst, htxs, hlength]
      rfl
    rw [disconnectTransactions, hcount, ok_bind, if_neg (not_not_intro rfl), hfold]
    rfl

/-- A view with the output of a coinbase at height 3. -/
def view3 : UtxoViewpoint :=
  new.put SmallBlock.origin
    (some { amount := 50, pkScript := [0x51], blockHeight := 3, coinBase := true })

open SmallBlock in
/-- A block that spends that output, and one of its own, is taken back. -/
theorem undo_inverts_chained : Undone ∅ view3 block5 := by
  obtain ⟨r, hr⟩ := Option.isSome_iff_exists.1
    (show (Ledger.applyTxs block5.height view3.coins block5.transactions).isSome = true by
      decide +kernel)
  refine undo_inverts hr (by decide +kernel) (by decide) fun op coin hcoin => ?_
  rw [view3, coin_put] at hcoin
  split at hcoin
  · cases hcoin
    decide
  · cases hcoin

end UtxoViewpoint

end Obtcd
