import Obtcd.ExpiryIndex.Invariant

/-!
# Block operations follow the ledger

The lemmas of `Invariant.lean` are about single outputs.  Here they are carried through the loops of
`ConnectBlock` and `DisconnectBlock`, by inductions that follow the recursion of the ledger: if the
ledger can apply a transaction, connecting it takes a representation of the set before it to a
representation of the set after it, and disconnecting it goes back.

The order of undoing is what needs care.  Outputs are removed last to first, which mirrors the order
of creation; inputs are restored first to last, which does not mirror the order of spending, and is
right because an input list that the ledger accepts never names an outpoint twice
(`spendAll_insert`).
-/

namespace Obtcd

open Ledger List

namespace ExpiryIndex

/-- The error of an output whose amount is negative. -/
def NegativeAmount (e : GoError) : Prop :=
  ∃ (op : OutPoint) (amount : Int64), amount < 0 ∧
    e = .other ("failed to connect txout " ++ op.string ++ ": " ++
      ("negative REAP candidate amount: " ++ toString amount.toInt))

namespace Index

open ExpiryParams OrdMap

variable {idx : Index}

/-! ## One input, one output -/

variable {w : Working} {u : Utxos}

variable (h : idx.expiryParams.Rep u w)

include h in
theorem connectSpend_rep {op : OutPoint} {coin : SpentTxOut} (hop : u[op]? = some coin) :
    ∃ w', connectSpend w op = .ok w' ∧ idx.expiryParams.Rep (u.erase op) w' := by
  by_cases hc : idx.expiryParams.Covers coin
  · obtain ⟨hdis, hrep⟩ := h.buckets.disconnect hop hc
    have hget := h.buckets.outpoint2Expiry.get hop hc
    refine ⟨(w.1.remove (idx.expiryParams.entryOf op coin), _), ?_, hrep, ?_⟩
    · rw [connectSpend, hdis, hget]
      dsimp only
      rw [expiryKeyOrZero, decodeExpiryKey_encode]
      rfl
    · exact (h.accumulator.perm (entries_of_perm (toList_erase_perm hop) hc)).remove
  · have hskip : ∀ c, u[op]? = some c → ¬ idx.expiryParams.Covers c := by
      intro c hc'
      rw [hop, Option.some_inj] at hc'
      rwa [← hc']
    obtain ⟨hdis, hrep⟩ := h.buckets.disconnect_skip hskip
    refine ⟨w, ?_, hrep, h.accumulator.perm (entries_of_perm_skip (toList_erase_perm hop) hc)⟩
    rw [connectSpend, hdis, h.buckets.get_none hskip]
    rfl

variable {height : Int32}

/-- Whether a created output is covered depends on the height of the block only. -/
theorem indexes_eq (tx : MsgTx) {o : TxOut} (hspend : Txscript.isUnspendable o.pkScript = false) :
    idx.indexes height o = idx.shouldIndexCreateHeight (coinOf tx height o).height := by
  simp [ExpiryParams.indexes, hspend, coinOf]

variable {tx : MsgTx} {i : Nat}

include h in
theorem connectCreate_rep {o : TxOut} (hspend : Txscript.isUnspendable o.pkScript = false)
    (hnew : u[tx.outPoint i]? = none) : (∃ w', idx.connectCreate height tx w (o, i) = .ok w' ∧
        idx.expiryParams.Rep (u.insert (tx.outPoint i) (coinOf tx height o)) w') ∨
      ∃ e, idx.connectCreate height tx w (o, i) = .error e ∧ NegativeAmount e := by
  by_cases hc : idx.expiryParams.Covers (coinOf tx height o)
  · have hidx : idx.indexes height o = true := (indexes_eq tx hspend).trans hc
    rcases Int64.lt_or_le o.value 0 with hneg | hamt
    · right
      refine ⟨_, ?_, tx.outPoint i, o.value, hneg, rfl⟩
      have hshould : idx.shouldIndexCreateHeight height = true := hc
      rw [connectCreate, hidx]
      simp only [Bool.not_true, Bool.false_eq_true, if_false]
      rw [connectTxOut, hshould, putTxOutMapping, encodeReapStrictCompositeKey, if_pos hneg]
      rfl
    · left
      obtain ⟨hcon, hrep⟩ := h.buckets.connect hnew hc hamt
      refine ⟨(w.1.add (idx.expiryParams.entryOf (tx.outPoint i) (coinOf tx height o)), _), ?_, hrep, ?_⟩
      · rw [connectCreate, hidx]
        simp only [Bool.not_true, Bool.false_eq_true, if_false]
        rw [show idx.connectTxOut w.2 (tx.outPoint i) height o.value = _ from hcon]
        rfl
      · exact (h.accumulator.add _).perm (entries_of_perm (toList_insert_perm _ hnew) hc).symm
  · left
    have hidx : idx.indexes height o = false := by
      rw [indexes_eq tx hspend]
      simpa [ExpiryParams.Covers] using hc
    refine ⟨w, ?_, h.buckets.connect_skip hnew hc,
      h.accumulator.perm (entries_of_perm_skip (toList_insert_perm _ hnew) hc).symm⟩
    rw [connectCreate, hidx]
    rfl

/-- Taking a created output out again. -/
theorem disconnectCreate_rep {o : TxOut} (hspend : Txscript.isUnspendable o.pkScript = false)
    (hnew : u[tx.outPoint i]? = none)
    (h : idx.expiryParams.Rep (u.insert (tx.outPoint i) (coinOf tx height o)) w) :
    ∃ w', idx.disconnectCreate height tx w (o, i) = .ok w' ∧ idx.expiryParams.Rep u w' := by
  have hop : (u.insert (tx.outPoint i) (coinOf tx height o))[tx.outPoint i]? =
      some (coinOf tx height o) := by simp
  by_cases hc : idx.expiryParams.Covers (coinOf tx height o)
  · have hidx : idx.indexes height o = true := (indexes_eq tx hspend).trans hc
    obtain ⟨hdis, hrep⟩ := h.buckets.disconnect hop hc
    rw [erase_insert _ hnew] at hrep
    refine ⟨(w.1.remove (idx.expiryParams.entryOf (tx.outPoint i) (coinOf tx height o)), _), ?_, hrep, ?_⟩
    · rw [disconnectCreate, hidx]
      simp only [Bool.not_true, Bool.false_eq_true, if_false]
      rw [hdis]
      rfl
    · exact (h.accumulator.perm (entries_of_perm (toList_insert_perm _ hnew) hc)).remove
  · have hidx : idx.indexes height o = false := by
      rw [indexes_eq tx hspend]
      simpa [ExpiryParams.Covers] using hc
    have hskip : ∀ c, (u.insert (tx.outPoint i) (coinOf tx height o))[tx.outPoint i]? =
        some c → ¬ idx.expiryParams.Covers c := by
      intro c hc'
      rw [hop, Option.some_inj] at hc'
      rwa [← hc']
    have hrep := (h.buckets.disconnect_skip hskip).2
    rw [erase_insert _ hnew] at hrep
    refine ⟨w, ?_, hrep, h.accumulator.perm (entries_of_perm_skip (toList_insert_perm _ hnew) hc)⟩
    rw [disconnectCreate, hidx]
    rfl

variable {s : List SpentTxOut} {n : Nat}

include h in
/-- Putting a spent output back. -/
theorem disconnectSpend_rep {k : Nat} {ti : TxIn} {coin : SpentTxOut}
    (hnew : u[ti.previousOutPoint]? = none) (hstxo : s[n + i]? = some coin)
    (hamt : idx.expiryParams.Covers coin → 0 ≤ coin.amount) :
    ∃ w', idx.disconnectSpend s k n w (ti, i) = .ok w' ∧
      idx.expiryParams.Rep (u.insert ti.previousOutPoint coin) w' := by
  by_cases hc : idx.expiryParams.Covers coin
  · have hc' : idx.shouldIndexCreateHeight coin.height = true := hc
    obtain ⟨hcon, hrep⟩ := h.buckets.connect hnew hc (hamt hc)
    refine ⟨(w.1.add (idx.expiryParams.entryOf ti.previousOutPoint coin), _), ?_, hrep, ?_⟩
    · rw [disconnectSpend]
      rw [hstxo]
      simp only [hc', Bool.not_true, Bool.false_eq_true, if_false]
      rw [hcon]
      rfl
    · exact (h.accumulator.add _).perm (entries_of_perm (toList_insert_perm _ hnew) hc).symm
  · have hc' : idx.shouldIndexCreateHeight coin.height = false := by simpa [ExpiryParams.Covers] using hc
    refine ⟨w, ?_, h.buckets.connect_skip hnew hc,
      h.accumulator.perm (entries_of_perm_skip (toList_insert_perm _ hnew) hc).symm⟩
    rw [disconnectSpend]
    rw [hstxo]
    simp [hc']

/-! ## The inputs and outputs of a transaction -/

variable {u' : Utxos} {coins : List SpentTxOut}

include h in
theorem foldlM_connectSpend_rep {tis : List TxIn} (hspend : spendAll u tis = some (u', coins)) :
    ∃ w', (tis.map TxIn.previousOutPoint).foldlM connectSpend w = .ok w' ∧ idx.expiryParams.Rep u' w' := by
  induction tis generalizing u w coins with
  | nil =>
    obtain ⟨rfl, -⟩ : u = u' ∧ [] = coins := by simpa [spendAll] using hspend
    exact ⟨w, rfl, h⟩
  | cons ti tis ih =>
    obtain ⟨c, _, hc, hrest, -⟩ := spendAll_cons hspend
    obtain ⟨w₁, hw₁, hrep₁⟩ := connectSpend_rep h hc
    obtain ⟨w₂, hw₂, hrep₂⟩ := ih hrep₁ hrest
    refine ⟨w₂, ?_, hrep₂⟩
    rw [map_cons, foldlM_cons, hw₁, ok_bind, hw₂]

include h in
theorem connectCreates_rep {os : List TxOut} (hcreate : createAll tx height u i os = some u') :
    (∃ w', (os.zipIdx i).foldlM (idx.connectCreate height tx) w = .ok w' ∧ idx.expiryParams.Rep u' w') ∨
      ∃ e, (os.zipIdx i).foldlM (idx.connectCreate height tx) w = .error e ∧ NegativeAmount e := by
  induction os generalizing u w i with
  | nil =>
    obtain rfl : u = u' := by simpa [createAll] using hcreate
    exact .inl ⟨w, rfl, h⟩
  | cons o os ih =>
    rw [createAll] at hcreate
    rw [zipIdx_cons, foldlM_cons]
    split at hcreate
    · -- an unspendable output is skipped on both sides
      rename_i hun
      have hskip : idx.connectCreate height tx w (o, i) = .ok w := by
        simp [connectCreate, ExpiryParams.indexes, hun]
      rw [hskip, ok_bind]
      exact ih h hcreate
    rename_i hun
    split at hcreate
    · simp at hcreate
    rename_i hnew
    rcases connectCreate_rep h (by simpa using hun) (by simpa using hnew) with
      ⟨w₁, hw₁, hrep₁⟩ | ⟨e, he, hneg⟩
    · rw [hw₁, ok_bind]
      exact ih hrep₁ hcreate
    · rw [he]
      exact .inr ⟨e, rfl, hneg⟩

theorem disconnectCreates_rep {os : List TxOut}
    (hcreate : createAll tx height u i os = some u') (h : idx.expiryParams.Rep u' w) :
    ∃ w', (os.zipIdx i).reverse.foldlM (idx.disconnectCreate height tx) w = .ok w' ∧
      idx.expiryParams.Rep u w' := by
  induction os generalizing u i with
  | nil =>
    obtain rfl : u = u' := by simpa [createAll] using hcreate
    exact ⟨w, rfl, h⟩
  | cons o os ih =>
    rw [createAll] at hcreate
    rw [zipIdx_cons, reverse_cons, foldlM_append]
    split at hcreate
    · rename_i hun
      obtain ⟨w₁, hw₁, hrep₁⟩ := ih hcreate
      refine ⟨w₁, ?_, hrep₁⟩
      rw [hw₁, ok_bind, foldlM_cons]
      simp [disconnectCreate, ExpiryParams.indexes, hun]
    rename_i hun
    split at hcreate
    · simp at hcreate
    rename_i hnew
    -- the outputs after this one go first
    obtain ⟨w₁, hw₁, hrep₁⟩ := ih hcreate
    obtain ⟨w₂, hw₂, hrep₂⟩ :=
      disconnectCreate_rep (by simpa using hun) (by simpa using hnew) hrep₁
    refine ⟨w₂, ?_, hrep₂⟩
    rw [hw₁, ok_bind, foldlM_cons, hw₂]
    rfl

variable (hamt : idx.expiryParams.AmountsNonneg u)

include hamt in
theorem disconnectSpends_rep {tis : List TxIn} {k : Nat}
    (hspend : spendAll u tis = some (u', coins)) (h : idx.expiryParams.Rep u' w)
    (hstxos : ∀ j coin, coins[j]? = some coin → s[n + (i + j)]? = some coin) :
    ∃ w', (tis.zipIdx i).foldlM (idx.disconnectSpend s k n) w = .ok w' ∧ idx.expiryParams.Rep u w' := by
  induction tis generalizing u' w coins i with
  | nil =>
    obtain ⟨rfl, -⟩ : u = u' ∧ [] = coins := by simpa [spendAll] using hspend
    exact ⟨w, rfl, h⟩
  | cons ti tis ih =>
    obtain ⟨c, coins', hc, hrest, rfl⟩ := spendAll_cons hspend
    -- spending the rest leaves this outpoint free, with or without it
    obtain ⟨hfree, hcomm⟩ := spendAll_insert c
      (show (u.erase ti.previousOutPoint)[ti.previousOutPoint]? = none by simp) hrest
    rw [insert_erase hc] at hcomm
    obtain ⟨w₁, hw₁, hrep₁⟩ := disconnectSpend_rep (k := k) (i := i) h hfree (hstxos 0 c rfl)
      (hamt _ c hc)
    obtain ⟨w₂, hw₂, hrep₂⟩ := ih hcomm hrep₁ (i := i + 1) (by
      intro j coin hj
      rw [show i + 1 + j = i + (j + 1) by omega]
      exact hstxos (j + 1) coin hj)
    refine ⟨w₂, ?_, hrep₂⟩
    rw [zipIdx_cons, foldlM_cons, hw₁, ok_bind, hw₂]

/-! ## The transactions of a block -/

include h in
theorem connectTx_rep {stxos : List SpentTxOut} (happly : applyTx height u tx = some (u', stxos)) :
    (∃ w', idx.connectTx height w tx = .ok w' ∧ idx.expiryParams.Rep u' w') ∨
      ∃ e, idx.connectTx height w tx = .error e ∧ NegativeAmount e := by
  obtain ⟨u₁, hspend, hcreate⟩ := applyTx_eq_some happly
  obtain ⟨w₁, hw₁, hrep₁⟩ : ∃ w₁, connectSpends w tx = .ok w₁ ∧ idx.expiryParams.Rep u₁ w₁ := by
    rw [connectSpends]
    split_ifs at hspend with hcb
    · obtain ⟨rfl, -⟩ : u = u₁ ∧ [] = stxos := by simpa using hspend
      exact ⟨w, if_pos hcb, h⟩
    · rw [if_neg hcb]
      exact foldlM_connectSpend_rep h hspend
  rw [connectTx, hw₁, ok_bind]
  exact connectCreates_rep hrep₁ hcreate

include h in
theorem connectTxs_rep {txs : List MsgTx} {stxos : List SpentTxOut}
    (happly : applyTxs height u txs = some (u', stxos)) :
    (∃ w', txs.foldlM (idx.connectTx height) w = .ok w' ∧ idx.expiryParams.Rep u' w') ∨
      ∃ e, txs.foldlM (idx.connectTx height) w = .error e ∧ NegativeAmount e := by
  induction txs generalizing u w stxos with
  | nil =>
    obtain ⟨rfl, -⟩ : u = u' ∧ [] = stxos := by simpa [applyTxs] using happly
    exact .inl ⟨w, rfl, h⟩
  | cons tx txs ih =>
    obtain ⟨u₁, s₁, s₂, htx, hrest, -⟩ := applyTxs_cons happly
    rw [foldlM_cons]
    rcases connectTx_rep h htx with ⟨w₁, hw₁, hrep₁⟩ | ⟨e, he, hneg⟩
    · rw [hw₁, ok_bind]
      exact ih hrep₁ hrest
    · rw [he]
      exact .inr ⟨e, rfl, hneg⟩

include hamt in
/-- Undoing one transaction other than the coinbase. -/
theorem disconnectTx_rep {k : Nat} (hcb : isCoinBaseTx tx = false)
    (happly : applyTx height u tx = some (u', coins)) (h : idx.expiryParams.Rep u' w)
    (hstxos : ∀ j coin, coins[j]? = some coin → s[n + j]? = some coin) :
    ∃ w', idx.disconnectTx height s w ((tx, n), k + 1) = .ok w' ∧ idx.expiryParams.Rep u w' := by
  obtain ⟨u₁, hspend, hcreate⟩ := applyTx_eq_some happly
  rw [hcb] at hspend
  obtain ⟨w₁, hw₁, hrep₁⟩ := disconnectCreates_rep hcreate h
  obtain ⟨w₂, hw₂, hrep₂⟩ := disconnectSpends_rep (k := k + 1) (i := 0) (n := n) hamt hspend
    hrep₁ (by simpa using hstxos)
  refine ⟨w₂, ?_, hrep₂⟩
  rwa [disconnectTx, hw₁, ok_bind, if_pos (Nat.succ_ne_zero k)]

/-- Undoing the coinbase. -/
theorem disconnectTx_coinbase_rep (hcb : isCoinBaseTx tx = true)
    (happly : applyTx height u tx = some (u', coins)) (h : idx.expiryParams.Rep u' w) :
    ∃ w', idx.disconnectTx height s w ((tx, n), 0) = .ok w' ∧ idx.expiryParams.Rep u w' := by
  obtain ⟨u₁, hspend, hcreate⟩ := applyTx_eq_some happly
  rw [hcb] at hspend
  obtain ⟨rfl, -⟩ : u = u₁ ∧ [] = coins := by simpa using hspend
  obtain ⟨w₁, hw₁, hrep₁⟩ := disconnectCreates_rep hcreate h
  refine ⟨w₁, ?_, hrep₁⟩
  rw [disconnectTx, hw₁, ok_bind]
  rfl

/-! ## Amounts

The undo operations enter outputs again, and entering an output checks its amount.  What is entered
was in the index before, so its amount is known not to be negative: it was either there before the
block, or created by the block, which was connected. -/

/-- No output that these transactions add to the index has a negative amount. -/
def CreatesNonneg (p : ExpiryParams) (height : Int32) (txs : List MsgTx) : Prop :=
  ∀ tx ∈ txs, ∀ o ∈ tx.txOut, p.indexes height o = true → 0 ≤ o.value

theorem createsOf_of_nonneg (hos : ∀ o ∈ tx.txOut, idx.indexes height o = true → 0 ≤ o.value) :
    Ledger.CreatesOf (fun coin => idx.expiryParams.Covers coin → 0 ≤ coin.amount) height tx :=
  fun o ho hun hc => hos o ho ((indexes_eq tx hun).trans hc)

include hamt in
/-- Undoing the transactions after the coinbase, last to first. -/
theorem disconnectTxs_rep {txs : List MsgTx} {k : Nat}
    (hos : CreatesNonneg idx.expiryParams height txs) (hcb : ∀ tx ∈ txs, isCoinBaseTx tx = false)
    (happly : applyTxs height u txs = some (u', coins)) (h : idx.expiryParams.Rep u' w)
    (hstxos : ∀ j coin, coins[j]? = some coin → s[n + j]? = some coin) :
    ∃ w', (((txs.zip (stxoOffsetsFrom n txs)).zipIdx (k + 1)).reverse).foldlM
      (idx.disconnectTx height s) w = .ok w' ∧ idx.expiryParams.Rep u w' := by
  induction txs generalizing u coins k n with
  | nil =>
    obtain ⟨rfl, -⟩ : u = u' ∧ [] = coins := by simpa [applyTxs] using happly
    exact ⟨w, rfl, h⟩
  | cons tx txs ih =>
    obtain ⟨u₁, s₁, s₂, htx, hrest, rfl⟩ := applyTxs_cons happly
    have hlen : s₁.length = tx.txIn.length := by
      obtain ⟨u₂, hspend, -⟩ := applyTx_eq_some htx
      rw [hcb tx mem_cons_self] at hspend
      exact length_of_spendAll hspend
    have hamt₁ := hamt.applyTx (createsOf_of_nonneg (hos tx mem_cons_self)) htx
    -- the transactions after this one go first, with the offset moved past its inputs
    obtain ⟨w₁, hw₁, hrep₁⟩ := ih (k := k + 1) (n := n + tx.txIn.length) hamt₁
      (fun tx' h' => hos tx' (mem_cons_of_mem _ h'))
      (fun tx' h' => hcb tx' (mem_cons_of_mem _ h')) hrest (by
        intro j coin hj
        rw [← hlen, Nat.add_assoc]
        exact hstxos _ _ (by rwa [List.getElem?_append_right (by omega), Nat.add_sub_cancel_left]))
    obtain ⟨w₂, hw₂, hrep₂⟩ := disconnectTx_rep (k := k) (n := n) (s := s) hamt
      (hcb tx mem_cons_self) htx hrep₁ (by
        intro j coin hj
        refine hstxos _ _ ?_
        rwa [List.getElem?_append_left (List.getElem?_eq_some_iff.1 hj).1])
    refine ⟨w₂, ?_, hrep₂⟩
    rw [stxoOffsetsFrom, zip_cons_cons, zipIdx_cons, reverse_cons,
      foldlM_append, hw₁, ok_bind, foldlM_cons, hw₂]
    rfl

include hamt in
/-- Undoing a whole block, last transaction first, coinbase last. -/
theorem disconnectTransactions_rep {b : Block}
    (hos : CreatesNonneg idx.expiryParams b.height b.transactions)
    (happly : applyBlock u b = some (u', s)) (h : idx.expiryParams.Rep u' w) :
    ∃ w', ((b.transactions.zip (stxoOffsets b.transactions)).zipIdx.reverse).foldlM
      (idx.disconnectTx b.height s) w = .ok w' ∧ idx.expiryParams.Rep u w' := by
  obtain ⟨tx, txs, htxs, hfirst, hrest, happly⟩ := applyBlock_eq_some happly
  rw [htxs] at hos ⊢
  obtain ⟨u₁, s₁, s₂, htx, happly₁, rfl⟩ := applyTxs_cons happly
  obtain ⟨u₂, hspend, -⟩ := applyTx_eq_some htx
  rw [hfirst] at hspend
  obtain ⟨-, rfl⟩ : u = u₂ ∧ [] = s₁ := by simpa using hspend
  have hamt₁ := hamt.applyTx (createsOf_of_nonneg (hos tx mem_cons_self)) htx
  obtain ⟨w₁, hw₁, hrep₁⟩ := disconnectTxs_rep (k := 0) (n := 0) (s := [] ++ s₂) hamt₁
    (fun tx' h' => hos tx' (mem_cons_of_mem _ h')) hrest happly₁ h (by simp)
  obtain ⟨w₂, hw₂, hrep₂⟩ :=
    disconnectTx_coinbase_rep (n := 0) (s := [] ++ s₂) hfirst htx hrep₁
  refine ⟨w₂, ?_, hrep₂⟩
  rw [stxoOffsets, zip_cons_cons, zipIdx_cons, reverse_cons, foldlM_append, hw₁,
    ok_bind, foldlM_cons, hw₂]
  rfl

end Index

end ExpiryIndex

end Obtcd
