import Obtcd.Mining.Commitments
import Obtcd.Mining.ReapPlan

/-!
# The room for the REAP transaction

`NewBlockTemplate` plans the REAP transaction first and appends it last.  In between, the selection
loop works with a limit that is lower by the weight of the planned transaction, so that there is room
for it in the end.

The loop takes a transaction only if the running sum stays below this limit.  There is one addition it
does not check: the weight of a witness commitment, which is added when the first transaction with a
witness is looked at, and stays when that transaction is then skipped.  If the sum is below the limit
before and not after it, no further transaction is taken and the sum stays where it is, in the
room that was kept for the REAP transaction.  `reap_fits_iff` says that this is the only way to lose
that room.
-/

namespace Obtcd.Mining

/-! ## The rounds of the loop -/

section Rounds

variable (g : Generator) (coinbaseTx : MsgTx) (segwitActive : Bool) (limit : UInt32)

/-- If the round is the one that notes a witness, what is added for the commitment leaves the sum
below the limit. -/
def CommitmentFits (round : Selection × TxPrioItem) : Prop :=
  round.1.firstWitness round.2.tx segwitActive = true →
    round.1.blockWeight + UInt32.ofNat (witnessCommitmentWeight coinbaseTx) < limit

instance (round : Selection × TxPrioItem) :
    Decidable (CommitmentFits coinbaseTx segwitActive limit round) :=
  inferInstanceAs (Decidable (_ → _))

variable {g coinbaseTx segwitActive limit} {s s' : Selection} {item : TxPrioItem}

/-- What a round does to the sum: after the witness has been noted, it is the same, or more by a
transaction that fits. -/
theorem blockWeight_of_considers (h : Considers g coinbaseTx segwitActive limit s item s') :
    s'.witnessIncluded = (s.noteWitness coinbaseTx item.tx segwitActive).witnessIncluded ∧
      (s'.blockWeight = (s.noteWitness coinbaseTx item.tx segwitActive).blockWeight ∨
        (s.noteWitness coinbaseTx item.tx segwitActive).overweight limit item.tx = false ∧
          s'.blockWeight = (s.noteWitness coinbaseTx item.tx segwitActive).blockWeight +
            txWeight item.tx) := by
  cases h with
  | pass => exact ⟨rfl, .inl rfl⟩
  | take sortedByFee sigOpCost hsorted hwitness hadmitted =>
    exact ⟨rfl, .inr ⟨hadmitted.weight, rfl⟩⟩

/-- After the witness has been noted, a round keeps the sum on its side of the limit: what is taken
fits. -/
theorem lt_limit_of_considers (h : Considers g coinbaseTx segwitActive limit s item s') :
    s'.blockWeight < limit ↔
      (s.noteWitness coinbaseTx item.tx segwitActive).blockWeight < limit := by
  obtain ⟨-, heq | ⟨hfits, heq⟩⟩ := blockWeight_of_considers h
  · rw [heq]
  · rw [Selection.overweight, Bool.or_eq_false_iff, decide_eq_false_iff_not, decide_eq_false_iff_not,
      ge_iff_le, UInt32.not_le] at hfits
    rw [heq]
    exact iff_of_true hfits.2 (UInt32.lt_of_le_of_lt (UInt32.not_lt.1 hfits.1) hfits.2)

/-- Once a witness has been noted, no round changes the side of the limit. -/
theorem lt_limit_select_of_witness (hw : s.witnessIncluded = true) (n : Nat) :
    (select g coinbaseTx segwitActive limit n s).blockWeight < limit ↔ s.blockWeight < limit := by
  refine (select_induction (P := fun s' => s'.witnessIncluded = true ∧
    (s'.blockWeight < limit ↔ s.blockWeight < limit)) ?_ ⟨hw, Iff.rfl⟩).2
  rintro t t' item rest - ⟨htw, ht⟩ hround
  have hnote : ({ t with queue := rest } : Selection).noteWitness coinbaseTx item.tx segwitActive =
      { t with queue := rest } := by
    simp [Selection.noteWitness, Selection.firstWitness, htw]
  have hlt := lt_limit_of_considers hround
  have hincluded := (blockWeight_of_considers hround).1
  rw [hnote] at hlt hincluded
  exact ⟨hincluded.trans htw, hlt.trans ht⟩

/-- The loop ends below the limit exactly when the commitment fits in the round that adds it. -/
theorem lt_limit_select_iff (h : s.blockWeight < limit) (n : Nat) :
    (select g coinbaseTx segwitActive limit n s).blockWeight < limit ↔
      ∀ round ∈ roundsFrom g coinbaseTx segwitActive limit n s,
        CommitmentFits coinbaseTx segwitActive limit round := by
  induction n generalizing s with
  | zero => simpa [select, roundsFrom] using h
  | succ n ih =>
    rw [select, roundsFrom]
    cases hpop : g.heap.pop s.less s.queue with
    | none => simpa using h
    | some popped =>
      obtain ⟨item, rest⟩ := popped
      dsimp only
      rw [List.forall_mem_cons]
      have hround := considers g coinbaseTx segwitActive limit { s with queue := rest } item
      have hlt := lt_limit_of_considers hround
      have hincluded := (blockWeight_of_considers hround).1
      generalize consider g coinbaseTx segwitActive limit { s with queue := rest } item = s' at *
      cases hfirst : ({ s with queue := rest } : Selection).firstWitness item.tx segwitActive with
      | false =>
        have hnote : ({ s with queue := rest } : Selection).noteWitness coinbaseTx item.tx
            segwitActive = { s with queue := rest } := by
          simp [Selection.noteWitness, hfirst]
        rw [hnote] at hlt
        have hfits : CommitmentFits coinbaseTx segwitActive limit ({ s with queue := rest }, item) := by
          intro htrue
          rw [hfirst] at htrue
          cases htrue
        rw [ih (hlt.2 h), and_iff_right hfits]
      | true =>
        have hnote : (({ s with queue := rest } : Selection).noteWitness coinbaseTx item.tx
            segwitActive).blockWeight =
              s.blockWeight + UInt32.ofNat (witnessCommitmentWeight coinbaseTx) := by
          rw [Selection.noteWitness, hfirst]
          rfl
        have hfits : CommitmentFits coinbaseTx segwitActive limit ({ s with queue := rest }, item) ↔
            s'.blockWeight < limit := by
          rw [hlt, hnote]
          exact ⟨fun h => h hfirst, fun h _ => h⟩
        have hw : s'.witnessIncluded = true := by
          rw [hincluded, Selection.noteWitness, hfirst]
          simp
        rw [hfits]
        by_cases hbelow : s'.blockWeight < limit
        · rw [ih hbelow, and_iff_right hbelow]
        · rw [lt_limit_select_of_witness hw]
          exact iff_of_false hbelow fun hboth => hbelow hboth.1

end Rounds

/-! ## The reserve -/

theorem getTransactionWeight_pos (tx : MsgTx) : 0 < getTransactionWeight tx := by
  have hbase : 8 ≤ tx.baseSize := by
    rw [MsgTx.baseSize]
    omega
  rw [getTransactionWeight, witnessScaleFactor]
  omega

/-- The check for overflow makes the comparison one of numbers. -/
theorem overweight_eq_false (s : Selection) (limit : UInt32) (tx : MsgTx) :
    s.overweight limit tx = false ↔ s.blockWeight.toNat + (txWeight tx).toNat < limit.toNat := by
  have hlimit := limit.toNat_lt
  have hs := s.blockWeight.toNat_lt
  have htx := (txWeight tx).toNat_lt
  rw [Selection.overweight, Bool.or_eq_false_iff, decide_eq_false_iff_not, decide_eq_false_iff_not,
    UInt32.lt_iff_toNat_lt, ge_iff_le, UInt32.le_iff_toNat_le, UInt32.toNat_add]
  omega

section Reserve

variable {policy : Policy} {tx : MsgTx} (h : getTransactionWeight tx < policy.blockMaxWeight.toNat)

include h

theorem toNat_txWeight : (txWeight tx).toNat = getTransactionWeight tx :=
  UInt32.toNat_ofNat_of_lt' (lt_trans h policy.blockMaxWeight.toNat_lt)

theorem toNat_normalTxWeightLimit : (normalTxWeightLimit policy (some (txWeight tx))).toNat =
    policy.blockMaxWeight.toNat - getTransactionWeight tx := by
  have hweight := toNat_txWeight h
  have hpos : txWeight tx > 0 :=
    UInt32.lt_iff_toNat_lt.2 (by rw [hweight]; exact getTransactionWeight_pos tx)
  have hlt : txWeight tx < policy.blockMaxWeight := UInt32.lt_iff_toNat_lt.2 (by rwa [hweight])
  rw [normalTxWeightLimit, if_pos (by simp [hpos, hlt]),
    UInt32.toNat_sub_of_le _ _ (UInt32.le_of_lt hlt), hweight]

/-- A sum is below the lowered limit exactly when the planned transaction fits on top of it. -/
theorem overweight_eq_false_iff (s : Selection) : s.overweight policy.blockMaxWeight tx = false ↔
    s.blockWeight < normalTxWeightLimit policy (some (txWeight tx)) := by
  rw [overweight_eq_false, UInt32.lt_iff_toNat_lt, toNat_normalTxWeightLimit h, toNat_txWeight h]
  omega

end Reserve

/-- **When the REAP transaction fits.**  Whatever is in the pool: if the planned transaction fits on top
of the header and the coinbase, then it fits on top of what the loop has selected exactly when, in
the round that notes the first witness, the weight of the commitment leaves the sum below the limit. -/
theorem reap_fits_iff (g : Generator) (coinbaseTx tx : MsgTx) (segwitActive : Bool)
    (h : getTransactionWeight tx + startWeight coinbaseTx < g.policy.blockMaxWeight.toNat) :
    (selectTransactions g coinbaseTx segwitActive
        (normalTxWeightLimit g.policy (some (txWeight tx)))).overweight
          g.policy.blockMaxWeight tx = false ↔
      ∀ round ∈ selectionRounds g coinbaseTx segwitActive
          (normalTxWeightLimit g.policy (some (txWeight tx))),
        CommitmentFits coinbaseTx segwitActive
          (normalTxWeightLimit g.policy (some (txWeight tx))) round := by
  have hplanned : getTransactionWeight tx < g.policy.blockMaxWeight.toNat := by omega
  have hcoinbase : startWeight coinbaseTx < g.policy.blockMaxWeight.toNat := by omega
  have hbase : (startSelection g coinbaseTx).blockWeight.toNat = startWeight coinbaseTx :=
    UInt32.toNat_ofNat_of_lt' (lt_trans hcoinbase g.policy.blockMaxWeight.toNat_lt)
  have hstart : (startSelection g coinbaseTx).blockWeight <
      normalTxWeightLimit g.policy (some (txWeight tx)) := by
    rw [UInt32.lt_iff_toNat_lt, hbase, toNat_normalTxWeightLimit hplanned]
    omega
  rw [overweight_eq_false_iff hplanned, selectTransactions]
  exact lt_limit_select_iff hstart _

namespace Regtest

/-- The node with twenty expired outputs and a transaction with a witness in its pool. -/
def expired (blockMaxWeight : UInt32) : Generator :=
  { segwit with
    policy := ⟨0, blockMaxWeight, 0, 0⟩
    fetchEntry := fun op =>
      if op = coin then some { amount := 1000, pkScript := [Txscript.op1], blockHeight := 5 }
      else Sample.crowdEntry 20 op
    best := { BlockNode.ofBlock BlockChain.Regtest.parent with height := 199 }
    reapIndex := some (Sample.idx.prefixSource (Sample.crowd 20).2) }

/-- The coinbase and the planned transaction of a node. -/
def planned (g : Generator) : Option (MsgTx × MsgTx) := do
  let coinbaseTx ← (g.newCoinbase none).toOption
  let (tx, _) ← g.plannedREAP
  some (coinbaseTx, tx)

theorem planned_eq_some {g : Generator} {coinbaseTx tx : MsgTx}
    (h : planned g = some (coinbaseTx, tx)) :
    g.newCoinbase none = .ok coinbaseTx ∧ ∃ fee, g.plannedREAP = some (tx, fee) := by
  rw [planned] at h
  obtain ⟨coinbaseTx', hcoinbase, h⟩ := Option.bind_eq_some_iff.1 h
  obtain ⟨⟨tx', fee⟩, hplanned, h⟩ := Option.bind_eq_some_iff.1 h
  cases h
  exact ⟨eq_ok_of_toOption hcoinbase, fee, hplanned⟩

end Regtest

open Regtest in
/-- The general statement at a limit that has room for everything. -/
theorem reap_fits_iff_expired : ∃ coinbaseTx tx fee, (expired 5000).newCoinbase none = .ok coinbaseTx ∧
    (expired 5000).plannedREAP = some (tx, fee) ∧
    getTransactionWeight tx + startWeight coinbaseTx < 5000 ∧
    (selectTransactions (expired 5000) coinbaseTx true
      (normalTxWeightLimit (expired 5000).policy (some (txWeight tx)))).overweight 5000 tx = false := by
  have hrun : (planned (expired 5000)).map (fun r =>
      (decide (getTransactionWeight r.2 + startWeight r.1 < 5000),
        (selectionRounds (expired 5000) r.1 true
          (normalTxWeightLimit (expired 5000).policy (some (txWeight r.2)))).all fun round =>
            CommitmentFits r.1 true
              (normalTxWeightLimit (expired 5000).policy (some (txWeight r.2))) round)) =
        some (true, true) := by
    decide +kernel
  obtain ⟨⟨coinbaseTx, tx⟩, hplanned, hrun⟩ := Option.map_eq_some_iff.1 hrun
  obtain ⟨hcoinbase, fee, hreap⟩ := planned_eq_some hplanned
  obtain ⟨hweight, hrounds⟩ := Prod.mk.inj hrun
  have hweight := of_decide_eq_true hweight
  have hmax : (expired 5000).policy.blockMaxWeight = 5000 := rfl
  have hfits := (reap_fits_iff (expired 5000) coinbaseTx tx true (by rw [hmax]; exact hweight)).2
    fun round hround => of_decide_eq_true (List.all_eq_true.1 hrounds round hround)
  rw [hmax] at hfits
  exact ⟨coinbaseTx, tx, fee, hcoinbase, hreap, hweight, hfits⟩

open Regtest in
/-- **A REAP transaction that is dropped.**  It weighs 3712, header and coinbase weigh 664, and the
limit is 4500.  The pool's only transaction is skipped, but the 224 of the witness commitment that it
would have needed are not given back. -/
theorem reap_dropped : ∃ coinbaseTx tx fee, (expired 4500).newCoinbase none = .ok coinbaseTx ∧
    (expired 4500).plannedREAP = some (tx, fee) ∧
    getTransactionWeight tx + startWeight coinbaseTx < 4500 ∧
    (selectTransactions (expired 4500) coinbaseTx true
      (normalTxWeightLimit (expired 4500).policy (some (txWeight tx)))).overweight 4500 tx = true ∧
    ((expired 4500).selection coinbaseTx true).blockTxns = [] := by
  have hrun : (planned (expired 4500)).map (fun r =>
      (decide (getTransactionWeight r.2 + startWeight r.1 < 4500),
        (selectTransactions (expired 4500) r.1 true
          (normalTxWeightLimit (expired 4500).policy (some (txWeight r.2)))).overweight 4500 r.2,
        ((expired 4500).selection r.1 true).blockTxns)) = some (true, true, []) := by
    decide +kernel
  obtain ⟨⟨coinbaseTx, tx⟩, hplanned, hrun⟩ := Option.map_eq_some_iff.1 hrun
  obtain ⟨hcoinbase, fee, hreap⟩ := planned_eq_some hplanned
  simp only [Prod.mk.injEq, decide_eq_true_eq] at hrun
  exact ⟨coinbaseTx, tx, fee, hcoinbase, hreap, hrun⟩

end Obtcd.Mining
