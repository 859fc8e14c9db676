import Obtcd.Mining.Template

/-!
# What the selection of transactions does

Everything that one round of the loop of `NewBlockTemplate` can do is said once: `Considers` has a
case for an item that is passed over and one for an item that is taken, with the checks it went
through.  Invariants of the loop follow by `select_induction`; `Appends` is the same for the REAP
transaction that goes to the end of the block.

A round takes an item off the queue for good, but for the one that switches its order, so
`Selection.rounds` bounds their number.
-/

namespace Obtcd

open List

namespace Mining

open Txscript (Address)

section Round

variable {g : Generator} {coinbaseTx : MsgTx} {segwitActive : Bool} {limit : UInt32}

/-- The checks that a transaction has passed when it is taken on top of a selection. -/
structure Admitted (g : Generator) (segwitActive : Bool) (limit : UInt32) (s : Selection)
    (tx : MsgTx) (sigOpCost : Nat) : Prop where
  weight : s.overweight limit tx = false
  cost : getSigOpCost g.consensus.engine tx false s.view true segwitActive = .ok sigOpCost
  total : s.blockSigOpCost + sigOpCost ≤ maxBlockSigOpsCost

/-- What a round makes of an item. -/
inductive Considers (g : Generator) (coinbaseTx : MsgTx) (segwitActive : Bool) (limit : UInt32)
    (s : Selection) (item : TxPrioItem) : Selection → Prop
  | pass (queue : List TxPrioItem) (sortedByFee : Bool)
      (hqueue : queue = s.queue ∨
        queue = s.queue ++ [item] ∧ s.sortedByFee = false ∧ sortedByFee = true)
      (hsorted : s.sortedByFee = true → sortedByFee = true) :
      Considers g coinbaseTx segwitActive limit s item
        { s.noteWitness coinbaseTx item.tx segwitActive with
          queue := queue, sortedByFee := sortedByFee }
  | take (sortedByFee : Bool) (sigOpCost : Nat)
      (hsorted : s.sortedByFee = true → sortedByFee = true)
      (hwitness : item.tx.hasWitness = true → segwitActive = true)
      (hadmitted : Admitted g segwitActive limit
        (s.noteWitness coinbaseTx item.tx segwitActive) item.tx sigOpCost)
      (hinputs : ∃ fee, checkTransactionInputs item.tx g.nextBlockHeight s.view
        g.consensus.params = .ok fee) :
      Considers g coinbaseTx segwitActive limit s item
        (({ s.noteWitness coinbaseTx item.tx segwitActive with sortedByFee := sortedByFee }.take
          item.tx item.fee sigOpCost g.nextBlockHeight).release item.tx.txHash)

variable {s : Selection} {item : TxPrioItem}

theorem noteWitness_inactive (s : Selection) (coinbaseTx tx : MsgTx) :
    s.noteWitness coinbaseTx tx false = s := by
  simp [Selection.noteWitness, Selection.firstWitness]

theorem considers_tryTake {sortedByFee : Bool} {sigOpCost : Nat}
    (hsorted : s.sortedByFee = true → sortedByFee = true)
    (hwitness : item.tx.hasWitness = true → segwitActive = true)
    (hadmitted : Admitted g segwitActive limit (s.noteWitness coinbaseTx item.tx segwitActive)
      item.tx sigOpCost) :
    Considers g coinbaseTx segwitActive limit s item
      (tryTake g { s.noteWitness coinbaseTx item.tx segwitActive with sortedByFee := sortedByFee }
        item sigOpCost) := by
  rw [tryTake]
  dsimp only
  split
  · exact .pass s.queue sortedByFee (.inl rfl) hsorted
  rename_i fee hinputs
  split
  · exact .pass s.queue sortedByFee (.inl rfl) hsorted
  · exact .take sortedByFee sigOpCost hsorted hwitness hadmitted ⟨fee, hinputs⟩

theorem considers_prioritize {sigOpCost : Nat}
    (hwitness : item.tx.hasWitness = true → segwitActive = true)
    (hadmitted : Admitted g segwitActive limit (s.noteWitness coinbaseTx item.tx segwitActive)
      item.tx sigOpCost) :
    Considers g coinbaseTx segwitActive limit s item
      (prioritize g (s.noteWitness coinbaseTx item.tx segwitActive) item sigOpCost) := by
  rw [prioritize]
  split
  · exact .pass s.queue s.sortedByFee (.inl rfl) id
  split
  · rename_i hswitch
    have hsorted : s.sortedByFee = false := by
      rw [Bool.and_eq_true, Bool.not_eq_true'] at hswitch
      exact hswitch.1
    split
    · exact .pass (s.queue ++ [item]) true (.inr ⟨rfl, hsorted, rfl⟩) fun _ => rfl
    · exact considers_tryTake (fun _ => rfl) hwitness hadmitted
  · exact considers_tryTake id hwitness hadmitted

/-- What one round does. -/
theorem considers (g : Generator) (coinbaseTx : MsgTx) (segwitActive : Bool) (limit : UInt32)
    (s : Selection) (item : TxPrioItem) :
    Considers g coinbaseTx segwitActive limit s item
      (consider g coinbaseTx segwitActive limit s item) := by
  have hpass : Considers g coinbaseTx segwitActive limit s item
      (s.noteWitness coinbaseTx item.tx segwitActive) :=
    .pass s.queue s.sortedByFee (.inl rfl) id
  rw [consider]
  split
  · rename_i hskip
    rw [Bool.and_eq_true, Bool.not_eq_true'] at hskip
    obtain ⟨rfl, -⟩ := hskip
    rwa [noteWitness_inactive] at hpass
  rename_i hwitness
  dsimp only
  split
  · exact hpass
  rename_i hweight
  split
  · exact hpass
  rename_i sigOpCost hcost
  split
  · exact hpass
  rename_i htotal
  refine considers_prioritize (fun hw => ?_)
    ⟨Bool.eq_false_of_not_eq_true hweight, hcost, not_lt.1 htotal⟩
  rw [hw] at hwitness
  simpa using hwitness

/-! ## The loop -/

/-- What every round preserves holds at the end. -/
theorem select_induction {P : Selection → Prop}
    (hround : ∀ {s s' : Selection} {item : TxPrioItem} {rest : List TxPrioItem},
      (item :: rest).Perm s.queue → P s →
      Considers g coinbaseTx segwitActive limit { s with queue := rest } item s' → P s')
    {n : Nat} (h : P s) : P (select g coinbaseTx segwitActive limit n s) := by
  induction n generalizing s with
  | zero => exact h
  | succ n ih =>
    rw [select]
    split
    · exact h
    · rename_i item rest hpop
      exact ih (hround (g.heap.perm_of_pop hpop) h (considers ..))

end Round

section Rounds

variable (g : Generator) (coinbaseTx : MsgTx) (segwitActive : Bool) (limit : UInt32)

/-- The rounds of the loop: the selection before each of them, and the item it takes off the queue. -/
def roundsFrom : Nat → Selection → List (Selection × TxPrioItem)
  | 0, _ => []
  | fuel + 1, s =>
    match g.heap.pop s.less s.queue with
    | none => []
    | some (item, rest) =>
      ({ s with queue := rest }, item) ::
        roundsFrom fuel (consider g coinbaseTx segwitActive limit { s with queue := rest } item)

/-- All rounds of the loop. -/
def selectionRounds : List (Selection × TxPrioItem) :=
  let s := startSelection g coinbaseTx
  roundsFrom g coinbaseTx segwitActive limit s.rounds s

end Rounds

variable {g : Generator}

/-! ## The REAP transaction -/

/-- What appending the planned REAP transaction does. -/
inductive Appends (g : Generator) (segwitActive : Bool) (s : Selection) (tx : MsgTx) (fee : Int64) :
    Selection → Prop
  | skip (view : UtxoViewpoint) : Appends g segwitActive s tx fee { s with view := view }
  | take (sigOpCost : Nat)
      (hadmitted : Admitted g segwitActive g.policy.blockMaxWeight s tx sigOpCost)
      (hinputs : ∃ fee, checkTransactionInputs tx g.nextBlockHeight
        (s.view.mergeUtxoEntriesIfMissing (UtxoViewpoint.fetchUtxoView g.fetchEntry tx))
        g.consensus.params = .ok fee) :
      Appends g segwitActive s tx fee
        (Selection.take { s with
          view := s.view.mergeUtxoEntriesIfMissing (UtxoViewpoint.fetchUtxoView g.fetchEntry tx) }
          tx fee sigOpCost g.nextBlockHeight)

theorem appends (g : Generator) (segwitActive : Bool) (s : Selection) (tx : MsgTx) (fee : Int64) :
    Appends g segwitActive s tx fee (appendREAP g segwitActive s tx fee) := by
  rw [appendREAP]
  split
  · exact .skip s.view
  rename_i hweight
  split
  · exact .skip s.view
  rename_i sigOpCost hcost
  split
  · exact .skip s.view
  rename_i htotal
  dsimp only
  split
  · exact .skip _
  · rename_i fee' hinputs
    exact .take sigOpCost ⟨Bool.eq_false_of_not_eq_true hweight, hcost, not_lt.1 htotal⟩
      ⟨fee', hinputs⟩

/-! ## The template -/

/-- The coinbase with the fees, and with the witness commitment if one is needed. -/
def Selection.witnessCoinbase (s : Selection) (coinbaseTx : MsgTx) : MsgTx :=
  if s.witnessIncluded then (addWitnessCommitment (addFees coinbaseTx s.totalFees) s.blockTxns).1
  else addFees coinbaseTx s.totalFees

/-- The witness commitment, if one is needed. -/
def Selection.witnessCommitment (s : Selection) (coinbaseTx : MsgTx) : Option Bytes :=
  if s.witnessIncluded then
    some (addWitnessCommitment (addFees coinbaseTx s.totalFees) s.blockTxns).2
  else none

theorem completeCoinbase_eq (g : Generator) (coinbaseTx : MsgTx) (s : Selection) :
    g.completeCoinbase coinbaseTx s = (do
      let coinbaseTx' ← g.commitExpiry (s.witnessCoinbase coinbaseTx)
      .ok (coinbaseTx', s.witnessCommitment coinbaseTx)) := by
  rw [Generator.completeCoinbase, Selection.witnessCoinbase, Selection.witnessCommitment]
  cases s.witnessIncluded <;> rfl

/-- How a template came about. -/
structure Assembled (g : Generator) (payToAddress : Option Address) (t : BlockTemplate) where
  coinbaseTx : MsgTx
  segwitActive : Bool
  finalCoinbase : MsgTx
  new : g.newCoinbase payToAddress = .ok coinbaseTx
  segwit : g.consensus.deploymentActive g.best.hash .segwit = .ok segwitActive
  expiry : g.commitExpiry ((g.selection coinbaseTx segwitActive).witnessCoinbase coinbaseTx) =
    .ok finalCoinbase
  witnessCommitment :
    t.witnessCommitment = (g.selection coinbaseTx segwitActive).witnessCommitment coinbaseTx
  transactions : t.block.transactions =
    finalCoinbase :: (g.selection coinbaseTx segwitActive).blockTxns
  sigOpCosts : t.sigOpCosts =
    countSigOps g.consensus.engine coinbaseTx * witnessScaleFactor ::
      (g.selection coinbaseTx segwitActive).txSigOpCosts
  prevBlock : t.block.header.prevBlock = g.best.hash
  height : t.block.height = g.nextBlockHeight

theorem assembled {payToAddress : Option Address} {t : BlockTemplate}
    (h : g.assemble payToAddress = .ok t) : Nonempty (Assembled g payToAddress t) := by
  obtain ⟨coinbaseTx, hnew, h⟩ := bind_eq_ok.1 h
  obtain ⟨segwitActive, hsegwit, h⟩ := bind_eq_ok.1 h
  obtain ⟨⟨finalCoinbase, witnessCommitment⟩, hcomplete, h⟩ := bind_eq_ok.1 h
  rw [completeCoinbase_eq] at hcomplete
  obtain ⟨final, hexpiry, hpair⟩ := bind_eq_ok.1 hcomplete
  obtain ⟨rfl, rfl⟩ := Prod.mk.inj (Except.ok.inj hpair)
  obtain ⟨reqDifficulty, -, h⟩ := bind_eq_ok.1 h
  obtain ⟨nextBlockVersion, -, h⟩ := bind_eq_ok.1 h
  cases h
  exact ⟨⟨coinbaseTx, segwitActive, final, hnew, hsegwit, hexpiry, rfl, rfl, rfl, rfl, rfl⟩⟩

/-- How a template that is returned came about.  It was assembled, and the chain has checked
it. -/
theorem newBlockTemplate_ok {payToAddress : Option Address} {t : BlockTemplate}
    (h : g.newBlockTemplate payToAddress = .ok t) : Nonempty (Assembled g payToAddress t) ∧
      TemplateChecked g.consensus g.chainReads g.best t.block := by
  obtain ⟨t', hassemble, h⟩ := bind_eq_ok.1 h
  obtain ⟨⟨⟩, hcheck, h⟩ := bind_eq_ok.1 h
  cases h
  exact ⟨assembled hassemble, checkConnectBlockTemplate_ok hcheck⟩

end Mining

end Obtcd
