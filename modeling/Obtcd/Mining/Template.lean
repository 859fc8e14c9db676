import Obtcd.Blockchain.Sanity
import Obtcd.Mempool
import Obtcd.Mining.BlockTime
import Obtcd.Mining.Reap

/-!
# Block templates

`NewBlockTemplate`: it scans the pool for transactions that can be mined, selects as many of them as
policy and consensus allow, appends the REAP transaction it has planned, completes the coinbase with
the fees and the two commitments, and has the chain check the result.  `UpdateExtraNonce` rewrites
the script of the coinbase afterwards.

The selection is a loop over a priority queue with a state (`Selection`) that holds the view, the
weight, the signature operations and what has been selected so far.

Left abstract, as fields of `Generator`, are the heap, of which it is only known that it gives back
what was put in, the priorities, which are floating point numbers, the clock, and the difficulty and
version of the next block.  The size figures of the log are left out.
-/

namespace Obtcd

namespace UtxoViewpoint

/-- Copy the entries of `src` whose place in `dst` is taken by something that may be replaced. -/
def mergeEntries (replace : Option (Option UtxoEntry) → Bool) (dst src : UtxoViewpoint) :
    UtxoViewpoint :=
  src.entries.toList.foldl (fun dst r => if replace dst.entries[r.1]? then dst.put r.1 r.2 else dst)
    dst

/-- What is missing, `nil` or spent is replaced. -/
def mergeUtxoView : UtxoViewpoint → UtxoViewpoint → UtxoViewpoint :=
  mergeEntries fun
    | some (some e) => e.spent
    | _ => true

/-- What is missing or `nil` is replaced. -/
def mergeUtxoEntriesIfMissing : UtxoViewpoint → UtxoViewpoint → UtxoViewpoint :=
  mergeEntries fun
    | some (some _) => false
    | _ => true

/-- Spend the inputs that are there, add the outputs. -/
def spendTransaction (v : UtxoViewpoint) (tx : MsgTx) (height : Int32) : UtxoViewpoint :=
  let v := tx.txIn.foldl (fun v ti =>
    match v.lookupEntry ti.previousOutPoint with
    | some e => v.put ti.previousOutPoint (some e.spend)
    | none => v) v
  v.addTxOuts tx height

end UtxoViewpoint

namespace Mining

open List
open Chaincfg (Params)
open Txscript (Address)

/-! ## What the generator reads -/

structure Policy where
  blockMinWeight : UInt32
  blockMaxWeight : UInt32
  blockPrioritySize : UInt32
  txMinFreeFee : Int64

/-- A transaction of the pool. -/
structure TxDesc where
  tx : MsgTx
  fee : Int64
  feePerKB : Int64

structure TxPrioItem where
  tx : MsgTx
  fee : Int64 := 0
  priority : Rat := 0
  feePerKB : Int64 := 0
  dependsOn : List Hash := []
deriving DecidableEq

def txPQByPriority (a b : TxPrioItem) : Bool :=
  if a.priority = b.priority then a.feePerKB > b.feePerKB else a.priority > b.priority

def txPQByFee (a b : TxPrioItem) : Bool :=
  if a.feePerKB = b.feePerKB then a.priority > b.priority else a.feePerKB > b.feePerKB

/-- `container/heap`: an item comes out that was put in, and the others stay.  Which of several
equal items it is depends on the order in which a Go map was walked. -/
structure TxHeap where
  pop : (TxPrioItem → TxPrioItem → Bool) → List TxPrioItem → Option (TxPrioItem × List TxPrioItem)
  perm_of_pop : ∀ {less items item rest}, pop less items = some (item, rest) →
    (item :: rest).Perm items

namespace TxHeap

/-- The first of the best items. -/
def best (less : TxPrioItem → TxPrioItem → Bool) (items : List TxPrioItem) (item : TxPrioItem) :
    TxPrioItem := items.foldl (fun item x => if less x item then x else item) item

theorem best_mem (less : TxPrioItem → TxPrioItem → Bool) (items : List TxPrioItem)
    (item : TxPrioItem) : best less items item ∈ item :: items := by
  induction items generalizing item with
  | nil => exact mem_cons_self
  | cons x items ih =>
    have hmem := ih (if less x item then x else item)
    rw [mem_cons] at hmem
    rcases hmem with hbest | hrest
    · rw [best, foldl_cons, ← best, hbest]
      split
      · exact mem_cons_of_mem _ mem_cons_self
      · exact mem_cons_self
    · exact mem_cons_of_mem _ (mem_cons_of_mem _ hrest)

/-- A queue that looks through all of its items. -/
def linear : TxHeap where
  pop less items :=
    match items with
    | [] => none
    | item :: items => some (best less items item, (item :: items).erase (best less items item))
  perm_of_pop {less items item rest} h := by
    cases items with
    | nil => cases h
    | cons first items =>
      cases h
      exact (perm_cons_erase (best_mem ..)).symm

end TxHeap

/-- `BlkTmplGenerator`, with what it reads of the chain, the pool and the clock. -/
structure Generator where
  policy : Policy
  consensus : Consensus
  headerRules : HeaderRules
  /-- What the UTXO cache of the chain answers. -/
  fetchEntry : OutPoint → Option UtxoEntry
  /-- The tip of the best chain. -/
  best : BlockNode
  /-- The prefix source of the chain. -/
  reapPrefixSource : Option ReapPrefixSource
  reapIndex : Option ReapPrefixSource
  /-- What `GetAccumulatorSnapshot` of the expiry state answers, if there is one. -/
  expiryState : Option (Except GoError ExpiryIndex.Index.AccumulatorSnapshot)
  /-- `MiningDescs` of the pool. -/
  miningDescs : List TxDesc
  /-- `HaveTransaction` of the pool. -/
  haveTransaction : Hash → Bool
  heap : TxHeap
  /-- `CalcPriority`. -/
  calcPriority : MsgTx → UtxoViewpoint → Int32 → Rat
  adjustedTime : Int64
  calcNextRequiredDifficulty : Int64 → Except GoError UInt32
  calcNextBlockVersion : Except GoError Int32

namespace Generator

variable (g : Generator)

def nextBlockHeight : Int32 := g.best.height + 1

/-- What validation reads of the chain. -/
def chainReads : ChainReads := ⟨g.fetchEntry, g.best.hash, g.reapPrefixSource⟩

/-- The generator, as far as it builds REAP transactions. -/
def reapGenerator : BlkTmplGenerator :=
  ⟨g.consensus.params, g.reapIndex, g.fetchEntry, some g.policy.blockMaxWeight⟩

end Generator

/-! ## The coinbase -/

def coinbaseFlags : Bytes := bytesOf "/P2SH/btcd/"

/-- A builder's result as a Go error. -/
def liftScript {α : Type} : Except String α → Except GoError α
  | .ok a => .ok a
  | .error text => .error (.other text)

def standardCoinbaseScript (nextBlockHeight : Int32) (extraNonce : UInt64) :
    Except GoError Bytes := liftScript do
  let script ← Txscript.addInt64 [] nextBlockHeight.toInt64
  let script ← Txscript.addInt64 script extraNonce.toInt64
  Txscript.addData script coinbaseFlags

/-- The script a coinbase pays to: anyone can spend it if there is no address. -/
def payoutScript : Option Address → Except GoError Bytes
  | some addr => liftScript (Txscript.payToAddrScript addr)
  | none => liftScript (Txscript.addOp [] Txscript.op1)

def createCoinbaseTx (params : Params) (coinbaseScript : Bytes) (nextBlockHeight : Int32)
    (addr : Option Address) : Except GoError MsgTx := do
  let pkScript ← payoutScript addr
  .ok
    { version := 1
      txIn := [{
        previousOutPoint := ⟨Hash.zero, OutPoint.maxIndex⟩
        signatureScript := coinbaseScript }]
      txOut := [⟨calcBlockSubsidy nextBlockHeight params, pkScript⟩] }

/-- A transaction with another witness in its first input. -/
def setFirstWitness (tx : MsgTx) (witness : List Bytes) : MsgTx :=
  { tx with txIn := tx.txIn.modifyHead fun ti => { ti with witness := witness } }

/-- A transaction with one more output. -/
def addTxOut (tx : MsgTx) (o : TxOut) : MsgTx := { tx with txOut := tx.txOut ++ [o] }

/-- What a coinbase gains in weight by a witness commitment, found with a model of it. -/
def witnessCommitmentWeight (coinbaseTx : MsgTx) : Nat :=
  let coinbaseCopy :=
    addTxOut (setFirstWitness coinbaseTx [replicate coinbaseWitnessDataLen 0x61])
      ⟨0, replicate coinbaseWitnessPkScriptLength 0x61⟩
  getTransactionWeight coinbaseCopy - getTransactionWeight coinbaseTx

/-! ## The scan of the pool -/

/-- What the scan of the pool has found.  The items that wait for others are those of
`dependers`. -/
structure Scan where
  queue : List TxPrioItem := []
  waiting : List TxPrioItem := []
  view : UtxoViewpoint := .new

/-- An item goes into the queue, unless it depends on others. -/
def Scan.add (s : Scan) (item : TxPrioItem) : Scan :=
  if item.dependsOn.isEmpty then { s with queue := s.queue ++ [item] }
  else { s with waiting := s.waiting ++ [item] }

namespace Generator

variable (g : Generator)

/-- The loop over the inputs of a transaction: the hashes it depends on, and whether all of its
inputs are in the chain or in the pool.  A missing one ends the loop. -/
def scanInputs (utxos : UtxoViewpoint) : List Hash → List TxIn → List Hash × Bool
  | deps, [] => (deps, true)
  | deps, ti :: tis =>
    match utxos.unspent ti.previousOutPoint with
    | some _ => scanInputs utxos deps tis
    | none =>
      if !g.haveTransaction ti.previousOutPoint.hash then (deps, false)
      else scanInputs utxos (deps.insert ti.previousOutPoint.hash) tis

/-- One transaction of the pool.  One with a missing input is skipped, but what it was found to
depend on before stays registered, with neither priority nor fee. -/
def scanTx (s : Scan) (desc : TxDesc) : Scan :=
  let tx := desc.tx
  if isCoinBaseTx tx then s
  else if !isFinalizedTransaction tx g.nextBlockHeight g.adjustedTime.toInt then s
  else
    let utxos := UtxoViewpoint.fetchUtxoView g.fetchEntry tx
    let (deps, complete) := g.scanInputs utxos [] tx.txIn
    if !complete then
      if deps.isEmpty then s else s.add { tx := tx, dependsOn := deps }
    else
      let item : TxPrioItem :=
        { tx := tx, fee := desc.fee, priority := g.calcPriority tx utxos g.nextBlockHeight,
          feePerKB := desc.feePerKB, dependsOn := deps }
      { s.add item with view := s.view.mergeUtxoView utxos }

/-- The loop over the pool. -/
def scan : Scan := g.miningDescs.foldl g.scanTx {}

end Generator

/-! ## The selection -/

/-- The selection so far.  The lists do not have an entry for the coinbase. -/
structure Selection where
  queue : List TxPrioItem
  waiting : List TxPrioItem
  sortedByFee : Bool
  view : UtxoViewpoint
  blockTxns : List MsgTx := []
  blockWeight : UInt32
  blockSigOpCost : Nat
  totalFees : Int64 := 0
  txFees : List Int64 := []
  txSigOpCosts : List Nat := []
  witnessIncluded : Bool := false

def minHighPriority : Rat := 57600000

def blockHeaderOverhead : Nat := blockHeaderLen + 9

/-- The weight of the planned REAP transaction is set aside. -/
def normalTxWeightLimit (policy : Policy) (plannedREAPWeight : Option UInt32) : UInt32 :=
  match plannedREAPWeight with
  | none => policy.blockMaxWeight
  | some reserve =>
    if reserve > 0 && reserve < policy.blockMaxWeight then policy.blockMaxWeight - reserve
    else policy.blockMaxWeight

/-- The weight of a transaction, as the generator adds it up. -/
def txWeight (tx : MsgTx) : UInt32 := UInt32.ofNat (getTransactionWeight tx)

namespace Selection

/-- The transaction is in the block: the items that only waited for it go into the queue. -/
def release (s : Selection) (hash : Hash) : Selection :=
  let waiting := s.waiting.map fun item =>
    (decide (hash ∈ item.dependsOn),
      { item with dependsOn := item.dependsOn.filter (· ≠ hash) })
  let ready := waiting.filter fun r => r.1 && r.2.dependsOn.isEmpty
  let left := waiting.filter fun r => !(r.1 && r.2.dependsOn.isEmpty)
  { s with queue := s.queue ++ ready.map Prod.snd, waiting := left.map Prod.snd }

/-- Add a transaction to the block. -/
def take (s : Selection) (tx : MsgTx) (fee : Int64) (sigOpCost : Nat) (height : Int32) :
    Selection :=
  { s with
    view := s.view.spendTransaction tx height
    blockTxns := s.blockTxns ++ [tx]
    blockWeight := s.blockWeight + txWeight tx
    blockSigOpCost := s.blockSigOpCost + sigOpCost
    totalFees := s.totalFees + fee
    txFees := s.txFees ++ [fee]
    txSigOpCosts := s.txSigOpCosts ++ [sigOpCost] }

/-- Is this the first transaction with a witness that is looked at? -/
def firstWitness (s : Selection) (tx : MsgTx) (segwitActive : Bool) : Bool :=
  segwitActive && !s.witnessIncluded && tx.hasWitness

/-- The first transaction with a witness makes the coinbase grow by the commitment, whether or not
the transaction is selected. -/
def noteWitness (s : Selection) (coinbaseTx tx : MsgTx) (segwitActive : Bool) : Selection :=
  let growth := UInt32.ofNat (witnessCommitmentWeight coinbaseTx)
  { s with
    blockWeight := if s.firstWitness tx segwitActive then s.blockWeight + growth else s.blockWeight
    witnessIncluded := s.witnessIncluded || s.firstWitness tx segwitActive }

/-- Would the block get too heavy with a transaction? -/
def overweight (s : Selection) (limit : UInt32) (tx : MsgTx) : Bool :=
  s.blockWeight + txWeight tx < s.blockWeight || s.blockWeight + txWeight tx ≥ limit

end Selection

section Select

variable (g : Generator) (coinbaseTx : MsgTx) (segwitActive : Bool) (limit : UInt32)

/-- The checks of a transaction that does not switch the queue's order. -/
def tryTake (s : Selection) (item : TxPrioItem) (sigOpCost : Nat) : Selection :=
  let params := g.consensus.params
  match checkTransactionInputs item.tx g.nextBlockHeight s.view params with
  | .error _ => s
  | .ok _ =>
    let scriptFlags :=
      applyOBTCReplayProtectionScriptFlag Mempool.standardVerifyFlags params g.nextBlockHeight
    match validateTransactionScripts g.consensus.engine item.tx s.view scriptFlags with
    | .error _ => s
    | .ok () =>
      (s.take item.tx item.fee sigOpCost g.nextBlockHeight).release item.tx.txHash

/-- An item that fits: free transactions only up to the minimum weight, and by priority only up to
the priority size. -/
def prioritize (s : Selection) (item : TxPrioItem) (sigOpCost : Nat) : Selection :=
  let blockPlusTxWeight := s.blockWeight + txWeight item.tx
  if s.sortedByFee && item.feePerKB < g.policy.txMinFreeFee &&
      blockPlusTxWeight ≥ g.policy.blockMinWeight then s
  else if !s.sortedByFee && (blockPlusTxWeight ≥ g.policy.blockPrioritySize ||
      item.priority ≤ minHighPriority) then
    let s := { s with sortedByFee := true }
    if blockPlusTxWeight > g.policy.blockPrioritySize || item.priority < minHighPriority then
      { s with queue := s.queue ++ [item] }
    else tryTake g s item sigOpCost
  else tryTake g s item sigOpCost

/-- One round of the loop, with the item that was popped. -/
def consider (s : Selection) (item : TxPrioItem) : Selection :=
  if !segwitActive && item.tx.hasWitness then s
  else
    let s := s.noteWitness coinbaseTx item.tx segwitActive
    if s.overweight limit item.tx then s
    else
      match getSigOpCost g.consensus.engine item.tx false s.view true segwitActive with
      | .error _ => s
      | .ok sigOpCost =>
        if s.blockSigOpCost + sigOpCost > maxBlockSigOpsCost then s
        else prioritize g s item sigOpCost

/-- The order the queue is in. -/
def Selection.less (s : Selection) : TxPrioItem → TxPrioItem → Bool :=
  if s.sortedByFee then txPQByFee else txPQByPriority

/-- The loop.  A round takes an item off the queue for good, but for the one that switches its
order, so the number of items and one more is fuel enough. -/
def select : Nat → Selection → Selection
  | 0, s => s
  | fuel + 1, s =>
    match g.heap.pop s.less s.queue with
    | none => s
    | some (item, rest) =>
      select fuel (consider g coinbaseTx segwitActive limit { s with queue := rest } item)

/-- The selection before the first round. -/
def startSelection : Selection :=
  { queue := g.scan.queue
    waiting := g.scan.waiting
    sortedByFee := g.policy.blockPrioritySize == 0
    view := g.scan.view
    blockWeight :=
      UInt32.ofNat (blockHeaderOverhead * witnessScaleFactor + getTransactionWeight coinbaseTx)
    blockSigOpCost := countSigOps g.consensus.engine coinbaseTx * witnessScaleFactor }

/-- The rounds that are left at most. -/
def Selection.rounds (s : Selection) : Nat :=
  s.queue.length + s.waiting.length + if s.sortedByFee then 0 else 1

/-- The selection after the loop. -/
def selectTransactions : Selection :=
  let s := startSelection g coinbaseTx
  select g coinbaseTx segwitActive limit s.rounds s

/-- The REAP transaction goes to the end of the block if it fits.  Its cost is taken from the view
*before* its inputs are put there. -/
def appendREAP (s : Selection) (tx : MsgTx) (fee : Int64) : Selection :=
  if s.overweight g.policy.blockMaxWeight tx then s
  else
    match getSigOpCost g.consensus.engine tx false s.view true segwitActive with
    | .error _ => s
    | .ok sigOpCost =>
      if s.blockSigOpCost + sigOpCost > maxBlockSigOpsCost then s
      else
        let s := { s with
          view := s.view.mergeUtxoEntriesIfMissing (UtxoViewpoint.fetchUtxoView g.fetchEntry tx) }
        match checkTransactionInputs tx g.nextBlockHeight s.view g.consensus.params with
        | .error _ => s
        | .ok _ => s.take tx fee sigOpCost g.nextBlockHeight

end Select

/-! ## The template -/

structure BlockTemplate where
  block : Block
  fees : List Int64
  sigOpCosts : List Nat
  height : Int32
  validPayAddress : Bool
  witnessCommitment : Option Bytes

/-- `AddWitnessCommitment`, for a coinbase in front of some transactions. -/
def addWitnessCommitment (coinbaseTx : MsgTx) (txs : List MsgTx) : MsgTx × Bytes :=
  let witnessNonce : Bytes := replicate coinbaseWitnessDataLen 0
  let coinbaseTx := setFirstWitness coinbaseTx [witnessNonce]
  let witnessCommitment :=
    commitWitnessRoot (calcMerkleRoot (coinbaseTx :: txs) true) witnessNonce
  (addTxOut coinbaseTx ⟨0, witnessMagicBytes ++ witnessCommitment⟩, witnessCommitment)

def addExpiryCommitment (coinbaseTx : MsgTx) (root : Bytes.Sized 32) : MsgTx :=
  addTxOut coinbaseTx ⟨0, ExpiryIndex.buildExpiryCommitmentScript root⟩

/-- A coinbase that pays the fees as well. -/
def addFees (coinbaseTx : MsgTx) (totalFees : Int64) : MsgTx :=
  { coinbaseTx with
    txOut := coinbaseTx.txOut.modifyHead fun o => { o with value := o.value + totalFees } }

namespace Generator

variable (g : Generator)

/-- Is the expiry commitment due in the next block? -/
def expiryCommitmentDue : Bool :=
  match Chaincfg.getExpiryParams g.consensus.params with
  | none => false
  | some ep => g.nextBlockHeight ≥ ep.expiryCommitmentEnableAtHeight

/-- The root to commit to: the expiry state must stand at the best block. -/
def expiryRoot : Except GoError (Bytes.Sized 32) :=
  match g.expiryState with
  | none =>
    .error (.other ("expiry commitment state source is unavailable at height " ++
      toString g.nextBlockHeight))
  | some state => do
    let snapshot ← wrapError "failed to get expiry accumulator snapshot: " state
    if snapshot.tipHeight ≠ g.best.height || snapshot.tipHash ≠ g.best.hash then
      .error (.other ("expiry accumulator snapshot out of sync: got (" ++
        toString snapshot.tipHeight ++ "," ++ snapshot.tipHash.string ++ "), want (" ++
        toString g.best.height ++ "," ++ g.best.hash.string ++ ")"))
    else .ok snapshot.root

/-- The coinbase with the expiry commitment, if that is due. -/
def commitExpiry (coinbaseTx : MsgTx) : Except GoError MsgTx :=
  if g.expiryCommitmentDue then do
    let root ← g.expiryRoot
    .ok (addExpiryCommitment coinbaseTx root)
  else .ok coinbaseTx

/-- The REAP transaction that is planned.  A failure to build one is only logged. -/
def plannedREAP : Option (MsgTx × Int64) :=
  match maybeBuildREAPTx g.reapGenerator g.nextBlockHeight with
  | .ok planned => planned
  | .error _ => none

/-- All transactions but the coinbase. -/
def selection (coinbaseTx : MsgTx) (segwitActive : Bool) : Selection :=
  let limit := normalTxWeightLimit g.policy (g.plannedREAP.map fun r => txWeight r.1)
  let s := selectTransactions g coinbaseTx segwitActive limit
  match g.plannedREAP with
  | none => s
  | some (tx, fee) => appendREAP g segwitActive s tx fee

/-- The coinbase that goes with a selection, and its witness commitment if it has one. -/
def completeCoinbase (coinbaseTx : MsgTx) (s : Selection) :
    Except GoError (MsgTx × Option Bytes) := do
  let coinbaseTx := addFees coinbaseTx s.totalFees
  let (coinbaseTx, witnessCommitment) :=
    if s.witnessIncluded then
      let (coinbaseTx, witnessCommitment) := addWitnessCommitment coinbaseTx s.blockTxns
      (coinbaseTx, some witnessCommitment)
    else (coinbaseTx, none)
  let coinbaseTx ← g.commitExpiry coinbaseTx
  .ok (coinbaseTx, witnessCommitment)

/-- The coinbase as it is at first, with the subsidy and no commitments. -/
def newCoinbase (payToAddress : Option Address) : Except GoError MsgTx := do
  let coinbaseScript ← standardCoinbaseScript g.nextBlockHeight 0
  createCoinbaseTx g.consensus.params coinbaseScript g.nextBlockHeight payToAddress

/-- The template before the chain has checked it. -/
def assemble (payToAddress : Option Address) : Except GoError BlockTemplate := do
  let coinbaseTx ← g.newCoinbase payToAddress
  let segwitActive ← g.consensus.deploymentActive g.best.hash .segwit
  let s := g.selection coinbaseTx segwitActive
  let coinbaseSigOpCost := countSigOps g.consensus.engine coinbaseTx * witnessScaleFactor
  let (coinbaseTx, witnessCommitment) ← g.completeCoinbase coinbaseTx s
  let ts := medianAdjustedTime (Int64.ofInt (g.consensus.pastMedianTime g.best.hash)) g.adjustedTime
  let reqDifficulty ← g.calcNextRequiredDifficulty ts
  let nextBlockVersion ← g.calcNextBlockVersion
  let blockTxns := coinbaseTx :: s.blockTxns
  .ok
    { block :=
        { header :=
            { version := nextBlockVersion
              prevBlock := g.best.hash
              merkleRoot := calcMerkleRoot blockTxns false
              timestamp := ts.toUInt64.toUInt32
              bits := reqDifficulty
              nonce := 0 }
          transactions := blockTxns
          height := g.nextBlockHeight }
      fees := -s.totalFees :: s.txFees
      sigOpCosts := coinbaseSigOpCost :: s.txSigOpCosts
      height := g.nextBlockHeight
      validPayAddress := payToAddress.isSome
      witnessCommitment := witnessCommitment }

def newBlockTemplate (payToAddress : Option Address) : Except GoError BlockTemplate := do
  let template ← g.assemble payToAddress
  checkConnectBlockTemplate g.headerRules g.consensus g.chainReads g.best template.block
  .ok template

end Generator

def updateExtraNonce (block : Block) (blockHeight : Int32) (extraNonce : UInt64) :
    Except GoError Block := do
  let coinbaseScript ← standardCoinbaseScript blockHeight extraNonce
  if coinbaseScript.length > maxCoinbaseScriptLen then
    .error (.other ("coinbase transaction script length of " ++ toString coinbaseScript.length ++
      " is out of range (min: " ++ toString minCoinbaseScriptLen ++ ", max: " ++
      toString maxCoinbaseScriptLen ++ ")"))
  else
    match block.transactions with
    | [] => .error (.panic "runtime error: index out of range [0] with length 0")
    | coinbaseTx :: txs =>
      match coinbaseTx.txIn with
      | [] => .error (.panic "runtime error: index out of range [0] with length 0")
      | ti :: tis =>
        let coinbaseTx :=
          { coinbaseTx with txIn := { ti with signatureScript := coinbaseScript } :: tis }
        .ok
          { block with
            header := { block.header with
              merkleRoot := calcMerkleRoot (coinbaseTx :: txs) false }
            transactions := coinbaseTx :: txs }

end Mining

end Obtcd
