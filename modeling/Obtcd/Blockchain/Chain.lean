import Obtcd.Blockchain.UtxoCache
import Obtcd.Blockchain.Validate
import Obtcd.ExpiryIndex.Prefix

/-!
# The best chain

`chain.go`: how a block becomes the tip of the best chain, directly or through a reorganization, and
what happens on the way to the UTXO cache, the database and the expiry index.

A `BlockChain` is everything the functions here can reach: the database, which survives the process,
and the structures in memory, which do not.  They are programs of `Lib/Prog.lean`: an error ends the
program, and what has been changed by then stays changed.  The only thing that takes a change back
is the failure of a database transaction, `dbUpdate`, and it takes back changes to the database
only.  A change to the UTXO cache made before or inside a transaction that fails stays.

Blocks are written to the database when they arrive, before any of this.  A `*blockNode` is its
`BlockNode` together with the nodes its parent pointers lead to, so a function that follows the
pointers gets the list of ancestors.  The functions that only log are left out, and so are failures
of the database itself and the indexes other than the expiry index.
-/

namespace Obtcd

open ExpiryIndex (Index Buckets)

/-! ## State -/

/-- The flags that are used here. -/
structure BlockStatus where
  valid : Bool := false
  validateFailed : Bool := false
  invalidAncestor : Bool := false
deriving DecidableEq

namespace BlockStatus

def knownValid (s : BlockStatus) : Bool := s.valid

def knownInvalid (s : BlockStatus) : Bool := s.validateFailed || s.invalidAncestor

/-- Both sets of flags. -/
def or (s flags : BlockStatus) : BlockStatus :=
  ⟨s.valid || flags.valid, s.validateFailed || flags.validateFailed,
    s.invalidAncestor || flags.invalidAncestor⟩

end BlockStatus

/-- The database. -/
structure ChainDb where
  utxoSet : Utxos
  /-- The block whose state the UTXO bucket holds. -/
  utxoStateConsistency : Option Hash
  /-- The hash in the best state record. -/
  bestState : Hash
  spendJournal : OrdMap Hash (List SpentTxOut)
  blocks : OrdMap Hash Block
  /-- The status bytes of the block index bucket. -/
  nodeStatus : OrdMap Hash BlockStatus
  /-- The tip that the index manager keeps for the expiry index. -/
  indexerTip : Option (Hash × Int32)
  expiry : Buckets

/-- The tip and what is below it, down to the genesis block. -/
structure ChainView where
  tip : BlockNode
  below : List BlockNode

/-- The nodes of the view, tip first. -/
def ChainView.nodes (c : ChainView) : List BlockNode := c.tip :: c.below

structure BlockChain where
  db : ChainDb
  utxoCache : UtxoCache
  bestChain : ChainView
  index : OrdMap Hash BlockNode
  nodeStatus : OrdMap Hash BlockStatus
  expiryIndex : Index

/-- What does not change while the process runs. -/
structure Config where
  consensus : Consensus
  /-- The `workSum` of the node with this hash. -/
  workSum : Hash → Nat
  /-- Is there an index manager, with the expiry index? -/
  indexManager : Bool
  /-- Is the expiry index the `ReapPrefixSource`? -/
  reapPrefixSource : Bool
  /-- The blocks that `PruneBlocks` deletes.  There is none if `pruneTarget` is zero. -/
  pruneBlocks : Option (OrdMap Hash Block → List Hash)
  /-- Does the cache take up `maxTotalMemoryUsage`? -/
  cacheFull : UtxoCache → Bool

abbrev ChainM := Prog BlockChain GoError

namespace BlockChain

open Prog (require onError)

/-! ## Reading -/

/-- What the UTXO cache answers. -/
def fetchEntry (s : BlockChain) (op : OutPoint) : Option UtxoEntry :=
  s.utxoCache.fetchEntry s.db.utxoSet op

/-- The unspent output at an outpoint, as cache and database say together. -/
def lookup (s : BlockChain) (op : OutPoint) : Option SpentTxOut :=
  s.utxoCache.lookup s.db.utxoSet op

/-- `NodeStatus`. -/
def status (s : BlockChain) (hash : Hash) : BlockStatus := (s.nodeStatus[hash]?).getD {}

/-- `NewUtxoViewpoint` and `SetBestHash`. -/
def viewAt (hash : Hash) : UtxoViewpoint := UtxoViewpoint.new.setBestHash hash

variable (cfg : Config)

/-- `reapPrefixSource`. -/
def prefixSource (s : BlockChain) : Option ReapPrefixSource :=
  if cfg.reapPrefixSource then some (s.expiryIndex.prefixSource s.db.expiry) else none

/-- What validation reads. -/
def reads (s : BlockChain) : ChainReads := ⟨s.fetchEntry, s.bestChain.tip.hash, s.prefixSource cfg⟩

/-! ## The database -/

/-- `db.Update`: a transaction that fails leaves the database as it was. -/
def dbUpdate {α : Type} (x : ChainM α) : ChainM α :=
  Prog.transaction (fun s s' => { s' with db := s.db }) x

/-- Change the database. -/
def modifyDb (f : ChainDb → ChainDb) : ChainM Unit := modify fun s => { s with db := f s.db }

def setStatusFlags (hash : Hash) (flags : BlockStatus) : ChainM Unit :=
  modify fun s => { s with nodeStatus := s.nodeStatus.insert hash ((s.status hash).or flags) }

/-- `index.flushToDB`: the nodes that have changed are written. -/
def flushToDB : ChainM Unit :=
  modify fun s => { s with db := { s.db with nodeStatus := s.nodeStatus } }

def dbFetchBlockByNode (node : BlockNode) : ChainM Block := do
  match (← get).db.blocks[node.hash]? with
  | none => throw (.other ("block " ++ node.hash.string ++ " does not exist"))
  | some block => pure { block with height := node.height }

/-- Nothing is stored for a block that spends nothing. -/
def dbFetchSpendJournalEntry (block : Block) : ChainM (List SpentTxOut) := do
  let numStxos ← Prog.ofExcept (UtxoViewpoint.countSpentOutputs block)
  match ((← get).db.spendJournal[block.hash]?).getD [] with
  | [] => do
    require (numStxos = 0) (.assert ("mismatched spend journal serialization - no serialization " ++
      "for expected " ++ toString numStxos ++ " stxos"))
    pure []
  | stxos => pure stxos

/-! ## The UTXO cache -/

/-- `fetchEntries`, for what it leaves in the cache. -/
def fetchEntries (ops : List OutPoint) : ChainM Unit :=
  modify fun s => { s with utxoCache := s.utxoCache.fetchEntries s.db.utxoSet ops }

def fetchInputUtxos (v : UtxoViewpoint) (block : Block) : ChainM UtxoViewpoint := do
  let r ← Prog.ofExcept (v.findInputsToFetch block)
  let s ← get
  fetchEntries r.2
  pure (r.1.fetchUtxosFromCache s.fetchEntry r.2)

/-- `utxoCache.connectTransactions`, with the list that is made for what it spends. -/
def connectTransactions (block : Block) : ChainM (List SpentTxOut) := do
  let _ ← Prog.ofExcept (UtxoViewpoint.countSpentOutputs block)
  let s ← get
  Prog.focus utxoCache (fun s cache => { s with utxoCache := cache })
    (UtxoCache.connectTransactions s.db.utxoSet block)

/-- The periodic mode asks whether enough time has passed. -/
inductive FlushMode where
  | required
  | periodic (elapsed : Bool)
  | ifNeeded
deriving DecidableEq

/-- Does `flush` write? -/
def flushDue (s : BlockChain) (bestHash : Hash) : FlushMode → Bool
  | .required => true
  | .periodic elapsed => elapsed || cfg.cacheFull s.utxoCache
  | .ifNeeded => bestHash != s.utxoCache.lastFlushHash && cfg.cacheFull s.utxoCache

def writeCache (s : BlockChain) (bestHash : Hash) : BlockChain :=
  { s with
    db := { s.db with
      utxoSet := s.utxoCache.writeCache s.db.utxoSet
      utxoStateConsistency := some bestHash }
    utxoCache := UtxoCache.flushed bestHash }

/-- `flush`, in a database transaction. -/
def flush (mode : FlushMode) (bestHash : Hash) : ChainM Unit :=
  modify fun s => if s.flushDue cfg bestHash mode then s.writeCache bestHash else s

def flushNeededAfterPrune (s : BlockChain) (deletedBlockHashes : List Hash) : Bool :=
  match s.index[s.utxoCache.lastFlushHash]? with
  | none => true
  | some lastFlushNode =>
    let highestDeletedHeight := deletedBlockHashes.foldl (fun highest hash =>
      match s.index[hash]? with
      | none => highest
      | some node => if node.height > highest then node.height else highest) (-1)
    highestDeletedHeight ≥ lastFlushNode.height

/-- The blocks that are about to be pruned. -/
def deletedHashes (s : BlockChain) : List Hash := (cfg.pruneBlocks.map (· s.db.blocks)).getD []

/-- Does pruning flush the cache? -/
def pruneFlushes (s : BlockChain) : Bool :=
  !(s.deletedHashes cfg).isEmpty && s.flushNeededAfterPrune (s.deletedHashes cfg)

/-- The start of the transaction of `connectBlock`: prune old blocks and their spend journals, after
a flush if blocks would go that are needed to repeat what has happened since the last one. -/
def prune (bestHash : Hash) : ChainM Unit := modify fun s =>
  let s' := if s.pruneFlushes cfg then s.writeCache bestHash else s
  { s' with db := { s'.db with
      spendJournal := (s.deletedHashes cfg).foldl (fun m h => m.erase h) s.db.spendJournal
      blocks := (s.deletedHashes cfg).foldl (fun m h => m.erase h) s.db.blocks } }

/-! ## The index manager -/

/-- The hash. -/
def dbFetchIndexerTip : ChainM Hash := do
  match (← get).db.indexerTip with
  | none => throw (.other "unexpected end of data for index \"expiryindex\" tip")
  | some tip => pure tip.1

def dbIndexConnectBlock (block : Block) : ChainM Unit := do
  let curTipHash ← dbFetchIndexerTip
  require (curTipHash = block.header.prevBlock)
    (.assert ("dbIndexConnectBlock must be called with a block that extends the current index tip " ++
      "(expiry index, tip " ++ curTipHash.string ++ ", block " ++ block.hash.string ++ ")"))
  let s ← get
  let r ← Prog.ofExcept (s.expiryIndex.connectBlock s.db.expiry block)
  set { s with
    expiryIndex := r.1
    db := { s.db with expiry := r.2, indexerTip := some (block.hash, block.height) } }

def dbIndexDisconnectBlock (block : Block) (stxos : List SpentTxOut) : ChainM Unit := do
  let curTipHash ← dbFetchIndexerTip
  require (curTipHash = block.hash)
    (.assert ("dbIndexDisconnectBlock must be called with the block at the current index tip " ++
      "(expiry index, tip " ++ curTipHash.string ++ ", block " ++ block.hash.string ++ ")"))
  let s ← get
  let r ← Prog.ofExcept (s.expiryIndex.disconnectBlock s.db.expiry block stxos)
  set { s with
    expiryIndex := r.1
    db := { s.db with
      expiry := r.2
      indexerTip := some (block.header.prevBlock, block.height - 1) } }

/-- `indexManager.ConnectBlock`, if there is one. -/
def indexConnectBlock (block : Block) : ChainM Unit :=
  if cfg.indexManager then dbIndexConnectBlock block else pure ()

/-- `indexManager.DisconnectBlock`, if there is one. -/
def indexDisconnectBlock (block : Block) (stxos : List SpentTxOut) : ChainM Unit :=
  if cfg.indexManager then dbIndexDisconnectBlock block stxos else pure ()

/-! ## One block -/

/-- The outpoints that `checkConnectBlock` asks the cache for: those of the duplicate check, and
those the block spends. -/
def connectReads (c : Consensus) (r : ChainReads) (node : BlockNode) (block : Block)
    (v : UtxoViewpoint) : List OutPoint :=
  if node.hash = c.params.genesisHash || v.bestHash ≠ block.header.prevBlock then []
  else
    let created := if !isBIP0030Node node && node.height < c.params.bip0034Height then
      (block.transactions.flatMap MsgTx.outPoints).filter fun op => (v.entries[op]?).isNone else []
    let spent := do
      let v ← enforceBIP0030 c r node block v
      checkReapBlockHardening block node.height c.params
      v.findInputsToFetch block
    created ++ match spent with
      | .ok r => r.2
      | .error _ => []

/-- `checkConnectBlock`, with what it leaves in the cache. -/
def checkConnectBlock (node : BlockNode) (block : Block) (v : UtxoViewpoint) :
    ChainM (UtxoViewpoint × List SpentTxOut) := do
  let s ← get
  fetchEntries (connectReads cfg.consensus (s.reads cfg) node block v)
  Prog.ofExcept (Obtcd.checkConnectBlock cfg.consensus (s.reads cfg) node block v)

/-- The prefix rule for a block on top of the best chain. -/
def checkPrefix (node : BlockNode) (block : Block) : ChainM Unit := do
  let s ← get
  Prog.ofExcept (checkReapGlobalPrefix block node.height (s.prefixSource cfg) cfg.consensus.params)

/-- `SetTip`, to a child of the tip. -/
def setTip (node : BlockNode) : ChainM Unit :=
  modify fun s => { s with bestChain := ⟨node, s.bestChain.nodes⟩ }

/-- The transaction of `connectBlock`. -/
def connectBlockTx (node : BlockNode) (block : Block) (stxos : List SpentTxOut) : ChainM Unit := do
  prune cfg node.hash
  modifyDb fun db => { db with
    bestState := node.hash
    spendJournal := db.spendJournal.insert block.hash stxos }
  indexConnectBlock cfg block

def connectBlock (node : BlockNode) (block : Block) (stxos : List SpentTxOut) : ChainM Unit := do
  let s ← get
  require (block.header.prevBlock = s.bestChain.tip.hash)
    (.assert "connectBlock must be called with a block that extends the main chain")
  let numSpent ← Prog.ofExcept (UtxoViewpoint.countSpentOutputs block)
  require (stxos.length = numSpent)
    (.assert "connectBlock called with inconsistent spent transaction out information")
  flushToDB
  dbUpdate (connectBlockTx cfg node block stxos)
  setTip node
  dbUpdate (flush cfg .ifNeeded node.hash)

/-- The transaction of `disconnectBlock`.  The cache is flushed first, since the view is written
past it. -/
def disconnectBlockTx (prevNode : BlockNode) (block : Block) (v : UtxoViewpoint) : ChainM Unit := do
  modifyDb fun db => { db with bestState := prevNode.hash }
  flush cfg .required prevNode.hash
  modifyDb fun db => { db with utxoSet := v.dbPutUtxoView db.utxoSet }
  let stxos ← dbFetchSpendJournalEntry block
  modifyDb fun db => { db with spendJournal := db.spendJournal.erase block.hash }
  indexDisconnectBlock cfg block stxos

/-- The view it leaves. -/
def disconnectBlock (node : BlockNode) (block : Block) (v : UtxoViewpoint) :
    ChainM UtxoViewpoint := do
  let s ← get
  require (node.hash = s.bestChain.tip.hash)
    (.assert "disconnectBlock must be called with the block at the end of the main chain")
  match s.bestChain.below with
  | [] => throw (.panic "runtime error: invalid memory address or nil pointer dereference")
  | prevNode :: below => do
    let _ ← dbFetchBlockByNode prevNode
    flushToDB
    dbUpdate (disconnectBlockTx cfg prevNode block v)
    modify fun s => { s with bestChain := ⟨prevNode, below⟩ }
    pure v.commit

/-! ## Reorganization -/

/-- The first of the node and its ancestors that is on the best chain. -/
def findFork (s : BlockChain) (branch : List BlockNode) : Option BlockNode :=
  branch.find? fun n => s.bestChain.nodes.contains n

/-- The nodes to detach, tip first, and those to attach, oldest first.  The
lists are empty if the branch is known to be invalid, in which case its nodes up to the invalid one
are marked. -/
def getReorganizeNodes (node : BlockNode) (ancestors : List BlockNode) :
    ChainM (List BlockNode × List BlockNode) := do
  let s ← get
  if (s.status node.parent).knownInvalid then do
    setStatusFlags node.hash { invalidAncestor := true }
    pure ([], [])
  else
    let forkNode := s.findFork (node :: ancestors)
    let branch := (node :: ancestors).takeWhile fun n => some n != forkNode
    let marked := branch.takeWhile fun n => !(s.status n.hash).knownInvalid
    if marked.length < branch.length then do
      marked.reverse.forM fun n => setStatusFlags n.hash { invalidAncestor := true }
      pure ([], [])
    else
      pure (s.bestChain.nodes.takeWhile fun n => some n != forkNode, branch.reverse)

/-- The loop of `verifyReorganizationValidity` over the nodes to detach: the view without them, and
their blocks with what they spent. -/
def verifyDetach : UtxoViewpoint → List BlockNode →
    ChainM (UtxoViewpoint × List (Block × List SpentTxOut))
  | v, [] => pure (v, [])
  | v, n :: ns => do
    let block ← dbFetchBlockByNode n
    require (n.hash = block.hash)
      (.assert ("detach block node hash " ++ n.hash.string ++ " (height " ++ toString n.height ++
        ") does not match previous parent block hash " ++ block.hash.string))
    let v ← fetchInputUtxos v block
    let stxos ← dbFetchSpendJournalEntry block
    let s ← get
    let r ← Prog.ofExcept (v.disconnectTransactions s.db.utxoSet block stxos)
    let rest ← verifyDetach r.1 ns
    pure (rest.1, (block, r.2) :: rest.2)

/-- A rule that a block to attach breaks makes it invalid, and what follows it. -/
def markInvalid (n : BlockNode) (ns : List BlockNode) (e : GoError) : ChainM Unit :=
  if e.isRule then do
    setStatusFlags n.hash { validateFailed := true }
    ns.forM fun dn => setStatusFlags dn.hash { invalidAncestor := true }
  else pure ()

/-- A block to attach: the view with it.  One that is known to be valid is not checked again. -/
def verifyNode (v : UtxoViewpoint) (n : BlockNode) (block : Block) (ns : List BlockNode) :
    ChainM UtxoViewpoint := do
  let s ← get
  if (s.status n.hash).knownValid then do
    let v ← fetchInputUtxos v block
    let r ← Prog.ofExcept (v.connectTransactions block)
    pure r.1
  else do
    let r ← onError (checkConnectBlock cfg n block v) (markInvalid n ns)
    setStatusFlags n.hash { valid := true }
    pure r.1

/-- The loop of `verifyReorganizationValidity` over the nodes to attach: their blocks. -/
def verifyAttach : UtxoViewpoint → List BlockNode → ChainM (List Block)
  | _, [] => pure []
  | v, n :: ns => do
    let block ← dbFetchBlockByNode n
    let v ← verifyNode cfg v n block ns
    let blocks ← verifyAttach v ns
    pure (block :: blocks)

/-- The blocks to detach with what they spent, and those to attach. -/
def verifyReorganizationValidity (detachNodes attachNodes : List BlockNode) :
    ChainM (List (Block × List SpentTxOut) × List Block) := do
  let s ← get
  let tip := s.bestChain.tip
  require (∀ n ∈ detachNodes.head?, n.hash = tip.hash)
    (.assert ("reorganize nodes to detach are not for the current best chain -- first detach node " ++
      ((detachNodes.head?.map fun n => n.hash.string).getD "") ++ ", current chain " ++
      tip.hash.string))
  require (∀ a ∈ attachNodes.head?, ∀ d ∈ detachNodes.getLast?, a.parent = d.parent)
    (.assert ("reorganize nodes do not have the same fork point -- first attach parent " ++
      ((attachNodes.head?.map fun n => n.parent.string).getD "") ++ ", last detach parent " ++
      ((detachNodes.getLast?.map fun n => n.parent.string).getD "")))
  let r ← verifyDetach (viewAt tip.hash) detachNodes
  let attachBlocks ← verifyAttach cfg r.1 attachNodes
  pure (r.2, attachBlocks)

/-- The loop of `reorganizeChain` that disconnects. -/
def detachBlocks : UtxoViewpoint → List (BlockNode × Block × List SpentTxOut) → ChainM Unit
  | _, [] => pure ()
  | v, (n, block, stxos) :: rest => do
    let v ← fetchInputUtxos v block
    let s ← get
    let r ← Prog.ofExcept (v.disconnectTransactions s.db.utxoSet block stxos)
    let v ← disconnectBlock cfg n block r.1
    detachBlocks v rest

/-- A block that breaks a rule is marked. -/
def markFailed (node : BlockNode) (e : GoError) : ChainM Unit :=
  if e.isRule then setStatusFlags node.hash { validateFailed := true } else pure ()

/-- One block that `reorganizeChain` connects. -/
def attachBlock (n : BlockNode) (block : Block) : ChainM Unit := do
  onError (checkPrefix cfg n block) (markFailed n)
  let stxos ← connectTransactions block
  connectBlock cfg n block stxos

/-- The loop of `reorganizeChain` that connects. -/
def attachBlocks : List (BlockNode × Block) → ChainM Unit
  | [] => pure ()
  | (n, block) :: rest => do
    attachBlock cfg n block
    attachBlocks rest

def reorganizeChain (detachNodes attachNodes : List BlockNode) : ChainM Unit := do
  let blocks ← verifyReorganizationValidity cfg detachNodes attachNodes
  let s ← get
  detachBlocks cfg (viewAt s.bestChain.tip.hash) (detachNodes.zip blocks.1)
  attachBlocks cfg (attachNodes.zip blocks.2)

/-! ## A new block -/

/-- A block that breaks a rule is marked, and the mark is written. -/
def failTip (node : BlockNode) (e : GoError) : ChainM Unit :=
  if e.isRule then do
    setStatusFlags node.hash { validateFailed := true }
    flushToDB
  else pure ()

/-- The check of a block that extends the best chain, unless it is skipped. -/
def validateTip (node : BlockNode) (block : Block) (skip : Bool) : ChainM Unit :=
  if skip then pure ()
  else do
    let _ ← onError (checkConnectBlock cfg node block (viewAt block.header.prevBlock))
      (failTip node)
    setStatusFlags node.hash { valid := true }
    flushToDB

/-- The status of a block that has been connected, if it is not there yet. -/
def markConnected (node : BlockNode) (fastAdd : Bool) : ChainM Unit := do
  let s ← get
  if fastAdd || !(s.status node.hash).knownValid then do
    setStatusFlags node.hash { valid := true }
    flushToDB
  else pure ()

/-- The part of `connectBestChain` for a block that extends the best chain. -/
def extendBestChain (node : BlockNode) (block : Block) (fastAdd : Bool) : ChainM Unit := do
  let s ← get
  let fastAdd := fastAdd || (s.status node.hash).knownValid
  validateTip cfg node block fastAdd
  onError (checkPrefix cfg node block) (failTip node)
  let stxos ← connectTransactions block
  onError (connectBlock cfg node block stxos) fun e => do
    markFailed node e
    flushToDB
  markConnected node fastAdd

/-- The part of `connectBestChain` for a side chain with more work than the best chain. -/
def reorganizeTo (node : BlockNode) (ancestors : List BlockNode) : ChainM Unit := do
  let nodes ← getReorganizeNodes node ancestors
  onError (reorganizeChain cfg nodes.1 nodes.2) fun _ => flushToDB
  flushToDB

/-- Is the block on the best chain now? -/
def connectBestChain (node : BlockNode) (ancestors : List BlockNode) (block : Block)
    (fastAdd : Bool) : ChainM Bool := do
  let s ← get
  if block.header.prevBlock = s.bestChain.tip.hash then do
    extendBestChain cfg node block fastAdd
    pure true
  else if cfg.workSum node.hash ≤ cfg.workSum s.bestChain.tip.hash then pure false
  else do
    reorganizeTo cfg node ancestors
    pure true

end BlockChain

end Obtcd
