import Obtcd.Blockchain.Difficulty
import Obtcd.Blockchain.Frame
import Obtcd.Blockchain.Sanity

/-!
# Blocks that arrive, are invalidated and are reconsidered

The calls that move the best chain: `ProcessBlock` of `process.go` and `accept.go`, and the two calls
of `chain.go` by which an operator overrules the node, `InvalidateBlock` and `ReconsiderBlock`.  They
decide which block is to be the tip and leave the rest to `Chain.lean`.

A `BlockTree` is a `BlockChain` with what only these calls use: the work that each node of the block
index has accumulated, and the blocks that wait for their parents.  The checks of a header that need
its ancestors, the clock or the checkpoints are parameters (`ArrivalRules`): they read and refuse.

The order in which Go walks a map is not determined.  `InactiveTips` walks one, so the two calls that
use it take a `MapOrder`.
-/

namespace Obtcd

namespace BlockStatus

/-- The flags of `s` that are not in `flags`. -/
def without (s flags : BlockStatus) : BlockStatus :=
  ⟨s.valid && !flags.valid, s.validateFailed && !flags.validateFailed,
    s.invalidAncestor && !flags.invalidAncestor⟩

end BlockStatus

namespace BlockChain

open Prog (require onError attempt)

/-! ## The block index -/

/-- The parent pointer of a node, nil at the genesis block. -/
def parentNode (s : BlockChain) (n : BlockNode) : Option BlockNode :=
  if n.height = 0 then none else s.index[n.parent]?

/-- A node and the nodes its parent pointers lead to, for a number of steps. -/
def climb (s : BlockChain) : Nat → BlockNode → List BlockNode
  | 0, n => [n]
  | steps + 1, n =>
    n :: match s.parentNode n with
      | none => []
      | some p => climb s steps p

/-- A node and all its ancestors.  A node at height `h` has at most `h` of them. -/
def branch (s : BlockChain) (n : BlockNode) : List BlockNode := s.climb n.height.toNatClampNeg n

/-- The node at a height, at or below `n`. -/
def ancestor (s : BlockChain) (n : BlockNode) (height : Int32) : Option BlockNode :=
  if height < 0 || height > n.height then none
  else (s.branch n).find? fun a => a.height == height

/-- Is `other` an ancestor of `n`? -/
def isAncestor (s : BlockChain) (n other : BlockNode) : Bool :=
  match s.ancestor n other.height with
  | none => false
  | some a => n.height != a.height && a == other

/-- The nodes of the index that are not on the best chain. -/
def inactive (s : BlockChain) : List BlockNode :=
  (s.index.toList.map Prod.snd).filter fun n => !s.bestChain.nodes.contains n

/-- Those to which no other one points. -/
def inactiveTips (s : BlockChain) : List BlockNode :=
  s.inactive.filter fun n => !s.inactive.any fun m => m.parent == n.hash

/-- The order in which a map is walked. -/
structure MapOrder where
  order : List BlockNode → List BlockNode
  perm : ∀ l, (order l).Perm l

def unsetStatusFlags (hash : Hash) (flags : BlockStatus) : ChainM Unit :=
  modify fun s => { s with nodeStatus := s.nodeStatus.insert hash ((s.status hash).without flags) }

variable (cfg : Config)

/-! ## `InvalidateBlock` -/

/-- A descendant of a block that is being invalidated, unless it is invalid already. -/
def invalidateDescendant (n : BlockNode) : ChainM Unit := do
  let s ← get
  if (s.status n.hash).knownInvalid then pure ()
  else do
    setStatusFlags n.hash { invalidAncestor := true }
    unsetStatusFlags n.hash { valid := true }

/-- The descendants of a block on a side chain. -/
def invalidateSide (node : BlockNode) (tips : List BlockNode) : ChainM Unit :=
  tips.forM fun tip => do
    let s ← get
    if s.isAncestor tip node then
      ((s.branch tip).takeWhile fun n => n != node).forM invalidateDescendant
    else pure ()

/-- The descendants of a block on the best chain that are on it too, tip first: those that were not
invalid before. -/
def invalidateActive : List BlockNode → ChainM (List BlockNode)
  | [] => pure []
  | n :: ns => do
    let s ← get
    if (s.status n.hash).knownInvalid then invalidateActive ns
    else do
      setStatusFlags n.hash { invalidAncestor := true }
      unsetStatusFlags n.hash { valid := true }
      let rest ← invalidateActive ns
      pure (n :: rest)

/-- The first tip with the most work of those that are not known to be invalid. -/
def bestTip (s : BlockChain) (tips : List BlockNode) : Option BlockNode :=
  tips.foldl (fun best tip =>
    if (s.status tip.hash).knownInvalid then best
    else match best with
      | none => some tip
      | some b => if cfg.workSum tip.hash > cfg.workSum b.hash then some tip else some b) none

def nilPointer : GoError := .panic "runtime error: invalid memory address or nil pointer dereference"

/-- The end of `InvalidateBlock`: go to the best tip that is left. -/
def reorganizeToBestTip (o : MapOrder) : ChainM Unit := do
  let s ← get
  match s.bestTip cfg (o.order s.inactiveTips ++ [s.bestChain.tip]) with
  | none => throw nilPointer
  | some tip =>
    if tip = s.bestChain.tip then pure ()
    else reorganizeTo cfg tip (s.branch tip).tail

def invalidateBlock (o : MapOrder) (hash : Hash) : ChainM Unit := do
  let s ← get
  match s.index[hash]? with
  | none => throw (.other ("Requested block hash of " ++ hash.string ++
      " is not found and thus cannot be invalidated."))
  | some node =>
    if node.height = 0 then throw (.other ("Requested block hash of " ++ node.hash.string ++
      " is a at height 0 and is thus a genesis block and cannot be invalidated."))
    else if (s.status node.hash).knownInvalid then pure ()
    else do
      setStatusFlags node.hash { validateFailed := true }
      unsetStatusFlags node.hash { valid := true }
      if s.bestChain.nodes.contains node then do
        let detachNodes ← invalidateActive (s.bestChain.nodes.takeWhile fun n => n != node)
        reorganizeChain cfg (detachNodes ++ [node]) []
        flushToDB
        reorganizeToBestTip cfg o
      else do
        invalidateSide node (o.order s.inactiveTips)
        flushToDB

/-! ## `ReconsiderBlock` -/

/-- Clear the mark of the descendants of a node, tip by tip.  The last tip that is the node or
descends from it is returned. -/
def reconsiderTips (node : BlockNode) : Option BlockNode → List BlockNode →
    ChainM (Option BlockNode)
  | reconsiderTip, [] => pure reconsiderTip
  | reconsiderTip, tip :: tips => do
    let s ← get
    if s.isAncestor tip node then do
      ((s.branch tip).takeWhile fun n => n != node).forM fun n =>
        unsetStatusFlags n.hash { invalidAncestor := true }
      reconsiderTips node (some tip) tips
    else if tip = node then reconsiderTips node (some node) tips
    else reconsiderTips node reconsiderTip tips

/-- The end of `ReconsiderBlock`: go to a tip, if it is valid and has more work. -/
def reorganizeIfValid (tip : BlockNode) : ChainM Unit := do
  let s ← get
  if cfg.workSum tip.hash ≤ cfg.workSum s.bestChain.tip.hash then pure ()
  else do
    let nodes ← getReorganizeNodes tip (s.branch tip).tail
    let verified ← attempt (verifyReorganizationValidity cfg nodes.1 nodes.2)
    match verified with
    | .error (.panic text) => throw (.panic text)
    | .error _ => flushToDB
    | .ok _ => do
      flushToDB
      reorganizeChain cfg nodes.1 nodes.2

def reconsiderBlock (o : MapOrder) (hash : Hash) : ChainM Unit := do
  let s ← get
  match s.index[hash]? with
  | none => throw (.other ("requested block hash of " ++ hash.string ++
      " is not found and thus cannot be reconsidered"))
  | some node =>
    if (s.status node.hash).knownValid then pure ()
    else do
      unsetStatusFlags node.hash { invalidAncestor := true }
      unsetStatusFlags node.hash { validateFailed := true }
      let reconsiderTip ← reconsiderTips node none (o.order s.inactiveTips ++ [s.bestChain.tip])
      match reconsiderTip with
      | none => throw nilPointer
      | some tip => reorganizeIfValid cfg tip

end BlockChain

/-! ## `ProcessBlock` -/

structure BehaviorFlags where
  fastAdd : Bool := false
  noPoWCheck : Bool := false
deriving DecidableEq

/-- The checks of a header that are not modelled. -/
structure ArrivalRules where
  /-- `CheckBlockHeaderSanity`, with the clock as it is. -/
  checkBlockHeaderSanity : BehaviorFlags → BlockHeader → Except GoError Unit
  /-- `CheckBlockHeaderContext`, after a node of the index. -/
  checkBlockHeaderContext :
    BlockChain → BlockNode → BehaviorFlags → BlockHeader → Except GoError Unit
  /-- The comparison with the latest checkpoint. -/
  checkCheckpoint : BlockChain → BehaviorFlags → BlockHeader → Except GoError Unit

/-- A chain with what only the arrival of blocks uses. -/
structure BlockTree where
  chain : BlockChain
  /-- The `workSum` of each node of the index. -/
  workSum : OrdMap Hash Nat
  /-- `orphans` and `prevOrphans`: the blocks whose parents are missing, in the order in which they
  came; `OrphanPool.Lists` says how the maps of the source belong to it. -/
  orphans : List Block

abbrev TreeM := Prog BlockTree GoError

namespace BlockTree

open Prog (require focus)

/-- The accumulated work of a node. -/
def work (t : BlockTree) (hash : Hash) : Nat := (t.workSum[hash]?).getD 0

/-- The configuration, with the work of the nodes there are. -/
def config (t : BlockTree) (cfg : Config) : Config := { cfg with workSum := t.work }

/-- Run a method of the chain. -/
def onChain {α : Type} (x : ChainM α) : TreeM α := focus chain (fun t s => { t with chain := s }) x

variable (rules : ArrivalRules) (cfg : Config)

/-- The rules for a header after a node. -/
def headerRules (s : BlockChain) (prevNode : BlockNode) (flags : BehaviorFlags) : HeaderRules where
  checkBlockHeaderSanity := rules.checkBlockHeaderSanity flags
  checkBlockHeaderContext := rules.checkBlockHeaderContext s prevNode flags

/-- A block is stored, if it is not there yet, and gets a node: `dbStoreBlock`, `newBlockNode` and
`AddNode`. -/
def addNode (t : BlockTree) (block : Block) : BlockTree where
  chain := { t.chain with
    db := { t.chain.db with
      blocks := if (t.chain.db.blocks[block.hash]?).isSome then t.chain.db.blocks
        else t.chain.db.blocks.insert block.hash block }
    index := t.chain.index.insert block.hash (BlockNode.ofBlock block)
    nodeStatus := t.chain.nodeStatus.insert block.hash {} }
  workSum := t.workSum.insert block.hash (calcWork block.header.bits + t.work block.header.prevBlock)
  orphans := t.orphans

/-- Is the block on the best chain now? -/
def maybeAcceptBlock (block : Block) (flags : BehaviorFlags) : TreeM Bool := do
  let t ← get
  match t.chain.index[block.header.prevBlock]? with
  | none => throw (.rule .errPreviousBlockUnknown
      ("previous block " ++ block.header.prevBlock.string ++ " is unknown"))
  | some prevNode => do
    require ((t.chain.status prevNode.hash).knownInvalid = false) (.rule .errInvalidAncestorBlock
      ("previous block " ++ block.header.prevBlock.string ++ " is known to be invalid"))
    let block := { block with height := prevNode.height + 1 }
    Prog.ofExcept (checkBlockContext (headerRules rules t.chain prevNode flags) cfg.consensus block
      prevNode flags.fastAdd)
    modify fun t => t.addNode block
    onChain BlockChain.flushToDB
    let t ← get
    onChain (BlockChain.connectBestChain (t.config cfg) (BlockNode.ofBlock block)
      (t.chain.branch prevNode) block flags.fastAdd)

def removeOrphanBlock (orphan : Block) : TreeM Unit :=
  modify fun t => { t with orphans := t.orphans.filter fun b => b.hash != orphan.hash }

/-- Orphans that have expired, and the oldest one if there are too many, are
dropped. -/
def addOrphanBlock (keep : Block → Bool) (block : Block) : TreeM Unit :=
  modify fun t => { t with orphans := t.orphans.filter keep ++ [block] }

/-- Accept the orphans of some blocks, then their orphans.  Each round takes a hash
off the list or an orphan out of the pool, for which it puts one hash on the list. -/
def processOrphans (flags : BehaviorFlags) : Nat → List Hash → TreeM Unit
  | 0, _ => pure ()
  | _ + 1, [] => pure ()
  | rounds + 1, hash :: processHashes => do
    let t ← get
    match t.orphans.find? fun b => b.header.prevBlock == hash with
    | none => processOrphans flags rounds processHashes
    | some orphan => do
      removeOrphanBlock orphan
      let _ ← maybeAcceptBlock rules cfg orphan flags
      processOrphans flags rounds (hash :: processHashes ++ [orphan.hash])

/-- Is the block on the best chain, and is it an orphan? -/
def processBlock (keep : Block → Bool) (block : Block) (flags : BehaviorFlags) :
    TreeM (Bool × Bool) := do
  let t ← get
  require ((t.chain.index[block.hash]?).isNone) (.rule .errDuplicateBlock
    ("already have block " ++ block.hash.string))
  require (block.hash ∉ t.orphans.map Block.hash) (.rule .errDuplicateBlock
    ("already have block (orphan) " ++ block.hash.string))
  Prog.ofExcept (checkBlockSanity
    (headerRules rules t.chain t.chain.bestChain.tip flags) cfg.consensus.engine block)
  Prog.ofExcept (rules.checkCheckpoint t.chain flags block.header)
  if (t.chain.index[block.header.prevBlock]?).isNone then do
    addOrphanBlock keep block
    pure (false, true)
  else do
    let isMainChain ← maybeAcceptBlock rules cfg block flags
    let t ← get
    processOrphans rules cfg flags (2 * t.orphans.length + 1) [block.hash]
    pure (isMainChain, false)

/-! ## Calls -/

/-- A call from outside. -/
inductive Call where
  | processBlock (keep : Block → Bool) (block : Block) (flags : BehaviorFlags)
  | invalidateBlock (order : BlockChain.MapOrder) (hash : Hash)
  | reconsiderBlock (order : BlockChain.MapOrder) (hash : Hash)

def Call.run : Call → TreeM Unit
  | .processBlock keep block flags => do
    let _ ← BlockTree.processBlock rules cfg keep block flags
    pure ()
  | .invalidateBlock order hash => do
    let t ← get
    onChain (BlockChain.invalidateBlock (t.config cfg) order hash)
  | .reconsiderBlock order hash => do
    let t ← get
    onChain (BlockChain.reconsiderBlock (t.config cfg) order hash)

end BlockTree

end Obtcd
