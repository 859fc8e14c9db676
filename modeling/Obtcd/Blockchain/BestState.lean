import Obtcd.Blockchain.Extend
import Obtcd.Blockchain.Moves
import Obtcd.Lib.Projection

/-!
# The best state record

The database has a record of the best block: its hash and height, the number of transactions up to
it, and the work of the chain that ends in it.  The node keeps the same in memory, in
`stateSnapshot`.  Both are replaced together by `connectBlock` and `disconnectBlock`, the record in
the transaction and the snapshot after it.

A `TrackedChain` is a `BlockChain` with the two, and its calls are those of `Chain.lean` with the
steps that keep the books put back where they belong (`projectsAt_connectBlock`,
`projectsAt_disconnectBlock`).

## What is here

* `Tracks`: hash, height and count are right, in memory and in the database.  They are after every run
  (`tracks_of_run`).
* `disconnectBlock` stores the parent of the block with the work of the block.  So after a block has
  been disconnected, the stored work is too large by what the block adds (`Tracks.disconnectBlock`),
  and it stays so until the next block is connected.
* `stored_of_run`: in runs that disconnect no block with work of its own, the record is right.

The record is kept as what `deserializeBestChainState` makes of its bytes
(`BestChainState.serialize_bind_deserialize`).
-/

namespace Obtcd

open Bytes

/-! ## The record -/

/-- The record in the database. -/
structure BestChainState where
  hash : Hash
  height : UInt32
  totalTxns : UInt64
  workSum : Nat
deriving DecidableEq

namespace BestChainState

/-- The bytes of a number, without leading zeros (`big.Int.Bytes`). -/
def bigBytes (n : Nat) : Bytes := be (Nat.digits 256 n).length n

theorem beNat_bigBytes (n : Nat) : beNat (bigBytes n) = n :=
  beNat_be_of_lt (Nat.lt_base_pow_length_digits (by decide))

/-- What a write beyond the end of a slice of length `n` says. -/
def outOfRange (i n : Nat) : GoError :=
  .panic ("runtime error: index out of range [" ++ toString i ++ "] with length " ++ toString n)

/-- `serializeBestChainState`.  The sum of the lengths is taken in 32 bits. -/
def serialize (state : BestChainState) : Except GoError Bytes :=
  let workSumBytes := bigBytes state.workSum
  let workSumBytesLen := workSumBytes.length % 2 ^ 32
  let serializedLen := (48 + workSumBytesLen) % 2 ^ 32
  if serializedLen < 32 then
    .error (.panic ("runtime error: slice bounds out of range [:32] with capacity " ++
      toString serializedLen))
  else if serializedLen < 36 then .error (outOfRange 3 (serializedLen - 32))
  else if serializedLen < 44 then .error (outOfRange 7 (serializedLen - 36))
  else if serializedLen < 48 then .error (outOfRange 3 (serializedLen - 44))
  else .ok (state.hash.bytes.val ++ (le 4 state.height.toNat ++ (le 8 state.totalTxns.toNat ++
    (le 4 workSumBytesLen ++ workSumBytes.take (serializedLen - 48)))))

def corrupt : GoError := .other "corrupt best chain state"

/-- `deserializeBestChainState`. -/
def deserialize (serializedData : Bytes) : Except GoError BestChainState :=
  if h : serializedData.length < 48 then .error corrupt
  else
    let workSumBytesLen := leNat ((serializedData.drop 44).take 4)
    if (serializedData.drop 48).length % 2 ^ 32 < workSumBytesLen then .error corrupt
    else if (48 + workSumBytesLen) % 2 ^ 32 < 48 then
      .error (.panic ("runtime error: slice bounds out of range [48:" ++
        toString ((48 + workSumBytesLen) % 2 ^ 32) ++ "]"))
    else .ok
      { hash := ⟨⟨serializedData.take 32, by rw [List.length_take]; omega⟩⟩
        height := UInt32.ofNat (leNat ((serializedData.drop 32).take 4))
        totalTxns := UInt64.ofNat (leNat ((serializedData.drop 36).take 8))
        workSum := beNat ((serializedData.drop 48).take workSumBytesLen) }

/-- The record is read back as it was, as long as its length is a number of 32 bits. -/
theorem serialize_bind_deserialize (state : BestChainState)
    (h : (bigBytes state.workSum).length + 48 < 2 ^ 32) :
    state.serialize >>= deserialize = .ok state := by
  obtain ⟨⟨hash, hhash⟩, height, totalTxns, workSum⟩ := state
  dsimp only at h
  have hle (w n : Nat) : (le w n).length = w := length_le w n
  have hmod : (bigBytes workSum).length % 2 ^ 32 = (bigBytes workSum).length := by omega
  have hsum : (48 + (bigBytes workSum).length) % 2 ^ 32 = 48 + (bigBytes workSum).length := by omega
  have hwork : leNat (le 4 (bigBytes workSum).length) = (bigBytes workSum).length :=
    leNat_le_of_lt (by omega)
  have hheight : leNat (le 4 height.toNat) = height.toNat :=
    leNat_le_of_lt height.toNat_lt
  have htotal : leNat (le 8 totalTxns.toNat) = totalTxns.toNat :=
    leNat_le_of_lt totalTxns.toNat_lt
  have hwritten : serialize ⟨⟨⟨hash, hhash⟩⟩, height, totalTxns, workSum⟩ =
      .ok (hash ++ (le 4 height.toNat ++ (le 8 totalTxns.toNat ++
        (le 4 (bigBytes workSum).length ++ bigBytes workSum)))) := by
    rw [serialize]
    dsimp only
    rw [hmod, hsum, if_neg (by omega), if_neg (by omega), if_neg (by omega), if_neg (by omega),
      Nat.add_sub_cancel_left, List.take_length]
  have hlong : ¬ 32 + (4 + (8 + (4 + (bigBytes workSum).length))) < 48 := by omega
  have hfits : ¬ (bigBytes workSum).length % 4294967296 < (bigBytes workSum).length := by omega
  have hroom : ¬ (48 + (bigBytes workSum).length) % 4294967296 < 48 := by omega
  rw [hwritten, ok_bind, deserialize]
  simp [hhash, hle, List.drop_append, hwork, hheight, htotal, hlong, hfits, hroom, beNat_bigBytes,
    List.take_of_length_le, List.drop_of_length_le]

end BestChainState

/-- The snapshot in memory. -/
structure BestState where
  hash : Hash
  height : Int32
  bits : UInt32
  blockSize : UInt64
  blockWeight : UInt64
  numTxns : UInt64
  totalTxns : UInt64
  medianTime : Int

/-- `BlockChain` with its `stateSnapshot` and the best state record of its database. -/
structure TrackedChain where
  chain : BlockChain
  stateSnapshot : BestState
  bestChainState : BestChainState

abbrev TrackedM := Prog TrackedChain GoError

namespace TrackedChain

open Prog (require focus exec ProjectsAt Keeps exec_bind_eq_ok exec_bind_eq_error exec_modify_bind
  exec_get_bind exec_require_bind_eq_ok exec_require_bind_eq_error)

/-! ## Connecting and disconnecting -/

/-- Run a method of the chain. -/
def onChain {α : Type} (x : ChainM α) : TrackedM α := focus chain (fun t s => { t with chain := s }) x

/-- `db.Update`. -/
def dbUpdate {α : Type} (x : TrackedM α) : TrackedM α :=
  Prog.transaction (fun t t' =>
    { t' with
      chain := { t'.chain with db := t.chain.db }
      bestChainState := t.bestChainState }) x

def dbPutBestState (snapshot : BestState) (workSum : Nat) : TrackedM Unit :=
  modify fun t => { t with
    bestChainState := ⟨snapshot.hash, snapshot.height.toUInt32, snapshot.totalTxns, workSum⟩ }

variable (cfg : Config)
  -- the `bits` of the node with this hash
  (bits : Hash → UInt32)

/-- `newBestState`, for a node and its block. -/
def newBestState (node : BlockNode) (block : Block) (totalTxns : UInt64) (medianTime : Int) :
    BestState where
  hash := node.hash
  height := node.height
  bits := bits node.hash
  blockSize := UInt64.ofNat block.serializeSize
  blockWeight := UInt64.ofNat (getBlockWeight block)
  numTxns := UInt64.ofNat block.transactions.length
  totalTxns
  medianTime

/-- The state that `connectBlock` makes. -/
def connectedState (t : TrackedChain) (node : BlockNode) (block : Block) : BestState :=
  newBestState bits node block
    (t.stateSnapshot.totalTxns + UInt64.ofNat block.transactions.length)
    (cfg.consensus.pastMedianTime node.hash)

def connectBlock (node : BlockNode) (block : Block) (stxos : List SpentTxOut) : TrackedM Unit := do
  let t ← get
  require (block.header.prevBlock = t.chain.bestChain.tip.hash)
    (.assert "connectBlock must be called with a block that extends the main chain")
  let numSpent ← Prog.ofExcept (UtxoViewpoint.countSpentOutputs block)
  require (stxos.length = numSpent)
    (.assert "connectBlock called with inconsistent spent transaction out information")
  onChain BlockChain.flushToDB
  dbUpdate do
    onChain (BlockChain.prune cfg node.hash)
    dbPutBestState (t.connectedState cfg bits node block) (cfg.workSum node.hash)
    onChain do
      BlockChain.modifyDb fun db => { db with
        bestState := node.hash
        spendJournal := db.spendJournal.insert block.hash stxos }
      BlockChain.indexConnectBlock cfg block
  onChain (BlockChain.setTip node)
  modify fun t' => { t' with stateSnapshot := t.connectedState cfg bits node block }
  onChain (BlockChain.dbUpdate (BlockChain.flush cfg .ifNeeded node.hash))

/-- The state that `disconnectBlock` makes: that of the parent. -/
def disconnectedState (t : TrackedChain) (prevNode : BlockNode) (prevBlock block : Block) :
    BestState :=
  newBestState bits prevNode prevBlock
    (t.stateSnapshot.totalTxns - UInt64.ofNat block.transactions.length)
    (cfg.consensus.pastMedianTime prevNode.hash)

/-- The view it leaves.  The work that is stored is that of the node that is
disconnected. -/
def disconnectBlock (node : BlockNode) (block : Block) (v : UtxoViewpoint) :
    TrackedM UtxoViewpoint := do
  let t ← get
  require (node.hash = t.chain.bestChain.tip.hash)
    (.assert "disconnectBlock must be called with the block at the end of the main chain")
  match t.chain.bestChain.below with
  | [] => throw (.panic "runtime error: invalid memory address or nil pointer dereference")
  | prevNode :: below => do
    let prevBlock ← onChain (BlockChain.dbFetchBlockByNode prevNode)
    onChain BlockChain.flushToDB
    dbUpdate do
      dbPutBestState (t.disconnectedState cfg bits prevNode prevBlock block) (cfg.workSum node.hash)
      onChain (BlockChain.disconnectBlockTx cfg prevNode block v)
    onChain (modify fun s => { s with bestChain := ⟨prevNode, below⟩ })
    modify fun t' => { t' with
      stateSnapshot := t.disconnectedState cfg bits prevNode prevBlock block }
    pure v.commit

/-- `createChainState`, as far as it is about the best state: the genesis block is the tip. -/
def createChainState (genesis : Block) (chain : BlockChain) : TrackedChain :=
  let node := BlockNode.ofBlock { genesis with height := 0 }
  let state := newBestState bits node genesis (UInt64.ofNat genesis.transactions.length)
    node.timestamp
  { chain := { chain with
      db := { chain.db with bestState := node.hash }
      bestChain := ⟨node, []⟩ }
    stateSnapshot := state
    bestChainState := ⟨node.hash, node.height.toUInt32, state.totalTxns, cfg.workSum node.hash⟩ }

/-! ## The chain under it -/

theorem projectsAt_onChain {α : Type} (x : ChainM α) (t : TrackedChain) :
    ProjectsAt chain (onChain x) x t := .focus (fun _ _ => rfl) x

theorem projectsAt_dbUpdate {α : Type} {x : TrackedM α} {y : ChainM α} {t : TrackedChain}
    (h : ProjectsAt chain x y t) : ProjectsAt chain (dbUpdate x) (BlockChain.dbUpdate y) t :=
  .transaction (fun _ _ => rfl) h

/-- On the chain, `connectBlock` is `BlockChain.connectBlock`. -/
theorem projectsAt_connectBlock (node : BlockNode) (block : Block) (stxos : List SpentTxOut)
    (t : TrackedChain) : ProjectsAt chain (connectBlock cfg bits node block stxos)
      (BlockChain.connectBlock cfg node block stxos) t := by
  refine .get_bind (.bind (.require _ _) fun _ _ _ => .bind (.ofExcept _) fun _ _ _ =>
    .bind (.require _ _) fun _ _ _ => .bind (projectsAt_onChain _ _) fun _ _ _ => .bind ?_
    fun _ _ _ => .bind (projectsAt_onChain _ _) fun _ _ _ => .modify_bind rfl
    (projectsAt_onChain _ _))
  exact projectsAt_dbUpdate (.bind (projectsAt_onChain _ _) fun _ _ _ => .modify_bind rfl
    (projectsAt_onChain _ _))

/-- On the chain, `disconnectBlock` is `BlockChain.disconnectBlock`. -/
theorem projectsAt_disconnectBlock (node : BlockNode) (block : Block) (v : UtxoViewpoint)
    (t : TrackedChain) : ProjectsAt chain (disconnectBlock cfg bits node block v)
      (BlockChain.disconnectBlock cfg node block v) t := by
  refine .get_bind (.bind (.require _ _) fun _ _ _ => ?_)
  cases t.chain.bestChain.below with
  | nil => exact .throw _
  | cons prevNode below =>
    refine .bind (projectsAt_onChain _ _) fun _ _ _ => .bind (projectsAt_onChain _ _) fun _ _ _ =>
      .bind ?_ fun _ _ _ => .bind (projectsAt_onChain _ _) fun _ _ _ => .modify_bind rfl (.pure _)
    exact projectsAt_dbUpdate (.modify_bind rfl (projectsAt_onChain _ _))

/-! ## The books -/

/-- Snapshot and record are the same. -/
structure SameBooks (t t' : TrackedChain) : Prop where
  stateSnapshot : t'.stateSnapshot = t.stateSnapshot
  bestChainState : t'.bestChainState = t.bestChainState

theorem SameBooks.trans {t t₁ t₂ : TrackedChain} (h : SameBooks t t₁) (h' : SameBooks t₁ t₂) :
    SameBooks t t₂ :=
  ⟨h'.stateSnapshot.trans h.stateSnapshot, h'.bestChainState.trans h.bestChainState⟩

variable {cfg bits} {t t' : TrackedChain} {node : BlockNode} {block : Block} {e : GoError}

theorem sameBooks_onChain {α : Type} {x : ChainM α} {r : Except GoError α}
    (h : exec (onChain x) t = (r, t')) : SameBooks t t' := by
  cases h
  exact ⟨rfl, rfl⟩

/-- A program that puts a record, unless it fails, and leaves the snapshot alone. -/
def Puts (record : BestChainState) (x : TrackedM Unit) : Prop :=
  ∀ t r t', exec x t = (r, t') →
    t'.stateSnapshot = t.stateSnapshot ∧ ∀ a, r = .ok a → t'.bestChainState = record

theorem puts_dbPutBestState (state : BestState) (work : Nat) (x : ChainM Unit) :
    Puts ⟨state.hash, state.height.toUInt32, state.totalTxns, work⟩ (do
      dbPutBestState state work
      onChain x) := by
  intro t r t' h
  rw [dbPutBestState, exec_modify_bind] at h
  have hsame := sameBooks_onChain h
  exact ⟨hsame.stateSnapshot, fun _ _ => hsame.bestChainState⟩

theorem Puts.onChain_bind {record : BestChainState} {x : TrackedM Unit} (hx : Puts record x)
    (y : ChainM Unit) : Puts record (do
      onChain y
      x) := by
  intro t r t' h
  rcases hy : exec (onChain y) t with ⟨⟨e⟩ | ⟨⟩, t₁⟩
  all_goals
    have hsame := sameBooks_onChain hy
    rw [Prog.exec_bind, hy] at h
  · cases h
    exact ⟨hsame.stateSnapshot, fun _ ha => nomatch ha⟩
  · obtain ⟨hsnapshot, hrecord⟩ := hx t₁ r t' h
    exact ⟨hsnapshot.trans hsame.stateSnapshot, hrecord⟩

/-- A transaction that puts a record: what happens to the books. -/
theorem Puts.dbUpdate {record : BestChainState} {x : TrackedM Unit} (hx : Puts record x)
    {r : Except GoError Unit} (h : exec (dbUpdate x) t = (r, t')) :
    t'.stateSnapshot = t.stateSnapshot ∧
      t'.bestChainState = if r.isOk then record else t.bestChainState := by
  cases r with
  | ok a =>
    obtain ⟨hsnapshot, hrecord⟩ := hx _ _ _ (Prog.exec_transaction_eq_ok.1 h)
    exact ⟨hsnapshot, hrecord a rfl⟩
  | error e =>
    obtain ⟨t₁, hrun, rfl⟩ := Prog.exec_transaction_eq_error.1 h
    exact ⟨(hx _ _ _ hrun).1, rfl⟩

variable {stxos : List SpentTxOut}

theorem connectBlock_books_ok {a : Unit}
    (h : exec (connectBlock cfg bits node block stxos) t = (.ok a, t')) :
    t'.stateSnapshot = t.connectedState cfg bits node block ∧
      t'.bestChainState = ⟨node.hash, node.height.toUInt32,
        t.stateSnapshot.totalTxns + UInt64.ofNat block.transactions.length,
        cfg.workSum node.hash⟩ := by
  rw [connectBlock, exec_get_bind] at h
  obtain ⟨-, h⟩ := exec_require_bind_eq_ok.1 h
  obtain ⟨count, -, h⟩ := Prog.exec_ofExcept_bind_eq_ok.1 h
  obtain ⟨-, h⟩ := exec_require_bind_eq_ok.1 h
  obtain ⟨⟨⟩, t₁, -, h⟩ := exec_bind_eq_ok.1 h
  obtain ⟨⟨⟩, t₂, h₂, h⟩ := exec_bind_eq_ok.1 h
  obtain ⟨⟨⟩, t₃, h₃, h⟩ := exec_bind_eq_ok.1 h
  rw [exec_modify_bind] at h
  have hsame := sameBooks_onChain h
  have hputs := ((puts_dbPutBestState _ _ _).onChain_bind _).dbUpdate h₂
  exact ⟨hsame.stateSnapshot,
    hsame.bestChainState.trans ((sameBooks_onChain h₃).bestChainState.trans hputs.2)⟩

theorem connectBlock_books_error
    (h : exec (connectBlock cfg bits node block stxos) t = (.error e, t')) : SameBooks t t' := by
  rw [connectBlock, exec_get_bind] at h
  rcases exec_require_bind_eq_error.1 h with ⟨-, -, rfl⟩ | ⟨-, h⟩
  · exact ⟨rfl, rfl⟩
  rcases Prog.exec_ofExcept_bind_eq_error.1 h with ⟨-, rfl⟩ | ⟨count, -, h⟩
  · exact ⟨rfl, rfl⟩
  rcases exec_require_bind_eq_error.1 h with ⟨-, -, rfl⟩ | ⟨-, h⟩
  · exact ⟨rfl, rfl⟩
  rcases exec_bind_eq_error.1 h with h | ⟨⟨⟩, t₁, h₁, h⟩
  · exact sameBooks_onChain h
  rcases exec_bind_eq_error.1 h with h | ⟨⟨⟩, t₂, h₂, h⟩
  · obtain ⟨hsnapshot, hrecord⟩ := ((puts_dbPutBestState _ _ _).onChain_bind _).dbUpdate h
    exact (sameBooks_onChain h₁).trans ⟨hsnapshot, hrecord⟩
  · -- setting the tip and flushing do not fail
    rcases exec_bind_eq_error.1 h with h | ⟨⟨⟩, t₃, -, h⟩
    · cases h
    · rw [exec_modify_bind] at h
      cases h

theorem disconnectBlock_books_ok {v v' : UtxoViewpoint}
    (h : exec (disconnectBlock cfg bits node block v) t = (.ok v', t')) :
    ∃ prevNode prevBlock, t.chain.bestChain.below.head? = some prevNode ∧
      t'.stateSnapshot = t.disconnectedState cfg bits prevNode prevBlock block ∧
      t'.bestChainState = ⟨prevNode.hash, prevNode.height.toUInt32,
        t.stateSnapshot.totalTxns - UInt64.ofNat block.transactions.length,
        cfg.workSum node.hash⟩ := by
  rw [disconnectBlock, exec_get_bind] at h
  obtain ⟨-, h⟩ := exec_require_bind_eq_ok.1 h
  split at h
  · cases h
  rename_i prevNode below hbelow
  obtain ⟨prevBlock, t₁, -, h⟩ := exec_bind_eq_ok.1 h
  obtain ⟨⟨⟩, t₂, -, h⟩ := exec_bind_eq_ok.1 h
  obtain ⟨⟨⟩, t₃, h₃, h⟩ := exec_bind_eq_ok.1 h
  obtain ⟨⟨⟩, t₄, h₄, h⟩ := exec_bind_eq_ok.1 h
  rw [exec_modify_bind] at h
  cases h
  have hputs := (puts_dbPutBestState _ _ _).dbUpdate h₃
  refine ⟨prevNode, prevBlock, by rw [hbelow]; rfl, rfl, ?_⟩
  exact (sameBooks_onChain h₄).bestChainState.trans hputs.2

theorem disconnectBlock_books_error {v : UtxoViewpoint}
    (h : exec (disconnectBlock cfg bits node block v) t = (.error e, t')) : SameBooks t t' := by
  rw [disconnectBlock, exec_get_bind] at h
  rcases exec_require_bind_eq_error.1 h with ⟨-, -, rfl⟩ | ⟨-, h⟩
  · exact ⟨rfl, rfl⟩
  split at h
  · cases h
    exact ⟨rfl, rfl⟩
  rcases exec_bind_eq_error.1 h with h | ⟨prevBlock, t₁, h₁, h⟩
  · exact sameBooks_onChain h
  have hsame := sameBooks_onChain h₁
  rcases exec_bind_eq_error.1 h with h | ⟨⟨⟩, t₂, h₂, h⟩
  · exact hsame.trans (sameBooks_onChain h)
  rcases exec_bind_eq_error.1 h with h | ⟨⟨⟩, t₃, h₃, h⟩
  · obtain ⟨hsnapshot, hrecord⟩ := (puts_dbPutBestState _ _ _).dbUpdate h
    exact hsame.trans ((sameBooks_onChain h₂).trans ⟨hsnapshot, hrecord⟩)
  · rcases exec_bind_eq_error.1 h with h | ⟨⟨⟩, t₄, -, h⟩
    · cases h
    · rw [exec_modify_bind] at h
      cases h

/-! ## Runs -/

/-- The end of the best chain. -/
def tip (t : TrackedChain) : BlockNode := t.chain.bestChain.tip

/-- A call of one of the two methods. -/
inductive Call where
  | connectBlock (node : BlockNode) (block : Block) (stxos : List SpentTxOut)
  | disconnectBlock (node : BlockNode) (block : Block) (v : UtxoViewpoint)

section Runs

variable (cfg bits)
  -- the number of transactions of the block with this hash
  (txCount : Hash → Nat)

/-- The state after a call, whether it succeeds or not. -/
def Call.run : Call → TrackedChain → TrackedChain
  | .connectBlock node block stxos, t =>
    (exec (TrackedChain.connectBlock cfg bits node block stxos) t).2
  | .disconnectBlock node block v, t =>
    (exec (TrackedChain.disconnectBlock cfg bits node block v) t).2

/-- What the callers see to: the block is that of the node, and the node has the work of its parent
and its own. -/
def Call.Promised : Call → Prop
  | .connectBlock node block _ =>
    node.hash = block.hash ∧ block.transactions.length = txCount block.hash ∧
      cfg.workSum node.hash =
        cfg.workSum block.header.prevBlock + BlockTree.calcWork (bits node.hash)
  | .disconnectBlock node block _ =>
    node.hash = block.hash ∧ block.transactions.length = txCount block.hash

/-- No block is disconnected that has work of its own. -/
def Call.Meets (call : Call) : Prop :=
  call.Promised cfg bits txCount ∧ ∀ node block v,
    call = .disconnectBlock node block v → BlockTree.calcWork (bits node.hash) = 0

/-- Hash, height and number of transactions are those of the tip, in memory and in the database. -/
structure Tracks (t : TrackedChain) : Prop where
  hash : t.bestChainState.hash = t.tip.hash
  height : t.bestChainState.height = t.tip.height.toUInt32
  totalTxns : t.bestChainState.totalTxns =
    UInt64.ofNat ((t.chain.bestChain.nodes.map fun n => txCount n.hash).sum)
  snapshot : t.stateSnapshot.hash = t.tip.hash ∧ t.stateSnapshot.height = t.tip.height ∧
    t.stateSnapshot.totalTxns = t.bestChainState.totalTxns
  summed : t.chain.bestChain.nodes.IsChain fun n p =>
    cfg.workSum n.hash = cfg.workSum p.hash + BlockTree.calcWork (bits n.hash)

/-- The record is that of the tip. -/
structure Matches (t : TrackedChain) : Prop extends Tracks cfg bits txCount t where
  workSum : t.bestChainState.workSum = cfg.workSum t.tip.hash

/-- A sequence of calls, from a state whose record is right. -/
inductive Run (condition : Call → Prop) : TrackedChain → Prop where
  | start {t : TrackedChain} (ht : Matches cfg bits txCount t) : Run condition t
  | call {t : TrackedChain} (call : Call) (hrun : Run condition t) (hcall : condition call) :
      Run condition (call.run cfg bits t)

/-- A new database has the record of the genesis block. -/
theorem matches_createChainState {genesis : Block} (chain : BlockChain)
    (h : genesis.transactions.length = txCount genesis.hash) :
    Matches cfg bits txCount (createChainState cfg bits genesis chain) where
  hash := rfl
  height := rfl
  totalTxns := by
    have hnodes : (createChainState cfg bits genesis chain).chain.bestChain.nodes.map
        (fun n => txCount n.hash) = [txCount genesis.hash] := rfl
    rw [hnodes, List.sum_singleton, ← h]
    rfl
  snapshot := ⟨rfl, rfl, rfl⟩
  summed := .singleton _
  workSum := rfl

variable {cfg bits txCount}

/-- A call that fails leaves the books and the tip. -/
theorem Tracks.of_same (ht : Tracks cfg bits txCount t) (h : SameBooks t t')
    (hchain : t'.chain.bestChain = t.chain.bestChain) : Tracks cfg bits txCount t' := by
  obtain ⟨hhash, hheight, htotal, hsnapshot, hsummed⟩ := ht
  rw [← h.bestChainState, tip, ← hchain] at hhash hheight
  rw [← h.bestChainState, ← hchain] at htotal
  rw [← h.bestChainState, ← h.stateSnapshot, tip, ← hchain] at hsnapshot
  rw [← hchain] at hsummed
  exact ⟨hhash, hheight, htotal, hsnapshot, hsummed⟩

theorem Matches.of_same (hm : Matches cfg bits txCount t) (h : SameBooks t t')
    (hchain : t'.chain.bestChain = t.chain.bestChain) : Matches cfg bits txCount t' := by
  refine ⟨hm.toTracks.of_same h hchain, ?_⟩
  rw [h.bestChainState, hm.workSum, tip, tip, hchain]

/-- A block that is connected becomes the record. -/
theorem Tracks.connectBlock (ht : Tracks cfg bits txCount t) {a : Unit}
    (hp : (Call.connectBlock node block stxos).Promised cfg bits txCount)
    (h : exec (connectBlock cfg bits node block stxos) t = (.ok a, t')) :
    Matches cfg bits txCount t' := by
  obtain ⟨hhash, hcount, hwork⟩ := hp
  obtain ⟨hprev, hstill⟩ :=
    BlockChain.connectBlock_ok ((projectsAt_connectBlock cfg bits node block stxos t).exec_eq h)
  have hchain : t'.chain.bestChain = ⟨node, t.chain.bestChain.nodes⟩ := hstill.bestChain
  obtain ⟨hsnapshot, hrecord⟩ := connectBlock_books_ok h
  have htip : t'.tip = node := by rw [tip, hchain]
  refine ⟨⟨?_, ?_, ?_, ⟨?_, ?_, ?_⟩, ?_⟩, ?_⟩
  · rw [hrecord, htip]
  · rw [hrecord, htip]
  · have hnodes : t'.chain.bestChain.nodes = node :: t.chain.bestChain.nodes := by
      rw [hchain, ChainView.nodes]
    rw [hrecord, hnodes, List.map_cons, List.sum_cons, hhash, ← hcount, UInt64.ofNat_add,
      ht.snapshot.2.2, ht.totalTxns, UInt64.add_comm]
  · rw [hsnapshot, htip]
    rfl
  · rw [hsnapshot, htip]
    rfl
  · rw [hsnapshot, hrecord]
    rfl
  · rw [hchain]
    refine List.IsChain.cons_cons ?_ ht.summed
    rw [hwork, hprev]
  · rw [hrecord, htip]

/-- A block that is disconnected leaves its work behind: the record is that of the parent, but the
work is too large by that of the block. -/
theorem Tracks.disconnectBlock (ht : Tracks cfg bits txCount t) {v v' : UtxoViewpoint}
    (hp : (Call.disconnectBlock node block v).Promised cfg bits txCount)
    (h : exec (disconnectBlock cfg bits node block v) t = (.ok v', t')) :
    Tracks cfg bits txCount t' ∧ t'.bestChainState.workSum =
      cfg.workSum t'.tip.hash + BlockTree.calcWork (bits node.hash) := by
  obtain ⟨hhash, hcount⟩ := hp
  obtain ⟨htip, p, below, hbelow, hstill⟩ :=
    BlockChain.disconnectBlock_ok ((projectsAt_disconnectBlock cfg bits node block v t).exec_eq h)
  have hchain : t'.chain.bestChain = ⟨p, below⟩ := hstill.bestChain
  obtain ⟨p', prevBlock, hp', hsnapshot, hrecord⟩ := disconnectBlock_books_ok h
  obtain rfl : p = p' := by
    rw [hbelow] at hp'
    exact Option.some.inj hp'
  have hnodes : t.chain.bestChain.nodes = t.chain.bestChain.tip :: p :: below := by
    rw [ChainView.nodes, hbelow]
  have hnodes' : t'.chain.bestChain.nodes = p :: below := by rw [hchain, ChainView.nodes]
  have htip' : t'.tip = p := by rw [tip, hchain]
  have hsummed := ht.summed
  rw [hnodes, List.isChain_cons_cons] at hsummed
  refine ⟨⟨?_, ?_, ?_, ⟨?_, ?_, ?_⟩, ?_⟩, ?_⟩
  · rw [hrecord, htip']
  · rw [hrecord, htip']
  · rw [hrecord, hnodes', ht.snapshot.2.2, ht.totalTxns, hnodes, List.map_cons, List.sum_cons,
      ← htip, hhash, ← hcount, UInt64.ofNat_add, UInt64.add_comm, UInt64.add_sub_cancel]
  · rw [hsnapshot, htip']
    rfl
  · rw [hsnapshot, htip']
    rfl
  · rw [hsnapshot, hrecord]
    rfl
  · rw [hnodes']
    exact hsummed.2
  · rw [hrecord, htip', htip, hsummed.1]

/-- What a call does to the record: hash, height and count stay right, and so does the work, unless
a block with work is disconnected. -/
theorem Tracks.run (ht : Tracks cfg bits txCount t) {call : Call}
    (hp : call.Promised cfg bits txCount) :
    Tracks cfg bits txCount (call.run cfg bits t) ∧
      (call.Meets cfg bits txCount → Matches cfg bits txCount t →
        Matches cfg bits txCount (call.run cfg bits t)) := by
  cases call with
  | connectBlock node block stxos =>
    rw [Call.run]
    rcases hrun : exec (TrackedChain.connectBlock cfg bits node block stxos) t with ⟨e | a, t'⟩
    · have hsame := connectBlock_books_error hrun
      have hchain := (BlockChain.connectBlock_error
        ((projectsAt_connectBlock cfg bits node block stxos t).exec_eq hrun)).bestChain
      exact ⟨ht.of_same hsame hchain, fun _ hm => hm.of_same hsame hchain⟩
    · have hm := ht.connectBlock hp hrun
      exact ⟨hm.toTracks, fun _ _ => hm⟩
  | disconnectBlock node block v =>
    rw [Call.run]
    rcases hrun : exec (TrackedChain.disconnectBlock cfg bits node block v) t with ⟨e | v', t'⟩
    · have hsame := disconnectBlock_books_error hrun
      have hchain := (BlockChain.disconnectBlock_error
        ((projectsAt_disconnectBlock cfg bits node block v t).exec_eq hrun)).bestChain
      exact ⟨ht.of_same hsame hchain, fun _ hm => hm.of_same hsame hchain⟩
    · obtain ⟨ht', hwork⟩ := ht.disconnectBlock hp hrun
      refine ⟨ht', fun hmeets _ => ⟨ht', ?_⟩⟩
      rw [hwork, hmeets.2 node block v rfl, Nat.add_zero]

/-- **The stored best state is that of the tip**, after every run that disconnects no block with work
of its own. -/
theorem stored_of_run (hrun : Run cfg bits txCount (Call.Meets cfg bits txCount) t) :
    Matches cfg bits txCount t := by
  induction hrun with
  | start ht => exact ht
  | call call _ hcall ih => exact (ih.toTracks.run hcall.1).2 hcall ih

/-- **What a restart reads**, after every run: the hash, the height and the count of the tip. -/
theorem tracks_of_run (hrun : Run cfg bits txCount (Call.Promised cfg bits txCount) t)
    (hlen : (BestChainState.bigBytes t.bestChainState.workSum).length + 48 < 2 ^ 32) :
    ∃ state, t.bestChainState.serialize >>= BestChainState.deserialize = .ok state ∧
      state.hash = t.tip.hash ∧ state.height = t.tip.height.toUInt32 ∧
      state.totalTxns =
        UInt64.ofNat ((t.chain.bestChain.nodes.map fun n => txCount n.hash).sum) := by
  have htracks : Tracks cfg bits txCount t := by
    clear hlen
    induction hrun with
    | start ht => exact ht.toTracks
    | call call _ hcall ih => exact (ih.run hcall).1
  exact ⟨_, BestChainState.serialize_bind_deserialize _ hlen, htracks.hash, htracks.height,
    htracks.totalTxns⟩

end Runs

namespace Sample

open BlockChain.Regtest (parent coinbaseBlock)

/-- The first block. -/
def next : Block := coinbaseBlock parent.hash 1 [Txscript.opReturn]

/-- Every node has work 2. -/
def easyBits : Hash → UInt32 := fun _ => 0x207fffff

/-- A node without indexes. -/
def config : Config :=
  { BlockChain.Regtest.config with
    indexManager := false
    workSum := fun h => if h = next.hash then 4 else 2 }

def txCount : Hash → Nat := fun _ => 1

/-- A new database. -/
def start : TrackedChain := createChainState config easyBits parent BlockChain.Regtest.chain

theorem matches_start : Matches config easyBits txCount start :=
  matches_createChainState config easyBits txCount BlockChain.Regtest.chain rfl

def connect : Call := .connectBlock (BlockNode.ofBlock next) next []

theorem promised_connect : connect.Promised config easyBits txCount :=
  ⟨rfl, rfl, by decide +kernel⟩

def disconnect : Call := .disconnectBlock (BlockNode.ofBlock next) next .new

end Sample

open Sample

theorem stored_of_run_connect :
    Matches config easyBits txCount (connect.run config easyBits start) := by
  refine stored_of_run (.call connect (.start matches_start) ⟨promised_connect, ?_⟩)
  intro node block v h
  cases h

/-- After a block has been connected and disconnected, the record of the genesis block has the work of
both blocks. -/
theorem stored_of_run_fails : ∃ t, Run config easyBits txCount
      (Call.Promised config easyBits txCount) t ∧
    ¬ Matches config easyBits txCount t := by
  refine ⟨_, .call disconnect (.call connect (.start matches_start)
    promised_connect) ⟨rfl, rfl⟩, fun h => absurd h.workSum ?_⟩
  decide +kernel

theorem tracks_of_run_disconnect :
    ∃ state, (disconnect.run config easyBits
          (connect.run config easyBits start)).bestChainState.serialize >>=
        BestChainState.deserialize = .ok state ∧ state.hash = BlockChain.Regtest.parent.hash := by
  obtain ⟨state, hread, hhash, -⟩ := tracks_of_run (.call disconnect
    (.call connect (.start matches_start) promised_connect) ⟨rfl, rfl⟩) (by decide +kernel)
  exact ⟨state, hread, hhash.trans (by decide +kernel)⟩

end TrackedChain

end Obtcd
