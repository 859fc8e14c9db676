import Obtcd.Blockchain.Merkle
import Obtcd.Blockchain.Validate
import Obtcd.Txscript.Standard

/-!
# Blocks before they are connected

The checks of `validate.go` that come before `checkConnectBlock`: `checkBlockSanity`, which needs
no chain, and `checkBlockContext`, which needs the block before.  `CheckConnectBlockTemplate` puts
them in front of `checkConnectBlock` for a block that a miner is about to work on.

The checks of the header (`CheckBlockHeaderSanity` and `CheckBlockHeaderContext`) come as a record,
`HeaderRules`: they read nothing of the transactions.

`checkConnectBlockTemplate_ok` says what it means for a template to pass.
-/

namespace Obtcd

open Chaincfg (Params)

/-- What the checks of a header say, for a block after the best tip. -/
structure HeaderRules where
  /-- `CheckBlockHeaderSanity`. -/
  checkBlockHeaderSanity : BlockHeader → Except GoError Unit
  /-- `CheckBlockHeaderContext`. -/
  checkBlockHeaderContext : BlockHeader → Except GoError Unit

/-! ## Sanity -/

/-- The number of transactions and the size of the block. -/
def checkBlockSize (block : Block) : Except GoError Unit :=
  let numTx := block.transactions.length
  let serializedSize := block.serializeSizeStripped
  if numTx = 0 then
    .error (.rule .errNoTransactions "block does not contain any transactions")
  else if numTx > maxBlockBaseSize then
    .error (.rule .errBlockTooBig
      ("block contains too many transactions - got " ++ toString numTx ++ ", max " ++
        toString maxBlockBaseSize))
  else if serializedSize > maxBlockBaseSize then
    .error (.rule .errBlockTooBig
      ("serialized block is too big - got " ++ toString serializedSize ++ ", max " ++
        toString maxBlockBaseSize))
  else .ok ()

/-- The first transaction and no other is a coinbase. -/
def checkCoinbases (transactions : List MsgTx) : Except GoError Unit :=
  match transactions with
  | [] => .error (.panic "runtime error: index out of range [0] with length 0")
  | coinbase :: txs =>
    if !isCoinBaseTx coinbase then
      .error (.rule .errFirstTxNotCoinbase "first transaction in block is not a coinbase")
    else
      match txs.findIdx? isCoinBaseTx with
      | some i =>
        .error (.rule .errMultipleCoinbases
          ("block contains second coinbase at index " ++ toString (i + 1)))
      | none => .ok ()

/-- The loop of `checkBlockSanity` over the transactions. -/
def checkTransactionsSanity : List MsgTx → Except GoError Unit
  | [] => .ok ()
  | tx :: txs => do
    checkTransactionSanity tx
    checkTransactionsSanity txs

/-- The merkle root of the header is that of the transactions. -/
def checkMerkleRoot (block : Block) : Except GoError Unit :=
  let calculated := calcMerkleRoot block.transactions false
  if block.header.merkleRoot ≠ calculated then
    .error (.rule .errBadMerkleRoot
      ("block merkle root is invalid - block header indicates " ++
        block.header.merkleRoot.string ++ ", but calculated value is " ++ calculated.string))
  else .ok ()

/-- No two transactions have the same hash. -/
def checkDuplicateTxs : List Hash → List MsgTx → Except GoError Unit
  | _, [] => .ok ()
  | existing, tx :: txs =>
    if tx.txHash ∈ existing then
      .error (.rule .errDuplicateTx ("block contains duplicate transaction " ++ tx.txHash.string))
    else checkDuplicateTxs (tx.txHash :: existing) txs

/-- The loop of `checkBlockSanity` over the signature operations. -/
def checkSigOps (engine : ScriptEngine) : Nat → List MsgTx → Except GoError Unit
  | _, [] => .ok ()
  | totalSigOps, tx :: txs =>
    let totalSigOps := totalSigOps + countSigOps engine tx * witnessScaleFactor
    if totalSigOps > maxBlockSigOpsCost then
      .error (.rule .errTooManySigOps
        ("block contains too many signature operations - got " ++ toString totalSigOps ++
          ", max " ++ toString maxBlockSigOpsCost))
    else checkSigOps engine totalSigOps txs

def checkBlockSanity (rules : HeaderRules) (engine : ScriptEngine) (block : Block) :
    Except GoError Unit := do
  rules.checkBlockHeaderSanity block.header
  checkBlockSize block
  checkCoinbases block.transactions
  checkTransactionsSanity block.transactions
  checkMerkleRoot block
  checkDuplicateTxs [] block.transactions
  checkSigOps engine 0 block.transactions

/-! ## Context -/

/-- From here on a lock time is a time and not a height. -/
def lockTimeThreshold : Nat := 500000000

def isFinalizedTransaction (tx : MsgTx) (blockHeight : Int32) (blockTime : Int) : Bool :=
  let lockTime : Int := tx.lockTime.toNat
  let blockTimeOrHeight := if lockTime < lockTimeThreshold then blockHeight.toInt else blockTime
  tx.lockTime == 0 || lockTime < blockTimeOrHeight ||
    tx.txIn.all fun ti => ti.sequence == 0xffffffff

def serializedHeightVersion : Int32 := 2

def compareScript (height : Int32) (script : Bytes) : Except GoError Unit :=
  match Txscript.addInt64 [] height.toInt64 with
  | .error text => .error (.other text)
  | .ok scriptHeight =>
    if !scriptHeight.isPrefixOf script then
      .error (.rule .errBadCoinbaseHeight
        ("the coinbase signature script does not minimally encode the height " ++ toString height))
    else .ok ()

/-- The text for a script that is too short has a length where the version
belongs. -/
def extractCoinbaseHeight (coinbaseTx : MsgTx) : Except GoError Int32 :=
  match coinbaseTx.txIn with
  | [] => .error (.panic "runtime error: index out of range [0] with length 0")
  | ti :: _ =>
    match ti.signatureScript with
    | [] =>
      .error (.rule .errMissingCoinbaseHeight
        ("the coinbase signature script for blocks of version " ++
          toString serializedHeightVersion ++
          " or greater must start with the length of the serialized block height"))
    | opcode :: rest =>
      if opcode = Txscript.op0 then .ok 0
      else if opcode ≥ Txscript.op1 && opcode ≤ Txscript.op16 then
        .ok (Int32.ofNat (opcode.toNat - (Txscript.op1.toNat - 1)))
      else if rest.length < opcode.toNat then
        .error (.rule .errMissingCoinbaseHeight
          ("the coinbase signature script for blocks of version " ++ toString opcode.toNat ++
            " or greater must start with the serialized block height"))
      else do
        let height : Int32 := Int32.ofNat (Bytes.leNat ((rest.take opcode.toNat).take 4))
        compareScript height (opcode :: rest)
        .ok height

def checkSerializedHeight (coinbaseTx : MsgTx) (wantHeight : Int32) : Except GoError Unit := do
  let serializedHeight ← extractCoinbaseHeight coinbaseTx
  if serializedHeight ≠ wantHeight then
    .error (.rule .errBadCoinbaseHeight
      ("the coinbase signature script serialized block height is " ++ toString serializedHeight ++
        " when " ++ toString wantHeight ++ " was expected"))
  else .ok ()

/-- All transactions of the block are final. -/
def checkFinalized (blockHeight : Int32) (blockTime : Int) (transactions : List MsgTx) :
    Except GoError Unit :=
  match transactions.find? fun tx => !isFinalizedTransaction tx blockHeight blockTime with
  | some tx =>
    .error (.rule .errUnfinalizedTx ("block contains unfinalized transaction " ++ tx.txHash.string))
  | none => .ok ()

/-- The height in the coinbase, where it is due. -/
def checkCoinbaseHeight (params : Params) (block : Block) (blockHeight : Int32) :
    Except GoError Unit :=
  if block.header.version ≥ serializedHeightVersion && blockHeight ≥ params.bip0034Height then
    match block.transactions with
    | [] => .error (.panic "runtime error: index out of range [0] with length 0")
    | coinbaseTx :: _ => checkSerializedHeight coinbaseTx blockHeight
  else .ok ()

def maxBlockWeight : Nat := 4000000

def getBlockWeight (block : Block) : Nat :=
  block.serializeSizeStripped * (witnessScaleFactor - 1) + block.serializeSize

/-- The rules of segwit for a block as a whole. -/
def checkWitnessRules (block : Block) : Except GoError Unit := do
  validateWitnessCommitment block
  if getBlockWeight block > maxBlockWeight then
    .error (.rule .errBlockWeightTooHigh
      ("block's weight metric is too high - got " ++ toString (getBlockWeight block) ++ ", max " ++
        toString maxBlockWeight))
  else .ok ()

/-- `checkBlockContext`, for a block after `prevNode`. -/
def checkBlockContext (rules : HeaderRules) (c : Consensus) (block : Block) (prevNode : BlockNode)
    (fastAdd : Bool) : Except GoError Unit := do
  rules.checkBlockHeaderContext block.header
  if fastAdd then .ok ()
  else do
    let csv ← c.deploymentActive prevNode.hash .csv
    let blockTime : Int :=
      if csv then c.pastMedianTime prevNode.hash else block.header.timestamp.toNat
    checkFinalized (prevNode.height + 1) blockTime block.transactions
    checkCoinbaseHeight c.params block (prevNode.height + 1)
    let segwit ← c.deploymentActive prevNode.hash .segwit
    if segwit then checkWitnessRules block else .ok ()

/-! ## A template -/

/-- Everything but the proof of work. -/
def checkConnectBlockTemplate (rules : HeaderRules) (c : Consensus) (s : ChainReads)
    (tip : BlockNode) (block : Block) : Except GoError Unit :=
  if tip.hash ≠ block.header.prevBlock then
    .error (.rule .errPrevBlockNotBest
      ("previous block must be the current chain tip " ++ tip.hash.string ++ ", instead got " ++
        block.header.prevBlock.string))
  else do
    checkBlockSanity rules c.engine block
    checkBlockContext rules c block tip false
    let node : BlockNode :=
      ⟨block.hash, tip.hash, tip.height + 1, block.header.timestamp.toNat⟩
    let _ ← checkConnectBlock c s node block (UtxoViewpoint.new.setBestHash tip.hash)
    .ok ()

/-! ## What passing means -/

theorem checkDuplicateTxs_ok {existing : List Hash} {txs : List MsgTx}
    (h : checkDuplicateTxs existing txs = .ok ()) :
    (txs.map MsgTx.txHash).Nodup ∧ ∀ tx ∈ txs, tx.txHash ∉ existing := by
  induction txs generalizing existing with
  | nil => simp
  | cons tx txs ih =>
    rw [checkDuplicateTxs] at h
    split at h
    · cases h
    rename_i hnew
    obtain ⟨hnodup, hrest⟩ := ih h
    refine ⟨?_, ?_⟩
    · rw [List.map_cons, List.nodup_cons]
      refine ⟨fun hmem => ?_, hnodup⟩
      obtain ⟨tx', htx', heq⟩ := List.mem_map.1 hmem
      exact hrest tx' htx' (by rw [heq]; exact List.mem_cons_self)
    · intro tx' htx'
      rcases List.mem_cons.1 htx' with rfl | htx'
      · exact hnew
      · exact fun hmem => hrest tx' htx' (List.mem_cons_of_mem _ hmem)

theorem checkCoinbases_ok {transactions : List MsgTx} (h : checkCoinbases transactions = .ok ()) :
    ∃ coinbase txs, transactions = coinbase :: txs ∧ isCoinBaseTx coinbase = true ∧
      ∀ tx ∈ txs, isCoinBaseTx tx = false := by
  rw [checkCoinbases.eq_def] at h
  split at h
  · cases h
  rename_i coinbase txs
  split at h
  · cases h
  rename_i hfirst
  split at h
  · cases h
  rename_i hnone
  refine ⟨coinbase, txs, rfl, by simpa using hfirst, fun tx htx => ?_⟩
  exact Bool.eq_false_of_not_eq_true (by simpa using List.findIdx?_eq_none_iff.1 hnone tx htx)

/-- What `checkBlockSanity` establishes about the transactions. -/
structure Block.Sane (block : Block) : Prop where
  size : block.serializeSizeStripped ≤ maxBlockBaseSize
  coinbases : checkCoinbases block.transactions = .ok ()
  distinct : (block.transactions.map MsgTx.txHash).Nodup

/-- What the checks of a template establish. -/
structure TemplateChecked (c : Consensus) (s : ChainReads) (tip : BlockNode) (block : Block) :
    Prop extends block.Sane where
  prevBlock : block.header.prevBlock = tip.hash
  segwit : ∀ active, c.deploymentActive tip.hash .segwit = .ok active → active = true →
    getBlockWeight block ≤ maxBlockWeight
  connects : ∃ v stxos, checkConnectBlock c s
    ⟨block.hash, tip.hash, tip.height + 1, block.header.timestamp.toNat⟩ block
    (UtxoViewpoint.new.setBestHash tip.hash) = .ok (v, stxos)

variable {block : Block}

theorem checkBlockSize_ok (h : checkBlockSize block = .ok ()) :
    block.serializeSizeStripped ≤ maxBlockBaseSize := by
  rw [checkBlockSize] at h
  split_ifs at h
  · omega

theorem checkBlockSanity_ok {rules : HeaderRules} {engine : ScriptEngine}
    (h : checkBlockSanity rules engine block = .ok ()) : block.Sane := by
  obtain ⟨⟨⟩, -, h⟩ := bind_eq_ok.1 h
  obtain ⟨⟨⟩, hsize, h⟩ := bind_eq_ok.1 h
  obtain ⟨⟨⟩, hcoinbases, h⟩ := bind_eq_ok.1 h
  obtain ⟨⟨⟩, -, h⟩ := bind_eq_ok.1 h
  obtain ⟨⟨⟩, -, h⟩ := bind_eq_ok.1 h
  obtain ⟨⟨⟩, hdistinct, -⟩ := bind_eq_ok.1 h
  exact ⟨checkBlockSize_ok hsize, hcoinbases, (checkDuplicateTxs_ok hdistinct).1⟩

theorem checkWitnessRules_ok (h : checkWitnessRules block = .ok ()) :
    validateWitnessCommitment block = .ok () ∧ getBlockWeight block ≤ maxBlockWeight := by
  obtain ⟨⟨⟩, hcommitment, h⟩ := bind_eq_ok.1 h
  split_ifs at h
  · exact ⟨hcommitment, by omega⟩

/-- What it means for a template to pass. -/
theorem checkConnectBlockTemplate_ok {rules : HeaderRules} {c : Consensus} {s : ChainReads}
    {tip : BlockNode} (h : checkConnectBlockTemplate rules c s tip block = .ok ()) :
    TemplateChecked c s tip block := by
  rw [checkConnectBlockTemplate] at h
  split_ifs at h with hprev
  obtain ⟨⟨⟩, hsanity, h⟩ := bind_eq_ok.1 h
  obtain ⟨⟨⟩, hcontext, h⟩ := bind_eq_ok.1 h
  obtain ⟨⟨v, stxos⟩, hconnect, -⟩ := bind_eq_ok.1 h
  refine ⟨checkBlockSanity_ok hsanity, (not_not.1 hprev).symm, fun active hactive htrue => ?_, v,
    stxos, hconnect⟩
  obtain ⟨⟨⟩, -, hcontext⟩ := bind_eq_ok.1 hcontext
  rw [if_neg Bool.false_ne_true] at hcontext
  obtain ⟨csv, -, hcontext⟩ := bind_eq_ok.1 hcontext
  obtain ⟨⟨⟩, -, hcontext⟩ := bind_eq_ok.1 hcontext
  obtain ⟨⟨⟩, -, hcontext⟩ := bind_eq_ok.1 hcontext
  rw [hactive, ok_bind, htrue] at hcontext
  exact (checkWitnessRules_ok hcontext).2

end Obtcd
