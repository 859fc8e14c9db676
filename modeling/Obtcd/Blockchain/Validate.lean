import Obtcd.Blockchain.Script

/-!
# Validating a block

The consensus rules of `validate.go` around the REAP rules: `CheckTransactionSanity`, which needs
no chain, `CheckTransactionInputs`, which needs the outputs a transaction spends, and
`checkConnectBlock`, which puts the rules together for a whole block.

What `checkConnectBlock` reads besides its arguments comes in two records.  `Consensus` is fixed for
a node of the block tree: the network, the script engine, the checkpoint, the soft fork states and
the median times, which are functions of the ancestors of the block.  `ChainReads` is what changes
as blocks are connected: the answers of the UTXO cache, the best tip and the expiry index.

`checkConnectBlock_stages` says what it means for a block to be accepted, one stage after the other,
and `checkTransactions_ok` what it means for each of its transactions; the results about accepted
blocks start from these two.
-/

namespace Obtcd

open Chaincfg (Params getExpiryParams)

/-! ## Amounts -/

/-- `btcutil.MaxSatoshi`, which prints as the floating point number it is in the source. -/
def maxSatoshi : Int64 := 2100000000000000
def maxSatoshiString : String := "2.1e+15"

/-- `btcutil.Amount.String`: bitcoins, without trailing zeros. -/
def amountString (a : Int64) : String :=
  let n := a.toInt.natAbs
  let frac := Strconv.formatUint (10 ^ 8 + n % 10 ^ 8)
  let digits := (frac.drop 1).reverse.dropWhile (· == 0x30) |>.reverse
  let text := String.ofList (digits.map fun c => Char.ofNat c.toNat)
  (if a < 0 then "-" else "") ++ toString (n / 10 ^ 8) ++
    (if digits.isEmpty then "" else "." ++ text) ++ " BTC"

def baseSubsidy : Nat := 5000000000

/-- A shift by 64 or more, or by a negative number read as unsigned, leaves
nothing. -/
def calcBlockSubsidy (height : Int32) (params : Params) : Int64 :=
  if params.subsidyReductionInterval = 0 then Int64.ofNat baseSubsidy
  else
    let halvings := (height / params.subsidyReductionInterval).toInt
    if halvings < 0 || halvings ≥ 64 then 0 else Int64.ofNat (baseSubsidy >>> halvings.toNat)

/-! ## Sanity of a transaction -/

def maxBlockBaseSize : Nat := 1000000
def minCoinbaseScriptLen : Nat := 2
def maxCoinbaseScriptLen : Nat := 100

def isNullOutpoint (op : OutPoint) : Bool :=
  op.index == OutPoint.maxIndex && op.hash == Hash.zero

/-- The loop of `CheckTransactionSanity` over the output values. -/
def checkOutputValues : Int64 → List TxOut → Except GoError Unit
  | _, [] => .ok ()
  | total, o :: os =>
    if o.value < 0 then
      .error (.rule .errBadTxOutValue
        ("transaction output has negative value of " ++ toString o.value))
    else if o.value > maxSatoshi then
      .error (.rule .errBadTxOutValue
        ("transaction output value is higher than max allowed value: " ++ toString o.value ++
          " > " ++ maxSatoshiString ++ " "))
    else if total + o.value < 0 then
      .error (.rule .errBadTxOutValue
        ("total value of all transaction outputs exceeds max allowed value of " ++
          maxSatoshiString))
    else if total + o.value > maxSatoshi then
      .error (.rule .errBadTxOutValue
        ("total value of all transaction outputs is " ++ toString (total + o.value) ++
          " which is higher than max allowed value of " ++ maxSatoshiString))
    else checkOutputValues (total + o.value) os

def checkTransactionSanity (tx : MsgTx) : Except GoError Unit :=
  if tx.txIn.isEmpty then .error (.rule .errNoTxInputs "transaction has no inputs")
  else if tx.txOut.isEmpty then .error (.rule .errNoTxOutputs "transaction has no outputs")
  else if tx.baseSize > maxBlockBaseSize then
    .error (.rule .errTxTooBig
      ("serialized transaction is too big - got " ++ toString tx.baseSize ++ ", max " ++
        toString maxBlockBaseSize))
  else do
    checkOutputValues 0 tx.txOut
    if !decide (tx.txIn.map TxIn.previousOutPoint).Nodup then
      .error (.rule .errDuplicateTxInputs "transaction contains duplicate inputs")
    else if isCoinBaseTx tx then
      let slen := (tx.txIn.head?.map fun ti => ti.signatureScript.length).getD 0
      if slen < minCoinbaseScriptLen || slen > maxCoinbaseScriptLen then
        .error (.rule .errBadCoinbaseScriptLen
          ("coinbase transaction script length of " ++ toString slen ++
            " is out of range (min: " ++ toString minCoinbaseScriptLen ++ ", max: " ++
            toString maxCoinbaseScriptLen ++ ")"))
      else .ok ()
    else if tx.txIn.any fun ti => isNullOutpoint ti.previousOutPoint then
      .error (.rule .errBadTxInput "transaction input refers to previous output that is null")
    else .ok ()

/-! ## The inputs of a transaction -/

/-- The loop of `CheckTransactionInputs` over the inputs from number `i` on: the total they spend. -/
def checkInputValues (tx : MsgTx) (txHeight : Int32) (v : UtxoViewpoint) (params : Params) :
    Nat → Int64 → List TxIn → Except GoError Int64
  | _, total, [] => .ok total
  | i, total, ti :: tis =>
    match v.unspent ti.previousOutPoint with
    | none => .error (missingOutput tx i ti.previousOutPoint)
    | some e =>
      if e.coinBase && txHeight - e.blockHeight < params.coinbaseMaturity.toUInt32.toInt32 then
        .error (.rule .errImmatureSpend
          ("tried to spend coinbase transaction output " ++ ti.previousOutPoint.string ++
            " from height " ++ toString e.blockHeight ++ " at height " ++ toString txHeight ++
            " before required maturity of " ++ toString params.coinbaseMaturity ++ " blocks"))
      else if e.amount < 0 then
        .error (.rule .errBadTxOutValue
          ("transaction output has negative value of " ++ amountString e.amount))
      else if e.amount > maxSatoshi then
        .error (.rule .errBadTxOutValue
          ("transaction output value is higher than max allowed value: " ++
            amountString e.amount ++ " > " ++ maxSatoshiString ++ " "))
      else if total + e.amount < total || total + e.amount > maxSatoshi then
        .error (.rule .errBadTxOutValue
          ("total value of all transaction inputs is " ++ toString (total + e.amount) ++
            " which is higher than max allowed value of " ++ maxSatoshiString))
      else checkInputValues tx txHeight v params (i + 1) (total + e.amount) tis

/-- The sum of the output values, with the wrap-around of the source. -/
def totalOut (os : List TxOut) : Int64 := os.foldl (fun total o => total + o.value) 0

/-- The fee. -/
def checkTransactionInputs (tx : MsgTx) (txHeight : Int32) (v : UtxoViewpoint) (params : Params) :
    Except GoError Int64 :=
  if isCoinBaseTx tx then .ok 0
  else do
    checkReapMarker tx txHeight
    checkExpirySpendRules tx txHeight v params
    checkReapConsensusHardening tx txHeight v params
    checkReapTaxRules tx txHeight v params
    let totalSatoshiIn ← checkInputValues tx txHeight v params 0 0 tx.txIn
    let totalSatoshiOut := totalOut tx.txOut
    if totalSatoshiIn < totalSatoshiOut then
      .error (.rule .errSpendTooHigh
        ("total value of all transaction inputs for transaction " ++ tx.txHash.string ++ " is " ++
          toString totalSatoshiIn ++ " which is less than the amount spent of " ++
          toString totalSatoshiOut))
    else .ok (totalSatoshiIn - totalSatoshiOut)

/-! ## The context of a block -/

/-- The version bits deployments that are asked for. -/
inductive Deployment where
  | segwit
  | csv
  | taproot
deriving DecidableEq, Repr

/-- `blockNode`, with its parent named by hash. -/
structure BlockNode where
  hash : Hash
  parent : Hash
  height : Int32
  timestamp : Int
deriving DecidableEq

def BlockNode.ofBlock (block : Block) : BlockNode :=
  ⟨block.hash, block.header.prevBlock, block.height, block.header.timestamp.toNat⟩

/-- What validation reads that does not change as blocks are connected. -/
structure Consensus where
  params : Params
  engine : ScriptEngine
  /-- The height of `LatestCheckpoint`. -/
  latestCheckpoint : Option Int32
  /-- Is the deployment active for a block after the node with this hash? -/
  deploymentActive : Hash → Deployment → Except GoError Bool
  /-- `CalcPastMedianTime` of the node with this hash. -/
  pastMedianTime : Hash → Int
  /-- `CalcPastMedianTime` of the ancestor, at a height, of the node with this hash. -/
  ancestorMedianTime : Hash → Int32 → Int

/-- What validation reads of the chain state. -/
structure ChainReads where
  /-- What the UTXO cache answers. -/
  fetchEntry : OutPoint → Option UtxoEntry
  bestTip : Hash
  reapPrefixSource : Option ReapPrefixSource

/-- The hash with these hexadecimal digits, which show its last byte first. -/
def newHashFromStr (digits : Nat) : Hash := ⟨⟨Bytes.le 32 digits, Bytes.length_le 32 digits⟩⟩

/-- `block91842Hash` and `block91880Hash`, with their heights. -/
def bip0030Exceptions : List (Int32 × Hash) :=
  [(91842, newHashFromStr 0x00000000000a4d0a398161ffc163c503763b1f4360639393e0e4c8e300e0caec),
    (91880, newHashFromStr 0x00000000000743f190a18c5577a3c2d2a1f610ae9601ac046a38084ccb7cd721)]

def isBIP0030Node (node : BlockNode) : Bool := bip0030Exceptions.contains (node.height, node.hash)

/-- No output of the block is there already. -/
def checkBIP0030 (fetch : OutPoint → Option UtxoEntry) (block : Block) (v : UtxoViewpoint) :
    Except GoError UtxoViewpoint :=
  let ops := block.transactions.flatMap MsgTx.outPoints
  let v' := v.fetchUtxos fetch ops
  match ops.findSome? fun op => (v'.unspent op).map fun e => (op, e) with
  | some (op, e) =>
    .error (.rule .errOverwriteTx
      ("tried to overwrite transaction " ++ op.hash.string ++ " at block height " ++
        toString e.blockHeight ++ " that is not fully spent"))
  | none => .ok v'

/-! ## Sequence locks -/

structure SequenceLock where
  seconds : Int
  blockHeight : Int32
deriving DecidableEq

def sequenceLockActive (lock : SequenceLock) (blockHeight : Int32) (medianTimePast : Int) : Bool :=
  !(lock.seconds ≥ medianTimePast || lock.blockHeight ≥ blockHeight)

/-- The lock after one more input with an output of height `inputHeight`. -/
def lockInput (c : Consensus) (node : BlockNode) (lock : SequenceLock) (sequence : UInt32)
    (inputHeight : Int32) : SequenceLock :=
  let relativeLock : Int := (sequence &&& 0xffff).toNat
  if sequence &&& 0x80000000 = 0x80000000 then lock
  else if sequence &&& 0x00400000 = 0x00400000 then
    let prevInputHeight := if inputHeight - 1 < 0 then 0 else inputHeight - 1
    let timeLock := c.ancestorMedianTime node.hash prevInputHeight + (relativeLock * 2 ^ 9 - 1)
    if timeLock > lock.seconds then { lock with seconds := timeLock } else lock
  else
    let blockHeight := inputHeight + Int32.ofInt (relativeLock - 1)
    if blockHeight > lock.blockHeight then { lock with blockHeight := blockHeight } else lock

/-- The loop of `calcSequenceLock` over the inputs from number `i` on. -/
def lockInputs (c : Consensus) (node : BlockNode) (tx : MsgTx) (v : UtxoViewpoint) :
    Nat → SequenceLock → List TxIn → Except GoError SequenceLock
  | _, lock, [] => .ok lock
  | i, lock, ti :: tis =>
    match v.lookupEntry ti.previousOutPoint with
    | none => .error (missingOutput tx i ti.previousOutPoint)
    | some e =>
      let inputHeight := if e.blockHeight = unminedInputHeight then node.height + 1
        else e.blockHeight
      lockInputs c node tx v (i + 1) (lockInput c node lock ti.sequence inputHeight) tis

def calcSequenceLock (c : Consensus) (node : BlockNode) (tx : MsgTx) (v : UtxoViewpoint)
    (mempool : Bool) : Except GoError SequenceLock := do
  let csvActive ← if mempool then .ok true else c.deploymentActive node.parent .csv
  if !(tx.version.toUInt32 ≥ 2 && csvActive) || isCoinBaseTx tx then .ok ⟨-1, -1⟩
  else lockInputs c node tx v 0 ⟨-1, -1⟩ tx.txIn

/-- The loop of `checkConnectBlock` over the sequence locks. -/
def checkSequenceLocks (c : Consensus) (node : BlockNode) (v : UtxoViewpoint) :
    List MsgTx → Except GoError Unit
  | [] => .ok ()
  | tx :: txs => do
    let lock ← calcSequenceLock c node tx v false
    if !sequenceLockActive lock node.height (c.pastMedianTime node.parent) then
      .error (.rule .errUnfinalizedTx
        "block contains transaction whose input sequence locks are not met")
    else checkSequenceLocks c node v txs

/-! ## A block -/

/-- The duplicate check, where it is due: not for the two blocks that break the rule, and not once
coinbases start with their height. -/
def enforceBIP0030 (c : Consensus) (s : ChainReads) (node : BlockNode) (block : Block)
    (v : UtxoViewpoint) : Except GoError UtxoViewpoint :=
  if !isBIP0030Node node && node.height < c.params.bip0034Height then
    checkBIP0030 s.fetchEntry block v
  else .ok v

/-- The first stage of `checkConnectBlock`: the view is loaded with what the block spends. -/
def loadInputs (c : Consensus) (s : ChainReads) (node : BlockNode) (block : Block)
    (v : UtxoViewpoint) : Except GoError UtxoViewpoint :=
  if node.hash = c.params.genesisHash then
    .error (.rule .errMissingTxOut "the coinbase for the genesis block is not spendable")
  else if v.bestHash ≠ block.header.prevBlock then
    .error (.assert ("inconsistent view when checking block connection: best hash is " ++
      v.bestHash.string ++ " instead of expected " ++ block.header.prevBlock.string))
  else do
    let v ← enforceBIP0030 c s node block v
    checkReapBlockHardening block node.height c.params
    v.fetchInputUtxos s.fetchEntry block

/-- The prefix rule, which needs the index to stand at the parent: it is only checked here for a
block on top of the best tip. -/
def checkPrefixAtTip (c : Consensus) (s : ChainReads) (node : BlockNode) (block : Block) :
    Except GoError Unit :=
  if node.parent = s.bestTip then
    checkReapGlobalPrefix block node.height s.reapPrefixSource c.params
  else .ok ()

/-- The loop of `checkConnectBlock` over the inputs of the transactions: each is checked against the
view that the ones before it leave.  It returns the last view, what was spent and the fees. -/
def checkTransactions (params : Params) (height : Int32) :
    UtxoViewpoint → Int64 → List MsgTx → Except GoError (UtxoViewpoint × List SpentTxOut × Int64)
  | v, totalFees, [] => .ok (v, [], totalFees)
  | v, totalFees, tx :: txs => do
    let txFee ← checkTransactionInputs tx height v params
    if totalFees + txFee < totalFees then
      .error (.rule .errBadFees "total fees for block overflows accumulator")
    else do
      let (v', stxos) ← v.connectTransaction tx height
      let (v'', stxos', fees) ← checkTransactions params height v' (totalFees + txFee) txs
      .ok (v'', stxos ++ stxos', fees)

/-- The coinbase pays no more than the subsidy and the fees. -/
def checkCoinbaseValue (params : Params) (height : Int32) (block : Block) (totalFees : Int64) :
    Except GoError Unit :=
  match block.transactions with
  | [] => .error (.panic "runtime error: index out of range [0] with length 0")
  | coinbase :: _ =>
    let totalSatoshiOut := totalOut coinbase.txOut
    let expectedSatoshiOut := calcBlockSubsidy height params + totalFees
    if totalSatoshiOut > expectedSatoshiOut then
      .error (.rule .errBadCoinbaseValue
        ("coinbase transaction for block pays " ++ toString totalSatoshiOut ++
          " which is more than expected value of " ++ toString expectedSatoshiOut))
    else .ok ()

def bip16Activation : Int := 1333238400

/-- Are scripts run?  Not up to the latest checkpoint. -/
def runScripts (c : Consensus) (node : BlockNode) : Bool :=
  match c.latestCheckpoint with
  | some height => !(node.height ≤ height)
  | none => true

/-- The flags scripts are run with. -/
def blockScriptFlags (c : Consensus) (node : BlockNode) (block : Block)
    (segwit csv taproot : Bool) : ScriptFlags :=
  let flags : ScriptFlags := if node.timestamp ≥ bip16Activation then ScriptFlags.bip16 else 0
  let flags := if block.header.version ≥ 3 && node.height ≥ c.params.bip0066Height then
    flags ||| ScriptFlags.verifyDERSignatures else flags
  let flags := if block.header.version ≥ 4 && node.height ≥ c.params.bip0065Height then
    flags ||| ScriptFlags.verifyCheckLockTimeVerify else flags
  let flags := if csv then flags ||| ScriptFlags.verifyCheckSequenceVerify else flags
  let flags := if segwit then
    flags ||| ScriptFlags.verifyWitness ||| ScriptFlags.strictMultiSig else flags
  let flags := if taproot then flags ||| ScriptFlags.verifyTaproot else flags
  applyOBTCReplayProtectionScriptFlag flags c.params node.height

/-- The last stage of `checkConnectBlock`: sequence locks and scripts. -/
def checkLocksAndScripts (c : Consensus) (node : BlockNode) (block : Block) (segwit : Bool)
    (v : UtxoViewpoint) : Except GoError Unit := do
  let csv ← c.deploymentActive node.parent .csv
  checkSequenceLocks c node v (if csv then block.transactions else [])
  let taproot ← c.deploymentActive node.parent .taproot
  if runScripts c node then
    checkBlockScripts c.engine block v (blockScriptFlags c node block segwit csv taproot)
  else .ok ()

/-- The view with the block connected, and the outputs the block spends. -/
def checkConnectBlock (c : Consensus) (s : ChainReads) (node : BlockNode) (block : Block)
    (v : UtxoViewpoint) : Except GoError (UtxoViewpoint × List SpentTxOut) := do
  let v ← loadInputs c s node block v
  checkPrefixAtTip c s node block
  let segwit ← c.deploymentActive node.parent .segwit
  checkSigOpCosts c.engine v (node.timestamp ≥ bip16Activation) segwit 0 0 block.transactions
  let (v, stxos, totalFees) ← checkTransactions c.params node.height v 0 block.transactions
  checkCoinbaseValue c.params node.height block totalFees
  checkLocksAndScripts c node block segwit v
  .ok (v.setBestHash node.hash, stxos)

/-! ## What acceptance means -/

/-- The stages of an accepted block. -/
structure Stages (c : Consensus) (s : ChainReads) (node : BlockNode) (block : Block)
    (v v' : UtxoViewpoint) (stxos : List SpentTxOut) where
  loaded : UtxoViewpoint
  final : UtxoViewpoint
  segwit : Bool
  fees : Int64
  load : loadInputs c s node block v = .ok loaded
  globalPrefix : node.parent = s.bestTip →
    checkReapGlobalPrefix block node.height s.reapPrefixSource c.params = .ok ()
  segwit_eq : c.deploymentActive node.parent .segwit = .ok segwit
  transactions :
    checkTransactions c.params node.height loaded 0 block.transactions = .ok (final, stxos, fees)
  scripts : checkLocksAndScripts c node block segwit final = .ok ()
  view : v' = final.setBestHash node.hash

/-- An accepted block went through every stage. -/
theorem checkConnectBlock_stages {c : Consensus} {s : ChainReads} {node : BlockNode} {block : Block}
    {v v' : UtxoViewpoint} {stxos : List SpentTxOut}
    (h : checkConnectBlock c s node block v = .ok (v', stxos)) :
    Nonempty (Stages c s node block v v' stxos) := by
  obtain ⟨loaded, hload, h⟩ := bind_eq_ok.1 h
  obtain ⟨⟨⟩, hfront, h⟩ := bind_eq_ok.1 h
  obtain ⟨segwit, hsegwit, h⟩ := bind_eq_ok.1 h
  obtain ⟨⟨⟩, -, h⟩ := bind_eq_ok.1 h
  obtain ⟨⟨final, stxos', fees⟩, htxs, h⟩ := bind_eq_ok.1 h
  obtain ⟨⟨⟩, -, h⟩ := bind_eq_ok.1 h
  obtain ⟨⟨⟩, hscripts, h⟩ := bind_eq_ok.1 h
  cases h
  refine ⟨⟨loaded, final, segwit, fees, hload, fun htip => ?_, hsegwit, htxs, hscripts, rfl⟩⟩
  rwa [checkPrefixAtTip, if_pos htip] at hfront

/-- The inputs of each transaction of an accepted block were checked against the view that the
transactions before it leave. -/
theorem checkTransactions_ok {params : Params} {height : Int32} {v v' : UtxoViewpoint}
    {fees fees' : Int64} {txs : List MsgTx} {stxos : List SpentTxOut}
    (h : checkTransactions params height v fees txs = .ok (v', stxos, fees')) :
    UtxoViewpoint.connectAll height v txs = .ok (v', stxos) ∧
      ∀ pre tx post, txs = pre ++ tx :: post → ∃ w spent fee,
        UtxoViewpoint.connectAll height v pre = .ok (w, spent) ∧
          checkTransactionInputs tx height w params = .ok fee := by
  induction txs generalizing v fees stxos with
  | nil =>
    obtain ⟨rfl, rfl, rfl⟩ : v = v' ∧ [] = stxos ∧ fees = fees' := by
      simpa [checkTransactions] using h
    exact ⟨rfl, fun pre tx post hsplit => by simp at hsplit⟩
  | cons tx txs ih =>
    obtain ⟨fee, hfee, h⟩ := bind_eq_ok.1 h
    split at h
    · cases h
    obtain ⟨⟨w, spent⟩, hconn, h⟩ := bind_eq_ok.1 h
    obtain ⟨⟨v'', stxos', fees''⟩, hrest, h⟩ := bind_eq_ok.1 h
    obtain ⟨rfl, rfl, rfl⟩ : v'' = v' ∧ spent ++ stxos' = stxos ∧ fees'' = fees' := by
      simpa using h
    obtain ⟨hall, hpos⟩ := ih hrest
    refine ⟨?_, fun pre tx' post hsplit => ?_⟩
    · exact UtxoViewpoint.connectAll_cons hconn hall
    · cases pre with
      | nil =>
        obtain ⟨rfl, -⟩ := List.cons.inj hsplit
        exact ⟨v, [], fee, rfl, hfee⟩
      | cons tx₀ pre =>
        obtain ⟨rfl, htail⟩ := List.cons.inj hsplit
        obtain ⟨w', spent', fee', hw', hfee'⟩ := hpos pre tx' post htail
        exact ⟨w', spent ++ spent', fee', UtxoViewpoint.connectAll_cons hconn hw', hfee'⟩

end Obtcd
