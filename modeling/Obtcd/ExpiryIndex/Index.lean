import Obtcd.ExpiryIndex.Buckets
import Obtcd.Ledger

/-!
# The expiry index

`commitment.go` and the heart of `expiryindex.go`: the commitment a coinbase carries, the three
operations on single outputs (`putTxOutMapping`, `connectTxOut`, `disconnectTxOut`), and the two
operations on blocks that the index manager calls, `ConnectBlock` and `DisconnectBlock`.

A block operation works on a pair of the accumulator it has loaded and the buckets of the database
transaction it runs in.  An error returns neither: the caller rolls the transaction back.  The loops
of the source are folds over the inputs and outputs in the order the source visits them; in
particular `DisconnectBlock` walks the transactions and their outputs backwards, the inputs of each
transaction forwards, and finds the spent outputs by the offsets it computes beforehand.
-/

namespace Obtcd.ExpiryIndex

/-! ## Parameters and state -/

/-- `expiryindex.ExpiryParams`. -/
structure ExpiryParams where
  windowBlocks : UInt64
  listBatchLimit : Int
  startScanHeight : Int32
  enableAtHeight : Int32
  expiryCommitmentEnableAtHeight : Int32
deriving DecidableEq

/-- `expiryindex.GetExpiryParams`. -/
def getExpiryParams (params : Chaincfg.Params) : Option ExpiryParams :=
  (Chaincfg.getExpiryParams params).map fun cfg =>
    ⟨cfg.windowBlocks, cfg.listBatchLimit, cfg.startScanHeight, cfg.enableAtHeight,
      cfg.expiryCommitmentEnableAtHeight⟩

def ExpiryParams.calculateExpiryKey (p : ExpiryParams) (createHeight : Int32) : UInt64 :=
  createHeight.toInt64.toUInt64 + p.windowBlocks

def ExpiryParams.isIndexingEnabled (p : ExpiryParams) (height : Int32) : Bool :=
  height ≥ p.startScanHeight

/-- The create heights that are indexed.  Bitcoin consensus treats the genesis coinbase as
unspendable, so height zero is not one of them. -/
def ExpiryParams.covers (p : ExpiryParams) (createHeight : Int32) : Bool :=
  createHeight > 0 && createHeight ≥ p.startScanHeight

/-- The outputs of a block that are indexed. -/
def ExpiryParams.indexes (p : ExpiryParams) (blockHeight : Int32) (o : TxOut) : Bool :=
  p.covers blockHeight && !Txscript.isUnspendable o.pkScript

/-- `ExpiryIndex`, without the database and the chain accessor, which are passed separately. -/
structure Index where
  expiryParams : ExpiryParams
  curTipHeight : Int32
  disabled : Bool

def newExpiryIndex (params : Chaincfg.Params) : Except GoError Index :=
  match getExpiryParams params with
  | none => .error (.other ("expiry index not supported for network " ++ params.name))
  | some expiryParams => .ok ⟨expiryParams, -1, false⟩

/-! ## The expiry commitment -/

/-- The bytes `OEXP`. -/
def expiryCommitmentTag : Bytes := [0x4F, 0x45, 0x58, 0x50]
def expiryCommitmentVersion : UInt8 := 0x01
def expiryCommitmentScriptLen : Nat := 39

def buildExpiryCommitmentScript (root : Bytes.Sized 32) : Bytes :=
  Txscript.opReturn :: Txscript.opData37 :: (expiryCommitmentTag ++ expiryCommitmentVersion ::
    root.val)

/-- Does an output script have the form of an expiry commitment? -/
def isExpiryCommitment (pk : Bytes) : Bool :=
  pk.length == expiryCommitmentScriptLen && pk.getD 0 0 == Txscript.opReturn &&
    pk.getD 1 0 == Txscript.opData37 && (pk.drop 2).take 4 == expiryCommitmentTag

/-- Version and root of the last commitment among the outputs. -/
def extractExpiryCommitment (tx : MsgTx) : Option (UInt8 × Bytes) :=
  (tx.txOut.reverse.find? fun o => isExpiryCommitment o.pkScript).map fun o =>
    (o.pkScript.getD 6 0, (o.pkScript.drop 7).take 32)

def countExpiryCommitments (tx : MsgTx) : Nat :=
  tx.txOut.countP fun o => isExpiryCommitment o.pkScript

namespace Index

variable (idx : Index)

def isCommitmentActive (height : Int32) : Bool :=
  let h := idx.expiryParams.expiryCommitmentEnableAtHeight
  h > 0 && height ≥ h

def validateExpiryCommitment (block : Block) (expectedRoot : Bytes.Sized 32) :
    Except GoError Unit :=
  let height := toString block.height.toInt
  if !idx.isCommitmentActive block.height then .ok ()
  else match block.transactions with
    | [] => .error (.panic "index out of range [0] with length 0")
    | coinbaseTx :: _ =>
      if countExpiryCommitments coinbaseTx > 1 then
        .error (.rule .errBadExpiryCommitmentDuplicate
          ("block " ++ height ++ " has multiple expiry commitments"))
      else match extractExpiryCommitment coinbaseTx with
        | none =>
          .error (.rule .errBadExpiryCommitmentMissing
            ("block " ++ height ++ " missing required expiry commitment"))
        | some (version, root) =>
          if version ≠ expiryCommitmentVersion then
            .error (.rule .errBadExpiryCommitmentFormat
              ("block " ++ height ++ " has unsupported expiry commitment version " ++
                toString version.toNat))
          else if root ≠ expectedRoot.val then
            .error (.rule .errBadExpiryCommitmentMismatch
              ("block " ++ height ++ " expiry commitment mismatch: coinbase=" ++ Bytes.hex root ++
                ", expected=" ++ Bytes.hex expectedRoot.val))
          else .ok ()

/-! ## Single outputs -/

abbrev shouldIndexCreateHeight (createHeight : Int32) : Bool :=
  idx.expiryParams.covers createHeight

end Index

/-- The four writes that enter an output. -/
def Buckets.putEntry (db : Buckets) (outpoint : OutPoint) (expiryKey : UInt64) (reapKey : Bytes) :
    Buckets :=
  { db with
    outpoint2Expiry := db.outpoint2Expiry.insert (encodeOutPoint outpoint) (encodeExpiryKey expiryKey)
    expiry2Outpoints :=
      db.expiry2Outpoints.insert (encodeExpiryOutpointCompositeKey expiryKey outpoint) emptyIndexValue
    reapStrictCandidates := db.reapStrictCandidates.insert reapKey emptyIndexValue
    outpoint2ReapStrict := db.outpoint2ReapStrict.insert (encodeOutPoint outpoint) reapKey }

/-- The four deletions that take an output out. -/
def Buckets.deleteEntry (db : Buckets) (outpoint : OutPoint) (expiryKey : UInt64)
    (reapKey : Bytes) : Buckets :=
  { db with
    outpoint2Expiry := db.outpoint2Expiry.erase (encodeOutPoint outpoint)
    expiry2Outpoints :=
      db.expiry2Outpoints.erase (encodeExpiryOutpointCompositeKey expiryKey outpoint)
    outpoint2ReapStrict := db.outpoint2ReapStrict.erase (encodeOutPoint outpoint)
    reapStrictCandidates := db.reapStrictCandidates.erase reapKey }

/-- The first two writes of the source come before the amount is checked; they
are rolled back with the transaction when it is negative. -/
def putTxOutMapping (db : Buckets) (outpoint : OutPoint) (expiryKey : UInt64) (amount : Int64) :
    Except GoError Buckets := do
  let reapKey ← encodeReapStrictCompositeKey expiryKey amount outpoint
  .ok (db.putEntry outpoint expiryKey reapKey)

def Index.connectTxOut (idx : Index) (db : Buckets) (outpoint : OutPoint) (createHeight : Int32)
    (amount : Int64) : Except GoError Buckets :=
  if !idx.shouldIndexCreateHeight createHeight then .ok db
  else putTxOutMapping db outpoint (idx.expiryParams.calculateExpiryKey createHeight) amount

def disconnectTxOut (db : Buckets) (outpoint : OutPoint) : Except GoError Buckets :=
  match db.outpoint2Expiry[encodeOutPoint outpoint]? with
  | none => .ok db
  | some encodedExpiryKey => do
    let expiryKey ← wrapError "failed to decode expiry key: " (decodeExpiryKey encodedExpiryKey)
    let compositeKey := encodeExpiryOutpointCompositeKey expiryKey outpoint
    if db.expiry2Outpoints[compositeKey]?.isNone then
      .error (.other ("inconsistent index: expiry composite key " ++ Bytes.hex compositeKey ++
        " not found"))
    else match db.outpoint2ReapStrict[encodeOutPoint outpoint]? with
      | none =>
        .error (.other ("inconsistent index: REAP strict key for outpoint " ++ outpoint.string ++
          " not found"))
      | some reapKey =>
        if db.reapStrictCandidates[reapKey]?.isNone then
          .error (.other ("inconsistent index: REAP strict composite key " ++ Bytes.hex reapKey ++
            " not found"))
        else .ok (db.deleteEntry outpoint expiryKey reapKey)

/-! ## Connecting a block -/

/-- The accumulator a block operation has loaded, and the buckets of its transaction. -/
abbrev Working := MuHash × Buckets

/-- The value a failed `decodeExpiryKey` leaves when its error is dropped. -/
def expiryKeyOrZero (encoded : Bytes) : UInt64 :=
  match decodeExpiryKey encoded with
  | .ok ek => ek
  | .error _ => 0

/-- One input of a connected block: take the spent output out of the accumulator and the buckets. -/
def connectSpend (w : Working) (op : OutPoint) : Except GoError Working := do
  let mh := match w.2.outpoint2Expiry[encodeOutPoint op]? with
    | none => w.1
    | some encodedEK => w.1.remove (computeEntryData op (expiryKeyOrZero encodedEK))
  let db ← wrapError ("failed to disconnect txout " ++ op.string ++ ": ") (disconnectTxOut w.2 op)
  .ok (mh, db)

namespace Index

variable (idx : Index)

/-- Is an output of a block at this height indexed at all? -/
abbrev indexes (blockHeight : Int32) (o : TxOut) : Bool :=
  idx.expiryParams.indexes blockHeight o

/-- One output of a connected block: add it to the accumulator and the buckets. -/
def connectCreate (blockHeight : Int32) (tx : MsgTx) (w : Working) (o : TxOut × Nat) :
    Except GoError Working :=
  if !idx.indexes blockHeight o.1 then .ok w
  else do
    let outpoint := tx.outPoint o.2
    let expiryKey := idx.expiryParams.calculateExpiryKey blockHeight
    let mh := w.1.add (computeEntryData outpoint expiryKey)
    let db ← wrapError ("failed to connect txout " ++ outpoint.string ++ ": ")
      (idx.connectTxOut w.2 outpoint blockHeight o.1.value)
    .ok (mh, db)

/-- The inputs of a connected transaction.  A coinbase spends nothing. -/
def connectSpends (w : Working) (tx : MsgTx) : Except GoError Working :=
  if isCoinBaseTx tx then .ok w else (tx.txIn.map TxIn.previousOutPoint).foldlM connectSpend w

/-- One transaction of a connected block: its inputs, then its outputs. -/
def connectTx (blockHeight : Int32) (w : Working) (tx : MsgTx) : Except GoError Working := do
  let w ← connectSpends w tx
  tx.txOut.zipIdx.foldlM (idx.connectCreate blockHeight tx) w

def connectBlock (db : Buckets) (block : Block) : Except GoError (Index × Buckets) :=
  if idx.disabled then .ok (idx, db)
  else if !idx.expiryParams.isIndexingEnabled block.height then
    .ok (idx, dbPutAccumulatorTipHash (dbPutTipHeightIndexed db block.height) block.hash)
  else do
    let mh ← wrapError "failed to load accumulator: " (dbGetAccumulatorState db)
    let root ← MuHash.digest mh
    idx.validateExpiryCommitment block root
    let (mh, db) ← block.transactions.foldlM (idx.connectTx block.height) (mh, db)
    let db := dbPutAccumulatorState db mh
    let db := dbPutAccumulatorTipHash db block.hash
    let db := dbPutTipHeightIndexed db block.height
    -- the closing log line computes the new root
    let _ ← MuHash.digest mh
    .ok ({ idx with curTipHeight := block.height }, db)

/-! ## Disconnecting a block -/

/-- The offset of each transaction's first input in the list of spent outputs.  The coinbase does
not count. -/
def stxoOffsetsFrom (offset : Nat) : List MsgTx → List Nat
  | [] => []
  | tx :: txs => offset :: stxoOffsetsFrom (offset + tx.txIn.length) txs

def stxoOffsets : List MsgTx → List Nat
  | [] => []
  | _ :: txs => 0 :: stxoOffsetsFrom 0 txs

/-- One output of a disconnected block, taken out again. -/
def disconnectCreate (blockHeight : Int32) (tx : MsgTx) (w : Working) (o : TxOut × Nat) :
    Except GoError Working :=
  if !idx.indexes blockHeight o.1 then .ok w
  else do
    let outpoint := tx.outPoint o.2
    let expiryKey := idx.expiryParams.calculateExpiryKey blockHeight
    let mh := w.1.remove (computeEntryData outpoint expiryKey)
    let db ← wrapError ("failed to disconnect txout " ++ outpoint.string ++ ": ")
      (disconnectTxOut w.2 outpoint)
    .ok (mh, db)

/-- One input of a disconnected block: put the spent output back. -/
def disconnectSpend (stxos : List SpentTxOut) (txIdx baseOffset : Nat) (w : Working)
    (ti : TxIn × Nat) : Except GoError Working :=
  let stxoIdx := baseOffset + ti.2
  match stxos[stxoIdx]? with
  | none =>
    .error (.other ("stxo index " ++ toString stxoIdx ++ " out of range (len=" ++
      toString stxos.length ++ ") for tx " ++ toString txIdx ++ " input " ++ toString ti.2))
  | some stxo =>
    if !idx.shouldIndexCreateHeight stxo.height then .ok w
    else do
      let op := ti.1.previousOutPoint
      let expiryKey := idx.expiryParams.calculateExpiryKey stxo.height
      let mh := w.1.add (computeEntryData op expiryKey)
      let db ← wrapError ("failed to reconnect txout " ++ op.string ++ ": ")
        (idx.connectTxOut w.2 op stxo.height stxo.amount)
      .ok (mh, db)

/-- One transaction of a disconnected block: its outputs backwards, then, unless it is the first,
its inputs. -/
def disconnectTx (blockHeight : Int32) (stxos : List SpentTxOut) (w : Working)
    (tx : (MsgTx × Nat) × Nat) : Except GoError Working := do
  let w ← tx.1.1.txOut.zipIdx.reverse.foldlM (idx.disconnectCreate blockHeight tx.1.1) w
  if tx.2 ≠ 0 then tx.1.1.txIn.zipIdx.foldlM (idx.disconnectSpend stxos tx.2 tx.1.2) w
  else .ok w

def disconnectBlock (db : Buckets) (block : Block) (stxos : List SpentTxOut) :
    Except GoError (Index × Buckets) :=
  let prevHash := block.header.prevBlock
  if idx.disabled then .ok (idx, db)
  else if !idx.expiryParams.isIndexingEnabled block.height then
    .ok (idx, dbPutAccumulatorTipHash (dbPutTipHeightIndexed db (block.height - 1)) prevHash)
  else do
    let mh ← wrapError "failed to load accumulator: " (dbGetAccumulatorState db)
    let transactions := block.transactions
    let (mh, db) ← ((transactions.zip (stxoOffsets transactions)).zipIdx.reverse).foldlM
      (idx.disconnectTx block.height stxos) (mh, db)
    let db := dbPutAccumulatorState db mh
    let db := dbPutAccumulatorTipHash db prevHash
    let db := dbPutTipHeightIndexed db (block.height - 1)
    .ok ({ idx with curTipHeight := block.height - 1 }, db)

/-! ## Reading the index -/

structure AccumulatorSnapshot where
  root : Bytes.Sized 32
  tipHash : Hash
  tipHeight : Int32

def getAccumulatorSnapshot (db : Buckets) : Except GoError AccumulatorSnapshot :=
  if idx.disabled then .error (.other "expiry index is disabled")
  else do
    let mh ← dbGetAccumulatorState db
    let root ← MuHash.digest mh
    let tipHeight ← dbGetTipHeightIndexed db
    let tipHash ← dbGetAccumulatorTipHash db
    .ok ⟨root, tipHash, tipHeight⟩

def getAccumulatorDigest (db : Buckets) : Except GoError (Bytes.Sized 32) := do
  let snapshot ← idx.getAccumulatorSnapshot db
  .ok snapshot.root

end Index

end Obtcd.ExpiryIndex
