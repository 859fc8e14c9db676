import Obtcd.Blockchain.Error
import Obtcd.Chaincfg

/-!
# Difficulty and the header rules

The difficulty a block has to state, `difficulty.go`, and the header check that compares the two,
`CheckBlockHeaderContext`.

There are four regimes.  A network without retargeting always requires its limit.  From
`ForkDAAStartHeight` on an OBTC network follows the fork's own rule: the reset value at that height
and above it ASERT, an exponential in *the time of the new block* itself.  Everywhere else the
Bitcoin rule applies, where the value changes every `BlocksPerRetarget` blocks and is otherwise the
one of the parent; a network with `ReduceMinDifficulty` may fall back to the limit when the new
block comes late.

Which of them looks at the time of the new block is what `calcNextRequiredDifficulty_congr` says:
only ASERT (`AsertActive`) and the fallback do.

The chain a header extends is the list of its ancestors, the parent first.  Times are seconds since
the epoch, durations are nanoseconds, and both are the `int64` they are in the source.
-/

namespace Obtcd

open Chaincfg (Params)

namespace Chaincfg

/-- `chaincfg.Params`, with the fields that the difficulty rules read. -/
structure PowParams extends Params where
  powLimit : Int
  powLimitBits : UInt32
  poWNoRetargeting : Bool
  enforceBIP94 : Bool
  targetTimespan : Int64
  targetTimePerBlock : Int64
  retargetAdjustmentFactor : Int64
  reduceMinDifficulty : Bool
  minDiffReductionTime : Int64
  forkDAAStartHeight : Int32
  forkDAABootstrapEndHeight : Int32
  forkDAAForkResetBits : UInt32
  forkDAABootstrapHalfLife : Int64
  forkDAANormalHalfLife : Int64

/-- `time.Second`, and the durations the parameters are written in. -/
def second : Int64 := 1000000000
def minute : Int64 := 60 * second
def hour : Int64 := 60 * minute

def obtcMainNetParams : PowParams where
  name := "obtcmainnet"
  net := obtcMainNet
  genesisHash := mainNetParams.genesisHash
  coinbaseMaturity := 100
  subsidyReductionInterval := 210000
  bip0034Height := 1
  bip0065Height := 1
  bip0066Height := 1
  powLimit := 2 ^ 224 - 1
  powLimitBits := 0x1d00ffff
  poWNoRetargeting := false
  enforceBIP94 := true
  targetTimespan := hour * 24 * 14
  targetTimePerBlock := minute * 10
  retargetAdjustmentFactor := 4
  reduceMinDifficulty := false
  minDiffReductionTime := 0
  forkDAAStartHeight := obtcMainNetFirstBlockHeight
  forkDAABootstrapEndHeight := obtcMainNetActivationHeight
  forkDAAForkResetBits := 0x1d00ffff
  forkDAABootstrapHalfLife := hour
  forkDAANormalHalfLife := 48 * hour

end Chaincfg

open Chaincfg (PowParams second)

namespace Blockchain

/-! ## The compact form of a target -/

/-- `workmath.CompactToBig`. -/
def compactToBig (compact : UInt32) : Int :=
  let mantissa := compact &&& 0x007fffff
  let exponent := (compact >>> 24).toNat
  let bn : Int :=
    if exponent ≤ 3 then (mantissa.toNat >>> (8 * (3 - exponent)) : Nat)
    else (mantissa.toNat <<< (8 * (exponent - 3)) : Nat)
  if compact &&& 0x00800000 ≠ 0 then -bn else bn

/-- `len(n.Bytes())`, the number of bytes of the magnitude. -/
def byteLen (n : Int) : Nat :=
  if n = 0 then 0 else n.natAbs.log2 / 8 + 1

/-- `workmath.BigToCompact`. -/
def bigToCompact (n : Int) : UInt32 :=
  if n = 0 then 0
  else
    let exponent := byteLen n
    let mantissa : UInt32 :=
      if exponent ≤ 3 then UInt32.ofNat n.natAbs <<< UInt32.ofNat (8 * (3 - exponent))
      else UInt32.ofNat (n >>> (8 * (exponent - 3))).natAbs
    -- a mantissa that would read as negative moves one byte up
    let (mantissa, exponent) :=
      if mantissa &&& 0x00800000 ≠ 0 then (mantissa >>> 8, exponent + 1) else (mantissa, exponent)
    let compact := UInt32.ofNat (exponent <<< 24) ||| mantissa
    if n < 0 then compact ||| 0x00800000 else compact

/-! ## The chain a header extends -/

/-- What the rules read of an ancestor. -/
structure HeaderCtx where
  height : Int32
  bits : UInt32
  timestamp : Int64
deriving DecidableEq

/-- `RelativeAncestorCtx` of the node `node` with the ancestors `below`. -/
def relativeAncestorCtx (node : HeaderCtx) (below : List HeaderCtx) (distance : Int32) :
    Option HeaderCtx :=
  let height := node.height - distance
  if height < 0 ∨ height > node.height then none
  else (node :: below).find? (·.height == height)

/-- The interface the rules see the chain through.  `formatTime` is how the node's
time zone prints a time in an error. -/
structure ChainCtx where
  params : PowParams
  blocksPerRetarget : Int32
  minRetargetTimespan : Int64
  maxRetargetTimespan : Int64
  verifyCheckpoint : Int32 → Hash → Bool
  findPreviousCheckpoint : Except GoError (Option Int32)
  formatTime : Int64 → String

/-- The retarget values that `New` derives from the parameters. -/
def ChainCtx.ofParams (params : PowParams) (verifyCheckpoint : Int32 → Hash → Bool)
    (findPreviousCheckpoint : Except GoError (Option Int32)) (formatTime : Int64 → String) :
    ChainCtx :=
  let targetTimespan := params.targetTimespan / second
  let targetTimePerBlock := params.targetTimePerBlock / second
  { params, verifyCheckpoint, findPreviousCheckpoint, formatTime
    blocksPerRetarget := (targetTimespan / targetTimePerBlock).toInt32
    minRetargetTimespan := targetTimespan / params.retargetAdjustmentFactor
    maxRetargetTimespan := targetTimespan * params.retargetAdjustmentFactor }

/-- The run-time panic of an integer division by zero. -/
def divideByZero : GoError := .panic "runtime error: integer divide by zero"

/-! ## The difficulty of the fork -/

def asertRadix : Int64 := 65536

/-- The factor `2 ^ (frac / 2 ^ 16)` in 16-bit fixed point, by the cubic of the source. -/
def asertFactor (frac : UInt64) : UInt64 :=
  asertRadix.toUInt64 +
    (195766423245049 * frac + 971821376 * frac * frac + 5127 * frac * frac * frac +
      (1 : UInt64) <<< (47 : UInt64)) >>> (48 : UInt64)

def calcASERTRequiredDifficulty (anchor : Option HeaderCtx) (nextHeight : Int32)
    (newBlockTime targetSpacing halfLife : Int64) (powLimit : Int) : Except GoError UInt32 :=
  match anchor with
  | none => .error (.assert "missing ASERT anchor")
  | some anchor =>
    if halfLife ≤ 0 ∨ targetSpacing ≤ 0 then .error (.assert "invalid ASERT timing parameters")
    else
      let timeDiff := newBlockTime - anchor.timestamp
      let heightDiff := (nextHeight - anchor.height).toInt64
      let targetSpacingSeconds := targetSpacing / second
      let halfLifeSeconds := halfLife / second
      if halfLifeSeconds = 0 then .error divideByZero
      else
        let exponent := ((timeDiff - heightDiff * targetSpacingSeconds) * asertRadix) /
          halfLifeSeconds
        let shifts := exponent >>> (16 : Int64)
        let factor := asertFactor (exponent - shifts * asertRadix).toUInt64
        let scaled := compactToBig anchor.bits * factor.toNat
        let shifted :=
          if shifts < 0 then scaled >>> (-shifts).toUInt64.toNat
          else scaled * 2 ^ shifts.toUInt64.toNat
        let newTarget := shifted >>> (16 : Nat)
        let newTarget := if newTarget ≤ 0 then 1 else newTarget
        .ok (bigToCompact (if newTarget > powLimit then powLimit else newTarget))

/-- Is the difficulty of the block that follows `lastNode` given by ASERT? -/
def AsertActive (params : PowParams) (lastNode : HeaderCtx) : Prop :=
  ¬ (params.forkDAAStartHeight ≤ 0 ∨ params.forkDAAForkResetBits = 0) ∧
    params.forkDAAStartHeight < lastNode.height + 1

instance (params : PowParams) (lastNode : HeaderCtx) : Decidable (AsertActive params lastNode) :=
  inferInstanceAs (Decidable (_ ∧ _))

/-- The ASERT value for the block that follows `lastNode`: the last branch of
`calcOBTCForkNextRequiredDifficulty`, where the anchor and the half-life depend on the height. -/
def asertDifficulty (params : PowParams) (lastNode : HeaderCtx) (below : List HeaderCtx)
    (newBlockTime : Int64) : Except GoError UInt32 :=
  let nextHeight := lastNode.height + 1
  let (anchorHeight, halfLife) :=
    if params.forkDAABootstrapEndHeight ≥ params.forkDAAStartHeight ∧
        nextHeight > params.forkDAABootstrapEndHeight then
      (params.forkDAABootstrapEndHeight, params.forkDAANormalHalfLife)
    else (params.forkDAAStartHeight, params.forkDAABootstrapHalfLife)
  let distance := lastNode.height - anchorHeight
  if distance < 0 then .error (.assert "ASERT anchor is ahead of previous block")
  else
    calcASERTRequiredDifficulty (relativeAncestorCtx lastNode below distance) nextHeight
      newBlockTime params.targetTimePerBlock halfLife params.powLimit

/-- Nothing where the rule of the fork does not apply. -/
def calcOBTCForkNextRequiredDifficulty (params : PowParams) (lastNode : HeaderCtx)
    (below : List HeaderCtx) (newBlockTime : Int64) : Option (Except GoError UInt32) :=
  if params.forkDAAStartHeight ≤ 0 ∨ params.forkDAAForkResetBits = 0 then none
  else if lastNode.height + 1 < params.forkDAAStartHeight then none
  else if lastNode.height + 1 = params.forkDAAStartHeight then some (.ok params.forkDAAForkResetBits)
  else some (asertDifficulty params lastNode below newBlockTime)

/-! ## The required difficulty -/

/-- The last difficulty of the interval that is not the fallback. -/
def findPrevTestNetDifficulty (c : ChainCtx) : List HeaderCtx → UInt32
  | [] => c.params.powLimitBits
  | node :: below =>
    if node.height % c.blocksPerRetarget ≠ 0 ∧ node.bits = c.params.powLimitBits then
      findPrevTestNetDifficulty c below
    else node.bits

/-- The retarget at the end of an interval: the last part of `calcNextRequiredDifficulty`. -/
def retarget (c : ChainCtx) (lastNode : HeaderCtx) (below : List HeaderCtx) :
    Except GoError UInt32 :=
  match relativeAncestorCtx lastNode below (c.blocksPerRetarget - 1) with
  | none => .error (.assert "unable to obtain previous retarget block")
  | some firstNode =>
    let actualTimespan := lastNode.timestamp - firstNode.timestamp
    let adjustedTimespan :=
      if actualTimespan < c.minRetargetTimespan then c.minRetargetTimespan
      else if actualTimespan > c.maxRetargetTimespan then c.maxRetargetTimespan
      else actualTimespan
    let oldTarget :=
      compactToBig (if c.params.enforceBIP94 then firstNode.bits else lastNode.bits)
    let targetTimeSpan := (c.params.targetTimespan / second).toInt
    if targetTimeSpan = 0 then .error (.panic "division by zero")
    else
      let newTarget := oldTarget * adjustedTimespan.toInt / targetTimeSpan
      .ok (bigToCompact (if newTarget > c.params.powLimit then c.params.powLimit else newTarget))

/-- `calcNextRequiredDifficulty` for the block that extends the chain `nodes`. -/
def calcNextRequiredDifficulty (c : ChainCtx) (nodes : List HeaderCtx) (newBlockTime : Int64) :
    Except GoError UInt32 :=
  if c.params.poWNoRetargeting then .ok c.params.powLimitBits
  else
    match nodes with
    | [] => .ok c.params.powLimitBits
    | lastNode :: below =>
      match calcOBTCForkNextRequiredDifficulty c.params lastNode below newBlockTime with
      | some difficulty => difficulty
      | none =>
        if c.blocksPerRetarget = 0 then .error divideByZero
        else if (lastNode.height + 1) % c.blocksPerRetarget ≠ 0 then
          if c.params.reduceMinDifficulty then
            let allowMinTime := lastNode.timestamp + c.params.minDiffReductionTime / second
            if newBlockTime > allowMinTime then .ok c.params.powLimitBits
            else .ok (findPrevTestNetDifficulty c nodes)
          else .ok lastNode.bits
        else retarget c lastNode below

variable {lastNode : HeaderCtx}

/-- Where the fork's rule looks at the time of the block. -/
theorem calcOBTCForkNextRequiredDifficulty_of_asert {params : PowParams}
    (h : AsertActive params lastNode) (below : List HeaderCtx) (time : Int64) :
    calcOBTCForkNextRequiredDifficulty params lastNode below time =
      some (asertDifficulty params lastNode below time) := by
  have hlt := Int32.lt_iff_toInt_lt.1 h.2
  have hle : ¬ lastNode.height + 1 < params.forkDAAStartHeight := by
    rw [Int32.lt_iff_toInt_lt]
    omega
  have hne : lastNode.height + 1 ≠ params.forkDAAStartHeight := by
    intro he
    rw [he] at hlt
    omega
  rw [calcOBTCForkNextRequiredDifficulty, if_neg h.1, if_neg hle, if_neg hne]

/-- Everywhere else the time plays no part in it. -/
theorem calcOBTCForkNextRequiredDifficulty_congr {params : PowParams}
    (h : ¬ AsertActive params lastNode) (below : List HeaderCtx) (time time' : Int64) :
    calcOBTCForkNextRequiredDifficulty params lastNode below time =
      calcOBTCForkNextRequiredDifficulty params lastNode below time' := by
  unfold calcOBTCForkNextRequiredDifficulty
  by_cases hoff : params.forkDAAStartHeight ≤ 0 ∨ params.forkDAAForkResetBits = 0
  · rw [if_pos hoff, if_pos hoff]
  rw [if_neg hoff, if_neg hoff]
  by_cases hlt : lastNode.height + 1 < params.forkDAAStartHeight
  · rw [if_pos hlt, if_pos hlt]
  have heq : lastNode.height + 1 = params.forkDAAStartHeight := by
    have hge : ¬ params.forkDAAStartHeight < lastNode.height + 1 := fun hgt => h ⟨hoff, hgt⟩
    rw [Int32.lt_iff_toInt_lt] at hlt hge
    exact Int32.toInt_inj.1 (by omega)
  rw [if_neg hlt, if_neg hlt, if_pos heq, if_pos heq]

/-- Under ASERT the required difficulty is the ASERT value. -/
theorem calcNextRequiredDifficulty_of_asert {c : ChainCtx}
    (hretarget : c.params.poWNoRetargeting = false) (h : AsertActive c.params lastNode)
    (below : List HeaderCtx) (time : Int64) :
    calcNextRequiredDifficulty c (lastNode :: below) time =
      asertDifficulty c.params lastNode below time := by
  simp only [calcNextRequiredDifficulty, hretarget, Bool.false_eq_true, if_false,
    calcOBTCForkNextRequiredDifficulty_of_asert h]

/-- The required difficulty is independent of the time of the block on a network without the
minimum-difficulty fallback, as long as the block is not under ASERT. -/
theorem calcNextRequiredDifficulty_congr {c : ChainCtx} {nodes : List HeaderCtx}
    (hreduce : c.params.reduceMinDifficulty = false)
    (h : ∀ lastNode ∈ nodes.head?, c.params.poWNoRetargeting = false →
      ¬ AsertActive c.params lastNode) (time time' : Int64) :
    calcNextRequiredDifficulty c nodes time = calcNextRequiredDifficulty c nodes time' := by
  unfold calcNextRequiredDifficulty
  cases hretarget : c.params.poWNoRetargeting with
  | true => rw [if_pos rfl, if_pos rfl]
  | false =>
    rw [if_neg Bool.false_ne_true, if_neg Bool.false_ne_true]
    cases nodes with
    | nil => rfl
    | cons lastNode below =>
      have hnot := h lastNode rfl hretarget
      simp only [calcOBTCForkNextRequiredDifficulty_congr hnot below time time', hreduce,
        Bool.false_eq_true, if_false]

/-! ## The header check -/

/-- `wire.BlockHeader` in memory, where the timestamp is a `time.Time`. -/
structure Header where
  version : Int32
  prevBlock : Hash
  merkleRoot : Hash
  timestamp : Int64
  bits : UInt32
  nonce : UInt32
deriving DecidableEq

/-- The header as it is serialised: the timestamp is cut to 32 bits. -/
def Header.wire (header : Header) : BlockHeader where
  version := header.version
  prevBlock := header.prevBlock
  merkleRoot := header.merkleRoot
  timestamp := header.timestamp.toUInt64.toUInt32
  bits := header.bits
  nonce := header.nonce

def medianTimeBlocks : Nat := 11

/-- `CalcPastMedianTime` of the last node of a chain. -/
def calcPastMedianTime (lastNode : HeaderCtx) (below : List HeaderCtx) : Int64 :=
  let timestamps := ((lastNode :: below).take medianTimeBlocks).map (·.timestamp)
  let sorted := timestamps.mergeSort (fun a b => decide (a ≤ b))
  sorted.getD (sorted.length / 2) 0

/-- In seconds. -/
def maxTimeWarp : Int64 := 600

def assertNoTimeWarp (c : ChainCtx) (blockHeight : Int32)
    (headerTimestamp prevBlockTimestamp : Int64) : Except GoError Unit :=
  if c.blocksPerRetarget = 0 then .error divideByZero
  else if blockHeight % c.blocksPerRetarget ≠ 0 then .ok ()
  else if headerTimestamp < prevBlockTimestamp - maxTimeWarp then
    .error (.rule .errTimewarpAttack ("block's timestamp " ++ c.formatTime headerTimestamp ++
      " is too early on diff adjustment block " ++ c.formatTime prevBlockTimestamp))
  else .ok ()

/-- The checks of `CheckBlockHeaderContext` that `BFFastAdd` skips. -/
def checkHeaderTimeAndDifficulty (c : ChainCtx) (header : Header) (prevNode : HeaderCtx)
    (below : List HeaderCtx) : Except GoError Unit := do
  let expectedDifficulty ← calcNextRequiredDifficulty c (prevNode :: below) header.timestamp
  if header.bits ≠ expectedDifficulty then
    .error (.rule .errUnexpectedDifficulty ("block difficulty of " ++ toString header.bits ++
      " is not the expected value of " ++ toString expectedDifficulty))
  else
    let medianTime := calcPastMedianTime prevNode below
    if ¬ header.timestamp > medianTime then
      .error (.rule .errTimeTooOld ("block timestamp of " ++ c.formatTime header.timestamp ++
        " is not after expected " ++ c.formatTime medianTime))
    else if c.params.enforceBIP94 then
      assertNoTimeWarp c (prevNode.height + 1) header.timestamp prevNode.timestamp
    else .ok ()

/-- The checks of `CheckBlockHeaderContext` against the checkpoints. -/
def checkCheckpoints (c : ChainCtx) (header : Header) (blockHeight : Int32) :
    Except GoError Unit := do
  if ¬ c.verifyCheckpoint blockHeight header.wire.blockHash then
    .error (.rule .errBadCheckpoint
      ("block at height " ++ toString blockHeight ++ " does not match checkpoint hash"))
  else
    match ← c.findPreviousCheckpoint with
    | none => .ok ()
    | some checkpointHeight =>
      if blockHeight < checkpointHeight then
        .error (.rule .errForkTooOld ("block at height " ++ toString blockHeight ++
          " forks the main chain before the previous checkpoint at height " ++
          toString checkpointHeight))
      else .ok ()

def checkBlockHeaderContext (c : ChainCtx) (header : Header) (prevNode : HeaderCtx)
    (below : List HeaderCtx) (fastAdd skipCheckpoint : Bool) : Except GoError Unit := do
  let blockHeight := prevNode.height + 1
  (if fastAdd then .ok () else checkHeaderTimeAndDifficulty c header prevNode below)
  if header.version < 2 ∧ blockHeight ≥ c.params.bip0034Height ∨
      header.version < 3 ∧ blockHeight ≥ c.params.bip0066Height ∨
      header.version < 4 ∧ blockHeight ≥ c.params.bip0065Height then
    .error (.rule .errBlockVersionTooOld
      ("new blocks with version " ++ toString header.version ++ " are no longer valid"))
  else if skipCheckpoint then .ok ()
  else checkCheckpoints c header blockHeight

end Blockchain

/-- `workmath.CalcWork`. -/
def BlockTree.calcWork (bits : UInt32) : Nat :=
  let difficultyNum := Blockchain.compactToBig bits
  if difficultyNum ≤ 0 then 0 else 2 ^ 256 / (difficultyNum.toNat + 1)

end Obtcd
