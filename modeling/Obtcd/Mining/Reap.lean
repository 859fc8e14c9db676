import Obtcd.ExpiryIndex.Prefix
import Obtcd.Mining.ReapTx

/-!
# Building a REAP transaction

The miner's side of REAP: package `mining/reap` and `maybeBuildREAPTx`.  It asks the expiry index
for the first expired outputs, selects as many as the tier limits and a weight estimate allow,
builds a transaction from the outputs as the UTXO set has them, and cuts inputs off the end until
the real weight fits.

Nothing here is shared with validation except the weight of a transaction: classification, tiers,
tax, dust rule, marker and order are all written a second time, and are modelled a second time.

The statistics a plan carries are for the log only and are left out, as is the sort mode, which
`SelectPrefixCandidates` does not look at.
-/

namespace Obtcd.Mining

open Chaincfg (Params isOBTC)

/-! ## Parameters -/

structure REAPParams where
  maxInputs : Int
  dustMaxInputs : Int
  weightBudget : Int64
  scanBatch : Int
  taxNum : Int64
  taxDen : Int64
  dustThresholdSat : Int64
deriving DecidableEq

def defaultREAPParams : REAPParams where
  maxInputs := 1000
  dustMaxInputs := 0
  weightBudget := 400000
  scanBatch := 10000
  taxNum := 30
  taxDen := 100
  dustThresholdSat := 720

def defaultREAPParamsForNet (net : Params) : REAPParams :=
  let d := defaultREAPParams
  let p :=
    match Chaincfg.getExpiryParams net with
    | none => d
    | some e =>
      { maxInputs := if e.reapMaxInputs > 0 then e.reapMaxInputs else d.maxInputs
        dustMaxInputs := if e.reapDustMaxInputs > 0 then e.reapDustMaxInputs else d.dustMaxInputs
        weightBudget := if e.reapMaxWeight > 0 then e.reapMaxWeight else d.weightBudget
        scanBatch := d.scanBatch
        taxNum := if e.reapTaxNumerator > 0 then e.reapTaxNumerator else d.taxNum
        taxDen := if e.reapTaxDenominator > 0 then e.reapTaxDenominator else d.taxDen
        dustThresholdSat :=
          if e.reapDustThresholdSat ≥ 0 then e.reapDustThresholdSat else d.dustThresholdSat }
  if net.net = Chaincfg.obtcRegNet then { p with scanBatch := 2000 }
  else if net.net = Chaincfg.obtcTestNet then { p with scanBatch := 5000 }
  else p

def REAPParams.validate (p : REAPParams) : Except GoError Unit :=
  if p.maxInputs ≤ 0 then .error (.other "MaxInputs must be > 0")
  else if p.dustMaxInputs < 0 then .error (.other "DustMaxInputs must be >= 0")
  else if p.weightBudget < 0 then .error (.other "WeightBudget must be >= 0")
  else if p.scanBatch ≤ 0 then .error (.other "ScanBatch must be > 0")
  else if p.taxDen ≤ 0 then .error (.other "TaxDen must be > 0")
  else if p.taxNum < 0 then .error (.other "TaxNum must be >= 0")
  else if p.dustThresholdSat < 0 then .error (.other "DustThresholdSat must be >= 0")
  else .ok ()

def REAPParams.prefixCandidateLimit (p : REAPParams) : Int :=
  if p.dustMaxInputs ≤ 0 then p.maxInputs
  else MachineInt.wrapInt (p.maxInputs + p.dustMaxInputs)

/-! ## Selection -/

def isDustTierAmount (amount dustThresholdSat : Int64) : Bool :=
  dustThresholdSat > 0 && amount > 0 && amount < dustThresholdSat

def canSelectTierCandidate (dustTier : Bool) (dustCount normalCount : Nat) (p : REAPParams) : Bool :=
  if p.dustMaxInputs ≤ 0 then ((dustCount + normalCount : Nat) : Int) < p.maxInputs
  else if (dustCount : Int) ≥ p.dustMaxInputs || (normalCount : Int) ≥ p.maxInputs then false
  else if dustTier then (dustCount : Int) < p.dustMaxInputs
  else (normalCount : Int) < p.maxInputs

def tierLimitReached (dustCount normalCount : Nat) (p : REAPParams) : Bool :=
  if p.dustMaxInputs ≤ 0 then ((dustCount + normalCount : Nat) : Int) ≥ p.maxInputs
  else (dustCount : Int) ≥ p.dustMaxInputs || (normalCount : Int) ≥ p.maxInputs

def estBaseWeight : Nat := 40
def estInputWeight : Nat := 164
def estInputWeightUpper : Nat := 600
def estRefundOutputWeight : Nat := 172
def estMarkOutputWeight : Nat := 120

def estimateBlueprintWeight (numInputs : Nat) : Nat :=
  estBaseWeight + numInputs * estInputWeightUpper + numInputs * estRefundOutputWeight +
    estMarkOutputWeight

def estimateTieredBlueprintWeight (dustInputs normalInputs : Nat) : Nat :=
  estBaseWeight + (dustInputs + normalInputs) * estInputWeight +
    normalInputs * estRefundOutputWeight + estMarkOutputWeight

def estimateNextWeight (dustTier : Bool) (dustCount normalCount inputCount : Nat) (p : REAPParams) :
    Nat :=
  if p.dustMaxInputs ≤ 0 then estimateBlueprintWeight (inputCount + 1)
  else if dustTier then estimateTieredBlueprintWeight (dustCount + 1) normalCount
  else estimateTieredBlueprintWeight dustCount (normalCount + 1)

def taxForValue (v : Int64) (p : REAPParams) : Int64 :=
  if v ≤ 0 || p.taxDen ≤ 0 || p.taxNum ≤ 0 then 0 else v * p.taxNum / p.taxDen

def applyDustRule (value refund tax dustThresholdSat : Int64) : Int64 × Int64 :=
  if dustThresholdSat ≤ 0 then (refund, tax)
  else if value > 0 && value < dustThresholdSat then (0, value)
  else (refund, tax)

/-- The refund of an amount, as the miner computes it. -/
def refundFor (r : REAPParams) (v : Int64) : Int64 :=
  (applyDustRule v (v - taxForValue v r) (taxForValue v r) r.dustThresholdSat).1

/-- The tax on an amount, as the miner computes it. -/
def taxFor (r : REAPParams) (v : Int64) : Int64 :=
  (applyDustRule v (v - taxForValue v r) (taxForValue v r) r.dustThresholdSat).2

structure REAPPlan where
  inputs : List OutPoint
  taxTotal : Int64
  refundTotal : Int64
  height : Int32
deriving DecidableEq

/-- The plan with one more candidate. -/
def REAPPlan.pick (plan : REAPPlan) (c : ReapPrefixCandidate) (p : REAPParams) : REAPPlan :=
  let tax := taxForValue c.amount p
  let (refund, tax) := applyDustRule c.amount (c.amount - tax) tax p.dustThresholdSat
  { plan with
    inputs := plan.inputs ++ [c.outPoint]
    taxTotal := plan.taxTotal + tax
    refundTotal := plan.refundTotal + refund }

/-- The loop of `SelectPrefixCandidates`. -/
def selectLoop (p : REAPParams) : Nat → Nat → REAPPlan → List ReapPrefixCandidate → REAPPlan
  | _, _, plan, [] => plan
  | dustCount, normalCount, plan, c :: cs =>
    let dustTier := isDustTierAmount c.amount p.dustThresholdSat
    if !canSelectTierCandidate dustTier dustCount normalCount p then plan
    else if p.weightBudget > 0 &&
        (estimateNextWeight dustTier dustCount normalCount plan.inputs.length p : Int) >
          p.weightBudget.toInt && !plan.inputs.isEmpty then plan
    else
      let plan' := plan.pick c p
      let dustCount' := if dustTier then dustCount + 1 else dustCount
      let normalCount' := if dustTier then normalCount else normalCount + 1
      if tierLimitReached dustCount' normalCount' p then plan'
      else selectLoop p dustCount' normalCount' plan' cs

def selectPrefixCandidates (tip : Int32) (candidates : List ReapPrefixCandidate) (p : REAPParams) :
    Except GoError REAPPlan :=
  if p.maxInputs ≤ 0 then .error (.other ("invalid MaxInputs: " ++ toString p.maxInputs))
  else if p.dustMaxInputs < 0 then
    .error (.other ("invalid DustMaxInputs: " ++ toString p.dustMaxInputs))
  else .ok (selectLoop p 0 0 ⟨[], 0, 0, tip⟩ candidates)

/-! ## The transaction -/

def markerDigest (inputs : List OutPoint) : Bytes :=
  Strconv.hexEncode (Sha256.sum256 (inputs.flatMap OutPoint.write)).val

def markerPayload (height : Int32) (count : Nat) (inputs : List OutPoint) : Bytes :=
  [reapSep].intercalate
    [reapTag, Strconv.itoa height.toInt, Strconv.itoa count, markerDigest inputs]

def markerScript (height : Int32) (count : Nat) (inputs : List OutPoint) : Except String Bytes := do
  let script ← Txscript.addOp [] Txscript.opReturn
  Txscript.addData script (markerPayload height count inputs)

/-- What the loop over the inputs adds up. -/
structure Totals where
  inTotal : Int64 := 0
  taxTotal : Int64 := 0
  refundTotal : Int64 := 0
  refundByScript : OrdMap Bytes Int64 := ∅

/-- The totals with one more entry. -/
def Totals.entry (p : REAPParams) (t : Totals) (e : UtxoEntry) : Totals :=
  let tax := taxForValue e.amount p
  let (refund, tax) := applyDustRule e.amount (e.amount - tax) tax p.dustThresholdSat
  { inTotal := t.inTotal + e.amount
    taxTotal := t.taxTotal + tax
    refundTotal := t.refundTotal + refund
    refundByScript :=
      if refund = 0 then t.refundByScript else Tally.add t.refundByScript e.pkScript refund }

/-- One input of the loops of `BuildBlueprint` and `normalizePlan`, which compute the same tax and
refund. -/
def Totals.input (p : REAPParams) (v : UtxoViewpoint) (t : Totals) (op : OutPoint) :
    Except GoError Totals :=
  match v.unspent op with
  | none => .error (.other ("missing utxo in view: " ++ op.string))
  | some e =>
    if e.amount - taxForValue e.amount p < 0 then .error (.other "negative refund amount")
    else .ok (t.entry p e)

/-- The totals of a plan, recomputed from a view. -/
def normalizePlan (plan : REAPPlan) (v : UtxoViewpoint) (p : REAPParams) :
    Except GoError REAPPlan := do
  let t ← plan.inputs.foldlM (Totals.input p v) {}
  .ok { plan with taxTotal := t.taxTotal, refundTotal := t.refundTotal }

/-- The refund outputs are sorted by script, which is the order of the map. -/
def buildBlueprint (plan : REAPPlan) (v : UtxoViewpoint) (p : REAPParams) :
    Except GoError MsgTx := do
  let t ← plan.inputs.foldlM (Totals.input p v) {}
  let refundOutputs := t.refundByScript.toList.map fun r => (⟨r.2, r.1⟩ : TxOut)
  let refundTotal := totalOut refundOutputs
  match markerScript plan.height plan.inputs.length plan.inputs with
  | .error text => .error (.other text)
  | .ok script =>
    let tx : MsgTx :=
      { version := reapTxVersion
        txIn := plan.inputs.map fun op => { previousOutPoint := op, sequence := 0xfffffffe }
        txOut := refundOutputs ++ [⟨0, script⟩]
        lockTime := if plan.height > 0 then (plan.height - 1).toUInt32 else 0 }
    if (plan.taxTotal ≠ 0 || plan.refundTotal ≠ 0) &&
        (plan.taxTotal ≠ t.taxTotal || plan.refundTotal ≠ refundTotal) then
      .error (.other ("plan totals mismatch: plan tax=" ++ toString plan.taxTotal ++ " refund=" ++
        toString plan.refundTotal ++ ", computed tax=" ++ toString t.taxTotal ++ " refund=" ++
        toString refundTotal))
    else if t.inTotal ≠ refundTotal + t.taxTotal then
      .error (.other "input/output invariant broken")
    else .ok tx

/-- The loop of `BuildBudgetedBlueprint`, which cuts the last input off until the weight fits.  Each
round but the last leaves one input less, so the number of inputs is fuel enough. -/
def budgetLoop (v : UtxoViewpoint) (p : REAPParams) (maxTxWeight : Int) :
    Nat → REAPPlan → Except GoError (Option (MsgTx × REAPPlan))
  | 0, _ => .ok none
  | fuel + 1, plan => do
    let normalized ← normalizePlan plan v p
    let tx ← buildBlueprint normalized v p
    let txWeight : Int := getTransactionWeight tx
    let hardOver : Bool := maxTxWeight > 0 && txWeight ≥ maxTxWeight
    let softOver : Bool := p.weightBudget > 0 && txWeight > p.weightBudget.toInt
    if hardOver then
      if plan.inputs.length = 1 then
        .error (.other ("single-input REAP transaction weight " ++ toString txWeight ++
          " exceeds hard limit " ++ toString maxTxWeight))
      else budgetLoop v p maxTxWeight fuel { plan with inputs := plan.inputs.dropLast }
    else if softOver then
      if plan.inputs.length = 1 then .ok none
      else budgetLoop v p maxTxWeight fuel { plan with inputs := plan.inputs.dropLast }
    else .ok (some (tx, normalized))

def buildBudgetedBlueprint (plan : REAPPlan) (v : UtxoViewpoint) (p : REAPParams)
    (maxTxWeight : Int) : Except GoError (Option (MsgTx × REAPPlan)) :=
  budgetLoop v p maxTxWeight plan.inputs.length plan

/-- What building a REAP transaction reads of it. -/
structure BlkTmplGenerator where
  chainParams : Params
  reapIndex : Option ReapPrefixSource
  /-- What the UTXO cache of the chain answers. -/
  fetchEntry : OutPoint → Option UtxoEntry
  /-- `BlockMaxWeight`, if there is a policy. -/
  blockMaxWeight : Option UInt32

/-- The dummy transaction whose inputs are to be loaded. -/
def dummyTx (inputs : List OutPoint) : MsgTx where
  version := 1
  txIn := inputs.map fun op => { previousOutPoint := op, sequence := 0 }
  txOut := []

/-- The first part of `maybeBuildREAPTx`, up to the selection: the plan the transaction is built from,
or none where nothing is built. -/
def templatePlan (g : BlkTmplGenerator) (nextBlockHeight : Int32) :
    Except GoError (Option REAPPlan) :=
  match g.reapIndex, Chaincfg.getExpiryParams g.chainParams with
  | some reapIndex, some expiryParams =>
    if nextBlockHeight < expiryParams.enableAtHeight then .ok none
    else do
      let p := defaultREAPParamsForNet g.chainParams
      p.validate
      let candidates ← reapIndex.reapPrefixCandidates nextBlockHeight p.prefixCandidateLimit.toNat
      if candidates.isEmpty then .ok none
      else do
        let plan ← selectPrefixCandidates nextBlockHeight candidates p
        if plan.inputs.isEmpty then .ok none else .ok (some plan)
  | _, _ => .ok none

/-- A transaction and its fee, or none. -/
def maybeBuildREAPTx (g : BlkTmplGenerator) (nextBlockHeight : Int32) :
    Except GoError (Option (MsgTx × Int64)) := do
  let some plan ← templatePlan g nextBlockHeight | .ok none
  let p := defaultREAPParamsForNet g.chainParams
  let v := UtxoViewpoint.fetchUtxoView g.fetchEntry (dummyTx plan.inputs)
  let maxTxWeight : Int := (g.blockMaxWeight.map fun w => (w.toNat : Int)).getD 0
  let some (tx, plan) ← buildBudgetedBlueprint plan v p maxTxWeight | .ok none
  .ok (some (tx, plan.taxTotal))

end Obtcd.Mining
