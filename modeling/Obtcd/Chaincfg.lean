import Obtcd.Wire

/-!
# Network parameters

The part of package `chaincfg` that the expiry rules depend on: the network magic, the OBTC
networks and the parameters `GetExpiryParams` gives each of them.

`Params` is not a fixed list of networks.  Every rule below is proved for arbitrary parameters, and
`getExpiryParams` is defined exactly where the magic is one of the three OBTC ones
(`getExpiryParams_isSome`).  What the networks have in common is collected in `ExpiryParams.Sane`,
which `getExpiryParams_sane` proves of all of them at once, so that no later proof looks at a
single network.
-/

namespace Obtcd.Chaincfg

/-! ## Networks -/

/-- `wire.ObtcMainNet`. -/
def obtcMainNet : UInt32 := 0x4F425443
/-- `wire.ObtcTestNet`. -/
def obtcTestNet : UInt32 := 0x4F544553
/-- `wire.ObtcRegNet`. -/
def obtcRegNet : UInt32 := 0x4F524547
/-- `wire.MainNet`, the Bitcoin main network. -/
def mainNet : UInt32 := 0xd9b4bef9

/-- `chaincfg.Params`, the fields that validation reads. -/
structure Params where
  name : String
  net : UInt32
  genesisHash : Hash
  coinbaseMaturity : UInt16
  subsidyReductionInterval : Int32
  bip0034Height : Int32
  bip0065Height : Int32
  bip0066Height : Int32

def obtcRegTestParams : Params where
  name := "obtcregtest"
  net := obtcRegNet
  genesisHash := ⟨⟨[0x06, 0x22, 0x6e, 0x46, 0x11, 0x1a, 0x0b, 0x59, 0xca, 0xaf, 0x12, 0x60, 0x43,
    0xeb, 0x5b, 0xbf, 0x28, 0xc3, 0x4f, 0x3a, 0x5e, 0x33, 0x2a, 0x1f, 0xc7, 0xb2, 0xb7, 0x3c, 0xf1,
    0x88, 0x91, 0x0f], rfl⟩⟩
  coinbaseMaturity := 100
  subsidyReductionInterval := 150
  bip0034Height := 100000000
  bip0065Height := 1351
  bip0066Height := 1251

/-- The parameters of the Bitcoin main network. -/
def mainNetParams : Params where
  name := "mainnet"
  net := mainNet
  genesisHash := ⟨⟨[0x6f, 0xe2, 0x8c, 0x0a, 0xb6, 0xf1, 0xb3, 0x72, 0xc1, 0xa6, 0xa2, 0x46, 0xae,
    0x63, 0xf7, 0x4f, 0x93, 0x1e, 0x83, 0x65, 0xe1, 0x5a, 0x08, 0x9c, 0x68, 0xd6, 0x19, 0x00, 0x00,
    0x00, 0x00, 0x00], rfl⟩⟩
  coinbaseMaturity := 100
  subsidyReductionInterval := 210000
  bip0034Height := 227931
  bip0065Height := 388381
  bip0066Height := 363725

def isOBTC (params : Params) : Bool :=
  params.net == obtcMainNet || params.net == obtcTestNet || params.net == obtcRegNet

/-! ## Expiry parameters -/

structure ExpiryParams where
  windowBlocks : UInt64
  listBatchLimit : Int
  startScanHeight : Int32
  enableAtHeight : Int32
  reapConsensusAtHeight : Int32
  replayProtectionAtHeight : Int32
  reapMaxInputs : Int
  reapDustMaxInputs : Int
  reapMaxWeight : Int64
  reapTaxNumerator : Int64
  reapTaxDenominator : Int64
  reapDustThresholdSat : Int64
  expiryCommitmentEnableAtHeight : Int32
deriving DecidableEq

def obtcMainNetForkHeight : Int32 := 1000000
def obtcMainNetFirstBlockHeight : Int32 := obtcMainNetForkHeight + 1
def obtcMainNetActivationHeight : Int32 := obtcMainNetForkHeight + 2016
def obtcRegTestForkHeight : Int32 := 100

/-- The expiry parameters of OBTC mainnet. -/
def mainNetExpiryParams : ExpiryParams where
  windowBlocks := 362880
  listBatchLimit := 10000
  startScanHeight := 0
  enableAtHeight := obtcMainNetActivationHeight
  reapConsensusAtHeight := obtcMainNetActivationHeight
  replayProtectionAtHeight := obtcMainNetFirstBlockHeight
  reapMaxInputs := 256
  reapDustMaxInputs := 1024
  reapMaxWeight := 400000
  reapTaxNumerator := 30
  reapTaxDenominator := 100
  reapDustThresholdSat := 720
  expiryCommitmentEnableAtHeight := obtcMainNetActivationHeight

/-- The expiry parameters of OBTC testnet. -/
def testNetExpiryParams : ExpiryParams where
  windowBlocks := 144
  listBatchLimit := 5000
  startScanHeight := 0
  enableAtHeight := 100
  reapConsensusAtHeight := 120
  replayProtectionAtHeight := 130
  reapMaxInputs := 500
  reapDustMaxInputs := 1000
  reapMaxWeight := 400000
  reapTaxNumerator := 30
  reapTaxDenominator := 100
  reapDustThresholdSat := 720
  expiryCommitmentEnableAtHeight := 100

/-- The expiry parameters of OBTC regtest. -/
def regTestExpiryParams : ExpiryParams where
  windowBlocks := 144
  listBatchLimit := 1000
  startScanHeight := 0
  enableAtHeight := obtcRegTestForkHeight + 10
  reapConsensusAtHeight := obtcRegTestForkHeight + 12
  replayProtectionAtHeight := obtcRegTestForkHeight + 14
  reapMaxInputs := 200
  reapDustMaxInputs := 400
  reapMaxWeight := 400000
  reapTaxNumerator := 30
  reapTaxDenominator := 100
  reapDustThresholdSat := 720
  expiryCommitmentEnableAtHeight := obtcRegTestForkHeight + 10

/-- The expiry parameters of an OBTC network, or none. -/
def getExpiryParams (params : Params) : Option ExpiryParams :=
  if !isOBTC params then none
  else if params.net == obtcMainNet then some mainNetExpiryParams
  else if params.net == obtcTestNet then some testNetExpiryParams
  else if params.net == obtcRegNet then some regTestExpiryParams
  else none

/-- `ExpiryParams.CalculateExpiryKey`: the height is sign-extended to 64 bits. -/
def ExpiryParams.calculateExpiryKey (p : ExpiryParams) (createHeight : Int32) : UInt64 :=
  createHeight.toInt64.toUInt64 + p.windowBlocks

/-! ## What all OBTC networks have in common -/

theorem getExpiryParams_isSome (params : Params) :
    (getExpiryParams params).isSome = isOBTC params := by
  unfold getExpiryParams isOBTC
  by_cases h₁ : params.net = obtcMainNet
  · rw [h₁]; rfl
  by_cases h₂ : params.net = obtcTestNet
  · rw [h₂]; rfl
  by_cases h₃ : params.net = obtcRegNet
  · rw [h₃]; rfl
  simp [h₁, h₂, h₃]

/-- What the rules need of a network's expiry parameters. -/
structure ExpiryParams.Sane (p : ExpiryParams) : Prop where
  window_pos : 0 < p.windowBlocks.toNat
  window_lt : p.windowBlocks.toNat < 2 ^ 31
  startScan : p.startScanHeight = 0
  enable_pos : 0 < p.enableAtHeight.toInt
  enable_le : p.enableAtHeight ≤ p.reapConsensusAtHeight
  commitment : p.expiryCommitmentEnableAtHeight = p.enableAtHeight
  maxInputs_pos : 0 < p.reapMaxInputs
  maxInputs_le : p.reapMaxInputs ≤ p.reapDustMaxInputs
  dustMaxInputs_le : p.reapDustMaxInputs ≤ 1024
  weight : p.reapMaxWeight = 400000
  numerator : p.reapTaxNumerator = 30
  denominator : p.reapTaxDenominator = 100
  dust : p.reapDustThresholdSat = 720

/-- The parameters of an OBTC network are those of one of the three. -/
theorem getExpiryParams_cases {params : Params} {p : ExpiryParams}
    (h : getExpiryParams params = some p) :
    p = mainNetExpiryParams ∨ p = testNetExpiryParams ∨ p = regTestExpiryParams := by
  unfold getExpiryParams at h
  split at h
  · simp at h
  split at h
  · exact .inl (Option.some.inj h).symm
  split at h
  · exact .inr (.inl (Option.some.inj h).symm)
  split at h
  · exact .inr (.inr (Option.some.inj h).symm)
  · simp at h

theorem getExpiryParams_sane {params : Params} {p : ExpiryParams}
    (h : getExpiryParams params = some p) : p.Sane := by
  rcases getExpiryParams_cases h with rfl | rfl | rfl <;> constructor <;> decide

end Obtcd.Chaincfg
