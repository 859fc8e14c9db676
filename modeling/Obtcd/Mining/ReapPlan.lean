import Obtcd.ExpiryIndex.Scan
import Obtcd.Mining.Selector
import Obtcd.Mining.Tiers

/-!
# The plan that `getreapplan` reports

`getreapplan` is a dry run of the REAP transaction of the next block.  The block template asks the
index for the first expired outputs in canonical order and selects from them.  The command was
written against the older interface: it scans `expiry-to-outpoints`, loads the first `maxCandidates`
outputs the scan gives into a view, scans once more for everything expired, drops what the view does
not have, sorts what is left into canonical order and selects from that.

Both selections are the same loop, and on an OBTC network the weight budget never ends it, so what a
list of candidates leads to is `picked`: the candidates before which no cap has been reached.  The
two plans are therefore the same exactly when the scan reaches all of them
(`getReapPlan_iff`).  The scan does not know amounts, and amounts come second in the canonical
order: with more expired outputs than `maxCandidates`, the smallest of a height may not be among
those the view has.

## How the argument goes

`collectOutpoints_eq` and `selectCandidatesWithScanner_eq` put the pages of the two scans together.
Sorting the rows that the view has gives the expired outputs in canonical order, without those that
are not loaded (`sort_liveRows`).  So both plans are made of what is `picked`, here from a list and
there from a filter of it (`templatePlan_eq`, `selectedPlan_eq`), and they agree exactly when the
filter drops nothing that is picked (`planOf?_filter_eq_iff`).
-/

namespace Obtcd

open ExpiryIndex.ExpiryParams UtxoViewpoint Chaincfg List

namespace Mining

open ExpiryIndex (Index Buckets ExpiringUTXO scanPage)
open Reap (InRange)

/-! ## Selection with a scanner -/

/-- The rows of a page that the view knows to be unspent, as candidates. -/
def liveRows (view : UtxoViewpoint) (rows : List ExpiringUTXO) : List Candidate :=
  rows.filterMap fun row =>
    (view.unspent row.outPoint).map fun entry => ⟨row.outPoint, row.expiryKey, entry.amount⟩

/-- Its second loop is that of `SelectPrefixCandidates`, written out
again.  `pages` bounds the number of pages that are read. -/
def selectCandidatesWithScanner (pages : Nat) (tip : Int32)
    (scan : UInt64 → UInt64 → Int → Option OutPoint → Except GoError (List ExpiringUTXO × Bool))
    (view : UtxoViewpoint) (p : REAPParams) (mode : SortMode) : Except GoError REAPPlan :=
  if p.maxInputs ≤ 0 then .error (.other ("invalid MaxInputs: " ++ toString p.maxInputs))
  else if p.dustMaxInputs < 0 then
    .error (.other ("invalid DustMaxInputs: " ++ toString p.dustMaxInputs))
  else do
    let scanBatch := if p.scanBatch ≤ 0 then 10000 else p.scanBatch
    let all ← readPages (scanPage scan tip.toInt64.toUInt64 scanBatch) (fun _ => false)
      (fun all rows => all ++ liveRows view rows) pages none []
    .ok (selectLoop p 0 0 ⟨[], 0, 0, tip⟩ ((sortCandidates all mode).map Candidate.toPrefix))

/-- Each page of the index but the last has a row, so one page more than the index has rows is
enough. -/
def pageBound (db : Buckets) : Nat := db.expiry2Outpoints.toList.length + 1

def selectCandidates (tip : Int32) (idx : Index) (db : Buckets) (view : UtxoViewpoint)
    (p : REAPParams) (mode : SortMode) : Except GoError REAPPlan :=
  selectCandidatesWithScanner (pageBound db) tip (idx.scanExpiringUTXOs db) view p mode

def estimatePlanWeight (dustCount normalCount inputCount : Nat) (p : REAPParams) : Nat :=
  if p.dustMaxInputs ≤ 0 then estimateBlueprintWeight inputCount
  else estimateTieredBlueprintWeight dustCount normalCount

/-! ## The dry run -/

structure DryRunSummary where
  picked : Nat
  taxTotal : Int64
  refundTotal : Int64
  estWeight : Nat
  markerHash : Bytes

/-- What the loop of `BuildDryRunSummary` adds up. -/
structure DryRunTotals where
  taxTotal : Int64 := 0
  refundTotal : Int64 := 0
  dustCount : Nat := 0
  normalCount : Nat := 0

/-- One input of that loop. -/
def DryRunTotals.input (p : REAPParams) (view : UtxoViewpoint) (t : DryRunTotals) (op : OutPoint) :
    Except GoError DryRunTotals :=
  match view.unspent op with
  | none => .error (.other ("missing utxo in view: " ++ op.string))
  | some entry =>
    let tax := taxForValue entry.amount p
    let refund := entry.amount - tax
    if refund < 0 then .error (.other "negative refund total")
    else
      let (refund, tax) := applyDustRule entry.amount refund tax p.dustThresholdSat
      let dustTier := isDustTierAmount entry.amount p.dustThresholdSat
      .ok
        { taxTotal := t.taxTotal + tax
          refundTotal := t.refundTotal + refund
          dustCount := if dustTier then t.dustCount + 1 else t.dustCount
          normalCount := if dustTier then t.normalCount else t.normalCount + 1 }

def buildDryRunSummary (plan : REAPPlan) (view : UtxoViewpoint) (p : REAPParams) :
    Except GoError DryRunSummary := do
  let t ← plan.inputs.foldlM (DryRunTotals.input p view) {}
  .ok
    { picked := plan.inputs.length
      taxTotal := t.taxTotal
      refundTotal := t.refundTotal
      estWeight := estimatePlanWeight t.dustCount t.normalCount plan.inputs.length p
      markerHash := markerDigest plan.inputs }

/-- `btcjson.GetReapPlanResult`. -/
structure GetReapPlanResult where
  height : Int32
  enabled : Bool := false
  active : Bool := false
  reason : String := ""
  picked : Nat := 0
  taxTotal : Int64 := 0
  refundTotal : Int64 := 0
  estWeight : Nat := 0
  markerHash : Bytes := []

/-- `btcjson.RPCError`. -/
structure RPCError where
  code : Int
  message : String

/-- `btcjson.ErrRPCInternal.Code`. -/
def errRPCInternalCode : Int := -32603

/-- The answer to an error that has no code of its own. -/
def rpcInternal {α : Type} (before : String) : Except GoError α → Except RPCError α
  | .ok a => .ok a
  | .error e => .error ⟨errRPCInternalCode, before ++ e.text⟩

/-- What the command reads of it.  The chain and its parameters are always set. -/
structure RpcServerConfig where
  chainParams : Params
  /-- `ExpiryIndex`, and the buckets it reads. -/
  expiryIndex : Option (Index × Buckets)
  /-- The height of the best block. -/
  bestHeight : Int32
  /-- What the UTXO cache of the chain answers. -/
  fetchEntry : OutPoint → Option UtxoEntry

/-- How many outputs are loaded into the view. -/
def maxCandidates (p : REAPParams) : Int :=
  let prefixLimit := p.prefixCandidateLimit
  let maxCandidates := prefixLimit * 20
  let maxCandidates := if maxCandidates < prefixLimit then prefixLimit else maxCandidates
  if maxCandidates > 50000 then 50000 else maxCandidates

/-- The loop that collects the outpoints to load, page by page and as many as fit. -/
def collectOutpoints (idx : Index) (db : Buckets) (p : REAPParams) (nextHeight : Int32) :
    Except GoError (List OutPoint) :=
  let limit := (maxCandidates p).toNat
  readPages (scanPage (idx.scanExpiringUTXOs db) nextHeight.toInt64.toUInt64 p.scanBatch)
    (fun outpoints => decide (limit ≤ outpoints.length))
    (fun outpoints rows =>
      outpoints ++ (rows.map ExpiringUTXO.outPoint).take (limit - outpoints.length))
    (pageBound db) none []

namespace RpcServerConfig

variable (s : RpcServerConfig)

/-- The part of `handleGetReapPlan` that selects: the plan and the view it is made from, or none
where nothing is collected or picked. -/
def selectedPlan (idx : Index) (db : Buckets) (p : REAPParams) (nextHeight : Int32) :
    Except RPCError (Option (REAPPlan × UtxoViewpoint)) := do
  let outpoints ← rpcInternal "failed to scan expiring UTXOs: "
    (collectOutpoints idx db p nextHeight)
  if outpoints.isEmpty then .ok none
  else do
    let view := fetchUtxoView s.fetchEntry (dummyTx outpoints)
    let plan ← rpcInternal "REAP candidate selection failed: "
      (selectCandidates nextHeight idx db view p .strict)
    if plan.inputs.isEmpty then .ok none else .ok (some (plan, view))

def handleGetReapPlan : Except RPCError GetReapPlanResult :=
  let nextHeight := s.bestHeight + 1
  match s.expiryIndex with
  | none =>
    .ok { height := nextHeight, reason := "expiry index disabled; use --expiryindex to enable" }
  | some (idx, db) =>
    if !isOBTC s.chainParams then .ok { height := nextHeight, reason := "not an OBTC network" }
    else
      match getExpiryParams s.chainParams with
      | none => .ok { height := nextHeight, reason := "expiry parameters unavailable" }
      | some expiryParams =>
        if nextHeight < expiryParams.enableAtHeight then
          .ok
            { height := nextHeight
              enabled := true
              reason := "REAP not yet active; activates at height " ++
                toString expiryParams.enableAtHeight.toInt }
        else do
          let p := defaultREAPParamsForNet s.chainParams
          rpcInternal "invalid REAP params: " p.validate
          match ← s.selectedPlan idx db p nextHeight with
          | none => .ok { height := nextHeight, enabled := true, active := true }
          | some (plan, view) => do
            let summary ← rpcInternal "REAP dry-run summary failed: "
              (buildDryRunSummary plan view p)
            .ok
              { height := nextHeight
                enabled := true
                active := true
                picked := summary.picked
                taxTotal := summary.taxTotal
                refundTotal := summary.refundTotal
                estWeight := summary.estWeight
                markerHash := summary.markerHash }

end RpcServerConfig

/-! ## What the scan loads -/

/-- The outpoints a dummy transaction loads: its inputs, unless it looks like a coinbase. -/
def loadedBy (ops : List OutPoint) : List OutPoint :=
  if isCoinBaseTx (dummyTx ops) then [] else ops

theorem loadedBy_of_length {ops : List OutPoint} (h : ops.length ≠ 1) : loadedBy ops = ops := by
  have hcb : isCoinBaseTx (dummyTx ops) = false := by
    rw [isCoinBaseTx, dummyTx]
    split
    · next heq =>
      have hlen := congrArg List.length heq
      rw [length_map] at hlen
      exact absurd hlen h
    · rfl
  rw [loadedBy, hcb, if_neg (by decide)]

theorem unspent_dummyTx (fetch : OutPoint → Option UtxoEntry) (ops : List OutPoint)
    (op : OutPoint) : (fetchUtxoView fetch (dummyTx ops)).unspent op =
      if op ∈ loadedBy ops then (fetch op).filter fun e => !e.spent else none := by
  have hload : (dummyTx ops).outPoints ++ (if isCoinBaseTx (dummyTx ops) then []
      else (dummyTx ops).txIn.map TxIn.previousOutPoint) = loadedBy ops := by
    have hout : (dummyTx ops).outPoints = [] := rfl
    have hin : (dummyTx ops).txIn.map TxIn.previousOutPoint = ops := by
      simp [dummyTx, Function.comp_def]
    rw [hout, hin, nil_append, loadedBy]
  rw [unspent, fetchUtxoView, hload, lookupEntry_fetchUtxosFromCache, lookupEntry_new]
  split <;> rfl

theorem scanBatch_pos (net : Params) : 0 < (defaultREAPParamsForNet net).scanBatch := by
  have hbatch : (defaultREAPParamsForNet net).scanBatch =
      if net.net = obtcRegNet then 2000
      else if net.net = obtcTestNet then 5000 else 10000 := by
    rw [defaultREAPParamsForNet]
    split
    · rfl
    split
    · rfl
    · split <;> rfl
  rw [hbatch]
  split_ifs <;> decide

variable {p : ExpiryParams}

theorem validate_defaultREAPParamsForNet {params : Params} (h : getExpiryParams params = some p) :
    (defaultREAPParamsForNet params).validate = .ok () := by
  have hm := defaultREAPParamsForNet_matches h
  have hp := getExpiryParams_sane h
  have h₁ := hp.maxInputs_pos
  have h₂ := hp.maxInputs_le
  have hbatch := scanBatch_pos params
  rw [REAPParams.validate, hm.maxInputs, hm.dustMaxInputs, hm.weightBudget, hm.taxDen, hm.taxNum,
    hm.dust, hp.weight, hp.denominator, hp.numerator, hp.dust, if_neg (by omega), if_neg (by omega),
    if_neg (by decide), if_neg (by omega), if_neg (by decide), if_neg (by decide),
    if_neg (by decide)]

section Scan

variable {idx : Index} (hidx : idx.disabled = false) {u : Utxos} {db : Buckets}
  (hrep : idx.expiryParams.RepBuckets u db) {r : REAPParams} (hbatch : 0 < r.scanBatch)
  (height : Int32)

include hrep in
/-- The pages that may be read are enough for the expired rows. -/
theorem length_expiredRows_lt : (idx.expiryParams.expiredRows u height).length < pageBound db := by
  have hkeys := congrArg List.length hrep.scanKeys_eq
  rw [length_map, length_map] at hkeys
  have hle := length_filter_le (fun r : ExpiringUTXO =>
    decide (r.expiryKey ≤ height.toInt64.toUInt64)) (idx.expiryParams.rows u)
  rw [pageBound, expiredRows]
  omega

include hidx hrep hbatch

/-- The outpoints that are collected are the first of the expired rows. -/
theorem collectOutpoints_eq : collectOutpoints idx db r height =
    .ok (((idx.expiryParams.expiredRows u height).map (·.outPoint)).take
      (maxCandidates r).toNat) := by
  rw [collectOutpoints]
  generalize (maxCandidates r).toNat = limit
  rw [readPages_eq (by omega) (ExpiryIndex.serves_scanPage hidx hrep height hbatch) ?_ ?_
    (length_expiredRows_lt hrep height), nil_append, length_nil, Nat.sub_zero]
  · intro acc xs ys
    have hroom : limit - (acc ++ (xs.map ExpiringUTXO.outPoint).take (limit - acc.length)).length =
        limit - acc.length - (xs.map ExpiringUTXO.outPoint).length := by
      simp only [length_append, length_take]
      omega
    rw [hroom, map_append, take_append, append_assoc]
  · intro acc xs hfull
    have hzero : limit - acc.length = 0 := Nat.sub_eq_zero_of_le (decide_eq_true_iff.1 hfull)
    rw [hzero, take_zero, append_nil]

/-- The candidates that are collected are the expired rows that the view has. -/
theorem selectCandidatesWithScanner_eq (hmax : 0 < r.maxInputs) (hdust : 0 ≤ r.dustMaxInputs)
    (view : UtxoViewpoint) {pages : Nat} (hpages : pageBound db ≤ pages) :
    selectCandidatesWithScanner pages height (idx.scanExpiringUTXOs db) view r .strict =
      .ok (selectLoop r 0 0 ⟨[], 0, 0, height⟩ ((sortCandidates
        (liveRows view (idx.expiryParams.expiredRows u height)) .strict).map
          Candidate.toPrefix)) := by
  rw [selectCandidatesWithScanner, if_neg (by omega), if_neg (by omega)]
  dsimp only
  rw [if_neg (by omega), readPages_eq (by omega)
    (ExpiryIndex.serves_scanPage hidx hrep height hbatch) ?_ ?_
    (Nat.lt_of_lt_of_le (length_expiredRows_lt hrep height) hpages),
    ok_bind, nil_append]
  · intro acc xs ys
    rw [append_assoc, liveRows, liveRows, liveRows, filterMap_append]
  · intro acc xs hfull
    cases hfull

end Scan

variable {view : UtxoViewpoint}

/-- The candidates of a view that has some outputs of `u`, with their amounts, are, once sorted, those
of all expired candidates whose outputs it has. -/
theorem sort_liveRows {ip : ExpiryIndex.ExpiryParams} {u : Utxos} (loaded : OutPoint → Bool)
    (hview : ∀ op coin, u[op]? = some coin → ip.Covers coin →
      (view.unspent op).map UtxoEntry.amount = if loaded op then some coin.amount else none)
    (height : Int32) :
    (sortCandidates (liveRows view (ip.expiredRows u height)) .strict).map Candidate.toPrefix =
      (ip.expiredCandidates u height).filter fun c => loaded c.outPoint := by
  have hperm := (sortCandidates_perm (liveRows view (ip.expiredRows u height)) .strict).map
    Candidate.toPrefix
  have hmem : ∀ c, c ∈ (liveRows view (ip.expiredRows u height)).map Candidate.toPrefix ↔
      c ∈ (ip.expiredCandidates u height).filter fun c => loaded c.outPoint := by
    intro c
    simp only [liveRows, mem_map, mem_filterMap, Option.map_eq_some_iff, expiredRows,
      expiredCandidates, mem_filter, decide_eq_true_iff, mem_rows, mem_candidates]
    constructor
    · rintro ⟨_, ⟨_, ⟨⟨op, coin, hget, hcov, rfl⟩, hkey⟩, entry, hentry, rfl⟩, rfl⟩
      have hop := hview op coin hget hcov
      rw [show view.unspent op = some entry from hentry, Option.map_some] at hop
      obtain ⟨hmem, hamount⟩ := Option.ite_none_right_eq_some.1 hop.symm
      refine ⟨⟨⟨op, coin, hget, hcov, ?_⟩, hkey⟩, hmem⟩
      rw [candidateOf, Option.some.inj hamount]
      rfl
    · rintro ⟨⟨⟨op, coin, hget, hcov, rfl⟩, hkey⟩, hmem⟩
      have hop := hview op coin hget hcov
      rw [if_pos (show loaded op = true from hmem)] at hop
      obtain ⟨entry, hentry, hamount⟩ := Option.map_eq_some_iff.1 hop
      refine ⟨_, ⟨_, ⟨⟨op, coin, hget, hcov, rfl⟩, hkey⟩, entry, hentry, rfl⟩, ?_⟩
      rw [Candidate.toPrefix, hamount]
      rfl
  -- neither list has anything twice
  have hnodup : ((liveRows view (ip.expiredRows u height)).map Candidate.toPrefix).Nodup := by
    refine Nodup.map ?_ (Nodup.filterMap ?_ (((nodup_rows u).of_map _).filter _))
    · rintro ⟨op, k, x⟩ ⟨op', k', x'⟩ heq
      simpa [Candidate.toPrefix] using heq
    · rintro ⟨op, k⟩ ⟨op', k'⟩ c hc hc'
      obtain ⟨entry, -, rfl⟩ := Option.map_eq_some_iff.1 hc
      obtain ⟨entry', -, heq⟩ := Option.map_eq_some_iff.1 hc'
      simp only [Candidate.mk.injEq] at heq
      rw [heq.1, heq.2.1]
  have hnodup' : ((ip.expiredCandidates u height).filter fun c => loaded c.outPoint).Nodup :=
    (((nodup_candidates u).of_map _).filter _).filter _
  have hsorted : ((ip.expiredCandidates u height).filter fun c => loaded c.outPoint).Pairwise
      fun a b => a.le b = true :=
    ((sorted_candidates u).filter _).filter _
  refine (hperm.trans ((perm_ext_iff_of_nodup hnodup hnodup').2 hmem)).eq_of_pairwise ?_
    (pairwise_map.2 (sorted_sortCandidates _)) hsorted
  intro a b _ _ hab hba
  obtain ⟨op, k, x⟩ := a
  obtain ⟨op', k', x'⟩ := b
  have heq : (⟨op, k, x⟩ : Candidate) = ⟨op', k', x'⟩ := le_antisymm_toPrefix hab hba
  simpa using heq

/-! ## The two plans -/

/-- The plan made of some candidates, if there are any. -/
def planOf? (r : REAPParams) (tip : Int32) (cs : List ReapPrefixCandidate) : Option REAPPlan :=
  if cs.isEmpty then none else some (planOf r tip cs)

variable {cs : List ReapPrefixCandidate} {r : REAPParams}

theorem map_outPoint_of_planOf? {tip : Int32} {cs' : List ReapPrefixCandidate}
    (h : planOf? r tip cs = planOf? r tip cs') : cs.map (·.outPoint) = cs'.map (·.outPoint) := by
  rw [planOf?, planOf?] at h
  cases cs with
  | nil =>
    cases cs' with
    | nil => rfl
    | cons c' cs' => cases h
  | cons c cs =>
    cases cs' with
    | nil => cases h
    | cons c' cs' =>
      have hplan : planOf r tip (c :: cs) = planOf r tip (c' :: cs') := Option.some.inj h
      rw [← inputs_planOf r tip, hplan, inputs_planOf]

theorem isEmpty_inputs_planOf (r : REAPParams) (tip : Int32) (cs : List ReapPrefixCandidate) :
    (planOf r tip cs).inputs.isEmpty = cs.isEmpty := by
  rw [inputs_planOf, isEmpty_map]

/-- The command and the template run on one node: they have the same parameters, index and cache. -/
structure OneNode (s : RpcServerConfig) (g : BlkTmplGenerator) (idx : Index) (db : Buckets) :
    Prop where
  chainParams : s.chainParams = g.chainParams
  expiryIndex : s.expiryIndex = some (idx, db)
  fetchEntry : s.fetchEntry = g.fetchEntry

section Plans

variable {g : BlkTmplGenerator} {idx : Index} {db : Buckets} {u : Utxos} {height : Int32}
  (hr : Ready g idx db u height) (hp : getExpiryParams g.chainParams = some p)
  (hactive : p.enableAtHeight ≤ height)

include hr hp hactive

/-- The plan of the template: the candidates before which no cap has been reached. -/
theorem templatePlan_eq : templatePlan g height = .ok (planOf? (defaultREAPParamsForNet g.chainParams)
    height (picked p 0 0 (idx.expiryParams.expiredCandidates u height))) := by
  have hm := defaultREAPParamsForNet_matches hp
  have hsane := getExpiryParams_sane hp
  have hmax := hsane.maxInputs_pos
  have hdust : 0 < p.reapDustMaxInputs := lt_of_lt_of_le hmax hsane.maxInputs_le
  have hcands : (idx.prefixSource db).reapPrefixCandidates height
      (defaultREAPParamsForNet g.chainParams).prefixCandidateLimit.toNat =
        .ok ((idx.expiryParams.expiredCandidates u height).take
          (defaultREAPParamsForNet g.chainParams).prefixCandidateLimit.toNat) :=
    ExpiryIndex.reapPrefixCandidates_eq hr.enabled hr.buckets (le_of_lt (height_pos hp hactive)) _
  have hlimit : (defaultREAPParamsForNet g.chainParams).prefixCandidateLimit =
      p.reapMaxInputs + p.reapDustMaxInputs := by
    have hdustLe := hsane.dustMaxInputs_le
    have hmaxLe := hsane.maxInputs_le
    rw [REAPParams.prefixCandidateLimit, hm.dustMaxInputs, hm.maxInputs, if_neg (by omega),
      MachineInt.wrapInt_eq (by omega) (by omega)]
  have htake : picked p 0 0 ((idx.expiryParams.expiredCandidates u height).take
      (p.reapMaxInputs + p.reapDustMaxInputs).toNat) =
        picked p 0 0 (idx.expiryParams.expiredCandidates u height) := picked_take (by omega)
  rw [templatePlan, hr.index, hp]
  dsimp only
  rw [if_neg (Int32.not_lt.2 hactive), validate_defaultREAPParamsForNet hp, ok_bind, hcands, ok_bind,
    hlimit, ← htake]
  generalize (idx.expiryParams.expiredCandidates u height).take _ = cs
  cases cs with
  | nil => rfl
  | cons c cs =>
    rw [isEmpty_cons, if_neg (by decide), selectPrefixCandidates,
      if_neg (by rw [hm.maxInputs]; omega), if_neg (by rw [hm.dustMaxInputs]; omega), ok_bind,
      selectLoop_eq_picked hm hdust (getExpiryParams_roomy hp)]
    have hempty := isEmpty_inputs_planOf (defaultREAPParamsForNet g.chainParams) height
      (picked p 0 0 (c :: cs))
    rw [planOf] at hempty
    rw [hempty, planOf?, planOf]
    split <;> rfl

/-- What the view of the command has: the first outputs that the scan gives. -/
def scanned (ip : ExpiryIndex.ExpiryParams) (u : Utxos) (height : Int32) (r : REAPParams) :
    List OutPoint :=
  loadedBy (((ip.expiredRows u height).map (·.outPoint)).take (maxCandidates r).toNat)

omit hactive in
/-- The plan of the command: the same, but only of candidates that the view has. -/
theorem selectedPlan_eq {s : RpcServerConfig} (hs : OneNode s g idx db) :
    ∃ view, (∀ op, (view.unspent op).map UtxoEntry.stxo =
        if op ∈ scanned idx.expiryParams u height (defaultREAPParamsForNet g.chainParams) then u[op]?
        else none) ∧
      s.selectedPlan idx db (defaultREAPParamsForNet g.chainParams) height =
        .ok ((planOf? (defaultREAPParamsForNet g.chainParams) height (picked p 0 0
          ((idx.expiryParams.expiredCandidates u height).filter fun c => c.outPoint ∈
            scanned idx.expiryParams u height (defaultREAPParamsForNet g.chainParams)))).map
              fun plan => (plan, view)) := by
  have hm := defaultREAPParamsForNet_matches hp
  have hsane := getExpiryParams_sane hp
  have hmax := hsane.maxInputs_pos
  have hdust : 0 < p.reapDustMaxInputs := lt_of_lt_of_le hmax hsane.maxInputs_le
  have hbatch := scanBatch_pos g.chainParams
  rw [scanned]
  generalize hr' : defaultREAPParamsForNet g.chainParams = r at *
  have hcollect := collectOutpoints_eq hr.enabled hr.buckets hbatch height
  generalize hops : ((idx.expiryParams.expiredRows u height).map (·.outPoint)).take
    (maxCandidates r).toNat = ops at *
  have hview : ∀ op, ((fetchUtxoView s.fetchEntry (dummyTx ops)).unspent op).map
      UtxoEntry.stxo = if op ∈ loadedBy ops then u[op]? else none := by
    intro op
    rw [unspent_dummyTx, hs.fetchEntry, ← hr.cache op]
    split <;> rfl
  refine ⟨fetchUtxoView s.fetchEntry (dummyTx ops), hview, ?_⟩
  rw [RpcServerConfig.selectedPlan, hcollect, rpcInternal, ok_bind]
  cases ops with
  | nil =>
    have hnone : (idx.expiryParams.expiredCandidates u height).filter
        (fun c => c.outPoint ∈ loadedBy []) = [] := filter_eq_nil_iff.2 fun c _ => by
      simp [loadedBy]
    rw [hnone]
    rfl
  | cons op ops =>
    rw [isEmpty_cons, if_neg (by decide)]
    dsimp only
    have hamounts : ∀ op' coin, u[op']? = some coin → idx.expiryParams.Covers coin →
        ((fetchUtxoView s.fetchEntry (dummyTx (op :: ops))).unspent op').map
          UtxoEntry.amount =
            if decide (op' ∈ loadedBy (op :: ops)) then some coin.amount else none := by
      intro op' coin hcoin _
      have hop := congrArg (Option.map SpentTxOut.amount) (hview op')
      rw [Option.map_map, hcoin] at hop
      refine hop.trans ?_
      simp only [decide_eq_true_eq]
      split <;> rfl
    rw [selectCandidates, selectCandidatesWithScanner_eq hr.enabled hr.buckets hbatch height
      (by rw [hm.maxInputs]; omega) (by rw [hm.dustMaxInputs]; omega) _ (Nat.le_refl _), rpcInternal,
      ok_bind, sort_liveRows _ hamounts, selectLoop_eq_picked hm hdust (getExpiryParams_roomy hp)]
    have hempty := isEmpty_inputs_planOf r height (picked p 0 0
      ((idx.expiryParams.expiredCandidates u height).filter fun c =>
        c.outPoint ∈ loadedBy (op :: ops)))
    rw [planOf] at hempty
    rw [hempty, planOf?, planOf]
    split <;> rfl

end Plans

/-- The scan reaches every candidate before which no cap has been reached. -/
def ScanReaches (p : ExpiryParams) (ip : ExpiryIndex.ExpiryParams) (u : Utxos) (height : Int32)
    (r : REAPParams) : Prop :=
  ∀ k c, (ip.expiredCandidates u height)[k]? = some c →
    ¬ CapReached p (dustCount p (((ip.expiredCandidates u height).take k).map (·.amount)))
      (normalCount p (((ip.expiredCandidates u height).take k).map (·.amount))) →
    c.outPoint ∈ scanned ip u height r

/-- The plans are the same exactly when the scan reaches all that the template picks. -/
theorem planOf?_filter_eq_iff {ip : ExpiryIndex.ExpiryParams} {u : Utxos} {height : Int32} :
    planOf? r height (picked p 0 0 ((ip.expiredCandidates u height).filter fun c =>
        c.outPoint ∈ scanned ip u height r)) =
      planOf? r height (picked p 0 0 (ip.expiredCandidates u height)) ↔
    ScanReaches p ip u height r := by
  have hreach : ScanReaches p ip u height r ↔ ∀ c ∈ picked p 0 0 (ip.expiredCandidates u height),
      c.outPoint ∈ scanned ip u height r := by
    constructor
    · intro h c hc
      obtain ⟨k, hget, hcap⟩ := mem_picked.1 hc
      rw [Nat.zero_add, Nat.zero_add] at hcap
      exact h k c hget hcap
    · intro h k c hget hcap
      exact h c (mem_picked.2 ⟨k, hget, by rwa [Nat.zero_add, Nat.zero_add]⟩)
  rw [hreach]
  constructor
  · intro h c hc
    have hops := map_outPoint_of_planOf? h
    have hmem : c.outPoint ∈ (picked p 0 0 (ip.expiredCandidates u height)).map (·.outPoint) :=
      mem_map_of_mem hc
    rw [← hops] at hmem
    obtain ⟨c', hc', heq⟩ := mem_map.1 hmem
    rw [← heq]
    exact decide_eq_true_iff.1 (mem_filter.1 (picked_subset hc')).2
  · intro h
    rw [picked_filter fun c hc => decide_eq_true (h c hc)]

/-! ## The report -/

/-- What a result reports is a plan, or that there is none. -/
def GetReapPlanResult.Reports (result : GetReapPlanResult) : Option REAPPlan → Prop
  | none => result.picked = 0 ∧ result.taxTotal = 0 ∧ result.refundTotal = 0 ∧ result.markerHash = []
  | some plan => result.picked = plan.inputs.length ∧ result.taxTotal = plan.taxTotal ∧
      result.refundTotal = plan.refundTotal ∧ result.markerHash = markerDigest plan.inputs

/-- The loop of the summary adds up what selection has added up. -/
theorem foldlM_dryRun (hm : r.Matches p) (hp : p.Sane)
    (hcs : ∀ c ∈ cs, InRange c.amount ∧
      ∃ entry, view.unspent c.outPoint = some entry ∧ entry.amount = c.amount)
    {t : DryRunTotals} {plan : REAPPlan} (htax : t.taxTotal = plan.taxTotal)
    (hrefund : t.refundTotal = plan.refundTotal) :
    ∃ t', (cs.map (·.outPoint)).foldlM (DryRunTotals.input r view) t = .ok t' ∧
      t'.taxTotal = (cs.foldl (fun plan c => plan.pick c r) plan).taxTotal ∧
      t'.refundTotal = (cs.foldl (fun plan c => plan.pick c r) plan).refundTotal := by
  induction cs generalizing t plan with
  | nil => exact ⟨t, rfl, htax, hrefund⟩
  | cons c cs ih =>
    obtain ⟨⟨hrange, entry, hentry, hamount⟩, hcs⟩ := forall_mem_cons.1 hcs
    have hsub := Reap.toInt_sub_tax hp hrange
    have hnonneg : ¬ c.amount - taxForValue c.amount r < 0 := by
      rw [taxForValue_eq hm, Int64.lt_iff_toInt_lt, hsub, Int64.toInt_zero]
      have := hrange.1
      omega
    rw [map_cons, foldlM_cons, DryRunTotals.input, hentry]
    dsimp only
    rw [hamount, if_neg hnonneg, ok_bind, foldl_cons]
    refine ih hcs ?_ ?_
    · rw [htax]
      rfl
    · rw [hrefund]
      rfl

theorem buildDryRunSummary_planOf (hm : r.Matches p) (hp : p.Sane)
    (hcs : ∀ c ∈ cs, InRange c.amount ∧
      ∃ entry, view.unspent c.outPoint = some entry ∧ entry.amount = c.amount)
    (tip : Int32) : ∃ summary, buildDryRunSummary (planOf r tip cs) view r = .ok summary ∧
      summary.picked = (planOf r tip cs).inputs.length ∧
      summary.taxTotal = (planOf r tip cs).taxTotal ∧
      summary.refundTotal = (planOf r tip cs).refundTotal ∧
      summary.markerHash = markerDigest (planOf r tip cs).inputs := by
  obtain ⟨t, hfold, htax, hrefund⟩ := foldlM_dryRun hm hp hcs
    (show ({} : DryRunTotals).taxTotal = (⟨[], 0, 0, tip⟩ : REAPPlan).taxTotal from rfl) rfl
  rw [← inputs_planOf r tip] at hfold
  rw [buildDryRunSummary, hfold, ok_bind]
  exact ⟨_, rfl, rfl, htax, hrefund, rfl⟩

/-- The command reports the plan it has selected. -/
theorem handleGetReapPlan_reports {g : BlkTmplGenerator} {idx : Index} {db : Buckets} {u : Utxos}
    {s : RpcServerConfig} (hs : OneNode s g idx db) (hr : Ready g idx db u (s.bestHeight + 1))
    (hp : getExpiryParams g.chainParams = some p) (hactive : p.enableAtHeight ≤ s.bestHeight + 1) :
    ∃ result selected, s.handleGetReapPlan = .ok result ∧
      s.selectedPlan idx db (defaultREAPParamsForNet g.chainParams) (s.bestHeight + 1) =
        .ok selected ∧
      selected.map Prod.fst = planOf? (defaultREAPParamsForNet g.chainParams) (s.bestHeight + 1)
        (picked p 0 0 ((idx.expiryParams.expiredCandidates u (s.bestHeight + 1)).filter fun c =>
          c.outPoint ∈ scanned idx.expiryParams u (s.bestHeight + 1)
            (defaultREAPParamsForNet g.chainParams))) ∧
      result.Reports (selected.map Prod.fst) := by
  have hm := defaultREAPParamsForNet_matches hp
  have hobtc : isOBTC g.chainParams = true := by
    rw [← getExpiryParams_isSome, hp]
    rfl
  obtain ⟨view, hview, hselected⟩ := selectedPlan_eq hr hp hs
  rw [RpcServerConfig.handleGetReapPlan, hs.expiryIndex, hs.chainParams]
  rw [hobtc, hp]
  dsimp only
  rw [Bool.not_true, if_neg (by decide), if_neg (Int32.not_lt.2 hactive),
    validate_defaultREAPParamsForNet hp, rpcInternal, ok_bind, hselected, ok_bind]
  generalize hcs : (idx.expiryParams.expiredCandidates u (s.bestHeight + 1)).filter (fun c =>
    c.outPoint ∈ scanned idx.expiryParams u (s.bestHeight + 1)
      (defaultREAPParamsForNet g.chainParams)) = cs
  have hfound : ∀ c ∈ picked p 0 0 cs, InRange c.amount ∧
      ∃ entry, view.unspent c.outPoint = some entry ∧ entry.amount = c.amount := by
    intro c hc
    have hmem := picked_subset hc
    rw [← hcs] at hmem
    obtain ⟨hmem, hscan⟩ := mem_filter.1 hmem
    obtain ⟨op, coin, hget, -, rfl⟩ :=
      mem_candidates.1 (mem_filter.1 hmem).1
    have hop := hview op
    have hmem' : op ∈ scanned idx.expiryParams u (s.bestHeight + 1)
      (defaultREAPParamsForNet g.chainParams) := decide_eq_true_iff.1 hscan
    rw [if_pos hmem', hget] at hop
    obtain ⟨entry, hentry, rfl⟩ := Option.map_eq_some_iff.1 hop
    exact ⟨hr.amounts op _ hget, entry, hentry, rfl⟩
  rw [planOf?]
  cases hpicked : (picked p 0 0 cs).isEmpty with
  | true => exact ⟨_, _, rfl, rfl, rfl, rfl, rfl, rfl, rfl⟩
  | false =>
    obtain ⟨summary, hsummary, hreports⟩ := buildDryRunSummary_planOf hm
      (getExpiryParams_sane hp) hfound (s.bestHeight + 1)
    rw [if_neg (by decide), Option.map_some]
    dsimp only
    rw [hsummary, rpcInternal, ok_bind]
    exact ⟨_, _, rfl, rfl, rfl, hreports⟩

/-- **When the dry run is the plan of the template.**  On every OBTC network, at every tip and for every
index that represents the unspent outputs: below the activation height there is no plan and none is
reported; from there on the command answers, reports the plan it has selected, and that is the plan
of the template exactly when the scan reaches every candidate before which no cap has been reached. -/
theorem getReapPlan_iff {g : BlkTmplGenerator} {idx : Index} {db : Buckets} {u : Utxos}
    {s : RpcServerConfig} (hs : OneNode s g idx db) (hr : Ready g idx db u (s.bestHeight + 1))
    {p : ExpiryParams} (hp : getExpiryParams g.chainParams = some p) :
    (s.bestHeight + 1 < p.enableAtHeight →
      templatePlan g (s.bestHeight + 1) = .ok none ∧
        ∃ result, s.handleGetReapPlan = .ok result ∧ result.Reports none) ∧
    (p.enableAtHeight ≤ s.bestHeight + 1 →
      ∃ planned result selected, templatePlan g (s.bestHeight + 1) = .ok planned ∧
        s.handleGetReapPlan = .ok result ∧
        s.selectedPlan idx db (defaultREAPParamsForNet g.chainParams) (s.bestHeight + 1) =
          .ok selected ∧
        result.Reports (selected.map Prod.fst) ∧
        (selected.map Prod.fst = planned ↔ ScanReaches p idx.expiryParams u (s.bestHeight + 1)
          (defaultREAPParamsForNet g.chainParams))) := by
  have hobtc : isOBTC g.chainParams = true := by
    rw [← getExpiryParams_isSome, hp]
    rfl
  constructor
  · intro hbefore
    constructor
    · rw [templatePlan, hr.index, hp]
      dsimp only
      rw [if_pos hbefore]
    · rw [RpcServerConfig.handleGetReapPlan, hs.expiryIndex, hs.chainParams]
      rw [hobtc, hp]
      dsimp only
      rw [Bool.not_true, if_neg (by decide), if_pos hbefore]
      exact ⟨_, rfl, rfl, rfl, rfl, rfl⟩
  · intro hactive
    obtain ⟨result, selected, hhandle, hselected, hplan, hreports⟩ :=
      handleGetReapPlan_reports hs hr hp hactive
    refine ⟨_, result, selected, templatePlan_eq hr hp hactive, hhandle, hselected, hreports, ?_⟩
    rw [hplan]
    exact planOf?_filter_eq_iff

/-! ### More expired outputs than the scan loads

Outputs of one transaction, of 100000 satoshis each but for number 12000 with 1000.  All expire at the
same height, so that one comes first in canonical order.  The scan has it last, after the 12000 that
the command loads on the regression test network. -/

namespace Sample

def crowdOp (i : Nat) : OutPoint := ⟨doubleHashRaw [1], UInt32.ofNat i⟩

def crowdCoin (i : Nat) : SpentTxOut :=
  ⟨if i = 12000 then 1000 else 100000, [Txscript.op1], 10, false⟩

/-- The first `n` of the outputs, and the index of them. -/
def crowd : Nat → Utxos × Buckets
  | 0 => (∅, ExpiryIndex.dbPutTipHeightIndexed ⟨∅, ∅, ∅, ∅, ∅⟩ 199)
  | n + 1 => ((crowd n).1.insert (crowdOp n) (crowdCoin n),
      (crowd n).2.putEntry (crowdOp n) (idx.expiryParams.keyOf (crowdCoin n))
        (ExpiryIndex.reapStrictKey (idx.expiryParams.keyOf (crowdCoin n)) (crowdCoin n).amount
          (crowdOp n)))

def crowdEntry (n : Nat) (o : OutPoint) : Option UtxoEntry :=
  ((crowd n).1[o]?).map UtxoEntry.ofCoin

def crowdGenerator (n : Nat) : BlkTmplGenerator where
  chainParams := obtcRegTestParams
  reapIndex := some (idx.prefixSource (crowd n).2)
  fetchEntry := crowdEntry n
  blockMaxWeight := some 4000000

def crowdServer (n : Nat) : RpcServerConfig where
  chainParams := obtcRegTestParams
  expiryIndex := some (idx, (crowd n).2)
  bestHeight := 199
  fetchEntry := crowdEntry n

theorem crowdOp_inj {i j : Nat} (hi : i < 2 ^ 32) (hj : j < 2 ^ 32) (h : crowdOp i = crowdOp j) :
    i = j := by
  have hidx : UInt32.ofNat i = UInt32.ofNat j := congrArg OutPoint.index h
  have hnat := congrArg UInt32.toNat hidx
  rwa [UInt32.toNat_ofNat_of_lt' hi, UInt32.toNat_ofNat_of_lt' hj] at hnat

theorem amount_crowdCoin (i : Nat) : 0 ≤ (crowdCoin i).amount ∧ InRange (crowdCoin i).amount := by
  rw [crowdCoin]
  split <;> exact ⟨by decide, by decide, by decide⟩

theorem covers_crowdCoin (i : Nat) : idx.expiryParams.Covers (crowdCoin i) := by
  change idx.expiryParams.covers 10 = true
  decide

variable {n : Nat}

theorem getElem?_crowd (hn : n ≤ 2 ^ 32) {op : OutPoint} {coin : SpentTxOut} :
    (crowd n).1[op]? = some coin ↔ ∃ i < n, crowdOp i = op ∧ crowdCoin i = coin := by
  induction n with
  | zero => simp [crowd]
  | succ n ih =>
    rw [crowd, OrdMap.getElem?_insert']
    split_ifs with hop
    · constructor
      · intro h
        exact ⟨n, by omega, hop, Option.some.inj h⟩
      · rintro ⟨i, hi, hop', rfl⟩
        rw [crowdOp_inj (by omega) (by omega) (hop'.trans hop.symm)]
    · rw [ih (by omega)]
      constructor
      · rintro ⟨i, hi, h⟩
        exact ⟨i, by omega, h⟩
      · rintro ⟨i, hi, hop', rfl⟩
        refine ⟨i, ?_, hop', rfl⟩
        rcases Nat.lt_succ_iff_lt_or_eq.1 hi with hlt | rfl
        · exact hlt
        · exact absurd hop' hop

theorem repBuckets_crowd (hn : n ≤ 2 ^ 32) :
    idx.expiryParams.RepBuckets (crowd n).1 (crowd n).2 := by
  induction n with
  | zero => exact repBuckets_empty _
  | succ n ih =>
    have hnew : (crowd n).1[crowdOp n]? = none := by
      refine Option.eq_none_iff_forall_ne_some.2 fun coin hget => ?_
      obtain ⟨i, hi, hop, -⟩ := (getElem?_crowd (by omega)).1 hget
      have := crowdOp_inj (by omega) (by omega) hop
      omega
    exact ((ih (by omega)).connect hnew (covers_crowdCoin n) (amount_crowdCoin n).1).2

theorem expiryMeta_crowd (n : Nat) : (crowd n).2.expiryMeta = (crowd 0).2.expiryMeta := by
  induction n with
  | zero => rfl
  | succ n ih => exact ih

theorem ready_crowd (hn : n ≤ 2 ^ 32) :
    Ready (crowdGenerator n) idx (crowd n).2 (crowd n).1 200 where
  index := rfl
  params := by
    change ExpiryIndex.getExpiryParams obtcRegTestParams = _
    decide
  enabled := rfl
  buckets := repBuckets_crowd hn
  tip := by
    rw [ExpiryIndex.dbGetTipHeightIndexed, ExpiryIndex.dbGetIndexMeta, expiryMeta_crowd]
    decide +kernel
  cache o := by
    rw [crowdGenerator]
    dsimp only
    rw [crowdEntry]
    cases (crowd n).1[o]? <;> rfl
  amounts o coin h := by
    obtain ⟨i, -, -, rfl⟩ := (getElem?_crowd hn).1 h
    exact (amount_crowdCoin i).2

theorem oneNode_crowd (n : Nat) : OneNode (crowdServer n) (crowdGenerator n) idx (crowd n).2 :=
  ⟨rfl, rfl, rfl⟩

def crowdCandidate (i : Nat) : ReapPrefixCandidate := ⟨crowdOp i, 154, (crowdCoin i).amount⟩

theorem keyOf_crowdCoin (i : Nat) : idx.expiryParams.keyOf (crowdCoin i) = 154 := by
  change idx.expiryParams.calculateExpiryKey 10 = 154
  decide

theorem mem_expiredCandidates_crowd (hn : n ≤ 2 ^ 32) {c : ReapPrefixCandidate} :
    c ∈ idx.expiryParams.expiredCandidates (crowd n).1 200 ↔ ∃ i < n, crowdCandidate i = c := by
  rw [expiredCandidates, mem_filter, mem_candidates]
  constructor
  · rintro ⟨⟨op, coin, hget, -, rfl⟩, -⟩
    obtain ⟨i, hi, rfl, rfl⟩ := (getElem?_crowd hn).1 hget
    refine ⟨i, hi, ?_⟩
    rw [candidateOf, keyOf_crowdCoin, crowdCandidate]
  · rintro ⟨i, hi, rfl⟩
    refine ⟨⟨crowdOp i, crowdCoin i, (getElem?_crowd hn).2 ⟨i, hi, rfl, rfl⟩, covers_crowdCoin i, ?_⟩,
      ?_⟩
    · rw [candidateOf, keyOf_crowdCoin, crowdCandidate]
    · change decide ((154 : UInt64) ≤ (200 : Int32).toInt64.toUInt64) = true
      decide

/-- The scan has the outputs in the order of their indices. -/
theorem expiredRows_crowd (hn : n ≤ 2 ^ 32) :
    idx.expiryParams.expiredRows (crowd n).1 200 =
      (List.range n).map fun i => ⟨crowdOp i, 154⟩ := by
  have hmem : ∀ r, r ∈ idx.expiryParams.expiredRows (crowd n).1 200 ↔
      r ∈ (List.range n).map fun i => (⟨crowdOp i, 154⟩ : ExpiringUTXO) := by
    intro r
    rw [expiredRows, mem_filter, mem_rows, mem_map]
    constructor
    · rintro ⟨⟨op, coin, hget, -, rfl⟩, -⟩
      obtain ⟨i, hi, rfl, rfl⟩ := (getElem?_crowd hn).1 hget
      refine ⟨i, mem_range.2 hi, ?_⟩
      rw [rowOf, keyOf_crowdCoin]
    · rintro ⟨i, hi, rfl⟩
      refine ⟨⟨crowdOp i, crowdCoin i, (getElem?_crowd hn).2 ⟨i, mem_range.1 hi, rfl, rfl⟩,
        covers_crowdCoin i, ?_⟩, ?_⟩
      · rw [rowOf, keyOf_crowdCoin]
      · change decide ((154 : UInt64) ≤ (200 : Int32).toInt64.toUInt64) = true
        decide
  have hrows : (idx.expiryParams.expiredRows (crowd n).1 200).Pairwise
      fun a b => compare a.key b.key = .lt :=
    (pairwise_map.1 (pairwise_rows _)).filter _
  have hrange : ((List.range n).map fun i => (⟨crowdOp i, 154⟩ : ExpiringUTXO)).Pairwise
      fun a b => compare a.key b.key = .lt := by
    refine pairwise_map.2 (pairwise_lt_range.imp_of_mem ?_)
    intro i j hi hj hlt
    rw [mem_range] at hi hj
    rw [ExpiringUTXO.key, ExpiringUTXO.key, ExpiryIndex.compare_compositeKey, Std.compare_self]
    change compare (ExpiryIndex.encodeOrderedOutPoint (crowdOp i))
      (ExpiryIndex.encodeOrderedOutPoint (crowdOp j)) = .lt
    rw [ExpiryIndex.encodeOrderedOutPoint, ExpiryIndex.encodeOrderedOutPoint,
      Bytes.compare_append (by simp), crowdOp, crowdOp, Std.compare_self]
    rw [UInt32.toNat_ofNat_of_lt' (lt_of_lt_of_le hi hn),
      UInt32.toNat_ofNat_of_lt' (lt_of_lt_of_le hj hn),
      Bytes.compare_be (lt_of_lt_of_le hi hn) (lt_of_lt_of_le hj hn)]
    exact Nat.compare_eq_lt.2 hlt
  exact eq_of_pairwise_lt ExpiringUTXO.key hrows hrange hmem

/-- The last output comes first in canonical order, and all others have the same amount. -/
theorem expiredCandidates_crowd : ∃ cs,
    idx.expiryParams.expiredCandidates (crowd 12001).1 200 = crowdCandidate 12000 :: cs ∧
      cs.map (·.amount) = List.replicate 12000 100000 ∧
      ∀ c ∈ cs, c.outPoint ∈ (List.range 12000).map crowdOp := by
  have hsorted : (idx.expiryParams.expiredCandidates (crowd 12001).1 200).Pairwise
      fun a b => a.le b = true := (sorted_candidates _).filter _
  have hperm : (idx.expiryParams.expiredCandidates (crowd 12001).1 200).Perm
      (crowdCandidate 12000 :: (List.range 12000).map crowdCandidate) := by
    refine Perm.trans ?_ (perm_append_singleton _ _)
    rw [← map_singleton, ← map_append, ← range_succ]
    refine (perm_ext_iff_of_nodup (((nodup_candidates _).of_map _).filter _) ?_).2 fun c => ?_
    · refine List.Nodup.map_on ?_ nodup_range
      intro i hi j hj heq
      rw [mem_range] at hi hj
      exact crowdOp_inj (by omega) (by omega) (congrArg ReapPrefixCandidate.outPoint heq)
    · rw [mem_map]
      simp only [mem_range]
      exact mem_expiredCandidates_crowd (by norm_num)
  -- the smallest amount is smaller than all others
  have hlt : ∀ i < 12000, ¬ (crowdCandidate i).le (crowdCandidate 12000) = true := by
    intro i hi
    rw [ReapPrefixCandidate.le, compareReapInputOrderKey]
    have hamount : compare (crowdCandidate i).orderKey.amount
        (crowdCandidate 12000).orderKey.amount = .gt := by
      change compare (if i = 12000 then (1000 : Int64) else 100000) 1000 = .gt
      rw [if_neg hi.ne]
      decide
    have hexpiry : compare (crowdCandidate i).orderKey.expiry
        (crowdCandidate 12000).orderKey.expiry = .eq := Std.compare_self
    rw [hexpiry, hamount]
    exact Bool.false_ne_true
  generalize idx.expiryParams.expiredCandidates (crowd 12001).1 200 = C at *
  cases C with
  | nil => exact absurd hperm.symm.eq_nil (cons_ne_nil _ _)
  | cons c cs =>
    obtain rfl : crowdCandidate 12000 = c := by
      by_contra hne
      have hrest := (mem_cons.1 (hperm.mem_iff.2 mem_cons_self)).resolve_left hne
      obtain ⟨i, hi, rfl⟩ := mem_map.1
        ((mem_cons.1 (hperm.mem_iff.1 mem_cons_self)).resolve_left (Ne.symm hne))
      exact hlt i (mem_range.1 hi) ((pairwise_cons.1 hsorted).1 _ hrest)
    have hothers : cs.Perm ((List.range 12000).map crowdCandidate) := hperm.cons_inv
    refine ⟨cs, rfl, eq_replicate_iff.2 ⟨?_, ?_⟩, ?_⟩
    · rw [length_map, hothers.length_eq, length_map, length_range]
    · intro a ha
      obtain ⟨c, hc, rfl⟩ := mem_map.1 ha
      obtain ⟨i, hi, rfl⟩ := mem_map.1 (hothers.mem_iff.1 hc)
      exact if_neg (mem_range.1 hi).ne
    · intro c hc
      obtain ⟨i, hi, rfl⟩ := mem_map.1 (hothers.mem_iff.1 hc)
      exact mem_map_of_mem hi

/-- The tax on what is picked depends on the amounts only. -/
theorem taxTotal_planOf_picked (r : REAPParams) (p : ExpiryParams) (tip : Int32)
    (cs : List ReapPrefixCandidate) : (planOf r tip (picked p 0 0 cs)).taxTotal =
      ((picked p 0 0 ((cs.map (·.amount)).map fun a => ⟨op, 0, a⟩)).map (·.amount)).foldl
        (fun t a => t + taxFor r a) 0 := by
  have hpicked : (picked p 0 0 ((cs.map (·.amount)).map fun a => ⟨op, 0, a⟩)).map (·.amount) =
      (picked p 0 0 cs).map (·.amount) := by
    have hf : ∀ c : ReapPrefixCandidate, (((fun a => ⟨op, 0, a⟩ : Int64 → ReapPrefixCandidate) ∘
        fun c => c.amount) c).amount = c.amount := fun _ => rfl
    rw [map_map, picked_map hf, map_map]
    rfl
  rw [hpicked, planOf]
  suffices h : ∀ plan : REAPPlan, ((picked p 0 0 cs).foldl (fun plan c => plan.pick c r)
      plan).taxTotal = ((picked p 0 0 cs).map (·.amount)).foldl (fun t a => t + taxFor r a)
        plan.taxTotal from h ⟨[], 0, 0, tip⟩
  intro plan
  induction picked p 0 0 cs generalizing plan with
  | nil => rfl
  | cons c cs ih =>
    rw [foldl_cons, ih, map_cons, foldl_cons]
    rfl

theorem planOf?_picked {tip : Int32} {a : Int64} {as : List Int64}
    (h : cs.map (·.amount) = a :: as) : planOf? r tip (picked regTestExpiryParams 0 0 cs) =
      some (planOf r tip (picked regTestExpiryParams 0 0 cs)) := by
  cases cs with
  | nil => cases h
  | cons c cs =>
    rw [planOf?, picked, if_neg (show ¬ CapReached regTestExpiryParams 0 0 by decide),
      isEmpty_cons, if_neg (by decide)]

end Sample

open Sample

theorem getReapPlan_iff_two : ∃ planned result,
    templatePlan (crowdGenerator 2) 200 = .ok planned ∧
      (crowdServer 2).handleGetReapPlan = .ok result ∧ result.Reports planned := by
  have hreaches : ScanReaches regTestExpiryParams idx.expiryParams
      (crowd 2).1 200 (defaultREAPParamsForNet obtcRegTestParams) := by
    intro k c hget _
    obtain ⟨i, hi, rfl⟩ := (mem_expiredCandidates_crowd (by norm_num)).1 (List.mem_of_getElem? hget)
    rw [scanned, expiredRows_crowd (by norm_num), List.map_map, List.take_of_length_le
      (by simp; decide), loadedBy_of_length (by simp)]
    exact List.mem_map_of_mem (List.mem_range.2 hi)
  have hp : getExpiryParams (crowdGenerator 2).chainParams = some regTestExpiryParams := by
    decide
  obtain ⟨planned, result, selected, hplanned, hresult, -, hreports, hiff⟩ :=
    (getReapPlan_iff (oneNode_crowd 2) (ready_crowd (by norm_num)) hp).2 (by decide)
  exact ⟨planned, result, hplanned, hresult, hiff.2 hreaches ▸ hreports⟩

/-- With more expired outputs than are loaded, the command reports a plan that no block will have. -/
theorem getReapPlan_crowd :
    Ready (crowdGenerator 12001) idx (crowd 12001).2 (crowd 12001).1 200 ∧
      OneNode (crowdServer 12001) (crowdGenerator 12001) idx (crowd 12001).2 ∧
      ∃ planned result, templatePlan (crowdGenerator 12001) 200 = .ok (some planned) ∧
        planned.taxTotal = 5970300 ∧
        (crowdServer 12001).handleGetReapPlan = .ok result ∧ result.taxTotal = 6000000 := by
  have hr := @Sample.ready_crowd 12001 (by norm_num)
  have hs := oneNode_crowd 12001
  have hp : getExpiryParams (crowdGenerator 12001).chainParams = some regTestExpiryParams := by
    decide
  obtain ⟨cs, hcands, hamounts, hmem⟩ := expiredCandidates_crowd
  have hscanned : scanned idx.expiryParams (crowd 12001).1 200
      (defaultREAPParamsForNet obtcRegTestParams) = (List.range 12000).map crowdOp := by
    have hmax : (maxCandidates (defaultREAPParamsForNet obtcRegTestParams)).toNat = 12000 := by
      decide
    rw [scanned, hmax, expiredRows_crowd (by norm_num), List.map_map, ← List.map_take,
      List.take_range]
    exact loadedBy_of_length (by rw [List.length_map, List.length_range]; decide)
  have hfilter : (idx.expiryParams.expiredCandidates (crowd 12001).1 200).filter
      (fun c => c.outPoint ∈ scanned idx.expiryParams (crowd 12001).1 200
        (defaultREAPParamsForNet obtcRegTestParams)) = cs := by
    rw [hscanned, hcands, List.filter_cons_of_neg, List.filter_eq_self]
    · intro c hc
      exact decide_eq_true (hmem c hc)
    · rw [decide_eq_true_iff, List.mem_map]
      rintro ⟨i, hi, heq⟩
      rw [List.mem_range] at hi
      have := crowdOp_inj (by omega) (by norm_num) heq
      omega
  have hamounts' : (idx.expiryParams.expiredCandidates (crowd 12001).1 200).map
      (·.amount) = 1000 :: List.replicate 12000 100000 := by
    rw [hcands, List.map_cons, hamounts]
    rfl
  have hactive : regTestExpiryParams.enableAtHeight ≤ 200 := by decide
  have htemplate := templatePlan_eq hr hp hactive
  obtain ⟨result, selected, hhandle, -, hplan, hreports⟩ :=
    handleGetReapPlan_reports hs hr hp hactive
  rw [planOf?_picked hamounts'] at htemplate
  have hselected : planOf? (defaultREAPParamsForNet obtcRegTestParams) 200
      (picked regTestExpiryParams 0 0 cs) =
        some (planOf (defaultREAPParamsForNet obtcRegTestParams) 200
          (picked regTestExpiryParams 0 0 cs)) := planOf?_picked hamounts
  have hplan' : selected.map Prod.fst = _ := (hplan.trans (congrArg (fun cs => planOf?
    (defaultREAPParamsForNet obtcRegTestParams) 200
      (picked regTestExpiryParams 0 0 cs)) hfilter)).trans hselected
  rw [hplan'] at hreports
  refine ⟨hr, hs, _, result, htemplate, ?_, hhandle, hreports.2.1.trans ?_⟩
  · rw [taxTotal_planOf_picked, hamounts']
    decide +kernel
  · rw [taxTotal_planOf_picked, hamounts]
    decide +kernel

end Mining

end Obtcd
