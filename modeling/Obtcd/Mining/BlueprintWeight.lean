import Obtcd.Mining.ReapValid

/-!
# The weight of a blueprint

What `BuildBlueprint` returns, field by field, and what it weighs.

A blueprint has no witness, so its weight is four times its size, and its size is a matter of
counting: 41 bytes for each input, the outputs of the scripts that are given something back, and the
marker, whose length depends on the number of digits in the height and in the count
(`getTransactionWeight_blueprintTx`).  Nothing in it gets smaller when an input is added.

`eq_blueprintTx` and `buildBlueprint_normalized` say when a blueprint can be built: when every input
is unspent and none has a negative refund.  The checks at the end of the function never fail on a
normalised plan, whatever wraps around, because they compare sums of the same words in different
orders.

The estimate that selection works with charges 120 for a marker output, which weighs at least 336.
It is an upper bound exactly when the refund outputs need so much less than they are charged
(`MarkerFits`).
-/

namespace Obtcd

open UtxoEntry Txscript OrdMap List

namespace Mining

/-! ## Refund and tax of one amount -/

theorem refundFor_add_taxFor (r : REAPParams) (v : Int64) : refundFor r v + taxFor r v = v := by
  rw [refundFor, taxFor, applyDustRule]
  split_ifs <;> grind

/-! ## The totals -/

theorem totalsOf_append (r : REAPParams) (es : List UtxoEntry) (e : UtxoEntry) :
    totalsOf r (es ++ [e]) = (totalsOf r es).entry r e := by
  rw [totalsOf, foldl_append]
  rfl

section Entry

variable (r : REAPParams) (t : Totals) (e : UtxoEntry)

@[simp] theorem Totals.entry_inTotal : (t.entry r e).inTotal = t.inTotal + e.amount := rfl

@[simp] theorem Totals.entry_taxTotal : (t.entry r e).taxTotal = t.taxTotal + taxFor r e.amount := rfl

@[simp] theorem Totals.entry_refundTotal :
    (t.entry r e).refundTotal = t.refundTotal + refundFor r e.amount := rfl

@[simp] theorem Totals.entry_refundByScript :
    (t.entry r e).refundByScript = if refundFor r e.amount = 0 then t.refundByScript
      else Tally.add t.refundByScript e.pkScript (refundFor r e.amount) := rfl

end Entry

variable {r : REAPParams} {ops : List OutPoint} {v : UtxoViewpoint}

/-- What comes in is what is taxed and what is refunded, even if it wraps around. -/
theorem totalsOf_inTotal (r : REAPParams) (es : List UtxoEntry) :
    (totalsOf r es).inTotal = (totalsOf r es).refundTotal + (totalsOf r es).taxTotal := by
  induction es using List.reverseRecOn with
  | nil => rfl
  | append_singleton es e ih =>
    have hsplit := refundFor_add_taxFor r e.amount
    rw [totalsOf_append, Totals.entry_inTotal, Totals.entry_refundTotal, Totals.entry_taxTotal, ih]
    grind

/-- What a map of refunds adds up to, with the wrap-around of the source. -/
def sumValues (m : OrdMap Bytes Int64) : Int64 := m.toList.foldl (fun t x => t + x.2) 0

theorem foldl_add_snd (l : List (Bytes × Int64)) (t : Int64) :
    l.foldl (fun t x => t + x.2) t = t + l.foldl (fun t x => t + x.2) 0 := by
  induction l generalizing t with
  | nil => simp
  | cons x l ih =>
    rw [foldl_cons, foldl_cons, ih (t + x.2), ih (0 + x.2)]
    grind

theorem foldl_add_perm {l l' : List (Bytes × Int64)} (h : l.Perm l') :
    l.foldl (fun t x => t + x.2) 0 = l'.foldl (fun t x => t + x.2) 0 := by
  have : RightCommutative fun (t : Int64) (x : Bytes × Int64) => t + x.2 :=
    ⟨fun t x y => by grind⟩
  exact h.foldl_eq 0

theorem sumValues_add (m : OrdMap Bytes Int64) (k : Bytes) (a : Int64) :
    sumValues (Tally.add m k a) = sumValues m + a := by
  rw [Tally.add, sumValues, sumValues]
  cases hget : m[k]? with
  | none =>
    rw [foldl_add_perm (toList_insert_perm _ hget), foldl_cons, foldl_add_snd]
    simp only [Option.getD_none]
    grind
  | some b =>
    -- the entry is replaced: take it out and put the new one in
    have herase : (m.erase k)[k]? = none := by simp
    have hinsert : m.insert k (b + a) = (m.erase k).insert k (b + a) := by
      refine ext' fun k' => ?_
      simp only [getElem?_insert', getElem?_erase']
      split_ifs <;> rfl
    rw [Option.getD_some, hinsert, foldl_add_perm (toList_insert_perm _ herase),
      foldl_add_perm (toList_erase_perm hget), foldl_cons, foldl_cons,
      foldl_add_snd, foldl_add_snd _ (0 + b)]
    grind

/-- The refunds by script add up to the refunds. -/
theorem sumValues_totalsOf (r : REAPParams) (es : List UtxoEntry) :
    sumValues (totalsOf r es).refundByScript = (totalsOf r es).refundTotal := by
  induction es using List.reverseRecOn with
  | nil => rfl
  | append_singleton es e ih =>
    rw [totalsOf_append, Totals.entry_refundTotal, Totals.entry_refundByScript]
    split_ifs with hz
    · rw [ih, hz]
      grind
    · rw [sumValues_add, ih]

/-! ## The marker -/

/-- The length of a marker's payload: tag, separators and digest are 71 bytes. -/
def payloadLength (height : Int32) (count : Nat) : Nat :=
  71 + (Strconv.itoa height.toInt).length + (Strconv.itoa count).length

def markerScriptLength (height : Int32) (count : Nat) : Nat :=
  1 + (if payloadLength height count < 76 then 1 else 2) + payloadLength height count

variable (height : Int32)

theorem length_markerPayload (count : Nat) (inputs : List OutPoint) :
    (markerPayload height count inputs).length = payloadLength height count := by
  have hdigest : (markerDigest inputs).length = 64 := by
    rw [markerDigest, Strconv.length_hexEncode, (Sha256.sum256 _).property]
  have htag : reapTag.length = 4 := rfl
  simp only [markerPayload, List.intercalate, List.intersperse, flatten_cons, flatten_nil,
    length_append, length_cons, length_nil, hdigest, htag, payloadLength]
  omega

/-- A count that fits a machine word makes a short payload. -/
theorem payloadLength_le {count : Nat} (hcount : count < 2 ^ 63) :
    72 ≤ payloadLength height count ∧ payloadLength height count ≤ 101 := by
  have hlo := height.le_toInt
  have hhi := height.toInt_lt
  have hheight : Nat.log 10 height.toInt.natAbs < 10 := Nat.log_lt_of_lt_pow' (by decide) (by omega)
  have hcount' : Nat.log 10 (count : Int).natAbs < 19 :=
    Nat.log_lt_of_lt_pow' (by decide) (by omega)
  rw [payloadLength, Strconv.length_itoa, Strconv.length_itoa]
  split_ifs <;> omega

theorem length_pushData {data : Bytes} (hmin : 2 ≤ data.length) (hmax : data.length ≤ 255) :
    (pushData data).length = (if data.length < 76 then 1 else 2) + data.length := by
  match data, hmin with
  | a :: b :: data, _ =>
    have hop : opPushData1.toNat = 76 := rfl
    simp only [pushData, hop]
    split_ifs <;> simp only [length_cons] at * <;> omega

theorem canonicalDataSize_le {data : Bytes} (hmin : 2 ≤ data.length) :
    canonicalDataSize data ≤ 5 + data.length := by
  match data, hmin with
  | a :: b :: data, _ =>
    simp only [canonicalDataSize]
    split_ifs <;> omega

/-- A marker script can be built for every count that fits a machine word. -/
theorem markerScript_eq {count : Nat} (hcount : count < 2 ^ 63) (inputs : List OutPoint) :
    markerScript height count inputs =
      .ok (opReturn :: pushData (markerPayload height count inputs)) := by
  obtain ⟨hlo, hhi⟩ := payloadLength_le height hcount
  have hlen := length_markerPayload height count inputs
  have hsize : canonicalDataSize (markerPayload height count inputs) ≤
      5 + (markerPayload height count inputs).length := canonicalDataSize_le (by omega)
  have hop : addOp [] opReturn = .ok [opReturn] := rfl
  have hmax : maxScriptSize = 10000 := rfl
  have helem : maxScriptElementSize = 520 := rfl
  rw [markerScript, hop, ok_bind, addData, if_neg, if_neg]
  · rfl
  · rw [hlen, helem]
    omega
  · rw [length_singleton, hmax]
    omega

theorem length_marker {count : Nat} (hcount : count < 2 ^ 63) (inputs : List OutPoint) :
    (opReturn :: pushData (markerPayload height count inputs)).length =
      markerScriptLength height count := by
  obtain ⟨hlo, hhi⟩ := payloadLength_le height hcount
  have hlen := length_markerPayload height count inputs
  rw [length_cons, length_pushData (by omega) (by omega), hlen, markerScriptLength]
  omega

theorem length_itoa_mono {a b : Nat} (h : a ≤ b) :
    (Strconv.itoa a).length ≤ (Strconv.itoa b).length := by
  rw [Strconv.length_itoa, Strconv.length_itoa, if_neg (by omega), if_neg (by omega),
    Int.natAbs_natCast, Int.natAbs_natCast]
  have := Nat.log_mono_right (b := 10) h
  omega

theorem markerScriptLength_mono {a b : Nat} (h : a ≤ b) :
    markerScriptLength height a ≤ markerScriptLength height b := by
  have hlen : payloadLength height a ≤ payloadLength height b := by
    have := length_itoa_mono h
    simp only [payloadLength]
    omega
  rw [markerScriptLength, markerScriptLength]
  split_ifs <;> omega

/-! ## The transaction -/

/-- The transaction for some outpoints that unlock some entries. -/
def blueprintTx (r : REAPParams) (height : Int32) (ops : List OutPoint) (es : List UtxoEntry) :
    MsgTx where
  version := reapTxVersion
  txIn := ops.map fun op => { previousOutPoint := op, sequence := 0xfffffffe }
  txOut := (totalsOf r es).refundByScript.toList.map (fun x => ⟨x.2, x.1⟩) ++
    [⟨0, opReturn :: pushData (markerPayload height ops.length ops)⟩]
  lockTime := if height > 0 then (height - 1).toUInt32 else 0

theorem totalOut_eq_sumValues (m : OrdMap Bytes Int64) :
    totalOut (m.toList.map fun x => (⟨x.2, x.1⟩ : TxOut)) = sumValues m := by
  rw [totalOut, sumValues, foldl_map]

section Build

variable {plan : REAPPlan} (hlen : plan.inputs.length < 2 ^ 63)

include hlen

/-- What `BuildBlueprint` returns, if it returns a transaction. -/
theorem eq_blueprintTx {tx : MsgTx} (h : buildBlueprint plan v r = .ok tx) :
    Spendable r v plan.inputs ∧
      tx = blueprintTx r plan.height plan.inputs (plan.inputs.filterMap v.unspent) := by
  rw [buildBlueprint] at h
  obtain ⟨t, ht, h⟩ := bind_eq_ok.1 h
  obtain ⟨hall, rfl⟩ := foldlM_input_iff.1 ht
  rw [markerScript_eq plan.height hlen] at h
  dsimp only at h
  split at h
  · cases h
  split at h
  · cases h
  exact ⟨hall, (Except.ok.inj h).symm⟩

/-- A normalised plan whose inputs are all spendable has a blueprint. -/
theorem buildBlueprint_normalized (hall : Spendable r v plan.inputs) :
    buildBlueprint (normalized r v plan) v r =
      .ok (blueprintTx r plan.height plan.inputs (plan.inputs.filterMap v.unspent)) := by
  have hfold : plan.inputs.foldlM (Totals.input r v) {} =
      .ok (totalsOf r (plan.inputs.filterMap v.unspent)) := foldlM_input_iff.2 ⟨hall, rfl⟩
  rw [buildBlueprint, normalized]
  rw [hfold, ok_bind, markerScript_eq plan.height hlen]
  dsimp only
  rw [totalOut_eq_sumValues, sumValues_totalsOf, totalsOf_inTotal, if_neg (by simp),
    if_neg (by simp)]
  rfl

end Build

/-! ## Its weight -/

/-- The size of the refund outputs. -/
def refundSize (m : OrdMap Bytes Int64) : Nat :=
  (m.toList.map fun x => 8 + varIntSerializeSize x.1.length + x.1.length).sum

/-- The size of a blueprint with so many inputs. -/
def blueprintSize (height : Int32) (count : Nat) (m : OrdMap Bytes Int64) : Nat :=
  8 + varIntSerializeSize count + varIntSerializeSize (m.toList.length + 1) + 41 * count +
    (refundSize m + (9 + markerScriptLength height count))

/-- What a blueprint weighs. -/
theorem getTransactionWeight_blueprintTx (r : REAPParams) (height : Int32)
    (hlen : ops.length < 2 ^ 63) (es : List UtxoEntry) :
    getTransactionWeight (blueprintTx r height ops es) =
      4 * blueprintSize height ops.length (totalsOf r es).refundByScript := by
  have hwitness : (blueprintTx r height ops es).hasWitness = false := by
    simp [MsgTx.hasWitness, blueprintTx]
  have hmarker := length_marker height hlen ops
  have hshort : varIntSerializeSize (markerScriptLength height ops.length) = 1 := by
    have hbounds := payloadLength_le height hlen
    rw [varIntSerializeSize, markerScriptLength, if_pos]
    split_ifs <;> omega
  have hins : ((blueprintTx r height ops es).txIn.map TxIn.serializeSize).sum = 41 * ops.length := by
    have hconst : (blueprintTx r height ops es).txIn.map TxIn.serializeSize = ops.map fun _ => 41 := by
      rw [blueprintTx, map_map]
      rfl
    rw [hconst, map_const', sum_replicate, smul_eq_mul, Nat.mul_comm]
  have houts : ((blueprintTx r height ops es).txOut.map TxOut.serializeSize).sum =
      refundSize (totalsOf r es).refundByScript + (9 + markerScriptLength height ops.length) := by
    have hlast : TxOut.serializeSize ⟨0, opReturn ::
        pushData (markerPayload height ops.length ops)⟩ =
          9 + markerScriptLength height ops.length := by
      rw [TxOut.serializeSize, hmarker, hshort]
    rw [blueprintTx, map_append, sum_append, map_singleton, sum_singleton, hlast, map_map]
    rfl
  have hcountIn : (blueprintTx r height ops es).txIn.length = ops.length := by
    rw [blueprintTx, length_map]
  have hcountOut : (blueprintTx r height ops es).txOut.length =
      (totalsOf r es).refundByScript.toList.length + 1 := by
    rw [blueprintTx, length_append, length_map, length_singleton]
  rw [getTransactionWeight, MsgTx.serializeSize, hwitness, if_neg (by decide), MsgTx.baseSize, hins,
    houts, hcountIn, hcountOut, blueprintSize, witnessScaleFactor]
  omega

/-- Adding under a script leaves the other outputs alone and adds at most one. -/
theorem add_le (m : OrdMap Bytes Int64) (k : Bytes) (a : Int64) :
    m.toList.length ≤ (Tally.add m k a).toList.length ∧ refundSize m ≤ refundSize (Tally.add m k a) := by
  rw [Tally.add, refundSize, refundSize]
  cases hget : m[k]? with
  | none =>
    have hperm := toList_insert_perm ((none : Option Int64).getD 0 + a) hget
    rw [hperm.length_eq, (hperm.map _).sum_eq, length_cons, map_cons, sum_cons]
    omega
  | some b =>
    have herase : (m.erase k)[k]? = none := by simp
    have hinsert : m.insert k ((some b).getD 0 + a) = (m.erase k).insert k ((some b).getD 0 + a) := by
      refine ext' fun k' => ?_
      simp only [getElem?_insert', getElem?_erase']
      split_ifs <;> rfl
    have hperm := toList_insert_perm ((some b).getD 0 + a) herase
    have hperm' := toList_erase_perm hget
    rw [hinsert, hperm.length_eq, hperm'.length_eq, (hperm.map _).sum_eq, (hperm'.map _).sum_eq]
    exact ⟨Nat.le_refl _, Nat.le_refl _⟩

/-- A blueprint does not get lighter when an input is added. -/
theorem blueprintSize_le_append (r : REAPParams) (height : Int32) (count : Nat) (es : List UtxoEntry)
    (e : UtxoEntry) :
    blueprintSize height count (totalsOf r es).refundByScript ≤
      blueprintSize height (count + 1) (totalsOf r (es ++ [e])).refundByScript := by
  have hcount := varIntSerializeSize_mono (Nat.le_succ count)
  have hmarker := markerScriptLength_mono height (Nat.le_succ count)
  obtain ⟨hlen, hsize⟩ : (totalsOf r es).refundByScript.toList.length ≤
        (totalsOf r (es ++ [e])).refundByScript.toList.length ∧
      refundSize (totalsOf r es).refundByScript ≤
        refundSize (totalsOf r (es ++ [e])).refundByScript := by
    rw [totalsOf_append, Totals.entry_refundByScript]
    split_ifs
    · exact ⟨Nat.le_refl _, Nat.le_refl _⟩
    · exact add_le _ _ _
  have houts := varIntSerializeSize_mono (Nat.succ_le_succ hlen)
  simp only [blueprintSize, Nat.succ_eq_add_one] at *
  omega

/-! ## The estimate -/

/-- The scripts that are given something back, each once. -/
def refundScripts (r : REAPParams) (es : List UtxoEntry) : List Bytes :=
  ((es.filter fun e => refundFor r e.amount ≠ 0).map (·.pkScript)).dedup

theorem isSome_add {m : OrdMap Bytes Int64} {k s : Bytes} {a : Int64} :
    (Tally.add m k a)[s]?.isSome ↔ s = k ∨ m[s]?.isSome := by
  rw [Tally.add, getElem?_insert']
  split_ifs with h
  · simp [h]
  · rw [or_iff_right (Ne.symm h)]

theorem isSome_refundByScript {es : List UtxoEntry} {s : Bytes} :
    (totalsOf r es).refundByScript[s]?.isSome ↔ s ∈ refundScripts r es := by
  rw [refundScripts, mem_dedup]
  induction es using List.reverseRecOn with
  | nil => simp [totalsOf]
  | append_singleton es e ih =>
    rw [totalsOf_append, Totals.entry_refundByScript, filter_append, map_append, mem_append, ← ih]
    split_ifs with hz
    · simp [hz]
    · rw [isSome_add]
      simp [hz, or_comm]

/-- The refund outputs are for the refunded scripts, one each. -/
theorem perm_refundScripts (r : REAPParams) (es : List UtxoEntry) :
    ((totalsOf r es).refundByScript.toList.map Prod.fst).Perm (refundScripts r es) := by
  refine (perm_ext_iff_of_nodup (nodup_keys_toList _) (nodup_dedup _)).2 fun s => ?_
  refine Iff.trans ?_ isSome_refundByScript
  rw [Option.isSome_iff_exists, mem_map]
  simp only [Prod.exists, mem_toList, exists_and_right, exists_eq_right]

theorem refundSize_eq (r : REAPParams) (es : List UtxoEntry) :
    refundSize (totalsOf r es).refundByScript =
      ((refundScripts r es).map fun s => 8 + varIntSerializeSize s.length + s.length).sum := by
  rw [← ((perm_refundScripts r es).map _).sum_eq, map_map]
  rfl

/-- The number of entries of the dust tier. -/
def dustTierCount (r : REAPParams) (es : List UtxoEntry) : Nat :=
  es.countP fun e => isDustTierAmount e.amount r.dustThresholdSat

/-- The number of other entries. -/
def normalTierCount (r : REAPParams) (es : List UtxoEntry) : Nat :=
  es.countP fun e => !isDustTierAmount e.amount r.dustThresholdSat

theorem dustTierCount_add_normalTierCount (r : REAPParams) (es : List UtxoEntry) :
    dustTierCount r es + normalTierCount r es = es.length := by
  rw [dustTierCount, normalTierCount,
    length_eq_countP_add_countP fun e => isDustTierAmount e.amount r.dustThresholdSat]
  simp

/-- What a marker output weighs. -/
def markerWeight (height : Int32) (count : Nat) : Nat := 4 * (9 + markerScriptLength height count)

/-- The refund outputs, the marker and the two counts weigh no more than the estimate allows for
them: 172 for each entry that is not of the dust tier, and 128.  A marker alone weighs at least 336,
so this asks for entries that need less than a refund output each: because two have the same script,
because the script is shorter than 34 bytes, or because the refund is nothing. -/
def MarkerFits (r : REAPParams) (height : Int32) (es : List UtxoEntry) : Prop :=
  ((refundScripts r es).map fun s => 4 * (9 + s.length)).sum + markerWeight height es.length +
      4 * (varIntSerializeSize es.length + varIntSerializeSize ((refundScripts r es).length + 1)) ≤
    172 * normalTierCount r es + 128

instance (r : REAPParams) (height : Int32) (es : List UtxoEntry) :
    Decidable (MarkerFits r height es) :=
  inferInstanceAs (Decidable (_ ≤ _))

theorem Spendable.length_filterMap (h : Spendable r v ops) :
    (ops.filterMap v.unspent).length = ops.length := by
  induction ops with
  | nil => rfl
  | cons op ops ih =>
    obtain ⟨⟨e, he, -⟩, htail⟩ := forall_mem_cons.1 h
    rw [filterMap_cons, he, length_cons, length_cons, ih htail]

/-- **The estimate is an upper bound exactly when the marker fits.** -/
theorem weight_le_estimate_iff {plan : REAPPlan} {v : UtxoViewpoint} {r : REAPParams} {tx : MsgTx}
    (hlen : plan.inputs.length < 2 ^ 63) (h : buildBlueprint plan v r = .ok tx)
    (hscript : ∀ e ∈ plan.inputs.filterMap v.unspent, e.pkScript.length ≤ 34) :
    getTransactionWeight tx ≤
        estimateTieredBlueprintWeight (dustTierCount r (plan.inputs.filterMap v.unspent))
          (normalTierCount r (plan.inputs.filterMap v.unspent)) ↔
      MarkerFits r plan.height (plan.inputs.filterMap v.unspent) := by
  obtain ⟨hall, rfl⟩ := eq_blueprintTx hlen h
  rw [getTransactionWeight_blueprintTx r plan.height hlen, ← hall.length_filterMap]
  generalize plan.inputs.filterMap v.unspent = es at *
  have hshort : ((refundScripts r es).map fun s => 8 + varIntSerializeSize s.length + s.length) =
      (refundScripts r es).map fun s => 9 + s.length := by
    refine List.map_congr_left fun s hs => ?_
    obtain ⟨e, he, rfl⟩ := List.mem_map.1 (List.mem_dedup.1 hs)
    have hle := hscript e (List.mem_filter.1 he).1
    rw [varIntSerializeSize, if_pos (by omega)]
  have hmul : ((refundScripts r es).map fun s => 4 * (9 + s.length)).sum =
      4 * ((refundScripts r es).map fun s => 9 + s.length).sum := by
    rw [List.sum_map_mul_left]
  have hcount : (totalsOf r es).refundByScript.toList.length = (refundScripts r es).length := by
    rw [← (perm_refundScripts r es).length_eq, List.length_map]
  have htiers := dustTierCount_add_normalTierCount r es
  rw [blueprintSize, refundSize_eq, hshort, hcount, MarkerFits, hmul, markerWeight,
    estimateTieredBlueprintWeight, estBaseWeight, estInputWeight, estRefundOutputWeight,
    estMarkOutputWeight, htiers]
  omega

namespace Sample

def secondOp : OutPoint := ⟨doubleHashRaw [1], 1⟩

/-- A view with two outputs to the same script and one of the dust tier. -/
def estimateView : UtxoViewpoint :=
  ((UtxoViewpoint.new.put op (some (ofCoin coin))).put secondOp
    (some (ofCoin coin))).put dustOp (some (ofCoin dustCoin))

def estimateParams : REAPParams := defaultREAPParamsForNet Chaincfg.obtcRegTestParams

end Sample

open Sample

/-- Two inputs of one script leave room for the marker. -/
theorem weight_le_estimate_iff_estimateView :
    ∃ tx, buildBlueprint ⟨[op, secondOp], 0, 0, 200⟩ estimateView estimateParams = .ok tx ∧
      getTransactionWeight tx ≤ estimateTieredBlueprintWeight 0 2 := by
  obtain ⟨tx, htx⟩ : ∃ tx, buildBlueprint ⟨[op, secondOp], 0, 0, 200⟩
      estimateView estimateParams = .ok tx :=
    ⟨blueprintTx estimateParams 200 [op, secondOp] [ofCoin coin, ofCoin coin], by decide +kernel⟩
  have hentries : [op, secondOp].filterMap estimateView.unspent =
      [ofCoin coin, ofCoin coin] := by decide +kernel
  have hiff := weight_le_estimate_iff (by decide) htx (by rw [hentries]; decide)
  rw [hentries] at hiff
  exact ⟨tx, htx, hiff.2 (by decide +kernel)⟩

/-- A single input of the dust tier weighs 548 and is estimated at 324. -/
theorem estimate_lt_weight_of_dust :
    ∃ tx, buildBlueprint ⟨[dustOp], 0, 0, 200⟩ estimateView estimateParams = .ok tx ∧
      (∀ e ∈ [dustOp].filterMap estimateView.unspent, e.pkScript.length ≤ 34) ∧
      dustTierCount estimateParams ([dustOp].filterMap estimateView.unspent) = 1 ∧
      normalTierCount estimateParams ([dustOp].filterMap estimateView.unspent) = 0 ∧
      estimateTieredBlueprintWeight 1 0 < getTransactionWeight tx := by
  have hok : (buildBlueprint ⟨[dustOp], 0, 0, 200⟩ estimateView
      estimateParams).map getTransactionWeight = .ok 548 := by decide +kernel
  obtain ⟨tx, htx⟩ : ∃ tx, buildBlueprint ⟨[dustOp], 0, 0, 200⟩ estimateView
      estimateParams = .ok tx := by
    cases h : buildBlueprint ⟨[dustOp], 0, 0, 200⟩ estimateView estimateParams with
    | error e => rw [h] at hok; cases hok
    | ok tx => exact ⟨tx, rfl⟩
  rw [htx] at hok
  refine ⟨tx, htx, by decide +kernel, by decide +kernel, by decide +kernel, ?_⟩
  rw [show getTransactionWeight tx = 548 from Except.ok.inj hok]
  decide

end Mining

end Obtcd
