import Obtcd.Blockchain.Reap
import Obtcd.ExpiryIndex.Run

/-!
# The prefix of expired outputs

`ReapPrefixCandidates` walks the strict REAP bucket from its start until it has enough candidates or
meets one that is not expired.  The bucket holds its keys in byte order, and the keys are laid out
so that this is the canonical order of REAP inputs; what the walk returns is therefore the beginning
of the list of all expired outputs in canonical order (`reapPrefixCandidates_eq`).

That list, `expiredCandidates`, is defined from the set of unspent outputs alone, by sorting.
-/

namespace Obtcd

open Std List

/-! ## Canonical order -/

instance : TransCmp compareReapInputOrderKey :=
  inferInstanceAs (TransCmp (compareLex (compareOn fun k : ReapInputOrderKey => k.expiry)
    (compareLex (compareOn fun k => k.amount)
      (compareLex (compareOn fun k => k.op.hash.bytes.val) (compareOn fun k => k.op.index)))))

/-- The key a candidate is ordered by. -/
def ReapPrefixCandidate.orderKey (c : ReapPrefixCandidate) : ReapInputOrderKey :=
  ⟨c.expiryKey, c.amount, c.outPoint⟩

/-- `a` does not come after `b`. -/
def ReapPrefixCandidate.le (a b : ReapPrefixCandidate) : Bool :=
  (compareReapInputOrderKey a.orderKey b.orderKey).isLE

theorem ReapPrefixCandidate.le_trans (a b c : ReapPrefixCandidate) (h : a.le b = true)
    (h' : b.le c = true) : a.le c = true :=
  TransCmp.isLE_trans h h'

theorem ReapPrefixCandidate.le_total (a b : ReapPrefixCandidate) : (a.le b || b.le a) = true := by
  have hswap : compareReapInputOrderKey a.orderKey b.orderKey =
      (compareReapInputOrderKey b.orderKey a.orderKey).swap := OrientedCmp.eq_swap
  rw [ReapPrefixCandidate.le, ReapPrefixCandidate.le, hswap]
  cases compareReapInputOrderKey b.orderKey a.orderKey <;> rfl

namespace ExpiryIndex

/-! ## The walk -/

/-- The loop of `ReapPrefixCandidates` over the keys of the bucket, for at most `limit` results. -/
def scanPrefix (toKey : UInt64) : Nat → List Bytes → Except GoError (List ReapPrefixCandidate)
  | 0, _ => .ok []
  | _ + 1, [] => .ok []
  | limit + 1, key :: keys => do
    let (expiryKey, amount, outpoint) ←
      wrapError "failed to decode REAP strict composite key: " (decodeReapStrictCompositeKey key)
    if expiryKey > toKey then .ok []
    else do
      let rest ← scanPrefix toKey limit keys
      .ok (⟨outpoint, expiryKey, amount⟩ :: rest)

namespace Index

variable (idx : Index)

def reapPrefixTipHeight (db : Buckets) : Except GoError Int32 :=
  if idx.disabled then .error (.other "expiry index is disabled") else dbGetTipHeightIndexed db

def reapPrefixCandidates (db : Buckets) (blockHeight : Int32) (limit : Nat) :
    Except GoError (List ReapPrefixCandidate) :=
  if idx.disabled then .error (.other "expiry index is disabled")
  else if blockHeight < 0 then .ok []
  else
    scanPrefix blockHeight.toInt64.toUInt64 limit (db.reapStrictCandidates.toList.map Prod.fst)

/-- The index as the source of prefixes that validation and mining ask. -/
def prefixSource (db : Buckets) : ReapPrefixSource :=
  ⟨idx.reapPrefixTipHeight db, idx.reapPrefixCandidates db⟩

end Index

/-! ## What it walks over -/

namespace ExpiryParams

variable (p : ExpiryParams)

/-- The candidate of a coin. -/
def candidateOf (op : OutPoint) (coin : SpentTxOut) : ReapPrefixCandidate :=
  ⟨op, p.keyOf coin, coin.amount⟩

/-- The candidates of all covered coins, in canonical order. -/
def candidates (u : Utxos) : List ReapPrefixCandidate :=
  ((u.toList.filter fun r => p.covers r.2.height).map fun r =>
    p.candidateOf r.1 r.2).mergeSort ReapPrefixCandidate.le

/-- The candidates that are expired at a height, in canonical order. -/
def expiredCandidates (u : Utxos) (height : Int32) : List ReapPrefixCandidate :=
  (p.candidates u).filter fun c => c.expiryKey ≤ height.toInt64.toUInt64

variable {p}

/-- What is listed for the covered coins, in any order. -/
theorem mem_listed {α : Type} {f : OutPoint → SpentTxOut → α} {le : α → α → Bool} {u : Utxos}
    {a : α} : a ∈ ((u.toList.filter fun r => p.covers r.2.height).map fun r =>
        f r.1 r.2).mergeSort le ↔
      ∃ op coin, u[op]? = some coin ∧ p.Covers coin ∧ f op coin = a := by
  rw [(mergeSort_perm _ _).mem_iff, mem_map]
  constructor
  · rintro ⟨⟨op, coin⟩, hmem, rfl⟩
    obtain ⟨hmem, hc⟩ := mem_filter.1 hmem
    exact ⟨op, coin, (OrdMap.mem_toList u op coin).1 hmem, hc, rfl⟩
  · rintro ⟨op, coin, hget, hc, rfl⟩
    exact ⟨(op, coin), mem_filter.2 ⟨(OrdMap.mem_toList u op coin).2 hget, hc⟩, rfl⟩

/-- Nothing is listed twice, nor with the outpoint of another. -/
theorem nodup_listed {α : Type} {f : OutPoint → SpentTxOut → α} (le : α → α → Bool) {g : α → OutPoint}
    (hg : ∀ op coin, g (f op coin) = op) (u : Utxos) :
    ((((u.toList.filter fun r => p.covers r.2.height).map fun r =>
      f r.1 r.2).mergeSort le).map g).Nodup := by
  refine ((mergeSort_perm _ le).map g).nodup_iff.2 ?_
  rw [map_map, show (g ∘ fun r : OutPoint × SpentTxOut => f r.1 r.2) = Prod.fst from
    funext fun r => hg r.1 r.2]
  exact (OrdMap.nodup_keys_toList u).sublist (filter_sublist.map Prod.fst)

theorem mem_candidates {u : Utxos} {c : ReapPrefixCandidate} :
    c ∈ p.candidates u ↔
      ∃ op coin, u[op]? = some coin ∧ p.Covers coin ∧ p.candidateOf op coin = c :=
  mem_listed

theorem nodup_candidates (u : Utxos) : ((p.candidates u).map (·.outPoint)).Nodup :=
  nodup_listed _ (fun _ _ => rfl) u

theorem sorted_candidates (u : Utxos) : (p.candidates u).Pairwise fun a b => a.le b = true :=
  pairwise_mergeSort ReapPrefixCandidate.le_trans ReapPrefixCandidate.le_total _

theorem amount_nonneg {u : Utxos} (hamounts : p.AmountsNonneg u) {c : ReapPrefixCandidate}
    (hc : c ∈ p.candidates u) : 0 ≤ c.amount := by
  obtain ⟨op, coin, hget, hcov, rfl⟩ := mem_candidates.1 hc
  exact hamounts op coin hget hcov

/-- The bucket key of a candidate. -/
def strictKey (c : ReapPrefixCandidate) : Bytes := reapStrictKey c.expiryKey c.amount c.outPoint

/-- A bucket is walked in the order of its keys. -/
theorem keys_eq_of_pairwise {bucket : Bucket} {ks : List Bytes}
    (hks : ks.Pairwise fun a b => compare a b = .lt)
    (hmem : ∀ k, (∃ v, bucket[k]? = some v) ↔ k ∈ ks) : bucket.toList.map Prod.fst = ks := by
  have hbucket : (bucket.toList.map Prod.fst).Pairwise fun a b => compare a b = .lt :=
    pairwise_map.2 ExtTreeMap.ordered_keys_toList
  refine eq_of_pairwise_lt id hbucket hks fun k => ?_
  rw [mem_map, ← hmem k]
  simp only [Prod.exists, OrdMap.mem_toList, exists_and_right, exists_eq_right]

/-- A bucket that holds the keys of some candidates holds them in canonical order. -/
theorem keys_eq_of_sorted {bucket : Bucket} {cs : List ReapPrefixCandidate}
    (hamounts : ∀ c ∈ cs, 0 ≤ c.amount) (hsorted : cs.Pairwise fun a b => a.le b = true)
    (hnodup : cs.Nodup)
    (hmem : ∀ k, (∃ v, bucket[k]? = some v) ↔ ∃ c ∈ cs, strictKey c = k) :
    bucket.toList.map Prod.fst = cs.map strictKey := by
  refine keys_eq_of_pairwise ?_ fun k => (hmem k).trans mem_map.symm
  -- strictly sorted by key bytes, as the candidates are without repetition
  refine pairwise_map.2 ((hsorted.and hnodup).imp_of_mem ?_)
  intro a b ha hb hab
  have hcmp := compare_reapStrictKey a.expiryKey b.expiryKey (hamounts a ha) (hamounts b hb)
    a.outPoint b.outPoint
  have hle : (compare (strictKey a) (strictKey b)).isLE = true := by
    rw [strictKey, strictKey, hcmp]
    exact hab.1
  have hkey : strictKey a ≠ strictKey b := by
    intro heq
    obtain ⟨hexpiry, hamount, hop⟩ := reapStrictKey_inj.1 heq
    obtain ⟨op, k, x⟩ := a
    obtain ⟨op', k', x'⟩ := b
    exact hab.2 (by rw [show op = op' from hop, show k = k' from hexpiry, show x = x' from hamount])
  cases hord : compare (strictKey a) (strictKey b) with
  | lt => rfl
  | eq => exact absurd (compare_eq_iff_eq.1 hord) hkey
  | gt => rw [hord] at hle; cases hle

/-- The bucket holds the keys of the candidates, in canonical order. -/
theorem RepBuckets.keys_eq {u : Utxos} {db : Buckets} (h : p.RepBuckets u db) :
    db.reapStrictCandidates.toList.map Prod.fst = (p.candidates u).map strictKey := by
  refine keys_eq_of_sorted (fun c hc => amount_nonneg h.amounts hc) (sorted_candidates u)
    ((nodup_candidates u).of_map _) fun k => ?_
  constructor
  · rintro ⟨v, hget⟩
    obtain ⟨op, coin, hget, hcov, hk, -⟩ := (h.reapStrictCandidates k v).1 hget
    exact ⟨p.candidateOf op coin, mem_candidates.2 ⟨op, coin, hget, hcov, rfl⟩, hk⟩
  · rintro ⟨c, hc, rfl⟩
    obtain ⟨op, coin, hget, hcov, rfl⟩ := mem_candidates.1 hc
    exact ⟨_, h.reapStrictCandidates.get hget hcov⟩

/-- The walk over the keys of a sorted list of candidates returns the first of those that are not
past `toKey`. -/
theorem scanPrefix_eq {toKey : UInt64} {cs : List ReapPrefixCandidate}
    (hamounts : ∀ c ∈ cs, 0 ≤ c.amount) (hsorted : cs.Pairwise fun a b => a.le b = true)
    (limit : Nat) : scanPrefix toKey limit (cs.map strictKey) =
      .ok ((cs.filter fun c => c.expiryKey ≤ toKey).take limit) := by
  induction cs generalizing limit with
  | nil => cases limit <;> rfl
  | cons c cs ih =>
    obtain ⟨hfirst, hrest⟩ := pairwise_cons.1 hsorted
    obtain ⟨hc, hcs⟩ := forall_mem_cons.1 hamounts
    cases limit with
    | zero => rfl
    | succ limit =>
      rw [map_cons, scanPrefix, strictKey, decodeReapStrictCompositeKey_reapStrictKey _ hc]
      show (if c.expiryKey > toKey then Except.ok [] else _) = _
      by_cases hkey : c.expiryKey > toKey
      · -- what comes after a candidate that is not expired is not expired either
        have hnone : (c :: cs).filter (fun c => c.expiryKey ≤ toKey) = [] := by
          refine filter_eq_nil_iff.2 fun c' hc' => ?_
          rw [decide_eq_true_iff, UInt64.not_le]
          rcases mem_cons.1 hc' with rfl | hc'
          · exact hkey
          · have hle := hfirst c' hc'
            have hexp : (compare c.expiryKey c'.expiryKey).isLE = true := by
              rw [ReapPrefixCandidate.le, compareReapInputOrderKey, Ordering.isLE_then_iff_or] at hle
              rcases hle with hlt | ⟨heq, -⟩
              · rw [show compare c.expiryKey c'.expiryKey = .lt from hlt]; rfl
              · rw [show compare c.expiryKey c'.expiryKey = .eq from heq]; rfl
            rw [UInt64.compare_eq_toNat_compare_toNat, Nat.isLE_compare] at hexp
            have hkey' := UInt64.lt_iff_toNat_lt.1 hkey
            exact UInt64.lt_iff_toNat_lt.2 (by omega)
        rw [if_pos hkey, hnone, take_nil]
      · have hpos : (c :: cs).filter (fun c => c.expiryKey ≤ toKey) =
            c :: cs.filter fun c => c.expiryKey ≤ toKey :=
          filter_cons_of_pos (decide_eq_true (UInt64.not_lt.1 hkey))
        rw [if_neg hkey, ih hcs hrest, hpos, take_succ_cons]
        rfl

end ExpiryParams

/-- Comparing the keys is comparing the heights. -/
theorem keyOf_le_iff {p : ExpiryParams} (hw : p.windowBlocks.toNat < 2 ^ 31) {coin : SpentTxOut}
    (hc : 0 < coin.height) {height : Int32} (hh : 0 ≤ height.toInt) :
    p.keyOf coin ≤ height.toInt64.toUInt64 ↔
      coin.height.toInt + p.windowBlocks.toNat ≤ height.toInt := by
  have hpos := Int32.lt_iff_toInt_lt.1 hc
  have hlt := coin.height.toInt_lt
  have hto := MachineInt.toNat_toUInt64_toInt64 (Int32.le_iff_toInt_le.2 hh)
  rw [Int32.toInt_zero] at hpos
  rw [keyOf_eq hc, expiryKey, UInt64.le_iff_toNat_le, UInt64.toNat_ofNat', Nat.mod_eq_of_lt (by omega)]
  omega

/-- The candidates the index returns are the first of the expired ones, in canonical order. -/
theorem reapPrefixCandidates_eq {idx : Index} (hidx : idx.disabled = false) {u : Utxos}
    {db : Buckets} (h : idx.expiryParams.RepBuckets u db) {height : Int32} (hh : 0 ≤ height.toInt)
    (limit : Nat) : idx.reapPrefixCandidates db height limit =
      .ok ((idx.expiryParams.expiredCandidates u height).take limit) := by
  have hneg : ¬ height < 0 := Int32.not_lt.2 (Int32.le_iff_toInt_le.2 hh)
  rw [Index.reapPrefixCandidates, hidx, if_neg (by decide), if_neg hneg, h.keys_eq,
    ExpiryParams.scanPrefix_eq (fun c hc => ExpiryParams.amount_nonneg h.amounts hc)
      (ExpiryParams.sorted_candidates u)]
  rfl

end ExpiryIndex

end Obtcd
