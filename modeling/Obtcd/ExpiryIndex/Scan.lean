import Obtcd.ExpiryIndex.Prefix
import Obtcd.Lib.Pages

/-!
# Scanning for expired outputs

`ScanExpiringUTXOs` is the other way to ask the index for expired outputs.  It walks the bucket
`expiry-to-outpoints` and returns a page of it; the next request continues after the last entry of
the page before.  The keys of this bucket do not hold the amount, so the order is that of the expiry
key and then of the reversed hash, not the canonical order of REAP inputs.

A request returns the first of the rows behind its starting point (`scanExpiringUTXOs_eq`), whether
or not there is a row at that point.  Pages put together are therefore the rows of a range, for any
content of the bucket (`scan_pagination`), and the list of all expired outputs for the bucket of a set
of unspent outputs (`serves_scanPage`).  As in `Prefix`, that list is defined from the set alone, by
sorting.
-/

namespace Obtcd

open List

namespace ExpiryIndex

open Std

/-! ## Keys -/

def decodeOrderedOutPoint (encoded : Bytes) : Except GoError OutPoint :=
  if encoded.length ≠ orderedOutPointEncodedSize then
    .error (.other ("invalid ordered outpoint encoding length: got " ++ toString encoded.length ++
      ", expected " ++ toString orderedOutPointEncodedSize))
  else .ok ⟨hashOfBytes (encoded.take 32).reverse, UInt32.ofNat (Bytes.beNat (encoded.drop 32))⟩

def decodeExpiryOutpointCompositeKey (encoded : Bytes) : Except GoError (UInt64 × OutPoint) :=
  if encoded.length ≠ expiryOutpointCompositeKeySize then
    .error (.other ("invalid expiry composite key length: got " ++ toString encoded.length ++
      ", expected " ++ toString expiryOutpointCompositeKeySize))
  else do
    let expiryKey ← decodeExpiryKey (encoded.take expiryKeyEncodedSize)
    let outpoint ← decodeOrderedOutPoint (encoded.drop expiryKeyEncodedSize)
    .ok (expiryKey, outpoint)

def expiryCompositePrefix (expiryKey : UInt64) : Bytes := encodeExpiryKey expiryKey

theorem decodeOrderedOutPoint_encode (op : OutPoint) :
    decodeOrderedOutPoint (encodeOrderedOutPoint op) = .ok op := by
  obtain ⟨h, i⟩ := op
  have htake : (encodeOrderedOutPoint ⟨h, i⟩).take 32 = h.bytes.val.reverse :=
    take_left' (by simp)
  have hdrop : (encodeOrderedOutPoint ⟨h, i⟩).drop 32 = Bytes.be 4 i.toNat :=
    drop_left' (by simp)
  rw [decodeOrderedOutPoint, if_neg (by simp [orderedOutPointEncodedSize]), htake, hdrop,
    reverse_reverse, hashOfBytes_bytes, Bytes.beNat_be_of_lt i.toNat_lt, UInt32.ofNat_toNat]

theorem decodeExpiryOutpointCompositeKey_encode (k : UInt64) (op : OutPoint) :
    decodeExpiryOutpointCompositeKey (encodeExpiryOutpointCompositeKey k op) = .ok (k, op) := by
  have htake : (encodeExpiryOutpointCompositeKey k op).take expiryKeyEncodedSize =
      encodeExpiryKey k := take_left' (by simp [expiryKeyEncodedSize])
  have hdrop : (encodeExpiryOutpointCompositeKey k op).drop expiryKeyEncodedSize =
      encodeOrderedOutPoint op := drop_left' (by simp [expiryKeyEncodedSize])
  rw [decodeExpiryOutpointCompositeKey, if_neg (by simp [encodeExpiryOutpointCompositeKey,
    expiryOutpointCompositeKeySize, expiryKeyEncodedSize, orderedOutPointEncodedSize]), htake, hdrop,
    decodeExpiryKey_encode, decodeOrderedOutPoint_encode]
  rfl

/-- The composite key sorts by expiry key first. -/
theorem compare_compositeKey (k k' : UInt64) (op op' : OutPoint) :
    compare (encodeExpiryOutpointCompositeKey k op) (encodeExpiryOutpointCompositeKey k' op') =
      (compare k k').then (compare (encodeOrderedOutPoint op) (encodeOrderedOutPoint op')) := by
  rw [encodeExpiryOutpointCompositeKey, encodeExpiryOutpointCompositeKey,
    Bytes.compare_append (by simp), encodeExpiryKey, encodeExpiryKey,
    Bytes.compare_be k.toNat_lt k'.toNat_lt, ← UInt64.compare_eq_toNat_compare_toNat]

/-- By the hash, last byte first, then by the index. -/
def compareOutPoint (a b : OutPoint) : Ordering :=
  (compare a.hash.bytes.val.reverse b.hash.bytes.val.reverse).then (compare a.index b.index)

theorem compare_encodeOrderedOutPoint (a b : OutPoint) :
    compare (encodeOrderedOutPoint a) (encodeOrderedOutPoint b) = compareOutPoint a b := by
  rw [encodeOrderedOutPoint, encodeOrderedOutPoint, Bytes.compare_append (by simp),
    Bytes.compare_be a.index.toNat_lt b.index.toNat_lt, ← UInt32.compare_eq_toNat_compare_toNat,
    compareOutPoint]

/-- The keys from a prefix on are those of this expiry key and of larger ones. -/
theorem compare_expiryCompositePrefix (k k' : UInt64) (op : OutPoint) :
    compare (encodeExpiryOutpointCompositeKey k op) (expiryCompositePrefix k') = .lt ↔ k < k' := by
  have hbounds : expiryCompositePrefix k' = encodeExpiryKey k' ++ [] := (append_nil _).symm
  have hnil : compare (encodeOrderedOutPoint op) [] = .gt := by
    cases hop : encodeOrderedOutPoint op with
    | nil => simpa [hop] using length_encodeOrderedOutPoint op
    | cons b bs => exact List.compare_cons_nil
  rw [hbounds, encodeExpiryOutpointCompositeKey, Bytes.compare_append (by simp), encodeExpiryKey,
    encodeExpiryKey, Bytes.compare_be k.toNat_lt k'.toNat_lt, hnil, Ordering.then_eq_lt,
    Nat.compare_eq_lt, UInt64.lt_iff_toNat_lt]
  simp

/-! ## The scan -/

structure ExpiringUTXO where
  outPoint : OutPoint
  expiryKey : UInt64
deriving DecidableEq

/-- The loop of `ScanExpiringUTXOs` over the keys from the cursor on, for at most `n` results. -/
def scanKeys (toKey : UInt64) : Nat → List Bytes → Except GoError (List ExpiringUTXO × Bool)
  | _, [] => .ok ([], false)
  | n, key :: keys => do
    let (expiryKey, outpoint) ←
      wrapError "failed to decode expiry composite key: " (decodeExpiryOutpointCompositeKey key)
    if expiryKey > toKey then .ok ([], false)
    else
      match n with
      | 0 => .ok ([], true)
      | n + 1 => do
        let (results, hasMore) ← scanKeys toKey n keys
        .ok (⟨outpoint, expiryKey⟩ :: results, hasMore)

/-- `cursor.Seek`: the keys from the first that is not smaller than `seekKey`. -/
def seek (keys : List Bytes) (seekKey : Bytes) : List Bytes :=
  keys.dropWhile fun key => compare key seekKey == .lt

namespace Index

variable (idx : Index)

def scanExpiringUTXOs (db : Buckets) (fromKey toKey : UInt64) (maxResults : Int)
    (startAfter : Option OutPoint) : Except GoError (List ExpiringUTXO × Bool) :=
  if idx.disabled then .error (.other "expiry index is disabled")
  else if maxResults ≤ 0 then .ok ([], false)
  else
    let keys := db.expiry2Outpoints.toList.map Prod.fst
    match startAfter with
    | some op =>
      let seekKey := encodeExpiryOutpointCompositeKey fromKey op
      let found := seek keys seekKey
      scanKeys toKey maxResults.toNat (if found.head? = some seekKey then found.tail else found)
    | none => scanKeys toKey maxResults.toNat (seek keys (expiryCompositePrefix fromKey))

end Index

/-- Paging through a range of expiry keys: the first page, and then the one after the last row of the
page before. -/
def rangePage (scan : UInt64 → UInt64 → Int → Option OutPoint →
      Except GoError (List ExpiringUTXO × Bool)) (fromKey toKey : UInt64) (scanBatch : Int) :
    Option ExpiringUTXO → Except GoError (List ExpiringUTXO × Bool)
  | none => scan fromKey toKey scanBatch none
  | some last => scan last.expiryKey toKey scanBatch (some last.outPoint)

/-- What the callers of `ScanExpiringUTXOs` ask for: the pages from the smallest key on. -/
def scanPage (scan : UInt64 → UInt64 → Int → Option OutPoint →
      Except GoError (List ExpiringUTXO × Bool)) (toKey : UInt64) (scanBatch : Int) :
    Option ExpiringUTXO → Except GoError (List ExpiringUTXO × Bool) :=
  rangePage scan 0 toKey scanBatch

/-! ## What it walks over -/

/-- The bucket key of a row. -/
def ExpiringUTXO.key (r : ExpiringUTXO) : Bytes :=
  encodeExpiryOutpointCompositeKey r.expiryKey r.outPoint

/-- `a` does not come after `b`. -/
def ExpiringUTXO.le (a b : ExpiringUTXO) : Bool := (compare a.key b.key).isLE

theorem ExpiringUTXO.key_inj {a b : ExpiringUTXO} : a.key = b.key ↔ a = b := by
  obtain ⟨op, k⟩ := a
  obtain ⟨op', k'⟩ := b
  rw [ExpiringUTXO.key, ExpiringUTXO.key, encodeExpiryOutpointCompositeKey_inj,
    ExpiringUTXO.mk.injEq, and_comm]

namespace ExpiryParams

variable (p : ExpiryParams)

/-- The row of a coin. -/
def rowOf (op : OutPoint) (coin : SpentTxOut) : ExpiringUTXO := ⟨op, p.keyOf coin⟩

/-- The rows of all covered coins, in the order of the scan. -/
def rows (u : Utxos) : List ExpiringUTXO :=
  ((u.toList.filter fun r => p.covers r.2.height).map fun r => p.rowOf r.1 r.2).mergeSort
    ExpiringUTXO.le

/-- The rows that are expired at a height, in the order of the scan. -/
def expiredRows (u : Utxos) (height : Int32) : List ExpiringUTXO :=
  (p.rows u).filter fun r => r.expiryKey ≤ height.toInt64.toUInt64

variable {p}

theorem mem_rows {u : Utxos} {r : ExpiringUTXO} :
    r ∈ p.rows u ↔ ∃ op coin, u[op]? = some coin ∧ p.Covers coin ∧ p.rowOf op coin = r :=
  mem_listed

theorem nodup_rows (u : Utxos) : ((p.rows u).map (·.outPoint)).Nodup :=
  nodup_listed _ (fun _ _ => rfl) u

theorem pairwise_rows (u : Utxos) :
    ((p.rows u).map ExpiringUTXO.key).Pairwise fun a b => compare a b = .lt := by
  have hsorted : (p.rows u).Pairwise fun a b => a.le b = true :=
    List.pairwise_mergeSort (fun _ _ _ => TransCmp.isLE_trans) (fun a b => by
      have hswap : compare a.key b.key = (compare b.key a.key).swap := OrientedCmp.eq_swap
      rw [ExpiringUTXO.le, ExpiringUTXO.le, hswap]
      cases compare b.key a.key <;> rfl) _
  refine pairwise_map.2 ((hsorted.and ((nodup_rows u).of_map _)).imp ?_)
  rintro a b ⟨hle, hne⟩
  rw [ExpiringUTXO.le] at hle
  cases hord : compare a.key b.key with
  | lt => rfl
  | eq => exact absurd (ExpiringUTXO.key_inj.1 (compare_eq_iff_eq.1 hord)) hne
  | gt => rw [hord] at hle; cases hle

/-- The bucket holds the keys of the rows, in the order of the scan. -/
theorem RepBuckets.scanKeys_eq {u : Utxos} {db : Buckets} (h : p.RepBuckets u db) :
    db.expiry2Outpoints.toList.map Prod.fst = (p.rows u).map ExpiringUTXO.key := by
  refine keys_eq_of_pairwise (pairwise_rows u) fun k => ?_
  rw [mem_map]
  constructor
  · rintro ⟨v, hget⟩
    obtain ⟨op, coin, hget, hcov, hk, -⟩ := (h.expiry2Outpoints k v).1 hget
    exact ⟨p.rowOf op coin, mem_rows.2 ⟨op, coin, hget, hcov, rfl⟩, hk⟩
  · rintro ⟨r, hr, rfl⟩
    obtain ⟨op, coin, hget, hcov, rfl⟩ := mem_rows.1 hr
    exact ⟨_, h.expiry2Outpoints.get hget hcov⟩

end ExpiryParams

/-! ## Pages -/

variable {rs : List ExpiringUTXO}

/-- The loop over the keys of sorted rows returns the first of those that are not past `toKey`. -/
theorem scanKeys_eq {toKey : UInt64}
    (hsorted : (rs.map ExpiringUTXO.key).Pairwise fun a b => compare a b = .lt) (n : Nat) :
    scanKeys toKey n (rs.map ExpiringUTXO.key) =
      .ok (pageOf n (rs.filter fun r => r.expiryKey ≤ toKey)) := by
  induction rs generalizing n with
  | nil => simp [scanKeys, pageOf]
  | cons r rs ih =>
    rw [map_cons] at hsorted
    obtain ⟨hfirst, hrest⟩ := pairwise_cons.1 hsorted
    rw [map_cons, scanKeys, ExpiringUTXO.key, decodeExpiryOutpointCompositeKey_encode, wrapError,
      ok_bind]
    dsimp only
    by_cases hkey : r.expiryKey > toKey
    · -- what comes after a row that is not expired is not expired either
      have hnone : (r :: rs).filter (fun r => r.expiryKey ≤ toKey) = [] := by
        refine filter_eq_nil_iff.2 fun r' hr' => ?_
        rw [decide_eq_true_iff, UInt64.not_le]
        rcases mem_cons.1 hr' with rfl | hr'
        · exact hkey
        · have hlt := hfirst r'.key (mem_map_of_mem hr')
          rw [ExpiringUTXO.key, ExpiringUTXO.key, compare_compositeKey,
            UInt64.compare_eq_toNat_compare_toNat, Ordering.then_eq_lt, Nat.compare_eq_lt,
            Nat.compare_eq_eq] at hlt
          have hkey' := UInt64.lt_iff_toNat_lt.1 hkey
          exact UInt64.lt_iff_toNat_lt.2 (by omega)
      rw [if_pos hkey, hnone]
      simp [pageOf]
    · have hpos : (r :: rs).filter (fun r => r.expiryKey ≤ toKey) =
          r :: rs.filter fun r => r.expiryKey ≤ toKey :=
        filter_cons_of_pos (decide_eq_true (UInt64.not_lt.1 hkey))
      rw [if_neg hkey, hpos]
      cases n with
      | zero => rfl
      | succ n =>
        dsimp only
        rw [ih hrest n, ok_bind]
        simp [pageOf]

/-- The order of the scan: by expiry key, then by outpoint. -/
def ExpiringUTXO.Before (a b : ExpiringUTXO) : Prop :=
  (compare a.expiryKey b.expiryKey).then (compareOutPoint a.outPoint b.outPoint) = .lt

theorem ExpiringUTXO.before_iff {a b : ExpiringUTXO} : a.Before b ↔ compare a.key b.key = .lt := by
  rw [ExpiringUTXO.key, ExpiringUTXO.key, compare_compositeKey, compare_encodeOrderedOutPoint,
    ExpiringUTXO.Before]

theorem ExpiringUTXO.Before.expiryKey_le {a b : ExpiringUTXO} (h : a.Before b) :
    a.expiryKey ≤ b.expiryKey := by
  rw [ExpiringUTXO.Before, Ordering.then_eq_lt, UInt64.compare_eq_toNat_compare_toNat,
    Nat.compare_eq_lt, Nat.compare_eq_eq] at h
  rw [UInt64.le_iff_toNat_le]
  omega

/-- A row is behind the starting point of a request. -/
def Beyond (fromKey : UInt64) (startAfter : Option OutPoint) (r : ExpiringUTXO) : Prop :=
  match startAfter with
  | none => fromKey ≤ r.expiryKey
  | some op => ExpiringUTXO.Before ⟨op, fromKey⟩ r

instance (fromKey : UInt64) (startAfter : Option OutPoint) (r : ExpiringUTXO) :
    Decidable (Beyond fromKey startAfter r) :=
  match startAfter with
  | none => inferInstanceAs (Decidable (fromKey ≤ r.expiryKey))
  | some _ => inferInstanceAs (Decidable (_ = Ordering.lt))

/-- Dropping the small keys of a sorted list leaves the others. -/
theorem seek_eq {keys : List Bytes} (hsorted : keys.Pairwise fun a b => compare a b = .lt)
    (seekKey : Bytes) : seek keys seekKey = keys.filter fun key => compare key seekKey != .lt := by
  induction keys with
  | nil => rfl
  | cons key keys ih =>
    obtain ⟨hfirst, hrest⟩ := pairwise_cons.1 hsorted
    by_cases hlt : compare key seekKey = .lt
    · rw [seek, dropWhile_cons_of_pos (by simp [hlt]), filter_cons_of_neg (by simp [hlt])]
      exact ih hrest
    · -- what comes after a key that is kept is kept too
      rw [seek, dropWhile_cons_of_neg (by simp [hlt]), filter_cons_of_pos (by simp [hlt])]
      refine congrArg (key :: ·) (filter_eq_self.2 fun key' hkey' => ?_).symm
      rw [bne_iff_ne]
      exact fun hlt' => hlt (TransCmp.lt_trans (hfirst key' hkey') hlt')

/-- A key that is sought is found first if it is there, and skipping it leaves the larger keys. -/
theorem seek_skip {keys : List Bytes} (hsorted : keys.Pairwise fun a b => compare a b = .lt)
    (seekKey : Bytes) :
    (if (seek keys seekKey).head? = some seekKey then (seek keys seekKey).tail
      else seek keys seekKey) = keys.filter fun key => compare seekKey key == .lt := by
  have hsplit : keys.filter (fun key => compare seekKey key == .lt) =
      (seek keys seekKey).filter fun key => compare seekKey key == .lt := by
    rw [seek_eq hsorted, filter_filter]
    refine filter_congr fun key _ => ?_
    by_cases hlt : compare seekKey key = .lt
    · simp [hlt, OrientedCmp.not_lt_of_lt hlt]
    · simp [hlt]
  have hfound : ∀ key ∈ seek keys seekKey, compare key seekKey ≠ .lt := by
    rw [seek_eq hsorted]
    exact fun key hkey => bne_iff_ne.1 (mem_filter.1 hkey).2
  have hpairs : (seek keys seekKey).Pairwise fun a b => compare a b = .lt :=
    hsorted.sublist (dropWhile_sublist _)
  have hgt : ∀ key, compare key seekKey ≠ .lt → key ≠ seekKey → compare seekKey key = .lt := by
    intro key hnot hne
    refine OrientedCmp.gt_iff_lt.1 ?_
    cases hord : compare key seekKey with
    | lt => exact absurd hord hnot
    | eq => exact absurd (compare_eq_iff_eq.1 hord) hne
    | gt => rfl
  rw [hsplit]
  cases hseek : seek keys seekKey with
  | nil => rfl
  | cons key rest =>
    rw [hseek] at hfound hpairs
    obtain ⟨hfirst, -⟩ := pairwise_cons.1 hpairs
    rw [List.head?_cons]
    by_cases hkey : key = seekKey
    · subst hkey
      rw [if_pos rfl, tail_cons, filter_cons_of_neg (by simp)]
      exact (filter_eq_self.2 fun key' hkey' => by simp [hfirst key' hkey']).symm
    · rw [if_neg fun h => hkey (Option.some.inj h)]
      refine (filter_eq_self.2 fun key' hkey' => beq_iff_eq.2 ?_).symm
      refine hgt key' (hfound key' hkey') ?_
      rintro rfl
      rcases mem_cons.1 hkey' with rfl | hmem
      · exact hkey rfl
      · exact hfound key mem_cons_self (hfirst key' hmem)

variable {db : Buckets}

/-- A request returns the first rows behind its starting point, and whether there are more. -/
theorem scanExpiringUTXOs_eq {idx : Index} (hidx : idx.disabled = false)
    (hsorted : (rs.map ExpiringUTXO.key).Pairwise fun a b => compare a b = .lt)
    (hkeys : db.expiry2Outpoints.toList.map Prod.fst = rs.map ExpiringUTXO.key)
    (fromKey toKey : UInt64) {maxResults : Int} (hmax : 0 < maxResults)
    (startAfter : Option OutPoint) :
    idx.scanExpiringUTXOs db fromKey toKey maxResults startAfter =
      .ok (pageOf maxResults.toNat
        ((rs.filter fun r => Beyond fromKey startAfter r).filter fun r => r.expiryKey ≤ toKey)) := by
  have hbeyond : ((rs.filter fun r => Beyond fromKey startAfter r).map ExpiringUTXO.key).Pairwise
      fun a b => compare a b = .lt := hsorted.sublist (filter_sublist.map _)
  rw [Index.scanExpiringUTXOs, hidx, if_neg (by decide), if_neg (by omega)]
  rw [hkeys, ← scanKeys_eq hbeyond]
  cases startAfter with
  | none =>
    dsimp only
    rw [seek_eq hsorted, filter_map]
    refine congrArg (fun rows => scanKeys toKey maxResults.toNat (List.map ExpiringUTXO.key rows))
      (filter_congr fun r _ => ?_)
    rw [Function.comp_apply, Bool.eq_iff_iff, bne_iff_ne, decide_eq_true_iff, Beyond, ← UInt64.not_lt,
      ExpiringUTXO.key, ne_eq, compare_expiryCompositePrefix]
  | some op =>
    dsimp only
    rw [seek_skip hsorted, filter_map]
    refine congrArg (fun rows => scanKeys toKey maxResults.toNat (List.map ExpiringUTXO.key rows))
      (filter_congr fun r _ => ?_)
    rw [Function.comp_apply, Bool.eq_iff_iff, beq_iff_eq, decide_eq_true_iff, Beyond,
      ExpiringUTXO.before_iff]
    exact Iff.rfl

/-- The rows of a range, out of all rows. -/
def inRange (rs : List ExpiringUTXO) (fromKey toKey : UInt64) : List ExpiringUTXO :=
  rs.filter fun r => fromKey ≤ r.expiryKey ∧ r.expiryKey ≤ toKey

/-- The pages of a range are its rows, in order. -/
theorem serves_rangePage {idx : Index} (hidx : idx.disabled = false)
    (hsorted : (rs.map ExpiringUTXO.key).Pairwise fun a b => compare a b = .lt)
    (hkeys : db.expiry2Outpoints.toList.map Prod.fst = rs.map ExpiringUTXO.key)
    (fromKey toKey : UInt64) {maxResults : Int} (hmax : 0 < maxResults) :
    Serves (rangePage (idx.scanExpiringUTXOs db) fromKey toKey maxResults) maxResults.toNat
      (inRange rs fromKey toKey) := by
  have hcall := scanExpiringUTXOs_eq hidx hsorted hkeys
  constructor
  · rw [rangePage, hcall fromKey toKey hmax none, filter_filter, inRange]
    refine congrArg (fun rows => Except.ok (pageOf maxResults.toNat rows))
      (filter_congr fun r _ => ?_)
    rw [← Bool.decide_and, decide_eq_decide, Beyond, and_comm]
  · intro before a rest heq
    rw [rangePage, hcall a.expiryKey toKey hmax (some a.outPoint), filter_filter]
    -- behind `a` there are the rest of the range, and nothing that stands before `a`
    have hbefore : (inRange rs fromKey toKey).Pairwise ExpiringUTXO.Before :=
      (pairwise_map.1 hsorted).sublist filter_sublist |>.imp ExpiringUTXO.before_iff.2
    rw [heq] at hbefore
    obtain ⟨-, hfrom, hacross⟩ := pairwise_append.1 hbefore
    obtain ⟨hafter, -⟩ := pairwise_cons.1 hfrom
    have hirrefl : ∀ r r' : ExpiringUTXO, r.Before r' → ¬ r'.Before r := fun r r' h h' =>
      OrientedCmp.not_lt_of_lt (ExpiringUTXO.before_iff.1 h) (ExpiringUTXO.before_iff.1 h')
    have hrange : rs.filter (fun r => decide (r.expiryKey ≤ toKey) &&
          decide (Beyond a.expiryKey (some a.outPoint) r)) =
        (inRange rs fromKey toKey).filter fun r => decide (Beyond a.expiryKey (some a.outPoint) r) := by
      have ha : a ∈ inRange rs fromKey toKey := by simp [heq]
      obtain ⟨hfromKey, -⟩ := of_decide_eq_true (mem_filter.1 ha).2
      rw [inRange, filter_filter]
      refine filter_congr fun r _ => ?_
      rw [← Bool.decide_and, ← Bool.decide_and, decide_eq_decide]
      refine ⟨fun ⟨hle, hr⟩ => ⟨hr, UInt64.le_trans hfromKey ?_, hle⟩, fun ⟨hr, _, hle⟩ => ⟨hle, hr⟩⟩
      exact ExpiringUTXO.Before.expiryKey_le hr
    rw [hrange, heq, filter_append, filter_eq_nil_iff.2, filter_cons_of_neg,
      filter_eq_self.2, nil_append]
    · exact fun r hr => decide_eq_true (hafter r hr)
    · rw [decide_eq_true_iff]
      exact fun h => hirrefl a a h h
    · intro r hr
      rw [decide_eq_true_iff]
      exact fun h => hirrefl r a (hacross r hr a mem_cons_self) h

/-- The pages of a scan are the expired rows, in order. -/
theorem serves_scanPage {idx : Index} (hidx : idx.disabled = false) {u : Utxos}
    (h : idx.expiryParams.RepBuckets u db) (height : Int32) {scanBatch : Int}
    (hbatch : 0 < scanBatch) :
    Serves (scanPage (idx.scanExpiringUTXOs db) height.toInt64.toUInt64 scanBatch) scanBatch.toNat
      (idx.expiryParams.expiredRows u height) := by
  have hrows : idx.expiryParams.expiredRows u height =
      inRange (idx.expiryParams.rows u) 0 height.toInt64.toUInt64 := by
    rw [ExpiryParams.expiredRows, inRange]
    refine filter_congr fun r _ => decide_eq_decide.2 ?_
    exact (and_iff_right (UInt64.le_iff_toNat_le.2 (Nat.zero_le _))).symm
  rw [scanPage, hrows]
  exact serves_rangePage hidx (ExpiryParams.pairwise_rows u) h.scanKeys_eq 0 _ hbatch

/-! ## Any content -/

/-- A row is in the index. -/
def Indexed (db : Buckets) (r : ExpiringUTXO) : Prop := ∃ v, db.expiry2Outpoints[r.key]? = some v

/-- The keys of the bucket are keys of rows. -/
def WellKeyed (db : Buckets) : Prop :=
  ∀ key v, db.expiry2Outpoints[key]? = some v → ∃ r : ExpiringUTXO, r.key = key

/-- The keys of the bucket are those of its rows, which they put in order. -/
theorem WellKeyed.exists_rows (h : WellKeyed db) : ∃ rs : List ExpiringUTXO,
    db.expiry2Outpoints.toList.map Prod.fst = rs.map ExpiringUTXO.key ∧
      (rs.map ExpiringUTXO.key).Pairwise (fun a b => compare a b = .lt) ∧
      ∀ r, r ∈ rs ↔ Indexed db r := by
  have hkeys : ∀ keys : List Bytes, (∀ key ∈ keys, ∃ r : ExpiringUTXO, r.key = key) →
      ∃ rs : List ExpiringUTXO, keys = rs.map ExpiringUTXO.key := by
    intro keys
    induction keys with
    | nil => exact fun _ => ⟨[], rfl⟩
    | cons key keys ih =>
      intro hall
      obtain ⟨⟨r, hr⟩, hrest⟩ := forall_mem_cons.1 hall
      obtain ⟨rs, hrs⟩ := ih hrest
      exact ⟨r :: rs, by rw [map_cons, hr, hrs]⟩
  have hmem : ∀ key, key ∈ db.expiry2Outpoints.toList.map Prod.fst ↔
      ∃ v, db.expiry2Outpoints[key]? = some v := by
    intro key
    simp only [mem_map, Prod.exists, OrdMap.mem_toList, exists_and_right, exists_eq_right]
  obtain ⟨rs, hrs⟩ := hkeys (db.expiry2Outpoints.toList.map Prod.fst) fun key hkey =>
    let ⟨v, hv⟩ := (hmem key).1 hkey
    h key v hv
  refine ⟨rs, hrs, ?_, fun r => ?_⟩
  · rw [← hrs]
    exact pairwise_map.2 ExtTreeMap.ordered_keys_toList
  · rw [Indexed, ← hmem, hrs, mem_map]
    exact ⟨fun hr => ⟨r, hr, rfl⟩, fun ⟨r', hr', hkey⟩ => ExpiringUTXO.key_inj.1 hkey ▸ hr'⟩

theorem lt_length_iff {α : Type} {l : List α} (hnodup : l.Nodup) (n : Nat) :
    n < l.length ↔ ∃ a ∈ l, a ∉ l.take n := by
  constructor
  · intro hlt
    have hdrop : l[n] ∈ l.drop n := mem_drop_iff_getElem.2 ⟨0, by omega, rfl⟩
    exact ⟨l[n], getElem_mem hlt, fun hmem => disjoint_take_drop hnodup le_rfl hmem hdrop⟩
  · rintro ⟨a, ha, hnot⟩
    by_contra hge
    rw [take_of_length_le (by omega)] at hnot
    exact hnot ha

/-- **Paging through a range gives every row of it once, in order**, for any content of the index, any
range and any page size.  Each request tells whether a row of the range is still to come. -/
theorem scan_pagination {idx : Index} (hidx : idx.disabled = false) {db : Buckets}
    (h : WellKeyed db) (fromKey toKey : UInt64) {maxResults : Int} (hmax : 1 ≤ maxResults) :
    (∃ pages, PagesFrom (rangePage (idx.scanExpiringUTXOs db) fromKey toKey maxResults) none pages ∧
      (∀ pages', PagesFrom (rangePage (idx.scanExpiringUTXOs db) fromKey toKey maxResults) none
        pages' → pages' = pages) ∧
      pages.flatten.Pairwise ExpiringUTXO.Before ∧
      ∀ r, r ∈ pages.flatten ↔ Indexed db r ∧ fromKey ≤ r.expiryKey ∧ r.expiryKey ≤ toKey) ∧
    ∀ (start : UInt64) (startAfter : Option OutPoint), ∃ rows hasMore,
      idx.scanExpiringUTXOs db start toKey maxResults startAfter = .ok (rows, hasMore) ∧
      (∀ r ∈ rows, Indexed db r ∧ Beyond start startAfter r ∧ r.expiryKey ≤ toKey) ∧
      (hasMore = true ↔
        ∃ r, Indexed db r ∧ Beyond start startAfter r ∧ r.expiryKey ≤ toKey ∧ r ∉ rows) := by
  obtain ⟨rs, hkeys, hsorted, hmem⟩ := h.exists_rows
  constructor
  · obtain ⟨pages, hpages, hflat⟩ :=
      (serves_rangePage hidx hsorted hkeys fromKey toKey (show 0 < maxResults by omega)).exists_pages
        (by omega)
    refine ⟨pages, hpages, fun _ hpages' => hpages'.unique hpages, ?_, fun r => ?_⟩
    · rw [hflat]
      exact ((List.pairwise_map.1 hsorted).imp ExpiringUTXO.before_iff.2).sublist
        List.filter_sublist
    · rw [hflat, inRange, List.mem_filter, hmem, decide_eq_true_iff]
  · intro start startAfter
    have hnodup : rs.Nodup := (List.pairwise_map.1 hsorted).imp fun hlt heq => by
      rw [heq] at hlt
      exact OrientedCmp.not_lt_of_lt hlt hlt
    have hrows : ∀ r, r ∈ (rs.filter fun r => Beyond start startAfter r).filter
        (fun r => r.expiryKey ≤ toKey) ↔
          Indexed db r ∧ Beyond start startAfter r ∧ r.expiryKey ≤ toKey := by
      intro r
      rw [List.mem_filter, List.mem_filter, hmem, decide_eq_true_iff, decide_eq_true_iff, and_assoc]
    refine ⟨_, _, scanExpiringUTXOs_eq hidx hsorted hkeys start toKey (by omega) startAfter,
      fun r hr => (hrows r).1 (List.mem_of_mem_take hr), ?_⟩
    rw [decide_eq_true_iff, lt_length_iff ((hnodup.filter _).filter _)]
    refine exists_congr fun r => ?_
    rw [hrows, and_assoc, and_assoc]

/-- An index with two outputs that expire at one height. -/
def Sample.twoRows : Buckets :=
  ⟨∅, ∅, ((∅ : Bucket).insert (encodeExpiryOutpointCompositeKey 154 ⟨Hash.zero, 0⟩) []).insert
    (encodeExpiryOutpointCompositeKey 154 ⟨Hash.zero, 1⟩) [], ∅, ∅⟩

theorem wellKeyed_twoRows : WellKeyed Sample.twoRows := by
  intro key v hget
  rw [Sample.twoRows, OrdMap.getElem?_insert', OrdMap.getElem?_insert'] at hget
  split_ifs at hget with h₁ h₂
  · exact ⟨⟨⟨Hash.zero, 1⟩, 154⟩, h₁⟩
  · exact ⟨⟨⟨Hash.zero, 0⟩, 154⟩, h₂⟩
  · simp at hget

/-- Two pages of one row each, inside one expiry height. -/
theorem scan_pagination_twoRows : WellKeyed Sample.twoRows ∧
    ∃ pages, PagesFrom (rangePage (Index.scanExpiringUTXOs ⟨⟨144, 1000, 0, 110, 110⟩, 199, false⟩
        Sample.twoRows) 100 200 1) none pages ∧
      pages.flatten.Pairwise ExpiringUTXO.Before ∧
      ∀ r, r ∈ pages.flatten ↔ Indexed Sample.twoRows r ∧ 100 ≤ r.expiryKey ∧ r.expiryKey ≤ 200 := by
  have henabled : (⟨⟨144, 1000, 0, 110, 110⟩, 199, false⟩ : Index).disabled = false := rfl
  obtain ⟨pages, hpages, -, hsorted, hmem⟩ :=
    (scan_pagination henabled wellKeyed_twoRows 100 200 (by decide : (1 : Int) ≤ 1)).1
  exact ⟨wellKeyed_twoRows, pages, hpages, hsorted, hmem⟩

end ExpiryIndex

end Obtcd
