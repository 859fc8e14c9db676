import Obtcd.Blockchain.Chainio
import Obtcd.ExpiryIndex.Encode
import Obtcd.Lib.Prog

/-!
# Walking over the coin database

`utxo_iter.go`: reading every unspent output from the bucket the coins are stored in, in the order
of the keys.  A key that is too short and a value that cannot be decoded are passed over.

`StoresUtxos` says that a bucket holds a set of coins, each under the key and with the value that
the cache writes for it.  A walk over such a bucket visits the coins of the set and nothing else
(`mem_snapshotEntries`), each of them once (`nodup_snapshotEntries`).

The keys are meant to sort by transaction and output index.  They do as long as the numerals of the
indices sort as the indices (`compare_outpointKey_iff`).
-/

namespace Obtcd

open UtxoEntry
open ExpiryIndex (hashOfBytes hashOfBytes_bytes)

def outpointKey (op : OutPoint) : Bytes := op.hash.bytes.val ++ putVLQ op.index.toUInt64

structure UTXOSnapshotEntry where
  outPoint : OutPoint
  blockHeight : Int32
  amount : Int64
  isCoinBase : Bool
  pkScript : Bytes
deriving DecidableEq

/-- What the iterator makes of a row; nothing, if it passes over it. -/
def readSnapshotEntry (parsePubKey : ParsePubKey) (key value : Bytes) : Option UTXOSnapshotEntry :=
  if key.length < 32 + 1 then none
  else
    match deserializeUtxoEntry parsePubKey value with
    | .error _ => none
    | .ok entry =>
      some {
        outPoint := ⟨hashOfBytes (key.take 32), (deserializeVLQ (key.drop 32)).1.toUInt32⟩
        blockHeight := entry.blockHeight
        amount := entry.amount
        isCoinBase := entry.coinBase
        pkScript := entry.pkScript }

/-- The entries the iterator visits, in order. -/
def snapshotEntries (parsePubKey : ParsePubKey) (utxoBucket : OrdMap Bytes Bytes) :
    List UTXOSnapshotEntry :=
  utxoBucket.toList.filterMap fun row => readSnapshotEntry parsePubKey row.1 row.2

/-- Without a bucket the set is empty. -/
def forEachUTXOInDB {σ : Type} (parsePubKey : ParsePubKey) (utxoBucket : Option (OrdMap Bytes Bytes))
    (fn : UTXOSnapshotEntry → Prog σ GoError PUnit) : Prog σ GoError PUnit :=
  match utxoBucket with
  | none => pure ()
  | some bucket => (snapshotEntries parsePubKey bucket).forM fn

/-! ## What a walk visits -/

def UTXOSnapshotEntry.coin (e : UTXOSnapshotEntry) : SpentTxOut :=
  ⟨e.amount, e.pkScript, e.blockHeight, e.isCoinBase⟩

/-- The bucket stores the coins of `u` as the cache writes them. -/
structure StoresUtxos (parsePubKey : ParsePubKey) (bucket : OrdMap Bytes Bytes) (u : Utxos) : Prop where
  rows : ∀ k v, bucket[k]? = some v ↔ ∃ op coin, u[op]? = some coin ∧ outpointKey op = k ∧
    serializeUtxoEntry parsePubKey (ofCoin coin) = .ok (some v)
  storable : ∀ (op : OutPoint) (coin : SpentTxOut), u[op]? = some coin → coin.Storable

/-- The entry of a coin. -/
def snapshotOf (op : OutPoint) (coin : SpentTxOut) : UTXOSnapshotEntry :=
  ⟨op, coin.height, coin.amount, coin.isCoinBase, coin.pkScript⟩

theorem readSnapshotEntry_of_row {parsePubKey : ParsePubKey} (hparse : Decompresses parsePubKey)
    (op : OutPoint) {coin : SpentTxOut} (hcoin : coin.Storable) {v : Bytes}
    (hv : serializeUtxoEntry parsePubKey (ofCoin coin) = .ok (some v)) :
    readSnapshotEntry parsePubKey (outpointKey op) v = some (snapshotOf op coin) := by
  obtain ⟨hash, index⟩ := op
  have htake : (outpointKey ⟨hash, index⟩).take 32 = hash.bytes.val := List.take_left' (by simp)
  have hdrop : (outpointKey ⟨hash, index⟩).drop 32 = putVLQ index.toUInt64 :=
    List.drop_left' (by simp)
  have hlen : ¬ (outpointKey ⟨hash, index⟩).length < 32 + 1 := by
    have hpos := serializeSizeVLQ_pos index.toUInt64
    rw [← length_putVLQ] at hpos
    have hhash : hash.bytes.val.length = 32 := hash.bytes.property
    rw [outpointKey, List.length_append]
    dsimp only
    omega
  have hvlq := deserializeVLQ_putVLQ index.toUInt64 []
  rw [List.append_nil] at hvlq
  obtain ⟨bs, hser, hread⟩ : ∃ bs, serializeUtxoEntry parsePubKey (ofCoin coin) =
      .ok (some bs) ∧ readUtxoEntry parsePubKey bs = .ok (ofCoin coin, bs.length) :=
    readUtxoEntry_serialize hparse rfl hcoin
  obtain rfl : bs = v := by
    rw [hser] at hv
    exact Option.some.inj (Except.ok.inj hv)
  have hdes : deserializeUtxoEntry parsePubKey bs = .ok (ofCoin coin) := by
    rw [deserializeUtxoEntry, hread]
    rfl
  rw [readSnapshotEntry, if_neg hlen, hdes, htake, hdrop, hvlq, hashOfBytes_bytes]
  rw [UInt32.toUInt32_toUInt64]
  rfl

section Walk

variable {parsePubKey : ParsePubKey} (hparse : Decompresses parsePubKey) {bucket : OrdMap Bytes Bytes}
  {u : Utxos} (h : StoresUtxos parsePubKey bucket u)

include hparse h

/-- A row of the bucket is the row of a coin, and read as such. -/
theorem StoresUtxos.read {k v : Bytes} (hrow : (k, v) ∈ bucket.toList) :
    ∃ op coin, u[op]? = some coin ∧ outpointKey op = k ∧
      readSnapshotEntry parsePubKey k v = some (snapshotOf op coin) := by
  obtain ⟨op, coin, hget, rfl, hv⟩ := (h.rows k v).1 ((OrdMap.mem_toList ..).1 hrow)
  exact ⟨op, coin, hget, rfl, readSnapshotEntry_of_row hparse op (h.storable op coin hget) hv⟩

theorem StoresUtxos.mem_snapshotEntries {e : UTXOSnapshotEntry} :
    e ∈ snapshotEntries parsePubKey bucket ↔ u[e.outPoint]? = some e.coin := by
  rw [snapshotEntries, List.mem_filterMap]
  constructor
  · rintro ⟨⟨k, v⟩, hrow, hread⟩
    obtain ⟨op, coin, hget, -, hread'⟩ := h.read hparse hrow
    rw [hread] at hread'
    rwa [Option.some.inj hread']
  · intro hget
    obtain ⟨v, hv, -⟩ : ∃ v, serializeUtxoEntry parsePubKey (ofCoin e.coin) = .ok (some v) ∧
        readUtxoEntry parsePubKey v = .ok (ofCoin e.coin, v.length) :=
      readUtxoEntry_serialize hparse rfl (h.storable _ _ hget)
    have hrow : bucket[outpointKey e.outPoint]? = some v :=
      (h.rows _ v).2 ⟨e.outPoint, e.coin, hget, rfl, hv⟩
    exact ⟨(outpointKey e.outPoint, v), (OrdMap.mem_toList ..).2 hrow,
      readSnapshotEntry_of_row hparse e.outPoint (h.storable _ _ hget) hv⟩

theorem StoresUtxos.nodup_snapshotEntries :
    ((snapshotEntries parsePubKey bucket).map (·.outPoint)).Nodup := by
  rw [snapshotEntries, List.map_filterMap, List.Nodup, List.pairwise_filterMap]
  refine (List.pairwise_map.1 (OrdMap.nodup_keys_toList bucket)).imp_of_mem ?_
  rintro ⟨k, v⟩ ⟨k', v'⟩ hrow hrow' hne o ho o' ho' rfl
  obtain ⟨op, coin, -, rfl, hread⟩ := h.read hparse hrow
  obtain ⟨op', coin', -, rfl, hread'⟩ := h.read hparse hrow'
  rw [hread, Option.map_some, Option.some.injEq] at ho
  rw [hread', Option.map_some, Option.some.injEq] at ho'
  exact hne (congrArg outpointKey (ho.trans ho'.symm))

end Walk

/-! ## The order of the keys -/

/-- The order by hash and index. -/
def OutPoint.order (a b : OutPoint) : Ordering :=
  (compare a.hash.bytes.val b.hash.bytes.val).then (compare a.index.toNat b.index.toNat)

/-- The keys of two outpoints are in the order of the outpoints exactly if they are outputs of
different transactions, or the numerals of their indices are. -/
theorem compare_outpointKey_iff (a b : OutPoint) :
    compare (outpointKey a) (outpointKey b) = a.order b ↔
      a.hash ≠ b.hash ∨ Vlq.InOrder (min a.index.toNat b.index.toNat)
        (max a.index.toNat b.index.toNat) := by
  have hnat : ∀ op : OutPoint, op.index.toUInt64.toNat = op.index.toNat := fun op =>
    UInt32.toNat_toUInt64 _
  rw [outpointKey, outpointKey, Bytes.compare_append (by simp), putVLQ_eq_code, putVLQ_eq_code,
    hnat, hnat, OutPoint.order]
  by_cases hhash : a.hash = b.hash
  · have heq : compare b.hash.bytes.val b.hash.bytes.val = .eq := Std.compare_self
    rw [hhash, heq, or_iff_right (not_not.2 rfl)]
    change compare (Vlq.code a.index.toNat) (Vlq.code b.index.toNat) =
      compare a.index.toNat b.index.toNat ↔ _
    rcases Nat.lt_trichotomy a.index.toNat b.index.toNat with h | h | h
    · rw [Nat.compare_eq_lt.2 h, Nat.min_eq_left h.le, Nat.max_eq_right h.le,
        Vlq.compare_code_iff h]
    · rw [h, Std.compare_self, Std.compare_self, Nat.min_self, Nat.max_self]
      exact iff_of_true rfl (Vlq.inOrder_self _)
    · rw [Nat.compare_eq_gt.2 h, Nat.min_eq_right h.le, Nat.max_eq_left h.le,
        ← Vlq.compare_code_iff h]
      exact Std.OrientedCmp.gt_iff_lt
  · refine iff_of_true ?_ (.inl hhash)
    have hne : compare a.hash.bytes.val b.hash.bytes.val ≠ .eq := fun heq =>
      hhash (Hash.bytes_injective (Std.LawfulEqCmp.eq_of_compare heq))
    cases hcmp : compare a.hash.bytes.val b.hash.bytes.val with
    | eq => exact absurd hcmp hne
    | lt => rfl
    | gt => rfl

/-- Two outputs of one transaction with keys in the wrong order: `81 00` and `80 80 00`. -/
theorem outpointKey_out_of_order :
    compare (outpointKey ⟨Hash.zero, 256⟩) (outpointKey ⟨Hash.zero, 16512⟩) = .gt ∧
      OutPoint.order ⟨Hash.zero, 256⟩ ⟨Hash.zero, 16512⟩ = .lt := by
  decide +kernel

end Obtcd
