import Obtcd.Blockchain.MerkleUnique

/-!
# The merkle tree in an array

`BuildMerkleTreeStore` is the older way to a merkle root: all nodes of the tree in one array, the
leaves first, each row filled up with `nil` to a power of two, and the root last.  `CalcMerkleRoot`
replaced it.  Both are the root of one tree: `MerkleTree.getLast?_grow_padded` for the array,
`calcMerkleRoot_eq_root` for the rolling store.
-/

namespace Obtcd

/-- The integral part of `math.Log2` is exact below `2 ^ 48`, and no slice is as
long as that. -/
def nextPowerOfTwo (n : Nat) : Nat := if n &&& (n - 1) = 0 then n else 1 <<< (n.log2 + 1)

/-- `BuildMerkleTreeStore`, with the array as far as it has been written. -/
def buildMerkleTreeStore (transactions : List MsgTx) (witness : Bool) : List (Option Hash) :=
  let nextPoT := nextPowerOfTwo transactions.length
  let arraySize := nextPoT * 2 - 1
  let leaves := (merkleLeaves witness transactions).map some
  -- the index runs over the even numbers below `arraySize - 1`, the offset from `nextPoT` on
  MerkleTree.grow hashMerkleBranches (arraySize / 2) 0
    (leaves ++ List.replicate (nextPoT - transactions.length) none)

theorem nextPowerOfTwo_eq {n : Nat} (h : 0 < n) : nextPowerOfTwo n = 2 ^ MerkleTree.height n := by
  obtain ⟨hle, hlt⟩ := MerkleTree.height_spec h
  rw [nextPowerOfTwo]
  split_ifs with hpow
  · obtain ⟨k, rfl⟩ := (Nat.and_sub_one_eq_zero_iff_isPowerOfTwo (by omega)).1 hpow
    rw [← Nat.pow_succ'] at hlt
    have hk := (Nat.pow_le_pow_iff_right (by decide)).1 hle
    have hk' := (Nat.pow_lt_pow_iff_right (by decide)).1 hlt
    rw [show MerkleTree.height (2 ^ k) = k by omega]
  · rw [Nat.and_sub_one_eq_zero_iff_isPowerOfTwo (by omega)] at hpow
    have hself := Nat.log2_self_le (n := n) (by omega)
    have hnext := Nat.lt_log2_self (n := n)
    have hne : 2 ^ n.log2 ≠ n := fun heq => hpow ⟨_, heq.symm⟩
    have hk : n.log2 < MerkleTree.height n :=
      (Nat.pow_lt_pow_iff_right (a := 2) (by decide)).1 (by omega)
    have hk' : MerkleTree.height n < n.log2 + 2 :=
      (Nat.pow_lt_pow_iff_right (a := 2) (by decide)).1 (by rw [Nat.pow_succ]; omega)
    rw [Nat.one_shiftLeft, show MerkleTree.height n = n.log2 + 1 by omega]

/-- **The rolling store and the array have one root**, with and without witness hashes.  A slice has
less than `2 ^ 63` elements. -/
theorem buildMerkleTreeStore_getLast? {transactions : List MsgTx} (witness : Bool)
    (hne : transactions ≠ []) (hmax : transactions.length < 2 ^ 63) :
    (buildMerkleTreeStore transactions witness).getLast? =
      some (some (calcMerkleRoot transactions witness)) := by
  have hlen := length_merkleLeaves witness transactions
  have hleaves : merkleLeaves witness transactions ≠ [] :=
    List.ne_nil_of_length_pos (by rw [hlen]; exact List.length_pos_iff.2 hne)
  have hlast := MerkleTree.getLast?_grow_padded (H := hashMerkleBranches) hleaves Hash.zero
  rw [MerkleTree.padded, hlen, ← nextPowerOfTwo_eq (List.length_pos_iff.2 hne)] at hlast
  rw [calcMerkleRoot_eq_root witness hne hmax, ← hlast, buildMerkleTreeStore]
  rw [show (nextPowerOfTwo transactions.length * 2 - 1) / 2 =
    nextPowerOfTwo transactions.length - 1 by omega]

theorem buildMerkleTreeStore_getLast?_threeTxs :
    (buildMerkleTreeStore (threeTxs [[1]]) true).getLast? =
      some (some (calcMerkleRoot (threeTxs [[1]]) true)) :=
  buildMerkleTreeStore_getLast? true (by decide) (by decide)

end Obtcd
