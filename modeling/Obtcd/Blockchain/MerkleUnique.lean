import Obtcd.Blockchain.Sanity
import Obtcd.Lib.MerkleTree

/-!
# One list of transactions for a merkle root

The root of a block is the root of a tree in which the last node of a row of odd length is joined
with itself, so a list of transactions and the same list with its end repeated have one root.
`checkBlockSanity` does not look at how the tree came about.  It refuses blocks in which a hash
occurs twice, and that is enough: `sane_transactions_unique`.

* The store of `rolling_merkle.go` holds the roots of the perfect trees over the leaves added so
  far (`foldl_add`); closing it gives the root of the tree with the repetitions
  (`calcMerkleRoot_eq_root`), for less than `2 ^ 63` leaves.
* `eq_of_root_eq` is about the tree.
-/

namespace Obtcd

open MsgTx MerkleTree List RollingMerkleTreeStore

/-! ## The rolling store -/

namespace RollingMerkleTreeStore

/-- The store after some leaves: the perfect trees they fall into. -/
def storeOf (leaves : List Hash) (numLeaves : Nat) : RollingMerkleTreeStore :=
  ⟨MerkleTree.roots hashMerkleBranches leaves, numLeaves⟩

/-- Joining a leaf with the roots of a forest gives the roots of the forest with the leaf. -/
theorem join_roots (l : List Hash) (leaf : Hash) :
    join (MerkleTree.roots hashMerkleBranches l) l.length leaf =
      MerkleTree.roots hashMerkleBranches (l ++ [leaf]) := by
  induction hn : l.length using Nat.strongRecOn generalizing l leaf with
  | _ n ih =>
    rcases Nat.mod_two_eq_zero_or_one l.length with heven | hodd
    · -- the new leaf is a tree of its own
      have hjoin : ∀ rs : List Hash, join rs n leaf = leaf :: rs := by
        intro rs
        cases rs with
        | nil => rfl
        | cons r rs => rw [join, if_neg (by omega)]
      rw [hjoin, roots_concat heven, ← roots_of_even heven]
    · -- the new leaf is joined with the last one, and the rest happens one row up
      obtain ⟨m, a, rfl, hm⟩ := exists_concat_of_odd hodd
      have hlen : m.length + 1 = n := by simpa using hn
      have hrow : (row hashMerkleBranches m).length = n / 2 := by
        rw [length_row]
        omega
      have heven : (m ++ [a] ++ [leaf]).length % 2 = 0 := by
        simp only [length_append, length_singleton]
        omega
      rw [roots_concat hm, join, if_pos (by omega),
        ih (n / 2) (by omega) (row hashMerkleBranches m) _ hrow, roots_of_even heven,
        append_assoc, row_append hm]
      rfl

theorem add_storeOf (l : List Hash) (leaf : Hash) :
    (storeOf l l.length).add leaf = storeOf (l ++ [leaf]) (l ++ [leaf]).length := by
  rw [add, storeOf, storeOf, join_roots, length_append, length_singleton]

theorem foldl_add (l : List Hash) : l.foldl add {} = storeOf l l.length := by
  induction l using List.reverseRecOn with
  | nil =>
    rw [storeOf, roots_nil]
    rfl
  | append_singleton l leaf ih =>
    rw [foldl_append, ih]
    exact add_storeOf l leaf

theorem oddRow_mul {fuel k m : Nat} (hm : m % 2 = 1) (hk : k ≤ fuel) :
    oddRow fuel (2 ^ k * m) = m := by
  induction k generalizing fuel with
  | zero =>
    cases fuel with
    | zero => simp [oddRow]
    | succ fuel => rw [Nat.pow_zero, Nat.one_mul, oddRow, if_neg (by omega)]
  | succ k ih =>
    obtain ⟨fuel, rfl⟩ : ∃ f, fuel = f + 1 := ⟨fuel - 1, by omega⟩
    have hhalf : 2 ^ (k + 1) * m = 2 * (2 ^ k * m) := by rw [Nat.pow_succ]; ring
    rw [hhalf, oddRow, if_pos (by omega), Nat.mul_div_cancel_left _ (by omega), ih (by omega)]

/-- A node added to the forest it is the smallest tree of moves the forest one row up. -/
theorem add_last {m : List Hash} (a : Hash) (hm : m.length % 2 = 0) :
    (storeOf (m ++ [a]) (m ++ [a]).length).add a =
      storeOf (row hashMerkleBranches (m ++ [a])) ((m ++ [a]).length + 1) := by
  have heven : (m ++ [a] ++ [a]).length % 2 = 0 := by
    simp only [length_append, length_singleton]
    omega
  rw [add_storeOf, storeOf, storeOf, roots_of_even heven, row_concat_concat hm,
    length_append, length_singleton]

/-- Closing the store gives the root.  The number of leaves may be counted on any row below the
one the roots are from: the loop first goes up to the lowest row of odd length. -/
theorem close_storeOf (fuel k : Nat) (l : List Hash) (d : Hash) (hne : l ≠ [])
    (hfuel : l.length ≤ fuel) (hmax : 2 ^ k * l.length ≤ 2 ^ 63) :
    (close fuel (storeOf l (2 ^ k * l.length))).roots = [root hashMerkleBranches d l] := by
  induction hn : l.length using Nat.strongRecOn generalizing fuel k l with
  | _ n ih =>
    have hpos := length_pos_iff.2 hne
    rcases Nat.mod_two_eq_zero_or_one l.length with heven | hodd
    · -- the same store is one over the row above
      have hrow : (row hashMerkleBranches l).length = n / 2 := by
        rw [length_row]
        omega
      have hcount : 2 ^ k * n = 2 ^ (k + 1) * (n / 2) := by
        rw [Nat.pow_succ, Nat.mul_assoc, Nat.mul_div_cancel' (by omega)]
      have hclose := ih (n / 2) (by omega) fuel (k + 1) (row hashMerkleBranches l)
        (ne_nil_of_length_pos (by omega)) (by omega)
        (by rw [hrow, ← hcount, ← hn]; exact hmax) hrow
      rw [root_row (by omega), ← hcount] at hclose
      rwa [storeOf, roots_of_even heven]
    · obtain ⟨m, a, rfl, hm⟩ := exists_concat_of_odd hodd
      have hlen : m.length + 1 = n := by simpa using hn
      have hroots := roots_concat (H := hashMerkleBranches) hm a
      obtain ⟨fuel, rfl⟩ : ∃ f, fuel = f + 1 := ⟨fuel - 1, by omega⟩
      rcases eq_or_ne m [] with rfl | hm'
      · -- one root is left
        have hone : MerkleTree.roots hashMerkleBranches [a] = [a] := hroots.trans (by
          rw [row, pairs, map_nil, roots_nil])
        rw [nil_append, storeOf, hone, close]
        rfl
      · have hmpos := length_pos_iff.2 hm'
        have hrowm : row hashMerkleBranches m ≠ [] :=
          ne_nil_of_length_pos (by rw [length_row]; omega)
        obtain ⟨r, rs, hrs⟩ := exists_cons_of_ne_nil (roots_ne_nil (H := hashMerkleBranches) hrowm)
        have hk : k ≤ 64 := by
          by_contra hk
          have : 2 ^ 64 ≤ 2 ^ k := Nat.pow_le_pow_right (by omega) (by omega)
          have : 2 ^ k * 1 ≤ 2 ^ k * (m ++ [a]).length := Nat.mul_le_mul_left _ hpos
          omega
        have hle : 1 * n ≤ 2 ^ k * n := Nat.mul_le_mul_right _ Nat.one_le_two_pow
        rw [hn] at hmax hodd
        have hrow : (row hashMerkleBranches (m ++ [a])).length = (n + 1) / 2 := by
          rw [length_row, hn]
        have hcount : n + 1 = 2 ^ 1 * ((n + 1) / 2) := by omega
        have hstep : close (fuel + 1) (storeOf (m ++ [a]) (2 ^ k * n)) =
            close fuel ((storeOf (m ++ [a]) n).add a) := by
          rw [storeOf, hroots, hrs, close]
          simp only [oddRow_mul hodd hk]
          rw [storeOf, hroots, hrs]
        rw [hstep]
        have hadd := add_last a hm
        rw [hn] at hadd
        have hclose := ih ((n + 1) / 2) (by omega) fuel 1 (row hashMerkleBranches (m ++ [a]))
          (ne_nil_of_length_pos (by omega)) (by omega) (by omega) hrow
        rw [← hcount, root_row (by omega)] at hclose
        rwa [hadd]

end RollingMerkleTreeStore

theorem length_merkleLeaves (witness : Bool) (txs : List MsgTx) :
    (merkleLeaves witness txs).length = txs.length := by
  cases txs with
  | nil => rfl
  | cons tx txs =>
    rw [merkleLeaves]
    split <;> simp

/-- `CalcMerkleRoot` is the root of the tree over the leaves. -/
theorem calcMerkleRoot_eq_root {txs : List MsgTx} (witness : Bool) (hne : txs ≠ [])
    (hmax : txs.length < 2 ^ 63) :
    calcMerkleRoot txs witness = root hashMerkleBranches Hash.zero (merkleLeaves witness txs) := by
  have hlen := length_merkleLeaves witness txs
  have hpos := length_pos_iff.2 hne
  rw [calcMerkleRoot]
  simp only [foldl_add]
  generalize merkleLeaves witness txs = l at hlen
  rw [← hlen] at hpos hmax
  split
  · rename_i hone
    obtain ⟨a, rfl⟩ := length_eq_one_iff.1 (show l.length = 1 from hone)
    have hroots := roots_concat (H := hashMerkleBranches) (l := []) rfl a
    rw [nil_append] at hroots
    rw [storeOf, hroots, root_singleton]
    rfl
  rename_i hone
  have hmany : 1 < l.length := by
    have : l.length ≠ 1 := hone
    omega
  have hrowne : row hashMerkleBranches l ≠ [] :=
    ne_nil_of_length_pos (by rw [length_row]; omega)
  have hrow := length_row hashMerkleBranches l
  have hover : ∀ n, n = 2 ^ 1 * (row hashMerkleBranches l).length →
      (close n
        (storeOf (row hashMerkleBranches l) n)).roots.headD Hash.zero =
        root hashMerkleBranches Hash.zero l := by
    intro n hn
    have hclose := close_storeOf n 1 (row hashMerkleBranches l) Hash.zero
      hrowne (by omega) (by omega)
    rw [← hn, root_row hmany] at hclose
    rw [hclose]
    rfl
  split_ifs with hodd
  · obtain ⟨m, a, rfl, hm⟩ := exists_concat_of_odd hodd
    rw [getLastD_concat, add_last a hm]
    exact hover ((m ++ [a]).length + 1) (by omega)
  · have heven : l.length % 2 = 0 := by omega
    have hsame : storeOf l l.length = storeOf (row hashMerkleBranches l) l.length := by
      rw [storeOf, storeOf, roots_of_even heven]
    rw [hsame]
    exact hover l.length (by omega)

/-! ## Sane blocks -/

variable {block : Block}

theorem checkMerkleRoot_ok (h : checkMerkleRoot block = .ok ()) :
    block.header.merkleRoot = calcMerkleRoot block.transactions false := by
  rw [checkMerkleRoot] at h
  split_ifs at h
  · rename_i hroot
    exact not_not.1 hroot

/-- What `checkBlockSanity` establishes about the list of transactions. -/
structure Block.Listed (block : Block) : Prop where
  nonempty : block.transactions ≠ []
  few : block.transactions.length ≤ maxBlockBaseSize
  merkleRoot : block.header.merkleRoot = calcMerkleRoot block.transactions false

theorem checkBlockSanity_listed {rules : HeaderRules} {engine : ScriptEngine}
    (h : checkBlockSanity rules engine block = .ok ()) : block.Listed := by
  obtain ⟨⟨⟩, -, h⟩ := bind_eq_ok.1 h
  obtain ⟨⟨⟩, hsize, h⟩ := bind_eq_ok.1 h
  obtain ⟨⟨⟩, -, h⟩ := bind_eq_ok.1 h
  obtain ⟨⟨⟩, -, h⟩ := bind_eq_ok.1 h
  obtain ⟨⟨⟩, hroot, -⟩ := bind_eq_ok.1 h
  rw [checkBlockSize] at hsize
  split_ifs at hsize with hnone hmany
  exact ⟨fun hnil => hnone (by rw [hnil]; rfl), by omega, checkMerkleRoot_ok hroot⟩

theorem merkleLeaves_false (txs : List MsgTx) : merkleLeaves false txs = txs.map txHash := by
  cases txs with
  | nil => rfl
  | cons tx txs => rw [merkleLeaves, if_neg (by simp)]

theorem Block.Listed.root_eq (h : block.Listed) :
    block.header.merkleRoot =
      root hashMerkleBranches Hash.zero (block.transactions.map txHash) := by
  have hfew := h.few
  rw [h.merkleRoot, ← merkleLeaves_false]
  refine calcMerkleRoot_eq_root false h.nonempty ?_
  rw [maxBlockBaseSize] at hfew
  omega

/-- A block that repeats some of its transactions at its end is not sane. -/
theorem not_sane_of_repeated {rules : HeaderRules} {engine : ScriptEngine} {block' : Block}
    {repeated : List MsgTx} (htxs : block'.transactions = block.transactions ++ repeated)
    (hne : repeated ≠ []) (hsub : repeated ⊆ block.transactions) :
    checkBlockSanity rules engine block' ≠ .ok () := by
  intro h
  have hnodup := (checkBlockSanity_ok h).distinct
  obtain ⟨tx, rest, rfl⟩ := exists_cons_of_ne_nil hne
  rw [htxs, map_append, nodup_append] at hnodup
  have hmem : tx.txHash ∈ block.transactions.map txHash :=
    mem_map_of_mem (hsub mem_cons_self)
  exact hnodup.2.2 _ hmem _ (by simp) rfl

/-- **Two sane blocks with one header have the same transaction ids**, as long as the branches of
their trees collide neither with each other nor with a transaction id; and no block that repeats
transactions of a sane one at its end is sane, with whatever header. -/
theorem sane_transactions_unique (rules₁ rules₂ : HeaderRules) (engine : ScriptEngine)
    {b₁ b₂ : Block} (hheader : b₁.header = b₂.header)
    (h₁ : checkBlockSanity rules₁ engine b₁ = .ok ())
    (h₂ : checkBlockSanity rules₂ engine b₂ = .ok ())
    (hsep : Separates hashMerkleBranches (b₁.transactions.map txHash)
      (b₂.transactions.map txHash)) :
    b₁.transactions.map txHash = b₂.transactions.map txHash ∧
      ∀ (rules : HeaderRules) (mutated : Block) (repeated : List MsgTx),
        mutated.transactions = b₁.transactions ++ repeated → repeated ≠ [] →
        repeated ⊆ b₁.transactions → checkBlockSanity rules engine mutated ≠ .ok () := by
  have hl₁ := checkBlockSanity_listed h₁
  have hl₂ := checkBlockSanity_listed h₂
  refine ⟨?_, fun rules mutated repeated htxs hne hsub => not_sane_of_repeated htxs hne hsub⟩
  refine eq_of_root_eq (d := Hash.zero) ?_ ?_ (checkBlockSanity_ok h₁).distinct
    (checkBlockSanity_ok h₂).distinct hsep ?_
  · exact fun hnil => hl₁.nonempty (List.map_eq_nil_iff.1 hnil)
  · exact fun hnil => hl₂.nonempty (List.map_eq_nil_iff.1 hnil)
  · rw [← hl₁.root_eq, ← hl₂.root_eq, hheader]

/-- Three transactions, so that the last one is joined with itself. -/
def threeTxs (witness : List Bytes) : List MsgTx :=
  [⟨1, [⟨⟨Hash.zero, OutPoint.maxIndex⟩, [0x01, 0x01], [], 0⟩], [⟨50, [0x51]⟩], 0⟩,
    ⟨1, [⟨⟨Hash.zero, 0⟩, [], [], 0⟩], [⟨20, [0x51]⟩], 0⟩,
    ⟨1, [⟨⟨Hash.zero, 1⟩, [], witness, 0⟩], [⟨30, [0x51]⟩], 0⟩]

/-- A block of them, with or without a witness, under one header. -/
def threeTxBlock (witness : List Bytes) : Block where
  header := ⟨1, Hash.zero, calcMerkleRoot (threeTxs []) false, 0, 0, 0⟩
  transactions := threeTxs witness
  height := 1

theorem sane_transactions_unique_threeTxBlock :
    (threeTxBlock []).transactions.map txHash =
      (threeTxBlock [[1]]).transactions.map txHash ∧
      ∀ (rules : HeaderRules) (mutated : Block) (repeated : List MsgTx),
        mutated.transactions = (threeTxBlock []).transactions ++ repeated → repeated ≠ [] →
        repeated ⊆ (threeTxBlock []).transactions →
        checkBlockSanity rules .failing mutated ≠ .ok () := by
  -- one evaluation, so that the hashes are computed once
  obtain ⟨h₁, h₂, hinj, hleaf⟩ :
      checkBlockSanity ⟨fun _ => .ok (), fun _ => .ok ()⟩ .failing (threeTxBlock []) = .ok () ∧
      checkBlockSanity ⟨fun _ => .ok (), fun _ => .ok ()⟩ .failing (threeTxBlock [[1]]) = .ok () ∧
      (let ids := (threeTxBlock []).transactions.map txHash
       let ids' := (threeTxBlock [[1]]).transactions.map txHash
       let bs := MerkleTree.branches hashMerkleBranches ids ++
         MerkleTree.branches hashMerkleBranches ids'
       (∀ p ∈ bs, ∀ q ∈ bs, hashMerkleBranches p.1 p.2 = hashMerkleBranches q.1 q.2 → p = q) ∧
        ∀ p ∈ bs, ∀ x ∈ ids ++ ids', hashMerkleBranches p.1 p.2 ≠ x) := by
    decide +kernel
  exact sane_transactions_unique _ _ _ rfl h₁ h₂ ⟨hinj, hleaf⟩

end Obtcd
