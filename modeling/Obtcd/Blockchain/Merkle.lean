import Obtcd.Blockchain.Error
import Obtcd.Ledger

/-!
# Merkle roots and the witness commitment

`CalcMerkleRoot` adds the leaves one at a time to a store that keeps the roots of the perfect trees
so far, and closes the tree by adding the last root to itself.  The witness commitment of a block is
a hash of the root over the witness hashes of its transactions, in which the coinbase counts as the
zero hash: that is what makes it possible to put the commitment into the coinbase, and to rewrite
the coinbase's script afterwards (`calcMerkleRoot_witness_cons`).
-/

namespace Obtcd

/-! ## Witness hashes -/

namespace MsgTx

def witnessHash (tx : MsgTx) : Hash :=
  if tx.hasWitness then doubleHashRaw tx.serialize else tx.txHash

end MsgTx

/-! ## The rolling store -/

def hashMerkleBranches (left right : Hash) : Hash :=
  doubleHashRaw (left.bytes.val ++ right.bytes.val)

/-- `rollingMerkleTreeStore`, with the last root first. -/
structure RollingMerkleTreeStore where
  roots : List Hash := []
  numLeaves : Nat := 0

namespace RollingMerkleTreeStore

/-- The loop of `add`: as long as the lowest bit of the number of leaves is set there is a root of
that height to join with. -/
def join : List Hash → Nat → Hash → List Hash
  | [], _, newRoot => [newRoot]
  | root :: roots, n, newRoot =>
    if n % 2 = 1 then join roots (n / 2) (hashMerkleBranches root newRoot)
    else newRoot :: root :: roots

def add (s : RollingMerkleTreeStore) (leaf : Hash) : RollingMerkleTreeStore where
  roots := join s.roots s.numLeaves leaf
  numLeaves := s.numLeaves + 1

/-- The number of leaves on the lowest row with an odd number of them. -/
def oddRow : Nat → Nat → Nat
  | 0, n => n
  | fuel + 1, n => if n % 2 = 0 then oddRow fuel (n / 2) else n

/-- The last loop of `calcMerkleRoot`.  It only runs on an even number of leaves greater than two,
and a round leaves less of them. -/
def close : Nat → RollingMerkleTreeStore → RollingMerkleTreeStore
  | 0, s => s
  | fuel + 1, s =>
    match s.roots with
    | last :: _ :: _ => close fuel (add { s with numLeaves := oddRow 64 s.numLeaves } last)
    | _ => s

end RollingMerkleTreeStore

/-- The leaves of a tree over some transactions.  The witness hash of a coinbase is zero. -/
def merkleLeaves (witness : Bool) : List MsgTx → List Hash
  | [] => []
  | coinbase :: txs =>
    if witness then Hash.zero :: txs.map MsgTx.witnessHash
    else (coinbase :: txs).map MsgTx.txHash

/-- It is never called without a transaction, on which it would panic. -/
def calcMerkleRoot (transactions : List MsgTx) (witness : Bool) : Hash :=
  let leaves := merkleLeaves witness transactions
  let s := leaves.foldl RollingMerkleTreeStore.add {}
  if s.numLeaves = 1 then s.roots.headD Hash.zero
  else
    -- an odd number of transactions is made even with the last one
    let s := if leaves.length % 2 = 1 then s.add (leaves.getLastD Hash.zero) else s
    (RollingMerkleTreeStore.close s.numLeaves s).roots.headD Hash.zero

/-- The witness root does not depend on the coinbase. -/
theorem calcMerkleRoot_witness_cons (coinbase coinbase' : MsgTx) (txs : List MsgTx) :
    calcMerkleRoot (coinbase :: txs) true = calcMerkleRoot (coinbase' :: txs) true := by
  have hleaves : merkleLeaves true (coinbase :: txs) = merkleLeaves true (coinbase' :: txs) := by
    simp [merkleLeaves]
  rw [calcMerkleRoot, calcMerkleRoot, hleaves]

/-! ## The witness commitment -/

def coinbaseWitnessDataLen : Nat := 32
def coinbaseWitnessPkScriptLength : Nat := 38

/-- `OP_RETURN`, a push of 36 bytes, and the first four of them. -/
def witnessMagicBytes : Bytes := [Txscript.opReturn, 0x24, 0xaa, 0x21, 0xa9, 0xed]

/-- Does an output script hold a witness commitment? -/
def isWitnessCommitment (pkScript : Bytes) : Bool :=
  pkScript.length ≥ coinbaseWitnessPkScriptLength && witnessMagicBytes.isPrefixOf pkScript

/-- The last commitment among the outputs of a coinbase. -/
def extractWitnessCommitment (tx : MsgTx) : Option Bytes :=
  if !isCoinBaseTx tx then none
  else
    (tx.txOut.reverse.find? fun o => isWitnessCommitment o.pkScript).map fun o =>
      (o.pkScript.take coinbaseWitnessPkScriptLength).drop witnessMagicBytes.length

/-- The commitment to a witness root with a nonce. -/
def commitWitnessRoot (root : Hash) (nonce : Bytes) : Bytes :=
  (doubleHashRaw (root.bytes.val ++ nonce)).bytes.val

/-- A byte slice as `%v` prints it. -/
def bytesString (bs : Bytes) : String :=
  "[" ++ String.intercalate " " (bs.map fun b => toString b.toNat) ++ "]"

def validateWitnessCommitment (block : Block) : Except GoError Unit :=
  match block.transactions with
  | [] =>
    .error (.rule .errNoTransactions
      "cannot validate witness commitment of block without transactions")
  | coinbaseTx :: _ =>
    match coinbaseTx.txIn with
    | [] => .error (.rule .errNoTxInputs "transaction has no inputs")
    | ti :: _ =>
      match extractWitnessCommitment coinbaseTx with
      | none =>
        if block.transactions.any MsgTx.hasWitness then
          .error (.rule .errUnexpectedWitness
            "block contains transaction with witness data, yet no witness commitment present")
        else .ok ()
      | some witnessCommitment =>
        match ti.witness with
        | [witnessNonce] =>
          if witnessNonce.length ≠ coinbaseWitnessDataLen then
            .error (.rule .errInvalidWitnessCommitment
              ("the coinbase transaction witness nonce has " ++ toString witnessNonce.length ++
                " bytes when it must be " ++ toString coinbaseWitnessDataLen ++ " bytes"))
          else
            let computedCommitment :=
              commitWitnessRoot (calcMerkleRoot block.transactions true) witnessNonce
            if computedCommitment ≠ witnessCommitment then
              .error (.rule .errWitnessCommitmentMismatch
                ("witness commitment does not match: computed " ++
                  bytesString computedCommitment ++ ", coinbase includes " ++
                  bytesString witnessCommitment))
            else .ok ()
        | coinbaseWitness =>
          .error (.rule .errInvalidWitnessCommitment
            ("the coinbase transaction has " ++ toString coinbaseWitness.length ++
              " items in its witness stack when only one is allowed"))

end Obtcd
