import Obtcd.Blockchain.Process
import Obtcd.Lib.Forest

/-!
# The nodes of the block index

`blockindex.go` keeps a node for every block, with a pointer to the parent and a second one further
down, the *ancestor*, so that `Ancestor` need not visit every node on the way to a height.  Where
that pointer leads depends on the height alone: two of its bits are cleared (`getAncestorHeight`).

Nodes are allocated and never freed, so a pointer is the position of a node in the list of all of
them.  A node points to nodes that were there before it, which is a field of `Heap`, and every loop
over pointers ends.

`skip_list` is the result: between height zero and its own a node's `Ancestor` is what its parents
lead to.  The induction is over the calls of `newBlockNode` (`Heap.Built`): the pointer of a new node
is computed by `Ancestor` on the nodes there are, so it is right if theirs are (`Heap.Linked`).
Heights are 32-bit words.  A height that overflowed starts a new range of heights, from below zero
on, and no pointer leads across it.
-/

namespace Obtcd.BlockIndex

open Option
open Blockchain (Header)
open Forest (up Above)

/-! ## Heights -/

def invertLowestOne (n : Int32) : Int32 := n &&& (n - 1)

def getAncestorHeight (height : Int32) : Int32 := invertLowestOne (invertLowestOne height)

variable {n : Int32}

theorem toNat_of_nonneg (h : 0 ≤ n.toInt) : (n.toBitVec.toNat : Int) = n.toInt := by
  have hlt : n.toInt < 2 ^ 31 := n.toInt_lt
  have heq : n.toInt = (n.toBitVec.toNat : Int).bmod (2 ^ 32) := BitVec.toInt_eq_toNat_bmod _
  have hnat := n.toBitVec.isLt
  rw [Int.bmod_def] at heq
  split_ifs at heq <;> omega

theorem toInt_invertLowestOne (h : 0 ≤ n.toInt) :
    0 ≤ (invertLowestOne n).toInt ∧ (invertLowestOne n).toInt ≤ n.toInt ∧
      (0 < n.toInt → (invertLowestOne n).toInt < n.toInt) := by
  have hlt : n.toInt < 2 ^ 31 := n.toInt_lt
  have hand : (invertLowestOne n).toBitVec.toNat = n.toBitVec.toNat &&& (n - 1).toBitVec.toNat := by
    rw [invertLowestOne, Int32.toBitVec_and, BitVec.toNat_and]
  have hle := Nat.and_le_left (n := n.toBitVec.toNat) (m := (n - 1).toBitVec.toNat)
  have hle' := Nat.and_le_right (n := n.toBitVec.toNat) (m := (n - 1).toBitVec.toNat)
  have hn := toNat_of_nonneg h
  have hinv : (invertLowestOne n).toInt = (invertLowestOne n).toBitVec.toNat := by
    refine BitVec.toInt_eq_toNat_of_lt ?_
    omega
  refine ⟨by omega, by omega, fun hpos => ?_⟩
  have hpred := toNat_of_nonneg (n := n - 1) (by rw [MachineInt.toInt_sub_one h]; omega)
  rw [MachineInt.toInt_sub_one h] at hpred
  omega

theorem toInt_of_succ_nonneg (h : 0 ≤ (n + 1).toInt) : n.toInt = (n + 1).toInt - 1 := by
  have hlt : n.toInt < 2 ^ 31 := n.toInt_lt
  have hge : -2 ^ 31 ≤ n.toInt := n.le_toInt
  have h1 : (1 : Int32).toInt = 1 := rfl
  rw [Int32.toInt_add, h1, Int.bmod_def] at h ⊢
  split_ifs at h ⊢ <;> omega

theorem toInt_getAncestorHeight (h : 0 < n.toInt) :
    0 ≤ (getAncestorHeight n).toInt ∧ (getAncestorHeight n).toInt < n.toInt := by
  obtain ⟨hlo, -, hlt⟩ := toInt_invertLowestOne h.le
  obtain ⟨hlo', hle', -⟩ := toInt_invertLowestOne hlo
  rw [getAncestorHeight]
  exact ⟨hlo', lt_of_le_of_lt hle' (hlt h)⟩

/-! ## Nodes and pointers -/

/-- `blockNode`.  A pointer is the position of a node among all that were allocated. -/
structure Node where
  parent : Option Nat
  ancestor : Option Nat
  hash : Hash
  workSum : Nat
  height : Int32
  version : Int32
  bits : UInt32
  nonce : UInt32
  timestamp : Int64
  merkleRoot : Hash
  status : UInt8
deriving DecidableEq

/-- `Equals`, which does not look at the pointers. -/
def Node.equals (node other : Node) : Bool :=
  node.hash == other.hash && node.workSum == other.workSum && node.height == other.height &&
    node.version == other.version && node.bits == other.bits && node.nonce == other.nonce &&
    node.timestamp == other.timestamp && node.merkleRoot == other.merkleRoot &&
    node.status == other.status

theorem Node.equals_self (node : Node) : node.equals node = true := by
  simp [Node.equals]

theorem Node.height_of_equals {node other : Node} (h : node.equals other = true) :
    node.height = other.height := by
  simp only [Node.equals, Bool.and_eq_true, beq_iff_eq] at h
  exact h.1.1.1.1.1.1.2

theorem Node.hash_of_equals {node other : Node} (h : node.equals other = true) :
    node.hash = other.hash := by
  simp only [Node.equals, Bool.and_eq_true, beq_iff_eq] at h
  exact h.1.1.1.1.1.1.1.1

theorem getElem?_snoc {α : Type} {l : List α} {x y : α} {i : Nat} (h : (l ++ [x])[i]? = some y) :
    l[i]? = some y ∨ i = l.length ∧ y = x := by
  rcases Nat.lt_trichotomy i l.length with hlt | rfl | hgt
  · exact Or.inl (by rwa [List.getElem?_append_left hlt] at h)
  · exact Or.inr ⟨rfl, by simpa using h.symm⟩
  · rw [List.getElem?_eq_none (by simp; omega)] at h
    cases h

/-- The nodes that were allocated.  A node points to earlier ones. -/
structure Heap where
  nodes : List Node
  parent_lt : ∀ (p : Nat) (node : Node), nodes[p]? = some node → ∀ q, node.parent = some q → q < p
  ancestor_lt : ∀ (p : Nat) (node : Node), nodes[p]? = some node →
    ∀ q, node.ancestor = some q → q < p

namespace Heap

variable (h : Heap)

/-- The parent of a node. -/
def parent (p : Nat) : Option Nat := h.nodes[p]?.bind Node.parent

/-- Where the loop of `Ancestor` goes from a node: to its ancestor if that is not below the height
that is looked for, and to its parent otherwise. -/
def back (node : Node) (height : Int32) : Option Nat :=
  match node.ancestor with
  | some ancestor => if getAncestorHeight node.height ≥ height then some ancestor else node.parent
  | none => node.parent

/-- The loop of `Ancestor`. -/
def ancestorLoop (height : Int32) : Nat → Option Nat → Option Nat
  | _, none => none
  | 0, some _ => none
  | fuel + 1, some n =>
    match h.nodes[n]? with
    | none => none
    | some node =>
      if node.height = height then some n else ancestorLoop height fuel (back node height)

def ancestor (p : Nat) (height : Int32) : Option Nat :=
  match h.nodes[p]? with
  | none => none
  | some node =>
    if height < 0 ∨ height > node.height then none else h.ancestorLoop height (p + 1) (some p)

def isAncestor (p : Nat) (other : Option Nat) : Bool :=
  match h.nodes[p]?, other.bind (h.nodes[·]?) with
  | some node, some otherNode =>
    match (h.ancestor p otherNode.height).bind (h.nodes[·]?) with
    | none => false
    | some ancestor => if node.height = ancestor.height then false else ancestor.equals otherNode
  | _, _ => false

/-- `initBlockNode`, with `buildAncestor` for a node that has a parent. -/
def initBlockNode (blockHeader : Header) (parent : Option Nat) : Node :=
  let node : Node :=
    { parent := none, ancestor := none, hash := blockHeader.wire.blockHash,
      workSum := BlockTree.calcWork blockHeader.bits, height := 0, version := blockHeader.version,
      bits := blockHeader.bits, nonce := blockHeader.nonce, timestamp := blockHeader.timestamp,
      merkleRoot := blockHeader.merkleRoot, status := 0 }
  match parent with
  | none => node
  | some p =>
    match h.nodes[p]? with
    | none => node
    | some parentNode =>
      let height := parentNode.height + 1
      { node with
        parent := some p
        height := height
        workSum := parentNode.workSum + node.workSum
        ancestor := h.ancestor p (getAncestorHeight height) }

variable {h}

/-! ### Every pointer leads to an earlier node -/

variable {node : Node} {p : Nat} {height : Int32}

theorem back_lt (hnode : h.nodes[p]? = some node) {q : Nat} (hq : back node height = some q) :
    q < p := by
  rw [back] at hq
  split at hq
  · rename_i a ha
    split at hq
    · exact h.ancestor_lt p node hnode q (ha.trans hq)
    · exact h.parent_lt p node hnode q hq
  · exact h.parent_lt p node hnode q hq

theorem ancestorLoop_le {fuel : Nat} {n a : Nat} (ha : h.ancestorLoop height fuel (some n) = some a) :
    a ≤ n := by
  induction fuel generalizing n with
  | zero => cases ha
  | succ fuel ih =>
    rw [ancestorLoop] at ha
    cases hnode : h.nodes[n]? with
    | none =>
      rw [hnode] at ha
      cases ha
    | some node =>
      rw [hnode] at ha
      dsimp only at ha
      split at ha
      · exact (Option.some.inj ha).symm.le
      · cases hback : back node height with
        | none =>
          rw [hback] at ha
          cases fuel <;> cases ha
        | some q =>
          rw [hback] at ha
          exact (ih ha).trans (back_lt hnode hback).le

theorem ancestor_le {a : Nat} (ha : h.ancestor p height = some a) : a ≤ p ∧ p < h.nodes.length := by
  rw [ancestor] at ha
  cases hnode : h.nodes[p]? with
  | none =>
    rw [hnode] at ha
    cases ha
  | some node =>
    rw [hnode] at ha
    dsimp only at ha
    split at ha
    · cases ha
    · exact ⟨ancestorLoop_le ha, (List.getElem?_eq_some_iff.1 hnode).1⟩

/-- The pointers and the height of a new node. -/
theorem initBlockNode_cases (h : Heap) (blockHeader : Header) (parent : Option Nat) :
    ((h.initBlockNode blockHeader parent).parent = none ∧
      (h.initBlockNode blockHeader parent).ancestor = none ∧
      (h.initBlockNode blockHeader parent).height = 0) ∨
    ∃ p parentNode, parent = some p ∧ h.nodes[p]? = some parentNode ∧
      (h.initBlockNode blockHeader parent).parent = some p ∧
      (h.initBlockNode blockHeader parent).height = parentNode.height + 1 ∧
      (h.initBlockNode blockHeader parent).ancestor =
        h.ancestor p (getAncestorHeight (parentNode.height + 1)) := by
  cases parent with
  | none => exact Or.inl ⟨rfl, rfl, rfl⟩
  | some p =>
    cases hnode : h.nodes[p]? with
    | none =>
      left
      simp only [initBlockNode, hnode, and_self]
    | some parentNode =>
      right
      refine ⟨p, parentNode, rfl, hnode, ?_⟩
      simp only [initBlockNode, hnode, and_self]

variable {blockHeader : Header} {parent : Option Nat}

theorem initBlockNode_parent_lt {q : Nat}
    (hq : (h.initBlockNode blockHeader parent).parent = some q) : q < h.nodes.length := by
  rcases h.initBlockNode_cases blockHeader parent with
    ⟨hnone, -, -⟩ | ⟨p, parentNode, -, hnode, hparent, -, -⟩
  · rw [hnone] at hq
    cases hq
  · cases hparent.symm.trans hq
    exact (List.getElem?_eq_some_iff.1 hnode).1

theorem initBlockNode_ancestor_lt {a : Nat}
    (ha : (h.initBlockNode blockHeader parent).ancestor = some a) : a < h.nodes.length := by
  rcases h.initBlockNode_cases blockHeader parent with
    ⟨-, hnone, -⟩ | ⟨p, parentNode, -, -, -, -, hancestor⟩
  · rw [hnone] at ha
    cases ha
  · obtain ⟨hle, hlt⟩ := ancestor_le (hancestor.symm.trans ha)
    omega

/-- The new node is the last one. -/
def newBlockNode (h : Heap) (blockHeader : Header) (parent : Option Nat) : Heap where
  nodes := h.nodes ++ [h.initBlockNode blockHeader parent]
  parent_lt := by
    intro p node hnode q hq
    rcases getElem?_snoc hnode with hold | ⟨rfl, rfl⟩
    · exact h.parent_lt p node hold q hq
    · exact initBlockNode_parent_lt hq
  ancestor_lt := by
    intro p node hnode q hq
    rcases getElem?_snoc hnode with hold | ⟨rfl, rfl⟩
    · exact h.ancestor_lt p node hold q hq
    · exact initBlockNode_ancestor_lt hq

/-- Before there is any node. -/
def empty : Heap := ⟨[], by simp, by simp⟩

/-- The nodes that calls of `newBlockNode` have made. -/
inductive Built : Heap → Prop where
  | empty : Built empty
  | newBlockNode {h : Heap} (blockHeader : Header) (parent : Option Nat) (hbuilt : Built h) :
    Built (h.newBlockNode blockHeader parent)

/-! ## Where the pointers lead -/

/-- The height of a node is one more than its parent's.  Where it is not negative, the ancestor is
the node on the path at the height that belongs to it. -/
structure Linked (h : Heap) : Prop where
  parent : ∀ (p : Nat) (node : Node), h.nodes[p]? = some node →
    (node.parent = none ∧ node.height = 0) ∨
      ∃ q parentNode, node.parent = some q ∧ h.nodes[q]? = some parentNode ∧
        node.height = parentNode.height + 1
  ancestor : ∀ (p : Nat) (node : Node), h.nodes[p]? = some node → 0 ≤ node.height.toInt →
    ∀ a, node.ancestor = some a → 0 < node.height.toInt ∧
      up h.parent (node.height.toInt - (getAncestorHeight node.height).toInt).toNat p = some a

theorem parent_eq (hnode : h.nodes[p]? = some node) : h.parent p = node.parent := by
  rw [parent, hnode, bind_some]

/-- A height out of range has no ancestor. -/
theorem ancestor_eq_none (hnode : h.nodes[p]? = some node)
    (hrange : height.toInt < 0 ∨ node.height.toInt < height.toInt) :
    h.ancestor p height = none := by
  rw [ancestor, hnode]
  dsimp only
  rw [if_pos]
  rwa [gt_iff_lt, Int32.lt_iff_toInt_lt, Int32.lt_iff_toInt_lt]

section Path

variable (hl : h.Linked) (hnode : h.nodes[p]? = some node)
include hl hnode

/-- Above height zero there is a parent one below. -/
theorem Linked.exists_parent (hpos : 0 < node.height.toInt) :
    ∃ q parentNode, node.parent = some q ∧ h.nodes[q]? = some parentNode ∧
      parentNode.height.toInt = node.height.toInt - 1 := by
  rcases hl.parent p node hnode with ⟨-, hzero⟩ | ⟨q, parentNode, hq, hparent, hheight⟩
  · rw [hzero] at hpos
    exact absurd hpos (by decide)
  · refine ⟨q, parentNode, hq, hparent, ?_⟩
    rw [hheight] at hpos ⊢
    exact toInt_of_succ_nonneg hpos.le

/-- The path down to height zero. -/
theorem Linked.path {k : Nat} (hk : (k : Int) ≤ node.height.toInt) :
    ∃ q pathNode, up h.parent k p = some q ∧ h.nodes[q]? = some pathNode ∧
      pathNode.height.toInt = node.height.toInt - k := by
  induction k generalizing p node with
  | zero => exact ⟨p, node, rfl, hnode, by omega⟩
  | succ k ih =>
    obtain ⟨q, parentNode, hq, hparent, hheight⟩ := hl.exists_parent hnode (by omega)
    obtain ⟨r, pathNode, hup, hr, hr'⟩ := ih hparent (by omega)
    refine ⟨r, pathNode, ?_, hr, by omega⟩
    rw [Forest.up_succ, parent_eq hnode, hq, bind_some, hup]

/-- The loop of `Ancestor` takes the pointers that lead not too far, and ends on the path. -/
theorem Linked.ancestorLoop_eq (h0 : 0 ≤ height.toInt) {fuel : Nat} (hfuel : p < fuel)
    (hle : height.toInt ≤ node.height.toInt) : h.ancestorLoop height fuel (some p) =
      up h.parent (node.height.toInt - height.toInt).toNat p := by
  induction fuel generalizing p node with
  | zero => exact absurd hfuel (Nat.not_lt_zero p)
  | succ fuel ih =>
    rw [ancestorLoop, hnode]
    dsimp only
    by_cases heq : node.height = height
    · rw [if_pos heq, heq, Int.sub_self]
      rfl
    rw [if_neg heq]
    have hlt : height.toInt < node.height.toInt :=
      lt_of_le_of_ne hle fun he => heq (Int32.toInt_inj.1 he.symm)
    obtain ⟨q, parentNode, hq, hparent, hheight⟩ := hl.exists_parent hnode (by omega)
    have hqp := h.parent_lt p node hnode q hq
    -- over the parent
    have hstep : h.ancestorLoop height fuel node.parent =
        up h.parent (node.height.toInt - height.toInt).toNat p := by
      have hsplit : (node.height.toInt - height.toInt).toNat =
          (parentNode.height.toInt - height.toInt).toNat + 1 := by omega
      rw [hq, ih hparent (by omega) (by omega), hsplit, Forest.up_succ, parent_eq hnode, hq,
        bind_some]
    rw [back]
    cases ha : node.ancestor with
    | none => exact hstep
    | some a =>
      dsimp only
      by_cases hskip : getAncestorHeight node.height ≥ height
      · -- over the ancestor, whose height is the one that was computed
        have hskip' := Int32.le_iff_toInt_le.1 hskip
        have hap := h.ancestor_lt p node hnode a ha
        obtain ⟨-, hup⟩ := hl.ancestor p node hnode (by omega) a ha
        obtain ⟨hlo, hhi⟩ := toInt_getAncestorHeight (n := node.height) (by omega)
        obtain ⟨a', ancestorNode, hup', ha', hheight'⟩ :=
          hl.path hnode (k := (node.height.toInt - (getAncestorHeight node.height).toInt).toNat)
            (by omega)
        cases hup.symm.trans hup'
        have hsplit : (node.height.toInt - height.toInt).toNat =
            (node.height.toInt - (getAncestorHeight node.height).toInt).toNat +
              (ancestorNode.height.toInt - height.toInt).toNat := by omega
        rw [if_pos hskip, ih ha' (by omega) (by omega), hsplit, Forest.up_add_of_some hup]
      · rwa [if_neg hskip]

theorem Linked.ancestor_eq (h0 : 0 ≤ height.toInt) (hle : height.toInt ≤ node.height.toInt) :
    h.ancestor p height = up h.parent (node.height.toInt - height.toInt).toNat p := by
  have hrange : ¬ (height < 0 ∨ height > node.height) := by
    rw [gt_iff_lt, Int32.lt_iff_toInt_lt, Int32.lt_iff_toInt_lt]
    change ¬ (height.toInt < 0 ∨ _)
    omega
  rw [Heap.ancestor, hnode]
  dsimp only
  rw [if_neg hrange, hl.ancestorLoop_eq hnode h0 (Nat.lt_succ_self p) hle]

/-- `IsAncestor` compares with the node on the path at the other's height. -/
theorem Linked.isAncestor_iff {other : Nat} {otherNode : Node}
    (hother : h.nodes[other]? = some otherNode) : h.isAncestor p (some other) = true ↔
      ∃ k q pathNode, 0 < k ∧ ((k : Nat) : Int) ≤ node.height.toInt ∧ up h.parent k p = some q ∧
        h.nodes[q]? = some pathNode ∧ pathNode.equals otherNode = true := by
  rw [isAncestor, hnode, bind_some, hother]
  dsimp only
  constructor
  · intro htrue
    by_cases hrange : 0 ≤ otherNode.height.toInt ∧ otherNode.height.toInt ≤ node.height.toInt
    · obtain ⟨q, pathNode, hup, hq, hheight⟩ :=
        hl.path hnode (k := (node.height.toInt - otherNode.height.toInt).toNat) (by omega)
      rw [hl.ancestor_eq hnode hrange.1 hrange.2, hup, bind_some, hq] at htrue
      dsimp only at htrue
      split at htrue
      · cases htrue
      · rename_i hne
        refine ⟨_, q, pathNode, ?_, by omega, hup, hq, htrue⟩
        have hne' : node.height.toInt ≠ pathNode.height.toInt :=
          fun he => hne (Int32.toInt_inj.1 he)
        omega
    · rw [ancestor_eq_none hnode (by omega), bind_none] at htrue
      cases htrue
  · rintro ⟨k, q, pathNode, hpos, hle, hup, hq, hequals⟩
    obtain ⟨q', pathNode', hup', hq', hheight⟩ := hl.path hnode hle
    cases hup'.symm.trans hup
    obtain rfl := Option.some.inj (hq'.symm.trans hq)
    have hother_height := Node.height_of_equals hequals
    have hk : (node.height.toInt - otherNode.height.toInt).toNat = k := by
      rw [← hother_height]
      omega
    have hne : node.height ≠ pathNode'.height := by
      intro he
      rw [he] at hheight
      omega
    rw [hl.ancestor_eq hnode (by rw [← hother_height]; omega) (by rw [← hother_height]; omega), hk,
      hup, bind_some, hq]
    dsimp only
    rw [if_neg hne, hequals]

/-! ### Heights that have not overflowed -/

/-- Among the first `2 ^ 31` nodes no height has overflowed. -/
theorem Linked.height_range (hp : p < 2 ^ 31) :
    0 ≤ node.height.toInt ∧ node.height.toInt ≤ p ∧ ∀ q, node.parent = some q →
      ∃ parentNode, h.nodes[q]? = some parentNode ∧
        node.height.toInt = parentNode.height.toInt + 1 := by
  induction p using Nat.strong_induction_on generalizing node with
  | _ p ih =>
    rcases hl.parent p node hnode with ⟨hnone, hzero⟩ | ⟨q, parentNode, hq, hparent, hheight⟩
    · rw [hzero, hnone]
      exact ⟨le_refl _, Int.natCast_nonneg p, fun _ hq => (nomatch hq)⟩
    · have hlt := h.parent_lt p node hnode q hq
      obtain ⟨hlo, hhi, -⟩ := ih q hlt hparent (by omega)
      have h1 : (1 : Int32).toInt = 1 := rfl
      have hsucc : node.height.toInt = parentNode.height.toInt + 1 := by
        rw [hheight, Int32.toInt_add, h1]
        exact Int.bmod_eq_of_le (by omega) (by omega)
      refine ⟨by omega, by omega, fun q' hq' => ?_⟩
      cases hq.symm.trans hq'
      exact ⟨parentNode, hparent, hsucc⟩

/-- As long as no height has overflowed, a path ends at height zero. -/
theorem Linked.le_height (hlen : h.nodes.length ≤ 2 ^ 31) {k q : Nat}
    (hup : up h.parent k p = some q) : (k : Int) ≤ node.height.toInt := by
  have hp := (List.getElem?_eq_some_iff.1 hnode).1
  induction k generalizing p node with
  | zero => exact (hl.height_range hnode (by omega)).1
  | succ k ih =>
    rw [Forest.up_succ, parent_eq hnode, bind_eq_some_iff] at hup
    obtain ⟨r, hr, hup'⟩ := hup
    obtain ⟨parentNode, hparent, hheight⟩ := (hl.height_range hnode (by omega)).2.2 r hr
    have := ih hparent hup' (List.getElem?_eq_some_iff.1 hparent).1
    omega

end Path

/-! ### A new node -/

theorem getElem?_newBlockNode (hp : p < h.nodes.length) :
    (h.newBlockNode blockHeader parent).nodes[p]? = h.nodes[p]? :=
  List.getElem?_append_left hp

theorem getElem?_newBlockNode_self (blockHeader : Header) (parent : Option Nat) :
    (h.newBlockNode blockHeader parent).nodes[h.nodes.length]? =
      some (h.initBlockNode blockHeader parent) := by
  rw [newBlockNode, List.getElem?_concat_length]

theorem up_newBlockNode (hp : p < h.nodes.length) (k : Nat) :
    up (h.newBlockNode blockHeader parent).parent k p = up h.parent k p := by
  refine Forest.up_congr (S := fun q => q < h.nodes.length) (fun q hq => ⟨?_, fun r hr => ?_⟩) k hp
  · rw [Heap.parent, Heap.parent, getElem?_newBlockNode hq]
  · obtain ⟨node, hnode⟩ : ∃ node, h.nodes[q]? = some node := ⟨_, List.getElem?_eq_getElem hq⟩
    rw [parent_eq hnode] at hr
    exact (h.parent_lt q node hnode r hr).trans hq

theorem Linked.newBlockNode (hl : h.Linked) (blockHeader : Header) (parent : Option Nat) :
    (h.newBlockNode blockHeader parent).Linked := by
  have hnew := h.initBlockNode_cases blockHeader parent
  refine ⟨fun p node hnode => ?_, fun p node hnode hpos a ha => ?_⟩
  · rcases getElem?_snoc hnode with hold | ⟨rfl, rfl⟩
    · rcases hl.parent p node hold with hroot | ⟨q, parentNode, hq, hparent, hheight⟩
      · exact Or.inl hroot
      · have hlt := (List.getElem?_eq_some_iff.1 hparent).1
        exact Or.inr ⟨q, parentNode, hq, (getElem?_newBlockNode hlt).trans hparent, hheight⟩
    · rcases hnew with ⟨hnone, -, hzero⟩ | ⟨q, parentNode, -, hq, hparent, hheight, -⟩
      · exact Or.inl ⟨hnone, hzero⟩
      · have hlt := (List.getElem?_eq_some_iff.1 hq).1
        exact Or.inr ⟨q, parentNode, hparent, (getElem?_newBlockNode hlt).trans hq, hheight⟩
  · rcases getElem?_snoc hnode with hold | ⟨rfl, rfl⟩
    · obtain ⟨hpos', hup⟩ := hl.ancestor p node hold hpos a ha
      have hlt := (List.getElem?_eq_some_iff.1 hold).1
      exact ⟨hpos', (up_newBlockNode hlt _).trans hup⟩
    · rcases hnew with ⟨-, hnone, -⟩ | ⟨q, parentNode, -, hq, hparent, hheight, hancestor⟩
      · rw [hnone] at ha
        cases ha
      · have hlt := (List.getElem?_eq_some_iff.1 hq).1
        rw [hheight] at hpos ⊢
        rw [hancestor] at ha
        have hparentHeight := toInt_of_succ_nonneg hpos
        rcases Int.lt_or_eq_of_le hpos with hpos' | hzero
        · obtain ⟨hlo, hhi⟩ := toInt_getAncestorHeight hpos'
          rw [hl.ancestor_eq hq hlo (by omega)] at ha
          have hsplit : ((parentNode.height + 1).toInt -
              (getAncestorHeight (parentNode.height + 1)).toInt).toNat =
                (parentNode.height.toInt -
                  (getAncestorHeight (parentNode.height + 1)).toInt).toNat + 1 := by omega
          refine ⟨hpos', ?_⟩
          rw [hsplit, Forest.up_succ, parent_eq (getElem?_newBlockNode_self _ _), hparent,
            bind_some, up_newBlockNode hlt, ha]
        · -- a height that came back to zero: the parent is below it
          have hheight0 : parentNode.height + 1 = 0 := Int32.toInt_inj.1 hzero.symm
          have hbelow : parentNode.height.toInt < (getAncestorHeight 0).toInt := by
            change _ < 0
            omega
          rw [hheight0, ancestor_eq_none hq (Or.inr hbelow)] at ha
          cases ha

theorem Built.linked (hb : h.Built) : h.Linked := by
  induction hb with
  | empty => exact ⟨fun p node hnode => (nomatch hnode), fun p node hnode => (nomatch hnode)⟩
  | newBlockNode blockHeader parent _ ih => exact ih.newBlockNode blockHeader parent

/-! ### The skip list -/

/-- There is one node for a block: it is up to the callers of `AddNode` not to add another. -/
def Distinct (h : Heap) : Prop :=
  ∀ (p q : Nat) (node node' : Node), h.nodes[p]? = some node → h.nodes[q]? = some node' →
    node.hash = node'.hash → p = q

/-- **`Ancestor` follows the parents, and `IsAncestor` holds of the nodes on that path.**  The path
from a node of height `n` has `n` more nodes; that these are all the nodes below it needs that no
height has overflowed. -/
theorem skip_list (hb : h.Built) {p : Nat} {node : Node} (hnode : h.nodes[p]? = some node) :
    (∀ height : Int32, 0 ≤ height.toInt → height.toInt ≤ node.height.toInt →
      ∃ q pathNode, h.ancestor p height = some q ∧ h.nodes[q]? = some pathNode ∧
        pathNode.height = height ∧
        up h.parent (node.height.toInt - height.toInt).toNat p = some q) ∧
    (∀ other otherNode, h.nodes[other]? = some otherNode →
      (h.isAncestor p (some other) = true ↔
        ∃ k q pathNode, 0 < k ∧ ((k : Nat) : Int) ≤ node.height.toInt ∧
          up h.parent k p = some q ∧ h.nodes[q]? = some pathNode ∧
          pathNode.equals otherNode = true)) ∧
    (h.Distinct → ∀ other, (h.isAncestor p (some other) = true ↔
      ∃ k, 0 < k ∧ ((k : Nat) : Int) ≤ node.height.toInt ∧ up h.parent k p = some other)) ∧
    (h.nodes.length ≤ 2 ^ 31 → ∀ k q, up h.parent k p = some q → (k : Int) ≤ node.height.toInt) := by
  have hl := hb.linked
  refine ⟨fun height h0 hle => ?_, fun other otherNode hother => hl.isAncestor_iff hnode hother,
    fun hdistinct other => ?_, fun hlen k q hup => hl.le_height hnode hlen hup⟩
  · obtain ⟨q, pathNode, hup, hq, hheight⟩ :=
      hl.path hnode (k := (node.height.toInt - height.toInt).toNat) (by omega)
    refine ⟨q, pathNode, (hl.ancestor_eq hnode h0 hle).trans hup, hq, ?_, hup⟩
    exact Int32.toInt_inj.1 (by omega)
  · cases hother : h.nodes[other]? with
    | none =>
      -- a pointer to nowhere is on no path
      refine iff_of_false ?_ ?_
      · rw [isAncestor, hnode, bind_some, hother]
        exact Bool.false_ne_true
      · rintro ⟨k, -, hle, hup⟩
        obtain ⟨q, pathNode, hup', hq, -⟩ := hl.path hnode hle
        rw [hup, Option.some.injEq] at hup'
        rw [hup', hq] at hother
        cases hother
    | some otherNode =>
      rw [hl.isAncestor_iff hnode hother]
      refine ⟨?_, ?_⟩
      · rintro ⟨k, q, pathNode, hpos, hle, hup, hq, hequals⟩
        obtain rfl := hdistinct q other pathNode otherNode hq hother (Node.hash_of_equals hequals)
        exact ⟨k, hpos, hle, hup⟩
      · rintro ⟨k, hpos, hle, hup⟩
        exact ⟨k, other, otherNode, hpos, hle, hup, hother, otherNode.equals_self⟩

/-- Three blocks in a row. -/
def Sample.header (nonce : UInt32) : Header := ⟨1, Hash.zero, Hash.zero, 0, 0x1d00ffff, nonce⟩

def Sample.chain : Heap :=
  ((empty.newBlockNode (header 0) none).newBlockNode (header 1) (some 0)).newBlockNode (header 2)
    (some 1)

theorem Sample.built_chain : Sample.chain.Built := .newBlockNode _ _ (.newBlockNode _ _
  (.newBlockNode _ _ .empty))

theorem skip_list_chain :
    ∃ q pathNode, Sample.chain.ancestor 2 0 = some q ∧ Sample.chain.nodes[q]? = some pathNode ∧
      pathNode.height = 0 ∧ up Sample.chain.parent 2 2 = some q :=
  (skip_list Sample.built_chain (getElem?_newBlockNode_self _ _)).1 0 (by decide) (by decide)

end Heap

end Obtcd.BlockIndex
