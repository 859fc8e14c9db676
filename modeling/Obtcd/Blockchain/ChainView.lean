import Obtcd.Blockchain.BlockNode

/-!
# The chain view

`chainview.go` keeps the path of a tip as a slice of nodes, by height.  `setTip` reuses the array of
the slice and rewrites it from the top down, only as far as the first node that is there already.
Whether the nodes below that one are the right ones, and whether what an earlier and longer branch
left behind the slice can show again, is what `Sound` answers: whatever node stands in the slice,
below it stands its own path (`Filled`).  The slots that the slice grows by are cleared first, so a
node that is found was put there by a walk that went on to the root.

`setLoop_spec` follows the walk, by induction on its fuel.  It needs the slots to be sound only up
to the height it starts from, and a write leaves those below it as they are.  It stops at a node
that is there, which `Sound` says is enough, or at the root.  `Shows` is what `setTip` then leaves,
and a node that is added to the tree changes none that is shown (`Filled.newBlockNode`).

`Run.represents_tip` is the result for every sequence of calls, on a tree that may grow between them.
From it follow what `contains` and `next` say, and that `findFork` is the last common node.

Heights are 32-bit words, and an array of more than `2 ^ 31` slots cannot be made: a call on such a
node panics.  `setTip_returns` says that nothing else does.
-/

namespace Obtcd.BlockIndex

open List Option
open Forest (up Above climb)

def approxNodesPerWeek : Int32 := 6 * 24 * 7

/-- A slice of nodes, with the array behind it. -/
structure ChainView where
  array : List (Option Nat)
  len : Nat
  len_le : len ≤ array.length

/-- The panic of a nil pointer that is followed. -/
def nilDereference : GoError :=
  .panic "runtime error: invalid memory address or nil pointer dereference"

namespace ChainView

/-- `var c chainView`. -/
def zero : ChainView := ⟨[], 0, Nat.le_refl 0⟩

/-- The nodes that the slice shows. -/
def nodes (c : ChainView) : List (Option Nat) := c.array.take c.len

/-- What stands in a slot of the array. -/
def slot (c : ChainView) (i : Nat) : Option Nat := (c.array[i]?).join

/-- Write a slot. -/
def write (c : ChainView) (i p : Nat) : ChainView :=
  ⟨c.array.set i (some p), c.len, by rw [length_set]; exact c.len_le⟩

/-- The slice gets the length `needed`: in a new array, to which the nodes are copied, if the old one
is too short, and otherwise in the old one, where the slots it grows by are cleared. -/
def resize (c : ChainView) (needed : Int32) : Except GoError ChainView :=
  let n := needed.toInt.toNat
  if Int32.ofNat c.array.length < needed then
    if needed < 0 then .error (.panic "runtime error: makeslice: len out of range")
    else if hcap : needed + approxNodesPerWeek < needed then
      .error (.panic "runtime error: makeslice: cap out of range")
    else
      .ok ⟨(range (needed + approxNodesPerWeek).toInt.toNat).map fun i =>
          if i < n ∧ i < c.len then c.slot i else none,
        n, by
          rw [Int32.lt_iff_toInt_lt] at hcap
          rw [length_map, length_range]
          omega⟩
  else if needed < 0 then
    .error (.panic ("runtime error: slice bounds out of range [:" ++ toString needed ++ "]"))
  else if hlen : n ≤ c.array.length then
    .ok ⟨c.array.mapIdx fun i x => if c.len ≤ i ∧ i < n then none else x, n, by
      rwa [length_mapIdx]⟩
  else .error (.panic ("runtime error: slice bounds out of range [:" ++ toString needed ++
    "] with capacity " ++ toString c.array.length))

/-- The loop of `setTip`. -/
def setLoop (h : Heap) : ChainView → Nat → Option Nat → Except GoError ChainView
  | c, _, none => .ok c
  | c, 0, some _ => .ok c
  | c, fuel + 1, some p =>
    match h.nodes[p]? with
    | none => .error nilDereference
    | some node =>
      if node.height < 0 then
        .error (.panic ("runtime error: index out of range [" ++ toString node.height ++ "]"))
      else if node.height.toInt ≥ c.len then
        .error (.panic ("runtime error: index out of range [" ++ toString node.height ++
          "] with length " ++ toString c.len))
      else if c.slot node.height.toInt.toNat = some p then .ok c
      else setLoop h (c.write node.height.toInt.toNat p) fuel node.parent

def setTip (h : Heap) (c : ChainView) : Option Nat → Except GoError ChainView
  | none => .ok ⟨c.array, 0, Nat.zero_le _⟩
  | some p =>
    match h.nodes[p]? with
    | none => .error nilDereference
    | some node => do setLoop h (← c.resize (node.height + 1)) (p + 1) (some p)

def height (c : ChainView) : Int32 := Int32.ofInt (c.len - 1)

def nodeByHeight (c : ChainView) (height : Int32) : Option Nat :=
  if height < 0 ∨ height ≥ Int32.ofNat c.len then none else c.slot height.toInt.toNat

def contains (h : Heap) (c : ChainView) (p : Nat) : Bool :=
  match h.nodes[p]? with
  | none => false
  | some node => c.nodeByHeight node.height == some p

def next (h : Heap) (c : ChainView) : Option Nat → Option Nat
  | none => none
  | some p =>
    match h.nodes[p]? with
    | none => none
    | some node => if c.contains h p then c.nodeByHeight (node.height + 1) else none

def findFork (h : Heap) (c : ChainView) : Option Nat → Option Nat
  | none => none
  | some p =>
    match h.nodes[p]? with
    | none => none
    | some node =>
      climb h.parent (c.contains h) (p + 1)
        (if node.height > c.height then h.ancestor p c.height else some p)

/-! ## What the slots show -/

/-- The slots up to `i` show the path of the node `p`, which ends there. -/
structure Filled (h : Heap) (c : ChainView) (i p : Nat) : Prop where
  slots : ∀ j, j ≤ i → ∃ q node, c.slot j = some q ∧ up h.parent (i - j) p = some q ∧
    h.nodes[q]? = some node ∧ node.height.toInt = j
  root : up h.parent (i + 1) p = none

/-- Whatever stands in the slice, its path stands below it. -/
def Sound (h : Heap) (c : ChainView) (n : Nat) : Prop :=
  ∀ i p, i < n → c.slot i = some p → c.Filled h i p

variable {c' c : ChainView} {p i : Nat} {h : Heap}

theorem Filled.congr (hf : c.Filled h i p) (hslot : ∀ j, j ≤ i → c'.slot j = c.slot j) :
    c'.Filled h i p :=
  ⟨fun j hj => by rw [hslot j hj]; exact hf.slots j hj, hf.root⟩

theorem Filled.sound (hf : c.Filled h i p) : c.Sound h (i + 1) := by
  intro j q hj hq
  obtain ⟨q', node, hslot, hup, hnode, hheight⟩ := hf.slots j (by omega)
  cases hslot.symm.trans hq
  refine ⟨fun k hk => ?_, ?_⟩
  · obtain ⟨r, rnode, hslot', hup', hr, hr'⟩ := hf.slots k (by omega)
    refine ⟨r, rnode, hslot', ?_, hr, hr'⟩
    rw [← Forest.up_add_of_some hup, show i - j + (j - k) = i - k by omega, hup']
  · rw [← Forest.up_add_of_some hup, show i - j + (j + 1) = i + 1 by omega, hf.root]

variable {node : Node}

/-- The root alone. -/
theorem Filled.root_self (hnode : h.nodes[p]? = some node) (hslot : c.slot i = some p)
    (hnone : node.parent = none) (hi : i = 0) (hheight : node.height.toInt = 0) :
    c.Filled h i p := by
  subst hi
  refine ⟨fun j hj => ?_, ?_⟩
  · obtain rfl := Nat.le_zero.1 hj
    exact ⟨p, node, hslot, rfl, hnode, hheight⟩
  · rw [Forest.up_succ, Heap.parent_eq hnode, hnone, bind_none]

/-- One more node on top of a path. -/
theorem Filled.step {q : Nat} (hf : c.Filled h i q) (hnode : h.nodes[p]? = some node)
    (hslot : c.slot (i + 1) = some p) (hq : node.parent = some q)
    (hheight : node.height.toInt = (i + 1 : Nat)) : c.Filled h (i + 1) p := by
  have hup (k : Nat) : up h.parent (k + 1) p = up h.parent k q := by
    rw [Forest.up_succ, Heap.parent_eq hnode, hq, bind_some]
  refine ⟨fun j hj => ?_, ?_⟩
  · rcases Nat.lt_or_eq_of_le hj with hlt | rfl
    · obtain ⟨r, rnode, hr, hupr, hrnode, hrheight⟩ := hf.slots j (by omega)
      refine ⟨r, rnode, hr, ?_, hrnode, hrheight⟩
      rw [show i + 1 - j = (i - j) + 1 by omega, hup, hupr]
    · exact ⟨p, node, hslot, by rw [Nat.sub_self, Forest.up_zero], hnode, hheight⟩
  · rw [hup, hf.root]

theorem slot_write {j : Nat} (hi : i < c.len) :
    (c.write i p).slot j = if j = i then some p else c.slot j := by
  have hlt := Nat.lt_of_lt_of_le hi c.len_le
  rw [slot, slot, write]
  by_cases hj : j = i
  · rw [hj, if_pos rfl, getElem?_set_self hlt, join_some]
  · rw [if_neg hj, getElem?_set_ne (Ne.symm hj)]

/-- Resizing keeps what the slice showed and shows nothing new. -/
theorem resize_spec {needed : Int32} (hr : c.resize needed = .ok c') :
    (c'.len : Int) = needed.toInt ∧
      ∀ i, i < c'.len → c'.slot i = if i < c.len then c.slot i else none := by
  by_cases hneg : needed < 0
  · rw [resize, if_pos hneg, if_pos hneg] at hr
    split at hr <;> cases hr
  have hlen : (needed.toInt.toNat : Int) = needed.toInt := by
    rw [Int32.lt_iff_toInt_lt] at hneg
    exact Int.toNat_of_nonneg (Int.not_lt.1 hneg)
  rw [resize, if_neg hneg, if_neg hneg] at hr
  split at hr
  · split at hr
    · cases hr
    · rename_i hcap
      obtain rfl := Except.ok.inj hr
      refine ⟨hlen, fun i (hi : i < needed.toInt.toNat) => ?_⟩
      have hlt : i < (needed + approxNodesPerWeek).toInt.toNat := by
        rw [Int32.lt_iff_toInt_lt] at hcap
        omega
      rw [slot, getElem?_map, getElem?_range hlt, map_some, join_some]
      simp only [hi, true_and]
  · split at hr
    · rename_i hle
      cases hr
      refine ⟨hlen, fun i (hi : i < needed.toInt.toNat) => ?_⟩
      have hget := getElem?_eq_getElem (Nat.lt_of_lt_of_le hi hle)
      rw [slot, getElem?_mapIdx, hget, map_some, join_some]
      by_cases hlt : i < c.len
      · rw [if_neg (fun h => absurd h.1 (Nat.not_le.2 hlt)), if_pos hlt, slot, hget, join_some]
      · rw [if_pos ⟨Nat.not_lt.1 hlt, hi⟩, if_neg hlt]
    · cases hr

theorem Sound.resize {needed : Int32} (hs : c.Sound h c.len) (hr : c.resize needed = .ok c') :
    c'.Sound h c'.len := by
  obtain ⟨-, hslot⟩ := resize_spec hr
  intro i p hi hp
  rw [hslot i hi] at hp
  split at hp
  · rename_i hlt
    refine (hs i p hlt hp).congr fun j hj => ?_
    rw [hslot j (by omega), if_pos (by omega)]
  · cases hp

/-- What the loop of `setTip` leaves: the path of the node it starts from, and above it what was
there. -/
theorem setLoop_spec (hl : h.Linked) {fuel : Nat} (hnode : h.nodes[p]? = some node)
    (hfuel : p < fuel) (hs : c.Sound h (node.height.toInt + 1).toNat)
    (hr : c.setLoop h fuel (some p) = .ok c') : 0 ≤ node.height.toInt ∧ c'.len = c.len ∧
      (∀ j : Nat, node.height.toInt < j → c'.slot j = c.slot j) ∧
      c'.Filled h node.height.toInt.toNat p := by
  induction fuel generalizing c p node with
  | zero => exact absurd hfuel (Nat.not_lt_zero p)
  | succ fuel ih =>
    rw [setLoop, hnode] at hr
    dsimp only at hr
    by_cases hneg : node.height < 0
    · rw [if_pos hneg] at hr
      cases hr
    by_cases hge : node.height.toInt ≥ c.len
    · rw [if_neg hneg, if_pos hge] at hr
      cases hr
    have h0 : 0 ≤ node.height.toInt := by
      rw [Int32.lt_iff_toInt_lt] at hneg
      exact Int.not_lt.1 hneg
    rw [if_neg hneg, if_neg hge] at hr
    by_cases hfound : c.slot node.height.toInt.toNat = some p
    · -- the node is there, and its path with it
      rw [if_pos hfound] at hr
      cases hr
      exact ⟨h0, rfl, fun _ _ => rfl, hs _ p (by omega) hfound⟩
    rw [if_neg hfound] at hr
    have hwrite {j : Nat} := slot_write (c := c) (i := node.height.toInt.toNat) (p := p) (j := j)
      (by omega)
    rcases hl.parent p node hnode with ⟨hnone, hzero⟩ | ⟨q, parentNode, hq, hparent, hheight⟩
    · -- the root
      have hH : node.height.toInt = 0 := by rw [hzero]; rfl
      rw [hnone] at hr
      have hc' : c' = c.write node.height.toInt.toNat p := by
        cases fuel <;> exact (Except.ok.inj hr).symm
      rw [hc']
      refine ⟨h0, rfl, fun j hj => ?_, ?_⟩
      · rw [hwrite, if_neg (by omega)]
      · refine .root_self hnode ?_ hnone (by omega) hH
        rw [hwrite, if_pos rfl]
    · rw [hq] at hr
      have hlt := h.parent_lt p node hnode q hq
      rcases Int.lt_or_eq_of_le h0 with hpos | hzero
      · have hheight' : parentNode.height.toInt = node.height.toInt - 1 := by
          rw [hheight] at h0 ⊢
          exact toInt_of_succ_nonneg h0
        have hs' : (c.write node.height.toInt.toNat p).Sound h
            (parentNode.height.toInt + 1).toNat := by
          intro j r hj hr'
          rw [hwrite, if_neg (by omega)] at hr'
          refine (hs j r (by omega) hr').congr fun k hk => ?_
          rw [hwrite, if_neg (by omega)]
        obtain ⟨-, hlen, habove, hfilled⟩ := ih hparent (by omega) hs' hr
        have htop : node.height.toInt.toNat = parentNode.height.toInt.toNat + 1 := by omega
        refine ⟨h0, hlen, fun j hj => ?_, ?_⟩
        · rw [habove j (by omega), hwrite, if_neg (by omega)]
        · rw [htop]
          refine hfilled.step hnode ?_ hq (by omega)
          rw [← htop, habove _ (by omega), hwrite, if_pos rfl]
      · -- the height had overflowed: the index of the parent is negative
        have hneg' : parentNode.height < 0 := by
          have := toInt_of_succ_nonneg (n := parentNode.height) (by rw [← hheight]; exact h0)
          rw [← hheight, ← hzero] at this
          rw [Int32.lt_iff_toInt_lt, this]
          decide
        cases fuel with
        | zero => omega
        | succ fuel =>
          rw [setLoop, hparent] at hr
          dsimp only at hr
          rw [if_pos hneg'] at hr
          cases hr

/-! ## Runs -/

/-- The view shows the path of the tip, and nothing if there is none. -/
def Shows (h : Heap) (c : ChainView) : Option Nat → Prop
  | none => c.len = 0
  | some tip => ∃ node, h.nodes[tip]? = some node ∧ 0 ≤ node.height.toInt ∧
      (c.len : Int) = node.height.toInt + 1 ∧ c.len < 2 ^ 31 ∧
      c.Filled h node.height.toInt.toNat tip

variable {tip : Option Nat}

theorem Shows.sound (hs : c.Shows h tip) : c.Sound h c.len := by
  cases tip with
  | none =>
    intro i p hi
    rw [Shows] at hs
    omega
  | some tip =>
    obtain ⟨node, -, h0, hlen, -, hfilled⟩ := hs
    rw [show c.len = node.height.toInt.toNat + 1 by omega]
    exact hfilled.sound

/-- A call of `setTip` that returns leaves the path of the new tip. -/
theorem setTip_shows (hl : h.Linked) (hs : c.Sound h c.len) (hr : c.setTip h tip = .ok c') :
    c'.Shows h tip := by
  cases tip with
  | none =>
    cases hr
    rfl
  | some p =>
    rw [setTip] at hr
    cases hnode : h.nodes[p]? with
    | none =>
      rw [hnode] at hr
      cases hr
    | some node =>
      rw [hnode] at hr
      obtain ⟨c₁, hresize, hloop⟩ := bind_eq_ok.1 hr
      obtain ⟨hlen, -⟩ := resize_spec hresize
      have hheight := toInt_of_succ_nonneg (n := node.height) (by omega)
      have hlt : (node.height + 1).toInt < 2 ^ 31 := Int32.toInt_lt _
      have hsound : c₁.Sound h (node.height.toInt + 1).toNat := fun i q hi =>
        hs.resize hresize i q (by omega)
      obtain ⟨h0, hlen', -, hfilled⟩ := setLoop_spec hl hnode (Nat.lt_succ_self p) hsound hloop
      exact ⟨node, hnode, h0, by omega, by omega, hfilled⟩

/-- A block tree that grows, and calls of `setTip` on its nodes. -/
inductive Run : Heap → ChainView → Option Nat → Prop where
  | zero : Run .empty zero none
  | newBlockNode {h : Heap} {c : ChainView} {tip : Option Nat} (blockHeader : Blockchain.Header)
      (parent : Option Nat) (hrun : Run h c tip) : Run (h.newBlockNode blockHeader parent) c tip
  | setTip {h : Heap} {c c' : ChainView} {tip tip' : Option Nat} (hrun : Run h c tip)
      (hr : c.setTip h tip' = .ok c') : Run h c' tip'

theorem Run.built (hrun : Run h c tip) : h.Built := by
  induction hrun with
  | zero => exact .empty
  | newBlockNode blockHeader parent _ ih => exact .newBlockNode blockHeader parent ih
  | setTip _ _ ih => exact ih

theorem Filled.newBlockNode (hf : c.Filled h i p) (hp : p < h.nodes.length)
    (blockHeader : Blockchain.Header) (parent : Option Nat) :
    c.Filled (h.newBlockNode blockHeader parent) i p := by
  refine ⟨fun j hj => ?_, ?_⟩
  · obtain ⟨q, node, hslot, hup, hnode, hheight⟩ := hf.slots j hj
    have hq := (List.getElem?_eq_some_iff.1 hnode).1
    exact ⟨q, node, hslot, (Heap.up_newBlockNode hp _).trans hup,
      (Heap.getElem?_newBlockNode hq).trans hnode, hheight⟩
  · rw [Heap.up_newBlockNode hp, hf.root]

/-- After every run the view shows the path of the last tip. -/
theorem Run.shows (hrun : Run h c tip) : c.Shows h tip := by
  induction hrun with
  | zero => rfl
  | @newBlockNode h c tip blockHeader parent _ ih =>
    cases tip with
    | none => exact ih
    | some p =>
      obtain ⟨node, hnode, h0, hlen, hlt, hfilled⟩ := ih
      have hp := (List.getElem?_eq_some_iff.1 hnode).1
      exact ⟨node, (Heap.getElem?_newBlockNode hp).trans hnode, h0, hlen, hlt,
        hfilled.newBlockNode hp blockHeader parent⟩
  | setTip hrun hr ih => exact setTip_shows hrun.built.linked ih.sound hr

/-! ### Calls that return -/

theorem toInt_ofNat_le (n : Nat) : (Int32.ofNat n).toInt ≤ n := by
  have hsize : Int32.size = 2 ^ 32 := rfl
  rw [Int32.toInt_ofNat', hsize, Int.bmod_def]
  split_ifs <;> omega

theorem resize_returns (c : ChainView) (needed : Int32) (h0 : 0 ≤ needed.toInt)
    (hlt : needed.toInt + 1008 < 2 ^ 31) : ∃ c', c.resize needed = .ok c' := by
  have hneg : ¬ needed < 0 := by
    rw [Int32.lt_iff_toInt_lt]
    exact Int.not_lt.2 h0
  have hcap : ¬ needed + approxNodesPerWeek < needed := by
    have hweek : approxNodesPerWeek.toInt = 1008 := rfl
    rw [Int32.lt_iff_toInt_lt, Int32.toInt_add, hweek, Int.bmod_eq_of_le (by omega) (by omega)]
    omega
  rw [resize, if_neg hneg, if_neg hneg, dif_neg hcap]
  split
  · exact ⟨_, rfl⟩
  · rename_i hroom
    have hle := toInt_ofNat_le c.array.length
    rw [Int32.lt_iff_toInt_lt] at hroom
    rw [dif_pos (by omega)]
    exact ⟨_, rfl⟩

theorem setLoop_returns (hl : h.Linked) (hlen : h.nodes.length < 2 ^ 31) {fuel : Nat}
    (c : ChainView) (hnode : h.nodes[p]? = some node) (hfuel : p < fuel)
    (hlt : node.height.toInt < c.len) : ∃ c', c.setLoop h fuel (some p) = .ok c' := by
  induction fuel generalizing c p node with
  | zero => exact absurd hfuel (Nat.not_lt_zero p)
  | succ fuel ih =>
    have hp := (List.getElem?_eq_some_iff.1 hnode).1
    obtain ⟨h0, -, hparent⟩ := hl.height_range hnode (by omega)
    have hneg : ¬ node.height < 0 := by
      rw [Int32.lt_iff_toInt_lt]
      exact Int.not_lt.2 h0
    rw [setLoop, hnode]
    dsimp only
    rw [if_neg hneg, if_neg (by omega)]
    split
    · exact ⟨c, rfl⟩
    · cases hq : node.parent with
      | none => exact ⟨_, by cases fuel <;> rfl⟩
      | some q =>
        obtain ⟨parentNode, hparentNode, hheight⟩ := hparent q hq
        have hqp := h.parent_lt p node hnode q hq
        exact ih _ hparentNode (by omega) (show _ < ((c.len : Nat) : Int) by omega)

/-- A call of `setTip` returns, as long as the tree is far from `2 ^ 31` nodes. -/
theorem setTip_returns (hl : h.Linked) (hlen : h.nodes.length + 1008 < 2 ^ 31) (c : ChainView)
    (htip : ∀ p, tip = some p → p < h.nodes.length) : ∃ c', c.setTip h tip = .ok c' := by
  cases tip with
  | none => exact ⟨_, rfl⟩
  | some p =>
    have hp := htip p rfl
    obtain ⟨node, hnode⟩ : ∃ node, h.nodes[p]? = some node := ⟨_, getElem?_eq_getElem hp⟩
    obtain ⟨h0, hle, -⟩ := hl.height_range hnode (by omega)
    have h1 : (1 : Int32).toInt = 1 := rfl
    have hsucc : (node.height + 1).toInt = node.height.toInt + 1 := by
      rw [Int32.toInt_add, h1]
      exact Int.bmod_eq_of_le (by omega) (by omega)
    obtain ⟨c₁, hresize⟩ := c.resize_returns (node.height + 1) (by omega) (by omega)
    obtain ⟨hlen₁, -⟩ := resize_spec hresize
    obtain ⟨c₂, hloop⟩ := setLoop_returns hl (by omega) c₁ hnode (Nat.lt_succ_self p) (by omega)
    refine ⟨c₂, ?_⟩
    rw [setTip, hnode]
    exact bind_eq_ok.2 ⟨c₁, hresize, hloop⟩

/-! ## Lookups -/

section Lookups

theorem toInt_ofNat_len (hlt : c.len < 2 ^ 31) : (Int32.ofNat c.len).toInt = c.len := by
  have hsize : (Int32.size : Int) = 2 ^ 32 := rfl
  rw [Int32.toInt_ofNat']
  exact Int.bmod_eq_of_le (by omega) (by omega)

theorem Shows.len_lt (hs : c.Shows h tip) : c.len < 2 ^ 31 := by
  cases tip with
  | none =>
    rw [Shows] at hs
    omega
  | some tip =>
    obtain ⟨node, -, -, -, hlt, -⟩ := hs
    exact hlt

/-- `nodeByHeight` reads a slot of the slice. -/
theorem nodeByHeight_eq (hlt : c.len < 2 ^ 31) (height : Int32) :
    c.nodeByHeight height =
      if 0 ≤ height.toInt ∧ height.toInt < c.len then c.slot height.toInt.toNat else none := by
  have hrange : (height < 0 ∨ height ≥ Int32.ofNat c.len) ↔
      ¬ (0 ≤ height.toInt ∧ height.toInt < c.len) := by
    rw [ge_iff_le, Int32.lt_iff_toInt_lt, Int32.le_iff_toInt_le, toInt_ofNat_len hlt]
    change (height.toInt < 0 ∨ _) ↔ _
    omega
  rw [nodeByHeight]
  by_cases hin : 0 ≤ height.toInt ∧ height.toInt < c.len
  · rw [if_pos hin, if_neg (fun hout => hrange.1 hout hin)]
  · rw [if_neg hin, if_pos (hrange.2 hin)]

/-- The nodes on the path of the tip, with their heights. -/
theorem Shows.above_iff (hs : c.Shows h tip) :
    (∃ t, tip = some t ∧ Above h.parent t p) ↔
      ∃ node, h.nodes[p]? = some node ∧ 0 ≤ node.height.toInt ∧
        node.height.toInt < c.len ∧ c.slot node.height.toInt.toNat = some p := by
  cases tip with
  | none =>
    rw [Shows] at hs
    refine iff_of_false (fun ⟨t, ht, _⟩ => (nomatch ht)) ?_
    rintro ⟨node, -, h0, hlt, -⟩
    omega
  | some t =>
    obtain ⟨node, hnode, h0, hlen, -, hfilled⟩ := hs
    constructor
    · rintro ⟨t', ht', k, hk⟩
      cases ht'
      -- the path ends at height zero
      have hle : k ≤ node.height.toInt.toNat := by
        by_contra hgt
        obtain ⟨q, hq, -⟩ := Forest.exists_up_of_le hk (j := node.height.toInt.toNat + 1) (by omega)
        rw [hfilled.root] at hq
        cases hq
      obtain ⟨q, pathNode, hslot, hup, hq, hheight⟩ :=
        hfilled.slots (node.height.toInt.toNat - k) (by omega)
      rw [show node.height.toInt.toNat - (node.height.toInt.toNat - k) = k by omega, hk] at hup
      cases hup
      refine ⟨pathNode, hq, by omega, by omega, ?_⟩
      rw [hheight, Int.toNat_natCast, hslot]
    · rintro ⟨pathNode, hp, hp0, hplt, hslot⟩
      obtain ⟨q, -, hslot', hup, -, -⟩ := hfilled.slots pathNode.height.toInt.toNat (by omega)
      cases hslot.symm.trans hslot'
      exact ⟨t, rfl, _, hup⟩

theorem Shows.contains_iff (hs : c.Shows h tip) :
    c.contains h p = true ↔ ∃ t, tip = some t ∧ Above h.parent t p := by
  rw [hs.above_iff, contains]
  cases hnode : h.nodes[p]? with
  | none => simp
  | some node =>
    simp only [Option.some.injEq, exists_eq_left', beq_iff_eq]
    rw [nodeByHeight_eq hs.len_lt]
    split
    · rename_i hin
      simp only [hin.1, hin.2, true_and]
    · rename_i hout
      simp only [reduceCtorEq, false_iff]
      exact fun hin => hout ⟨hin.1, hin.2.1⟩

/-- What stands in a slot is on the path of the tip, at that height. -/
theorem Shows.of_slot (hs : c.Shows h tip) {i : Nat} (hi : i < c.len) (hslot : c.slot i = some p) :
    (∃ t, tip = some t ∧ Above h.parent t p) ∧
      ∃ node, h.nodes[p]? = some node ∧ node.height.toInt = i := by
  obtain ⟨q, node, hq, hup, hnode, hheight⟩ := (hs.sound i p hi hslot).slots i (Nat.le_refl i)
  cases hslot.symm.trans hq
  refine ⟨hs.above_iff.2 ⟨node, hnode, by omega, by omega, ?_⟩, node, hnode, hheight⟩
  rw [hheight, Int.toNat_natCast, hslot]

/-- `next` is the node after it on the path of the tip. -/
theorem Shows.next_iff (hs : c.Shows h tip) (hl : h.Linked) {q : Nat} :
    c.next h (some p) = some q ↔ h.parent q = some p ∧ ∃ t, tip = some t ∧ Above h.parent t q := by
  constructor
  · intro hnext
    rw [next] at hnext
    cases hnode : h.nodes[p]? with
    | none =>
      rw [hnode] at hnext
      cases hnext
    | some node =>
      rw [hnode] at hnext
      dsimp only at hnext
      by_cases hcontains : c.contains h p = true
      · rw [if_pos hcontains, nodeByHeight_eq hs.len_lt] at hnext
        obtain ⟨node', hnode', h0, -, hslot⟩ := hs.above_iff.1 (hs.contains_iff.1 hcontains)
        cases hnode.symm.trans hnode'
        split at hnext
        · rename_i hin
          have hsucc := toInt_of_succ_nonneg hin.1
          obtain ⟨habove, qnode, hq, hheight⟩ := hs.of_slot (by omega) hnext
          refine ⟨?_, habove⟩
          -- the parent of the next node stands in the slot of `p`
          obtain ⟨r, rnode, hr, hrnode, hrheight⟩ := hl.exists_parent hq (by omega)
          have hparent : h.parent q = some r := (Heap.parent_eq hq).trans hr
          obtain ⟨t, ht, htq⟩ := habove
          obtain ⟨rnode', hrnode', -, -, hrslot⟩ :=
            hs.above_iff.1 ⟨t, ht, htq.trans (Forest.above_of_parent hparent)⟩
          cases hrnode.symm.trans hrnode'
          rw [show rnode.height.toInt.toNat = node.height.toInt.toNat by omega, hslot] at hrslot
          rw [hparent, hrslot]
        · cases hnext
      · rw [if_neg hcontains] at hnext
        cases hnext
  · rintro ⟨hparent, t, ht, htq⟩
    obtain ⟨qnode, hq, h0, hlt, hslot⟩ := hs.above_iff.1 ⟨t, ht, htq⟩
    have hcontains : c.contains h p = true :=
      hs.contains_iff.2 ⟨t, ht, htq.trans (Forest.above_of_parent hparent)⟩
    rw [Heap.parent_eq hq] at hparent
    rcases hl.parent q qnode hq with ⟨hnone, -⟩ | ⟨p', node, hp', hnode, hheight⟩
    · rw [hnone] at hparent
      cases hparent
    · cases hp'.symm.trans hparent
      rw [next, hnode]
      dsimp only
      rw [if_pos hcontains, ← hheight, nodeByHeight_eq hs.len_lt, if_pos ⟨h0, hlt⟩, hslot]

/-- On the path of the tip heights fall. -/
theorem Shows.height_le (hs : c.Shows h tip) (hl : h.Linked) {f g : Nat} {fnode gnode : Node}
    (hf : ∃ t, tip = some t ∧ Above h.parent t f) (hfg : Above h.parent f g)
    (hfnode : h.nodes[f]? = some fnode) (hgnode : h.nodes[g]? = some gnode) :
    gnode.height ≤ fnode.height := by
  obtain ⟨fnode', hfnode', h0, hlt, hslot⟩ := hs.above_iff.1 hf
  cases hfnode.symm.trans hfnode'
  have hfilled := hs.sound _ f (by omega) hslot
  obtain ⟨k, hk⟩ := hfg
  have hle : k ≤ fnode.height.toInt.toNat := by
    by_contra hgt
    obtain ⟨q, hq, -⟩ := Forest.exists_up_of_le hk (j := fnode.height.toInt.toNat + 1) (by omega)
    rw [hfilled.root] at hq
    cases hq
  obtain ⟨q, qnode, hup, hq, hheight⟩ := hl.path hfnode (k := k) (by omega)
  cases hk.symm.trans hup
  cases hgnode.symm.trans hq
  rw [Int32.le_iff_toInt_le]
  omega

variable (h tip) in
/-- The node is on the path of `p` and on that of the tip. -/
def Common (p f : Nat) : Prop := Above h.parent p f ∧ ∃ t, tip = some t ∧ Above h.parent t f

theorem toInt_height (hlt : c.len < 2 ^ 31) : c.height.toInt = c.len - 1 := by
  have hsize : (Int32.size : Int) = 2 ^ 32 := rfl
  rw [height, Int32.toInt_ofInt]
  exact Int.bmod_eq_of_le (by omega) (by omega)

/-- The walk of `findFork` starts below no common node. -/
theorem Shows.common_start (hs : c.Shows h tip) (hl : h.Linked) {f : Nat} {node : Node}
    (hnode : h.nodes[p]? = some node) (hgt : node.height > c.height) (hf : Common h tip p f) :
    ∃ a, h.ancestor p c.height = some a ∧ Above h.parent a f := by
  rw [gt_iff_lt, Int32.lt_iff_toInt_lt, toInt_height hs.len_lt] at hgt
  obtain ⟨⟨k, hk⟩, htip⟩ := hf
  obtain ⟨fnode, hfnode, h0, hlt, -⟩ := hs.above_iff.1 htip
  have hle : (node.height.toInt - c.height.toInt).toNat ≤ k := by
    rw [toInt_height hs.len_lt]
    by_contra hshort
    obtain ⟨q, pathNode, hup, hq, hheight⟩ := hl.path hnode (k := k) (by omega)
    cases hk.symm.trans hup
    cases hfnode.symm.trans hq
    omega
  obtain ⟨a, ha, haf⟩ := Forest.exists_up_of_le hk hle
  refine ⟨a, (hl.ancestor_eq hnode ?_ ?_).trans ha, _, haf⟩
  · rw [toInt_height hs.len_lt]
    omega
  · rw [toInt_height hs.len_lt]
    omega

/-- `findFork` is the last node that both paths have. -/
theorem Shows.findFork_spec (hs : c.Shows h tip) (hl : h.Linked) (hp : p < h.nodes.length) :
    match c.findFork h (some p) with
    | some f => Common h tip p f ∧ ∀ g, Common h tip p g → Above h.parent f g
    | none => ∀ g, ¬ Common h tip p g := by
  obtain ⟨node, hnode⟩ : ∃ node, h.nodes[p]? = some node := ⟨_, getElem?_eq_getElem hp⟩
  have hrank (a b : Nat) (hab : h.parent a = some b) : b < a := by
    rw [Heap.parent, bind_eq_some_iff] at hab
    obtain ⟨anode, ha, hb⟩ := hab
    exact h.parent_lt a anode ha b hb
  -- the walk from a node on the path of `p` that is below no common node
  have hwalk {s : Nat} (hps : Above h.parent p s) (hle : s ≤ p)
      (hstart : ∀ g, Common h tip p g → Above h.parent s g) :
      match climb h.parent (c.contains h) (p + 1) (some s) with
      | some f => Common h tip p f ∧ ∀ g, Common h tip p g → Above h.parent f g
      | none => ∀ g, ¬ Common h tip p g := by
    have hspec := Forest.climb_spec (c.contains h) id hrank (Nat.lt_succ_of_le hle)
    revert hspec
    cases climb h.parent (c.contains h) (p + 1) (some s) with
    | some f =>
      rintro ⟨hsf, hfound, hfirst⟩
      exact ⟨⟨hps.trans hsf, hs.contains_iff.1 hfound⟩,
        fun g hg => hfirst g (hstart g hg) (hs.contains_iff.2 hg.2)⟩
    | none =>
      intro hnone g hg
      have hfalse := hnone g (hstart g hg)
      rw [hs.contains_iff.2 hg.2] at hfalse
      cases hfalse
  rw [findFork, hnode]
  dsimp only
  by_cases hgt : node.height > c.height
  · rw [if_pos hgt]
    cases ha : h.ancestor p c.height with
    | none =>
      intro g hg
      obtain ⟨a, ha', -⟩ := hs.common_start hl hnode hgt hg
      rw [ha] at ha'
      cases ha'
    | some a =>
      have h0 : 0 ≤ c.height.toInt := by
        by_contra hneg
        rw [Heap.ancestor_eq_none hnode (Or.inl (by omega))] at ha
        cases ha
      have hup := (hl.ancestor_eq hnode h0 (Int32.lt_iff_toInt_lt.1 hgt).le).symm.trans ha
      refine hwalk ⟨_, hup⟩ (Heap.ancestor_le ha).1 fun g hg => ?_
      obtain ⟨a', ha', hg'⟩ := hs.common_start hl hnode hgt hg
      cases ha.symm.trans ha'
      exact hg'
  · rw [if_neg hgt]
    exact hwalk (.refl p) (Nat.le_refl p) fun g hg => hg.1

/-- **The chain view represents the path of its tip.**  After every sequence of calls, on a tree that
may grow in between, the slice holds the ancestors of the tip by height and nothing else; `contains`
and `next` speak of that path, and `findFork` is the highest node it has in common with another. -/
theorem Run.represents_tip (hrun : Run h c tip) :
    (∀ t, tip = some t → ∃ node, h.nodes[t]? = some node ∧
      (c.nodes.length : Int) = node.height.toInt + 1 ∧
      ∀ height : Int32, 0 ≤ height.toInt → height.toInt ≤ node.height.toInt →
        ∃ q, c.nodes[height.toInt.toNat]? = some (some q) ∧ h.ancestor t height = some q) ∧
    (tip = none → c.nodes = []) ∧
    (∀ p, p < h.nodes.length →
      (c.contains h p = true ↔ ∃ t, tip = some t ∧ Above h.parent t p) ∧
      (∀ q, c.next h (some p) = some q ↔
        h.parent q = some p ∧ ∃ t, tip = some t ∧ Above h.parent t q) ∧
      match c.findFork h (some p) with
      | some f => Common h tip p f ∧ ∀ g, Common h tip p g → Above h.parent f g ∧
          ∀ fnode gnode, h.nodes[f]? = some fnode → h.nodes[g]? = some gnode →
            gnode.height ≤ fnode.height
      | none => ∀ g, ¬ Common h tip p g) ∧
    (h.nodes.length + 1008 < 2 ^ 31 → ∀ tip' : Option Nat,
      (∀ p, tip' = some p → p < h.nodes.length) → ∃ c', c.setTip h tip' = .ok c') := by
  have hs := hrun.shows
  have hl := hrun.built.linked
  refine ⟨?_, ?_, fun p hp => ⟨hs.contains_iff, fun q => hs.next_iff hl, ?_⟩,
    fun hlen tip' htip' => setTip_returns hl hlen c htip'⟩
  · rintro t rfl
    obtain ⟨node, hnode, h0, hlen, -, hfilled⟩ := hs
    have hnodes : c.nodes.length = c.len := by
      rw [nodes, length_take, Nat.min_eq_left c.len_le]
    refine ⟨node, hnode, by omega, fun height hh0 hle => ?_⟩
    obtain ⟨q, -, hslot, hup, -, -⟩ := hfilled.slots height.toInt.toNat (by omega)
    refine ⟨q, ?_, ?_⟩
    · rw [nodes, getElem?_take_of_lt (by omega)]
      rw [slot] at hslot
      exact join_eq_some_iff.1 hslot
    · rw [hl.ancestor_eq hnode hh0 hle, ← hup]
      congr 1
      omega
  · rintro rfl
    rw [nodes, show c.len = 0 from hs, take_zero]
  · have hfork := hs.findFork_spec hl hp
    revert hfork
    cases c.findFork h (some p) with
    | none => exact id
    | some f =>
      rintro ⟨hcommon, hlast⟩
      refine ⟨hcommon, fun g hg => ⟨hlast g hg, fun fnode gnode hf hgnode => ?_⟩⟩
      exact hs.height_le hl hcommon.2 (hlast g hg) hf hgnode

end Lookups

/-- A view of three blocks in a row whose tip goes back to the second one. -/
theorem represents_chain :
    ∃ c₁ c₂, setTip Heap.Sample.chain zero (some 2) = .ok c₁ ∧
      setTip Heap.Sample.chain c₁ (some 1) = .ok c₂ ∧
      (contains Heap.Sample.chain c₂ 0 = true ↔
        ∃ t, some 1 = some t ∧ Above Heap.Sample.chain.parent t 0) := by
  have hl := Heap.Sample.built_chain.linked
  have hrun : Run Heap.Sample.chain zero none :=
    .newBlockNode _ _ (.newBlockNode _ _ (.newBlockNode _ _ .zero))
  have htip (q : Nat) (hq : q < 3) (p : Nat) (hp : some q = some p) :
      p < Heap.Sample.chain.nodes.length := Option.some.inj hp ▸ hq
  obtain ⟨c₁, h₁⟩ := setTip_returns hl (by decide) zero (htip 2 (by decide))
  obtain ⟨c₂, h₂⟩ := setTip_returns hl (by decide) c₁ (htip 1 (by decide))
  exact ⟨c₁, c₂, h₁, h₂, ((Run.represents_tip ((hrun.setTip h₁).setTip h₂)).2.2.1 0 (by decide)).1⟩

end ChainView

end Obtcd.BlockIndex
