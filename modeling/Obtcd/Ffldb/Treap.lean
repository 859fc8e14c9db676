import Obtcd.Lib.Bytes

/-!
# The treaps

`database/internal/treap`: search trees by key in which each node gets a random priority, and whose
priorities are meant to grow from the root down.  `Mutable` and `Immutable` build the same trees; an
`Immutable` copies the nodes that it changes, which a value does not show.

`Put` links a new node where its key belongs and rotates it up past the nodes of higher priority.
`Delete` rotates the node down until it is a leaf and cuts it off.  Of two children it rotates up the
one with the *higher* priority, which then stands above the other one.

So `Put` keeps the order (`TreapNode.heap_put`), and `Delete` keeps it exactly if wherever it chooses
between two children they have the same priority (`TreapNode.heap_delete_iff`).
-/

namespace Obtcd

/-- A `treapNode` and what is below it. -/
inductive TreapNode where
  | nil
  | node (key value : Bytes) (priority : Int) (left right : TreapNode)

/-- What the loop of `Put` has of a subtree into which the new node was put: the new node on top of
it, with its two subtrees, or a tree in which it stays where it is. -/
inductive Rising where
  | rising (left right : TreapNode)
  | done (t : TreapNode)

namespace TreapNode

/-- The two loops of `Put`: down to where the key belongs, and up again as long as the new node has
a lower priority than its parent. -/
def insert (key value : Bytes) (priority : Int) : TreapNode → Rising
  | nil => .rising nil nil
  | node k v p left right =>
    match compare key k with
    | .lt =>
      match left.insert key value priority with
      | .rising l r =>
        if priority ≥ p then .done (node k v p (node key value priority l r) right)
        else .rising l (node k v p r right)
      | .done left => .done (node k v p left right)
    | .gt =>
      match right.insert key value priority with
      | .rising l r =>
        if priority ≥ p then .done (node k v p left (node key value priority l r))
        else .rising (node k v p left l) r
      | .done right => .done (node k v p left right)
    | .eq => .done (node k value p left right)

/-- The root after `Put`. -/
def put (key value : Bytes) (priority : Int) (t : TreapNode) : TreapNode :=
  match t.insert key value priority with
  | .rising left right => node key value priority left right
  | .done t => t

/-- The loop of `Delete`: what stands in place of a node with these subtrees.  Each turn puts a child
above the node. -/
def rotateDown : TreapNode → TreapNode → TreapNode
  | nil, nil => nil
  | nil, node k v p l r => node k v p (rotateDown nil l) r
  | node k v p l r, nil => node k v p l (rotateDown r nil)
  | node k v p l r, node k' v' p' l' r' =>
    if p ≥ p' then node k v p l (rotateDown r (node k' v' p' l' r'))
    else node k' v' p' (rotateDown (node k v p l r) l') r'

/-- The root after `Delete`. -/
def delete (key : Bytes) : TreapNode → TreapNode
  | nil => nil
  | node k v p left right =>
    match compare key k with
    | .lt => node k v p (left.delete key) right
    | .gt => node k v p left (right.delete key)
    | .eq => rotateDown left right

/-! ## Priorities -/

/-- The root has at least this priority. -/
def Above (p : Int) : TreapNode → Prop
  | nil => True
  | node _ _ q _ _ => p ≤ q

/-- Every child's priority is at least its parent's. -/
def Heap : TreapNode → Prop
  | nil => True
  | node _ _ p left right => left.Above p ∧ right.Above p ∧ left.Heap ∧ right.Heap

/-- The two trees have the same priority at the root, and so on with the right subtree of the
first. -/
def Tied : TreapNode → TreapNode → Prop
  | node _ _ p _ r, node k v p' l' r' => p = p' ∧ Tied r (node k v p' l' r')
  | _, _ => True

/-- The subtrees of the node with the key, if there is one, are `Tied`. -/
def TiedAt (key : Bytes) : TreapNode → Prop
  | nil => True
  | node k _ _ left right =>
    match compare key k with
    | .lt => left.TiedAt key
    | .gt => right.TiedAt key
    | .eq => Tied left right

variable {p q : Int} {key value : Bytes} {t l r : TreapNode}

theorem Above.mono (h : t.Above p) (hq : q ≤ p) : t.Above q := by
  cases t with
  | nil => trivial
  | node => exact hq.trans h

/-- What the tree around a subtree needs to know about it after a node was put in. -/
def Rising.Keeps (priority : Int) (t : TreapNode) : Rising → Prop
  | .rising l r => l.Heap ∧ r.Heap ∧ l.Above priority ∧ r.Above priority ∧
      ∀ p, t.Above p → l.Above p ∧ r.Above p
  | .done t' => t'.Heap ∧ ∀ p, t.Above p → t'.Above p

theorem keeps_insert (h : t.Heap) : Rising.Keeps q t (t.insert key value q) := by
  induction t with
  | nil => exact ⟨trivial, trivial, trivial, trivial, fun _ _ => ⟨trivial, trivial⟩⟩
  | node k v p left right ihl ihr =>
    obtain ⟨hpl, hpr, hl, hr⟩ := h
    rw [insert]
    split
    · have hkeeps := ihl hl
      split <;> rename_i heq <;> rw [heq] at hkeeps
      · obtain ⟨h₁, h₂, ha₁, ha₂, habove⟩ := hkeeps
        split
        · rename_i hge
          exact ⟨⟨hge, hpr, ⟨ha₁, ha₂, h₁, h₂⟩, hr⟩, fun _ hp => hp⟩
        · rename_i hlt
          have hlt : q ≤ p := (not_le.1 hlt).le
          exact ⟨h₁, ⟨(habove p hpl).2, hpr, h₂, hr⟩, ha₁, hlt, fun p' hp =>
            ⟨(habove p hpl).1.mono hp, hp⟩⟩
      · exact ⟨⟨hkeeps.2 p hpl, hpr, hkeeps.1, hr⟩, fun _ hp => hp⟩
    · have hkeeps := ihr hr
      split <;> rename_i heq <;> rw [heq] at hkeeps
      · obtain ⟨h₁, h₂, ha₁, ha₂, habove⟩ := hkeeps
        split
        · rename_i hge
          exact ⟨⟨hpl, hge, hl, ⟨ha₁, ha₂, h₁, h₂⟩⟩, fun _ hp => hp⟩
        · rename_i hlt
          have hlt : q ≤ p := (not_le.1 hlt).le
          exact ⟨⟨hpl, (habove p hpr).1, hl, h₁⟩, h₂, hlt, ha₂, fun p' hp =>
            ⟨hp, (habove p hpr).2.mono hp⟩⟩
      · exact ⟨⟨hpl, hkeeps.2 p hpr, hl, hkeeps.1⟩, fun _ hp => hp⟩
    · exact ⟨⟨hpl, hpr, hl, hr⟩, fun _ hp => hp⟩

theorem heap_put (h : t.Heap) : (t.put key value q).Heap := by
  have hkeeps : Rising.Keeps q t (t.insert key value q) := keeps_insert h
  rw [put]
  split <;> rename_i heq <;> rw [heq] at hkeeps
  · obtain ⟨h₁, h₂, ha₁, ha₂, -⟩ := hkeeps
    exact ⟨ha₁, ha₂, h₁, h₂⟩
  · exact hkeeps.1

theorem rotateDown_nil_left (t : TreapNode) : rotateDown nil t = t := by
  induction t with
  | nil => rw [rotateDown]
  | node k v p l r ihl ihr => rw [rotateDown, ihl]

theorem rotateDown_nil_right (t : TreapNode) : rotateDown t nil = t := by
  induction t with
  | nil => rw [rotateDown]
  | node k v p l r ihl ihr => rw [rotateDown, ihr]

theorem above_rotateDown (hl : l.Above p) (hr : r.Above p) : (rotateDown l r).Above p := by
  cases l with
  | nil => rwa [rotateDown_nil_left]
  | node =>
    cases r with
    | nil => rwa [rotateDown_nil_right]
    | node =>
      rw [rotateDown]
      split
      · exact hl
      · exact hr

theorem Heap.of_rotateDown (h : (rotateDown l r).Heap) (hp : (rotateDown l r).Above p) :
    l.Above p ∧ r.Above p := by
  induction l, r using rotateDown.induct generalizing p with
  | case1 => exact ⟨trivial, trivial⟩
  | case2 => exact ⟨trivial, by rwa [rotateDown_nil_left] at hp⟩
  | case3 => exact ⟨by rwa [rotateDown_nil_right] at hp, trivial⟩
  | case4 k v p₁ l r k' v' p₂ l' r' hge ih =>
    rw [rotateDown, if_pos hge] at h hp
    have hbelow : p₁ ≤ p₂ := (ih h.2.2.2 h.2.1).2
    exact ⟨hp, hbelow.trans' hp⟩
  | case5 k v p₁ l r k' v' p₂ l' r' hlt ih =>
    rw [rotateDown, if_neg hlt] at h hp
    have hbelow : p₂ ≤ p₁ := (ih h.2.2.1 h.1).1
    exact ⟨hbelow.trans' hp, hp⟩

/-- The loop of `Delete` keeps the order exactly if it never has a choice. -/
theorem heap_rotateDown_iff (hl : l.Heap) (hr : r.Heap) : (rotateDown l r).Heap ↔ Tied l r := by
  induction l, r using rotateDown.induct with
  | case1 =>
    rw [rotateDown]
    exact Iff.rfl
  | case2 =>
    rw [rotateDown_nil_left]
    exact iff_of_true hr trivial
  | case3 =>
    rw [rotateDown_nil_right]
    exact iff_of_true hl trivial
  | case4 k v p₁ l r k' v' p₂ l' r' hge ih =>
    rw [rotateDown, if_pos hge, Tied, ← ih hl.2.2.2 hr]
    refine ⟨fun h => ⟨?_, h.2.2.2⟩, fun ⟨heq, h⟩ => ⟨hl.1, ?_, hl.2.2.1, h⟩⟩
    · exact le_antisymm (h.2.2.2.of_rotateDown h.2.1).2 hge
    · exact above_rotateDown hl.2.1 heq.le
  | case5 k v p₁ l r k' v' p₂ l' r' hlt ih =>
    rw [rotateDown, if_neg hlt, Tied]
    refine iff_of_false (fun h => hlt ?_) fun h => hlt h.1.ge
    exact (h.2.2.1.of_rotateDown h.1).1

theorem above_delete (h : t.Heap) (hp : t.Above p) : (t.delete key).Above p := by
  cases t with
  | nil => trivial
  | node k v q left right =>
    rw [delete]
    split
    · exact hp
    · exact hp
    · exact above_rotateDown (h.1.mono hp) (h.2.1.mono hp)

/-- `Delete` keeps the order exactly if the loop never has a choice. -/
theorem heap_delete_iff (h : t.Heap) : (t.delete key).Heap ↔ t.TiedAt key := by
  induction t with
  | nil => exact iff_of_true trivial trivial
  | node k v p left right ihl ihr =>
    obtain ⟨hpl, hpr, hl, hr⟩ := h
    rw [delete, TiedAt]
    split
    · rw [← ihl hl]
      exact ⟨fun h => h.2.2.1, fun h => ⟨above_delete hl hpl, hpr, h, hr⟩⟩
    · rw [← ihr hr]
      exact ⟨fun h => h.2.2.2, fun h => ⟨hpl, above_delete hr hpr, hl, h⟩⟩
    · exact heap_rotateDown_iff hl hr

/-! ## Runs -/

/-- A call of `Put`, with the priority that a new node is given, or of `Delete`. -/
inductive Call where
  | put (key value : Bytes) (priority : Int)
  | delete (key : Bytes)

/-- The root after a call. -/
def call (t : TreapNode) : Call → TreapNode
  | .put key value priority => t.put key value priority
  | .delete key => t.delete key

/-- The root after a sequence of calls on a new treap. -/
def run (calls : List Call) : TreapNode := calls.foldl call nil

end TreapNode

open TreapNode

/-- The two kinds of treap, by their roots. -/
structure Mutable where
  root : TreapNode

structure Immutable where
  root : TreapNode

def Mutable.put (t : Mutable) (key value : Bytes) (priority : Int) : Mutable :=
  ⟨t.root.put key value priority⟩

def Mutable.delete (t : Mutable) (key : Bytes) : Mutable := ⟨t.root.delete key⟩

def Immutable.put (t : Immutable) (key value : Bytes) (priority : Int) : Immutable :=
  ⟨t.root.put key value priority⟩

def Immutable.delete (t : Immutable) (key : Bytes) : Immutable := ⟨t.root.delete key⟩

/-- `NewMutable`, and a sequence of calls. -/
def Mutable.run (calls : List Call) : Mutable := calls.foldl (fun t c => match c with
  | .put key value priority => t.put key value priority
  | .delete key => t.delete key) ⟨nil⟩

/-- `NewImmutable`, and a sequence of calls. -/
def Immutable.run (calls : List Call) : Immutable := calls.foldl (fun t c => match c with
  | .put key value priority => t.put key value priority
  | .delete key => t.delete key) ⟨nil⟩

theorem Mutable.root_run (calls : List Call) : (Mutable.run calls).root = TreapNode.run calls := by
  refine (List.foldl_hom Mutable.root fun t c => ?_).symm
  cases c <;> rfl

theorem Immutable.root_run (calls : List Call) :
    (Immutable.run calls).root = TreapNode.run calls := by
  refine (List.foldl_hom Immutable.root fun t c => ?_).symm
  cases c <;> rfl

namespace TreapNode

theorem run_take_succ {calls : List Call} {n : Nat} {c : Call} (h : calls[n]? = some c) :
    run (calls.take (n + 1)) = (run (calls.take n)).call c := by
  rw [List.take_add_one, h, run, List.foldl_append]
  rfl

/-- **When a run keeps the order of the priorities**, on either kind of treap: exactly if no `Delete`
in it has a choice between children of different priorities. -/
theorem heap_run_iff (calls : List Call) :
    ((∀ n, (Mutable.run (calls.take n)).root.Heap) ↔ ∀ n key, calls[n]? = some (.delete key) →
        (Mutable.run (calls.take n)).root.TiedAt key) ∧
      ((∀ n, (Immutable.run (calls.take n)).root.Heap) ↔ ∀ n key, calls[n]? = some (.delete key) →
        (Immutable.run (calls.take n)).root.TiedAt key) := by
  simp only [Mutable.root_run, Immutable.root_run, and_self]
  refine ⟨fun h n key hn => ?_, fun h n => ?_⟩
  · have hnext := h (n + 1)
    rwa [run_take_succ hn, call, heap_delete_iff (h n)] at hnext
  · induction n with
    | zero => trivial
    | succ n ih =>
      cases hn : calls[n]? with
      | none =>
        rwa [List.take_add_one, hn, Option.toList_none, List.append_nil]
      | some c =>
        rw [run_take_succ hn]
        cases c with
        | put key value priority => exact heap_put ih
        | delete key => exact (heap_delete_iff ih).2 (h n key hn)

/-- Three entries are put, and the root is deleted: the child of priority 2 is rotated above the one
of priority 1. -/
theorem heap_run_broken :
    ¬ (Mutable.run [.put [2] [] 0, .put [1] [] 1, .put [3] [] 2, .delete [2]]).root.Heap ∧
      ¬ (Immutable.run [.put [2] [] 0, .put [1] [] 1, .put [3] [] 2, .delete [2]]).root.Heap := by
  rw [Mutable.root_run, Immutable.root_run, and_self]
  change ¬ (delete [2] (put [3] [] 2 (put [1] [] 1 (put [2] [] 0 nil)))).Heap
  rw [heap_delete_iff (heap_put (heap_put (heap_put (t := nil) trivial)))]
  exact fun h => absurd h.1 (by decide)

end TreapNode

end Obtcd
