import Obtcd.Blockchain.ChainView
import Obtcd.Lib.GroupIndex

/-!
# The orphan pool

Blocks whose parent is not known yet wait in a pool, by hash, with an index of them by parent, and
leave it when the parent comes (`processOrphans`), after an hour, or when the pool is full: then
`addOrphanBlock` removes the oldest one before it adds another.  Which one is the oldest is not
looked up.  It is a pointer that the sweep over the pool moves to anything older, and that nothing
resets when the block it points to leaves the pool.

## What is here

* `Consistent`: the index lists the blocks of the pool, each once and under its parent.  Every call
  keeps it (`Consistent.removeOrphanBlock`, `addOrphanBlock_spec`, `Consistent.processOrphans`).
* `Evicts`: the pointer, after the sweep, leads to a block of the pool.  As long as that holds
  whenever the pool is full, it never has more than `maxOrphanBlocks` blocks (`bounded_of_run`).
* `overflows`: where it does not hold, the pool does get larger.  A pointer to a block that has left
  is older than every block there is, so no sweep moves it, and the eviction removes nothing.
* `Lists`: the pool of a `BlockTree` is a list with the same blocks.

The map is swept in an order that Go does not fix, and the clock is read anew for every block; both
are arguments of the call.
-/

namespace Obtcd

open OrdMap
open GroupIndex (Indexes)
open List

def maxOrphanBlocks : Nat := 100

/-- Times are nanoseconds. -/
structure OrphanBlock where
  block : Block
  expiration : Int
deriving DecidableEq

namespace OrphanBlock

def hash (o : OrphanBlock) : Hash := o.block.hash

/-- The hash of the parent. -/
def prevHash (o : OrphanBlock) : Hash := o.block.header.prevBlock

/-- Does the clock stand after the expiration when the block is visited? -/
def expired (clock : Hash → Int) (o : OrphanBlock) : Bool := decide (clock o.hash > o.expiration)

end OrphanBlock

/-- The fields of `BlockChain` for orphans. -/
structure OrphanPool where
  orphans : OrdMap Hash OrphanBlock
  prevOrphans : OrdMap Hash (List OrphanBlock)
  oldestOrphan : Option OrphanBlock

namespace OrphanPool

/-- The pool of a new chain. -/
def empty : OrphanPool := ⟨∅, ∅, none⟩

def removeOrphanBlock (orphan : OrphanBlock) (pool : OrphanPool) : OrphanPool :=
  { pool with
    orphans := pool.orphans.erase orphan.hash
    prevOrphans := GroupIndex.remove OrphanBlock.hash pool.prevOrphans orphan.prevHash orphan.hash }

/-- The pointer after a block that is not expired. -/
def older (oldest : Option OrphanBlock) (o : OrphanBlock) : Option OrphanBlock :=
  match oldest with
  | none => some o
  | some q => if o.expiration < q.expiration then some o else some q

/-- One round of the sweep. -/
def visit (clock : Hash → Int) (pool : OrphanPool) (o : OrphanBlock) : OrphanPool :=
  if o.expired clock then pool.removeOrphanBlock o
  else { pool with oldestOrphan := older pool.oldestOrphan o }

/-- The sweep over the pool, which removes what has expired. -/
def sweep (clock : Hash → Int) (order : List OrphanBlock) (pool : OrphanPool) : OrphanPool :=
  order.foldl (visit clock) pool

/-- The eviction from a full pool. -/
def evict (pool : OrphanPool) : Except GoError OrphanPool :=
  if pool.orphans.size + 1 > maxOrphanBlocks then
    match pool.oldestOrphan with
    | none => .error BlockIndex.nilDereference
    | some oldest => .ok { pool.removeOrphanBlock oldest with oldestOrphan := none }
  else .ok pool

/-- The block goes into the pool and into the index. -/
def insert (o : OrphanBlock) (pool : OrphanPool) : OrphanPool :=
  { pool with
    orphans := pool.orphans.insert o.hash o
    prevOrphans := GroupIndex.add pool.prevOrphans o.prevHash o }

/-- One hour in nanoseconds. -/
def hour : Int := 3600 * 1000000000

/-- `addOrphanBlock`, with the order of the sweep and the readings of the clock. -/
def addOrphanBlock (order : List OrphanBlock) (clock : Hash → Int) (now : Int) (block : Block)
    (pool : OrphanPool) : Except GoError OrphanPool := do
  let pool ← (pool.sweep clock order).evict
  pure (pool.insert ⟨block, now + hour⟩)

/-- The orphans of a block are tried, and then theirs.  What `maybeAcceptBlock`
says of a block is `accept`; it does not touch the pool. -/
def processOrphans (accept : Block → Except GoError Unit) :
    Nat → List Hash → OrphanPool → OrphanPool × Except GoError Unit
  | 0, _, pool => (pool, .ok ())
  | _ + 1, [], pool => (pool, .ok ())
  | fuel + 1, processHash :: processHashes, pool =>
    match GroupIndex.group pool.prevOrphans processHash with
    | [] => processOrphans accept fuel processHashes pool
    | orphan :: _ =>
      let pool := pool.removeOrphanBlock orphan
      match accept orphan.block with
      | .error err => (pool, .error err)
      | .ok () => processOrphans accept fuel (processHash :: processHashes ++ [orphan.hash]) pool

/-! ## The index belongs to the pool -/

/-- Every block of the pool is listed once, under its parent, and nothing else is. -/
def Consistent (pool : OrphanPool) : Prop :=
  Indexes OrphanBlock.hash OrphanBlock.prevHash pool.orphans pool.prevOrphans

theorem getElem?_empty (k : Hash) : empty.orphans[k]? = none := Std.ExtTreeMap.getElem?_empty

theorem consistent_empty : empty.Consistent := GroupIndex.indexes_empty _ _

variable {pool pool' : OrphanPool} {orphan : OrphanBlock}

/-- If the pool has a block with the hash of this one, it has the same parent. -/
def Knows (pool : OrphanPool) (orphan : OrphanBlock) : Prop :=
  ∀ o, pool.orphans[orphan.hash]? = some o → o.prevHash = orphan.prevHash

theorem Knows.of_mem (h : pool.orphans[orphan.hash]? = some orphan) : pool.Knows orphan :=
  fun o ho => by rw [← Option.some.inj (h.symm.trans ho)]

theorem Consistent.removeOrphanBlock (hc : pool.Consistent) (h : pool.Knows orphan) :
    (pool.removeOrphanBlock orphan).Consistent :=
  Indexes.erase hc h

variable {o : OrphanBlock}

theorem Consistent.insert (hc : pool.Consistent) (h : pool.orphans[o.hash]? = none) :
    (pool.insert o).Consistent :=
  Indexes.insert hc h

theorem getElem?_removeOrphanBlock (pool : OrphanPool) (o : OrphanBlock) (k : Hash) :
    (pool.removeOrphanBlock o).orphans[k]? = if o.hash = k then none else pool.orphans[k]? :=
  getElem?_erase' _ _ _

theorem getElem?_insert (pool : OrphanPool) (o : OrphanBlock) (k : Hash) :
    (pool.insert o).orphans[k]? = if o.hash = k then some o else pool.orphans[k]? :=
  getElem?_insert' _ _ _ _

/-- The blocks of the pool. -/
def values (pool : OrphanPool) : List OrphanBlock := pool.orphans.toList.map Prod.snd

theorem length_values (pool : OrphanPool) : pool.values.length = pool.orphans.size := by
  rw [values, length_map, Std.ExtTreeMap.length_toList]

theorem Consistent.mem_values (hc : pool.Consistent) :
    o ∈ pool.values ↔ pool.orphans[o.hash]? = some o := by
  rw [values, mem_map]
  constructor
  · rintro ⟨⟨k, o'⟩, hmem, rfl⟩
    rw [mem_toList] at hmem
    rwa [hc.keyed k o' hmem]
  · intro h
    exact ⟨(o.hash, o), (mem_toList _ _ _).2 h, rfl⟩

theorem Consistent.nodup_values (hc : pool.Consistent) :
    (pool.values.map OrphanBlock.hash).Nodup := by
  have hkeys : pool.values.map OrphanBlock.hash = pool.orphans.toList.map Prod.fst := by
    rw [values, map_map]
    refine map_congr_left fun e he => ?_
    exact hc.keyed e.1 e.2 ((mem_toList _ _ _).1 he)
  rw [hkeys]
  exact nodup_keys_toList _

/-! ## The sweep -/

/-- What the sweep leaves: the blocks that have not expired, and a pointer that those moved. -/
theorem sweep_spec (clock : Hash → Int) {order : List OrphanBlock} (hc : pool.Consistent)
    (hmem : ∀ o ∈ order, pool.orphans[o.hash]? = some o)
    (hnodup : (order.map OrphanBlock.hash).Nodup) :
    (pool.sweep clock order).Consistent ∧
      (∀ o : OrphanBlock, (pool.sweep clock order).orphans[o.hash]? = some o ↔
        pool.orphans[o.hash]? = some o ∧ (o ∈ order → o.expired clock = false)) ∧
      (pool.sweep clock order).oldestOrphan =
        (order.filter fun o => !o.expired clock).foldl older pool.oldestOrphan := by
  induction order generalizing pool with
  | nil =>
    have hnil : pool.sweep clock [] = pool := rfl
    rw [hnil]
    exact ⟨hc, fun o => by simp, rfl⟩
  | cons p order ih =>
    obtain ⟨hp, hrest⟩ := forall_mem_cons.1 hmem
    rw [map_cons, nodup_cons] at hnodup
    have hne (o : OrphanBlock) (ho : o ∈ order) : p.hash ≠ o.hash := by
      intro heq
      rw [heq] at hnodup
      exact hnodup.1 (mem_map_of_mem ho)
    have hstep : pool.sweep clock (p :: order) = (pool.visit clock p).sweep clock order := rfl
    rw [hstep]
    cases hexp : p.expired clock with
    | true =>
      have hvisit : pool.visit clock p = pool.removeOrphanBlock p := by
        rw [visit, hexp, if_pos rfl]
      obtain ⟨h₁, h₂, h₃⟩ := ih (hc.removeOrphanBlock (.of_mem hp)) (fun o ho => by
        rw [getElem?_removeOrphanBlock, if_neg (hne o ho)]
        exact hrest o ho) hnodup.2
      rw [hvisit]
      refine ⟨h₁, fun o => ?_, ?_⟩
      · rw [h₂, getElem?_removeOrphanBlock, mem_cons]
        by_cases hk : p.hash = o.hash
        · rw [if_pos hk]
          refine iff_of_false (fun h => nomatch h.1) fun ⟨ho, hlive⟩ => ?_
          rw [← hk, hp] at ho
          have := hlive (Or.inl (Option.some.inj ho).symm)
          rw [← Option.some.inj ho, hexp] at this
          cases this
        · have hop : o ≠ p := fun h => hk (congrArg OrphanBlock.hash h.symm)
          rw [if_neg hk]
          simp only [hop, false_or]
      · rw [h₃, filter_cons, hexp]
        rfl
    | false =>
      have hvisit : pool.visit clock p =
          { pool with oldestOrphan := older pool.oldestOrphan p } := by
        rw [visit, hexp, if_neg Bool.false_ne_true]
      obtain ⟨h₁, h₂, h₃⟩ := ih
        (show Consistent { pool with oldestOrphan := older pool.oldestOrphan p } from hc) hrest hnodup.2
      rw [hvisit]
      refine ⟨h₁, fun o => ?_, ?_⟩
      · rw [h₂, mem_cons]
        refine and_congr_right fun ho => ⟨fun h hmem => ?_, fun h hmem => h (Or.inr hmem)⟩
        rcases hmem with rfl | hmem
        · exact hexp
        · exact h hmem
      · rw [h₃, filter_cons, hexp]
        rfl

/-- The pointer after the sweep is one of the blocks that were visited, or what it was, and then no
block is older. -/
theorem foldl_older (oldest : Option OrphanBlock) (l : List OrphanBlock) :
    (∃ o ∈ l, l.foldl older oldest = some o) ∨
      l.foldl older oldest = oldest ∧
        ∀ o ∈ l, ∃ q, oldest = some q ∧ q.expiration ≤ o.expiration := by
  induction l generalizing oldest with
  | nil => exact Or.inr ⟨rfl, by simp⟩
  | cons p l ih =>
    rw [foldl_cons]
    rcases ih (older oldest p) with ⟨o, ho, heq⟩ | ⟨heq, hleast⟩
    · exact Or.inl ⟨o, mem_cons_of_mem _ ho, heq⟩
    · rw [heq]
      cases oldest with
      | none => exact Or.inl ⟨p, mem_cons_self, rfl⟩
      | some q =>
        by_cases hlt : p.expiration < q.expiration
        · exact Or.inl ⟨p, mem_cons_self, by rw [older, if_pos hlt]⟩
        · have holder : older (some q) p = some q := by rw [older, if_neg hlt]
          rw [holder] at hleast ⊢
          refine Or.inr ⟨rfl, fun o ho => ?_⟩
          rcases mem_cons.1 ho with rfl | ho
          · exact ⟨q, rfl, not_lt.1 hlt⟩
          · exact hleast o ho

/-- The blocks that the sweep leaves. -/
def live (clock : Hash → Int) (pool : OrphanPool) : List OrphanBlock :=
  pool.values.filter fun o => !o.expired clock

section Sweep

variable {clock : Hash → Int} {order : List OrphanBlock}

/-- A sweep over the whole pool. -/
theorem Consistent.sweep (hc : pool.Consistent) (clock : Hash → Int)
    (horder : order.Perm pool.values) :
    (pool.sweep clock order).Consistent ∧
      (pool.sweep clock order).values.Perm (pool.live clock) ∧
      (pool.sweep clock order).oldestOrphan =
        (order.filter fun o => !o.expired clock).foldl older pool.oldestOrphan := by
  obtain ⟨h₁, h₂, h₃⟩ := sweep_spec clock hc
    (fun o ho => hc.mem_values.1 (horder.mem_iff.1 ho))
    ((horder.map OrphanBlock.hash).nodup_iff.2 hc.nodup_values)
  refine ⟨h₁, ?_, h₃⟩
  refine (perm_ext_iff_of_nodup h₁.nodup_values.of_map (hc.nodup_values.of_map.filter _)).2
    fun o => ?_
  rw [h₁.mem_values, h₂, mem_filter, hc.mem_values, horder.mem_iff, hc.mem_values,
    Bool.not_eq_true']
  exact ⟨fun h => ⟨h.1, h.2 h.1⟩, fun h => ⟨h.1, fun _ => h.2⟩⟩

/-! ## Calls -/

/-- Where the pool is full, the pointer will be to a block of it: there is no pointer yet, or it is
to a block that is still there, or one of the blocks is older. -/
def Evicts (clock : Hash → Int) (pool : OrphanPool) : Prop :=
  (pool.live clock).length + 1 > maxOrphanBlocks →
    pool.oldestOrphan = none ∨ ∃ q, pool.oldestOrphan = some q ∧ ∃ o ∈ pool.live clock,
      o.expiration < q.expiration ∨ o.hash = q.hash ∧ o.prevHash = q.prevHash

theorem size_removeOrphanBlock (h : pool.orphans[orphan.hash]? = some o) :
    (pool.removeOrphanBlock orphan).orphans.size = pool.orphans.size - 1 := by
  have hmem : orphan.hash ∈ pool.orphans := by
    rw [Std.ExtTreeMap.mem_iff_isSome_getElem?, h]
    rfl
  exact Std.ExtTreeMap.size_erase.trans (if_pos hmem)

theorem size_removeOrphanBlock_le (orphan : OrphanBlock) (pool : OrphanPool) :
    (pool.removeOrphanBlock orphan).orphans.size ≤ pool.orphans.size :=
  Std.ExtTreeMap.size_erase_le

/-- The eviction makes room, if the pointer is to a block of the pool. -/
theorem evict_spec (hc : pool.Consistent) (hsize : pool.orphans.size ≤ maxOrphanBlocks)
    (hpointer : pool.orphans.size + 1 > maxOrphanBlocks → ∃ q o, pool.oldestOrphan = some q ∧
      pool.orphans[q.hash]? = some o ∧ o.prevHash = q.prevHash) :
    ∃ pool', pool.evict = .ok pool' ∧ pool'.Consistent ∧
      pool'.orphans.size + 1 ≤ maxOrphanBlocks ∧
      ∀ k : Hash, pool.orphans[k]? = none → pool'.orphans[k]? = none := by
  rw [evict]
  by_cases hfull : pool.orphans.size + 1 > maxOrphanBlocks
  · obtain ⟨q, o, hq, ho, hprev⟩ := hpointer hfull
    rw [if_pos hfull, hq]
    have hknows : pool.Knows q := fun o' ho' => by
      rw [← Option.some.inj (ho.symm.trans ho'), hprev]
    refine ⟨_, rfl, hc.removeOrphanBlock hknows, ?_, fun k hk => ?_⟩
    · have hsize' := size_removeOrphanBlock ho
      rw [hsize']
      have hmax : maxOrphanBlocks = 100 := rfl
      omega
    · exact (getElem?_removeOrphanBlock pool q k).trans (by rw [hk, ite_self])
  · rw [if_neg hfull]
    exact ⟨pool, rfl, hc, not_lt.1 hfull, fun _ hk => hk⟩

theorem size_of_insert {expiration : Int} {block : Block} (hnew : pool.orphans[block.hash]? = none)
    (h : pool'.orphans = pool.orphans.insert block.hash ⟨block, expiration⟩) :
    pool'.orphans.size = pool.orphans.size + 1 := by
  have hmem : block.hash ∉ pool.orphans := by
    rw [Std.ExtTreeMap.mem_iff_isSome_getElem?, hnew]
    exact Bool.false_ne_true
  rw [h]
  exact Std.ExtTreeMap.size_insert.trans (if_neg hmem)

/-- A call of `addOrphanBlock` keeps the bound and the index, if the block is new and the pointer
is good. -/
theorem addOrphanBlock_spec (hc : pool.Consistent) (hsize : pool.orphans.size ≤ maxOrphanBlocks)
    (horder : order.Perm pool.values) (hevicts : Evicts clock pool) {block : Block}
    (hnew : pool.orphans[block.hash]? = none) (now : Int) :
    ∃ pool', pool.addOrphanBlock order clock now block = .ok pool' ∧ pool'.Consistent ∧
      pool'.orphans.size ≤ maxOrphanBlocks := by
  obtain ⟨hc₁, hvalues, holdest⟩ := hc.sweep clock horder
  have hlen : (pool.sweep clock order).orphans.size = (pool.live clock).length := by
    rw [← length_values, hvalues.length_eq]
  have hle : (pool.live clock).length ≤ pool.orphans.size := by
    rw [← length_values]
    exact length_filter_le _ _
  have hlive (o : OrphanBlock) : o ∈ order.filter (fun o => !o.expired clock) ↔
      (pool.sweep clock order).orphans[o.hash]? = some o := by
    rw [← hc₁.mem_values, hvalues.mem_iff, live, mem_filter, mem_filter, horder.mem_iff]
  obtain ⟨pool₂, hevict, hc₂, hroom, hnone⟩ := evict_spec hc₁ (by omega) (by
    intro hfull
    rw [hlen] at hfull
    rw [holdest]
    rcases foldl_older pool.oldestOrphan (order.filter fun o => !o.expired clock) with
      ⟨o, ho, heq⟩ | ⟨heq, hleast⟩
    · exact ⟨o, o, heq, (hlive o).1 ho, rfl⟩
    · -- nothing that is left is older than the pointer
      have hleast' (o : OrphanBlock) (ho : o ∈ pool.live clock) :
          ∃ q, pool.oldestOrphan = some q ∧ q.expiration ≤ o.expiration :=
        hleast o ((hlive o).2 (hc₁.mem_values.1 (hvalues.mem_iff.2 ho)))
      rw [heq]
      rcases hevicts hfull with hnone | ⟨q, hq, o, ho, hold | ⟨hhash, hprev⟩⟩
      · obtain ⟨o, ho⟩ := exists_mem_of_length_pos (l := pool.live clock) (by
          have hmax : maxOrphanBlocks = 100 := rfl
          omega)
        obtain ⟨q, hq, -⟩ := hleast' o ho
        rw [hnone] at hq
        cases hq
      · obtain ⟨q', hq', hle'⟩ := hleast' o ho
        rw [Option.some.inj (hq.symm.trans hq')] at hold
        omega
      · refine ⟨q, o, hq, ?_, hprev⟩
        rw [← hhash]
        exact hc₁.mem_values.1 (hvalues.mem_iff.2 ho))
  have hnew₁ : (pool.sweep clock order).orphans[block.hash]? = none := by
    rw [Option.eq_none_iff_forall_ne_some]
    intro o ho
    have hhash := hc₁.keyed _ o ho
    have hmem : o ∈ pool.values :=
      (mem_filter.1 (hvalues.mem_iff.1 (hc₁.mem_values.2 (by rw [hhash]; exact ho)))).1
    rw [hc.mem_values, hhash, hnew] at hmem
    cases hmem
  have hnew₂ := hnone _ hnew₁
  have hsize₃ : (pool₂.insert ⟨block, now + hour⟩).orphans.size = pool₂.orphans.size + 1 :=
    size_of_insert hnew₂ rfl
  refine ⟨_, ?_, hc₂.insert (o := ⟨block, now + hour⟩) hnew₂, by omega⟩
  rw [addOrphanBlock, hevict]
  rfl

end Sweep

/-- The first orphan of a block is in the pool, and can be removed. -/
theorem Consistent.of_group (hc : pool.Consistent) {h : Hash} {rest : List OrphanBlock}
    (hgroup : GroupIndex.group pool.prevOrphans h = orphan :: rest) :
    pool.orphans[orphan.hash]? = some orphan ∧ (pool.removeOrphanBlock orphan).Consistent := by
  have hmem : orphan ∈ GroupIndex.group pool.prevOrphans h := by
    rw [hgroup]
    exact mem_cons_self
  have horphan := ((hc.mem_iff _ _).1 hmem).2
  exact ⟨horphan, hc.removeOrphanBlock (.of_mem horphan)⟩

/-- `processOrphans` keeps the index, and the pool does not grow. -/
theorem Consistent.processOrphans (hc : pool.Consistent) (accept : Block → Except GoError Unit)
    (fuel : Nat) (hashes : List Hash) :
    (pool.processOrphans accept fuel hashes).1.Consistent ∧
      (pool.processOrphans accept fuel hashes).1.orphans.size ≤ pool.orphans.size := by
  induction fuel generalizing pool hashes with
  | zero => exact ⟨hc, Nat.le_refl _⟩
  | succ fuel ih =>
    cases hashes with
    | nil => exact ⟨hc, Nat.le_refl _⟩
    | cons processHash processHashes =>
      rw [OrphanPool.processOrphans]
      cases hgroup : GroupIndex.group pool.prevOrphans processHash with
      | nil => exact ih hc processHashes
      | cons orphan rest =>
        obtain ⟨-, hc'⟩ := hc.of_group hgroup
        have hle := size_removeOrphanBlock_le orphan pool
        dsimp only
        cases accept orphan.block with
        | error err => exact ⟨hc', hle⟩
        | ok _ =>
          obtain ⟨h₁, h₂⟩ := ih hc' (processHash :: processHashes ++ [orphan.hash])
          exact ⟨h₁, h₂.trans hle⟩

/-- A call of one of the three methods. -/
inductive Call where
  | addOrphanBlock (order : List OrphanBlock) (clock : Hash → Int) (now : Int) (block : Block)
  | removeOrphanBlock (orphan : OrphanBlock)
  | processOrphans (hash : Hash) (accept : Block → Except GoError Unit)

namespace Call

/-- What a call does to the pool. -/
def run : Call → OrphanPool → Except GoError OrphanPool
  | addOrphanBlock order clock now block, pool => pool.addOrphanBlock order clock now block
  | removeOrphanBlock orphan, pool => .ok (pool.removeOrphanBlock orphan)
  | processOrphans hash accept, pool =>
    .ok (pool.processOrphans accept (2 * pool.orphans.size + 1) [hash]).1

/-- The sweep of a call goes over the blocks there are, in some order. -/
def Possible (pool : OrphanPool) : Call → Prop
  | addOrphanBlock order _ _ _ => order.Perm pool.values
  | _ => True

/-- What the callers see to: a block is added that is not in the pool, and the orphan that is removed
has the parent that the pool knows for it. -/
def Promised (pool : OrphanPool) : Call → Prop
  | addOrphanBlock _ _ _ block => pool.orphans[block.hash]? = none
  | removeOrphanBlock orphan => pool.Knows orphan
  | processOrphans _ _ => True

/-- The pointer is good when a block is added. -/
def Meets (pool : OrphanPool) (call : Call) : Prop :=
  call.Promised pool ∧ ∀ order clock now block,
    call = addOrphanBlock order clock now block → Evicts clock pool

end Call

/-- A sequence of calls on the pool of a new chain, each of which meets a condition on the pool it
finds. -/
inductive Run (condition : OrphanPool → Call → Prop) : OrphanPool → Prop where
  | empty : Run condition empty
  | call {pool pool' : OrphanPool} (call : Call) (hrun : Run condition pool)
      (hpossible : call.Possible pool) (hcondition : condition pool call)
      (hr : call.run pool = .ok pool') : Run condition pool'

/-- **The orphan pool is bounded and its index belongs to it**, in every run in which the pointer is
good whenever a block is added to a full pool.  `Consistent` says that every block of the pool is
listed exactly once under its parent, that nothing else is listed and that no list is empty. -/
theorem bounded_of_run (hrun : Run Call.Meets pool) :
    pool.orphans.size ≤ maxOrphanBlocks ∧ pool.Consistent := by
  induction hrun with
  | empty => exact ⟨Nat.zero_le _, consistent_empty⟩
  | @call pool pool' call _ hpossible hcondition hr ih =>
    obtain ⟨hsize, hc⟩ := ih
    obtain ⟨hpromised, hevicts⟩ := hcondition
    cases call with
    | addOrphanBlock order clock now block =>
      obtain ⟨pool'', hadd, hc', hsize'⟩ :=
        addOrphanBlock_spec hc hsize hpossible (hevicts order clock now block rfl) hpromised now
      cases hadd.symm.trans hr
      exact ⟨hsize', hc'⟩
    | removeOrphanBlock orphan =>
      cases hr
      exact ⟨(size_removeOrphanBlock_le orphan pool).trans hsize, hc.removeOrphanBlock hpromised⟩
    | processOrphans hash accept =>
      cases hr
      obtain ⟨hc', hle⟩ := hc.processOrphans accept (2 * pool.orphans.size + 1) [hash]
      exact ⟨hle.trans hsize, hc'⟩

/-! ## With a clock that stands still -/

/-- A clock that stands still. -/
def stopped : Hash → Int := fun _ => 0

/-- A sweep over blocks of one age sets the pointer, if there is none. -/
theorem sweep_stopped {order : List OrphanBlock} (horder : ∀ o ∈ order, o.expiration = hour)
    (hpointer : ∀ q, pool.oldestOrphan = some q → q.expiration = hour) :
    pool.sweep stopped order =
      { pool with oldestOrphan := pool.oldestOrphan.or order.head? } := by
  induction order generalizing pool with
  | nil =>
    rw [head?_nil, Option.or_none]
    rfl
  | cons o order ih =>
    obtain ⟨ho, hrest⟩ := forall_mem_cons.1 horder
    have hlive : o.expired stopped = false := by
      rw [OrphanBlock.expired, ho]
      rfl
    have holder : older pool.oldestOrphan o = pool.oldestOrphan.or (some o) := by
      cases hq : pool.oldestOrphan with
      | none => rfl
      | some q =>
        rw [older, hpointer q hq, ho, if_neg (lt_irrefl _)]
        rfl
    change (pool.visit stopped o).sweep stopped order = _
    rw [visit, hlive, if_neg Bool.false_ne_true, ih hrest]
    · rw [holder, head?_cons, Option.or_assoc]
      rfl
    · intro q hq
      rw [holder] at hq
      cases hold : pool.oldestOrphan with
      | none =>
        rw [hold] at hq
        cases hq
        exact ho
      | some q' =>
        rw [hold] at hq
        cases hq
        exact hpointer q hold

theorem expiration_insert {block : Block}
    (h : ∀ o : OrphanBlock, pool.orphans[o.hash]? = some o → o.expiration = hour) (o : OrphanBlock)
    (ho : (pool.insert ⟨block, hour⟩).orphans[o.hash]? = some o) : o.expiration = hour := by
  rw [getElem?_insert] at ho
  split at ho
  · rw [← Option.some.inj ho]
  · exact h o ho

/-! ## A pointer to a block of the pool -/

/-- The pointer is to a block of the pool, if there is one. -/
structure Pointed (pool : OrphanPool) : Prop where
  consistent : pool.Consistent
  expiration : ∀ o : OrphanBlock, pool.orphans[o.hash]? = some o → o.expiration = hour
  pointer : ∀ q, pool.oldestOrphan = some q → pool.orphans[q.hash]? = some q

theorem pointed_empty : Pointed empty := by
  refine ⟨consistent_empty, fun o ho => ?_, nofun⟩
  cases ho.symm.trans (getElem?_empty o.hash)

theorem Pointed.evicts (h : Pointed pool) : Evicts stopped pool := by
  intro _
  cases hq : pool.oldestOrphan with
  | none => exact .inl rfl
  | some q =>
    have hmem := h.pointer q hq
    refine .inr ⟨q, rfl, q, mem_filter.2 ⟨h.consistent.mem_values.2 hmem, ?_⟩, .inr ⟨rfl, rfl⟩⟩
    rw [OrphanBlock.expired, h.expiration q hmem]
    rfl

theorem Pointed.insert (h : Pointed pool) {block : Block}
    (hnew : pool.orphans[block.hash]? = none) : Pointed (pool.insert ⟨block, hour⟩) := by
  refine ⟨h.consistent.insert (o := ⟨block, hour⟩) hnew, expiration_insert h.expiration,
    fun q hq => ?_⟩
  have hold := h.pointer q hq
  rw [getElem?_insert, if_neg, hold]
  intro heq
  rw [← heq] at hold
  cases hnew.symm.trans hold

/-- The pool with the pointer that the sweep leaves. -/
theorem Pointed.sweep (h : Pointed pool) :
    pool.sweep stopped pool.values =
        { pool with oldestOrphan := pool.oldestOrphan.or pool.values.head? } ∧
      Pointed { pool with oldestOrphan := pool.oldestOrphan.or pool.values.head? } := by
  have hmem (o : OrphanBlock) (ho : o ∈ pool.values) := h.consistent.mem_values.1 ho
  refine ⟨sweep_stopped (fun o ho => h.expiration o (hmem o ho)) fun q hq =>
    h.expiration q (h.pointer q hq), h.consistent, h.expiration, fun q hq => ?_⟩
  rcases Option.or_eq_some_iff.1 hq with hq | ⟨-, hq⟩
  · exact h.pointer q hq
  · exact hmem q (mem_of_head? hq)

/-- Below the limit the block is added. -/
theorem Pointed.add (h : Pointed pool) {block : Block} (hnew : pool.orphans[block.hash]? = none)
    (hroom : pool.orphans.size < maxOrphanBlocks) :
    ∃ pool', pool.addOrphanBlock pool.values stopped 0 block = .ok pool' ∧
      pool'.orphans = pool.orphans.insert block.hash ⟨block, hour⟩ ∧
      pool'.oldestOrphan = pool.oldestOrphan.or pool.values.head? ∧ Pointed pool' := by
  obtain ⟨hsweep, hpointed⟩ := h.sweep
  rw [OrphanPool.addOrphanBlock, hsweep, evict, if_neg (by dsimp only; omega), zero_add]
  exact ⟨_, rfl, rfl, rfl, hpointed.insert hnew⟩

/-- New blocks come in below the limit. -/
theorem Run.fill {condition : OrphanPool → Call → Prop}
    (hcondition : ∀ {pool : OrphanPool} {block : Block}, Pointed pool →
      pool.orphans[block.hash]? = none →
      condition pool (.addOrphanBlock pool.values stopped 0 block))
    (hrun : Run condition pool) (hpointed : Pointed pool) {blocks : List Block}
    (hnodup : (blocks.map Block.hash).Nodup) (hnew : ∀ b ∈ blocks, pool.orphans[b.hash]? = none)
    (hsize : pool.orphans.size + blocks.length ≤ maxOrphanBlocks) :
    ∃ pool', Run condition pool' ∧ Pointed pool' ∧
      pool'.orphans.size = pool.orphans.size + blocks.length ∧
      ∀ k, k ∉ blocks.map Block.hash → pool'.orphans[k]? = pool.orphans[k]? := by
  induction blocks generalizing pool with
  | nil => exact ⟨pool, hrun, hpointed, rfl, fun _ _ => rfl⟩
  | cons b blocks ih =>
    rw [map_cons, nodup_cons] at hnodup
    rw [length_cons] at hsize
    obtain ⟨hb, hrest⟩ := forall_mem_cons.1 hnew
    obtain ⟨pool₁, hadd, horphans, -, hpointed₁⟩ := hpointed.add hb (by omega)
    have hsize₁ := size_of_insert hb horphans
    have hget (k : Hash) (hk : b.hash ≠ k) : pool₁.orphans[k]? = pool.orphans[k]? := by
      rw [horphans, getElem?_insert', if_neg hk]
    have hrun₁ := Run.call (.addOrphanBlock _ stopped 0 b) hrun (Perm.refl _)
      (hcondition hpointed hb) hadd
    obtain ⟨pool₂, hrun₂, hpointed₂, hsize₂, hget₂⟩ := ih hrun₁ hpointed₁ hnodup.2 (fun b' hb' => by
      refine (hget _ fun heq => ?_).trans (hrest b' hb')
      rw [heq] at hnodup
      exact hnodup.1 (mem_map_of_mem hb')) (by omega)
    refine ⟨pool₂, hrun₂, hpointed₂, by rw [hsize₂, hsize₁, length_cons]; omega, fun k hk => ?_⟩
    rw [map_cons, mem_cons, not_or] at hk
    rw [hget₂ k hk.2, hget k (Ne.symm hk.1)]

/-- The sweep finds a block, if there is one. -/
theorem exists_oldest (h : 0 < pool.orphans.size) :
    ∃ q, pool.oldestOrphan.or pool.values.head? = some q := by
  rw [← length_values, length_pos_iff] at h
  rw [← Option.isSome_iff_exists, Option.isSome_or, isSome_head?.2 h, Bool.or_true]

/-- At the limit another block makes room for it. -/
theorem Pointed.replace (h : Pointed pool) {block : Block}
    (hnew : pool.orphans[block.hash]? = none) (hfull : pool.orphans.size = maxOrphanBlocks) :
    ∃ pool', pool.addOrphanBlock pool.values stopped 0 block = .ok pool' ∧
      pool'.orphans.size = maxOrphanBlocks ∧
      pool'.orphans[block.hash]? = some ⟨block, hour⟩ := by
  obtain ⟨hsweep, hpointed⟩ := h.sweep
  obtain ⟨q, hq⟩ := exists_oldest (by rw [hfull]; decide)
  have hmem : pool.orphans[q.hash]? = some q := hpointed.pointer q hq
  have habsent : (pool.removeOrphanBlock q).orphans[block.hash]? = none := by
    rw [getElem?_removeOrphanBlock, hnew, ite_self]
  have hsize : ((pool.removeOrphanBlock q).insert ⟨block, hour⟩).orphans.size = _ :=
    size_of_insert habsent rfl
  rw [size_removeOrphanBlock hmem, hfull] at hsize
  rw [OrphanPool.addOrphanBlock, hsweep, evict, if_pos (by dsimp only; omega)]
  dsimp only
  rw [hq, zero_add]
  exact ⟨_, rfl, hsize, (getElem?_insert _ ⟨block, hour⟩ _).trans (if_pos rfl)⟩

namespace Sample

/-- Headers that differ in the nonce. -/
def header (nonce : Nat) : BlockHeader := ⟨0, Hash.zero, Hash.zero, 0, 0, UInt32.ofNat nonce⟩

def block (nonce : Nat) : Block := ⟨header nonce, [], 0⟩

/-- The first words of the hashes are different. -/
theorem nodup_hash : ((List.range (maxOrphanBlocks + 1)).map fun nonce =>
    (block nonce).hash).Nodup := by
  refine List.Nodup.of_map (fun h : Hash => Bytes.beNat (h.bytes.val.take 4)) ?_
  rw [map_map]
  decide +kernel

end Sample

/-- A run that fills the pool, adds another block, for which one is evicted, removes that block again
and processes the orphans of the parent of all. -/
theorem bounded_of_run_evicting : ∃ full evicted processed : OrphanPool,
    full.orphans.size = maxOrphanBlocks ∧
      (Call.addOrphanBlock full.values stopped 0 (Sample.block maxOrphanBlocks)).run full =
        .ok evicted ∧
      evicted.orphans.size = maxOrphanBlocks ∧
      (Call.processOrphans Hash.zero fun _ => .ok ()).run
        (evicted.removeOrphanBlock ⟨Sample.block maxOrphanBlocks, hour⟩) = .ok processed ∧
      processed.orphans.size ≤ maxOrphanBlocks ∧ processed.Consistent := by
  have hnodup := Sample.nodup_hash
  rw [List.range_succ, map_append, nodup_append, ← Function.comp_def, ← map_map] at hnodup
  have hmeets {pool : OrphanPool} {block : Block} (h : Pointed pool)
      (hnew : pool.orphans[block.hash]? = none) :
      Call.Meets pool (.addOrphanBlock pool.values stopped 0 block) := by
    refine ⟨hnew, fun order clock now block heq => ?_⟩
    cases heq
    exact h.evicts
  -- the pool fills up
  obtain ⟨full, hrun, hpointed, hsize, hget⟩ := Run.fill hmeets .empty pointed_empty hnodup.1
    (fun b _ => getElem?_empty b.hash) (by simp [empty])
  have hfull : full.orphans.size = maxOrphanBlocks := by
    rw [hsize]
    simp [empty]
  have hnew : full.orphans[(Sample.block maxOrphanBlocks).hash]? = none := by
    refine (hget _ fun hmem => ?_).trans (getElem?_empty _)
    rw [map_map] at hmem
    exact hnodup.2.2 _ hmem _ (by simp) rfl
  -- one of its blocks is evicted for another, and that one leaves again
  obtain ⟨evicted, hadd, hevicted, hmem⟩ := hpointed.replace hnew hfull
  have hrun₁ := Run.call (.addOrphanBlock full.values stopped 0 _) hrun (Perm.refl _)
    (hmeets hpointed hnew) hadd
  have hrun₂ := Run.call (.removeOrphanBlock ⟨Sample.block maxOrphanBlocks, hour⟩) hrun₁ trivial
    ⟨.of_mem hmem, nofun⟩ rfl
  have hrun₃ := Run.call (.processOrphans Hash.zero fun _ => .ok ()) hrun₂ trivial
    ⟨trivial, nofun⟩ rfl
  exact ⟨full, evicted, _, hfull, hadd, hevicted, rfl, bounded_of_run hrun₃⟩

/-! ## A pointer to a block that has left -/

/-- The pointer is to a block that is not in the pool, and no block there is older. -/
structure Stale (q : OrphanBlock) (pool : OrphanPool) : Prop where
  consistent : pool.Consistent
  expiration : ∀ o : OrphanBlock, pool.orphans[o.hash]? = some o → o.expiration = hour
  pointer : pool.oldestOrphan = some q
  absent : pool.orphans[q.hash]? = none

variable {q : OrphanBlock}

/-- Adding a block while there is such a pointer: below the limit the pointer stays, and at the limit
nothing is evicted. -/
theorem Stale.addOrphanBlock (hs : Stale q pool) (hq : q.expiration = hour) {block : Block}
    (hnew : pool.orphans[block.hash]? = none) :
    ∃ pool', pool.addOrphanBlock pool.values stopped 0 block = .ok pool' ∧
      pool'.orphans = pool.orphans.insert block.hash ⟨block, hour⟩ ∧
      (pool.orphans.size < maxOrphanBlocks → block.hash ≠ q.hash → Stale q pool') := by
  have hsweep : pool.sweep stopped pool.values = pool := by
    refine (sweep_stopped (fun o ho => hs.expiration o (hs.consistent.mem_values.1 ho))
      fun q' hq' => ?_).trans ?_
    · rw [← Option.some.inj (hs.pointer.symm.trans hq'), hq]
    · rw [hs.pointer, Option.some_or, ← hs.pointer]
  rw [OrphanPool.addOrphanBlock, hsweep, evict, zero_add]
  by_cases hfull : pool.orphans.size + 1 > maxOrphanBlocks
  · have herase : pool.orphans.erase q.hash = pool.orphans := by
      refine ext' fun k => ?_
      rw [getElem?_erase']
      split_ifs with hk
      · rw [← hk, hs.absent]
      · rfl
    rw [if_pos hfull, hs.pointer]
    have horphans : (pool.orphans.erase q.hash).insert block.hash ⟨block, hour⟩ =
        pool.orphans.insert block.hash ⟨block, hour⟩ := by rw [herase]
    exact ⟨_, rfl, horphans, fun hlt => by omega⟩
  · rw [if_neg hfull]
    refine ⟨_, rfl, rfl, fun _ hne => ?_⟩
    exact ⟨hs.consistent.insert (o := ⟨block, hour⟩) hnew, expiration_insert hs.expiration,
      hs.pointer, (getElem?_insert pool _ _).trans ((if_neg hne).trans hs.absent)⟩

/-- Removing the block that the pointer is to does not move the pointer. -/
theorem Pointed.stale (h : Pointed pool) (hq : pool.oldestOrphan = some q) :
    Stale q (pool.removeOrphanBlock q) := by
  refine ⟨h.consistent.removeOrphanBlock (.of_mem (h.pointer q hq)), fun o ho => ?_, hq,
    (getElem?_removeOrphanBlock pool q _).trans (if_pos rfl)⟩
  rw [getElem?_removeOrphanBlock] at ho
  split_ifs at ho
  exact h.expiration o ho

/-- The pool gets larger than its bound when the block that the pointer is to leaves it: the pool
fills up, that block is removed, another one takes its place, and it comes again. -/
theorem overflows {blocks : List Block} {b₁ b₂ : Block} (hlen : blocks.length + 1 = maxOrphanBlocks)
    (hnodup : ((b₁ :: b₂ :: blocks).map Block.hash).Nodup) :
    ∃ pool, Run Call.Promised pool ∧ pool.orphans.size = maxOrphanBlocks + 1 := by
  rw [map_cons, map_cons, nodup_cons, nodup_cons, mem_cons, not_or] at hnodup
  obtain ⟨⟨h12, h1⟩, h2, hrest⟩ := hnodup
  have hmax : maxOrphanBlocks = 100 := rfl
  -- the pool fills up, and the pointer is to one of its blocks
  obtain ⟨pool, hrun, hpointed, hsize, hget⟩ := Run.fill (fun _ hnew => hnew)
    (.empty : Run Call.Promised empty) pointed_empty hrest (fun b _ => getElem?_empty b.hash) (by
      simp only [empty, Std.ExtTreeMap.size_empty]
      omega)
  have hsize : pool.orphans.size = blocks.length := hsize.trans (Nat.zero_add _)
  have hnew₁ : pool.orphans[b₁.hash]? = none := (hget _ h1).trans (getElem?_empty _)
  obtain ⟨pool₁, hadd₁, horphans₁, hpointer, hpointed₁⟩ := hpointed.add hnew₁ (by omega)
  have hsize₁ := size_of_insert hnew₁ horphans₁
  obtain ⟨q, hq⟩ := exists_oldest (show 0 < pool.orphans.size by omega)
  rw [← hpointer] at hq
  have hmem := hpointed₁.pointer q hq
  -- that block is removed
  have hstale := hpointed₁.stale hq
  have hsize₂ := size_removeOrphanBlock hmem
  -- another one comes
  have hnew₂ : pool₁.orphans[b₂.hash]? = none := by
    rw [horphans₁, getElem?_insert', if_neg h12, hget _ h2, getElem?_empty]
  have hne : b₂.hash ≠ q.hash := fun heq => by
    rw [heq, hmem] at hnew₂
    cases hnew₂
  have hnew₂' : (pool₁.removeOrphanBlock q).orphans[b₂.hash]? = none := by
    rw [getElem?_removeOrphanBlock, hnew₂, ite_self]
  have hhour := hpointed₁.expiration q hmem
  obtain ⟨pool₃, hadd₃, horphans₃, hstale₃⟩ := hstale.addOrphanBlock hhour hnew₂'
  have hsize₃ := size_of_insert hnew₂' horphans₃
  replace hstale₃ := hstale₃ (by omega) hne
  -- and the one that was removed comes again
  obtain ⟨pool₄, hadd₄, horphans₄, -⟩ := hstale₃.addOrphanBlock hhour hstale₃.absent
  have hsize₄ := size_of_insert hstale₃.absent horphans₄
  have hrun₁ := Run.call (.addOrphanBlock _ stopped 0 b₁) hrun (Perm.refl _) hnew₁ hadd₁
  have hrun₂ := Run.call (.removeOrphanBlock q) hrun₁ trivial (.of_mem hmem) rfl
  have hrun₃ := Run.call (.addOrphanBlock _ stopped 0 b₂) hrun₂ (Perm.refl _) hnew₂' hadd₃
  refine ⟨pool₄, .call (.addOrphanBlock _ stopped 0 q.block) hrun₃ (Perm.refl _) hstale₃.absent
    hadd₄, ?_⟩
  omega

/-- A run after which the pool has more blocks than its bound. -/
theorem bounded_of_run_fails : ∃ pool, Run (fun pool call => call.Promised pool) pool ∧
    ¬ pool.orphans.size ≤ maxOrphanBlocks := by
  have hblocks : Sample.block 0 :: Sample.block 1 :: (List.range' 2 99).map Sample.block =
      (List.range (maxOrphanBlocks + 1)).map Sample.block := rfl
  have hnodup : ((Sample.block 0 :: Sample.block 1 :: (List.range' 2 99).map Sample.block).map
      Block.hash).Nodup := by
    rw [hblocks, List.map_map]
    exact Sample.nodup_hash
  obtain ⟨pool, hrun, hsize⟩ := overflows (by simp [maxOrphanBlocks]) hnodup
  refine ⟨pool, hrun, ?_⟩
  omega

/-! ## The pool of a block tree -/

/-- The list has the blocks of the pool, those of one parent in the order of the index. -/
def Lists (pool : OrphanPool) (blocks : List Block) : Prop :=
  pool.Consistent ∧ ∀ h, (GroupIndex.group pool.prevOrphans h).map OrphanBlock.block =
    blocks.filter fun b => b.header.prevBlock == h

section Lists

variable {blocks : List Block}

/-- The next orphan that `processOrphans` takes is the same. -/
theorem Lists.find? (h : pool.Lists blocks) (hash : Hash) :
    blocks.find? (fun b => b.header.prevBlock == hash) =
      (GroupIndex.group pool.prevOrphans hash).head?.map OrphanBlock.block := by
  rw [← head?_filter, ← h.2, head?_map]

/-- Removing an orphan leaves what `BlockTree.removeOrphanBlock` leaves. -/
theorem Lists.removeOrphanBlock (h : pool.Lists blocks) (hknows : pool.Knows orphan) :
    (pool.removeOrphanBlock orphan).Lists (blocks.filter fun b => b.hash != orphan.hash) := by
  refine ⟨h.1.removeOrphanBlock hknows, fun k => ?_⟩
  rw [filter_comm, ← h.2, filter_map, Function.comp_def, OrphanPool.removeOrphanBlock,
    GroupIndex.group_remove]
  split_ifs with hk
  · rw [hk]
    refine congrArg (map _) (filter_congr fun o _ => Bool.eq_iff_iff.2 ?_)
    exact decide_eq_true_iff.trans bne_iff_ne.symm
  · -- no orphan of another parent has the hash
    rw [filter_eq_self.2 fun o ho => ?_]
    obtain ⟨hprev, hpool⟩ := (h.1.mem_iff k o).1 ho
    have hne : o.hash ≠ orphan.hash := fun heq => hk (by
      rw [heq] at hpool
      rw [← hknows o hpool, hprev])
    exact bne_iff_ne.2 hne

theorem Lists.insert (h : pool.Lists blocks) (hnew : pool.orphans[o.hash]? = none) :
    (pool.insert o).Lists (blocks ++ [o.block]) := by
  refine ⟨h.1.insert hnew, fun k => ?_⟩
  rw [OrphanPool.insert, GroupIndex.group_add, filter_append, ← h.2, OrphanBlock.prevHash]
  by_cases hk : o.block.header.prevBlock = k <;> simp [hk]

theorem mem_older {oldest : Option OrphanBlock} {q : OrphanBlock} (h : q ∈ older oldest o) :
    q = o ∨ q ∈ oldest := by
  cases oldest with
  | none => exact .inl (Option.some.inj h).symm
  | some p =>
    rw [older] at h
    split_ifs at h
    · exact .inl (Option.some.inj h).symm
    · exact .inr h

/-- What the sweep leaves of the list, and the pointer is to a known block still. -/
theorem Lists.sweep {clock : Hash → Int} {order : List OrphanBlock} (h : pool.Lists blocks)
    (horder : ∀ q ∈ order, pool.Knows q) (holdest : ∀ q ∈ pool.oldestOrphan, pool.Knows q) :
    ∃ keep, (pool.sweep clock order).Lists (blocks.filter keep) ∧
      ∀ q ∈ (pool.sweep clock order).oldestOrphan, (pool.sweep clock order).Knows q := by
  induction order generalizing pool blocks with
  | nil => exact ⟨fun _ => true, by rwa [filter_true], holdest⟩
  | cons p order ih =>
    obtain ⟨hp, horder⟩ := forall_mem_cons.1 horder
    have hremove {q : OrphanBlock} (hq : pool.Knows q) : (pool.removeOrphanBlock p).Knows q := by
      intro o ho
      rw [getElem?_removeOrphanBlock] at ho
      split_ifs at ho
      exact hq o ho
    rw [OrphanPool.sweep, foldl_cons, visit]
    split
    · obtain ⟨keep, hkeep⟩ := ih (h.removeOrphanBlock hp) (fun q hq => hremove (horder q hq))
        fun q hq => hremove (holdest q hq)
      rw [filter_filter] at hkeep
      exact ⟨_, hkeep⟩
    · refine ih h horder fun q hq => ?_
      rcases mem_older hq with rfl | hq
      · exact hp
      · exact holdest q hq

/-- **The pool of a block tree**: `addOrphanBlock` does the same to both, for the blocks that the
sweep and the eviction leave. -/
theorem Lists.addOrphanBlock {t : BlockTree} {clock : Hash → Int} {order : List OrphanBlock}
    {now : Int} {block : Block} (h : pool.Lists t.orphans) (horder : order.Perm pool.values)
    (holdest : ∀ q ∈ pool.oldestOrphan, pool.Knows q)
    (hnew : block.hash ∉ t.orphans.map Block.hash)
    (hadd : pool.addOrphanBlock order clock now block = .ok pool') :
    ∃ keep, pool'.Lists (Prog.exec (BlockTree.addOrphanBlock keep block) t).2.orphans := by
  obtain ⟨pool₂, hevict, hinsert⟩ := bind_eq_ok.1 hadd
  obtain ⟨keep₁, hswept, hknows⟩ := h.sweep
    (fun q hq => .of_mem (h.1.mem_values.1 (horder.mem_iff.1 hq))) holdest
  obtain ⟨keep, hleft⟩ : ∃ keep, pool₂.Lists (t.orphans.filter keep) := by
    rw [evict] at hevict
    split at hevict
    · split at hevict
      · cases hevict
      · rename_i q hq
        cases hevict
        have hremoved := hswept.removeOrphanBlock (hknows q hq)
        rw [filter_filter] at hremoved
        exact ⟨_, hremoved⟩
    · cases hevict
      exact ⟨keep₁, hswept⟩
  cases hinsert
  refine ⟨keep, hleft.insert (Option.eq_none_iff_forall_ne_some.2 fun o ho => hnew ?_)⟩
  -- a block of the pool with the hash would be in the list
  have hhash := hleft.1.keyed _ o ho
  have hmem := mem_map_of_mem (f := OrphanBlock.block)
    ((hleft.1.mem_iff _ o).2 ⟨rfl, by rw [hhash]; exact ho⟩)
  rw [hleft.2] at hmem
  exact mem_map.2 ⟨_, (mem_filter.1 (mem_filter.1 hmem).1).1, hhash⟩

end Lists

end OrphanPool

end Obtcd
