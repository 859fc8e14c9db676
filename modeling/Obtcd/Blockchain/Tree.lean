import Obtcd.Blockchain.Extend
import Obtcd.Blockchain.Moves

/-!
# The block index over whole runs

`ProcessBlock`, `InvalidateBlock` and `ReconsiderBlock` can fail at any point, after nodes have been
added or marked.  However the calls of a run end, the index stays a tree that grows: a node stays as
it is, with its work, and from each node the parents lead to the genesis block, one height lower at
each step and never with more work (`Rooted`).

The methods of the chain move its tip and mark nodes, but neither add nor drop one (`SameNodes`).
Those that verify a reorganization do still less (`Frame`).  Nodes come from `maybeAcceptBlock`,
which overwrites none, since no orphan has the hash of a node.

An orphan whose parent arrives is tried in the same call.  So as long as no call fails, the parents
of the orphans are missing (`Waiting`).
-/

namespace Obtcd

open Prog (Keeps exec exec_get_bind exec_modify_bind bind_at require_bind_at ofExcept_bind_at)

namespace BlockChain

variable (cfg : Config) (v : UtxoViewpoint) (n : BlockNode) (block : Block)

/-! ## Verifying a reorganization -/

theorem keeps_fetchInputUtxos : Keeps Frame (fetchInputUtxos v block) := by
  refine .bind (.ofExcept _) fun needed => ?_
  refine .bind .get fun s => ?_
  exact .bind (keeps_fetchEntries _) fun _ => .pure _

/-- The nodes of a branch that is known to be invalid are marked. -/
theorem keeps_getReorganizeNodes (ancestors : List BlockNode) :
    Keeps Frame (getReorganizeNodes n ancestors) := by
  have hmark (hash : Hash) : Keeps Frame (setStatusFlags hash { invalidAncestor := true }) :=
    keeps_setStatusFlags _ _
  refine .bind .get fun s => .ite ?_ (.ite ?_ (.pure _))
  · exact .bind (hmark n.hash) fun _ => .pure _
  · exact .bind (.forM (fun n : BlockNode => hmark n.hash) _) fun _ => .pure _

theorem keeps_verifyDetach (ns : List BlockNode) : Keeps Frame (verifyDetach v ns) := by
  induction ns generalizing v with
  | nil => exact .pure _
  | cons n ns ih =>
    refine .bind (keeps_dbFetchBlockByNode n) fun block => ?_
    refine .bind (.require _ _) fun _ => ?_
    refine .bind (keeps_fetchInputUtxos _ block) fun v => ?_
    refine .bind (keeps_dbFetchSpendJournalEntry block) fun stxos => ?_
    refine .bind .get fun s => .bind (.ofExcept _) fun r => ?_
    exact .bind (ih r.1) fun _ => .pure _

/-- A block that breaks a rule is marked, and so is what comes after it. -/
theorem keeps_markInvalid (ns : List BlockNode) (e : GoError) : Keeps Frame (markInvalid n ns e) := by
  refine .ite (.bind (keeps_setStatusFlags _ _) fun _ => ?_) (.pure _)
  exact .forM (fun _ => keeps_setStatusFlags _ _) ns

theorem keeps_verifyNode (ns : List BlockNode) : Keeps Frame (verifyNode cfg v n block ns) := by
  refine .bind .get fun s => .ite ?_ ?_
  · -- a block that is known to be valid is only connected to the view
    refine .bind (keeps_fetchInputUtxos v block) fun v => ?_
    exact .bind (.ofExcept _) fun _ => .pure _
  · have hcheck := keeps_checkConnectBlock cfg n block v
    refine .bind (.onError hcheck (keeps_markInvalid n ns)) fun r => ?_
    exact .bind (keeps_setStatusFlags _ _) fun _ => .pure _

theorem keeps_verifyAttach (ns : List BlockNode) : Keeps Frame (verifyAttach cfg v ns) := by
  induction ns generalizing v with
  | nil => exact .pure _
  | cons n ns ih =>
    refine .bind (keeps_dbFetchBlockByNode n) fun block => ?_
    refine .bind (keeps_verifyNode cfg v n block ns) fun v => ?_
    exact .bind (ih v) fun _ => .pure _

variable (detachNodes attachNodes : List BlockNode)

theorem keeps_verifyReorganizationValidity :
    Keeps Frame (verifyReorganizationValidity cfg detachNodes attachNodes) := by
  refine .bind .get fun s => ?_
  refine .bind (.require _ _) fun _ => .bind (.require _ _) fun _ => ?_
  refine .bind (keeps_verifyDetach _ detachNodes) fun r => ?_
  exact .bind (keeps_verifyAttach cfg r.1 attachNodes) fun _ => .pure _

/-- **A reorganization that does not pass verification** fails with the error of the verification,
and leaves only marks and loaded entries: the database, the best chain and every lookup are as
before. -/
theorem refused_reorganization {s s' : BlockChain} {e : GoError}
    (h : exec (verifyReorganizationValidity cfg detachNodes attachNodes) s = (.error e, s')) :
    exec (reorganizeChain cfg detachNodes attachNodes) s = (.error e, s') ∧ Frame s s' := by
  have hframe := keeps_verifyReorganizationValidity cfg detachNodes attachNodes s
  rw [h] at hframe
  refine ⟨?_, hframe⟩
  rw [reorganizeChain, Prog.exec_bind, h]

namespace Regtest

/-- A block beside the tip. -/
def rival : Block := coinbaseBlock Hash.zero 109 [0x51]

/-- A block on top of it whose coinbase pays more than there is to pay. -/
def greedy : Block :=
  let block := coinbaseBlock rival.hash 110 [0x51]
  { block with transactions := block.transactions.map fun tx => { tx with txOut := [⟨maxSatoshi, []⟩] } }

/-- Both have been stored. -/
def forked : BlockChain :=
  { chain with db := { chain.db with
    blocks := (chain.db.blocks.insert rival.hash rival).insert greedy.hash greedy } }

/-- The reorganization to them. -/
abbrev refusal : Except GoError Unit × BlockChain :=
  exec (reorganizeChain config [BlockNode.ofBlock parent]
    [BlockNode.ofBlock rival, BlockNode.ofBlock greedy]) forked

end Regtest

open Regtest in
/-- The first block is found valid and the second is refused. -/
theorem refused_reorganization_greedy : refusal.1 = .error (.rule .errBadCoinbaseValue
      ("coinbase transaction for block pays 2100000000000000 which is more than " ++
        "expected value of 5000000000")) ∧
    (refusal.2.status rival.hash).valid = true ∧
    (refusal.2.status greedy.hash).validateFailed = true ∧ Frame forked refusal.2 := by
  have hfails : (exec (verifyReorganizationValidity config [BlockNode.ofBlock parent]
    [BlockNode.ofBlock rival, BlockNode.ofBlock greedy]) forked).1.isOk = false := by decide +kernel
  rcases h : exec (verifyReorganizationValidity config [BlockNode.ofBlock parent]
    [BlockNode.ofBlock rival, BlockNode.ofBlock greedy]) forked with ⟨e | _, s'⟩
  · obtain ⟨hrun, hframe⟩ := refused_reorganization config _ _ h
    refine ⟨by decide +kernel, by decide +kernel, by decide +kernel, ?_⟩
    rwa [refusal, hrun]
  · rw [h] at hfails
    cases hfails

/-! ## The nodes -/

/-- No node has come or gone. -/
def SameNodes (s s' : BlockChain) : Prop := s'.index = s.index

instance : Std.Refl SameNodes := ⟨fun _ => rfl⟩

instance : IsTrans BlockChain SameNodes := ⟨fun _ _ _ hab hbc => hbc.trans hab⟩

theorem same_of_frame {α : Type} {x : ChainM α} (hx : Keeps Frame x) : Keeps SameNodes x :=
  fun s => (hx s).index

theorem same_setStatusFlags (hash : Hash) (flags : BlockStatus) :
    Keeps SameNodes (setStatusFlags hash flags) := .modify fun _ => rfl

theorem same_unsetStatusFlags (hash : Hash) (flags : BlockStatus) :
    Keeps SameNodes (unsetStatusFlags hash flags) := .modify fun _ => rfl

theorem same_flushToDB : Keeps SameNodes flushToDB := .modify fun _ => rfl

theorem same_connectTransactions : Keeps SameNodes (connectTransactions block) := by
  refine .bind (.ofExcept _) fun height => .bind .get fun s => ?_
  -- only the cache is worked on
  exact .focus (Q := fun _ _ => True) (fun _ => trivial) fun _ _ _ => rfl

theorem same_connectBlock (stxos : List SpentTxOut) :
    Keeps SameNodes (connectBlock cfg n block stxos) := by
  intro s
  rcases hrun : exec (connectBlock cfg n block stxos) s with ⟨_ | _, s'⟩
  exacts [(connectBlock_error hrun).index, (connectBlock_ok hrun).2.index]

theorem same_disconnectBlock : Keeps SameNodes (disconnectBlock cfg n block v) := by
  intro s
  rcases hrun : exec (disconnectBlock cfg n block v) s with ⟨_ | _, s'⟩
  · exact (disconnectBlock_error hrun).index
  · obtain ⟨-, p, below, -, hstill⟩ := disconnectBlock_ok hrun
    exact hstill.index

theorem same_detachBlocks (l : List (BlockNode × Block × List SpentTxOut)) :
    Keeps SameNodes (detachBlocks cfg v l) := by
  induction l generalizing v with
  | nil => exact .pure _
  | cons entry rest ih =>
    obtain ⟨n, block, stxos⟩ := entry
    refine .bind (same_of_frame (keeps_fetchInputUtxos v block)) fun v => ?_
    refine .bind .get fun s => .bind (.ofExcept _) fun r => ?_
    exact .bind (same_disconnectBlock cfg _ n block) fun v => ih v

theorem same_attachBlocks (l : List (BlockNode × Block)) :
    Keeps SameNodes (attachBlocks cfg l) := by
  induction l with
  | nil => exact .pure _
  | cons entry rest ih =>
    obtain ⟨n, block⟩ := entry
    refine .bind (.bind (.onError ?_ fun e => same_of_frame (keeps_markFailed n e)) fun r => ?_)
      fun _ => ih
    · exact .bind .get fun _ => .ofExcept _
    · exact .bind (same_connectTransactions block) fun _ => same_connectBlock cfg n block _

theorem same_reorganizeChain : Keeps SameNodes (reorganizeChain cfg detachNodes attachNodes) := by
  have hverify := keeps_verifyReorganizationValidity cfg detachNodes attachNodes
  refine .bind (same_of_frame hverify) fun r => .bind .get fun s => ?_
  exact .bind (same_detachBlocks cfg _ _) fun _ => same_attachBlocks cfg _

theorem same_reorganizeTo (ancestors : List BlockNode) :
    Keeps SameNodes (reorganizeTo cfg n ancestors) := by
  refine .bind (same_of_frame (keeps_getReorganizeNodes n ancestors)) fun r => ?_
  -- the marks are written to the database also if the reorganization fails
  exact .bind (.onError (same_reorganizeChain cfg _ _) fun _ => same_flushToDB) fun _ =>
    same_flushToDB

theorem same_connectBestChain (ancestors : List BlockNode) (fastAdd : Bool) :
    Keeps SameNodes (connectBestChain cfg n ancestors block fastAdd) := by
  refine .bind .get fun s => .ite (.bind (.bind .get fun s => ?_) fun _ => .pure _)
    (.ite (.pure _) (.bind (same_reorganizeTo cfg n ancestors) fun _ => .pure _))
  -- the block extends the best chain
  have hmarked (e : GoError) : Keeps SameNodes (markFailed n e >>= fun _ => flushToDB) :=
    .bind (same_of_frame (keeps_markFailed n e)) fun _ => same_flushToDB
  refine .bind (same_of_frame (keeps_validateTip cfg n block _)) fun r => ?_
  refine .bind (.onError ?_ fun e => same_of_frame (keeps_failTip n e)) fun r => ?_
  · exact .bind .get fun _ => .ofExcept _
  refine .bind (same_connectTransactions block) fun _ => ?_
  refine .bind (.onError (same_connectBlock cfg n block _) hmarked) fun _ => ?_
  exact .bind .get fun _ => .ite (.bind (same_setStatusFlags _ _) fun _ => same_flushToDB) (.pure _)

theorem same_invalidateActive (ns : List BlockNode) : Keeps SameNodes (invalidateActive ns) := by
  induction ns with
  | nil => exact .pure _
  | cons n ns ih =>
    refine .bind .get fun s => .ite ih ?_
    refine .bind (same_setStatusFlags _ _) fun _ => .bind (same_unsetStatusFlags _ _) fun _ => ?_
    exact .bind ih fun _ => .pure _

/-- On each branch that has the node, the nodes after it are marked until one is already. -/
theorem same_invalidateSide (tips : List BlockNode) : Keeps SameNodes (invalidateSide n tips) := by
  refine .forM (fun tip => .bind .get fun s => .ite ?_ (.pure _)) tips
  refine .forM (fun n => .bind .get fun s => .ite (.pure _) ?_) _
  exact .bind (same_setStatusFlags _ _) fun _ => same_unsetStatusFlags _ _

theorem same_invalidateBlock (o : MapOrder) (hash : Hash) :
    Keeps SameNodes (invalidateBlock cfg o hash) := by
  refine .bind .get fun s => ?_
  split
  · exact .throw _
  refine .ite (.throw _) (.ite (.pure _) ?_)
  refine .bind (same_setStatusFlags _ _) fun _ => .bind (same_unsetStatusFlags _ _) fun _ => ?_
  refine .ite ?_ (.bind (same_invalidateSide _ _) fun _ => same_flushToDB)
  -- the block is on the best chain, which goes back to its parent and then to the best other tip
  refine .bind (same_invalidateActive _) fun _ => .bind (same_reorganizeChain cfg _ _) fun _ => ?_
  refine .bind same_flushToDB fun _ => .bind .get fun s => ?_
  split
  · exact .throw _
  · exact .ite (.pure _) (same_reorganizeTo cfg _ _)

theorem same_reconsiderTips (r : Option BlockNode) (tips : List BlockNode) :
    Keeps SameNodes (reconsiderTips n r tips) := by
  induction tips generalizing r with
  | nil => exact .pure _
  | cons tip tips ih =>
    refine .bind .get fun s => .ite ?_ (.ite (ih _) (ih _))
    exact .bind (.forM (fun _ => same_unsetStatusFlags _ _) _) fun _ => ih _

theorem same_reconsiderBlock (o : MapOrder) (hash : Hash) :
    Keeps SameNodes (reconsiderBlock cfg o hash) := by
  refine .bind .get fun s => ?_
  split
  · exact .throw _
  refine .ite (.pure _) ?_
  refine .bind (same_unsetStatusFlags _ _) fun _ => .bind (same_unsetStatusFlags _ _) fun _ => ?_
  refine .bind (same_reconsiderTips _ _ _) fun tip => ?_
  split
  · exact .throw _
  refine .bind .get fun s => .ite (.pure _) ?_
  refine .bind (same_of_frame (keeps_getReorganizeNodes _ _)) fun r => ?_
  have hverify := keeps_verifyReorganizationValidity cfg r.1 r.2
  refine .bind (.attempt (same_of_frame hverify)) fun verified => ?_
  split
  · exact .throw _
  · exact same_flushToDB
  · exact .bind same_flushToDB fun _ => same_reorganizeChain cfg _ _

end BlockChain

namespace BlockTree

variable {g hash : Hash} {n : BlockNode} {t t' : BlockTree} {block : Block}

/-- A node from which the parents lead to the block `g`. -/
inductive Rooted (t : BlockTree) (g : Hash) : Hash → BlockNode → Prop where
  | genesis {n : BlockNode} (h : t.chain.index[g]? = some n) : Rooted t g g n
  | child {n p : BlockNode} (h : t.chain.index[n.hash]? = some n) (hp : Rooted t g n.parent p)
      (height : n.height = p.height + 1) (work : t.work n.parent ≤ t.work n.hash) :
      Rooted t g n.hash n

/-- The nodes of `t` are there in `t'`, with their work. -/
def Extends (t t' : BlockTree) : Prop := ∀ hash n, t.chain.index[hash]? = some n →
  t'.chain.index[hash]? = some n ∧ t'.work hash = t.work hash

/-- All nodes hang together, and no orphan is one of them. -/
structure Grown (g : Hash) (t : BlockTree) : Prop where
  rooted : ∀ hash n, t.chain.index[hash]? = some n → Rooted t g hash n
  orphan : ∀ b ∈ t.orphans, t.chain.index[b.hash]? = none

theorem Rooted.getElem? (h : Rooted t g hash n) : t.chain.index[hash]? = some n := by
  cases h <;> assumption

theorem Rooted.mono (h : Rooted t g hash n) (ht : Extends t t') : Rooted t' g hash n := by
  induction h with
  | genesis h => exact .genesis (ht _ _ h).1
  | child h hp height work ih =>
    refine .child (ht _ _ h).1 ih height ?_
    rwa [(ht _ _ h).2, (ht _ _ hp.getElem?).2]

/-- A step of a tree that has grown. -/
def Grows (g : Hash) (t t' : BlockTree) : Prop := Grown g t → Grown g t' ∧ Extends t t'

instance : Std.Refl (Grows g) := ⟨fun _ h => ⟨h, fun _ _ hn => ⟨hn, rfl⟩⟩⟩

instance : IsTrans BlockTree (Grows g) where
  trans _ _ _ hab hbc h := by
    obtain ⟨hb, hext⟩ := hab h
    obtain ⟨hc, hext'⟩ := hbc hb
    exact ⟨hc, fun hash n hn => ⟨(hext' _ _ (hext _ _ hn).1).1,
      (hext' _ _ (hext _ _ hn).1).2.trans (hext _ _ hn).2⟩⟩

theorem grows_onChain {α : Type} {x : ChainM α} (hx : Keeps BlockChain.SameNodes x) :
    Keeps (Grows g) (onChain x) := by
  refine .focus hx fun t s hs h => ?_
  have hext : Extends t { t with chain := s } := fun hash n hn => ⟨hs ▸ hn, rfl⟩
  exact ⟨⟨fun hash n hn => (h.rooted hash n (hs ▸ hn)).mono hext,
    fun b hb => (congrArg (·[b.hash]?) hs).trans (h.orphan b hb)⟩, hext⟩

theorem grows_orphans {l : List Block} (hl : ∀ b ∈ l, t.chain.index[b.hash]? = none) :
    Grows g t { t with orphans := l } := fun h =>
  have hext : Extends t { t with orphans := l } := fun _ _ hn => ⟨hn, rfl⟩
  ⟨⟨fun hash n hn => (h.rooted hash n hn).mono hext, hl⟩, hext⟩

theorem grows_addNode {p : BlockNode} (hp : t.chain.index[block.header.prevBlock]? = some p)
    (hheight : block.height = p.height + 1) (hnew : t.chain.index[block.hash]? = none)
    (horphan : ∀ b ∈ t.orphans, b.hash ≠ block.hash) : Grows g t (t.addNode block) := by
  intro h
  have hne {hash : Hash} {n : BlockNode} (hn : t.chain.index[hash]? = some n) :
      block.hash ≠ hash := by
    rintro rfl
    rw [hnew] at hn
    cases hn
  have hext : Extends t (t.addNode block) := fun hash n hn => by
    simp [addNode, work, hne hn, hn]
  refine ⟨⟨fun hash n hn => ?_, fun b hb => ?_⟩, hext⟩
  · rw [addNode, OrdMap.getElem?_insert'] at hn
    split_ifs at hn with heq
    · subst heq
      cases hn
      refine Rooted.child (n := BlockNode.ofBlock block) (by simp [addNode, BlockNode.ofBlock])
        ((h.rooted _ _ hp).mono hext) hheight ?_
      simp [addNode, work, BlockNode.ofBlock, hne hp]
    · exact (h.rooted _ _ hn).mono hext
  · simpa [addNode, (horphan b hb).symm] using h.orphan b hb

variable (rules : ArrivalRules) (cfg : Config) (flags : BehaviorFlags)

theorem grows_maybeAcceptBlock (hnew : t.chain.index[block.hash]? = none)
    (horphan : ∀ b ∈ t.orphans, b.hash ≠ block.hash) :
    Grows g t (exec (maybeAcceptBlock rules cfg block flags) t).2 := by
  rw [maybeAcceptBlock, exec_get_bind]
  split
  · exact Std.Refl.refl t
  rename_i p hp
  refine require_bind_at fun _ => ofExcept_bind_at fun _ => ?_
  rw [exec_modify_bind]
  have hadd : Grows g t (t.addNode { block with height := p.height + 1 }) :=
    grows_addNode hp rfl hnew horphan
  exact IsTrans.trans _ _ _ hadd
    (Keeps.bind (grows_onChain BlockChain.same_flushToDB) (fun _ => .bind .get fun t =>
      grows_onChain (BlockChain.same_connectBestChain (t.config cfg) _ _ _ _)) _)

theorem grows_processOrphans (rounds : Nat) : ∀ hashes,
    Keeps (Grows g) (processOrphans rules cfg flags rounds hashes) := by
  induction rounds with
  | zero => exact fun _ => .pure _
  | succ rounds ih =>
    rintro (_ | ⟨hash, hashes⟩) t
    · exact Std.Refl.refl t
    rw [processOrphans, exec_get_bind]
    split
    · exact ih hashes t
    rename_i orphan hfind
    intro ht
    rw [removeOrphanBlock, exec_modify_bind]
    refine IsTrans.trans _ _ _ (grows_orphans fun b hb => ht.orphan b (List.mem_filter.1 hb).1)
      (bind_at (grows_maybeAcceptBlock rules cfg flags
        (ht.orphan orphan (List.mem_of_find?_eq_some hfind)) fun b hb => ?_) fun _ => ih _) ht
    simpa using (List.mem_filter.1 hb).2

theorem grows_processBlock (keep : Block → Bool) :
    Keeps (Grows g) (processBlock rules cfg keep block flags) := by
  intro t
  rw [processBlock, exec_get_bind]
  refine require_bind_at fun hnew => require_bind_at fun horphan =>
    ofExcept_bind_at fun _ => ofExcept_bind_at fun _ => ?_
  have hnew := Option.isNone_iff_eq_none.1 hnew
  split_ifs
  · rw [addOrphanBlock, exec_modify_bind]
    intro ht
    refine grows_orphans (fun b hb => ?_) ht
    rcases List.mem_append.1 hb with hb | hb
    · exact ht.orphan b (List.mem_filter.1 hb).1
    · rwa [List.mem_singleton.1 hb]
  · exact bind_at (grows_maybeAcceptBlock rules cfg flags hnew fun b hb heq =>
      horphan (List.mem_map.2 ⟨b, hb, heq⟩)) fun _ => .bind .get fun _ =>
      .bind (grows_processOrphans rules cfg flags _ _) fun _ => .pure _

theorem grows_call (call : Call) : Keeps (Grows g) (call.run rules cfg) := by
  cases call with
  | processBlock keep block flags =>
    exact .bind (grows_processBlock rules cfg flags keep) fun _ => .pure _
  | invalidateBlock order hash =>
    exact .bind .get fun t => grows_onChain (BlockChain.same_invalidateBlock _ order hash)
  | reconsiderBlock order hash =>
    exact .bind .get fun t => grows_onChain (BlockChain.same_reconsiderBlock _ order hash)

/-- The state after some calls, whatever they answer.  The rules read the clock, so each call has
its own. -/
def run (calls : List (ArrivalRules × Call)) (t : BlockTree) : BlockTree :=
  calls.foldl (fun t call => (exec (call.2.run call.1 cfg) t).2) t

/-- **The block index stays a tree that grows**, over any run of calls, those that fail included. -/
theorem tree_of_run (calls : List (ArrivalRules × Call)) (h : Grown g t) :
    Grown g (run cfg calls t) ∧ Extends t (run cfg calls t) := by
  suffices hgrows : ∀ t, Grows g t (run cfg calls t) from hgrows t h
  induction calls with
  | nil => exact fun t => Std.Refl.refl t
  | cons call calls ih =>
    exact fun t => IsTrans.trans _ _ _ (grows_call call.1 cfg call.2 t) (ih _)

/-! ## Orphans -/

/-- No orphan has its parent in the index. -/
def Waiting (t : BlockTree) : Prop := ∀ b ∈ t.orphans, t.chain.index[b.header.prevBlock]? = none

/-- The orphans are the same, and what is new in the index satisfies `p`. -/
def Adds (p : Hash → Prop) (t t' : BlockTree) : Prop :=
  t'.orphans = t.orphans ∧ ∀ h, ¬ p h → t.chain.index[h]? = none → t'.chain.index[h]? = none

section

variable {p : Hash → Prop}

instance : Std.Refl (Adds p) := ⟨fun _ => ⟨rfl, fun _ _ h => h⟩⟩

instance : IsTrans BlockTree (Adds p) where
  trans _ _ _ hab hbc := ⟨hbc.1.trans hab.1, fun h hp hn => hbc.2 h hp (hab.2 h hp hn)⟩

theorem adds_onChain {α : Type} {x : ChainM α} (hx : Keeps BlockChain.SameNodes x) :
    Keeps (Adds p) (onChain x) :=
  .focus hx fun _ _ hs => ⟨rfl, fun h _ hn => (congrArg (·[h]?) hs).trans hn⟩

end

theorem adds_maybeAcceptBlock (block : Block) :
    Keeps (Adds (· = block.hash)) (maybeAcceptBlock rules cfg block flags) := by
  refine .bind .get fun t => ?_
  split
  · exact .throw _
  refine .bind (.require _ _) fun _ => .bind (.ofExcept _) fun _ => .bind
    (.modify fun t => ⟨rfl, fun h hne hn => ?_⟩) fun _ =>
    .bind (adds_onChain BlockChain.same_flushToDB) fun _ => .bind .get fun t =>
    adds_onChain (BlockChain.same_connectBestChain (t.config cfg) _ _ _ _)
  exact (OrdMap.getElem?_insert' _ _ _ _).trans ((if_neg (Ne.symm hne)).trans hn)

/-- The rounds are enough for all orphans that a list of hashes leads to. -/
theorem waiting_processOrphans {rounds : Nat} {a : Unit} :
    ∀ {hashes : List Hash} {t t' : BlockTree}, 2 * t.orphans.length + hashes.length ≤ rounds →
    (∀ b ∈ t.orphans, t.chain.index[b.header.prevBlock]? = none ∨ b.header.prevBlock ∈ hashes) →
    exec (processOrphans rules cfg flags rounds hashes) t = (.ok a, t') → Waiting t' := by
  induction rounds with
  | zero =>
    intro hashes t t' hle h hrun
    obtain rfl : hashes = [] := List.eq_nil_of_length_eq_zero (by omega)
    cases hrun
    exact fun b hb => (h b hb).resolve_right List.not_mem_nil
  | succ rounds ih =>
    rintro (_ | ⟨hash, hashes⟩) t t' hle h hrun
    · cases hrun
      exact fun b hb => (h b hb).resolve_right List.not_mem_nil
    rw [processOrphans, exec_get_bind] at hrun
    rw [List.length_cons] at hle
    split at hrun
    · rename_i hfind
      refine ih (by omega) (fun b hb => (h b hb).imp_right fun hmem => ?_) hrun
      refine (List.mem_cons.1 hmem).resolve_left fun heq => ?_
      exact List.find?_eq_none.1 hfind b hb (beq_iff_eq.2 heq)
    · rename_i orphan hfind
      rw [removeOrphanBlock, exec_modify_bind] at hrun
      obtain ⟨isMainChain, t₂, haccept, hrun⟩ := Prog.exec_bind_eq_ok.1 hrun
      have hadds := adds_maybeAcceptBlock rules cfg flags orphan
        { t with orphans := t.orphans.filter fun b => b.hash != orphan.hash }
      rw [haccept] at hadds
      have hlt : t₂.orphans.length < t.orphans.length := by
        rw [hadds.1]
        exact List.length_filter_lt_length_iff_exists.2
          ⟨orphan, List.mem_of_find?_eq_some hfind, by simp⟩
      refine ih (by simp; omega) (fun b hb => ?_) hrun
      rw [hadds.1] at hb
      by_cases heq : b.header.prevBlock = orphan.hash
      · exact Or.inr (by simp [heq])
      · exact (h b (List.mem_filter.1 hb).1).imp (hadds.2 _ heq) fun hmem =>
          List.mem_append_left _ hmem

theorem Waiting.processBlock (h : Waiting t) {keep : Block → Bool} {a : Bool × Bool}
    (hrun : exec (processBlock rules cfg keep block flags) t = (.ok a, t')) : Waiting t' := by
  rw [BlockTree.processBlock, exec_get_bind] at hrun
  obtain ⟨-, hrun⟩ := Prog.exec_require_bind_eq_ok.1 hrun
  obtain ⟨-, hrun⟩ := Prog.exec_require_bind_eq_ok.1 hrun
  obtain ⟨-, -, hrun⟩ := Prog.exec_ofExcept_bind_eq_ok.1 hrun
  obtain ⟨-, -, hrun⟩ := Prog.exec_ofExcept_bind_eq_ok.1 hrun
  split_ifs at hrun with hparent
  · cases hrun
    intro b hb
    rcases List.mem_append.1 hb with hb | hb
    · exact h b (List.mem_filter.1 hb).1
    · rw [List.mem_singleton.1 hb]
      exact Option.isNone_iff_eq_none.1 hparent
  · obtain ⟨isMainChain, t₁, haccept, hrun⟩ := Prog.exec_bind_eq_ok.1 hrun
    rw [exec_get_bind] at hrun
    obtain ⟨_, t₂, horphans, hrun⟩ := Prog.exec_bind_eq_ok.1 hrun
    cases hrun
    have hadds := adds_maybeAcceptBlock rules cfg flags block t
    rw [haccept] at hadds
    refine waiting_processOrphans rules cfg flags (by simp) (fun b hb => ?_) horphans
    by_cases heq : b.header.prevBlock = block.hash
    · exact Or.inr (List.mem_singleton.2 heq)
    · exact Or.inl (hadds.2 _ heq (h b (hadds.1 ▸ hb)))

theorem Waiting.onChain (h : Waiting t) {x : ChainM Unit} (hx : Keeps BlockChain.SameNodes x) :
    Waiting (exec (onChain x) t).2 := fun b hb =>
  (adds_onChain (p := fun _ => False) hx t).2 _ id (h b hb)

/-- **No orphan is left behind**: after calls that have all succeeded, the parent of an orphan is
not in the index. -/
theorem waiting_of_run {calls : List (ArrivalRules × Call)} (h : Waiting t) {a : Unit}
    (hrun : exec (calls.forM fun call => call.2.run call.1 cfg) t = (.ok a, t')) : Waiting t' := by
  induction calls generalizing t with
  | nil =>
    cases hrun
    exact h
  | cons call calls ih =>
    obtain ⟨rules, call⟩ := call
    obtain ⟨_, t₁, hcall, hrest⟩ := Prog.exec_bind_eq_ok.1 hrun
    refine ih ?_ hrest
    cases call with
    | processBlock keep block flags =>
      obtain ⟨r, t₂, hprocess, hcall⟩ := Prog.exec_bind_eq_ok.1 hcall
      cases hcall
      exact h.processBlock rules cfg flags hprocess
    | invalidateBlock order hash =>
      cases congrArg Prod.snd hcall
      exact h.onChain (BlockChain.same_invalidateBlock (t.config cfg) order hash)
    | reconsiderBlock order hash =>
      cases congrArg Prod.snd hcall
      exact h.onChain (BlockChain.same_reconsiderBlock (t.config cfg) order hash)

namespace Sample

open BlockChain.Regtest (coinbaseBlock uncommitted parent)

/-- A block with its Merkle root. -/
def rooted (block : Block) : Block :=
  { block with header := { block.header with
    merkleRoot := (block.transactions.map MsgTx.txHash).headD Hash.zero } }

/-- The rejected block. -/
def child : Block := rooted uncommitted

/-- A node that knows one block. -/
def start : BlockTree := ⟨BlockChain.Regtest.chain, ∅, []⟩

def arrival (block : Block) : List (ArrivalRules × Call) :=
  [(⟨fun _ _ => .ok (), fun _ _ _ _ => .ok (), fun _ _ _ => .ok ()⟩,
    .processBlock (fun _ => true) block {})]

theorem grown_start : Grown parent.hash start where
  rooted hash n hn := by
    have hget := hn
    rw [start, BlockChain.Regtest.chain, OrdMap.getElem?_insert'] at hget
    split_ifs at hget with heq
    · subst heq
      exact .genesis hn
    · simp at hget
  orphan b hb := nomatch hb

/-- The block is refused, and has a node. -/
theorem tree_of_run_refused :
    ((run BlockChain.Regtest.config (arrival child) start).chain.index[child.hash]?).isSome ∧
      Grown parent.hash (run BlockChain.Regtest.config (arrival child) start) :=
  ⟨by decide +kernel, (tree_of_run _ _ grown_start).1⟩

/-- A block that waits for that one. -/
def grandchild : Block := rooted (coinbaseBlock child.hash 111 [0x51])

/-- A node without the expiry index, which does not reject the child. -/
def bare : Config :=
  { BlockChain.Regtest.config with indexManager := false, reapPrefixSource := false }

/-- The grandchild waits in the pool until the child arrives, and is then the tip. -/
theorem waiting_of_run_grandchild : (run bare (arrival grandchild) start).orphans = [grandchild] ∧
    ∃ t', exec ((arrival grandchild ++ arrival child).forM fun call => call.2.run call.1 bare) start =
      (.ok (), t') ∧ Waiting t' ∧ t'.chain.bestChain.tip.hash = grandchild.hash :=
  have hrun := Prog.exec_eq_of_fst (by decide +kernel)
  ⟨by decide +kernel, _, hrun, waiting_of_run bare (fun _ hb => absurd hb List.not_mem_nil) hrun,
    by decide +kernel⟩

end Sample

end BlockTree

end Obtcd
