import Obtcd.Blockchain.ReapSpec

/-!
# Who may spend an output

An output can be spent by satisfying its script, or be swept by a REAP transaction once it has
expired.  In an accepted block every transaction should do one or the other (`RunsOrSweeps`).

The script check skips every transaction that looks like a REAP transaction, on any network and at
any height, while the rules that make a sweep a sweep are only on from `EnableAtHeight` of an OBTC
network.  The two gates do not line up, and `runs_or_sweeps_iff` says by how much: an accepted block
is fine exactly if each of its transactions is `Gated`.  `spends_without_script` is a block of the
Bitcoin main network that is not: it takes an output without running any script.
-/

namespace Obtcd

open Chaincfg (Params ExpiryParams getExpiryParams)

/-- The view that a transaction is checked against: loaded for the block from the chain state, with
the transactions `pre` before it connected. -/
def viewBefore (c : Consensus) (s : ChainReads) (node : BlockNode) (block : Block)
    (v : UtxoViewpoint) (pre : List MsgTx) : Except GoError UtxoViewpoint := do
  let loaded ← loadInputs c s node block v
  let (w, _) ← UtxoViewpoint.connectAll node.height loaded pre
  .ok w

/-- The script of an input was among those that were run, under the flags of the block, and
succeeded. -/
def Executed (c : Consensus) (node : BlockNode) (block : Block) (v : UtxoViewpoint)
    (item : TxValidateItem) : Prop :=
  item ∈ blockItems block ∧ ∃ segwit csv taproot,
    c.deploymentActive node.parent .segwit = .ok segwit ∧
    c.deploymentActive node.parent .csv = .ok csv ∧
    c.deploymentActive node.parent .taproot = .ok taproot ∧
    validateItem c.engine v (blockScriptFlags c node block segwit csv taproot) item = .ok ()

/-- A transaction after `pre` either had the scripts of all its inputs run, or is a REAP transaction
of an OBTC network on which the expiry rules are on, and sweeps expired outputs.  `v` is the view
the block was checked with and `v'` the one it left. -/
def RunsOrSweeps (c : Consensus) (s : ChainReads) (node : BlockNode) (block : Block)
    (v v' : UtxoViewpoint) (pre : List MsgTx) (tx : MsgTx) : Prop :=
  (∀ i ti, tx.txIn[i]? = some ti → Executed c node block v' ⟨i, ti, tx⟩) ∨
    isLikelyReapTx tx = true ∧ ∃ p w, getExpiryParams c.params = some p ∧
      p.enableAtHeight ≤ node.height ∧ viewBefore c s node block v pre = .ok w ∧
        Reap.Sweep p node.height w tx

/-- The condition under which the gates line up for a transaction after `pre`: if it looks like a
REAP transaction, then the expiry rules are on and the expiry of each output it refers to fits an
int32; if it does not, then none of its inputs is taken for that of a coinbase. -/
def Gated (c : Consensus) (s : ChainReads) (node : BlockNode) (block : Block) (v : UtxoViewpoint)
    (pre : List MsgTx) (tx : MsgTx) : Prop :=
  if isLikelyReapTx tx then
    ∃ p, getExpiryParams c.params = some p ∧ p.enableAtHeight ≤ node.height ∧
      ∀ w, viewBefore c s node block v pre = .ok w → ∀ ti ∈ tx.txIn, ∀ e,
        w.unspent ti.previousOutPoint = some e → e.blockHeight.toInt + p.windowBlocks.toNat < 2 ^ 31
  else ∀ ti ∈ tx.txIn, ti.previousOutPoint.index ≠ OutPoint.maxIndex

/-! ## Transactions whose scripts are run -/

theorem mem_blockItems {block : Block} {tx : MsgTx} {i : Nat} {ti : TxIn}
    (htx : tx ∈ block.transactions) (hget : tx.txIn[i]? = some ti) :
    ⟨i, ti, tx⟩ ∈ blockItems block ↔
      isLikelyReapTx tx = false ∧ ti.previousOutPoint.index ≠ OutPoint.maxIndex := by
  -- an item names its transaction, so it can only come from that one
  have hmem : ∀ tx', ⟨i, ti, tx⟩ ∈ txItems tx' ↔ tx' = tx ∧ isLikelyReapTx tx = false ∧
      ti.previousOutPoint.index ≠ OutPoint.maxIndex := by
    intro tx'
    rw [txItems]
    cases hreap : isLikelyReapTx tx' with
    | true =>
      simp only [if_true, List.not_mem_nil, false_iff, not_and]
      rintro rfl h
      simp [hreap] at h
    | false =>
      simp only [Bool.false_eq_true, if_false, mem_inputItems, Nat.sub_zero]
      refine ⟨?_, ?_⟩
      · rintro ⟨k, -, -, hitem, hidx⟩
        obtain ⟨rfl, -, rfl⟩ := TxValidateItem.mk.inj hitem
        exact ⟨rfl, hreap, hidx⟩
      · rintro ⟨rfl, -, hidx⟩
        exact ⟨i, Nat.zero_le i, hget, rfl, hidx⟩
  rw [blockItems, List.mem_flatMap]
  refine ⟨fun ⟨tx', _, h⟩ => ((hmem tx').1 h).2, fun h => ⟨tx, htx, (hmem tx).2 ⟨rfl, h⟩⟩⟩

/-- If scripts are on, every item of an accepted block was run. -/
theorem executed_of_mem {c : Consensus} {node : BlockNode} {block : Block} {segwit : Bool}
    {v : UtxoViewpoint} (hsegwit : c.deploymentActive node.parent .segwit = .ok segwit)
    (h : checkLocksAndScripts c node block segwit v = .ok ()) (hrun : runScripts c node = true)
    {item : TxValidateItem} (hitem : item ∈ blockItems block) :
    Executed c node block (v.setBestHash node.hash) item := by
  obtain ⟨csv, hcsv, h⟩ := bind_eq_ok.1 h
  obtain ⟨⟨⟩, -, h⟩ := bind_eq_ok.1 h
  obtain ⟨taproot, htaproot, h⟩ := bind_eq_ok.1 h
  rw [hrun, if_pos rfl] at h
  exact ⟨hitem, segwit, csv, taproot, hsegwit, hcsv, htaproot, validate_eq_ok.1 h item hitem⟩

/-! ## Transactions that sweep -/

/-- A REAP transaction that the rules let through, with the rules on, sweeps expired outputs exactly
if no expiry overflows. -/
theorem sweep_iff {params : Params} {p : ExpiryParams} {height : Int32} {w : UtxoViewpoint}
    {tx : MsgTx} (hp : getExpiryParams params = some p) (hh : p.enableAtHeight ≤ height)
    (hreap : isLikelyReapTx tx = true) (hok : Reap.InputsOk params height w tx)
    (hsane : checkTransactionSanity tx = .ok ()) :
    Reap.Sweep p height w tx ↔ ∀ ti ∈ tx.txIn, ∀ e, w.unspent ti.previousOutPoint = some e →
      e.blockHeight.toInt + p.windowBlocks.toNat < 2 ^ 31 := by
  obtain ⟨-, -, hout, hsum⟩ := Reap.checkTransactionSanity_ok hsane
  rw [Reap.maxSatoshi_toInt] at hsum
  have hpsane := Chaincfg.getExpiryParams_sane hp
  have hh0 : 0 ≤ height.toInt := by
    have h₁ := hpsane.enable_pos
    have h₂ := Int32.le_iff_toInt_le.1 hh
    omega
  have hhi := height.toInt_lt
  have hexpiry := (Reap.checkExpirySpendRules_eq_ok hp hh).1 hok.expiry
  have hrefunds := ((Reap.checkReapTaxRules_eq_ok hp hh hreap hok.inRange hok.sum_lt hout
    (by omega)).1 hok.tax).2
  refine ⟨fun hsweep ti hti e hget => ?_, fun hfit => ⟨fun ti hti => ?_, hrefunds⟩⟩
  · obtain ⟨e', hget', hexp⟩ := hsweep.expired ti hti
    cases hget.symm.trans hget'
    rw [Reap.Expired] at hexp
    omega
  · obtain ⟨e, hget, hexp⟩ := hexpiry ti hti
    rw [hreap, Reap.ExpiryOk] at hexp
    split at hexp
    · cases hexp
    · rcases (Reap.expiredAt_iff hpsane hh0 e.blockHeight).1 hexp with hexp | hover
      · exact ⟨e, hget, hexp⟩
      · have := hfit ti hti e hget
        omega

/-! ## The two together -/

/-- **In an accepted block every transaction has its scripts run or sweeps expired outputs, exactly
if every transaction is gated.**  The transactions are assumed to have passed the sanity check,
which a block has before it gets here. -/
theorem runs_or_sweeps_iff {c : Consensus} {s : ChainReads} {node : BlockNode} {block : Block}
    {v v' : UtxoViewpoint} {stxos : List SpentTxOut}
    (hok : checkConnectBlock c s node block v = .ok (v', stxos)) (hrun : runScripts c node = true)
    (hsane : ∀ tx ∈ block.transactions, checkTransactionSanity tx = .ok ()) :
    (∀ pre tx post, block.transactions = pre ++ tx :: post → isCoinBaseTx tx = false →
      RunsOrSweeps c s node block v v' pre tx) ↔
    (∀ pre tx post, block.transactions = pre ++ tx :: post → isCoinBaseTx tx = false →
      Gated c s node block v pre tx) := by
  obtain ⟨st⟩ := checkConnectBlock_stages hok
  obtain ⟨-, hchecked⟩ := checkTransactions_ok st.transactions
  refine forall_congr' fun pre => forall_congr' fun tx => forall_congr' fun post =>
    forall_congr' fun hsplit => forall_congr' fun hcb => ?_
  obtain ⟨w, spent, fee, hconn, hinputs⟩ := hchecked pre tx post hsplit
  have hmem : tx ∈ block.transactions := by
    rw [hsplit]
    simp
  have hview : viewBefore c s node block v pre = .ok w := by
    rw [viewBefore, st.load]
    show (UtxoViewpoint.connectAll node.height st.loaded pre >>= fun r => .ok r.1) = _
    rw [hconn]
    rfl
  have hview' : ∀ w', viewBefore c s node block v pre = .ok w' ↔ w' = w := by
    intro w'
    rw [hview, Except.ok.injEq, eq_comm]
  have hinputsOk := Reap.checkTransactionInputs_ok hcb hinputs
  have hne : tx.txIn ≠ [] := (Reap.checkTransactionSanity_ok (hsane tx hmem)).1
  rw [RunsOrSweeps, Gated]
  cases hreap : isLikelyReapTx tx with
  | false =>
    simp only [Bool.false_eq_true, if_false, false_and, or_false]
    refine ⟨fun h ti hti => ?_, fun h i ti hget => ?_⟩
    · obtain ⟨i, hget⟩ := List.mem_iff_getElem?.1 hti
      exact ((mem_blockItems hmem hget).1 (h i ti hget).1).2
    · rw [st.view]
      refine executed_of_mem st.segwit_eq st.scripts hrun ((mem_blockItems hmem hget).2 ⟨hreap, ?_⟩)
      exact h ti (List.mem_of_getElem? hget)
  | true =>
    -- no input of such a transaction is run, and it has at least one
    have hnot : ¬ ∀ i ti, tx.txIn[i]? = some ti → Executed c node block v' ⟨i, ti, tx⟩ := by
      intro h
      obtain ⟨ti, tis, hcons⟩ := List.exists_cons_of_ne_nil hne
      have hget : tx.txIn[0]? = some ti := by
        rw [hcons]
        rfl
      have := ((mem_blockItems hmem hget).1 (h 0 ti hget).1).1
      rw [hreap] at this
      cases this
    simp only [hnot, false_or, true_and, if_true, hview']
    refine ⟨fun ⟨p, w', hp, hh, hw, hsweep⟩ => ⟨p, hp, hh, ?_⟩, fun ⟨p, hp, hh, hfit⟩ => ?_⟩
    · rintro w'' rfl
      subst hw
      exact (sweep_iff hp hh hreap hinputsOk (hsane tx hmem)).1 hsweep
    · exact ⟨p, w, hp, hh, rfl, (sweep_iff hp hh hreap hinputsOk (hsane tx hmem)).2 (hfit w rfl)⟩

/-! ## A block of the Bitcoin main network -/

namespace MainNetTheft

/-- The main network, with the checkpoint and the soft forks it has at height 850000. -/
def consensus : Consensus where
  params := Chaincfg.mainNetParams
  engine := ScriptEngine.failing
  latestCheckpoint := some 810000
  deploymentActive _ _ := .ok true
  pastMedianTime _ := 1719000000
  ancestorMedianTime _ _ := 1718000000

/-- One bitcoin, locked to a key hash at height 849000. -/
def stolenOutPoint : OutPoint := ⟨⟨⟨List.replicate 32 0x11, rfl⟩⟩, 0⟩

def stolenEntry : UtxoEntry where
  amount := 100000000
  pkScript := [0x76, 0xa9, 0x14] ++ List.replicate 20 0x22 ++ [0x88, 0xac]
  blockHeight := 849000

def parentHash : Hash := ⟨⟨List.replicate 32 0x33, rfl⟩⟩

def reads : ChainReads where
  fetchEntry op := if op = stolenOutPoint then some stolenEntry else none
  bestTip := parentHash
  reapPrefixSource := none

/-- The input, without a signature. -/
def theftIn : TxIn := { previousOutPoint := stolenOutPoint }

/-- The payload that the marker rule asks for at height 850000. -/
def payload : Bytes :=
  reapTag ++ [reapSep] ++ Strconv.itoa 850000 ++ [reapSep] ++ Strconv.itoa 1 ++ [reapSep] ++
    Strconv.hexEncode (Sha256.sum256 stolenOutPoint.write).val

/-- A transaction that looks like a REAP transaction and pays the bitcoin to somebody else. -/
def theft : MsgTx where
  version := 3
  txIn := [theftIn]
  txOut := [⟨100000000, [0x51]⟩,
    ⟨0, Txscript.opReturn :: Txscript.opPushData1 :: UInt8.ofNat payload.length :: payload⟩]

def coinbase : MsgTx where
  version := 1
  txIn := [{ previousOutPoint := ⟨Hash.zero, OutPoint.maxIndex⟩
             signatureScript := [0x03, 0x50, 0xf8, 0x0c] }]
  txOut := [⟨312500000, [0x51]⟩]

def block : Block where
  header := ⟨0x20000000, parentHash, Hash.zero, 1719400000, 0x17038686, 0⟩
  transactions := [coinbase, theft]
  height := 850000

def node : BlockNode := BlockNode.ofBlock block

def view : UtxoViewpoint := UtxoViewpoint.new.setBestHash parentHash

theorem accepted : (checkConnectBlock consensus reads node block view).isOk = true := by
  decide +kernel

theorem scripts_on : runScripts consensus node = true := by decide

theorem sane : ∀ tx ∈ block.transactions, checkTransactionSanity tx = .ok () := by
  decide +kernel

theorem looks_like_reap : isLikelyReapTx theft = true := by decide +kernel

end MainNetTheft

open MainNetTheft in
/-- **A block of the Bitcoin main network takes an output whose script was not run.**  The network
has no expiry rules at all, the scripts are on, and under the engine no script succeeds. -/
theorem spends_without_script :
    ∃ v' stxos, checkConnectBlock consensus reads node block view = .ok (v', stxos) ∧
      runScripts consensus node = true ∧
      (∀ tx ∈ block.transactions, checkTransactionSanity tx = .ok ()) ∧
      block.transactions = [coinbase] ++ theft :: [] ∧ isCoinBaseTx theft = false ∧
      ¬ RunsOrSweeps consensus reads node block view v' [coinbase] theft := by
  obtain ⟨⟨v', stxos⟩, hok⟩ := exists_ok_of_isOk accepted
  refine ⟨v', stxos, hok, scripts_on, sane, rfl, by decide, ?_⟩
  rintro (hrun | ⟨-, p, w, hp, -⟩)
  · have hmem : theft ∈ block.transactions := by decide +kernel
    have hitem := (hrun 0 theftIn rfl).1
    have hreap := ((mem_blockItems hmem rfl).1 hitem).1
    rw [looks_like_reap] at hreap
    cases hreap
  · have hnone : getExpiryParams consensus.params = none := by decide +kernel
    rw [hnone] at hp
    cases hp

open MainNetTheft in
/-- The general statement at that block. -/
theorem runs_or_sweeps_iff_theft :
    ∃ v' stxos, checkConnectBlock consensus reads node block view = .ok (v', stxos) ∧
      ((∀ pre tx post, block.transactions = pre ++ tx :: post → isCoinBaseTx tx = false →
        RunsOrSweeps consensus reads node block view v' pre tx) ↔
      (∀ pre tx post, block.transactions = pre ++ tx :: post → isCoinBaseTx tx = false →
        Gated consensus reads node block view pre tx)) := by
  obtain ⟨⟨v', stxos⟩, hok⟩ := exists_ok_of_isOk accepted
  exact ⟨v', stxos, hok, runs_or_sweeps_iff hok scripts_on sane⟩

end Obtcd
