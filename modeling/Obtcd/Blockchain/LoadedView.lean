import Obtcd.Blockchain.ReapSpec
import Obtcd.Blockchain.ViewScripts

/-!
# The view that a block is checked with

Before it looks at the transactions of a block, `checkConnectBlock` loads everything they spend into
one view.  What an earlier transaction of the block creates is added to it, everything else comes
from the UTXO cache; the costs of all transactions are counted on that view.

The transactions are connected on top of it one after another, and each must find its inputs unspent
in the view that the ones before it leave.  They are then unspent in the loaded view already
(`unspent_loaded`): connecting a transaction adds nothing but its own outputs, and those of an
earlier transaction are loaded for a later one that spends them, unless a transaction before both
spends them too, which would then find them in the cache.
-/

namespace Obtcd

open MsgTx
open Chaincfg (Params)
open List UtxoViewpoint

variable {op : OutPoint} {tx : MsgTx}

/-- The transaction adds an output to a view under an outpoint. -/
def MsgTx.Creates (tx : MsgTx) (op : OutPoint) : Prop :=
  ∃ i o, tx.txOut[i]? = some o ∧ tx.outPoint i = op ∧ Txscript.isUnspendable o.pkScript = false

theorem MsgTx.Creates.hash_eq (h : tx.Creates op) : tx.txHash = op.hash := by
  obtain ⟨i, o, -, rfl, -⟩ := h
  rfl

/-- The outputs `os` of the transaction, numbered from `i` on, put one under an outpoint: what a loop
over the outputs still has to add. -/
def MsgTx.CreatesFrom (tx : MsgTx) (i : Nat) (os : List TxOut) (op : OutPoint) : Prop :=
  ∃ k o, os[k]? = some o ∧ tx.outPoint (i + k) = op ∧ Txscript.isUnspendable o.pkScript = false

theorem MsgTx.createsFrom_zero : tx.CreatesFrom 0 tx.txOut op ↔ tx.Creates op := by
  simp only [MsgTx.CreatesFrom, MsgTx.Creates, Nat.zero_add]

theorem MsgTx.createsFrom_nil {i : Nat} : ¬tx.CreatesFrom i [] op := by
  rintro ⟨k, o, ho, -⟩
  simp at ho

theorem MsgTx.createsFrom_cons {i : Nat} {o : TxOut} {os : List TxOut} :
    tx.CreatesFrom i (o :: os) op ↔
      tx.outPoint i = op ∧ Txscript.isUnspendable o.pkScript = false ∨
        tx.CreatesFrom (i + 1) os op := by
  constructor
  · rintro ⟨k, o', ho, hop, hspendable⟩
    cases k with
    | zero =>
      cases ho
      exact .inl ⟨hop, hspendable⟩
    | succ k => exact .inr ⟨k, o', ho, by rw [← hop]; congr 1; omega, hspendable⟩
  · rintro (⟨hop, hspendable⟩ | ⟨k, o', ho, hop, hspendable⟩)
    · exact ⟨0, o, rfl, hop, hspendable⟩
    · exact ⟨k + 1, o', ho, by rw [← hop]; congr 1; omega, hspendable⟩

variable {v w : UtxoViewpoint} {height : Int32} {stxos : List SpentTxOut} {block : Block}

namespace UtxoViewpoint

/-! ## Adding and spending outputs -/

/-- A lookup after outputs are added finds one of them, or what was there. -/
theorem lookupEntry_addTxOutsFrom (tx : MsgTx) (height : Int32) (op : OutPoint)
    (v : UtxoViewpoint) (i : Nat) (os : List TxOut) :
    (tx.CreatesFrom i os op ∧ ∃ o, (addTxOutsFrom tx height v i os).lookupEntry op =
        some (txOutEntry o (isCoinBaseTx tx) height)) ∨
      ¬tx.CreatesFrom i os op ∧
        (addTxOutsFrom tx height v i os).lookupEntry op = v.lookupEntry op := by
  induction os generalizing v i with
  | nil => exact .inr ⟨createsFrom_nil, rfl⟩
  | cons o os ih =>
    rw [addTxOutsFrom, createsFrom_cons]
    rcases ih (v.addTxOut (tx.outPoint i) o (isCoinBaseTx tx) height) (i + 1) with
      ⟨hlater, hlookup⟩ | ⟨hlater, hlookup⟩
    · exact .inl ⟨.inr hlater, hlookup⟩
    · rw [hlookup, addTxOut]
      by_cases hhere : tx.outPoint i = op ∧ Txscript.isUnspendable o.pkScript = false
      · refine .inl ⟨.inl hhere, o, ?_⟩
        rw [hhere.2, if_neg Bool.false_ne_true, lookupEntry_put, if_pos hhere.1]
      · refine .inr ⟨not_or.2 ⟨hhere, hlater⟩, ?_⟩
        split_ifs with hspendable
        · rfl
        · rw [lookupEntry_put, if_neg fun hop => hhere ⟨hop, by simpa using hspendable⟩]

theorem lookupEntry_addTxOuts (v : UtxoViewpoint) (tx : MsgTx) (op : OutPoint) (height : Int32) :
    tx.Creates op ∧ ((v.addTxOuts tx height).unspent op).isSome = true ∨
      ¬tx.Creates op ∧ (v.addTxOuts tx height).lookupEntry op = v.lookupEntry op := by
  rw [← createsFrom_zero]
  rcases lookupEntry_addTxOutsFrom tx height op v 0 tx.txOut with
    ⟨hcreates, o, hlookup⟩ | ⟨hcreates, hlookup⟩
  · have hnew : (v.addTxOuts tx height).unspent op = some (txOutEntry o (isCoinBaseTx tx) height) :=
      unspent_eq_some.2 ⟨hlookup, rfl⟩
    exact .inl ⟨hcreates, by rw [hnew]; rfl⟩
  · exact .inr ⟨hcreates, hlookup⟩

theorem unspent_addTxOuts (h : (v.unspent op).isSome = true) (tx : MsgTx) (height : Int32) :
    ((v.addTxOuts tx height).unspent op).isSome = true := by
  rcases lookupEntry_addTxOuts v tx op height with ⟨-, hnew⟩ | ⟨-, hlookup⟩
  · exact hnew
  · rwa [unspent, hlookup]

/-- An output that is unspent once inputs are spent was unspent before. -/
theorem unspent_of_spendInputs {tis : List TxIn} (h : v.spendInputs tis = .ok (w, stxos))
    (hop : (w.unspent op).isSome = true) : (v.unspent op).isSome = true := by
  induction tis generalizing v stxos with
  | nil =>
    cases h
    exact hop
  | cons ti tis ih =>
    rw [spendInputs] at h
    split at h
    · cases h
    rename_i e he
    obtain ⟨⟨w', stxos'⟩, hrest, h⟩ := bind_eq_ok.1 h
    cases h
    have hput := ih hrest
    rw [unspent, lookupEntry_put] at hput
    split at hput
    · simp at hput
    · exact hput

/-- A transaction adds nothing but its outputs. -/
theorem unspent_of_connectTransaction (h : v.connectTransaction tx height = .ok (w, stxos))
    (hnew : ¬tx.Creates op) (hop : (w.unspent op).isSome = true) :
    (v.unspent op).isSome = true := by
  have hadd : ∀ v : UtxoViewpoint, ((v.addTxOuts tx height).unspent op).isSome = true →
      (v.unspent op).isSome = true := by
    intro v hv
    rcases lookupEntry_addTxOuts v tx op height with ⟨hcreates, -⟩ | ⟨-, hlookup⟩
    · exact absurd hcreates hnew
    · rwa [unspent, hlookup] at hv
  rw [connectTransaction] at h
  split at h
  · cases h
    exact hadd v hop
  · obtain ⟨⟨v', stxos'⟩, hspend, h⟩ := bind_eq_ok.1 h
    cases h
    exact unspent_of_spendInputs hspend (hadd v' hop)

theorem unspent_of_connectAll {txs : List MsgTx} (h : connectAll height v txs = .ok (w, stxos))
    (hnew : ∀ tx ∈ txs, ¬tx.Creates op) (hop : (w.unspent op).isSome = true) :
    (v.unspent op).isSome = true := by
  induction txs generalizing v stxos with
  | nil =>
    cases h
    exact hop
  | cons tx txs ih =>
    obtain ⟨⟨v', stxos'⟩, hconn, h⟩ := bind_eq_ok.1 h
    obtain ⟨⟨w', stxos''⟩, hrest, h⟩ := bind_eq_ok.1 h
    cases h
    exact unspent_of_connectTransaction hconn (hnew tx mem_cons_self)
      (ih hrest fun tx htx => hnew tx (mem_cons_of_mem _ htx))

/-! ## Where a transaction of the block stands -/

theorem getElem?_txInFlight {txs : List MsgTx} (hdistinct : (txs.map txHash).Nodup)
    (m : OrdMap Hash Nat) (i : Nat) (hash : Hash) (j : Nat) :
    (txInFlight m i txs)[hash]? = some j ↔
      (∃ k tx, txs[k]? = some tx ∧ tx.txHash = hash ∧ j = i + k) ∨
        hash ∉ txs.map txHash ∧ m[hash]? = some j := by
  induction txs generalizing m i with
  | nil => simp [txInFlight]
  | cons tx txs ih =>
    rw [map_cons, nodup_cons] at hdistinct
    rw [txInFlight, ih hdistinct.2, OrdMap.getElem?_insert']
    constructor
    · rintro (⟨k, tx', htx', hhash, rfl⟩ | ⟨hnot, hj⟩)
      · exact .inl ⟨k + 1, tx', htx', hhash, by omega⟩
      · split_ifs at hj with hhash
        · exact .inl ⟨0, tx, rfl, hhash, (Option.some.inj hj).symm⟩
        · refine .inr ⟨?_, hj⟩
          rw [map_cons, mem_cons, not_or]
          exact ⟨Ne.symm hhash, hnot⟩
    · rintro (⟨k, tx', htx', rfl, rfl⟩ | ⟨hnot, hj⟩)
      · cases k with
        | zero =>
          cases htx'
          exact .inr ⟨hdistinct.1, by rw [if_pos rfl]; rfl⟩
        | succ k => exact .inl ⟨k, tx', htx', rfl, by omega⟩
      · rw [map_cons, mem_cons, not_or] at hnot
        exact .inr ⟨hnot.2, by rwa [if_neg (Ne.symm hnot.1)]⟩

section Find

variable {s : UtxoViewpoint × List OutPoint} {pre post txs : List MsgTx} {ti : TxIn}
  {fetch : OutPoint → Option UtxoEntry}

theorem findInputs_cons (inFlight : OrdMap Hash Nat) (hpre : pre ≠ [])
    (s : UtxoViewpoint × List OutPoint) (tx : MsgTx) (txs : List MsgTx) :
    findInputs block inFlight (pre.length - 1) s (tx :: txs) =
      findInputs block inFlight ((pre ++ [tx]).length - 1)
        (tx.txIn.foldl (findInput block inFlight (pre.length - 1)) s) txs := by
  have hlen : (pre ++ [tx]).length - 1 = pre.length - 1 + 1 := by
    have := length_pos_iff.2 hpre
    rw [length_append, length_singleton]
    omega
  rw [findInputs, hlen]

/-- What every input preserves holds once all are found. -/
theorem findInputs_induction {P : UtxoViewpoint × List OutPoint → Prop}
    {inFlight : OrdMap Hash Nat}
    (hinput : ∀ {pre : List MsgTx} {tx : MsgTx} {post : List MsgTx}
      {s : UtxoViewpoint × List OutPoint} {ti : TxIn},
      block.transactions = pre ++ tx :: post → pre ≠ [] → ti ∈ tx.txIn → P s →
        P (findInput block inFlight (pre.length - 1) s ti))
    (hsplit : block.transactions = pre ++ txs) (hpre : pre ≠ []) (h : P s) :
    P (findInputs block inFlight (pre.length - 1) s txs) := by
  induction txs generalizing pre s with
  | nil => exact h
  | cons tx txs ih =>
    rw [findInputs_cons inFlight hpre]
    refine ih (by rw [hsplit, append_assoc]; rfl) (by simp) ?_
    exact List.foldlRecOn _ _ h fun s hs ti hti => hinput hsplit hpre hti hs

/-- Loading the inputs of a block: it has a first transaction, and the inputs of the others are
found. -/
theorem fetchInputUtxos_ok (h : v.fetchInputUtxos fetch block = .ok w) :
    ∃ first rest, block.transactions = first :: rest ∧
      w = (findInputs block (txInFlight ∅ 0 block.transactions) 0 (v, [])
          rest).1.fetchUtxosFromCache fetch
        (findInputs block (txInFlight ∅ 0 block.transactions) 0 (v, []) rest).2 := by
  obtain ⟨⟨v', needed⟩, hfind, h⟩ := bind_eq_ok.1 h
  cases h
  obtain ⟨rest, hrest, hfind⟩ := bind_eq_ok.1 hfind
  rw [Block.afterFirst] at hrest
  split at hrest
  · cases hrest
  rename_i first rest' htxs
  obtain rfl := Except.ok.inj hrest
  refine ⟨first, rest', htxs, ?_⟩
  rw [Except.ok.inj hfind]

variable (hdistinct : (block.transactions.map txHash).Nodup)
include hdistinct

/-- What looking for an input does: the outputs of an earlier transaction of the block are added to
the view, or there is none and the input has to be loaded, unless it is there. -/
theorem findInput_cases
    (hsplit : block.transactions = pre ++ tx :: post) (hpre : pre ≠ [])
    (s : UtxoViewpoint × List OutPoint) (ti : TxIn) :
    (∃ p ∈ pre, p.txHash = ti.previousOutPoint.hash ∧
      findInput block (txInFlight ∅ 0 block.transactions) (pre.length - 1) s ti =
        (s.1.addTxOuts p block.height, s.2)) ∨
      (∀ p ∈ pre, p.txHash ≠ ti.previousOutPoint.hash) ∧
        ((s.1.entries[ti.previousOutPoint]?).isSome = true ∧
            findInput block (txInFlight ∅ 0 block.transactions) (pre.length - 1) s ti = s ∨
          findInput block (txInFlight ∅ 0 block.transactions) (pre.length - 1) s ti =
            (s.1, s.2 ++ [ti.previousOutPoint])) := by
  have hlen : 0 < pre.length := length_pos_iff.2 hpre
  have hflight := getElem?_txInFlight hdistinct ∅ 0 ti.previousOutPoint.hash
  rw [findInput]
  split
  · rename_i j hj
    obtain ⟨hj, hle⟩ := Option.filter_eq_some_iff.1 hj
    obtain ⟨k, p, hp, hhash, rfl⟩ | ⟨-, hempty⟩ := (hflight j).1 hj
    · rw [Nat.zero_add] at hle ⊢
      rw [hp]
      have hk : k < pre.length := by
        have := of_decide_eq_true hle
        omega
      rw [hsplit, List.getElem?_append_left hk] at hp
      exact .inl ⟨p, mem_of_getElem? hp, hhash, rfl⟩
    · simp at hempty
  · rename_i hnone
    refine .inr ⟨fun p hp hhash => ?_, ?_⟩
    · obtain ⟨k, hk⟩ := List.getElem?_of_mem hp
      have hlt : k < pre.length := (List.getElem?_eq_some_iff.1 hk).1
      have hin : (txInFlight ∅ 0 block.transactions)[ti.previousOutPoint.hash]? = some k :=
        (hflight k).2 (.inl ⟨k, p, by rw [hsplit, List.getElem?_append_left hlt, hk], hhash,
          (Nat.zero_add k).symm⟩)
      rw [hin, Option.filter_eq_none_iff] at hnone
      exact hnone k rfl (decide_eq_true (by omega))
    · split_ifs with hsome
      · exact .inl ⟨hsome, rfl⟩
      · exact .inr rfl

theorem unspent_findInput (hsplit : block.transactions = pre ++ tx :: post) (hpre : pre ≠ [])
    (h : (s.1.unspent op).isSome = true) :
    ((findInput block (txInFlight ∅ 0 block.transactions) (pre.length - 1) s ti).1.unspent
      op).isSome = true := by
  rcases findInput_cases hdistinct hsplit hpre s ti with ⟨p, -, -, heq⟩ | ⟨-, ⟨-, heq⟩ | heq⟩
  · rw [heq]
    exact unspent_addTxOuts h p block.height
  · rwa [heq]
  · rwa [heq]

/-- The outputs of an earlier transaction are in the view for a later one that spends them. -/
theorem unspent_findInputs (hsplit : block.transactions = pre ++ txs) (hpre : pre ≠ [])
    {pre' : List MsgTx} (htxs : txs = pre' ++ tx :: post) (hti : ti ∈ tx.txIn)
    {p : MsgTx} (hp : p ∈ pre ++ pre') (hcreates : p.Creates ti.previousOutPoint) :
    ((findInputs block (txInFlight ∅ 0 block.transactions) (pre.length - 1) s txs).1.unspent
      ti.previousOutPoint).isSome = true := by
  induction pre' generalizing pre s txs with
  | nil =>
    rw [append_nil] at hp
    rw [nil_append] at htxs
    subst htxs
    rw [findInputs_cons _ hpre]
    refine findInputs_induction (P := fun s => (s.1.unspent ti.previousOutPoint).isSome = true)
      (fun hsplit hpre _ hs => unspent_findInput hdistinct hsplit hpre hs)
      (by rw [hsplit, append_assoc]; rfl) (by simp) ?_
    obtain ⟨before, after, hins⟩ := append_of_mem hti
    rw [hins, foldl_append, foldl_cons]
    refine List.foldlRecOn (motive := fun s : UtxoViewpoint × List OutPoint =>
        (s.1.unspent ti.previousOutPoint).isSome = true)
      after _ ?_ fun s hs ti' _ => unspent_findInput hdistinct hsplit hpre hs
    rcases findInput_cases hdistinct hsplit hpre
      (before.foldl (findInput block (txInFlight ∅ 0 block.transactions) (pre.length - 1)) s) ti with
      ⟨p', hp', hhash, heq⟩ | ⟨hnone, -⟩
    · obtain rfl : p' = p := inj_on_of_nodup_map hdistinct
        (by rw [hsplit]; exact mem_append_left _ hp')
        (by rw [hsplit]; exact mem_append_left _ hp) (hhash.trans hcreates.hash_eq.symm)
      rw [heq]
      rcases lookupEntry_addTxOuts _ p' ti.previousOutPoint block.height with
        ⟨-, hnew⟩ | ⟨hnot, -⟩
      · exact hnew
      · exact absurd hcreates hnot
    · exact absurd hcreates.hash_eq (hnone p hp)
  | cons first pre' ih =>
    subst htxs
    rw [cons_append, findInputs_cons _ hpre]
    exact ih (by rw [hsplit, append_assoc]; rfl) (by simp) rfl (by rwa [append_assoc])

/-- What has to be loaded is spent by a transaction and not created by an earlier one. -/
theorem needed_findInputs (hsplit : block.transactions = pre ++ txs) (hpre : pre ≠ [])
    (h : op ∈ (findInputs block (txInFlight ∅ 0 block.transactions) (pre.length - 1)
      (v, []) txs).2) :
    ∃ pre tx post, block.transactions = pre ++ tx :: post ∧ pre ≠ [] ∧
      (∃ ti ∈ tx.txIn, ti.previousOutPoint = op) ∧ ∀ p ∈ pre, p.txHash ≠ op.hash := by
  refine findInputs_induction (P := fun s => ∀ op ∈ s.2, ∃ pre tx post,
    block.transactions = pre ++ tx :: post ∧ pre ≠ [] ∧
      (∃ ti ∈ tx.txIn, ti.previousOutPoint = op) ∧ ∀ p ∈ pre, p.txHash ≠ op.hash)
    ?_ hsplit hpre (fun _ hmem => by cases hmem) op h
  intro pre tx post s ti hsplit hpre hti hs op hop
  rcases findInput_cases hdistinct hsplit hpre s ti with ⟨p, -, -, heq⟩ | ⟨hnone, ⟨-, heq⟩ | heq⟩
  · rw [heq] at hop
    exact hs op hop
  · rw [heq] at hop
    exact hs op hop
  · rw [heq] at hop
    rcases mem_append.1 hop with hop | hop
    · exact hs op hop
    · obtain rfl := mem_singleton.1 hop
      exact ⟨pre, tx, post, hsplit, hpre, ⟨ti, hti, rfl⟩, hnone⟩

/-! ## The loaded view -/

theorem Scripted.findInputs (hsplit : block.transactions = pre ++ txs) (hpre : pre ≠ [])
    (h : Scripted fetch block.transactions v) :
    Scripted fetch block.transactions (findInputs block (txInFlight ∅ 0 block.transactions)
      (pre.length - 1) (v, []) txs).1 := by
  refine findInputs_induction (P := fun s => Scripted fetch block.transactions s.1)
    (fun {pre tx post s ti} hsplit hpre _ hs => ?_) hsplit hpre h
  rcases findInput_cases hdistinct hsplit hpre s ti with ⟨p, hp, -, heq⟩ | ⟨-, ⟨-, heq⟩ | heq⟩
  · rw [heq]
    exact hs.addTxOuts (by rw [hsplit]; exact mem_append_left _ hp) block.height
  · rwa [heq]
  · rwa [heq]

/-- The scripts in the loaded view come from the cache and from the block. -/
theorem Scripted.fetchInputUtxos (hload : v.fetchInputUtxos fetch block = .ok w)
    (h : Scripted fetch block.transactions v) :
    Scripted fetch block.transactions w := by
  obtain ⟨first, rest, htxs, rfl⟩ := fetchInputUtxos_ok hload
  have hsplit : block.transactions = [first] ++ rest := htxs
  exact (Scripted.findInputs hdistinct hsplit (by simp) h).fetchUtxosFromCache _

end Find

end UtxoViewpoint

section Accepted

variable {fetch : OutPoint → Option UtxoEntry} {params : Params} {loaded final : UtxoViewpoint}
  {fees fees' : Int64}

/-- A transaction that passes `CheckTransactionInputs` has its inputs in the view. -/
theorem hasInputs_of_checkTransactionInputs {fee : Int64} (hcoinbase : isCoinBaseTx tx = false)
    (h : checkTransactionInputs tx height v params = .ok fee) : v.HasInputs tx := by
  intro ti hti
  obtain ⟨e, he, -⟩ := (Reap.checkTransactionInputs_ok hcoinbase h).inRange ti hti
  exact Option.isSome_iff_exists.2 ⟨e, he⟩

/-- An output that no earlier transaction creates is unspent in the loaded view. -/
theorem unspent_loaded_of_not_created
    (hcoinbases : checkCoinbases block.transactions = .ok ())
    (hconnect : checkTransactions params height loaded fees block.transactions =
      .ok (final, stxos, fees'))
    {pre post : List MsgTx} (hsplit : block.transactions = pre ++ tx :: post)
    (hpre : pre ≠ []) {ti : TxIn} (hti : ti ∈ tx.txIn)
    (hnew : ∀ p ∈ pre, ¬p.Creates ti.previousOutPoint) :
    (loaded.unspent ti.previousOutPoint).isSome = true := by
  obtain ⟨coinbase, txs, htxs, -, hothers⟩ := checkCoinbases_ok hcoinbases
  have hcoinbase : isCoinBaseTx tx = false := by
    refine hothers tx ?_
    cases pre with
    | nil => exact absurd rfl hpre
    | cons first pre =>
      rw [hsplit, cons_append] at htxs
      rw [← (List.cons.inj htxs).2]
      exact mem_append_right _ mem_cons_self
  obtain ⟨w, spent, fee, hw, hfee⟩ := (checkTransactions_ok hconnect).2 pre tx post hsplit
  exact unspent_of_connectAll hw hnew (hasInputs_of_checkTransactionInputs hcoinbase hfee ti hti)

/-- The inputs of every transaction of an accepted block are unspent in the loaded view. -/
theorem unspent_loaded (hdistinct : (block.transactions.map txHash).Nodup)
    (hcoinbases : checkCoinbases block.transactions = .ok ())
    (hload : v.fetchInputUtxos fetch block = .ok loaded)
    (hconnect : checkTransactions params height loaded fees block.transactions =
      .ok (final, stxos, fees'))
    {pre post : List MsgTx} (hsplit : block.transactions = pre ++ tx :: post)
    (hpre : pre ≠ []) : loaded.HasInputs tx := by
  intro ti hti
  by_cases hnew : ∀ p ∈ pre, ¬p.Creates ti.previousOutPoint
  · exact unspent_loaded_of_not_created hcoinbases hconnect hsplit hpre hti hnew
  push Not at hnew
  obtain ⟨p, hp, hcreates⟩ := hnew
  obtain ⟨first, rest, htxs, hloaded⟩ := fetchInputUtxos_ok hload
  have hfirst : block.transactions = [first] ++ rest := htxs
  by_cases hneeded : ti.previousOutPoint ∈ (findInputs block
      (txInFlight ∅ 0 block.transactions) 0 (v, []) rest).2
  · -- an even earlier transaction spends the same output, and finds it in the cache
    obtain ⟨pre', tx', post', hsplit', hpre', ⟨ti', hti', heq⟩, hnone⟩ :=
      needed_findInputs hdistinct hfirst (by simp) hneeded
    rw [← heq]
    refine unspent_loaded_of_not_created hcoinbases hconnect hsplit' hpre' hti' fun p' hp' hc => ?_
    rw [heq] at hc
    exact hnone p' hp' hc.hash_eq
  · obtain ⟨pre', rfl⟩ : ∃ pre', pre = first :: pre' := by
      cases pre with
      | nil => exact absurd rfl hpre
      | cons first' pre' =>
        rw [hsplit, cons_append] at htxs
        exact ⟨pre', by rw [(List.cons.inj htxs).1]⟩
    have hrest : rest = pre' ++ tx :: post := by
      rw [hsplit, cons_append] at htxs
      exact (List.cons.inj htxs).2.symm
    have hfound := unspent_findInputs (s := (v, [])) hdistinct hfirst (by simp) hrest
      hti hp hcreates
    rwa [hloaded, unspent, lookupEntry_fetchUtxosFromCache, if_neg hneeded]

end Accepted

/-! ## The sources of a checked block -/

section Sources

variable {c : Consensus} {s : ChainReads} {node : BlockNode}

/-- The scripts in the view that `checkConnectBlock` loads come from the cache and from the
block. -/
theorem scripted_loadInputs (hdistinct : (block.transactions.map txHash).Nodup)
    (hload : loadInputs c s node block v = .ok w)
    (h : UtxoViewpoint.Scripted s.fetchEntry block.transactions v) :
    UtxoViewpoint.Scripted s.fetchEntry block.transactions w ∧
      ∃ v' : UtxoViewpoint, v'.fetchInputUtxos s.fetchEntry block = .ok w := by
  rw [loadInputs] at hload
  split_ifs at hload
  obtain ⟨v', hv', hload⟩ := bind_eq_ok.1 hload
  obtain ⟨⟨⟩, -, hload⟩ := bind_eq_ok.1 hload
  have hscripted : UtxoViewpoint.Scripted s.fetchEntry block.transactions v' := by
    rw [enforceBIP0030] at hv'
    split at hv'
    · rw [checkBIP0030] at hv'
      split at hv'
      · cases hv'
      · cases hv'
        exact h.fetchUtxosFromCache _
    · cases hv'
      exact h
  exact ⟨hscripted.fetchInputUtxos hdistinct hload, v', hload⟩

theorem length_txOut_le_baseSize (tx : MsgTx) : tx.txOut.length ≤ tx.baseSize := by
  have hsum : ∀ os : List TxOut, os.length ≤ (os.map TxOut.serializeSize).sum := by
    intro os
    induction os with
    | nil => exact le_rfl
    | cons o os ih =>
      rw [length_cons, map_cons, sum_cons, TxOut.serializeSize]
      omega
  rw [baseSize]
  exact (hsum tx.txOut).trans (Nat.le_add_left ..)

theorem length_txOut_lt (hsize : block.serializeSizeStripped ≤ maxBlockBaseSize)
    (htx : tx ∈ block.transactions) : tx.txOut.length < 2 ^ 32 := by
  have hle : tx.baseSize ≤ (block.transactions.map baseSize).sum :=
    le_sum_of_mem (mem_map_of_mem htx)
  have hout := length_txOut_le_baseSize tx
  rw [Block.serializeSizeStripped, maxBlockBaseSize] at hsize
  omega

end Sources

end Obtcd
