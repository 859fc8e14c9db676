import Obtcd.Blockchain.Sanity

/-!
# The scripts in a view

The cost of a transaction's signature operations depends on the scripts of the outputs it spends,
which are taken from a view.  Views are filled from two sources, the UTXO cache and the outputs of
the transactions around it, and marked as outputs are spent; nothing ever changes the script of an
entry.  `Scripted` says that every script in a view comes from one of the two sources.  It is kept
by everything that is done to a view.

Where the two sources agree (`ScriptAt.unique`), two views in which the inputs of a transaction are
unspent give it the same cost (`getSigOpCost_congr`).
-/

namespace Obtcd

/-- An output has a script, by the UTXO cache or by one of some transactions. -/
def ScriptAt (fetch : OutPoint → Option UtxoEntry) (txs : List MsgTx) (op : OutPoint)
    (pkScript : Bytes) : Prop :=
  (∃ e, fetch op = some e ∧ e.pkScript = pkScript) ∨
    ∃ tx ∈ txs, ∃ i o, tx.outPoint i = op ∧ tx.txOut[i]? = some o ∧ o.pkScript = pkScript

namespace UtxoViewpoint

/-- All scripts in a view come from the UTXO cache or from some transactions. -/
def Scripted (fetch : OutPoint → Option UtxoEntry) (txs : List MsgTx) (v : UtxoViewpoint) : Prop :=
  ∀ op e, v.lookupEntry op = some e → ScriptAt fetch txs op e.pkScript

section Scripted

variable {fetch : OutPoint → Option UtxoEntry} {txs : List MsgTx} {v w : UtxoViewpoint}

theorem scripted_new : Scripted fetch txs new := by
  intro op e h
  rw [lookupEntry_new] at h
  cases h

section

variable (h : Scripted fetch txs v)
include h

theorem Scripted.mono {txs' : List MsgTx} (hsub : txs ⊆ txs') : Scripted fetch txs' v := by
  intro op e he
  rcases h op e he with hfetch | ⟨tx, htx, hout⟩
  · exact .inl hfetch
  · exact .inr ⟨tx, hsub htx, hout⟩

theorem Scripted.put {op : OutPoint} {entry : Option UtxoEntry}
    (hentry : ∀ e, entry = some e → ScriptAt fetch txs op e.pkScript) :
    Scripted fetch txs (v.put op entry) := by
  intro op' e he
  rw [lookupEntry_put] at he
  split at he
  · rename_i heq
    exact heq ▸ hentry e he
  · exact h op' e he

theorem Scripted.fetchUtxosFromCache (ops : List OutPoint) :
    Scripted fetch txs (v.fetchUtxosFromCache fetch ops) := by
  induction ops generalizing v with
  | nil => exact h
  | cons op ops ih => exact ih (h.put fun e he => .inl ⟨e, he, rfl⟩)

omit h in
theorem scripted_fetchUtxoView (fetch : OutPoint → Option UtxoEntry) (txs : List MsgTx)
    (tx : MsgTx) : Scripted fetch txs (fetchUtxoView fetch tx) :=
  scripted_new.fetchUtxosFromCache _

theorem Scripted.addTxOutsFrom {tx : MsgTx} (htx : tx ∈ txs) (height : Int32) {i : Nat}
    {os : List TxOut} (hos : os = tx.txOut.drop i) :
    Scripted fetch txs (addTxOutsFrom tx height v i os) := by
  induction os generalizing v i with
  | nil => exact h
  | cons o os ih =>
    have hget : tx.txOut[i]? = some o := by
      rw [← List.head?_drop, ← hos]
      rfl
    have htail : os = tx.txOut.drop (i + 1) := by
      rw [← List.tail_drop, ← hos]
      rfl
    refine ih ?_ htail
    rw [addTxOut]
    split
    · exact h
    · refine h.put fun e he => .inr ⟨tx, htx, i, o, rfl, hget, ?_⟩
      rw [← Option.some.inj he]
      rfl

theorem Scripted.addTxOuts {tx : MsgTx} (htx : tx ∈ txs) (height : Int32) :
    Scripted fetch txs (v.addTxOuts tx height) :=
  h.addTxOutsFrom htx height rfl

theorem Scripted.spend {op : OutPoint} {e : UtxoEntry} (he : v.lookupEntry op = some e) :
    Scripted fetch txs (v.put op (some e.spend)) := by
  refine h.put fun e' he' => ?_
  cases he'
  have hscript : e.spend.pkScript = e.pkScript := congrArg SpentTxOut.pkScript e.spend_stxo
  rw [hscript]
  exact h op e he

end

end Scripted

end UtxoViewpoint

/-! ## One script for each output -/

/-- The sources that a view is filled from agree: the transactions are distinct, and an output that
the cache has under the hash of one of them has the script of that transaction's output. -/
structure SourcesAgree (fetch : OutPoint → Option UtxoEntry) (txs : List MsgTx) : Prop where
  distinct : (txs.map MsgTx.txHash).Nodup
  small : ∀ tx ∈ txs, tx.txOut.length < 2 ^ 32
  cache : ∀ tx ∈ txs, ∀ op e, fetch op = some e → tx.txHash = op.hash →
    ∃ o, tx.txOut[op.index.toNat]? = some o ∧ o.pkScript = e.pkScript

section Agree

variable {fetch : OutPoint → Option UtxoEntry} {txs : List MsgTx}

/-- The index of an output is its position, while there are less than 2³² of them. -/
theorem toNat_index_outPoint {tx : MsgTx} (hsmall : tx.txOut.length < 2 ^ 32) {i : Nat} {o : TxOut}
    (h : tx.txOut[i]? = some o) : (tx.outPoint i).index.toNat = i := by
  obtain ⟨hi, -⟩ := List.getElem?_eq_some_iff.1 h
  exact UInt32.toNat_ofNat_of_lt' (hi.trans hsmall)

theorem ScriptAt.unique (hagree : SourcesAgree fetch txs) {op : OutPoint} {a b : Bytes}
    (ha : ScriptAt fetch txs op a) (hb : ScriptAt fetch txs op b) : a = b := by
  have hmixed : ∀ {a b : Bytes}, (∃ e, fetch op = some e ∧ e.pkScript = a) →
      (∃ tx ∈ txs, ∃ i o, tx.outPoint i = op ∧ tx.txOut[i]? = some o ∧ o.pkScript = b) → a = b := by
    rintro a b ⟨e, he, rfl⟩ ⟨tx, htx, i, o, rfl, ho, rfl⟩
    obtain ⟨o', ho', hscript⟩ := hagree.cache tx htx _ e he rfl
    rw [toNat_index_outPoint (hagree.small tx htx) ho, ho, Option.some_inj] at ho'
    rw [← hscript, ho']
  rcases ha with ha | ha <;> rcases hb with hb | hb
  · obtain ⟨e, he, rfl⟩ := ha
    obtain ⟨e', he', rfl⟩ := hb
    rw [he, Option.some_inj] at he'
    rw [he']
  · exact hmixed ha hb
  · exact (hmixed hb ha).symm
  · obtain ⟨tx, htx, i, o, hop, ho, rfl⟩ := ha
    obtain ⟨tx', htx', i', o', hop', ho', rfl⟩ := hb
    obtain rfl : tx = tx' := List.inj_on_of_nodup_map hagree.distinct htx htx'
      ((congrArg OutPoint.hash hop).trans (congrArg OutPoint.hash hop').symm)
    have hi := toNat_index_outPoint (hagree.small tx htx) ho
    have hi' := toNat_index_outPoint (hagree.small tx htx) ho'
    rw [hop, ← hop', hi'] at hi
    rw [← hi, ho', Option.some_inj] at ho
    rw [ho]

end Agree

/-! ## What the cost depends on -/

section Cost

variable {v w : UtxoViewpoint} {engine : ScriptEngine} {tx : MsgTx} {segWit : Bool}

/-- The inputs of a transaction are unspent in a view. -/
def UtxoViewpoint.HasInputs (v : UtxoViewpoint) (tx : MsgTx) : Prop :=
  ∀ ti ∈ tx.txIn, (v.unspent ti.previousOutPoint).isSome = true

variable {count : TxIn → UtxoEntry → Nat}

theorem countInputs_congr
    (hcount : ∀ ti e e', e.pkScript = e'.pkScript → count ti e = count ti e') {tis : List TxIn}
    (h : ∀ ti ∈ tis, ∃ e e', v.unspent ti.previousOutPoint = some e ∧
      w.unspent ti.previousOutPoint = some e' ∧ e.pkScript = e'.pkScript)
    (i : Nat) : countInputs count v tx i tis = countInputs count w tx i tis := by
  induction tis generalizing i with
  | nil => rfl
  | cons ti tis ih =>
    obtain ⟨e, e', he, he', hscript⟩ := h ti List.mem_cons_self
    rw [countInputs, countInputs, he, he']
    dsimp only
    rw [hcount ti e e' hscript, ih fun ti hti => h ti (List.mem_cons_of_mem _ hti)]

/-- Two views that have a transaction's inputs with the same scripts give it the same cost. -/
theorem getSigOpCost_congr
    (h : ∀ ti ∈ tx.txIn, ∃ e e', v.unspent ti.previousOutPoint = some e ∧
      w.unspent ti.previousOutPoint = some e' ∧ e.pkScript = e'.pkScript) :
    getSigOpCost engine tx false v true segWit = getSigOpCost engine tx false w true segWit := by
  have hp2sh : countP2SHSigOps engine tx false v = countP2SHSigOps engine tx false w := by
    rw [countP2SHSigOps, countP2SHSigOps, if_neg Bool.false_ne_true, if_neg Bool.false_ne_true]
    exact countInputs_congr (fun ti e e' hscript => by rw [hscript]) h 0
  rw [getSigOpCost, getSigOpCost, hp2sh]
  rw [countInputs_congr (fun ti e e' hscript => by rw [hscript]) h 0]

theorem countInputs_ok {tis : List TxIn}
    (h : ∀ ti ∈ tis, (v.unspent ti.previousOutPoint).isSome = true) (i : Nat) :
    ∃ n, countInputs count v tx i tis = .ok n := by
  induction tis generalizing i with
  | nil => exact ⟨0, rfl⟩
  | cons ti tis ih =>
    obtain ⟨e, he⟩ := Option.isSome_iff_exists.1 (h ti List.mem_cons_self)
    obtain ⟨n, hn⟩ := ih (fun ti hti => h ti (List.mem_cons_of_mem _ hti)) (i + 1)
    exact ⟨count ti e + n, by rw [countInputs, he]; dsimp only; rw [hn, ok_bind]⟩

theorem countInputs_error {tis : List TxIn} {ti : TxIn} (hmem : ti ∈ tis)
    (h : v.unspent ti.previousOutPoint = none) (i : Nat) :
    ∃ e, countInputs count v tx i tis = .error e := by
  induction tis generalizing i with
  | nil => cases hmem
  | cons ti' tis ih =>
    rw [countInputs]
    cases hti' : v.unspent ti'.previousOutPoint with
    | none => exact ⟨_, rfl⟩
    | some e =>
      rcases List.mem_cons.1 hmem with rfl | hmem
      · rw [h] at hti'
        cases hti'
      · obtain ⟨e', he'⟩ := ih hmem (i + 1)
        exact ⟨e', by dsimp only; rw [he', error_bind]⟩

/-- With all inputs there, the cost is at least that of the transaction's own scripts. -/
theorem getSigOpCost_of_hasInputs (engine : ScriptEngine) (segWit : Bool) (h : v.HasInputs tx) :
    ∃ c, getSigOpCost engine tx false v true segWit = .ok c ∧
      countSigOps engine tx * witnessScaleFactor ≤ c := by
  have hp2sh : ∃ n, countP2SHSigOps engine tx false v = .ok n := by
    rw [countP2SHSigOps, if_neg Bool.false_ne_true]
    exact countInputs_ok h 0
  obtain ⟨n, hn⟩ := hp2sh
  obtain ⟨m, hm⟩ : ∃ m, countInputs (fun ti e =>
      engine.getWitnessSigOpCount ti.signatureScript e.pkScript ti.witness) v tx 0 tx.txIn =
        .ok m := countInputs_ok h 0
  rw [getSigOpCost, if_pos rfl, hn]
  dsimp only
  rw [hm, ok_bind]
  split
  · exact ⟨_, rfl, by omega⟩
  · exact ⟨_, rfl, by omega⟩

/-- With an input missing, the cost is zero. -/
theorem getSigOpCost_of_missing {ti : TxIn} (hmem : ti ∈ tx.txIn)
    (h : v.unspent ti.previousOutPoint = none) :
    getSigOpCost engine tx false v true segWit = .ok 0 := by
  have hp2sh : ∃ e, countP2SHSigOps engine tx false v = .error e := by
    rw [countP2SHSigOps, if_neg Bool.false_ne_true]
    exact countInputs_error hmem h 0
  obtain ⟨e, he⟩ := hp2sh
  rw [getSigOpCost, if_pos rfl, he]

end Cost

end Obtcd
