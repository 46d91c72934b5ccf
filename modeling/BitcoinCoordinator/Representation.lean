import BitcoinCoordinator.BuiltSpeedups
import BitcoinCoordinator.Registrations
import BitcoinCoordinator.Foundation.Index

/-!
# How the lists and the records of the store agree

The speedup list, the pending list and the funding queue are stored beside the records they name. A completed
step edits the store in a few ways, and each of them keeps the three lists in agreement with the records,
unless a build returns a transaction that is pending itself, or a change output is queued a second time.
-/

namespace BitcoinCoordinator

open Foundation

variable {ctx : Ctx} {tidy : Prop} {phase : Phase} {w w' : World}

/-! ### Edits -/

/-- The store with a funding UTXO at the end of the queue, unspent. -/
def Store.enqueue (s : Store) (utxo : Utxo) : Store :=
  { s.setFunding utxo.outPoint ⟨utxo, false, false⟩ with
    fundingList := if utxo.outPoint ∈ s.fundingList then s.fundingList
      else s.fundingList ++ [utxo.outPoint] }

/-- The change output of a tracked speedup with a queued input is not in the queue, unless the speedup
consumes it. -/
def Store.ChangeIsNew (s : Store) (txid : Txid) : Prop :=
  ∀ tx ∈ s.txs.get txid, ∀ kind ∈ tx.speedup?, ∀ change ∈ tx.speedupChangeUtxo.toOption,
    (∃ op ∈ s.fundingList, op ∈ kind.consumed) → change.outPoint ∈ s.fundingList →
      change.outPoint ∈ kind.consumed

instance (s : Store) (txid : Txid) : Decidable (s.ChangeIsNew txid) :=
  inferInstanceAs (Decidable (∀ tx ∈ s.txs.get txid, _))

/-- A speedup is stored under an identifier that is not pending, and a finalized one is swapped in with a
change output that is not queued. -/
def Event.keepsKeysApart : Event → Bool
  | .inserted tx before => decide (tx.txid ∉ before.pendingSpeedupParents)
  | .finalizing txid s => decide (s.ChangeIsNew txid)
  | _ => true

/-- The history stored no speedup under a pending identifier, and swapped no change output into the queue
that was queued already. -/
def Untangled (log : List Event) : Prop := ∀ e ∈ log, e.keepsKeysApart = true

instance (log : List Event) : Decidable (Untangled log) :=
  inferInstanceAs (Decidable (∀ e ∈ log, _))

/-- The ways a completed step edits the store. -/
inductive Edit (s : Store) : Store → Prop where
  | same : Edit s s
  | unpended (txid : Txid) : Edit s (s.unpend txid)
  | flagged (op : OutPoint) (record : FundingData) (hget : s.funding op = some record) (spent : Bool) :
      Edit s (s.setFunding op { record with spent := spent })
  | prepended (txids : List Txid) (hneeds : ∀ txid ∈ txids, s.isNeedsSpeedup txid)
      (hnodup : txids.Nodup) : Edit s (s.prepend txids)
  | changed (old tx : CoordinatedTx) (hget : s.txs.get tx.txid = some old) (hbody : tx.body = old.body)
      (hlisted : tx.speedup?.isSome → tx.state.isActive →
        old.state.isActive ∨ tx.txid ∈ s.speedupList) : Edit s (s.setTx tx)
  | inserted (tx : CoordinatedTx) (hkind : tx.speedup?.isSome)
      (hfree : tx.txid ∉ s.pendingSpeedupParents) : Edit s ((s.setTx tx).list tx.txid)
  | removed (txid : Txid) (hfree : s.isNeedsSpeedup txid → txid ∉ s.pendingSpeedupParents) :
      Edit s ((s.eraseTx txid).unlist txid)
  | registered (tx : CoordinatedTx) (hfresh : s.txs.get tx.txid = none) (hkind : tx.speedup? = none) :
      Edit s (if tx.isNeedsSpeedup then (s.setTx tx).pend tx.txid else s.setTx tx)
  | funded (utxo : Utxo) : Edit s (s.enqueue utxo)
  | swapped {s' : Store} (txid : Txid) (consumed : List OutPoint) (change : Utxo) (spent : Bool)
      (hkeys : s.SwappedKeys s' txid consumed change spent)
      (hsettled : ∀ tx, s.txs.get txid = some tx → tx.state.isTerminal)
      (hnew : change.outPoint ∈ s.fundingList → change.outPoint ∈ consumed) : Edit s s'

/-- A quiet move is an edit. -/
theorem Quiet.edit (h : Quiet w w') (horderly : Orderly w) : Edit w.store w'.store := by
  cases h with
  | wrote s hwrite =>
    cases hwrite with
    | unpended txid => exact Edit.unpended txid
    | flagged op record hget spent => exact Edit.flagged op record hget spent
  | prepended txids hneeds hrequeue =>
    exact Edit.prepended txids hneeds (horderly.requeue hrequeue)
  | _ => exact Edit.same

/-- A plain move is an edit. -/
theorem Plain.edit (h : Plain ctx True phase w w') (horderly : Orderly w) :
    Edit w.store w'.store := by
  cases h with
  | quiet hquiet => exact hquiet.edit horderly
  | changed tx tx' hget hchange _ =>
    apply Edit.changed tx tx'
    · rw [hchange.txid_eq]
      exact hget
    · exact hchange.body_eq
    · intro _ hactive
      exact Or.inl (TransactionState.isActive_of_canTransitionTo hchange.canTransitionTo hactive)
  | vanished tx height hget hstep _ _ =>
    apply Edit.changed tx (tx.requeued _) hget rfl
    intro _ hactive
    exact Or.inl (TransactionState.isActive_of_canTransitionTo hstep hactive)
  | rewrote copy updated hrewrite _ hdrift hlisted =>
    obtain ⟨record, hget, hdrifted⟩ := hdrift trivial
    apply Edit.changed record updated
    · rw [hrewrite.txid_eq]
      exact hget
    · exact hrewrite.body_eq.trans hdrifted.body_eq.symm
    · intro hspeedup _
      right
      rw [hrewrite.txid_eq]
      exact hlisted trivial (CoordinatedTx.isSome_speedup?_of_body hrewrite.body_eq hspeedup)
  | _ => exact Edit.same

/-- A speedup that was stored and listed is an edit. -/
theorem edit_of_insertSpeedup {tx : CoordinatedTx} {u : Unit} (htx : Insertable ctx w tx)
    (hfree : tx.txid ∉ w.store.pendingSpeedupParents)
    (hrun : insertSpeedup tx ctx w = (.ok u, w')) : Edit w.store w'.store := by
  obtain ⟨kind, hkind, -⟩ := htx.funded
  have hsome : tx.speedup?.isSome := by rw [hkind]; rfl
  have hinserting : Inserting tx w (insertSpeedup tx ctx w) := insertSpeedup_inserting tx
  have hedit : Edit w.store ((w.store.setTx tx).list tx.txid) := Edit.inserted tx hsome hfree
  rw [hrun] at hinserting
  cases hinserting with
  | relisted hlisted =>
    unfold Store.list at hedit
    rwa [if_pos (show tx.txid ∈ (w.store.setTx tx).speedupList from hlisted)] at hedit
  | listed => exact hedit

/-- A client transaction that was stored is an edit. -/
theorem edit_of_storeRegistered {tx : CoordinatedTx} {u : Unit}
    (hfresh : w.store.txs.get tx.txid = none) (hkind : tx.speedup? = none)
    (hrun : storeRegistered tx ctx w = (.ok u, w')) : Edit w.store w'.store := by
  obtain ⟨_, w₁, hnote, hbody⟩ := Prog.bind_ok.mp hrun
  obtain rfl := note_ok.mp hnote
  obtain ⟨_, w₂, hinsert, hpend⟩ := Prog.bind_ok.mp hbody
  obtain ⟨-, hw₂⟩ := writeStore_ok.mp hinsert
  have hstored : w₂.store = w.store.setTx tx := by rw [hw₂]; rfl
  have hedit : Edit w.store _ := Edit.registered tx hfresh hkind
  rw [← hstored] at hedit
  rcases Prog.ite_ok.mp hpend with ⟨hneeds, hadd⟩ | ⟨hneeds, hpure⟩
  · have hone : OneWrite (fun s => s.pend tx.txid) w₂ (addPendingSpeedupParent tx.txid ctx w₂) :=
      addPendingSpeedupParent_oneWrite tx.txid
    rw [hadd] at hone
    rw [if_pos hneeds] at hedit
    rw [hone.store_eq]
    exact hedit
  · obtain ⟨-, rfl⟩ := Prog.pure_ok.mp hpure
    rw [if_neg hneeds] at hedit
    exact hedit

/-- A funding UTXO that was queued is an edit. -/
theorem edit_of_appendFunding {utxo : Utxo} {u : Unit}
    (hrun : appendFunding utxo ctx w = (.ok u, w')) : Edit w.store w'.store := by
  obtain ⟨_, w₁, hnote, hbody⟩ := Prog.bind_ok.mp hrun
  obtain rfl := note_ok.mp hnote
  obtain ⟨_, w₂, hfund, hqueue⟩ := Prog.bind_ok.mp hbody
  obtain ⟨-, rfl⟩ := writeStore_ok.mp hfund
  obtain ⟨list, w₃, hread, happend⟩ := Prog.bind_ok.mp hqueue
  obtain ⟨rfl, rfl⟩ := readStore_ok.mp hread
  have hedit : Edit w.store (w.store.enqueue utxo) := Edit.funded utxo
  unfold Store.enqueue at hedit
  rcases Prog.ite_ok.mp happend with ⟨hin, hpure⟩ | ⟨hout, hwrite⟩
  · obtain ⟨-, rfl⟩ := Prog.pure_ok.mp hpure
    rw [if_pos (show utxo.outPoint ∈ w.store.fundingList from hin)] at hedit
    exact hedit
  · obtain ⟨-, rfl⟩ := writeStore_ok.mp hwrite
    rw [if_neg (show utxo.outPoint ∉ w.store.fundingList from hout)] at hedit
    exact hedit

/-- What is in the history stays there. -/
theorem ends_mem_log {α : Type} {m : Coord α} {e : Event} (h : Records (fun _ _ => True) m)
    (hin : e ∈ w.log) : Prog.Ends (fun _ w' => e ∈ w'.log) m ctx w :=
  (h.related ctx w).history.suffix.subset hin

/-- The moment a finalization begins is in the history it leaves. -/
theorem finalizing_of_replaceFundingOnFinalize {txid : Txid} {r : Except Stop Unit}
    (hrun : replaceFundingOnFinalize txid ctx w = (r, w')) :
    .finalizing txid w.store ∈ w'.log := by
  have hnote : Prog.Ends (fun x w' => x = .ok () ∧ w' = w.noted (.finalizing txid w.store))
      (note (.finalizing txid)) ctx w := ⟨rfl, rfl⟩
  have hends : Prog.Ends (fun _ w' => .finalizing txid w.store ∈ w'.log)
      (replaceFundingOnFinalize txid) ctx w := by
    apply Prog.Ends.bind hnote
    · rintro e w₁ ⟨he, -⟩
      cases he
    rintro _ w₁ ⟨-, rfl⟩ -
    refine ends_mem_log ?_ List.mem_cons_self
    apply lookup_records
    · infer_instance
    · intro tx
      dsimp only
      split <;> infer_instance
  exact hends.run hrun

/-- A completed operation is an edit. -/
theorem Whole.edit {u : Unit} (h : Whole ctx True (.ok u) phase w w') (hlog : Untangled w'.log) :
    Edit w.store w'.store := by
  cases h with
  | inserted tx htx hrun =>
    exact edit_of_insertSpeedup htx
      (of_decide_eq_true (hlog _ (inserted_of_insertSpeedup hrun))) hrun
  | evicted tx _ hstale _ hrun =>
    rw [removeTx_store hrun]
    apply Edit.removed
    intro hneeds
    unfold Store.isNeedsSpeedup at hneeds
    split at hneeds
    · next record hget => exact ((hstale record hget).2 hneeds).1
    · cases hneeds
  | dropped txid _ hpending hrun =>
    rw [removeTx_store hrun]
    exact Edit.removed txid fun _ => hpending
  | registered tx hfresh hkind _ hrun => exact edit_of_storeRegistered hfresh hkind hrun
  | funded utxo hrun => exact edit_of_appendFunding hrun
  | swapped txid hterminal hrun =>
    cases (replaceFundingOnFinalize_ends txid).run hrun with
    | refused e he => cases he
    | unchanged hstore _ =>
      rw [hstore]
      exact Edit.same
    | swapped tx kind change hswaps hchange hkeys =>
      have hnew : w.store.ChangeIsNew txid :=
        of_decide_eq_true (hlog _ (finalizing_of_replaceFundingOnFinalize hrun))
      exact Edit.swapped txid kind.consumed change kind.context.spent hkeys (hterminal trivial)
        (hnew tx hswaps.1 kind hswaps.2.1 change (by rw [hchange]; rfl) hswaps.2.2)

/-- A completed step is an edit. -/
theorem Step.edit (h : Step ctx True phase w w') (horderly : Orderly w) (hlog : Untangled w'.log) :
    Edit w.store w'.store := by
  cases h with
  | plain hplain => exact hplain.edit horderly
  | whole hwhole => exact hwhole.edit hlog

/-! ### Lists and records -/

/-- The three lists of a store agree with its records: the speedup list with the speedups and all the active
ones, the pending list with parents that need a speedup, and the queue with all the funding records. -/
structure Store.IsIndexed (s : Store) : Prop where
  speedups : Indexes (fun _ tx => tx.speedup?.isSome) (fun tx => tx.speedup?.isSome ∧ tx.state.isActive)
    s.speedupList s.txs.get
  parents : Indexes (fun _ tx => tx.isNeedsSpeedup) (fun _ => False) s.pendingSpeedupParents s.txs.get
  queue : Indexes (fun op record => record.utxo.outPoint = op) (fun _ => True) s.fundingList s.funding

/-- The list after an identifier was appended unless it is listed. -/
theorem Store.speedupList_list (s : Store) (txid : Txid) : (s.list txid).speedupList =
    if txid ∈ s.speedupList then s.speedupList else s.speedupList ++ [txid] := by
  unfold Store.list
  split <;> rfl

/-- The list after a parent was appended unless it is pending. -/
theorem Store.pendingSpeedupParents_pend (s : Store) (txid : Txid) :
    (s.pend txid).pendingSpeedupParents = if txid ∈ s.pendingSpeedupParents then s.pendingSpeedupParents
      else s.pendingSpeedupParents ++ [txid] := by
  unfold Store.pend
  split <;> rfl

/-- Listing a speedup leaves the other keys. -/
theorem Store.list_other (s : Store) (txid : Txid) : (s.list txid).txs = s.txs ∧
    (s.list txid).pendingSpeedupParents = s.pendingSpeedupParents ∧
    (s.list txid).fundingList = s.fundingList ∧ (s.list txid).funding = s.funding := by
  unfold Store.list
  split <;> exact ⟨rfl, rfl, rfl, rfl⟩

/-- Pending a parent leaves the other keys. -/
theorem Store.pend_other (s : Store) (txid : Txid) : (s.pend txid).txs = s.txs ∧
    (s.pend txid).speedupList = s.speedupList ∧ (s.pend txid).fundingList = s.fundingList ∧
    (s.pend txid).funding = s.funding := by
  unfold Store.pend
  split <;> exact ⟨rfl, rfl, rfl, rfl⟩

/-- A record that is listed or pending is tracked. -/
theorem Store.IsIndexed.not_mem_of_fresh {s : Store} (h : s.IsIndexed) {txid : Txid}
    (hfresh : s.txs.get txid = none) : txid ∉ s.speedupList ∧ txid ∉ s.pendingSpeedupParents := by
  constructor
  · intro hin
    obtain ⟨tx, hget, -⟩ := h.speedups.sound txid hin
    rw [hfresh] at hget
    cases hget
  · intro hin
    obtain ⟨tx, hget, -⟩ := h.parents.sound txid hin
    rw [hfresh] at hget
    cases hget

/-- A changed record stays where it was listed. -/
theorem Store.IsIndexed.changed {s : Store} (h : s.IsIndexed) {old tx : CoordinatedTx}
    (hget : s.txs.get tx.txid = some old) (hbody : tx.body = old.body)
    (hlisted : tx.speedup?.isSome → tx.state.isActive →
      old.state.isActive ∨ tx.txid ∈ s.speedupList) : (s.setTx tx).IsIndexed where
  speedups := by
    apply h.speedups.put (s.get_setTx tx)
    · intro hin
      obtain ⟨record, hrecord, hspeedup⟩ := h.speedups.sound _ hin
      rw [hget] at hrecord
      cases hrecord
      exact CoordinatedTx.isSome_speedup?_of_body hbody.symm hspeedup
    · rintro ⟨hspeedup, hactive⟩
      rcases hlisted hspeedup hactive with hold | hin
      · exact h.speedups.complete _ _ hget
          ⟨CoordinatedTx.isSome_speedup?_of_body hbody hspeedup, hold⟩
      · exact hin
  parents := by
    apply h.parents.put (s.get_setTx tx)
    · intro hin
      obtain ⟨record, hrecord, hneeds⟩ := h.parents.sound _ hin
      rw [hget] at hrecord
      cases hrecord
      rw [CoordinatedTx.isNeedsSpeedup_of_body hbody]
      exact hneeds
    · exact False.elim
  queue := h.queue

/-- A new speedup is listed. -/
theorem Store.IsIndexed.inserted {s : Store} (h : s.IsIndexed) {tx : CoordinatedTx}
    (hkind : tx.speedup?.isSome) (hfree : tx.txid ∉ s.pendingSpeedupParents) :
    ((s.setTx tx).list tx.txid).IsIndexed := by
  obtain ⟨htxs, hpending, hqueue, hfunding⟩ := (s.setTx tx).list_other tx.txid
  constructor
  · rw [htxs, Store.speedupList_list]
    exact h.speedups.append (s.get_setTx tx) hkind
  · rw [htxs, hpending]
    exact h.parents.put (s.get_setTx tx) (fun hin => absurd hin hfree) False.elim
  · rw [hqueue, hfunding]
    exact h.queue

/-- A record that is not pending is dropped from the records and from the speedup list. -/
theorem Store.IsIndexed.removed {s : Store} (h : s.IsIndexed) {txid : Txid}
    (hfree : txid ∉ s.pendingSpeedupParents) : ((s.eraseTx txid).unlist txid).IsIndexed where
  speedups := by
    apply h.speedups.filter
    · intro id _ hne
      exact (s.get_eraseTx txid id).trans (if_neg (of_decide_eq_true hne))
    · intro id tx hget _
      have herased := (s.get_eraseTx txid id).symm.trans hget
      split at herased
      · cases herased
      · next hne => exact ⟨herased, decide_eq_true hne⟩
  parents := by
    apply h.parents.of_kept
    · intro id hin
      refine (s.get_eraseTx txid id).trans (if_neg ?_)
      rintro rfl
      exact hfree hin
    · exact fun _ _ _ => False.elim
  queue := h.queue

/-- A client transaction is pending when it needs a speedup. -/
theorem Store.IsIndexed.registered {s : Store} (h : s.IsIndexed) {tx : CoordinatedTx}
    (hfresh : s.txs.get tx.txid = none) (hkind : tx.speedup? = none) :
    (if tx.isNeedsSpeedup then (s.setTx tx).pend tx.txid else s.setTx tx).IsIndexed := by
  obtain ⟨hunlisted, hfree⟩ := h.not_mem_of_fresh hfresh
  have hspeedups : Indexes (fun _ tx => tx.speedup?.isSome)
      (fun tx => tx.speedup?.isSome ∧ tx.state.isActive) s.speedupList (s.setTx tx).txs.get := by
    apply h.speedups.put (s.get_setTx tx)
    · exact fun hin => absurd hin hunlisted
    · rintro ⟨hspeedup, -⟩
      rw [hkind] at hspeedup
      cases hspeedup
  split
  · next hneeds =>
    obtain ⟨htxs, hlist, hqueue, hfunding⟩ := (s.setTx tx).pend_other tx.txid
    constructor
    · rw [htxs, hlist]
      exact hspeedups
    · rw [htxs, Store.pendingSpeedupParents_pend]
      exact h.parents.append (s.get_setTx tx) hneeds
    · rw [hqueue, hfunding]
      exact h.queue
  · constructor
    · exact hspeedups
    · exact h.parents.put (s.get_setTx tx) (fun hin => absurd hin hfree) False.elim
    · exact h.queue

/-- A funding UTXO is queued with its record. -/
theorem Store.IsIndexed.enqueued {s : Store} (h : s.IsIndexed) (utxo : Utxo) :
    (s.enqueue utxo).IsIndexed where
  speedups := h.speedups
  parents := h.parents
  queue := h.queue.append (fun _ => rfl) rfl

/-- The entries a speedup consumed give way to its change output, which was not queued. -/
theorem Store.IsIndexed.swapped {s s' : Store} (h : s.IsIndexed) {txid : Txid}
    {consumed : List OutPoint} {change : Utxo} {spent : Bool}
    (hkeys : s.SwappedKeys s' txid consumed change spent)
    (hsettled : ∀ tx, s.txs.get txid = some tx → tx.state.isTerminal)
    (hnew : change.outPoint ∈ s.fundingList → change.outPoint ∈ consumed) : s'.IsIndexed where
  speedups := by
    rw [hkeys.txs, hkeys.speedups]
    apply h.speedups.filter
    · exact fun _ _ _ => rfl
    · rintro id tx hget ⟨-, hactive⟩
      refine ⟨hget, decide_eq_true ?_⟩
      rintro rfl
      have hterminal := hsettled tx hget
      revert hactive hterminal
      cases tx.state <;> simp [TransactionState.isActive, TransactionState.isTerminal]
  parents := by
    rw [hkeys.txs, hkeys.pending]
    exact h.parents
  queue := by
    obtain ⟨before, first, after, hlist, hbefore, hfirst, hlist'⟩ := hkeys.list
    -- The consumed entries go first, with their records, and then the change output joins.
    have hdropped : Indexes (fun op record => record.utxo.outPoint = op) (fun _ => True)
        (s.fundingList.filter fun op => decide (op ∉ consumed))
        fun op => if op ∈ s.fundingList ∧ op ∈ consumed then none else s.funding op := by
      apply h.queue.filter
      · intro op _ hout
        exact if_neg fun hboth => of_decide_eq_true hout hboth.2
      · intro op record hget _
        split at hget
        · cases hget
        · next hkept =>
          have hin : op ∈ s.fundingList := h.queue.complete op record hget trivial
          exact ⟨hget, decide_eq_true fun hconsumed => hkept ⟨hin, hconsumed⟩⟩
    have hout : change.outPoint ∉ s.fundingList.filter fun op => decide (op ∉ consumed) := by
      intro hin
      obtain ⟨hqueued, hkept⟩ := List.mem_filter.mp hin
      exact of_decide_eq_true hkept (hnew hqueued)
    have hsplit : s.fundingList.filter (fun op => decide (op ∉ consumed)) =
        before ++ after.filter fun op => decide (op ∉ consumed) := by
      rw [hlist, List.filter_append, List.filter_cons_of_neg (by simpa using hfirst),
        List.filter_eq_self.mpr fun op hop => by simpa using hbefore op hop]
    rw [hlist']
    apply (hdropped.cons (v := ⟨change, spent, true⟩) hkeys.funding rfl hout).perm
    rw [hsplit]
    exact List.perm_middle.symm

/-- Every edit keeps the lists and the records in agreement. -/
theorem Store.IsIndexed.edit {s s' : Store} (h : s.IsIndexed) (hedit : Edit s s') : s'.IsIndexed := by
  cases hedit with
  | same => exact h
  | unpended txid =>
    exact ⟨h.speedups, h.parents.filter (fun _ _ _ => rfl) fun _ _ _ => False.elim, h.queue⟩
  | flagged op record hget spent =>
    have hin : op ∈ s.fundingList := h.queue.complete op record hget trivial
    refine ⟨h.speedups, h.parents, h.queue.put (fun _ => rfl) (fun _ => ?_) fun _ => hin⟩
    obtain ⟨record', hget', hnamed⟩ := h.queue.sound op hin
    rw [hget] at hget'
    cases hget'
    exact hnamed
  | prepended txids hneeds hnodup =>
    refine ⟨h.speedups, h.parents.prepend (hnodup.filter _) ?_ ?_, h.queue⟩
    · exact fun txid hin => of_decide_eq_true (List.mem_filter.mp hin).2
    · intro txid hin
      have hparent := hneeds txid (List.mem_filter.mp hin).1
      unfold Store.isNeedsSpeedup at hparent
      split at hparent
      · next tx hget => exact ⟨tx, hget, hparent⟩
      · cases hparent
  | changed old tx hget hbody hlisted => exact h.changed hget hbody hlisted
  | inserted tx hkind hfree => exact h.inserted hkind hfree
  | removed txid hfree =>
    apply h.removed
    intro hin
    obtain ⟨tx, hget, hneeds⟩ := h.parents.sound txid hin
    refine hfree ?_ hin
    unfold Store.isNeedsSpeedup
    rw [hget]
    exact hneeds
  | registered tx hfresh hkind => exact h.registered hfresh hkind
  | funded utxo => exact h.enqueued utxo
  | swapped txid consumed change spent hkeys hsettled hnew => exact h.swapped hkeys hsettled hnew

/-! ### Runs -/

/-- Between two steps the versions are orderly, and while the history is untangled the lists agree with the
records. -/
structure Agrees (w : World) : Prop where
  orderly : Orderly w
  indexed : Untangled w.log → w.store.IsIndexed

/-- Every step keeps the versions orderly. -/
theorem Orderly.step (h : Orderly w) (hbuilder : ctx.answers.BuildsOutputs)
    (hstep : Step ctx tidy phase w w') : Orderly w' := by
  have hmoves := hstep.moves
  clear hstep
  induction hmoves with
  | refl => exact h
  | tail _ hlast ih => exact ih.move hbuilder hlast

/-- Every step leaves the history behind it. -/
theorem Step.log_suffix (h : Step ctx tidy phase w w') : w.log <:+ w'.log := by
  have hmoves := h.moves
  clear h
  induction hmoves with
  | refl => exact List.suffix_rfl
  | tail _ hlast ih => exact ih.trans hlast.log_suffix

/-- Every completed step keeps the agreement. -/
theorem Agrees.step (h : Agrees w) (hbuilder : ctx.answers.BuildsOutputs)
    (hstep : Step ctx True phase w w') : Agrees w' where
  orderly := h.orderly.step hbuilder hstep
  indexed := fun hlog =>
    (h.indexed fun e he => hlog e (hstep.log_suffix.subset he)).edit (hstep.edit h.orderly hlog)

/-- A completed call keeps the agreement. -/
theorem Agrees.exec {request : Request} (h : Agrees w) (hbuilder : ctx.answers.BuildsOutputs)
    (htidy : IsTidy w) (hrun : exec request ctx w = (.ok (), w')) : Agrees w' := by
  have hserved : Served True (BitcoinCoordinator.exec request) ctx w :=
    exec_served request fun _ => htidy
  refine Prog.Walks.keeps hserved ?_ h hrun
  rintro w₁ w₂ hagrees ⟨phase, hstep⟩
  exact hagrees.step hbuilder hstep

/-- Before the first call nothing is listed and nothing is stored. -/
theorem agrees_init : Agrees World.init where
  orderly := by
    constructor
    · rintro s (rfl | ⟨after, hwrote⟩)
      · exact List.nodup_nil
      · cases hwrote
    · rintro s (rfl | ⟨after, hwrote⟩) txid tx hget
      · cases hget
      · cases hwrote
  indexed := fun _ => ⟨Indexes.empty, Indexes.empty, Indexes.empty⟩

/-- The lists of a store agree with its records, and every index into the funding inputs of a speedup is in
range: in every version so far a speedup record gives access to its first input, its last output and its
change, and from here no finalization, no choice of funding and no build runs out of inputs. -/
structure World.IsRepresented (w : World) : Prop where
  indexed : w.store.IsIndexed
  accessors : ∀ s, w.HasVersion s → ∀ txid tx kind, s.txs.get txid = some tx → tx.speedup? = some kind →
    kind.context.fundingInputs ≠ [] ∧ (∃ last, tx.lastOutput = .ok last) ∧
      ∃ change, tx.speedupChangeUtxo = .ok change
  finalization : ∀ ctx txid, Prog.Avoids .panic (replaceFundingOnFinalize txid) ctx w
  funding : ∀ ctx, Prog.Avoids .panic (getFunding w.store.speedupsOrdered) ctx w
  build : ∀ ctx entries initial bumpFee feeRate chainDiffFee,
    (∀ inputs, initial = some inputs → ∃ txid tx kind, w.store.txs.get txid = some tx ∧
      tx.speedup? = some kind ∧ inputs = kind.context.fundingInputs) →
    Prog.Avoids .panic (buildSpeedup entries initial bumpFee feeRate chainDiffFee) ctx w
  inherited : ∀ ctx entries inputs bumpFee feeRate chainDiffFee built w',
    buildSpeedup entries (some inputs) bumpFee feeRate chainDiffFee ctx w = (.ok (some built), w') →
      inputs.length ≤ built.fundingInputs.length

/-- A build keeps the inputs it inherits in front. -/
theorem length_le_of_buildSpeedup {entries : List (SpeedupData × ℕ)} {inputs : List Utxo} {bumpFee : ℚ}
    {feeRate chainDiffFee : ℕ} {built : SpeedupBuildResult}
    (hrun : buildSpeedup entries (some inputs) bumpFee feeRate chainDiffFee ctx w =
      (.ok (some built), w')) : inputs.length ≤ built.fundingInputs.length := by
  rcases buildSpeedup_result hrun with ⟨hnone, -⟩ |
    ⟨start, extra, _, _, hstart, -, ⟨built', hsome, hinputs, -⟩ | ⟨hnone, -⟩⟩
  · cases hnone
  · cases hsome
    rcases hstart with hinitial | ⟨hinitial, -⟩
    · cases hinitial
      rw [hinputs, List.length_append]
      omega
    · cases hinitial
  · cases hnone

/-- Orderly versions and lists that agree with the records keep every index in range. -/
theorem Agrees.isRepresented (h : Agrees w) (hlog : Untangled w.log) : w.IsRepresented where
  indexed := h.indexed hlog
  accessors := by
    intro s hversion txid tx kind hget hkind
    have hbuilt : tx.IsWellBuilt := h.orderly.records s hversion txid tx hget
    obtain ⟨-, hinputs, houtput⟩ := hbuilt kind hkind
    exact ⟨hinputs, CoordinatedTx.exists_lastOutput houtput, hbuilt.exists_change hkind⟩
  finalization := fun _ txid =>
    replaceFundingOnFinalize_avoids_panic txid fun _ _ hget => h.orderly.records.current hget
  funding := fun _ => getFunding_avoids_panic fun _ _ hget => h.orderly.records.current hget
  build := by
    intro ctx entries initial bumpFee feeRate chainDiffFee hinitial
    apply buildSpeedup_avoids_panic fun _ _ hget => h.orderly.records.current hget
    intro inputs hinputs
    obtain ⟨txid, tx, kind, hget, hkind, rfl⟩ := hinitial inputs hinputs
    exact (h.orderly.records.current hget kind hkind).2.1
  inherited := fun _ _ _ _ _ _ _ _ hrun => length_le_of_buildSpeedup hrun

/-- In every run whose calls all return `Ok`, while no speedup is stored under a pending identifier and no
change output is queued twice, the lists agree with the records and every index into funding inputs is in
range. -/
theorem isRepresented_of_okRun (cfg : BitcoinSettings) (calls : List Call) (w : World)
    (hbuilder : ∀ call ∈ calls, call.answers.BuildsOutputs) (hrun : OkRun cfg calls World.init w)
    (hlog : Untangled w.log) : w.IsRepresented := by
  have hinduction : ∀ {calls : List Call} {w w' : World}, OkRun cfg calls w w' →
      (∀ call ∈ calls, call.answers.BuildsOutputs) → Agrees w → IsTidy w → Agrees w' := by
    intro calls w w' hrun
    induction hrun with
    | nil w => exact fun _ h _ => h
    | @cons call rest w w₁ w₂ hcall hrest ih =>
      intro hbuilder h htidy
      have htidy₁ : IsTidy (exec call.request ⟨cfg, call.answers⟩ w).2 := exec_tidy htidy
      rw [hcall] at htidy₁
      have hagrees : Agrees w₁ := Agrees.exec h (hbuilder call List.mem_cons_self) htidy hcall
      exact ih (fun later hlater => hbuilder later (List.mem_cons_of_mem _ hlater)) hagrees htidy₁
  exact (hinduction hrun hbuilder agrees_init List.nodup_nil).isRepresented hlog

/-- A CPFP is accepted and buried, and swapped into the queue. -/
def buriedCalls : List Call := acceptedCalls ++ [⟨.tick, buriedCtx.answers⟩]

/-- The plain builder returns transactions with an output. -/
theorem plainBuilder_buildsOutputs (view : NodeView) (vsize : ℕ → ℕ) (feeRate secs : ℕ) :
    (view.answers (plainBuilder vsize) feeRate secs).BuildsOutputs := by
  intro n data inputs key fee tx hbuild
  cases hbuild
  simp [plainBuilder]

/-- The queue of the example run after the CPFP was swapped into it. -/
theorem isRepresented_buriedCalls :
    (runCalls defaultSettings buriedCalls World.init).IsRepresented ∧
      (runCalls defaultSettings buriedCalls World.init).store.fundingList = [firstChange.outPoint] := by
  refine ⟨isRepresented_of_okRun defaultSettings buriedCalls _ ?_ (okRun_runCalls (by decide +kernel)) ?_,
    by decide +kernel⟩
  · intro call hcall
    simp only [buriedCalls, acceptedCalls, growingChainCalls, List.take_succ_cons, List.take_zero,
      List.cons_append, List.nil_append, List.mem_cons, List.not_mem_nil, or_false] at hcall
    rcases hcall with rfl | rfl | rfl | rfl | rfl <;> exact plainBuilder_buildsOutputs _ _ _ _
  · decide +kernel

/-- The client registers the very CPFP that will be built for a parent, for a later block. -/
def registeredCpfpCalls : List Call :=
  let first := sampleView 100 [] [sampleParent]
  [first.call fixedBuilder 10 0 (.addFunding sampleFunding),
    first.call fixedBuilder 10 0 (.dispatchWithSpeedup sampleParent sampleAnchor "parent" none none),
    first.call fixedBuilder 10 0
      (.dispatchWithSpeedup firstOfChain ⟨some firstChange, none⟩ "child" (some 1000) none),
    first.call fixedBuilder 10 0 .tick]

/-- No funding outpoint that the client registers is created by a speedup of the run. -/
def RegistersOwnFunds (calls : List Call) (w : World) : Prop :=
  ∀ call ∈ calls, ∀ utxo, call.request = .addFunding utxo →
    ∀ p ∈ insertions w.log, p.1.txid ≠ utxo.txid

/-- A speedup takes the record of a client transaction that is pending. -/
theorem exists_pending_speedup :
    ∃ (cfg : BitcoinSettings) (calls : List Call), cfg.validate = .ok () ∧
      (∀ call ∈ calls, call.SeesOneView ∧ call.answers.SpendsRequested ∧ call.answers.BuildsOutputs) ∧
      OkRun cfg calls World.init (runCalls cfg calls World.init) ∧
      RegistersOwnFunds calls (runCalls cfg calls World.init) ∧
      ¬ (runCalls cfg calls World.init).IsRepresented := by
  refine ⟨defaultSettings, registeredCpfpCalls, BitcoinSettings.validate_default _, ?_,
    okRun_runCalls (by decide +kernel), ?_, ?_⟩
  · intro call hcall
    simp only [registeredCpfpCalls, List.mem_cons, List.not_mem_nil, or_false] at hcall
    rcases hcall with rfl | rfl | rfl | rfl <;>
      exact ⟨NodeView.call_seesOneView (by decide +kernel) _ _ _ _,
        plainBuilder_spendsRequested _ _ _ _, plainBuilder_buildsOutputs _ _ _ _⟩
  · have hbuilt : ∀ p ∈ insertions (runCalls defaultSettings registeredCpfpCalls World.init).log,
        p.1.txid ≠ sampleFunding.txid := by decide +kernel
    intro call hcall utxo hrequest
    simp only [registeredCpfpCalls, List.mem_cons, List.not_mem_nil, or_false] at hcall
    rcases hcall with rfl | rfl | rfl | rfl <;> cases hrequest
    exact hbuilt
  · intro hrepresented
    obtain ⟨txid, hpending, htaken⟩ : ∃ txid,
        txid ∈ (runCalls defaultSettings registeredCpfpCalls World.init).store.pendingSpeedupParents ∧
        ∀ tx ∈ (runCalls defaultSettings registeredCpfpCalls World.init).store.txs.get txid,
          tx.isNeedsSpeedup = false := ⟨firstOfChain.computeTxid, by decide +kernel, by decide +kernel⟩
    obtain ⟨tx, hget, hneeds⟩ := hrepresented.indexed.parents.sound txid hpending
    rw [htaken tx hget] at hneeds
    cases hneeds

end BitcoinCoordinator
