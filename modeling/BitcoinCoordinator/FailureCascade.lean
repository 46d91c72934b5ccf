import BitcoinCoordinator.CappedTips
import BitcoinCoordinator.Foundation.Visits

/-!
# What a failure takes with it

Failing a transaction fails every listed speedup waiting for dispatch that depends on it, directly or
through others. The cascade is a depth-first visit of the dependants: every level lists those that wait
at that moment, so a victim of a deeper level may be settled again, which changes nothing. A speedup that
waits without being listed is passed over, with everything that is reached only through it.
-/

namespace BitcoinCoordinator

open Foundation

variable {α : Type} {ctx : Ctx} {height : BlockHeight} {w₀ w w' : World}

/-- A record without its marks. -/
def CoordinatedTx.unmarked (tx : CoordinatedTx) : CoordinatedTx := { tx with kind := tx.kind.unmarked }

/-- A speedup waits for dispatch and depends on a transaction: its first funding input comes from the
transaction, or the transaction is one of its parents. -/
def Store.IsDependant (s : Store) (parent txid : Txid) : Prop :=
  ∃ tx, s.txs.get txid = some tx ∧ tx.state = .toDispatch ∧ tx.dependsOn parent = true

/-- What is reached from a transaction through the dependants of a store, the transaction included. -/
def Store.Depends (s : Store) : Txid → Txid → Prop := Relation.ReflTransGen s.IsDependant

/-- Failing a transaction settled exactly what depends on it: these records have failed at the height and
were published, and every other record changed in its marks at most. -/
structure CascadeExact (txid : Txid) (height : BlockHeight) (w w' : World) : Prop where
  settled : ∀ id tx, w.store.Depends txid id → w.store.txs.get id = some tx →
    (∃ tx', w'.store.txs.get id = some tx' ∧ tx'.unmarked =
      { tx with state := .failed, settledBlockHeight := some height : CoordinatedTx }.unmarked) ∧
    w'.Noted (dispatchErrorNews tx id)
  others : ∀ id, ¬ w.store.Depends txid id →
    (w'.store.txs.get id).map CoordinatedTx.unmarked = (w.store.txs.get id).map CoordinatedTx.unmarked

/-! ### Marks and settlements -/

/-- Settling a record and taking its marks off commute. -/
theorem CoordinatedTx.unmarked_settleFailed (tx : CoordinatedTx) :
    (tx.settleFailed height).unmarked = tx.unmarked.settleFailed height := by
  unfold CoordinatedTx.settleFailed CoordinatedTx.unmarked
  split <;> rfl

/-- A settled record does not wait for dispatch. -/
theorem CoordinatedTx.settleFailed_state_ne (tx : CoordinatedTx) :
    (tx.settleFailed height).state ≠ .toDispatch := by
  intro hwaits
  have hfailed := (tx.settleFailed_state_iff height).mpr
  unfold CoordinatedTx.settleFailed at hwaits hfailed
  split at hwaits
  · cases hwaits
  · have := hfailed (Or.inl hwaits)
    grind

/-- A record that waits for dispatch can be settled. -/
theorem CoordinatedTx.settleFailed_of_waiting {tx : CoordinatedTx} (h : tx.state = .toDispatch) :
    tx.settleFailed height = { tx with state := .failed, settledBlockHeight := some height } := by
  have hstep : tx.state.canTransitionTo .failed := TransactionState.canTransitionTo_failed_iff.mpr
    (Or.inl h)
  simp [CoordinatedTx.settleFailed, hstep]

/-- Records that differ in their marks depend on the same transactions, wait together and are published
alike. -/
theorem CoordinatedTx.eq_of_unmarked {tx tx' : CoordinatedTx} (h : tx'.unmarked = tx.unmarked) :
    tx'.txid = tx.txid ∧ tx'.state = tx.state ∧ (∀ id, tx'.dependsOn id = tx.dependsOn id) ∧
      ∀ id, dispatchErrorNews tx' id = dispatchErrorNews tx id := by
  have hdepends : ∀ (tx : CoordinatedTx) id, tx.unmarked.dependsOn id = tx.dependsOn id := by
    intro tx id
    unfold CoordinatedTx.unmarked CoordinatedTx.dependsOn CoordinatedTx.speedup? TxKind.unmarked
    cases tx.kind with
    | speedup kind => cases kind <;> rfl
    | normal => rfl
    | needsSpeedup data => rfl
  have hnews : ∀ (tx : CoordinatedTx) id, dispatchErrorNews tx.unmarked id = dispatchErrorNews tx id := by
    intro tx id
    unfold CoordinatedTx.unmarked dispatchErrorNews CoordinatedTx.speedup? TxKind.unmarked
    cases tx.kind <;> rfl
  have htxid : tx'.unmarked.txid = tx.unmarked.txid := by rw [h]
  have hstate : tx'.unmarked.state = tx.unmarked.state := by rw [h]
  refine ⟨htxid, hstate, ?_, ?_⟩
  · intro id
    rw [← hdepends tx', h, hdepends]
  · intro id
    rw [← hnews tx', h, hnews]

/-- Some records were settled as failed between two worlds and published, and the other records changed in
their marks at most. -/
structure Settles (height : BlockHeight) (failed : List Txid) (w w' : World) : Prop where
  txs : ∀ id, (w'.store.txs.get id).map CoordinatedTx.unmarked = (w.store.txs.get id).map fun tx =>
    (if id ∈ failed then tx.settleFailed height else tx).unmarked
  speedupList : w'.store.speedupList = w.store.speedupList
  news : w.news ⊆ w'.news
  noted : ∀ id ∈ failed, ∀ tx, w.store.txs.get id = some tx → w'.Noted (dispatchErrorNews tx id)

/-- Where the records and the list are the same, nothing was settled. -/
theorem Settles.of_eq (htxs : w'.store.txs = w.store.txs)
    (hlist : w'.store.speedupList = w.store.speedupList) (hnews : w.news ⊆ w'.news) :
    Settles height [] w w' where
  txs := by
    intro id
    rw [htxs]
    rfl
  speedupList := hlist
  news := hnews
  noted := fun id hid => absurd hid List.not_mem_nil

/-- A record found before is found afterwards. -/
theorem Settles.after {failed : List Txid} {id : Txid} {tx : CoordinatedTx}
    (h : Settles height failed w w') (hget : w.store.txs.get id = some tx) :
    ∃ tx', w'.store.txs.get id = some tx' ∧
      tx'.unmarked = (if id ∈ failed then tx.settleFailed height else tx).unmarked := by
  have hsame := h.txs id
  rw [hget] at hsame
  exact Option.map_eq_some_iff.mp hsame

/-- A record found afterwards was found before. -/
theorem Settles.before {failed : List Txid} {id : Txid} {tx' : CoordinatedTx}
    (h : Settles height failed w w') (hget : w'.store.txs.get id = some tx') :
    ∃ tx, w.store.txs.get id = some tx ∧
      tx'.unmarked = (if id ∈ failed then tx.settleFailed height else tx).unmarked := by
  have hsame := h.txs id
  rw [hget] at hsame
  obtain ⟨tx, hbefore, hunmarked⟩ := Option.map_eq_some_iff.mp hsame.symm
  exact ⟨tx, hbefore, hunmarked.symm⟩

/-- The news of a failure is that of the record before it failed. -/
theorem Settles.news_eq {failed : List Txid} {id : Txid} {tx tx' : CoordinatedTx}
    (h : tx'.unmarked = (if id ∈ failed then tx.settleFailed height else tx).unmarked) :
    dispatchErrorNews tx' id = dispatchErrorNews tx id := by
  rw [(CoordinatedTx.eq_of_unmarked h).2.2.2 id]
  split
  · unfold CoordinatedTx.settleFailed
    split <;> rfl
  · rfl

/-- One settlement after another. -/
theorem Settles.trans {failed failed' : List Txid} {w₁ : World} (h : Settles height failed w w₁)
    (h' : Settles height failed' w₁ w') : Settles height (failed' ++ failed) w w' where
  txs := by
    intro id
    have hfirst := h.txs id
    have hthen := h'.txs id
    cases hget : w.store.txs.get id with
    | none =>
      rw [hget] at hfirst
      rw [Option.map_eq_none_iff.mp hfirst] at hthen
      exact hthen
    | some tx =>
      obtain ⟨tx₁, hget₁, hunmarked⟩ := h.after hget
      rw [hthen, hget₁]
      simp only [Option.map_some, Option.some.injEq, List.mem_append]
      by_cases hnow : id ∈ failed'
      · simp only [hnow, true_or, if_true]
        rw [CoordinatedTx.unmarked_settleFailed, hunmarked, ← CoordinatedTx.unmarked_settleFailed]
        split
        · rw [CoordinatedTx.settleFailed_settleFailed]
        · rfl
      · simp only [hnow, false_or, if_false]
        exact hunmarked
  speedupList := h'.speedupList.trans h.speedupList
  news := fun item hitem => h'.news (h.news hitem)
  noted := by
    intro id hid tx hget
    rcases List.mem_append.mp hid with hnow | hbefore
    · obtain ⟨tx₁, hget₁, hunmarked⟩ := h.after hget
      have hnoted := h'.noted id hnow tx₁ hget₁
      rwa [Settles.news_eq hunmarked] at hnoted
    · obtain ⟨item, hitem, heq⟩ := h.noted id hbefore tx hget
      exact ⟨item, h'.news hitem, heq⟩

/-! ### One transaction -/

/-- A value returned at once. -/
theorem UnlessRefused.pure {Q : α → World → Prop} {a : α} (h : Q a w) :
    Prog.Ends (UnlessRefused Q) (Pure.pure a : Coord α) ctx w :=
  Or.inr ⟨a, rfl, h⟩

/-- A postcondition of a program whose only errors are refused writes, weakened. -/
theorem UnlessRefused.mono {P Q : α → World → Prop} {m : Coord α}
    (h : Prog.Ends (UnlessRefused P) m ctx w) (hsub : ∀ a w', P a w' → Q a w') :
    Prog.Ends (UnlessRefused Q) m ctx w := by
  rcases h with hrefused | ⟨a, hrun, hP⟩
  · exact Or.inl hrefused
  · exact Or.inr ⟨a, hrun, hsub a _ hP⟩

/-- A program whose only errors are refused writes, with what its completed runs do. -/
theorem UnlessRefused.of_ok {P Q : α → World → Prop} {m : Coord α}
    (h : Prog.Ends (UnlessRefused P) m ctx w) (hok : ∀ a w', m ctx w = (.ok a, w') → Q a w') :
    Prog.Ends (UnlessRefused Q) m ctx w := by
  rcases h with hrefused | ⟨a, hrun, -⟩
  · exact Or.inl hrefused
  · exact Or.inr ⟨a, hrun, hok a _ (Prod.ext hrun rfl)⟩

/-- A write that changes no more than marks settles nothing. -/
theorem writeStore_settles {f : Store → Store}
    (htxs : ∀ id, ((f w.store).txs.get id).map CoordinatedTx.unmarked =
      (w.store.txs.get id).map CoordinatedTx.unmarked)
    (hlist : (f w.store).speedupList = w.store.speedupList) :
    Prog.Ends (UnlessRefused fun _ w' => Settles height [] w w') (writeStore f) ctx w := by
  apply UnlessRefused.of_ok writeStore_ends
  intro _ w' hrun
  obtain ⟨-, rfl⟩ := writeStore_ok.mp hrun
  exact ⟨htxs, hlist, fun _ hitem => hitem, fun id hid => absurd hid List.not_mem_nil⟩

/-- A write of a record that differs in its marks from the stored one. -/
theorem updateTx_settles {tx updated : CoordinatedTx} (hget : w.store.txs.get tx.txid = some tx)
    (hsame : updated.unmarked = tx.unmarked) :
    Prog.Ends (UnlessRefused fun _ w' => Settles height [] w w') (updateTx updated) ctx w := by
  apply writeStore_settles _ rfl
  intro id
  have hkey := (CoordinatedTx.eq_of_unmarked hsame).1
  rw [Store.get_setTx]
  split
  · next hid => rw [hid, hkey, hget, Option.map_some, Option.map_some, hsame]
  · rfl

/-- Setting a mark does not show without the marks. -/
theorem CoordinatedTx.unmarked_mark {tx : CoordinatedTx} {kind : SpeedupKind} (mark : Mark)
    (hkind : tx.kind = .speedup kind) :
    { tx with kind := .speedup (kind.modifyContext mark.apply) : CoordinatedTx }.unmarked =
      tx.unmarked := by
  unfold CoordinatedTx.unmarked
  simp only [hkind]
  cases kind <;> cases mark <;> rfl

/-- Setting a spent flag settles nothing. -/
theorem setSpent_settles (op : OutPoint) (spent : Bool) :
    Prog.Ends (UnlessRefused fun _ w' => Settles height [] w w') (setSpent op spent) ctx w := by
  have hnothing : ∀ w : World, Settles height [] w w :=
    fun w => Settles.of_eq rfl rfl fun _ hitem => hitem
  have hwrite : Prog.Ends (UnlessRefused fun _ w' => Settles height [] w w') (writeSpent op spent)
      ctx w := by
    apply ends_read
    split
    · apply Prog.Ends.ite <;> intro _
      · exact UnlessRefused.pure (hnothing w)
      · exact writeStore_settles (fun _ => rfl) rfl
    · apply ends_read
      split
      · exact UnlessRefused.pure (hnothing w)
      · next tx hget =>
        have hkey := w.store.keyed _ _ hget
        unfold setSpeedupSpent
        split
        · next kind hkind =>
          apply Prog.Ends.ite <;> intro _
          · exact UnlessRefused.pure (hnothing w)
          · exact updateTx_settles (hkey ▸ hget)
              (CoordinatedTx.unmarked_mark (Mark.spent spent) hkind)
        · exact UnlessRefused.pure (hnothing w)
  apply UnlessRefused.bind hwrite
  intro _ w₁ hsettles
  have hnoted : Settles height [] w₁ (w₁.noted (.marked op spent)) :=
    Settles.of_eq rfl rfl fun _ hitem => hitem
  exact Or.inr ⟨(), rfl, hsettles.trans hnoted⟩

/-- Releasing reservations settles nothing. -/
theorem releaseMarks_settles (utxos : List Utxo) :
    Prog.Ends (UnlessRefused fun _ w' => Settles height [] w w') (releaseMarks utxos) ctx w := by
  unfold releaseMarks
  induction utxos generalizing w with
  | nil => exact UnlessRefused.pure (Settles.of_eq rfl rfl fun _ hitem => hitem)
  | cons u rest ih =>
    apply UnlessRefused.bind (setSpent_settles u.outPoint false)
    intro _ w₁ hfirst
    apply UnlessRefused.mono ih
    intro _ w₂ hrest
    exact hfirst.trans hrest

/-- Giving back what a failed speedup reserved settles nothing. -/
theorem releaseFailed_settles (tx : CoordinatedTx) :
    Prog.Ends (UnlessRefused fun _ w' => Settles height [] w w') (releaseFailed tx) ctx w := by
  have hnothing : ∀ w : World, Settles height [] w w :=
    fun w => Settles.of_eq rfl rfl fun _ hitem => hitem
  cases hkind : tx.kind with
  | normal =>
    simp only [releaseFailed, hkind]
    exact UnlessRefused.pure (hnothing w)
  | needsSpeedup data =>
    simp only [releaseFailed, hkind]
    exact UnlessRefused.pure (hnothing w)
  | speedup kind =>
    cases kind with
    | cpfp parents context =>
      have hcontext : tx.speedupKind = .ok (.cpfp parents context) := by
        simp [CoordinatedTx.speedupKind, hkind]
      simp only [releaseFailed, hkind, markParentsUnspent, hcontext]
      exact releaseMarks_settles _
    | rbf replaces newFundingInputs context =>
      simp only [releaseFailed, hkind]
      apply UnlessRefused.bind (releaseMarks_settles newFundingInputs)
      intro _ w₁ hreleased
      apply ends_read
      split
      · exact UnlessRefused.pure hreleased
      · next replaced hget =>
        split
        · next updated hupdated =>
          obtain ⟨kind, hkind, rfl⟩ := CoordinatedTx.modifyContext_ok hupdated
          have hkey := w₁.store.keyed _ _ hget
          apply UnlessRefused.mono (updateTx_settles (hkey ▸ hget)
            (CoordinatedTx.unmarked_mark (Mark.replacedBy none) hkind))
          intro _ w₂ hunmasked
          exact hreleased.trans hunmasked
        · exact UnlessRefused.pure hreleased

/-- Publishing settles nothing, and the item is stored afterwards. -/
theorem addNews_settles (height : BlockHeight) (news : CoordinatorNews) :
    Prog.Ends (UnlessRefused fun _ w' => Settles height [] w w' ∧ w'.Noted news) (addNews news)
      ctx w := by
  have hends : Prog.Ends (UnlessRefused fun _ _ => True) (addNews news) ctx w := by
    have hwrite : ∀ f w, Prog.Ends (UnlessRefused fun _ _ => True) (writeNews f) ctx w := by
      intro f w
      unfold Prog.Ends UnlessRefused writeNews
      split
      · exact Or.inr ⟨_, rfl, trivial⟩
      · exact Or.inl ⟨_, rfl⟩
    change Prog.Ends _ (if w.news.any fun item => item.news = news then pure false else do
      writeNews fun _ => w.news ++ [⟨news, none⟩]
      pure true : Coord Bool) ctx w
    apply Prog.Ends.ite <;> intro _
    · exact UnlessRefused.pure trivial
    · exact UnlessRefused.bind (hwrite _ w) fun _ _ _ => UnlessRefused.pure trivial
  apply UnlessRefused.of_ok hends
  intro b w' hrun
  obtain ⟨hstore, hsub, hnoted, -⟩ := addNews_ok hrun
  exact ⟨Settles.of_eq (by rw [hstore]) (by rw [hstore]) hsub, hnoted⟩

/-- Requeueing the parents of a failed speedup settles nothing. -/
theorem requeueProtocolParents_settles (tx : CoordinatedTx) :
    Prog.Ends (UnlessRefused fun _ w' => Settles height [] w w') (requeueProtocolParents tx)
      ctx w := by
  have hnothing : Settles height [] w w := Settles.of_eq rfl rfl fun _ hitem => hitem
  unfold requeueProtocolParents
  split
  · apply ends_read
    apply ends_read
    apply Prog.Ends.ite <;> intro _
    · exact UnlessRefused.pure hnothing
    · exact writeStore_settles (fun _ => rfl) rfl
  · exact UnlessRefused.pure hnothing

/-- Settling one identifier as failed, without the news of it. -/
theorem settleTx_ends (txid : Txid) :
    Prog.Ends (UnlessRefused fun _ w' =>
      (∀ id, w'.store.txs.get id =
        if id = txid then (w.store.txs.get id).map (CoordinatedTx.settleFailed height)
        else w.store.txs.get id) ∧
      w'.store.speedupList = w.store.speedupList ∧ w.news ⊆ w'.news)
      (settleTx txid .failed height) ctx w := by
  have hpublish : ∀ news, Prog.Ends
      (UnlessRefused fun _ w' => w'.store.speedupList = w.store.speedupList)
      (do let _ ← addNews news; pure () : Coord Unit) ctx w := by
    intro news
    apply UnlessRefused.bind (addNews_settles height news)
    rintro _ w₁ ⟨hsettles, -⟩
    exact UnlessRefused.pure hsettles.speedupList
  have hends : Prog.Ends (UnlessRefused fun _ w' => w'.store.speedupList = w.store.speedupList)
      (settleTx txid .failed height) ctx w := by
    unfold settleTx updateTxStateImpl
    simp only [TransactionState.isTerminal, if_true, reduceCtorEq, and_false, if_false]
    apply ends_read
    split
    · exact hpublish _
    · apply Prog.Ends.ite <;> intro _
      · apply UnlessRefused.mono writeStore_ends
        intro _ w₁ hstore
        rw [hstore]
        rfl
      · exact hpublish _
  rcases hends with hrefused | ⟨u, hrun, hlist⟩
  · exact Or.inl hrefused
  · obtain ⟨hget, hnews, -⟩ := settleTx_failed_ok (Prod.ext hrun rfl)
    exact Or.inr ⟨u, hrun, hget, hlist, hnews⟩

/-- Failing one transaction settles its record alone and publishes it. The copy handed over differs from
the record in its marks at most. -/
theorem settleFailedDispatch_settles {tx : CoordinatedTx} {fundingMissing : Bool}
    (hcopy : ∀ record, w.store.txs.get tx.txid = some record →
      dispatchErrorNews record tx.txid = dispatchErrorNews tx tx.txid) :
    Prog.Ends (UnlessRefused fun _ w' => Settles height [tx.txid] w w')
      (settleFailedDispatch tx height fundingMissing) ctx w := by
  apply UnlessRefused.bind (settleTx_ends tx.txid)
  rintro _ w₁ ⟨hget, hlist, hnews⟩
  apply UnlessRefused.bind (addNews_settles height (dispatchErrorNews tx tx.txid))
  rintro _ w₂ ⟨hpublished, hnoted⟩
  have hsettled : Settles height [tx.txid] w w₂ := by
    constructor
    case txs =>
      intro id
      rw [hpublished.txs id, hget]
      by_cases hid : id = tx.txid
      · subst hid
        cases w.store.txs.get tx.txid <;> simp
      · simp [hid]
    case speedupList => exact hpublished.speedupList.trans hlist
    case news => exact fun item hitem => hpublished.news (hnews hitem)
    case noted =>
      intro id hid record hrecord
      rw [List.mem_singleton] at hid
      subst hid
      rw [hcopy record hrecord]
      exact hnoted
  apply UnlessRefused.bind (releaseFailed_settles tx)
  intro _ w₃ hreleased
  apply Prog.Ends.ite <;> intro _
  · apply UnlessRefused.mono (requeueProtocolParents_settles tx)
    intro _ w₄ hrequeued
    exact hsettled.trans (hreleased.trans hrequeued)
  · exact UnlessRefused.pure (hsettled.trans hreleased)

/-! ### The cascade -/

/-- A dependant that is listed. -/
def Store.IsListedDependant (s : Store) (parent txid : Txid) : Prop :=
  txid ∈ s.speedupList ∧ s.IsDependant parent txid

/-- A copy differs from the record it was taken of in its marks at most. -/
def CoordinatedTx.IsCopyIn (copy : CoordinatedTx) (w : World) : Prop :=
  ∃ tx, w.store.txs.get copy.txid = some tx ∧ copy.unmarked = tx.unmarked

/-- The dependants found while a cascade goes on are listed dependants that have not failed. -/
theorem Settles.of_mem_dependants {failed : List Txid} {parent : Txid} {d : CoordinatedTx}
    (h : Settles height failed w₀ w) (hd : d ∈ w.store.dependants parent) :
    w₀.store.IsListedDependant parent d.txid ∧ d.txid ∉ failed ∧ d.IsCopyIn w₀ := by
  obtain ⟨hlisted, hwaits⟩ := List.mem_filter.mp hd
  simp only [Bool.and_eq_true, decide_eq_true_eq] at hwaits
  obtain ⟨hmem, hget⟩ := mem_speedupsOrdered hlisted
  obtain ⟨tx, hbefore, hunmarked⟩ := h.before hget
  have hnew : d.txid ∉ failed := by
    intro hfailed
    rw [if_pos hfailed] at hunmarked
    have hstate := (CoordinatedTx.eq_of_unmarked hunmarked).2.1
    exact tx.settleFailed_state_ne (hstate.symm.trans hwaits.1)
  rw [if_neg hnew] at hunmarked
  obtain ⟨-, hstate, hdepends, -⟩ := CoordinatedTx.eq_of_unmarked hunmarked
  refine ⟨⟨h.speedupList ▸ hmem, tx, hbefore, hstate.symm.trans hwaits.1, ?_⟩, hnew, tx, hbefore,
    hunmarked⟩
  rw [← hdepends]
  exact hwaits.2

/-- Every listed dependant that has not failed is found. -/
theorem Settles.mem_dependants {failed : List Txid} {parent id : Txid}
    (h : Settles height failed w₀ w) (hid : w₀.store.IsListedDependant parent id) :
    id ∈ failed ∨ id ∈ (w.store.dependants parent).map CoordinatedTx.txid := by
  obtain ⟨hlisted, tx, hbefore, hwaits, hdepends⟩ := hid
  by_cases hfailed : id ∈ failed
  · exact Or.inl hfailed
  · obtain ⟨d, hget, hunmarked⟩ := h.after hbefore
    rw [if_neg hfailed] at hunmarked
    obtain ⟨-, hstate, hsame, -⟩ := CoordinatedTx.eq_of_unmarked hunmarked
    refine Or.inr (List.mem_map.mpr ⟨d, ?_, w.store.keyed _ _ hget⟩)
    apply List.mem_filter.mpr
    constructor
    · exact List.mem_filterMap.mpr ⟨id, h.speedupList ▸ hlisted, hget⟩
    · simp [hstate, hwaits, hsame, hdepends]

/-- The cascade is a visit of the listed dependants, and only a refused write stops it. What is known of the
world once some transactions have failed includes that they are settled, and failing one more extends it. The
induction is on the bound, which exceeds the number of listed speedups that have not failed; the loop goes
through a list taken before the deeper levels, in which some may have failed meanwhile. -/
theorem failAndCascadeWithin_visits {S : List Txid → World → Prop} {depth : ℕ} {failed : List Txid}
    {d : CoordinatedTx} {fundingMissing : Bool} (hsettles : ∀ failed w, S failed w → Settles height failed w₀ w)
    (hstep : ∀ failed w (d : CoordinatedTx) fundingMissing, S failed w → d.IsCopyIn w₀ →
      Prog.Ends (UnlessRefused fun _ w' => S (d.txid :: failed) w')
        (settleFailedDispatch d height fundingMissing) ctx w)
    (h : S failed w) (hcopy : d.IsCopyIn w₀)
    (hdepth : remaining w₀.store.speedupList (d.txid :: failed) < depth) :
    Prog.Ends (UnlessRefused fun _ w' => ∃ after, S after w' ∧
        Visits w₀.store.IsListedDependant failed [d.txid] after)
      (failAndCascadeWithin depth d height fundingMissing) ctx w := by
  induction depth generalizing failed d fundingMissing w with
  | zero => omega
  | succ depth ih =>
    have hloop : ∀ (rest : List CoordinatedTx) (between : List Txid) (w₁ : World),
        S between w₁ → d.txid :: failed ⊆ between →
        (∀ e ∈ rest, e.txid ∈ w₀.store.speedupList ∧ e.txid ∉ d.txid :: failed ∧ e.IsCopyIn w₀) →
        Prog.Ends (UnlessRefused fun _ w' => ∃ after, S after w' ∧
            Visits w₀.store.IsListedDependant between (rest.map CoordinatedTx.txid) after)
          (Prog.forEach rest fun e => failAndCascadeWithin depth e height true) ctx w₁ := by
      intro rest
      induction rest with
      | nil =>
        intro between w₁ hbetween _ _
        exact UnlessRefused.pure ⟨between, hbetween, Visits.done between⟩
      | cons e rest ihrest =>
        intro between w₁ hbetween hsub hrest
        obtain ⟨hlisted, hnew, hcopy⟩ := hrest e List.mem_cons_self
        have hless : remaining w₀.store.speedupList (e.txid :: between) <
            remaining w₀.store.speedupList (d.txid :: failed) :=
          remaining_lt (fun b hb => List.mem_cons_of_mem _ (hsub hb)) hlisted hnew List.mem_cons_self
        apply UnlessRefused.bind (ih hbetween hcopy (by omega))
        rintro _ w₂ ⟨middle, hmiddle, hvisit⟩
        have hgrown : between ⊆ middle := hvisit.subset
        apply UnlessRefused.mono (ihrest middle w₂ hmiddle (fun b hb => hgrown (hsub hb))
          fun e he => hrest e (List.mem_cons_of_mem _ he))
        rintro _ w₃ ⟨after, hafter, hvisits⟩
        exact ⟨after, hafter, hvisit.cons hvisits⟩
    apply UnlessRefused.bind (hstep failed w d _ h hcopy)
    intro _ w₁ hone
    have hsettled : Settles height (d.txid :: failed) w₀ w₁ := hsettles _ w₁ hone
    apply ends_read
    apply UnlessRefused.mono (hloop _ _ w₁ hone (List.Subset.refl _) ?_)
    · rintro _ w₂ ⟨after, hafter, hvisits⟩
      refine ⟨after, hafter, Visits.enter failed d.txid _ [] after after ?_ ?_ hvisits
        (Visits.done after)⟩
      · intro id hid
        obtain ⟨e, he, rfl⟩ := List.mem_map.mp hid
        exact (hsettled.of_mem_dependants he).1
      · exact fun id hid => hsettled.mem_dependants hid
    · intro e he
      obtain ⟨hdependant, hnew, hcopy⟩ := hsettled.of_mem_dependants he
      exact ⟨hdependant.1, hnew, hcopy⟩

/-- Failing one more transaction of which a copy is at hand settles it too. -/
theorem Settles.settleFailedDispatch {failed : List Txid} {d : CoordinatedTx} {fundingMissing : Bool}
    (h : Settles height failed w₀ w) (hcopy : d.IsCopyIn w₀) :
    Prog.Ends (UnlessRefused fun _ w' => Settles height (d.txid :: failed) w₀ w')
      (settleFailedDispatch d height fundingMissing) ctx w := by
  obtain ⟨tx, hbefore, hunmarked⟩ := hcopy
  have hnews : ∀ record, w.store.txs.get d.txid = some record →
      dispatchErrorNews record d.txid = dispatchErrorNews d d.txid := by
    intro record hget
    obtain ⟨tx', hbefore', hunmarked'⟩ := h.before hget
    cases hbefore.symm.trans hbefore'
    rw [Settles.news_eq hunmarked', (CoordinatedTx.eq_of_unmarked hunmarked).2.2.2]
  exact UnlessRefused.mono (settleFailedDispatch_settles hnews) fun _ _ hone => h.trans hone

/-- Through listed records, everything that depends on a transaction is reached by listed dependants. -/
theorem Store.depends_listed {s : Store} {txid id : Txid}
    (hlisted : ∀ id, s.Depends txid id → id = txid ∨ id ∈ s.speedupList) (h : s.Depends txid id) :
    Relation.ReflTransGen s.IsListedDependant txid id := by
  induction h with
  | refl => exact Relation.ReflTransGen.refl
  | tail hreach hdependant ih =>
    rcases hlisted _ (Relation.ReflTransGen.tail hreach hdependant) with rfl | hmem
    · exact Relation.ReflTransGen.refl
    · exact Relation.ReflTransGen.tail ih ⟨hmem, hdependant⟩

/-- What listed dependants reach depends on the transaction and waits for dispatch with it. -/
theorem Store.waits_of_reached {s : Store} {txid id : Txid} {tx : CoordinatedTx}
    (hget : s.txs.get txid = some tx) (hwaits : tx.state = .toDispatch) (h : s.Depends txid id) :
    ∃ record, s.txs.get id = some record ∧ record.state = .toDispatch := by
  cases h with
  | refl => exact ⟨tx, hget, hwaits⟩
  | tail _ hdependant =>
    obtain ⟨record, hrecord, hstate, -⟩ := hdependant
    exact ⟨record, hrecord, hstate⟩

/-- Whatever depends on what, failing a transaction that waits for dispatch ends, and only a refused write
stops it. Otherwise it settles exactly what depends on the transaction if and only if all of it is
listed. -/
theorem failAndCascade_exact_iff {tx : CoordinatedTx} {height : BlockHeight} {fundingMissing : Bool}
    (hget : w.store.txs.get tx.txid = some tx) (hwaits : tx.state = .toDispatch) :
    Prog.Ends (UnlessRefused fun _ w' => CascadeExact tx.txid height w w' ↔
        ∀ id, w.store.Depends tx.txid id → id = tx.txid ∨ id ∈ w.store.speedupList)
      (failAndCascade tx height fundingMissing) ctx w := by
  have hnothing : Settles height [] w w := Settles.of_eq rfl rfl fun _ hitem => hitem
  have hdepth : remaining w.store.speedupList [tx.txid] < w.store.speedupList.length + 1 :=
    Nat.lt_succ_of_le (remaining_le_length _ _)
  apply ends_read
  apply UnlessRefused.mono (failAndCascadeWithin_visits (fun _ _ h => h)
    (fun _ _ _ _ h hcopy => h.settleFailedDispatch hcopy) hnothing ⟨tx, hget, rfl⟩ hdepth)
  rintro _ w' ⟨failed, hsettles, hvisit⟩
  have hmem : ∀ id, id ∈ failed ↔ Relation.ReflTransGen w.store.IsListedDependant tx.txid id :=
    fun id => hvisit.mem_iff
  constructor
  · intro hexact id hdepends
    obtain ⟨record, hrecord, hstate⟩ := Store.waits_of_reached hget hwaits hdepends
    obtain ⟨⟨record', hrecord', hfailed⟩, -⟩ := hexact.settled id record hdepends hrecord
    obtain ⟨old, hold, hunmarked⟩ := hsettles.before hrecord'
    cases hrecord.symm.trans hold
    by_cases hid : id ∈ failed
    · have hreach := (hmem id).mp hid
      cases hreach with
      | refl => exact Or.inl rfl
      | tail _ hdependant => exact Or.inr hdependant.1
    · rw [if_neg hid] at hunmarked
      have hsame := (CoordinatedTx.eq_of_unmarked hunmarked).2.1
      have hsettled := (CoordinatedTx.eq_of_unmarked hfailed).2.1
      rw [hsame, hstate] at hsettled
      cases hsettled
  · intro hlisted
    have hfailed : ∀ id, id ∈ failed ↔ w.store.Depends tx.txid id := by
      intro id
      rw [hmem]
      exact ⟨Relation.ReflTransGen.mono (fun _ _ hdependant => hdependant.2) _ _,
        Store.depends_listed hlisted⟩
    constructor
    case settled =>
      intro id record hdepends hrecord
      obtain ⟨old, hold, hstate⟩ := Store.waits_of_reached hget hwaits hdepends
      cases hrecord.symm.trans hold
      have hid := (hfailed id).mpr hdepends
      obtain ⟨record', hrecord', hunmarked⟩ := hsettles.after hrecord
      rw [if_pos hid, CoordinatedTx.settleFailed_of_waiting hstate] at hunmarked
      exact ⟨⟨record', hrecord', hunmarked⟩, hsettles.noted id hid record hrecord⟩
    case others =>
      intro id hdepends
      have hid : id ∉ failed := fun hid => hdepends ((hfailed id).mp hid)
      rw [hsettles.txs id]
      simp only [hid, if_false]

/-- The tick that sends the parent of the example runs and builds its CPFP. -/
def buildingTick : Call := (sampleView 100 [] [sampleParent]).call fixedBuilder 10 0 .tick

/-- A parent is registered, a tick sends it and builds its CPFP, and the tick after finds the parent gone
and puts it back to dispatch. -/
def requeuedCalls (building : Call) : List Call :=
  let first := sampleView 100 [] [sampleParent]
  [first.call fixedBuilder 10 0 (.addFunding sampleFunding),
    first.call fixedBuilder 10 0 (.dispatchWithSpeedup sampleParent sampleAnchor "parent" none none),
    building, (sampleView 101 [] []).call fixedBuilder 10 0 .tick]

/-- The answers while the parent of the example runs fails. -/
def failingAnswers : Answers := (sampleView 101 [] []).answers fixedBuilder 10 0

/-- The parent and its CPFP wait for dispatch and every speedup is listed, so failing the parent settles
exactly what depends on it. -/
theorem failAndCascade_exact_requeuedCalls :
    ∃ (cfg : BitcoinSettings) (calls : List Call) (tx : CoordinatedTx), cfg.validate = .ok () ∧
      (∀ id, (runCalls cfg calls World.init).store.Depends tx.txid id →
        id = tx.txid ∨ id ∈ (runCalls cfg calls World.init).store.speedupList) ∧
      Prog.Ends (UnlessRefused fun _ w' => CascadeExact tx.txid 101 (runCalls cfg calls World.init) w')
        (failAndCascade tx 101 false) ⟨cfg, failingAnswers⟩ (runCalls cfg calls World.init) := by
  obtain ⟨tx, htx, hwaits⟩ :
      ∃ tx ∈ (runCalls defaultSettings (requeuedCalls buildingTick) World.init).store.txs.values,
        tx.state = .toDispatch := by decide +kernel
  have hspeedups : ∀ tx ∈ (runCalls defaultSettings (requeuedCalls buildingTick) World.init).store.txs.values,
      tx.speedup?.isSome →
        tx.txid ∈ (runCalls defaultSettings (requeuedCalls buildingTick) World.init).store.speedupList := by
    decide +kernel
  have hlisted : ∀ id,
      (runCalls defaultSettings (requeuedCalls buildingTick) World.init).store.Depends tx.txid id →
        id = tx.txid ∨
          id ∈ (runCalls defaultSettings (requeuedCalls buildingTick) World.init).store.speedupList := by
    intro id hdepends
    cases hdepends with
    | refl => exact Or.inl rfl
    | tail _ hdependant =>
      obtain ⟨record, hget, -, hdependsOn⟩ := hdependant
      right
      rw [← Store.keyed _ _ _ hget]
      apply hspeedups record (Store.mem_values.mpr (by rw [Store.keyed _ _ _ hget, hget]))
      unfold CoordinatedTx.dependsOn at hdependsOn
      cases hkind : record.speedup? with
      | none => simp [hkind] at hdependsOn
      | some kind => rfl
  refine ⟨defaultSettings, requeuedCalls buildingTick, tx, BitcoinSettings.validate_default _, hlisted, ?_⟩
  exact UnlessRefused.mono (failAndCascade_exact_iff (Store.mem_values.mp htx) hwaits)
    fun _ _ hexact => hexact.mpr hlisted

/-- The tick that builds the CPFP stops between the two writes that store and list it. When the parent
fails later, its CPFP is not failed with it. -/
theorem exists_survivor_of_cascade :
    ∃ (cfg : BitcoinSettings) (calls : List Call) (answers : Answers) (tx : CoordinatedTx) (w : World),
      cfg.validate = .ok () ∧ w = runCalls cfg calls World.init ∧
      w.store.txs.get tx.txid = some tx ∧ tx.state = .toDispatch ∧
      ∃ w', failAndCascade tx 101 false ⟨cfg, answers⟩ w = (.ok (), w') ∧
        ¬ CascadeExact tx.txid 101 w w' := by
  obtain ⟨tx, htx, child, hchild, hwaits, ⟨hchildWaits, hdepends⟩, hcompletes, record, hrecord,
      hsame, hrecordWaits⟩ :
      ∃ tx ∈ (runCalls defaultSettings (requeuedCalls (buildingTick.refusing 27))
          World.init).store.txs.values,
        ∃ child ∈ (runCalls defaultSettings (requeuedCalls (buildingTick.refusing 27))
            World.init).store.txs.values,
          tx.state = .toDispatch ∧
          (child.state = .toDispatch ∧ child.dependsOn tx.txid = true) ∧
          (failAndCascade tx 101 false ⟨defaultSettings, failingAnswers⟩
            (runCalls defaultSettings (requeuedCalls (buildingTick.refusing 27))
              World.init)).1.toBool = true ∧
          ∃ record ∈ (failAndCascade tx 101 false ⟨defaultSettings, failingAnswers⟩
              (runCalls defaultSettings (requeuedCalls (buildingTick.refusing 27))
                World.init)).2.store.txs.values,
            record.txid = child.txid ∧ record.state = .toDispatch := by decide +kernel
  refine ⟨defaultSettings, _, failingAnswers, tx, _, BitcoinSettings.validate_default _, rfl,
    Store.mem_values.mp htx, hwaits, _, Prod.ext ?_ rfl, ?_⟩
  · generalize (failAndCascade tx 101 false ⟨defaultSettings, failingAnswers⟩
      (runCalls defaultSettings (requeuedCalls (buildingTick.refusing 27)) World.init)).1 = result
      at hcompletes
    cases result with
    | ok u => rfl
    | error e => cases hcompletes
  · intro hexact
    have hdependant : Store.IsDependant _ tx.txid child.txid :=
      ⟨child, Store.mem_values.mp hchild, hchildWaits, hdepends⟩
    obtain ⟨⟨record', hget, hfailed⟩, -⟩ := hexact.settled child.txid child
      (Relation.ReflTransGen.single hdependant) (Store.mem_values.mp hchild)
    have hrecordGet := Store.mem_values.mp hrecord
    rw [hsame] at hrecordGet
    cases hget.symm.trans hrecordGet
    have hstate := (CoordinatedTx.eq_of_unmarked hfailed).2.1
    rw [hrecordWaits] at hstate
    cases hstate

end BitcoinCoordinator
