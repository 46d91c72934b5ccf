import BitcoinCoordinator.BuildTraces

/-!
# Every call is a chain of steps: speedups

The speedup engine as chains of steps. A speedup reaches the store only through a build, so what is
known of it when it is stored is read off the build that returned it.
-/

namespace BitcoinCoordinator

open Foundation

variable {ctx : Ctx} {tidy : Prop} {phase : Phase} {w : World}

/-! ### Review and dispatch of speedups -/

/-- Settling the replaced transactions. -/
theorem removeReplacedFrom_plainly (context : String) (height : BlockHeight) (bound : ℕ)
    (txid : Txid) : Plainly tidy .settle (removeReplacedFrom context height bound txid) ctx w := by
  induction bound generalizing txid w with
  | zero => exact Prog.Reaches.stop _
  | succ bound ih =>
    apply reaches_read
    apply Prog.Reaches.seq (plainly_of_calm (monitorCancel_calm _))
    intro _ _
    apply Prog.Reaches.seq (settleFailed_plainly _ _)
    intro _ _
    split
    · exact ih _
    · exact Prog.Reaches.pure _

/-- Settling what a finalized speedup replaced. -/
theorem removeReplacedRbf_plainly (tx : CoordinatedTx) (height : BlockHeight) :
    Plainly tidy .settle (removeReplacedRbf tx height) ctx w := by
  unfold removeReplacedRbf
  split
  · exact Prog.Reaches.pure _
  · exact reaches_read (removeReplacedFrom_plainly _ _ _ _)

variable {txid : Txid} {J : Option CoordinatedTx → Prop}

/-- Settling what a finalized speedup replaced is a drift. -/
theorem removeReplacedRbf_keeps (hJ : DriftStable J) (tx : CoordinatedTx) (height : BlockHeight) :
    Prog.Keeps (RecordAt txid J) (removeReplacedRbf tx height) ctx := by
  have hfrom : ∀ bound id, Prog.Keeps (RecordAt txid J)
      (removeReplacedFrom tx.context height bound id) ctx := by
    intro bound
    induction bound with
    | zero => exact fun _ => Prog.Keeps.stop _
    | succ bound ih =>
      intro id
      refine Prog.Keeps.seq (Prog.Keeps.read _) fun found => ?_
      refine Prog.Keeps.seq (keeps_of_calm fun _ => monitorCancel_calm _) fun _ => ?_
      refine Prog.Keeps.seq (settleFailed_keeps hJ id height) fun _ => ?_
      split
      · exact ih _
      · exact Prog.Keeps.pure _
  unfold removeReplacedRbf
  split
  · exact Prog.Keeps.pure _
  · exact Prog.Keeps.seq (Prog.Keeps.read _) fun tracked => hfrom _ _

/-- A funding record is stored under the output it names. -/
def Store.FundingKeyed (s : Store) : Prop :=
  ∀ op record, s.funding op = some record → record.utxo.outPoint = op

/-- A record stored under the output it names. -/
theorem Store.FundingKeyed.setFunding {s : Store} (h : s.FundingKeyed) {op : OutPoint}
    {record : FundingData} (hop : record.utxo.outPoint = op) : (s.setFunding op record).FundingKeyed := by
  intro op' record' hget
  change (if op' = op then some record else s.funding op') = some record' at hget
  split at hget
  · next heq =>
    cases hget
    rw [heq, hop]
  · exact h op' record' hget

/-- A record dropped. -/
theorem Store.FundingKeyed.eraseFunding {s : Store} (h : s.FundingKeyed) (op : OutPoint) :
    (s.eraseFunding op).FundingKeyed := by
  intro op' record hget
  change (if op' = op then none else s.funding op') = some record at hget
  split at hget
  · cases hget
  · exact h op' record hget

/-- Swapping a finalized speedup into the queue keeps what the writes of the queue and dropping the
speedup from the list keep. -/
theorem replaceFundingOnFinalize_keeps {I : World → Prop} {id : Txid}
    (hnoted : ∀ w e, I w → I (w.noted e))
    (hwrite : ∀ f : Store → Store, (∀ s, (f s).txs = s.txs ∧ (f s).speedupList = s.speedupList ∧
      (s.FundingKeyed → (f s).FundingKeyed)) → Prog.Keeps I (writeStore f) ctx)
    (hunlist : Prog.Keeps I (removeSpeedupFromList id) ctx) :
    Prog.Keeps I (replaceFundingOnFinalize id) ctx := by
  have hdrop : ∀ positions list, Prog.Keeps I (dropQueued positions list) ctx := by
    intro positions
    induction positions with
    | nil => exact fun _ => Prog.Keeps.pure _
    | cons idx rest ih =>
      intro list
      unfold dropQueued
      split
      · exact Prog.Keeps.stop _
      · exact Prog.Keeps.seq (hwrite _ fun _ => ⟨rfl, rfl, fun h => h.eraseFunding _⟩) fun _ => ih _
  have hswap : ∀ change spent positions list,
      Prog.Keeps I (swapQueued id change spent positions list) ctx := by
    intro change spent positions list
    unfold swapQueued
    split
    · exact Prog.Keeps.pure _
    · refine Prog.Keeps.seq (hdrop _ _) fun _ => ?_
      refine Prog.Keeps.seq (hwrite _ fun _ => ⟨rfl, rfl, fun h => h.setFunding rfl⟩) fun _ => ?_
      exact Prog.Keeps.seq (hwrite _ fun _ => ⟨rfl, rfl, fun h => h⟩) fun _ => hunlist
  refine Prog.Keeps.seq (fun w hw => hnoted w _ hw) fun _ => ?_
  apply keeps_found
  · exact Prog.Keeps.pure _
  · intro w tx hw hget
    dsimp only
    cases tx.speedupChangeUtxo with
    | error e => cases e <;> exact hw
    | ok change =>
      refine Prog.Keeps.seq (Prog.Keeps.ofExcept _) (fun kind => ?_) w hw
      refine Prog.Keeps.seq (Prog.Keeps.read _) fun list => ?_
      rw [w.store.keyed id tx hget]
      exact hswap _ _ _ _

/-- A write that leaves the records alone keeps every property of a record. -/
theorem writeStore_keeps_record {f : Store → Store} (h : ∀ s, (f s).txs = s.txs) :
    Prog.Keeps (RecordAt txid J) (writeStore f) ctx := by
  refine OneWrite.keeps (fun _ => writeStore_oneWrite) (fun _ hw => hw) ?_
  intro w hw
  change J ((f w.store).txs.get txid)
  rw [h]
  exact hw

/-- Swapping a finalized speedup into the queue leaves the other copies alone. -/
theorem replaceFundingOnFinalize_keeps_copy {copy : CoordinatedTx} {id : Txid}
    (hne : copy.txid ≠ id) : Prog.Keeps (IsKept copy) (replaceFundingOnFinalize id) ctx := by
  apply replaceFundingOnFinalize_keeps
  · exact fun _ _ hw => hw
  · intro f hf w hw
    refine ⟨writeStore_keeps_record (fun s => (hf s).1) w hw.1, fun hspeedup => ?_⟩
    have hlist : Prog.Keeps (fun w => copy.txid ∈ w.store.speedupList) (writeStore f) ctx := by
      refine OneWrite.keeps (fun _ => writeStore_oneWrite) (fun _ hw => hw) ?_
      intro w hin
      change copy.txid ∈ (f w.store).speedupList
      rw [(hf w.store).2.1]
      exact hin
    exact hlist w (hw.2 hspeedup)
  · refine OneWrite.keeps (fun _ => removeSpeedupFromList_oneWrite id) (fun _ hw => hw) ?_
    intro w hw
    refine ⟨hw.1, fun hspeedup => List.mem_filter.mpr ⟨hw.2 hspeedup, ?_⟩⟩
    simpa using hne

/-- What holds of a transaction that is not tracked or settled. -/
theorem driftStable_settled :
    DriftStable fun record => ∀ tx, record = some tx → tx.state.isTerminal = true where
  mark := by
    intro tx kind mark h hkind tx' heq
    cases heq
    exact h tx rfl
  fail := by
    intro tx height h hstep tx' heq
    cases heq
    rfl

/-- A completed finalization leaves a settled record. -/
theorem markFinalized_settles {copy : CoordinatedTx} {height : BlockHeight} {w' : World} {u : Unit}
    (hflight : copy.isInFlight) (hcopy : StillStored copy w)
    (hrun : markFinalized copy.txid height ctx w = (.ok u, w')) : IsSettledAt copy.txid w' := by
  obtain ⟨record, hget, hdrift⟩ := hcopy
  have hid : record.txid = copy.txid := w.store.keyed _ _ hget
  obtain ⟨found, w₁, hread, hbody⟩ := Prog.bind_ok.mp hrun
  obtain ⟨rfl, rfl⟩ := readStore_ok.mp hread
  rw [hget] at hbody
  rcases hdrift.state with ⟨hstate, -⟩ | ⟨-, hfailed, -⟩
  · have hstep : record.state.canTransitionTo .finalized = true := by
      rw [hstate]
      unfold CoordinatedTx.isInFlight at hflight
      cases hcopy : copy.state <;> simp_all [TransactionState.canTransitionTo]
    have hwrite : updateTx { record with settledBlockHeight := some height, state := .finalized }
        ctx w₁ = (.ok u, w') := by
      simpa [hstep, TransactionState.isTerminal] using hbody
    obtain ⟨-, rfl⟩ := writeStore_ok.mp hwrite
    intro tx htx
    change (w₁.store.setTx _).txs.get copy.txid = some tx at htx
    rw [Store.get_setTx, if_pos hid.symm] at htx
    cases htx
    rfl
  · have hnews : (do let _ ← addNews (.invalidStateTransition copy.txid record.state .finalized)
                     pure () : Coord Unit) ctx w₁ = (.ok u, w') := by
      simpa [hfailed, TransactionState.canTransitionTo] using hbody
    intro tx htx
    rw [calm_txs (publish_calm _) hnews, hget] at htx
    cases htx
    rw [hfailed]
    rfl

/-- Settling a finalized speedup. -/
theorem finalizeSpeedup_stepwise {tx : CoordinatedTx} (height : BlockHeight)
    (hflight : tx.isInFlight) (hcopy : IsCopy tidy tx w) :
    Stepwise tidy .settle (finalizeSpeedup tx height) ctx w := by
  apply Prog.Walks.bind (stepwise_of_plainly (markFinalized_plainly height hflight hcopy.drift))
  intro _ w₁ hfinal
  apply Prog.Walks.bind (stepwise_of_plainly (removeReplacedRbf_plainly tx height))
  intro _ w₂ hremove
  apply replaceFundingOnFinalize_stepwise
  intro htidy
  exact (removeReplacedRbf_keeps driftStable_settled tx height).run
    (markFinalized_settles hflight (hcopy.drift htidy) hfinal) hremove

/-- Reviewing one speedup. -/
theorem reviewSpeedup_stepwise {tx : CoordinatedTx} (all : List CoordinatedTx)
    (height : BlockHeight) (hflight : tx.isInFlight) (hcopy : IsCopy tidy tx w) :
    Stepwise tidy .settle (reviewSpeedup all height tx) ctx w := by
  apply walks_settings
  apply Prog.Walks.bind (stepwise_of_calm query_calm)
  intro status w₁ hquery
  have hcopy₁ := hcopy.after_calm (fun _ => query_calm) hquery
  apply Prog.Walks.ite <;> intro _
  · apply Prog.Walks.ite <;> intro hstate
    · exact stepwise_of_plainly (rewriteTx_plainly hcopy₁ (Rewrite.reorg height hstate))
    · exact Prog.Walks.pure _
  apply Prog.Walks.ite <;> intro _
  · apply Prog.Walks.bind (stepwise_of_calm (note_calm (by trivial)))
    intro _ w₂ hnote
    obtain rfl := note_ok.mp hnote
    apply Prog.Walks.ite <;> intro _
    · exact Prog.Walks.pure _
    · exact stepwise_of_plainly (requeueNotFound_plainly hflight (hcopy₁.noted (by simp)).drift rfl)
  apply Prog.Walks.ite <;> intro _
  · exact finalizeSpeedup_stepwise height hflight hcopy₁
  apply Prog.Walks.ite <;> intro _
  · exact stepwise_of_plainly (updateTxState_plainly (Or.inr rfl) hflight hcopy₁.drift)
  apply Prog.Walks.ite <;> intro _
  · exact stepwise_of_plainly (updateTxState_plainly (Or.inl rfl) hflight hcopy₁.drift)
  · exact Prog.Walks.pure _

/-- Reviewing one speedup keeps the copies of the others. -/
theorem reviewSpeedup_keeps_copy {tx other : CoordinatedTx} {all : List CoordinatedTx}
    {height : BlockHeight} (hne : other.txid ≠ tx.txid) :
    Prog.Keeps (IsKept other) (reviewSpeedup all height tx) ctx := by
  have hspares : Spares tx.txid (IsKept other) := spares_isKept hne
  refine Prog.Keeps.seq (Prog.Keeps.ask _) fun cfg => ?_
  refine Prog.Keeps.seq (hspares.calm fun _ => query_calm) fun status => ?_
  apply Prog.Keeps.ite <;> intro _
  · apply Prog.Keeps.ite <;> intro _
    · exact hspares.putTx rfl
    · exact Prog.Keeps.pure _
  apply Prog.Keeps.ite <;> intro _
  · refine Prog.Keeps.seq (fun _ hw => hw) fun _ => ?_
    apply Prog.Keeps.ite <;> intro _
    · exact Prog.Keeps.pure _
    · exact hspares.requeueNotFound
  apply Prog.Keeps.ite <;> intro _
  · refine Prog.Keeps.seq hspares.settleTx fun _ => ?_
    refine Prog.Keeps.seq ?_ fun _ => replaceFundingOnFinalize_keeps_copy hne
    intro w hw
    refine ⟨removeReplacedRbf_keeps (driftStable_drifted other) tx height w hw.1, ?_⟩
    have hplain : Plainly False .settle (removeReplacedRbf tx height) ctx w :=
      removeReplacedRbf_plainly tx height
    exact plainly_keeps_listed hplain hw.2 rfl
  apply Prog.Keeps.ite <;> intro _
  · exact hspares.updateTxStateImpl
  apply Prog.Keeps.ite <;> intro _
  · exact hspares.updateTxStateImpl
  · exact Prog.Keeps.pure _

/-- The listed records are those of the list that are tracked, in its order. -/
theorem Store.speedupsOrdered_sublist (s : Store) :
    (s.speedupsOrdered.map CoordinatedTx.txid).Sublist s.speedupList := by
  unfold Store.speedupsOrdered
  induction s.speedupList with
  | nil => exact List.Sublist.refl _
  | cons id rest ih =>
    rw [List.filterMap_cons]
    cases hget : s.txs.get id with
    | none => exact ih.cons _
    | some tx =>
      rw [List.map_cons, s.keyed id tx hget]
      exact ih.cons_cons _

/-- The listed records are copies of distinct transactions. -/
theorem reviewReady_speedups (p : CoordinatedTx → Bool) (htidy : tidy → IsTidy w) :
    ReviewReady tidy (w.store.speedupsOrdered.filter p) w := by
  refine ⟨fun h => ?_, ?_⟩
  · exact List.Nodup.sublist ((List.Sublist.map _ List.filter_sublist).trans
      w.store.speedupsOrdered_sublist) (htidy h)
  · intro tx htx
    obtain ⟨hlisted, hget⟩ := mem_speedupsOrdered (List.mem_filter.mp htx).1
    exact isCopy_of_get hget fun _ => hlisted

/-- Quiet moves keep the speedup list free of duplicates. -/
theorem tidy_of_calm {α : Type} {m : Coord α} {a : Except Stop α} {w' : World} (h : Calm m ctx w)
    (htidy : tidy → IsTidy w) (hrun : m ctx w = (a, w')) : tidy → IsTidy w' := by
  intro ht
  have hsteps : Stepwise tidy .settle m ctx w := stepwise_of_calm h
  exact hsteps.keeps (fun _ _ hkept hmove => hkept.move hmove) (htidy ht) hrun

/-- Step 2. -/
theorem reviewSpeedups_stepwise (htidy : tidy → IsTidy w) :
    Stepwise tidy .settle reviewSpeedups ctx w := by
  apply Prog.Walks.bind (stepwise_of_calm query_calm)
  intro height w₁ hquery
  have htidy₁ := tidy_of_calm query_calm htidy hquery
  apply walks_read
  apply review_stepwise
  · intro tx htx w hcopy
    exact reviewSpeedup_stepwise _ height (List.mem_filter.mp htx).2 hcopy
  · intro tx other hne
    exact reviewSpeedup_keeps_copy hne
  · exact reviewReady_speedups _ htidy₁

/-- Step 4 for one batch of speedups. -/
theorem dispatchSpeedupBatch_plainly {txs : List CoordinatedTx} (height : BlockHeight)
    (htxs : ∀ tx ∈ txs, tx.state = .toDispatch) (hready : ReviewReady tidy txs w) :
    Plainly tidy .settle (dispatchSpeedupBatch txs height) ctx w := by
  apply Prog.Reaches.bind (plainly_of_sends (dispatch_sends _))
  intro results w₁ hdispatch
  have hloop : Plainly tidy .settle (Prog.forEach results (handleSpeedupResult txs height)) ctx
      w₁ := by
    apply Prog.Reaches.forEach_inv (BatchReady tidy txs)
    · intro result rest w hready
      unfold handleSpeedupResult
      split
      · next tx hfind =>
        have hin := List.mem_of_find?_eq_some hfind
        have hid : tx.txid = result.1 := by simpa using List.find?_some hfind
        exact handleDispatchResult_plainly _ _ _
          (hready.2 result List.mem_cons_self tx hin hid) (htxs tx hin) fun _ => rfl
      · exact Prog.Reaches.pure _
    · intro result rest w w' u hready hrun
      unfold handleSpeedupResult at hrun
      generalize hfind : List.find? _ txs = found at hrun
      cases found with
      | some tx =>
        have hin := List.mem_of_find?_eq_some hfind
        have hid : tx.txid = result.1 := by simpa using List.find?_some hfind
        exact hready.next hin hid (htxs tx hin) (fun _ => rfl) hrun
      | none =>
        obtain ⟨-, rfl⟩ := Prog.pure_ok.mp hrun
        exact ⟨fun htidy => (List.nodup_cons.mp (hready.1 htidy)).2,
          fun later hlater => hready.2 later (List.mem_cons_of_mem _ hlater)⟩
    · exact BatchReady.dispatched hready hdispatch
  exact Prog.Reaches.seq hloop fun _ _ => Prog.Reaches.read _

/-- Step 4. -/
theorem dispatchPendingSpeedups_plainly (htidy : tidy → IsTidy w) :
    Plainly tidy .settle dispatchPendingSpeedups ctx w := by
  apply Prog.Reaches.bind (plainly_of_calm query_calm)
  intro height w₁ hquery
  have htidy₁ := tidy_of_calm query_calm htidy hquery
  have hready := reviewReady_speedups (fun tx => decide (tx.state = .toDispatch)) htidy₁
  apply reaches_read
  split
  · exact Prog.Reaches.pure _
  · next first others heq =>
    rw [heq] at hready
    apply Prog.Reaches.bind (plainly_of_calm (applyRetryRateLimit_calm _))
    intro kept w₂ hlimit
    have hsub := applyRetryRateLimit_sublist hlimit
    have hkept : ReviewReady tidy kept w₂ :=
      ⟨fun ht => List.Nodup.sublist (hsub.map _) (hready.1 ht), fun tx htx =>
        (hready.2 tx (hsub.subset htx)).after_calm (fun _ => applyRetryRateLimit_calm _) hlimit⟩
    split
    · exact Prog.Reaches.pure _
    · next tx rest =>
      apply dispatchSpeedupBatch_plainly _ _ hkept
      intro c hc
      have hin := hsub.subset hc
      rw [← heq] at hin
      simpa using (List.mem_filter.mp hin).2

/-! ### Boost -/

/-- What a planned boost starts from: no speedup waits for dispatch, and the predecessor is the
latest live speedup, below the maximum rate. -/
structure BoostPlan.Sound (plan : BoostPlan) (cfg : BitcoinSettings) (all : List CoordinatedTx) :
    Prop where
  idle : ∀ tx ∈ all, tx.state ≠ .toDispatch
  last : all.reverse.find? (isLiveInMempool all) = some plan.last
  belowMax : plan.last.feeInfo.packageFeeRate < cfg.fee.maxFeerateSatVb
  speedup : ∃ kind, plan.last.speedup? = some kind ∧ plan.context = kind.context

/-- The plan of a boost is sound. -/
theorem planBoost_sound {cfg : BitcoinSettings} {all : List CoordinatedTx} {height : BlockHeight}
    {plan : BoostPlan} (h : planBoost cfg all height = some plan) : plan.Sound cfg all := by
  unfold planBoost at h
  split at h
  · cases h
  next hidle =>
  split at h
  · cases h
  next last hlast =>
  split at h
  · cases h
  split at h
  · cases h
  split at h
  · cases h
  next hmax =>
  split at h
  · cases h
  next kind hkind =>
  cases h
  refine ⟨?_, hlast, not_le.mp hmax, kind, hkind, rfl⟩
  intro tx htx hstate
  exact hidle (List.any_eq_true.mpr ⟨tx, htx, by simpa using hstate⟩)

/-- The predecessor of a planned boost is one of the speedups. -/
theorem BoostPlan.Sound.mem {plan : BoostPlan} {cfg : BitcoinSettings} {all : List CoordinatedTx}
    (h : plan.Sound cfg all) : plan.last ∈ all :=
  List.mem_reverse.mp (List.mem_of_find?_eq_some h.last)

/-- The predecessor of a boost is the one it was planned for. -/
theorem BoostPlan.predecessor? (plan : BoostPlan) (tx : Transaction) (feeInfo : FeeInfo)
    (inputs : List Utxo) (context : SpeedupContext) (height : BlockHeight) :
    (speedupRecord tx feeInfo (plan.kind inputs context) height).predecessor? =
      some plan.last.txid := by
  unfold BoostPlan.kind
  split <;> rfl

/-- What stays true of the predecessor of a boost while the boost is built. -/
def BoostPlan.Keeps (plan : BoostPlan) (last : CoordinatedTx) : Prop :=
  last.speedup?.isSome ∧ last.state = .inMempool ∧ last.takes = plan.last.takes ∧
    last.feeInfo = plan.last.feeInfo

/-- Marks do not affect what is kept of the predecessor of a boost. -/
theorem BoostPlan.markStable_keeps (plan : BoostPlan) : MarkStable (Holds plan.Keeps) :=
  markStable_holds fun _ _ mark hP hkind =>
    ⟨rfl, hP.2.1, (CoordinatedTx.takes_mark mark hkind).trans hP.2.2.1, hP.2.2.2⟩

/-- What the predecessor of a boost takes is sourced. -/
theorem BoostPlan.sourced_of_takes {plan : BoostPlan} {op : OutPoint}
    (hlast : RecordAt plan.last.txid (Holds plan.Keeps) w) (hop : op ∈ plan.last.takes) :
    Sourced op w := by
  obtain ⟨last, hget, hspeedup, hstate, htakes, -⟩ := hlast
  have hid : last.txid = plan.last.txid := w.store.keyed _ _ hget
  rw [← hid] at hget
  exact Source.inherited last hget hspeedup hstate (by rw [htakes]; exact hop)

/-- A planned boost starts from a listed record in the mempool. -/
theorem BoostPlan.Sound.keeps {plan : BoostPlan} {cfg : BitcoinSettings}
    {all : List CoordinatedTx} (h : plan.Sound cfg all) : plan.Keeps plan.last := by
  obtain ⟨kind, hkind, -⟩ := h.speedup
  have hlive := List.find?_some h.last
  simp only [isLiveInMempool, Bool.and_eq_true, decide_eq_true_eq] at hlive
  exact ⟨by rw [hkind]; rfl, hlive.1, rfl, rfl⟩

/-- The inputs an RBF starts from are taken by its predecessor. -/
theorem BoostPlan.Sound.initial_takes {plan : BoostPlan} {cfg : BitcoinSettings}
    {all : List CoordinatedTx} (h : plan.Sound cfg all) {inputs : List Utxo}
    (hinputs : plan.rbfInitialInputs = some inputs) {u : Utxo} (hu : u ∈ inputs) :
    u.outPoint ∈ plan.last.takes := by
  obtain ⟨kind, hkind, hcontext⟩ := h.speedup
  unfold BoostPlan.rbfInitialInputs at hinputs
  split at hinputs
  · cases hinputs
    rw [hcontext] at hu
    unfold CoordinatedTx.takes
    rw [hkind]
    exact List.mem_append_right _ (List.mem_append_right _ (List.mem_map_of_mem hu))
  · cases hinputs

/-- The outputs the parents of a boost name are taken by its predecessor. -/
theorem BoostPlan.Sound.data_takes {plan : BoostPlan} {cfg : BitcoinSettings}
    {all : List CoordinatedTx} (h : plan.Sound cfg all) {op : OutPoint}
    (hop : op ∈ (plan.parentEntries.map Prod.fst).filterMap SpeedupData.outPoint?) :
    op ∈ plan.last.takes := by
  obtain ⟨kind, hkind, hcontext⟩ := h.speedup
  unfold BoostPlan.parentEntries at hop
  split at hop
  · rw [List.map_map, hcontext] at hop
    unfold CoordinatedTx.takes
    rw [hkind]
    exact List.mem_append_right _ (List.mem_append_left _ hop)
  · exact absurd hop List.not_mem_nil

/-- What stays true while a boost is built: its predecessor is as it was, no speedup waits for
dispatch, and the boost is the one decided on last. -/
structure BoostPlan.Ready (plan : BoostPlan) (s : Store) (w : World) : Prop where
  last : RecordAt plan.last.txid (Holds plan.Keeps) w
  idle : w.store.Idle
  planned : lastPlanned w.log = some (plan.last.txid, s)

/-- What is needed for a boost is steady. -/
theorem BoostPlan.steady_ready (plan : BoostPlan) (s : Store) : Steady (plan.Ready s) := by
  apply steady_of_quiet
  · intro w w' hready hquiet
    refine ⟨?_, hquiet.idle hready.idle, hquiet.lastPlanned_eq.trans hready.planned⟩
    unfold RecordAt
    rw [hquiet.txs_eq]
    exact hready.last
  · exact fun _ _ _ hready => ⟨hready.last, hready.idle, hready.planned⟩

/-- Setting a spent flag keeps what is needed for a boost. -/
theorem BoostPlan.setSpent_keeps_ready (plan : BoostPlan) (s : Store) (op : OutPoint) (spent : Bool) :
    Prog.Keeps (plan.Ready s) (setSpent op spent) ctx := by
  have hwrite : Prog.Keeps (plan.Ready s) (writeSpent op spent) ctx := by
    refine OneWrite.keeps (fun _ => writeSpent_oneWrite op spent)
      (fun w hready => (plan.steady_ready s).asked w hready) ?_
    intro w hready
    exact ⟨plan.markStable_keeps.setSpent op spent hready.last, hready.idle.setSpent op spent,
      hready.planned⟩
  exact Prog.Keeps.seq hwrite fun _ => fun w hready => ⟨hready.last, hready.idle, hready.planned⟩

/-- Persisting a speedup that was just built. -/
theorem saveSpeedup_stepwise {tx : Transaction} {feeInfo : FeeInfo} {kind : SpeedupKind}
    {height : BlockHeight} (htx : Insertable ctx w (speedupRecord tx feeInfo kind height)) :
    Stepwise tidy .build (saveSpeedup tx feeInfo kind height) ctx w := by
  apply Prog.Walks.seq (insertSpeedup_stepwise htx)
  intro _ _
  exact stepwise_of_calm (monitorWatch_calm _ _)

/-- Marking the predecessor of a capped RBF. -/
theorem markPredecessorAtCap_plainly (txid : Txid) {maxFeerate : ℕ}
    (hmax : maxFeerate = ctx.settings.fee.maxFeerateSatVb) :
    Plainly tidy .build (markPredecessorAtCap txid maxFeerate) ctx w := by
  apply reaches_read
  split
  · next predecessor hget => exact updateTx_plainly hget (Change.atCap maxFeerate) (Or.inr hmax)
  · exact Prog.Reaches.pure _

/-- What a build was asked to spend has a known origin. -/
theorem BuiltWith.exists_answer {data : List SpeedupData} {pricing : ℕ → Pricing}
    {start : List Utxo} {built : SpeedupBuildResult} (h : BuiltWith ctx data pricing start built w)
    (hdata : ∀ op ∈ data.filterMap SpeedupData.outPoint?, Sourced op w) :
    ∃ n data inputs key fee, ctx.answers.speedupTransactions n data inputs key fee = .ok built.tx ∧
      ∀ op ∈ requestedInputs data inputs, Source w.store op := by
  obtain ⟨n, key, hanswer⟩ := h.answered
  refine ⟨n, data, built.fundingInputs, key, built.fee, hanswer, fun op hop => ?_⟩
  rcases List.mem_append.mp hop with hparent | hinput
  · exact hdata op hparent
  · obtain ⟨u, hu, rfl⟩ := List.mem_map.mp hinput
    exact h.sourced u hu

/-- The context of the kind of a boost. -/
theorem BoostPlan.kind_ok (plan : BoostPlan) (inputs : List Utxo) (context : SpeedupContext) :
    (plan.kind inputs context).context = context ∧
      (plan.kind inputs context).parents = (if plan.useRbf then [] else [plan.last.txid]) := by
  unfold BoostPlan.kind
  split <;> exact ⟨rfl, rfl⟩

/-- Saving a planned boost. -/
theorem saveBoost_stepwise {plan : BoostPlan} {nextBump : ℚ} {built : SpeedupBuildResult}
    {height : BlockHeight} {isRbf : Bool} {all : List CoordinatedTx} {start : List Utxo} {s : Store}
    (hplan : plan.Sound ctx.settings all)
    (hbuilt : BuiltWith ctx (plan.parentEntries.map Prod.fst)
      (pricingOf plan.parentEntries bumpFee feeRate isRbf chainDiffFee) start built w)
    (hstart : plan.useRbf = false → start.head?.isSome ∧ start.head? = s.primaryInput?)
    (hrate : plan.last.feeInfo.packageFeeRate + 1 ≤ feeRate) (hready : plan.Ready s w) :
    Stepwise tidy .build (saveBoost plan nextBump built height) ctx w := by
  obtain ⟨childVsize, hsigned, hsize, hfee⟩ := hbuilt.signed
  have hpaid : built.fee =
      (ctx.settings.fee.price (pricingOf plan.parentEntries bumpFee feeRate isRbf chainDiffFee
        childVsize)).1 := congrArg Prod.fst hfee
  have hanswer := hbuilt.exists_answer fun op hop =>
    BoostPlan.sourced_of_takes hready.last (hplan.data_takes hop)
  obtain ⟨last, hget, hspeedup, hstate, -, hinfo⟩ := hready.last
  apply walks_settings
  apply Prog.Walks.seq
  · apply saveSpeedup_stepwise
    obtain ⟨hcontext, hparents⟩ := plan.kind_ok built.fundingInputs
      (makeSpeedupContext built.fundingInputs nextBump plan.parentEntries)
    have hinputs : (plan.kind built.fundingInputs
        (makeSpeedupContext built.fundingInputs nextBump plan.parentEntries)).context.fundingInputs =
          built.fundingInputs := by
      rw [hcontext]
      rfl
    refine ⟨⟨rfl, rfl, rfl, rfl, rfl⟩, ⟨_, rfl, ?_, Or.inl ?_⟩, hready.idle, ?_, ?_,
      ⟨_, hsigned, hsize, ?_, ?_⟩, hanswer⟩
    · rw [hinputs]
      exact hbuilt.funded
    · rw [hparents]
      split <;> simp
    · intro kind hkind txid htxid
      cases hkind
      rw [hparents] at htxid
      split at htxid
      · exact absurd htxid List.not_mem_nil
      · rw [List.mem_singleton.mp htxid]
        have hside : last.state.isOnChainSide := by
          rw [hstate]
          rfl
        exact ⟨last, hget, hside⟩
    · intro _ parents context hkind
      have hsame : plan.kind built.fundingInputs (makeSpeedupContext built.fundingInputs nextBump
          plan.parentEntries) = .cpfp parents context := Option.some.inj hkind
      unfold BoostPlan.kind at hsame
      split at hsame
      · cases hsame
      next hcpfp =>
      cases hsame
      obtain ⟨hsome, hprimary⟩ := hstart (by simpa using hcpfp)
      have hhead : built.fundingInputs.head? = start.head? := by
        obtain ⟨extra, hextra⟩ := hbuilt.starts
        rw [← hextra]
        cases start with
        | nil => cases hsome
        | cons first rest => rfl
      refine ⟨_, s, hready.planned, rfl, ?_, ?_⟩
      · change built.fundingInputs.head?.isSome
        rw [hhead]
        exact hsome
      · change built.fundingInputs.head? = _
        rw [hhead]
        exact hprimary
    · rw [← hpaid]
      rfl
    · intro _
      refine ⟨_, last, plan.predecessor? _ _ _ _ _, hget, hspeedup, hstate, ?_, ?_⟩
      · rw [hinfo]
        exact hplan.belowMax
      · rw [hinfo]
        exact hrate
  intro _ _
  apply Prog.Walks.seq (stepwise_of_calm (reportIfCapped_calm _ _ _ _))
  intro _ _
  apply Prog.Walks.ite <;> intro _
  · exact stepwise_of_plainly (markPredecessorAtCap_plainly _ rfl)
  · exact Prog.Walks.pure _

/-- Building and saving a planned boost. -/
theorem runBoost_stepwise {plan : BoostPlan} {all : List CoordinatedTx} {height : BlockHeight}
    (hplan : plan.Sound ctx.settings all) (hready : plan.Ready w.store w) :
    Stepwise tidy .build (runBoost plan all height) ctx w := by
  have hsteady := plan.steady_ready w.store
  have hstore : Steady fun w₁ => w₁.store = w.store :=
    ⟨fun _ h => h, fun _ _ h => h, fun _ _ _ h => h⟩
  apply walks_settings
  apply Prog.Walks.bind (stepwise_of_calm getNetworkFeeRate_calm)
  intro fee w₁ hfee
  apply Prog.Walks.bind (stepwise_of_calm (publishFeeNews_calm _))
  intro _ w₂ hnews
  have hready₂ := (hsteady.publishFeeNews _).run (hsteady.getNetworkFeeRate.run hready hfee) hnews
  have hstore₂ := (hstore.publishFeeNews _).run (hstore.getNetworkFeeRate.run rfl hfee) hnews
  apply Prog.Walks.bind (stepwise_of_plainly buildSpeedup_plainly)
  intro built w₃ hbuild
  cases built with
  | none => exact Prog.Walks.pure _
  | some built =>
    have hready₃ := (buildSpeedup_keeps hsteady (plan.setSpent_keeps_ready w.store)).run hready₂
      hbuild
    obtain ⟨start, hbuilt, hprimary⟩ := buildSpeedup_ok (fun inputs hinputs u hu =>
      BoostPlan.sourced_of_takes hready₂.last (hplan.initial_takes hinputs hu)) hbuild
    refine saveBoost_stepwise hplan hbuilt ?_ (le_max_right _ _) hready₃
    intro hcpfp
    have hinitial : plan.rbfInitialInputs = none := by simp [BoostPlan.rbfInitialInputs, hcpfp]
    obtain ⟨primary, rfl, hchosen⟩ := hprimary hinitial
    rw [hstore₂] at hchosen
    exact ⟨rfl, hchosen.symm⟩

/-- Step 5. -/
theorem boostIfStale_stepwise (skip : Bool) : Stepwise tidy .build (boostIfStale skip) ctx w := by
  apply Prog.Walks.ite <;> intro _
  · exact Prog.Walks.pure _
  · apply walks_settings
    apply Prog.Walks.seq (stepwise_of_calm query_calm)
    intro height w₁
    apply walks_read
    cases hplan : planBoost ctx.settings w₁.store.speedupsOrdered height with
    | none => exact Prog.Walks.pure _
    | some plan =>
      have hsound := planBoost_sound hplan
      apply Prog.Walks.bind (stepwise_of_plainly (note_plainly (Plain.planned plan.last.txid)))
      intro _ w₂ hnote
      obtain rfl := note_ok.mp hnote
      apply runBoost_stepwise hsound
      refine ⟨⟨plan.last, (mem_speedupsOrdered hsound.mem).2, hsound.keeps⟩, ?_, rfl⟩
      intro txid hlisted tx hget
      exact hsound.idle tx (List.mem_filterMap.mpr ⟨txid, hlisted, hget⟩)

/-! ### CPFP batch -/

/-- The record of a parent that reached the mempool or the chain. -/
def Store.readyParent? (s : Store) (txid : Txid) : Option CoordinatedTx :=
  (s.txs.get txid).filter fun tx => tx.state.isOnChainSide

/-- A pending parent that the lazy pruning may drop. -/
def Store.Prunable (s : Store) (txid : Txid) : Prop :=
  ∀ tx, s.txs.get txid = some tx → tx.state = .failed

/-- What a ready parent is. -/
theorem Store.readyParent?_eq_some {s : Store} {txid : Txid} {tx : CoordinatedTx} :
    s.readyParent? txid = some tx ↔ s.txs.get txid = some tx ∧ tx.state.isOnChainSide := by
  unfold Store.readyParent?
  exact Option.filter_eq_some_iff

/-- The walk over the pending list collects the parents that reached the mempool or the chain, in its order, and
keeps what the dropping of those that failed or are missing keeps. The induction is on the list. -/
theorem collectPendingParents_spec {s : Store} {I : World → Prop} {txids : List Txid} {w' : World}
    {r : Except Stop (List CoordinatedTx)}
    (hdrop : ∀ txid ∈ txids, s.Prunable txid → Prog.Keeps I (removePendingSpeedupParent txid) ctx)
    (htxs : w.store.txs = s.txs) (hw : I w) (hrun : collectPendingParents txids ctx w = (r, w')) :
    I w' ∧ ∀ parents, r = .ok parents → parents = txids.filterMap s.readyParent? := by
  induction txids generalizing w r w' with
  | nil =>
    cases hrun
    exact ⟨hw, fun parents h => (Except.ok.inj h).symm⟩
  | cons txid rest ih =>
    have hlater : ∀ later ∈ rest, s.Prunable later → Prog.Keeps I (removePendingSpeedupParent later) ctx :=
      fun later hmem => hdrop later (List.mem_cons_of_mem _ hmem)
    have hskip : s.Prunable txid → s.readyParent? txid = none →
        (do removePendingSpeedupParent txid; collectPendingParents rest : Coord _) ctx w = (r, w') →
        I w' ∧ ∀ parents, r = .ok parents → parents = (txid :: rest).filterMap s.readyParent? := by
      intro hprune hnone hrun
      have hkept := hdrop txid List.mem_cons_self hprune
      rw [List.filterMap_cons_none hnone]
      rcases hfirst : removePendingSpeedupParent txid ctx w with ⟨e | u, w₁⟩
      · rw [Prog.bind_of_error hfirst] at hrun
        cases hrun
        exact ⟨hkept.run hw hfirst, fun parents h => by cases h⟩
      · rw [Prog.bind_of_ok hfirst] at hrun
        have hsame := calm_txs (removePendingSpeedupParent_calm txid) hfirst
        exact ih hlater (hsame.trans htxs) (hkept.run hw hfirst) hrun
    have htake : ∀ tx, s.readyParent? txid = some tx →
        (do let live ← collectPendingParents rest; pure (tx :: live) : Coord _) ctx w = (r, w') →
        I w' ∧ ∀ parents, r = .ok parents → parents = (txid :: rest).filterMap s.readyParent? := by
      intro tx hsome hrun
      rw [List.filterMap_cons_some hsome]
      rcases hcollect : collectPendingParents rest ctx w with ⟨e | others, w₁⟩
      · rw [Prog.bind_of_error hcollect] at hrun
        cases hrun
        exact ⟨(ih hlater htxs hw hcollect).1, fun parents h => by cases h⟩
      · rw [Prog.bind_of_ok hcollect] at hrun
        cases hrun
        obtain ⟨hkept, hothers⟩ := ih hlater htxs hw hcollect
        refine ⟨hkept, fun parents h => ?_⟩
        cases h
        rw [hothers others rfl]
    have hread : getTxById txid ctx w = (.ok (s.txs.get txid), w) := by
      rw [← htxs]
      rfl
    unfold collectPendingParents at hrun
    rw [Prog.bind_of_ok hread] at hrun
    cases hget : s.txs.get txid with
    | none =>
      rw [hget] at hrun
      have hprune : s.Prunable txid := fun tx htx => by cases hget.symm.trans htx
      exact hskip hprune (by simp [Store.readyParent?, hget]) hrun
    | some tx =>
      rw [hget] at hrun
      have hready : s.readyParent? txid = if tx.state.isOnChainSide then some tx else none := by
        simp [Store.readyParent?, hget, Option.filter]
      cases hstate : tx.state with
      | toDispatch =>
        simp only [hstate] at hrun hready
        rw [List.filterMap_cons_none hready]
        exact ih hlater htxs hw hrun
      | failed =>
        simp only [hstate] at hrun hready
        have hprune : s.Prunable txid := by
          intro tx' htx
          cases hget.symm.trans htx
          exact hstate
        exact hskip hprune hready hrun
      | inMempool =>
        simp only [hstate] at hrun hready
        exact htake tx hready hrun
      | confirmed =>
        simp only [hstate] at hrun hready
        exact htake tx hready hrun
      | finalized =>
        simp only [hstate] at hrun hready
        exact htake tx hready hrun

/-- A pending parent that reached the mempool or the chain, as its record was read. -/
def IsReadyParent (parent : CoordinatedTx) (w : World) : Prop :=
  RecordAt parent.txid (Holds fun tx => tx.state.isOnChainSide ∧
    ∀ data, parent.kind = .needsSpeedup data → tx.kind = .needsSpeedup data) w

/-- The parents collected are those that reached the mempool or the chain. -/
theorem collectPendingParents_eq {txids : List Txid} {parents : List CoordinatedTx} {w' : World}
    (hrun : collectPendingParents txids ctx w = (.ok parents, w')) :
    parents = txids.filterMap w.store.readyParent? :=
  (collectPendingParents_spec (I := fun _ => True) (fun _ _ _ _ _ => trivial) rfl trivial hrun).2 parents rfl

/-- The pending parents were read from the mempool or the chain. -/
theorem collectPendingParents_ok {txids : List Txid} {parents : List CoordinatedTx} {w' : World}
    (hrun : collectPendingParents txids ctx w = (.ok parents, w')) :
    ∀ parent ∈ parents, IsReadyParent parent w' := by
  intro parent hparent
  rw [collectPendingParents_eq hrun] at hparent
  obtain ⟨txid, -, hready⟩ := List.mem_filterMap.mp hparent
  obtain ⟨hget, hstate⟩ := Store.readyParent?_eq_some.mp hready
  refine ⟨parent, ?_, hstate, fun _ h => h⟩
  rw [calm_txs (collectPendingParents_calm txids) hrun, w.store.keyed txid parent hget]
  exact hget

/-- The outputs the parents of a batch name are sourced. -/
theorem sourced_of_parents {batch : List CoordinatedTx}
    (hbatch : ∀ parent ∈ batch, IsReadyParent parent w) {op : OutPoint}
    (hop : op ∈ ((parentEntriesOf batch).map Prod.fst).filterMap SpeedupData.outPoint?) :
    Sourced op w := by
  obtain ⟨data, hdata, hout⟩ := List.mem_filterMap.mp hop
  obtain ⟨entry, hentry, rfl⟩ := List.mem_map.mp hdata
  obtain ⟨parent, hparent, hkind⟩ := List.mem_filterMap.mp hentry
  split at hkind
  · next named hneeds =>
    cases hkind
    obtain ⟨tx, hget, hstate, htx⟩ := hbatch parent hparent
    have hid : tx.txid = parent.txid := w.store.keyed _ _ hget
    rw [← hid] at hget
    exact Source.parent tx named hget (htx named hneeds) hstate hout
  · cases hkind

/-- The pending parents are collected in the order of the list. -/
theorem collectPendingParents_sublist {txids : List Txid} {parents : List CoordinatedTx} {w' : World}
    (hrun : collectPendingParents txids ctx w = (.ok parents, w')) :
    (parents.map CoordinatedTx.txid).Sublist txids := by
  rw [collectPendingParents_eq hrun]
  clear hrun
  induction txids with
  | nil => exact List.Sublist.refl _
  | cons txid rest ih =>
    cases hready : w.store.readyParent? txid with
    | none =>
      rw [List.filterMap_cons_none hready]
      exact ih.cons _
    | some tx =>
      rw [List.filterMap_cons_some hready, List.map_cons,
        w.store.keyed txid tx (Store.readyParent?_eq_some.mp hready).1]
      exact ih.cons_cons _

/-- Marks do not affect a ready parent. -/
theorem markStable_readyParent (parent : CoordinatedTx) :
    MarkStable (Holds fun tx => tx.state.isOnChainSide ∧
      ∀ data, parent.kind = .needsSpeedup data → tx.kind = .needsSpeedup data) :=
  markStable_holds fun tx kind _ hP hspeedup => by
    refine ⟨hP.1, fun data hneeds => ?_⟩
    have hkind := hP.2 data hneeds
    rw [hspeedup] at hkind
    cases hkind

/-- Taking a parent off the pending list keeps the known origins. -/
theorem takePendingParent_keeps_sourced (op : OutPoint) (parent : CoordinatedTx) :
    Prog.Keeps (Sourced op) (takePendingParent parent) ctx := by
  have hunpend : ∀ s : Store, Source s op → Source (s.unpend parent.txid) op := by
    intro s h
    cases h with
    | change tip hget hspeedup hstate => exact Source.change tip hget hspeedup hstate
    | queued record hqueued hop => exact Source.queued record hqueued hop
    | parent tx data hget hkind hstate hop => exact Source.parent tx data hget hkind hstate hop
    | inherited last hget hspeedup hstate hop =>
      exact Source.inherited last hget hspeedup hstate hop
  refine Prog.Keeps.seq ?_ fun _ => fun w hw => hw
  exact OneWrite.keeps (fun w => removePendingSpeedupParent_oneWrite parent.txid)
    (fun _ hw => hw) fun w => hunpend w.store

/-- The parents a speedup accelerates stay read off the pending list. -/
theorem IsBatch.plain {parents : List Txid} {w' : World} (h : IsBatch parents w)
    (hplain : Plain ctx tidy phase w w') : IsBatch parents w' := by
  rcases h with hnodup | ⟨s, hversion, hsub⟩
  · exact Or.inl hnodup
  · exact Or.inr ⟨s, hversion.move (Move.plain hplain), hsub⟩

/-- What stays true while the CPFP of a batch is built: the parents are ready, they were read off the
pending list, and no speedup waits for dispatch. -/
structure BatchOpen (batch : List CoordinatedTx) (w : World) : Prop where
  ready : ∀ parent ∈ batch, IsReadyParent parent w
  chosen : IsBatch (batch.map CoordinatedTx.txid) w
  idle : w.store.Idle

/-- What is needed for the CPFP of a batch is not affected by quiet moves. -/
theorem BatchOpen.quiet (ctx : Ctx) {batch : List CoordinatedTx} {w' : World}
    (h : BatchOpen batch w) (hquiet : Quiet w w') : BatchOpen batch w' := by
  have hplain : Plain ctx False .build w w' := Plain.quiet hquiet
  refine ⟨fun parent hparent => ?_, h.chosen.plain hplain, hquiet.idle h.idle⟩
  unfold IsReadyParent RecordAt
  rw [hquiet.txs_eq]
  exact h.ready parent hparent

/-- Quiet functions keep what is needed for the CPFP of a batch. -/
theorem batchOpen_of_calm {α : Type} {batch : List CoordinatedTx} {m : Coord α} {a : Except Stop α}
    {w' : World} (h : Calm m ctx w) (hopen : BatchOpen batch w) (hrun : m ctx w = (a, w')) :
    BatchOpen batch w' := by
  have hkept := h.keeps (fun _ _ hopen hquiet => hopen.quiet ctx hquiet) hopen
  rw [hrun] at hkept
  exact hkept

/-- A build keeps what is needed for the CPFP of a batch. -/
theorem buildSpeedup_keeps_open {batch : List CoordinatedTx} {parentEntries : List (SpeedupData × ℕ)}
    {initial : Option (List Utxo)} : Prog.Keeps (BatchOpen batch)
      (buildSpeedup parentEntries initial bumpFee feeRate chainDiffFee) ctx := by
  apply buildSpeedup_keeps
  · apply steady_of_quiet
    · exact fun _ _ hopen hquiet => hopen.quiet ctx hquiet
    · intro w pricing vsize hopen
      refine ⟨hopen.ready, ?_, hopen.idle⟩
      rcases hopen.chosen with hnodup | ⟨s, rfl | ⟨after, hwrote⟩, hsub⟩
      · exact Or.inl hnodup
      · exact Or.inr ⟨_, Or.inl rfl, hsub⟩
      · exact Or.inr ⟨s, Or.inr ⟨after, List.mem_cons_of_mem _ hwrote⟩, hsub⟩
  · intro op spent w hopen
    have hplain : Plainly False .build (setSpent op spent) ctx w := setSpent_plainly op spent
    refine ⟨fun parent hparent => ?_, ?_, ?_⟩
    · exact setSpent_keeps (markStable_readyParent parent) op spent w (hopen.ready parent hparent)
    · exact hplain.keeps (fun _ _ hchosen hmove => hchosen.plain hmove) hopen.chosen
    · have hidle : Prog.Keeps (fun w => w.store.Idle) (setSpent op spent) ctx :=
        setSpent_keeps_store op spent fun _ hidle => hidle.setSpent op spent
      exact hidle w hopen.idle

/-- Saving the CPFP of a batch. -/
theorem saveCpfpBatch_stepwise {batch : List CoordinatedTx} {built : SpeedupBuildResult} {bump : ℚ}
    {start : List Utxo} (hbatch : parentEntriesOf batch ≠ []) (hopen : BatchOpen batch w)
    (hbuilt : BuiltWith ctx ((parentEntriesOf batch).map Prod.fst)
      (pricingOf (parentEntriesOf batch) bumpFee feeRate false chainDiffFee) start built w) :
    Stepwise tidy .build (saveCpfpBatch batch bump built) ctx w := by
  obtain ⟨childVsize, hsigned, hsize, hfee⟩ := hbuilt.signed
  have hpaid : built.fee =
      (ctx.settings.fee.price (pricingOf (parentEntriesOf batch) bumpFee feeRate false chainDiffFee
        childVsize)).1 := congrArg Prod.fst hfee
  have htake : ∀ w, Calm (Prog.forEach batch takePendingParent) ctx w := by
    intro w
    exact Prog.Reaches.forEach fun parent _ _ => takePendingParent_calm parent
  obtain ⟨n, data, inputs, key, fee, hanswer, hsources⟩ :=
    hbuilt.exists_answer fun op hop => sourced_of_parents hopen.ready hop
  apply Prog.Walks.bind (stepwise_of_calm (htake w))
  intro _ w₁ htaken
  apply Prog.Walks.bind (stepwise_of_calm (reportIfCapped_calm _ _ _ _))
  intro _ w₂ hreport
  apply Prog.Walks.bind (stepwise_of_calm query_calm)
  intro height w₃ hheight
  have hlast : lastSigned w₃.log = lastSigned w.log := by
    rw [calm_lastSigned query_calm hheight, calm_lastSigned (reportIfCapped_calm _ _ _ _) hreport,
      calm_lastSigned (htake w) htaken]
  have hopen₃ : BatchOpen batch w₃ :=
    batchOpen_of_calm query_calm (batchOpen_of_calm (reportIfCapped_calm _ _ _ _)
      (batchOpen_of_calm (htake w) hopen htaken) hreport) hheight
  have hkept : ∀ op ∈ requestedInputs data inputs, Source w₃.store op := by
    intro op hop
    have htaking : Prog.Keeps (Sourced op) (Prog.forEach batch takePendingParent) ctx :=
      Prog.Keeps.forEach fun parent _ => takePendingParent_keeps_sourced op parent
    exact (steady_sourced op).query.run
      ((steady_sourced op).reportIfCapped.run (htaking.run (hsources op hop) htaken) hreport) hheight
  -- A batch has parents with metadata, so its CPFP is not a boost.
  have hfirst : ∀ (tx : Transaction) (info : FeeInfo) (parents : List Txid) (height : BlockHeight),
      ¬ (speedupRecord tx info (.cpfp parents (makeSpeedupContext built.fundingInputs bump
        (parentEntriesOf batch))) height).isBoost := by
    intro tx info parents height hboost
    have hempty : parentEntriesOf batch = [] := by
      simpa [CoordinatedTx.isBoost, CoordinatedTx.speedup?, speedupRecord, SpeedupKind.isBoost,
        makeSpeedupContext] using hboost
    exact hbatch hempty
  apply saveSpeedup_stepwise
  refine ⟨⟨rfl, rfl, rfl, rfl, rfl⟩, ⟨_, rfl, hbuilt.funded, hopen₃.chosen⟩, hopen₃.idle, ?_, ?_,
    ⟨_, hlast.trans hsigned, hsize, ?_, ?_⟩, n, data, inputs, key, fee, hanswer, hkept⟩
  · intro kind hkind txid htxid
    cases hkind
    obtain ⟨parent, hparent, rfl⟩ := List.mem_map.mp htxid
    obtain ⟨tx, hget, hstate, -⟩ := hopen₃.ready parent hparent
    exact ⟨tx, hget, hstate⟩
  · intro hboost
    exact absurd hboost (hfirst _ _ _ _)
  · rw [← hpaid]
    rfl
  · intro hboost
    exact absurd hboost (hfirst _ _ _ _)

/-- Building and saving the CPFP of the next batch. -/
theorem runCpfpBatch_stepwise {parents : List CoordinatedTx} (unconfirmed : List CoordinatedTx)
    (hopen : BatchOpen parents w) :
    Stepwise tidy .build (runCpfpBatch parents unconfirmed) ctx w := by
  apply walks_settings
  apply Prog.Walks.bind (stepwise_of_calm getNetworkFeeRate_calm)
  intro fee w₁ hfee
  apply Prog.Walks.bind (stepwise_of_calm (publishFeeNews_calm _))
  intro _ w₂ hnews
  split
  · exact Prog.Walks.pure _
  · next batch hlast =>
    apply Prog.Walks.ite
    · intro _
      exact Prog.Walks.pure _
    · intro hbatch
      have hopen₂ := batchOpen_of_calm (publishFeeNews_calm _)
        (batchOpen_of_calm getNetworkFeeRate_calm hopen hfee) hnews
      have hsub := batchByWeight_sublist (List.mem_of_getLast? hlast)
      have hpart : BatchOpen batch w₂ := by
        refine ⟨fun parent hparent => hopen₂.ready parent (hsub.subset hparent), ?_, hopen₂.idle⟩
        rcases hopen₂.chosen with hnodup | ⟨s, hversion, hlisted⟩
        · exact Or.inl (List.Nodup.sublist (hsub.map _) hnodup)
        · exact Or.inr ⟨s, hversion, (hsub.map _).trans hlisted⟩
      apply Prog.Walks.bind (stepwise_of_plainly buildSpeedup_plainly)
      intro built w₃ hbuild
      cases built with
      | none => exact Prog.Walks.pure _
      | some built =>
        obtain ⟨start, hbuilt, -⟩ := buildSpeedup_ok (fun inputs hnone => by cases hnone) hbuild
        exact saveCpfpBatch_stepwise hbatch (buildSpeedup_keeps_open.run hpart hbuild) hbuilt

/-- Step 6. -/
theorem createCpfpBatch_stepwise : Stepwise tidy .build createCpfpBatch ctx w := by
  apply walks_settings
  apply Prog.Walks.bind (stepwise_of_calm getPendingSpeedupParents_calm)
  intro parents w₁ hpending
  apply walks_read
  apply Prog.Walks.ite <;> intro hnone
  · exact Prog.Walks.pure _
  · apply runCpfpBatch_stepwise
    refine ⟨collectPendingParents_ok hpending, ?_, ?_⟩
    · refine Or.inr ⟨w.store, ?_, collectPendingParents_sublist hpending⟩
      have hcalm : Calm getPendingSpeedupParents ctx w := getPendingSpeedupParents_calm
      have hsteps : Stepwise False .build getPendingSpeedupParents ctx w := stepwise_of_calm hcalm
      have hkeeps : ∀ w₁ w₂, w₁.HasVersion w.store → Move ctx False .build w₁ w₂ →
          w₂.HasVersion w.store := fun _ _ hversion hmove => hversion.move hmove
      exact Stepwise.keeps hsteps hkeeps (Or.inl rfl) hpending
    · intro txid hlisted tx hget hstate
      apply hnone
      refine Or.inr (Or.inl (List.any_eq_true.mpr ⟨tx, ?_, by simpa using hstate⟩))
      exact List.mem_filterMap.mpr ⟨txid, hlisted, hget⟩

end BitcoinCoordinator
