import BitcoinCoordinator.CallTraces
import BitcoinCoordinator.Foundation.Footprint
import BitcoinCoordinator.Foundation.Histories
import BitcoinCoordinator.NewsLog

/-!
# What a call records

The moments in which a transaction becomes known: the client registers it, a speedup is stored, the monitor is
told to watch it. Few functions record one, and the news log changes by its three calls only. Both are the
footprint of every function, inferred from the functions it is made of.
-/

namespace BitcoinCoordinator

open Foundation

variable {α β : Type} {P : Event → List Event → Prop}

/-- The moments in which a transaction becomes known. -/
def Event.IsRegistration : Event → Prop
  | .monitored _ _ | .registering _ _ | .inserted _ _ => True
  | _ => False

/-- The history grew, with registrations of one kind only, and the news log changed by its calls. -/
structure Recorded (P : Event → List Event → Prop) (w w' : World) : Prop where
  history : GrowsBy (fun e older => e.IsRegistration → P e older) w.log w'.log
  news : ∀ past, NewsRun past w → ∃ later, NewsRun (past ++ later) w'

instance recorded_isPreorder : IsPreorder World (Recorded P) where
  refl w := ⟨.refl, fun past hrun => ⟨[], by simpa using hrun⟩⟩
  trans w₁ w₂ w₃ h h' := by
    refine ⟨h.history.trans h'.history, fun past hrun => ?_⟩
    obtain ⟨later, hlater⟩ := h.news past hrun
    obtain ⟨last, hlast⟩ := h'.news _ hlater
    exact ⟨later ++ last, by simpa using hlast⟩

/-- A function with registrations of one kind only. -/
abbrev Records (P : Event → List Event → Prop) (m : Coord α) : Prop := Prog.Within (Recorded P) m

/-- A change that leaves the news and adds no registration. -/
theorem recorded_of_log {w w' : World} (hnews : w'.news = w.news)
    (hlog : w'.log = w.log ∨ ∃ e, ¬ e.IsRegistration ∧ w'.log = e :: w.log) : Recorded P w w' where
  history := by
    rcases hlog with hlog | ⟨e, he, hlog⟩
    · rw [hlog]
      exact .refl
    · rw [hlog]
      exact GrowsBy.refl.cons fun hreg => absurd hreg he
  news past hrun := ⟨[], by simpa using NewsRun.aside hrun hnews⟩

/-! ### Primitives -/

instance readStore_records {f : Store → α} : Records P (readStore f) := Prog.Within.read

instance settings_records : Records P settings := Prog.Within.ask

instance fail_records {e : BitcoinCoordinatorError} : Records P (fail e : Coord α) := Prog.Within.stop

instance query_records {wrap : String → BitcoinCoordinatorError}
    {question : Answers → ℕ → Except String α} : Records P (query wrap question) where
  related ctx w := by
    unfold query
    split <;> exact recorded_of_log rfl (Or.inl rfl)

instance attempt_records {question : Answers → ℕ → Except String α} :
    Records P (attempt question) where
  related _ _ := recorded_of_log rfl (Or.inl rfl)

instance ask_records {question : Answers → ℕ → α} : Records P (ask question) where
  related _ _ := recorded_of_log rfl (Or.inl rfl)

instance writeStore_records {f : Store → Store} : Records P (writeStore f) where
  related ctx w := by
    unfold writeStore
    split
    · exact recorded_of_log rfl (Or.inr ⟨_, id, rfl⟩)
    · exact recorded_of_log rfl (Or.inl rfl)

/-- A noted moment is no registration. -/
theorem note_records {e : Store → Event} (h : ∀ s, ¬ (e s).IsRegistration) : Records P (note e) where
  related _ w := recorded_of_log rfl (Or.inr ⟨_, h w.store, rfl⟩)

/-- A registration of the kind is recorded. -/
theorem note_recorded {e : Store → Event} {ctx : Ctx} {w : World} (h : P (e w.store) w.log) :
    Recorded P w (note e ctx w).2 := by
  refine ⟨GrowsBy.refl.cons fun _ => h, fun past hrun => ⟨[], ?_⟩⟩
  rw [List.append_nil]
  exact hrun.aside rfl

/-- A write of the news leaves the history. -/
theorem writeNews_log {f : List StoredNewsItem → List StoredNewsItem} (ctx : Ctx) (w : World) :
    (writeNews f ctx w).2.log = w.log := by
  unfold writeNews
  split <;> rfl

/-- A call of the news log changes it as such, whether it returns or not. -/
theorem NewsCall.news (call : NewsCall) (ctx : Ctx) {w : World} {past : List (LogEvent CoordinatorNews)}
    (hrun : NewsRun past w) : ∃ later, NewsRun (past ++ later) (call.exec ctx w).2 := by
  rcases hcall : call.exec ctx w with ⟨stop | event, w'⟩
  · exact ⟨[], by simpa using hrun.stopped hcall⟩
  · exact ⟨[event], hrun.returned hcall⟩

/-- A function of the news log that writes nothing else. -/
theorem records_of_newsCall {m : Coord α} (call : NewsCall) (hlog : ∀ ctx w, (m ctx w).2.log = w.log)
    (hcall : ∀ ctx w, (call.exec ctx w).2 = (m ctx w).2) : Records P m where
  related ctx w := by
    refine ⟨?_, fun past hrun => ?_⟩
    · rw [hlog]
      exact .refl
    · rw [← hcall]
      exact call.news ctx hrun

instance addNews_records {news : CoordinatorNews} : Records P (addNews news) := by
  refine records_of_newsCall (.add news) (fun ctx w => ?_) fun _ _ => Prog.state_map
  change ((if (w.news.any fun item => item.news = news) = true then (pure false : Coord Bool) else
    writeNews (fun _ => w.news ++ [⟨news, none⟩]) >>= fun _ => pure true) ctx w).2.log = _
  split
  · rfl
  · rw [Prog.state_map]
    exact writeNews_log ctx w

instance ackNews_records {news : CoordinatorNews} {height : BlockHeight} :
    Records P (ackNews news height) :=
  records_of_newsCall (.ack news height) (fun ctx w => writeNews_log ctx w) fun _ _ => Prog.state_map

instance cleanupNews_records {height : BlockHeight} : Records P (cleanupNews height) :=
  records_of_newsCall (.cleanup height) (fun ctx w => writeNews_log ctx w) fun _ _ => Prog.state_map

/-! ### Storage -/

variable {tx copy updated : CoordinatedTx} {txid : Txid} {txids : List Txid} {height : BlockHeight}
  {op : OutPoint} {utxo : Utxo} {spent : Bool}

instance insertTx_records : Records P (insertTx tx) := writeStore_records

instance updateTx_records : Records P (updateTx tx) := writeStore_records

instance getTxById_records : Records P (getTxById txid) := readStore_records

/-- A record put with a note that is no registration. -/
theorem putTx_records {event : Store → Event} (h : ∀ s, ¬ (event s).IsRegistration) :
    Records P (putTx event tx) :=
  Prog.Within.seq fun before => Prog.Within.seq fun _ => note_records fun _ => h before

instance removeSpeedupFromList_records : Records P (removeSpeedupFromList txid) := by
  unfold removeSpeedupFromList
  infer_instance

instance removeTx_records : Records P (removeTx txid) := by
  unfold removeTx
  infer_instance

/-- A function that looks up a record and goes on with either answer. -/
theorem lookup_records {f : Option CoordinatedTx → Coord α} (hnone : Records P (f none))
    (hsome : ∀ tx, Records P (f (some tx))) : Records P (getTxById txid >>= f) := by
  apply Prog.Within.seq
  intro found
  cases found with
  | none => exact hnone
  | some tx => exact hsome tx

instance updateTxStateImpl_records {state : TransactionState} {settled : Option BlockHeight} :
    Records P (updateTxStateImpl txid state settled) := by
  apply Prog.Within.branch
  · infer_instance
  · apply lookup_records
    · infer_instance
    · intro tx
      infer_instance

instance updateTxState_records {state : TransactionState} : Records P (updateTxState txid state) :=
  updateTxStateImpl_records

instance settleTx_records {state : TransactionState} : Records P (settleTx txid state height) :=
  Prog.Within.branch updateTxStateImpl_records fail_records

/-- Putting a record back to dispatch is what the write is. -/
theorem requeueWith_records {write : CoordinatedTx → Coord Unit} (hwrite : ∀ tx, Records P (write tx)) :
    Records P (requeueWith txid write) := by
  apply lookup_records
  · infer_instance
  · intro tx
    exact Prog.Within.branch (hwrite _) inferInstance

instance requeueNotFound_records : Records P (requeueNotFound txid height) :=
  requeueWith_records fun _ => putTx_records fun _ => id

instance markAsRetry_records : Records P (markAsRetry txid) := requeueWith_records fun _ => updateTx_records

instance getSpeedupsOrdered_records : Records P getSpeedupsOrdered := readStore_records

instance appendToSpeedupList_records : Records P (appendToSpeedupList txid) := by
  unfold appendToSpeedupList
  infer_instance

instance addPendingSpeedupParent_records : Records P (addPendingSpeedupParent txid) := by
  unfold addPendingSpeedupParent
  infer_instance

instance prependPendingSpeedupParents_records : Records P (prependPendingSpeedupParents txids) := by
  unfold prependPendingSpeedupParents
  infer_instance

instance removePendingSpeedupParent_records : Records P (removePendingSpeedupParent txid) := by
  unfold removePendingSpeedupParent
  infer_instance

instance collectPendingParents_records : Records P (collectPendingParents txids) := by
  induction txids with
  | nil => exact Prog.Within.pure
  | cons txid rest ih =>
    apply lookup_records
    · infer_instance
    · intro tx
      cases hstate : tx.state <;> simp only [hstate] <;> infer_instance

instance getPendingSpeedupParents_records : Records P getPendingSpeedupParents :=
  Prog.Within.seq fun _ => collectPendingParents_records

instance requeueProtocolParents_records : Records P (requeueProtocolParents tx) := by
  unfold requeueProtocolParents
  split <;> infer_instance

instance evictStaleTx_records {pending covered : List Txid} :
    Records P (evictStaleTx height pending covered tx) := by
  have hnote : Records P (note fun _ => .evicting tx) := note_records fun _ => id
  apply Prog.Within.seq
  intro cfg
  cases tx.settledBlockHeight <;> infer_instance

instance evictStaleTxs_records : Records P (evictStaleTxs height) := by
  unfold evictStaleTxs getSettledTxs
  infer_instance

instance getFundingRecord_records : Records P (getFundingRecord op) := readStore_records

instance readFundingRecords_records : Records P readFundingRecords := readStore_records

instance appendFunding_records : Records P (appendFunding utxo) := by
  have hnote : Records P (note (.addingFunding utxo)) := note_records fun _ => id
  unfold appendFunding
  infer_instance

instance setSpeedupSpent_records : Records P (setSpeedupSpent tx spent) := by
  unfold setSpeedupSpent
  split <;> infer_instance

instance writeSpent_records : Records P (writeSpent op spent) := by
  apply Prog.Within.seq
  intro record
  cases record with
  | some record => infer_instance
  | none =>
    apply lookup_records
    · infer_instance
    · intro tx
      infer_instance

instance setSpent_records : Records P (setSpent op spent) :=
  Prog.Within.seq fun _ => note_records fun _ => id

instance dropQueued_records {positions : List ℕ} {list : List OutPoint} :
    Records P (dropQueued positions list) := by
  induction positions generalizing list with
  | nil => exact Prog.Within.pure
  | cons idx rest ih =>
    unfold dropQueued
    split <;> infer_instance

instance swapQueued_records {positions : List ℕ} {list : List OutPoint} :
    Records P (swapQueued txid utxo spent positions list) := by
  unfold swapQueued
  split <;> infer_instance

instance replaceFundingOnFinalize_records : Records P (replaceFundingOnFinalize txid) := by
  have hnote : Records P (note (.finalizing txid)) := note_records fun _ => id
  apply Prog.Within.seq
  intro _
  apply lookup_records
  · infer_instance
  · intro tx
    dsimp only
    split <;> infer_instance

/-! ### Funding -/

instance setFunding_records : Records P (setFunding utxo) := by
  apply Prog.Within.seq
  intro cfg
  split <;> infer_instance

instance getFunding_records {speedups : List CoordinatedTx} : Records P (getFunding speedups) := by
  apply Prog.Within.seq
  intro tip
  cases tip with
  | some tx => infer_instance
  | none =>
    apply Prog.Within.seq
    intro records
    split <;> infer_instance

instance getCombineFunding_records : Records P getCombineFunding := by
  apply Prog.Within.seq
  intro records
  split <;> infer_instance

instance releaseMarks_records {utxos : List Utxo} : Records P (releaseMarks utxos) := by
  unfold releaseMarks
  infer_instance

instance markParentsUnspent_records : Records P (markParentsUnspent tx) := by
  unfold markParentsUnspent
  infer_instance

instance replaceOnFinalize_records : Records P (replaceOnFinalize txid) := replaceFundingOnFinalize_records

/-! ### Dispatch -/

instance parentsReady_records {ops : List OutPoint} : Records P (parentsReady ops) := by
  induction ops with
  | nil => exact Prog.Within.pure
  | cons op rest ih =>
    unfold parentsReady
    infer_instance

instance sendTransaction_records {tx : Transaction} : Records P (sendTransaction tx) := by
  have hnote : Records P (note fun _ => .broadcast tx) := note_records fun _ => id
  apply Prog.Within.seq
  intro _
  apply Prog.Within.seq
  intro answer
  cases answer <;> infer_instance

instance dispatchOne_records : Records P (dispatchOne tx) := by
  apply Prog.Within.seq
  intro failedParent
  cases failedParent <;> infer_instance

instance dispatchValid_records {txs : List CoordinatedTx} : Records P (dispatchValid txs) := by
  induction txs with
  | nil => exact Prog.Within.pure
  | cons tx rest ih =>
    unfold dispatchValid
    infer_instance

instance dispatch_records {txs : List CoordinatedTx} : Records P (dispatch txs) := by
  unfold dispatch
  infer_instance

/-! ### Lifecycle and failure -/

instance getMonitorHeight_records : Records P getMonitorHeight := query_records

instance getTxStatus_records {inMempool : Bool} : Records P (getTxStatus txid inMempool) := query_records

instance monitorCancel_records {data : TypesToMonitor} : Records P (monitorCancel data) :=
  Prog.Within.seq fun _ => note_records fun _ => id

instance rewriteTx_records : Records P (rewriteTx copy updated) := putTx_records fun _ => id

instance markReorg_records : Records P (markReorg tx height) := rewriteTx_records

instance markFinalized_records : Records P (markFinalized txid height) := settleTx_records

instance markConfirmed_records : Records P (markConfirmed txid) := updateTxState_records

instance markOrphan_records : Records P (markOrphan txid) := updateTxState_records

instance isRetryReady_records : Records P isRetryReady := by
  apply Prog.Within.seq
  intro cfg
  apply Prog.Within.seq
  intro lastRetryAt
  cases lastRetryAt <;> infer_instance

instance stampRetry_records : Records P stampRetry := by
  have hstamp : ∀ now : ℕ, Records P (Prog.modify fun w : World => { w with lastRetryAt := some now }) :=
    fun now => ⟨fun _ _ => recorded_of_log rfl (Or.inl rfl)⟩
  exact Prog.Within.seq hstamp

instance applyRetryRateLimit_records {txs : List CoordinatedTx} : Records P (applyRetryRateLimit txs) := by
  unfold applyRetryRateLimit
  infer_instance

instance unmaskPredecessor_records : Records P (unmaskPredecessor txid) := by
  apply lookup_records
  · infer_instance
  · intro replaced
    dsimp only
    split <;> infer_instance

instance releaseFailed_records : Records P (releaseFailed tx) := by
  unfold releaseFailed
  split <;> infer_instance

instance settleFailedDispatch_records {fundingMissing : Bool} :
    Records P (settleFailedDispatch tx height fundingMissing) := by
  unfold settleFailedDispatch
  infer_instance

instance failAndCascadeWithin_records {depth : ℕ} {fundingMissing : Bool} :
    Records P (failAndCascadeWithin depth tx height fundingMissing) := by
  induction depth generalizing tx fundingMissing with
  | zero => exact Prog.Within.stop
  | succ depth ih =>
    unfold failAndCascadeWithin
    infer_instance

instance failAndCascade_records {fundingMissing : Bool} :
    Records P (failAndCascade tx height fundingMissing) := by
  unfold failAndCascade
  infer_instance

instance rebuildSurvivors_records : Records P (rebuildSurvivors tx height) := by
  unfold rebuildSurvivors
  infer_instance

instance settleFailedChild_records : Records P (settleFailedChild tx height) := by
  unfold settleFailedChild
  split <;> infer_instance

instance markReplaced_records : Records P (markReplaced tx txid) := by
  unfold markReplaced
  split
  · infer_instance
  · apply lookup_records
    · infer_instance
    · intro replaced
      infer_instance

instance anyInputMissing_records {ops : List OutPoint} : Records P (anyInputMissing ops) := by
  induction ops with
  | nil => exact Prog.Within.pure
  | cons op rest ih =>
    unfold anyInputMissing
    infer_instance

instance missingInputKind_records : Records P (missingInputKind tx) := by
  unfold missingInputKind
  infer_instance

instance retryOrFail_records : Records P (retryOrFail tx txid height) := by
  have htransient : Records P (note fun _ => .transient txid) := note_records fun _ => id
  have hexhausted : Records P (note fun _ => .exhausted txid) := note_records fun _ => id
  unfold retryOrFail
  infer_instance

instance excuseOrFail_records {fundingMissing : Bool} :
    Records P (excuseOrFail tx txid height fundingMissing) := by
  have hdeferred : Records P (note fun _ => .deferred txid height) := note_records fun _ => id
  have hcondemned : Records P (note fun _ => .condemned txid height) := note_records fun _ => id
  unfold excuseOrFail
  infer_instance

instance settleMissingInput_records {fundingMissing : Bool} :
    Records P (settleMissingInput tx txid height fundingMissing) :=
  Prog.Within.seq fun _ => Prog.Within.seq fun _ => note_records fun _ => id

/-! ### Dispatch outcomes -/

/-- The monitor is told of the copy's transaction under the copy's context. -/
def Watches (copy : CoordinatedTx) (e : Event) (_ : List Event) : Prop :=
  e = .monitored (.transactions [copy.txid] copy.context copy.confirmationTrigger) true

/-- Telling the monitor of something records that. -/
theorem monitorWatch_recorded {data : TypesToMonitor} {inMempool : Bool} {ctx : Ctx} {w : World}
    (h : P (.monitored data inMempool) w.log) : Recorded P w (monitorWatch data inMempool ctx w).2 := by
  apply Prog.related_bind (query_records.related ctx w)
  intro _ w₁ hquery
  obtain ⟨-, rfl⟩ := query_ok.mp hquery
  exact note_recorded h

instance markAccepted_records {feeInfo : FeeInfo} :
    Records (Watches tx) (markAccepted tx tx.txid height feeInfo) := by
  have hwatch : Records (Watches tx)
      (monitorWatch (.transactions [tx.txid] tx.context tx.confirmationTrigger) true) :=
    ⟨fun _ _ => monitorWatch_recorded rfl⟩
  unfold markAccepted
  infer_instance

instance markAlreadyConfirmed_records : Records (Watches tx) (markAlreadyConfirmed tx tx.txid height) := by
  have hwatch : Records (Watches tx)
      (monitorWatch (.transactions [tx.txid] tx.context tx.confirmationTrigger) true) :=
    ⟨fun _ _ => monitorWatch_recorded rfl⟩
  unfold markAlreadyConfirmed
  infer_instance

instance classifyDispatchError_records {feeInfo : FeeInfo} :
    Records (Watches tx) (classifyDispatchError tx tx.txid height feeInfo) := by
  apply Prog.Within.seq
  intro confirmations
  split
  · infer_instance
  · infer_instance
  · apply Prog.Within.seq
    intro missing
    cases missing <;> infer_instance

instance handleOutcome_records {outcome : DispatchOutcome} {feeInfo : FeeInfo} :
    Records (Watches tx) (handleOutcome tx tx.txid outcome height feeInfo) := by
  unfold handleOutcome
  split <;> infer_instance

/-- Handling an outcome tells the monitor of the copy's transaction only. -/
theorem handleDispatchResult_records (outcome : DispatchOutcome) (feeInfo : FeeInfo) :
    Records (Watches tx) (handleDispatchResult tx txid outcome height feeInfo) := by
  apply Prog.Within.seq
  intro before
  apply Prog.Within.seq_of_result
  intro ctx w _ w' hverify
  obtain rfl := CoordinatedTx.verifyTxId_ok (Prog.mapError_ok.mp (Prog.ofExcept_ok.mp hverify).1)
  exact Prog.Within.seq fun _ => note_records fun _ => id

/-- The monitor is told of the transactions of a batch. -/
def WatchesBatch (batch : List CoordinatedTx) (e : Event) (older : List Event) : Prop :=
  ∃ copy ∈ batch, Watches copy e older

/-- What is recorded may be described less precisely. -/
theorem Recorded.mono {Q : Event → List Event → Prop} {w w' : World} (h : Recorded P w w')
    (himp : ∀ e older, P e older → Q e older) : Recorded Q w w' :=
  ⟨h.history.mono fun e older _ _ hp hreg => himp e older (hp hreg), h.news⟩

/-- A copy of a batch is watched as part of it. -/
theorem records_batch {batch : List CoordinatedTx} {m : Coord α} (hmem : tx ∈ batch)
    (h : Records (Watches tx) m) : Records (WatchesBatch batch) m :=
  h.mono fun _ _ hrecorded => hrecorded.mono fun _ _ hwatch => ⟨tx, hmem, hwatch⟩

instance publishFeeNews_records {news : Option CoordinatorNews} : Records P (publishFeeNews news) := by
  unfold publishFeeNews
  split <;> infer_instance

instance getNetworkFeeRate_records : Records P getNetworkFeeRate := by
  unfold getNetworkFeeRate
  infer_instance

/-- Handling the outcome of one transaction of a batch. -/
theorem handleBatchResult_records (batch : List CoordinatedTx) (feeRate : ℕ)
    (result : Txid × DispatchOutcome) :
    Records (WatchesBatch batch) (handleBatchResult batch feeRate height result) := by
  apply Prog.Within.seq_of_result
  intro ctx w copy w' hfind
  have hmem := (findTxInBatch_ok (Prog.mapError_ok.mp (Prog.ofExcept_ok.mp hfind).1)).1
  exact records_batch hmem (handleDispatchResult_records _ _)

/-- Broadcasting a batch tells the monitor of its transactions only. -/
theorem dispatchBatch_records (batch : List CoordinatedTx) :
    Records (WatchesBatch batch) (dispatchBatch batch height) := by
  apply Prog.Within.seq
  rintro ⟨feeRate, feeNews⟩
  apply Prog.Within.seq
  intro _
  apply Prog.Within.seq_of_result
  intro ctx w kept w' hkept
  have hsub := applyRetryRateLimit_sublist hkept
  apply Prog.Within.seq
  intro results
  apply Prog.Within.loop
  intro result _
  apply (handleBatchResult_records kept feeRate result).mono
  intro w w' hrecorded
  apply hrecorded.mono
  rintro e older ⟨copy, hmem, hwatch⟩
  exact ⟨copy, hsub.subset hmem, hwatch⟩

/-- Handling the outcome of one speedup of a batch. -/
theorem handleSpeedupResult_records (batch : List CoordinatedTx) (result : Txid × DispatchOutcome) :
    Records (WatchesBatch batch) (handleSpeedupResult batch height result) := by
  unfold handleSpeedupResult
  split
  · next copy hfind =>
    exact records_batch (List.mem_of_find?_eq_some hfind) (handleDispatchResult_records _ _)
  · infer_instance

/-- Broadcasting a batch of speedups tells the monitor of these only. -/
theorem dispatchSpeedupBatch_records (batch : List CoordinatedTx) :
    Records (WatchesBatch batch) (dispatchSpeedupBatch batch height) := by
  apply Prog.Within.seq
  intro results
  have hloop : Records (WatchesBatch batch) (Prog.forEach results (handleSpeedupResult batch height)) :=
    Prog.Within.loop fun result _ => handleSpeedupResult_records batch result
  exact Prog.Within.seq fun _ => readStore_records

/-- The monitor is told of a record of the store. -/
def WatchesStored (s : Store) (e : Event) (older : List Event) : Prop :=
  ∃ copy, s.txs.get copy.txid = some copy ∧ Watches copy e older

/-- Step 3 of a tick tells the monitor of records of the store it starts in. -/
theorem dispatchPending_recorded (ctx : Ctx) (w : World) :
    Recorded (WatchesStored w.store) w (dispatchPending ctx w).2 := by
  apply Prog.related_bind (getMonitorHeight_records.related ctx w)
  intro height w₁ hheight
  obtain ⟨-, rfl⟩ := query_ok.mp hheight
  have hbatch : ∀ batch : List CoordinatedTx, (∀ tx ∈ batch, tx ∈ w.store.txs.values) →
      Recorded (WatchesStored w.store) w.asked (dispatchBatch batch height ctx w.asked).2 := by
    intro batch hstored
    apply ((dispatchBatch_records batch).related ctx w.asked).mono
    rintro e older ⟨copy, hmem, hwatch⟩
    exact ⟨copy, Store.mem_values.mp (hstored copy hmem), hwatch⟩
  apply Prog.related_bind (readStore_records.related ctx w.asked)
  intro active w₂ hactive
  obtain ⟨rfl, rfl⟩ := readStore_ok.mp hactive
  generalize hdue : List.filter (CoordinatedTx.isDispatchable height) _ = due
  cases due with
  | nil => exact Prog.Within.pure.related ctx w.asked
  | cons tx rest =>
    apply hbatch
    intro tx' hmem
    rw [← hdue] at hmem
    exact List.mem_of_mem_filter (List.mem_of_mem_filter hmem)

/-- Step 4 of a tick tells the monitor of records of the store it starts in. -/
theorem dispatchPendingSpeedups_recorded (ctx : Ctx) (w : World) :
    Recorded (WatchesStored w.store) w (dispatchPendingSpeedups ctx w).2 := by
  apply Prog.related_bind (getMonitorHeight_records.related ctx w)
  intro height w₁ hheight
  obtain ⟨-, rfl⟩ := query_ok.mp hheight
  have hbatch : ∀ batch : List CoordinatedTx, (∀ tx ∈ batch, tx ∈ w.store.speedupsOrdered) →
      Records (WatchesStored w.store) (dispatchSpeedupBatch batch height) := by
    intro batch hstored
    apply (dispatchSpeedupBatch_records batch).mono
    intro w₁ w₂ hrecorded
    apply hrecorded.mono
    rintro e older ⟨copy, hmem, hwatch⟩
    obtain ⟨txid, -, hget⟩ := List.mem_filterMap.mp (hstored copy hmem)
    refine ⟨copy, ?_, hwatch⟩
    rw [w.store.keyed _ _ hget]
    exact hget
  apply Prog.related_bind (readStore_records.related ctx w.asked)
  intro speedups w₂ hspeedups
  obtain ⟨rfl, rfl⟩ := readStore_ok.mp hspeedups
  generalize hdue : List.filter (fun tx : CoordinatedTx => decide (tx.state = .toDispatch)) _ = due
  cases due with
  | nil => exact Prog.Within.pure.related ctx w.asked
  | cons tx rest =>
    apply Prog.related_bind (applyRetryRateLimit_records.related ctx w.asked)
    intro kept w₃ hkept
    have hsub := applyRetryRateLimit_sublist hkept
    cases kept with
    | nil => exact Prog.Within.pure.related ctx w₃
    | cons first others =>
      apply (hbatch _ ?_).related ctx w₃
      intro tx' hmem
      have hlisted := hsub.subset hmem
      rw [← hdue] at hlisted
      exact List.mem_of_mem_filter hlisted

/-! ### Review -/

instance reportStuck_records : Records P (reportStuck tx) := by
  unfold reportStuck
  infer_instance

instance reviewTransaction_records : Records P (reviewTransaction height tx) := by
  have hnote : Records P (note fun _ => .notFound tx.txid height) := note_records fun _ => id
  unfold reviewTransaction
  infer_instance

instance reviewActive_records : Records P reviewActive := by
  unfold reviewActive getActiveTxs
  infer_instance

instance removeReplacedFrom_records {context : String} {bound : ℕ} :
    Records P (removeReplacedFrom context height bound txid) := by
  induction bound generalizing txid with
  | zero => exact Prog.Within.stop
  | succ bound ih =>
    apply Prog.Within.seq
    intro found
    refine Prog.Within.seq fun _ => Prog.Within.seq fun _ => ?_
    split <;> infer_instance

instance removeReplacedRbf_records : Records P (removeReplacedRbf tx height) := by
  unfold removeReplacedRbf
  split <;> infer_instance

instance finalizeSpeedup_records : Records P (finalizeSpeedup tx height) := by
  unfold finalizeSpeedup
  infer_instance

instance reviewSpeedup_records {all : List CoordinatedTx} : Records P (reviewSpeedup all height tx) := by
  have hnote : Records P (note fun _ => .notFound tx.txid height) := note_records fun _ => id
  unfold reviewSpeedup
  infer_instance

instance reviewSpeedups_records : Records P reviewSpeedups := by
  unfold reviewSpeedups
  infer_instance

/-! ### Building -/

instance emitInsufficientFunds_records {available required : ℕ} :
    Records P (emitInsufficientFunds available required) := by
  unfold emitInsufficientFunds
  infer_instance

instance emitFundingNotAvailable_records : Records P emitFundingNotAvailable := by
  unfold emitFundingNotAvailable
  infer_instance

instance speedupTransactions_records {data : List SpeedupData} {inputs : List Utxo} {fee : ℕ} :
    Records P (speedupTransactions data inputs fee) := by
  unfold speedupTransactions
  split <;> infer_instance

instance combineInput_records {plan : BuildPlan} {inputs : List Utxo} :
    Records P (combineInput plan inputs) := by
  unfold combineInput
  infer_instance

instance abandonBuild_records {plan : BuildPlan} {inputs : List Utxo} {available required : ℕ} :
    Records P (abandonBuild plan inputs available required) := by
  unfold abandonBuild
  infer_instance

instance buildRound_records {plan : BuildPlan} {rounds : ℕ} {inputs : List Utxo} {childVsize : ℕ} :
    Records P (buildRound plan rounds inputs childVsize) := by
  induction rounds generalizing inputs childVsize with
  | zero => exact Prog.Within.stop
  | succ rounds ih =>
    have hsigned : ∀ pricing vsize, Records P (note fun _ => .signed pricing vsize) :=
      fun _ _ => note_records fun _ => id
    refine Prog.Within.seq fun cfg => Prog.Within.seq fun maxDustLimit => Prog.Within.seq fun dummy => ?_
    apply Prog.Within.branch
    · apply Prog.Within.seq
      intro extra
      cases extra <;> infer_instance
    · infer_instance

instance buildWith_records {plan : BuildPlan} {inputs : List Utxo} : Records P (buildWith plan inputs) := by
  unfold buildWith
  infer_instance

instance buildSpeedup_records {entries : List (SpeedupData × ℕ)} {initial : Option (List Utxo)} {bumpFee : ℚ}
    {feeRate chainDiffFee : ℕ} :
    Records P (buildSpeedup entries initial bumpFee feeRate chainDiffFee) := by
  unfold buildSpeedup
  cases initial with
  | some inputs => infer_instance
  | none =>
    refine Prog.Within.seq fun speedups => Prog.Within.seq fun funding => ?_
    rcases funding with _ | ⟨utxo, isSpeedup⟩ <;> infer_instance

/-- A speedup is stored under the context string of its kind, and then the monitor is told of it. -/
def StoresSpeedup (e : Event) (older : List Event) : Prop :=
  (∃ record kind s, e = .inserted record s ∧ record.context = ctxForKind kind) ∨
    ∃ record s, .inserted record s ∈ older ∧
      e = .monitored (.transactions [record.txid] record.context none) false

/-- A stored speedup is in the history. -/
theorem inserted_of_insertSpeedup {ctx : Ctx} {w w' : World} {u : Unit}
    (hrun : insertSpeedup tx ctx w = (.ok u, w')) : .inserted tx w.store ∈ w'.log := by
  have hinserting : Inserting tx w (insertSpeedup tx ctx w) := insertSpeedup_inserting tx
  rw [hrun] at hinserting
  cases hinserting with
  | relisted hlisted => simp [World.noted, World.holding]
  | listed => simp [World.noted, World.written, World.holding]

instance saveSpeedup_records {tx : Transaction} {feeInfo : FeeInfo} {kind : SpeedupKind} :
    Records StoresSpeedup (saveSpeedup tx feeInfo kind height) where
  related ctx w := by
    have hnote : ∀ before, Records StoresSpeedup
        (note fun _ => .inserted (speedupRecord tx feeInfo kind height) before) :=
      fun before => ⟨fun _ _ => note_recorded (Or.inl ⟨_, kind, before, rfl, rfl⟩)⟩
    have hrecorded : ∀ txid, Records StoresSpeedup (note fun _ => .recorded txid) :=
      fun txid => note_records fun _ => id
    have hinsert : Records StoresSpeedup (insertSpeedup (speedupRecord tx feeInfo kind height)) := by
      unfold insertSpeedup putTx
      infer_instance
    apply Prog.related_bind (hinsert.related ctx w)
    intro _ w₁ hrun
    exact monitorWatch_recorded (Or.inr ⟨_, w.store, inserted_of_insertSpeedup hrun, rfl⟩)

instance reportIfCapped_records {capped : Bool} {rate : ℕ} {context : String} :
    Records P (reportIfCapped capped txid rate context) := by
  unfold reportIfCapped
  infer_instance

instance markPredecessorAtCap_records {maxFeerate : ℕ} : Records P (markPredecessorAtCap txid maxFeerate) := by
  apply lookup_records
  · infer_instance
  · intro predecessor
    infer_instance

instance saveBoost_records {plan : BoostPlan} {nextBump : ℚ} {built : SpeedupBuildResult} :
    Records StoresSpeedup (saveBoost plan nextBump built height) := by
  unfold saveBoost
  infer_instance

instance runBoost_records {plan : BoostPlan} {all : List CoordinatedTx} :
    Records StoresSpeedup (runBoost plan all height) := by
  refine Prog.Within.seq fun cfg => ?_
  apply Prog.Within.seq
  rintro ⟨feeRate, feeNews⟩
  refine Prog.Within.seq fun _ => ?_
  apply Prog.Within.seq
  intro built
  cases built <;> infer_instance

instance boostIfStale_records {skip : Bool} : Records StoresSpeedup (boostIfStale skip) := by
  apply Prog.Within.branch Prog.Within.pure
  refine Prog.Within.seq fun cfg => Prog.Within.seq fun height => Prog.Within.seq fun speedups => ?_
  split
  · infer_instance
  · next plan _ =>
    have hnote : Records StoresSpeedup (note (.planned plan.last.txid)) := note_records fun _ => id
    infer_instance

instance saveCpfpBatch_records {batch : List CoordinatedTx} {bumpFee : ℚ} {built : SpeedupBuildResult} :
    Records StoresSpeedup (saveCpfpBatch batch bumpFee built) := by
  have htake : ∀ parent : CoordinatedTx, Records StoresSpeedup (takePendingParent parent) :=
    fun _ => Prog.Within.seq fun _ => note_records fun _ => id
  unfold saveCpfpBatch
  infer_instance

instance runCpfpBatch_records {parents unconfirmed : List CoordinatedTx} :
    Records StoresSpeedup (runCpfpBatch parents unconfirmed) := by
  refine Prog.Within.seq fun cfg => ?_
  apply Prog.Within.seq
  rintro ⟨feeRate, feeNews⟩
  refine Prog.Within.seq fun _ => ?_
  split
  · infer_instance
  · apply Prog.Within.branch Prog.Within.pure
    apply Prog.Within.seq
    intro built
    cases built <;> infer_instance

instance createCpfpBatch_records : Records StoresSpeedup createCpfpBatch := by
  unfold createCpfpBatch
  infer_instance

/-! ### Client requests -/

/-- The entries of a history that a shorter one does not have. -/
def addedSince (older log : List Event) : List Event := log.take (log.length - older.length)

/-- The entries added to a history. -/
theorem addedSince_append (added older : List Event) : addedSince older (added ++ older) = added := by
  simp [addedSince]

/-- An entry after the shorter history is newer. -/
theorem mem_addedSince {base older log : List Event} {e : Event} (hbase : base <:+ older)
    (hlog : e :: older <:+ log) : e ∈ addedSince base log := by
  obtain ⟨mid, rfl⟩ := hbase
  obtain ⟨newer, rfl⟩ := hlog
  rw [← List.cons_append, ← List.append_assoc, addedSince_append]
  simp

/-- A longer history has no fewer newer entries. -/
theorem addedSince_subset {base older log : List Event} (hbase : base <:+ older) (hlog : older <:+ log) :
    addedSince base older ⊆ addedSince base log := by
  obtain ⟨mid, rfl⟩ := hbase
  obtain ⟨newer, rfl⟩ := hlog
  rw [← List.append_assoc, addedSince_append, addedSince_append]
  exact List.subset_append_right _ _

/-- The identifiers the monitor is told of, with the context. -/
def TypesToMonitor.pairs : TypesToMonitor → List (Txid × String)
  | .transactions txids context _ => txids.map fun txid => (txid, context)
  | .other _ => []

/-- The identifiers that the monitor was told of, with their contexts. -/
def watched (log : List Event) : List (Txid × String) :=
  log.flatMap fun e =>
    match e with
    | .monitored data _ => data.pairs
    | _ => []

/-- What a request registers with the monitor on behalf of the client. -/
def Request.registrations : Request → List (Txid × String)
  | .dispatchWithoutSpeedup tx context _ _ _ => [(tx.computeTxid, context)]
  | .dispatchWithSpeedup tx _ context _ _ => [(tx.computeTxid, context)]
  | .monitor data => data.pairs
  | _ => []

/-- The monitor is told of what a request registers, and a record is registered once it was told so in the
same call. -/
def Serves (request : Request) (log : List Event) (e : Event) (older : List Event) : Prop :=
  (∃ data inMempool, e = .monitored data inMempool ∧ data.pairs ⊆ request.registrations) ∨
    ∃ record s, e = .registering record s ∧ (record.txid, record.context) ∈ request.registrations ∧
      (record.txid, record.context) ∈ watched (addedSince log older)

/-- An entry that tells the monitor of an identifier. -/
theorem mem_watched {log : List Event} {p : Txid × String} :
    p ∈ watched log ↔ ∃ data inMempool, .monitored data inMempool ∈ log ∧ p ∈ data.pairs := by
  unfold watched
  rw [List.mem_flatMap]
  constructor
  · rintro ⟨e, he, hp⟩
    cases e with
    | monitored data inMempool => exact ⟨data, inMempool, he, hp⟩
    | _ => cases hp
  · rintro ⟨data, inMempool, he, hp⟩
    exact ⟨_, he, hp⟩

/-- A client transaction is registered with the monitor before it is stored. -/
theorem registerTx_recorded {request : Request} {tx : Transaction} {kind : TxKind} {context : String}
    {target : Option BlockHeight} {trigger stuck : Option ℕ}
    (hrequest : request.registrations = [(tx.computeTxid, context)]) (ctx : Ctx) (w : World) :
    Recorded (Serves request w.log) w (registerTx tx kind context target trigger stuck ctx w).2 := by
  apply Prog.related_bind (getTxById_records.related ctx w)
  intro found w₁ hfound
  obtain ⟨-, rfl⟩ := readStore_ok.mp hfound
  cases found with
  | some tracked => exact Prog.Within.pure.related ctx w₁
  | none =>
    apply Prog.related_bind (getMonitorHeight_records.related ctx w₁)
    intro height w₂ hheight
    obtain ⟨-, rfl⟩ := query_ok.mp hheight
    apply Prog.related_bind (getNetworkFeeRate_records.related ctx w₁.asked)
    rintro ⟨feeRate, feeNews⟩ w₂ hfee
    have hgrown : Recorded (Serves request w₁.log) w₁.asked (getNetworkFeeRate ctx w₁.asked).2 :=
      getNetworkFeeRate_records.related ctx w₁.asked
    rw [hfee] at hgrown
    obtain ⟨added, hadded⟩ := hgrown.history.suffix
    apply Prog.related_bind
    · apply monitorWatch_recorded
      exact Or.inl ⟨_, _, rfl, by simp [TypesToMonitor.pairs, hrequest]⟩
    intro _ w₃ hwatch
    obtain ⟨_, w₄, hquery, hnote⟩ := Prog.bind_ok.mp hwatch
    obtain ⟨-, rfl⟩ := query_ok.mp hquery
    obtain rfl := note_ok.mp hnote
    refine Prog.related_bind (note_recorded (Or.inr ⟨_, _, rfl, ?_, ?_⟩)) fun _ w₄ _ => ?_
    · rw [hrequest]
      exact List.mem_cons_self
    · change (tx.computeTxid, context) ∈ watched (addedSince w₁.log (_ :: w₂.log))
      rw [← hadded, ← List.cons_append]
      change (tx.computeTxid, context) ∈ watched (addedSince w₁.log (_ :: added ++ w₁.log))
      rw [addedSince_append]
      exact mem_watched.mpr ⟨_, _, List.mem_cons_self, by simp [TypesToMonitor.pairs]⟩
    · have hrest : ∀ record : CoordinatedTx, Records (Serves request w₁.log) (do
          insertTx record
          if record.isNeedsSpeedup then addPendingSpeedupParent record.txid else pure ()) :=
        fun record => inferInstance
      exact (hrest _).related ctx w₄

instance eligibleToCancel_records : Records P (eligibleToCancel txids) := by
  induction txids with
  | nil => exact Prog.Within.pure
  | cons txid rest ih =>
    apply Prog.Within.seq
    intro refusal
    cases refusal <;> infer_instance

instance cancel_records {data : TypesToMonitor} : Records P (cancel data) := by
  have hnote : ∀ eligible, Records P (note (.cancelling eligible)) := fun _ => note_records fun _ => id
  have hdrop : ∀ eligible context trigger, Records P (dropCancelled eligible context trigger) := by
    intro eligible context trigger
    unfold dropCancelled
    infer_instance
  unfold cancel
  split
  · apply Prog.Within.seq
    intro eligible
    cases eligible <;> infer_instance
  · infer_instance

instance addFunding_records : Records P (addFunding utxo) := by
  unfold addFunding
  infer_instance

instance ackCoordinatorNews_records {news : CoordinatorNews} : Records P (ackCoordinatorNews news) := by
  unfold ackCoordinatorNews
  infer_instance

/-- A request of the client other than a tick. -/
theorem request_recorded {request : Request} (hrequest : request ≠ .tick) (ctx : Ctx) (w : World) :
    Recorded (Serves request w.log) w (exec request ctx w).2 := by
  cases request with
  | tick => exact absurd rfl hrequest
  | dispatchWithoutSpeedup tx context target trigger stuck => exact registerTx_recorded rfl ctx w
  | dispatchWithSpeedup tx data context target trigger => exact registerTx_recorded rfl ctx w
  | cancel data => exact cancel_records.related ctx w
  | addFunding utxo => exact addFunding_records.related ctx w
  | ackNews news => exact ackCoordinatorNews_records.related ctx w
  | monitor data => exact monitorWatch_recorded (Or.inl ⟨_, _, rfl, fun _ => id⟩)

/-! ### The news log of a run -/

/-- Steps 1 to 6 change the news log by its calls. -/
theorem pipeline_recorded (ctx : Ctx) (w : World) :
    Recorded (fun _ _ => True) w (pipeline ctx w).2 := by
  have hpending : Records (fun _ _ => True) dispatchPending :=
    ⟨fun ctx w => (dispatchPending_recorded ctx w).mono fun _ _ _ => trivial⟩
  have hspeedups : Records (fun _ _ => True) dispatchPendingSpeedups :=
    ⟨fun ctx w => (dispatchPendingSpeedups_recorded ctx w).mono fun _ _ _ => trivial⟩
  have hboost : ∀ skip, Records (fun _ _ => True) (boostIfStale skip) :=
    fun skip => boostIfStale_records.mono fun _ _ h => h.mono fun _ _ _ => trivial
  have hcpfp : Records (fun _ _ => True) createCpfpBatch :=
    createCpfpBatch_records.mono fun _ _ h => h.mono fun _ _ _ => trivial
  have hall : Records (fun _ _ => True) pipeline := by
    unfold pipeline
    infer_instance
  exact hall.related ctx w

/-- Every request changes the news log by its calls. -/
theorem exec_recorded (request : Request) (ctx : Ctx) (w : World) :
    Recorded (fun _ _ => True) w (exec request ctx w).2 := by
  by_cases hrequest : request = .tick
  · have hpipeline : Records (fun _ _ => True) pipeline := ⟨pipeline_recorded⟩
    have htick : Records (fun _ _ => True) tick := by
      unfold tick
      infer_instance
    rw [hrequest]
    exact htick.related ctx w
  · exact (request_recorded hrequest ctx w).mono fun _ _ _ => trivial

/-- The news log of every run of the coordinator is one that additions, acknowledgements and cleanups left, so
the law of the log holds of it. -/
theorem newsRun_runCalls (cfg : BitcoinSettings) (calls : List Call) :
    ∃ history, NewsRun history (runCalls cfg calls World.init) := by
  have hall : ∀ (calls : List Call) (past : List (LogEvent CoordinatorNews)) (w : World), NewsRun past w →
      ∃ history, NewsRun history (runCalls cfg calls w) := by
    intro calls
    induction calls with
    | nil => exact fun past w hrun => ⟨past, hrun⟩
    | cons call rest ih =>
      intro past w hrun
      obtain ⟨later, hlater⟩ := (exec_recorded call.request ⟨cfg, call.answers⟩ w).news past hrun
      exact ih _ _ hlater
  exact hall calls [] World.init (NewsRun.start rfl)

end BitcoinCoordinator
