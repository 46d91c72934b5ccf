import BitcoinCoordinator.Conduct
import BitcoinCoordinator.TerminalStates

/-!
# What is handed to the node

A transaction goes to the node from steps 3 and 4 of a tick only, out of a batch that was read from the
store, and while the store stays as it was read. So every broadcast of a run is of a record that the store
holds, that waits for dispatch, and that passed the checks of the dispatcher. No step hands a transaction over
twice, and no transaction belongs to both steps.
-/

namespace BitcoinCoordinator

open Foundation

variable {α β : Type} {ctx : Ctx} {w w' : World}

/-! ### Questions -/

/-- Nothing was done but to ask and to publish. -/
structure Aside (w w' : World) : Prop where
  store_eq : w'.store = w.store
  log_eq : w'.log = w.log
  lastRetryAt_eq : w'.lastRetryAt = w.lastRetryAt
  clock_le : w.clock ≤ w'.clock

instance aside_isPreorder : IsPreorder World Aside where
  refl _ := ⟨rfl, rfl, rfl, le_rfl⟩
  trans _ _ _ h h' := ⟨h'.store_eq.trans h.store_eq, h'.log_eq.trans h.log_eq,
    h'.lastRetryAt_eq.trans h.lastRetryAt_eq, h.clock_le.trans h'.clock_le⟩

/-- One more question. -/
theorem aside_asked (w : World) : Aside w w.asked := ⟨rfl, rfl, rfl, Nat.le_succ _⟩

instance query_aside {wrap : String → BitcoinCoordinatorError}
    {question : Answers → ℕ → Except String α} : Prog.Within Aside (query wrap question) where
  related ctx w := by
    unfold query
    split <;> exact aside_asked w

instance attempt_aside {question : Answers → ℕ → Except String α} :
    Prog.Within Aside (attempt question) := ⟨fun _ w => aside_asked w⟩

instance ask_aside {question : Answers → ℕ → α} : Prog.Within Aside (ask question) :=
  ⟨fun _ w => aside_asked w⟩

instance readStore_aside {f : Store → α} : Prog.Within Aside (readStore f) := Prog.Within.read

instance settings_aside : Prog.Within Aside settings := Prog.Within.ask

instance writeNews_aside {f : List StoredNewsItem → List StoredNewsItem} :
    Prog.Within Aside (writeNews f) where
  related ctx w := by
    unfold writeNews
    split
    · exact ⟨rfl, rfl, rfl, Nat.le_succ _⟩
    · exact aside_asked w

instance addNews_aside {news : CoordinatorNews} : Prog.Within Aside (addNews news) := by
  unfold addNews
  infer_instance

instance publishFeeNews_aside {news : Option CoordinatorNews} :
    Prog.Within Aside (publishFeeNews news) := by
  unfold publishFeeNews
  split <;> infer_instance

instance getNetworkFeeRate_aside : Prog.Within Aside getNetworkFeeRate := by
  unfold getNetworkFeeRate
  infer_instance

instance parentsReady_aside {ops : List OutPoint} : Prog.Within Aside (parentsReady ops) := by
  induction ops with
  | nil => exact Prog.Within.pure
  | cons op rest ih =>
    unfold parentsReady
    infer_instance

/-- A completed computation with a footprint leaves a related world. -/
theorem related_of_run {R : World → World → Prop} {m : Coord α} {x : Except Stop α} [h : Prog.Within R m]
    (hrun : m ctx w = (x, w')) : R w w' := by
  have hrelated := h.related ctx w
  rw [hrun] at hrelated
  exact hrelated

/-! ### The checks before a broadcast -/

/-- A transaction was seen in the mempool or on chain. -/
def TransactionStatus.isSeen (status : TransactionStatus) (maxConfs : ℕ) : Bool :=
  status.isInMempool || status.isConfirmed || status.isFinalized maxConfs

/-- The tracked transactions that a transaction spends from have not failed, and the monitor has seen each
of them. -/
structure CoordinatedTx.IsCleared (ctx : Ctx) (s : Store) (tx : CoordinatedTx) : Prop where
  failedParent : s.failedParent tx = none
  seen : ∀ op ∈ tx.tx.spends, s.isTxKnown op.txid → ∃ n status,
    ctx.answers.txStatus n op.txid true = .ok status ∧
      status.isSeen ctx.settings.monitor.maxMonitoringConfirmations

/-- Parents found ready were each seen by the monitor. -/
theorem parentsReady_ok {ops : List OutPoint} (hrun : parentsReady ops ctx w = (.ok true, w')) :
    ∀ op ∈ ops, w.store.isTxKnown op.txid → ∃ n status,
      ctx.answers.txStatus n op.txid true = .ok status ∧
        status.isSeen ctx.settings.monitor.maxMonitoringConfirmations := by
  induction ops generalizing w with
  | nil => exact fun op hop => absurd hop List.not_mem_nil
  | cons first rest ih =>
    obtain ⟨known, w₁, hread, hbody⟩ := Prog.bind_ok.mp hrun
    obtain ⟨rfl, rfl⟩ := readStore_ok.mp hread
    intro op hop hknown
    rcases Prog.ite_ok.mp hbody with ⟨_, hprobe⟩ | ⟨hunknown, hrest⟩
    · obtain ⟨cfg, w₂, hcfg, hask⟩ := Prog.bind_ok.mp hprobe
      obtain ⟨rfl, rfl⟩ := settings_ok.mp hcfg
      obtain ⟨status, w₃, hquery, hseen⟩ := Prog.bind_ok.mp hask
      obtain ⟨hanswer, rfl⟩ := query_ok.mp hquery
      rcases Prog.ite_ok.mp hseen with ⟨hseen, hrest⟩ | ⟨_, hpure⟩
      · rcases List.mem_cons.mp hop with rfl | hlater
        · exact ⟨_, status, hanswer, hseen⟩
        · exact ih hrest op hlater hknown
      · obtain ⟨hfalse, -⟩ := Prog.pure_ok.mp hpure
        cases hfalse
    · rcases List.mem_cons.mp hop with rfl | hlater
      · exact absurd hknown hunknown
      · exact ih hrest op hlater hknown

/-! ### Handing over -/

/-- Transactions of a list were handed to the node, in its order and each cleared, over one version of the
store. -/
structure HandsOver (ctx : Ctx) (txs sent : List CoordinatedTx) (w w' : World) : Prop where
  sublist : sent.Sublist txs
  cleared : ∀ tx ∈ sent, tx.IsCleared ctx w.store
  store_eq : w'.store = w.store
  log_eq : w'.log = (sent.map fun tx => Event.broadcast tx.tx).reverse ++ w.log
  lastRetryAt_eq : w'.lastRetryAt = w.lastRetryAt
  clock_le : w.clock ≤ w'.clock

/-- Nothing was handed over. -/
theorem HandsOver.nothing {txs : List CoordinatedTx} (h : Aside w w') : HandsOver ctx txs [] w w' where
  sublist := List.nil_sublist txs
  cleared _ htx := absurd htx List.not_mem_nil
  store_eq := h.store_eq
  log_eq := h.log_eq
  lastRetryAt_eq := h.lastRetryAt_eq
  clock_le := h.clock_le

/-- What is handed over of a list, and then of another. -/
theorem HandsOver.append {txs txs' sent sent' : List CoordinatedTx} {w'' : World}
    (h : HandsOver ctx txs sent w w') (h' : HandsOver ctx txs' sent' w' w'') :
    HandsOver ctx (txs ++ txs') (sent ++ sent') w w'' where
  sublist := h.sublist.append h'.sublist
  cleared tx htx := by
    rcases List.mem_append.mp htx with hfirst | hlater
    · exact h.cleared tx hfirst
    · have hcleared := h'.cleared tx hlater
      rw [h.store_eq] at hcleared
      exact hcleared
  store_eq := h'.store_eq.trans h.store_eq
  log_eq := by
    rw [h'.log_eq, h.log_eq, List.map_append, List.reverse_append, List.append_assoc]
  lastRetryAt_eq := h'.lastRetryAt_eq.trans h.lastRetryAt_eq
  clock_le := h.clock_le.trans h'.clock_le

/-- Handing a transaction over notes it and asks for the answer. -/
theorem sendTransaction_run (ctx : Ctx) (w : World) (raw : Transaction) :
    ∃ outcome, sendTransaction raw ctx w = (.ok outcome, (w.noted (.broadcast raw)).asked) := by
  have hnote : note (fun _ => .broadcast raw) ctx w = (.ok (), w.noted (.broadcast raw)) := rfl
  have hask : attempt (fun answers n => answers.sendTransaction n raw) ctx (w.noted (.broadcast raw)) =
      (.ok (ctx.answers.sendTransaction w.clock raw), (w.noted (.broadcast raw)).asked) := rfl
  unfold sendTransaction
  rw [Prog.bind_of_ok hnote, Prog.bind_of_ok hask]
  cases ctx.answers.sendTransaction w.clock raw <;> exact ⟨_, rfl⟩

/-- One transaction is handed over once it is cleared, or not at all. -/
theorem dispatchOne_handsOver (ctx : Ctx) (w : World) (tx : CoordinatedTx) :
    ∃ sent, HandsOver ctx [tx] sent w (dispatchOne tx ctx w).2 := by
  have hfailed : (readStore fun s => s.failedParent tx) ctx w = (.ok (w.store.failedParent tx), w) := rfl
  unfold dispatchOne
  rw [Prog.bind_of_ok hfailed]
  cases hparent : w.store.failedParent tx with
  | some parent => exact ⟨[], HandsOver.nothing (refl w)⟩
  | none =>
    dsimp only
    rcases hprobe : parentsReady tx.tx.spends ctx w with ⟨stop | ready, w₁⟩
    · rw [Prog.bind_of_error hprobe]
      exact ⟨[], HandsOver.nothing (related_of_run hprobe)⟩
    · rw [Prog.bind_of_ok hprobe]
      have haside : Aside w w₁ := related_of_run hprobe
      cases ready with
      | false => exact ⟨[], HandsOver.nothing haside⟩
      | true =>
        obtain ⟨outcome, hsend⟩ := sendTransaction_run ctx w₁ tx.tx
        rw [if_pos rfl, Prog.bind_of_ok hsend]
        refine ⟨[tx], List.Sublist.refl _, ?_, haside.store_eq, ?_, haside.lastRetryAt_eq,
          haside.clock_le.trans (Nat.le_succ _)⟩
        · intro tx' htx'
          rw [List.mem_singleton.mp htx']
          exact ⟨hparent, parentsReady_ok hprobe⟩
        · change _ :: w₁.log = _
          rw [haside.log_eq]
          rfl

/-- The transactions of a list are handed over in its order. -/
theorem dispatchValid_handsOver (ctx : Ctx) (w : World) (txs : List CoordinatedTx) :
    ∃ sent, HandsOver ctx txs sent w (dispatchValid txs ctx w).2 := by
  induction txs generalizing w with
  | nil => exact ⟨[], HandsOver.nothing (refl w)⟩
  | cons tx rest ih =>
    obtain ⟨sent, hone⟩ := dispatchOne_handsOver ctx w tx
    unfold dispatchValid
    rcases hrun : dispatchOne tx ctx w with ⟨stop | outcome, w₁⟩
    · rw [Prog.bind_of_error hrun]
      rw [hrun] at hone
      have hrest : HandsOver ctx rest [] w₁ w₁ := HandsOver.nothing (refl w₁)
      exact ⟨_, hone.append hrest⟩
    · rw [Prog.bind_of_ok hrun, Prog.state_map]
      rw [hrun] at hone
      obtain ⟨others, hrest⟩ := ih (w := w₁)
      exact ⟨_, hone.append hrest⟩

/-- A batch hands over transactions of it that the dispatcher does not refuse. -/
theorem dispatch_handsOver (ctx : Ctx) (w : World) (txs : List CoordinatedTx) :
    ∃ sent, HandsOver ctx txs sent w (dispatch txs ctx w).2 ∧
      ∀ tx ∈ sent, ctx.settings.dispatcher.refusal? tx = none := by
  have hcfg : settings ctx w = (.ok ctx.settings, w) := rfl
  unfold dispatch
  rw [Prog.bind_of_ok hcfg]
  dsimp only
  rw [Prog.state_map]
  obtain ⟨sent, hsent⟩ := dispatchValid_handsOver ctx w
    (txs.filter fun tx => (ctx.settings.dispatcher.refusal? tx).isNone)
  refine ⟨sent, { hsent with sublist := hsent.sublist.trans List.filter_sublist }, ?_⟩
  intro tx htx
  have hvalid := (List.mem_filter.mp (hsent.sublist.subset htx)).2
  simpa using hvalid

/-! ### The retry window -/

/-- Transactions of a list pass the retry window. Either no retry does and the interval goes on, or the
interval has elapsed and a new one starts. -/
structure Limits (ctx : Ctx) (txs kept : List CoordinatedTx) (w w' : World) : Prop where
  sublist : kept.Sublist txs
  store_eq : w'.store = w.store
  log_eq : w'.log = w.log
  clock_le : w.clock ≤ w'.clock
  pace : (w'.lastRetryAt = w.lastRetryAt ∧ ∀ tx ∈ kept, tx.retryCount = 0) ∨
    ∃ n m, w.clock ≤ n ∧ n ≤ m ∧ m < w'.clock ∧ w'.lastRetryAt = some (ctx.answers.nowSecs m) ∧
      ∀ last, w.lastRetryAt = some last →
        ctx.settings.coordinator.retryIntervalSeconds ≤ ctx.answers.nowSecs n - last

/-- The retry interval is found to have elapsed, or not. -/
theorem isRetryReady_run (ctx : Ctx) (w : World) : ∃ ready w', isRetryReady ctx w = (.ok ready, w') ∧ Aside w w' ∧
    ∃ n, w.clock ≤ n ∧ n ≤ w'.clock ∧ (ready = true → ∀ last, w.lastRetryAt = some last →
      ctx.settings.coordinator.retryIntervalSeconds ≤ ctx.answers.nowSecs n - last) := by
  have hcfg : settings ctx w = (.ok ctx.settings, w) := rfl
  have hlast : (Prog.read World.lastRetryAt : Coord _) ctx w = (.ok w.lastRetryAt, w) := rfl
  unfold isRetryReady
  rw [Prog.bind_of_ok hcfg, Prog.bind_of_ok hlast]
  cases w.lastRetryAt with
  | none => exact ⟨true, w, rfl, refl w, w.clock, le_rfl, le_rfl, fun _ last h => by cases h⟩
  | some last =>
    refine ⟨_, w.asked, rfl, aside_asked w, w.clock, le_rfl, Nat.le_succ _, ?_⟩
    intro hready last' hlast'
    cases hlast'
    exact of_decide_eq_true hready

/-- The retry window always lets transactions pass. -/
theorem applyRetryRateLimit_limits (ctx : Ctx) (w : World) (txs : List CoordinatedTx) :
    ∃ kept w', applyRetryRateLimit txs ctx w = (.ok kept, w') ∧ Limits ctx txs kept w w' := by
  obtain ⟨ready, w₁, hrun, haside, n, hn, hn', hready⟩ := isRetryReady_run ctx w
  unfold applyRetryRateLimit
  rw [Prog.bind_of_ok hrun]
  by_cases hany : ((txs.any fun tx => decide (0 < tx.retryCount)) && ready) = true
  · rw [if_pos hany]
    obtain ⟨-, hpast⟩ := Bool.and_eq_true_iff.mp hany
    refine ⟨txs, _, rfl, List.Sublist.refl txs, haside.store_eq, haside.log_eq,
      haside.clock_le.trans (Nat.le_succ _), Or.inr ⟨n, w₁.clock, hn, hn', Nat.lt_succ_self _, rfl,
        hready hpast⟩⟩
  · rw [if_neg hany]
    refine ⟨_, _, rfl, List.filter_sublist, haside.store_eq, haside.log_eq, haside.clock_le,
      Or.inl ⟨haside.lastRetryAt_eq, ?_⟩⟩
    intro tx htx
    obtain ⟨hmem, hkept⟩ := List.mem_filter.mp htx
    rcases Bool.or_eq_true_iff.mp hkept with hfresh | hpast
    · exact of_decide_eq_true hfresh
    · by_contra hretry
      apply hany
      rw [hpast, Bool.and_true]
      exact List.any_eq_true.mpr ⟨tx, hmem, decide_eq_true (Nat.pos_of_ne_zero hretry)⟩

/-! ### Dispatching -/

/-- What every ordinary function does. -/
def Ordinarily (w w' : World) : Prop := ∀ R : World → World → Prop, Ordinary R → R w w'

instance ordinary_ordinarily : Ordinary Ordinarily where
  refl w _ h := h.refl w
  trans _ _ _ h h' R hR := hR.trans _ _ _ (h R hR) (h' R hR)
  asked w _ h := h.asked w
  published w items _ h := h.published w items
  written w s _ h := h.written w s
  noted w e he _ h := h.noted w e he
  inserted w tx s hid _ h := h.inserted w tx s hid
  registering w tx s hid _ h := h.registering w tx s hid

/-- Of the transactions that are due, those that pass the retry window are handed over, and the outcomes are
handled afterwards. -/
structure Dispatches (ctx : Ctx) (due kept sent : List CoordinatedTx) (w w' : World) : Prop where
  allowed : ∀ tx ∈ sent, ctx.settings.dispatcher.refusal? tx = none
  stages : ∃ w₁ w₂ w₃, Aside w w₁ ∧ Limits ctx due kept w₁ w₂ ∧ HandsOver ctx kept sent w₂ w₃ ∧
    Ordinarily w₃ w'

/-- Nothing is dispatched. -/
theorem Dispatches.nothing {due : List CoordinatedTx} (h : Aside w w') : Dispatches ctx due [] [] w w' where
  allowed _ htx := absurd htx List.not_mem_nil
  stages := by
    refine ⟨w', w', w', h, ?_, HandsOver.nothing (refl w'), refl w'⟩
    exact ⟨List.nil_sublist due, rfl, rfl, le_rfl, Or.inl ⟨rfl, fun _ htx => absurd htx List.not_mem_nil⟩⟩

/-- What comes before a dispatch but asks only. -/
theorem Dispatches.after {due kept sent : List CoordinatedTx} {w'' : World} (haside : Aside w w')
    (h : Dispatches ctx due kept sent w' w'') : Dispatches ctx due kept sent w w'' where
  allowed := h.allowed
  stages := by
    obtain ⟨w₁, w₂, w₃, hasked, hrest⟩ := h.stages
    exact ⟨w₁, w₂, w₃, IsTrans.trans _ _ _ haside hasked, hrest⟩

/-- Transactions that pass the retry window are handed over, and what follows is ordinary. -/
theorem dispatches_of_limits {due kept : List CoordinatedTx} {w₁ : World}
    {after : List (Txid × DispatchOutcome) → Coord α} (hlimits : Limits ctx due kept w w₁)
    (hafter : ∀ results, Prog.Conducts Ordinarily Anyhow (after results)) :
    ∃ sent, Dispatches ctx due kept sent w ((dispatch kept >>= after) ctx w₁).2 := by
  obtain ⟨sent, hsent, hallowed⟩ := dispatch_handsOver ctx w₁ kept
  refine ⟨sent, hallowed, w, w₁, (dispatch kept ctx w₁).2, refl w, hlimits, hsent, ?_⟩
  rcases hrun : dispatch kept ctx w₁ with ⟨stop | results, w₂⟩
  · rw [Prog.bind_of_error hrun]
    exact refl w₂
  · rw [Prog.bind_of_ok hrun]
    exact (hafter results).related ctx w₂

/-- A batch that is due is dispatched. -/
theorem dispatchBatch_dispatches (ctx : Ctx) (w : World) (txs : List CoordinatedTx) (height : BlockHeight) :
    ∃ kept sent, Dispatches ctx txs kept sent w (dispatchBatch txs height ctx w).2 := by
  obtain ⟨⟨feeRate, feeNews⟩, w₁, hfee⟩ : ∃ fee w₁, getNetworkFeeRate ctx w = (.ok fee, w₁) := ⟨_, _, rfl⟩
  have haside : Aside w w₁ := related_of_run hfee
  unfold dispatchBatch
  rw [Prog.bind_of_ok hfee]
  dsimp only
  rcases hnews : publishFeeNews feeNews ctx w₁ with ⟨stop | _, w₂⟩
  · rw [Prog.bind_of_error hnews]
    exact ⟨[], [], Dispatches.nothing (trans haside (related_of_run hnews))⟩
  · rw [Prog.bind_of_ok hnews]
    obtain ⟨kept, w₃, hrun, hlimits⟩ := applyRetryRateLimit_limits ctx w₂ txs
    rw [Prog.bind_of_ok hrun]
    have hhandle : ∀ result, Prog.Conducts Ordinarily Anyhow (handleBatchResult kept feeRate height result) :=
      fun _ => handleBatchResult_conducts
    obtain ⟨sent, hsent⟩ := dispatches_of_limits hlimits fun results =>
      (inferInstance : Prog.Conducts Ordinarily Anyhow
        (Prog.forEach results (handleBatchResult kept feeRate height)))
    exact ⟨kept, sent, hsent.after (trans haside (related_of_run hnews))⟩

/-- A record that waits for dispatch: it is stored so, and it is a listed speedup or a client transaction
that is due at a height the monitor reported. -/
structure CoordinatedTx.AwaitsDispatch (ctx : Ctx) (s : Store) (record : CoordinatedTx) : Prop where
  stored : s.txs.get record.txid = some record
  state : record.state = .toDispatch
  due : record.txid ∈ s.speedupList ∨ record.speedup? = none ∧
    ∃ n height, ctx.answers.monitorHeight n = .ok height ∧ record.targetBlockHeight ≤ height

/-- Step 3 of a tick dispatches client transactions that are due. -/
theorem dispatchPending_dispatches (ctx : Ctx) (w : World) : ∃ due kept sent, due.Sublist w.store.txs.values ∧
    (∀ tx ∈ due, tx.speedup? = none ∧ tx.AwaitsDispatch ctx w.store) ∧
      Dispatches ctx due kept sent w (dispatchPending ctx w).2 := by
  unfold dispatchPending
  rcases hheight : getMonitorHeight ctx w with ⟨stop | height, w₁⟩
  · rw [Prog.bind_of_error hheight]
    refine ⟨[], [], [], List.nil_sublist _, fun _ htx => absurd htx List.not_mem_nil, Dispatches.nothing ?_⟩
    have hquery : Prog.Within Aside getMonitorHeight := query_aside
    exact related_of_run hheight
  · obtain ⟨hanswer, rfl⟩ := query_ok.mp hheight
    rw [Prog.bind_of_ok hheight]
    refine ⟨((w.store.txs.values.filter fun tx => tx.state.isActive).filter
      (CoordinatedTx.isDispatchable height)), ?_⟩
    have hsublist := (List.filter_sublist (p := CoordinatedTx.isDispatchable height)).trans
      (List.filter_sublist (l := w.store.txs.values) (p := fun tx => tx.state.isActive))
    have hactive : getActiveTxs ctx w.asked =
        (.ok (w.store.txs.values.filter fun tx => tx.state.isActive), w.asked) := rfl
    rw [Prog.bind_of_ok hactive]
    have hdue : ∀ tx ∈ (w.store.txs.values.filter fun tx => tx.state.isActive).filter
        (CoordinatedTx.isDispatchable height), tx.speedup? = none ∧ tx.AwaitsDispatch ctx w.store := by
      intro tx htx
      obtain ⟨hvalue, hdispatchable⟩ := List.mem_filter.mp htx
      simp only [CoordinatedTx.isDispatchable, CoordinatedTx.isReadyToDispatch, Bool.and_eq_true,
        decide_eq_true_eq, Option.isNone_iff_eq_none] at hdispatchable
      obtain ⟨⟨hclient, hstate⟩, htarget⟩ := hdispatchable
      exact ⟨hclient, Store.mem_values.mp (List.mem_of_mem_filter hvalue), hstate,
        Or.inr ⟨hclient, _, height, hanswer, htarget⟩⟩
    generalize hlist : (w.store.txs.values.filter fun tx => tx.state.isActive).filter
      (CoordinatedTx.isDispatchable height) = due at hsublist hdue ⊢
    cases due with
    | nil => exact ⟨[], [], hsublist, hdue, Dispatches.nothing (aside_asked w)⟩
    | cons tx rest =>
      obtain ⟨kept, sent, hbatch⟩ := dispatchBatch_dispatches ctx w.asked (tx :: rest) height
      exact ⟨kept, sent, hsublist, hdue, hbatch.after (aside_asked w)⟩

/-- Step 4 of a tick dispatches listed transactions that are due. -/
theorem dispatchPendingSpeedups_dispatches (ctx : Ctx) (w : World) : ∃ due kept sent,
    due.Sublist w.store.speedupsOrdered ∧ (∀ tx ∈ due, tx.AwaitsDispatch ctx w.store) ∧
      Dispatches ctx due kept sent w (dispatchPendingSpeedups ctx w).2 := by
  unfold dispatchPendingSpeedups
  rcases hheight : getMonitorHeight ctx w with ⟨stop | height, w₁⟩
  · rw [Prog.bind_of_error hheight]
    refine ⟨[], [], [], List.nil_sublist _, fun _ htx => absurd htx List.not_mem_nil, Dispatches.nothing ?_⟩
    have hquery : Prog.Within Aside getMonitorHeight := query_aside
    exact related_of_run hheight
  · obtain ⟨-, rfl⟩ := query_ok.mp hheight
    have hordered : getSpeedupsOrdered ctx w.asked = (.ok w.store.speedupsOrdered, w.asked) := rfl
    rw [Prog.bind_of_ok hheight, Prog.bind_of_ok hordered]
    refine ⟨w.store.speedupsOrdered.filter fun tx => decide (tx.state = .toDispatch), ?_⟩
    have hsublist := List.filter_sublist (l := w.store.speedupsOrdered)
      (p := fun tx => decide (tx.state = .toDispatch))
    have hdue : ∀ tx ∈ w.store.speedupsOrdered.filter fun tx => decide (tx.state = .toDispatch),
        tx.AwaitsDispatch ctx w.store := by
      intro tx htx
      obtain ⟨hmem, hstate⟩ := List.mem_filter.mp htx
      obtain ⟨hlisted, hget⟩ := mem_speedupsOrdered hmem
      exact ⟨hget, of_decide_eq_true hstate, Or.inl hlisted⟩
    generalize hlist : (w.store.speedupsOrdered.filter fun tx => decide (tx.state = .toDispatch)) = due
      at hsublist hdue ⊢
    cases due with
    | nil => exact ⟨[], [], hsublist, hdue, Dispatches.nothing (aside_asked w)⟩
    | cons first rest =>
      obtain ⟨kept, w₂, hrun, hlimits⟩ := applyRetryRateLimit_limits ctx w.asked (first :: rest)
      dsimp only
      rw [Prog.bind_of_ok hrun]
      cases kept with
      | nil =>
        refine ⟨[], [], hsublist, hdue, fun _ htx => absurd htx List.not_mem_nil, w.asked, w₂, w₂, aside_asked w,
          hlimits, HandsOver.nothing (refl w₂), refl w₂⟩
      | cons tx others =>
        have hhandle : ∀ result, Prog.Conducts Ordinarily Anyhow
            (handleSpeedupResult (tx :: others) height result) := fun _ => handleSpeedupResult_conducts
        obtain ⟨sent, hsent⟩ := dispatches_of_limits hlimits fun results =>
          (inferInstance : Prog.Conducts Ordinarily Anyhow (do
            Prog.forEach results (handleSpeedupResult (tx :: others) height)
            readStore fun s => ((tx :: others).filter CoordinatedTx.isBoost).any fun tx => s.isTxFailed tx.txid))
        exact ⟨tx :: others, sent, hsublist, hdue, hsent.after (aside_asked w)⟩

/-! ### Decisions -/

/-- A record that may be handed to the node. -/
structure CoordinatedTx.IsSendable (ctx : Ctx) (s : Store) (record : CoordinatedTx) : Prop
    extends record.AwaitsDispatch ctx s, record.IsCleared ctx s where
  allowed : ctx.settings.dispatcher.refusal? record = none

/-- What is asked of a moment that needs a reason, given the history before it. -/
def IsDecided (ctx : Ctx) (s₀ : Store) (e : Event) (older : List Event) : Prop :=
  match e with
  | .broadcast raw => ∃ record : CoordinatedTx, record.tx = raw ∧ record.IsSendable ctx (lastVersion s₀ older)
  | .evicting record => ∀ tx, (lastVersion s₀ older).txs.get record.txid = some tx → tx = record
  | .inserted record _ => record.txid = record.tx.computeTxid
  | .registering record _ => record.txid = record.tx.computeTxid
  | _ => True

/-- When the history agrees with the store, it goes on doing so, and every new moment that needs a reason has
one. -/
def Decides (ctx : Ctx) (s₀ : Store) (w w' : World) : Prop :=
  w.store = lastVersion s₀ w.log →
    w'.store = lastVersion s₀ w'.log ∧ GrowsBy (IsDecided ctx s₀) w.log w'.log

/-- The last version after a moment that is not a write. -/
theorem lastVersion_noted {s₀ : Store} {e : Event} {log : List Event} (h : ∀ a b, e ≠ .wrote a b) :
    lastVersion s₀ (e :: log) = lastVersion s₀ log := by
  cases e <;> first | rfl | exact absurd rfl (h _ _)

/-- A moment that is no write and has a reason, if it needs one. -/
theorem decides_noted {s₀ : Store} {e : Event} (hwrote : ∀ a b, e ≠ .wrote a b)
    (h : w.store = lastVersion s₀ w.log → IsDecided ctx s₀ e w.log) : Decides ctx s₀ w (w.noted e) := by
  intro hstore
  refine ⟨?_, GrowsBy.refl.cons (h hstore)⟩
  change w.store = lastVersion s₀ (e :: w.log)
  rw [lastVersion_noted hwrote]
  exact hstore

instance indifferent_decides {s₀ : Store} : Indifferent (Decides ctx s₀) where
  refl _ hstore := ⟨hstore, .refl⟩
  trans _ _ _ h h' hstore := by
    obtain ⟨hstore₁, hgrown⟩ := h hstore
    obtain ⟨hstore₂, hgrown'⟩ := h' hstore₁
    exact ⟨hstore₂, hgrown.trans hgrown'⟩
  asked _ hstore := ⟨hstore, .refl⟩
  published _ _ hstore := ⟨hstore, .refl⟩
  written _ _ _ := ⟨rfl, GrowsBy.refl.cons trivial⟩
  noted _ e he := by
    apply decides_noted
    · rintro a b rfl
      exact he trivial
    · intro _
      cases e <;> first | exact trivial | exact absurd trivial he
  inserted _ _ _ h := decides_noted (by simp) fun _ => h
  registering _ _ _ h := decides_noted (by simp) fun _ => h
  edited _ _ hstore := ⟨hstore, .refl⟩

/-- Broadcasts leave the last version as it is. -/
theorem lastVersion_broadcasts {s₀ : Store} (sent : List CoordinatedTx) (log : List Event) :
    lastVersion s₀ ((sent.map fun tx => Event.broadcast tx.tx).reverse ++ log) = lastVersion s₀ log := by
  induction sent generalizing log with
  | nil => rfl
  | cons tx rest ih =>
    rw [List.map_cons, List.reverse_cons, List.append_assoc, ih]
    rfl

/-- Handing over records that wait for dispatch is decided for a reason. -/
theorem HandsOver.decides {s₀ : Store} {txs sent : List CoordinatedTx} (h : HandsOver ctx txs sent w w')
    (hwaiting : ∀ tx ∈ txs, tx.AwaitsDispatch ctx w.store)
    (hallowed : ∀ tx ∈ sent, ctx.settings.dispatcher.refusal? tx = none) : Decides ctx s₀ w w' := by
  intro hstore
  have hsendable : ∀ tx ∈ sent, tx.IsSendable ctx (lastVersion s₀ w.log) := by
    intro tx htx
    rw [← hstore]
    exact { hwaiting tx (h.sublist.subset htx), h.cleared tx htx with allowed := hallowed tx htx }
  rw [h.store_eq, h.log_eq, lastVersion_broadcasts]
  refine ⟨hstore, ?_⟩
  clear h hallowed
  induction sent using List.reverseRecOn with
  | nil => exact .refl
  | append_singleton sent tx ih =>
    have hrest := ih fun tx' htx' => hsendable tx' (List.mem_append_left _ htx')
    rw [List.map_append, List.reverse_append]
    apply hrest.cons
    refine ⟨tx, rfl, ?_⟩
    rw [lastVersion_broadcasts]
    exact hsendable tx (List.mem_append_right _ (List.mem_singleton.mpr rfl))

/-- What leaves the store and the history alone decides nothing. -/
theorem decides_of_same {s₀ : Store} (hstore : w'.store = w.store) (hlog : w'.log = w.log) :
    Decides ctx s₀ w w' := by
  intro hlast
  rw [hstore, hlog]
  exact ⟨hlast, .refl⟩

/-- Asking and publishing decide nothing. -/
theorem Aside.decides {s₀ : Store} (h : Aside w w') : Decides ctx s₀ w w' :=
  decides_of_same h.store_eq h.log_eq

/-- Dispatching records that wait for it is decided for a reason. -/
theorem Dispatches.decides {s₀ : Store} {due kept sent : List CoordinatedTx}
    (h : Dispatches ctx due kept sent w w') (hwaiting : ∀ tx ∈ due, tx.AwaitsDispatch ctx w.store) :
    Decides ctx s₀ w w' := by
  obtain ⟨w₁, w₂, w₃, haside, hlimits, hsent, hrest⟩ := h.stages
  have hkept : ∀ tx ∈ kept, tx.AwaitsDispatch ctx w₂.store := by
    intro tx htx
    rw [hlimits.store_eq, haside.store_eq]
    exact hwaiting tx (hlimits.sublist.subset htx)
  apply trans (Aside.decides haside)
  apply trans (decides_of_same hlimits.store_eq hlimits.log_eq)
  exact trans (hsent.decides hkept h.allowed) (hrest _ inferInstance)

/-- Step 3 of a tick. -/
theorem dispatchPending_decides {s₀ : Store} : Decides ctx s₀ w (dispatchPending ctx w).2 := by
  obtain ⟨due, kept, sent, -, hwaiting, hdispatch⟩ := dispatchPending_dispatches ctx w
  exact hdispatch.decides fun tx htx => (hwaiting tx htx).2

/-- Step 4 of a tick. -/
theorem dispatchPendingSpeedups_decides {s₀ : Store} :
    Decides ctx s₀ w (dispatchPendingSpeedups ctx w).2 := by
  obtain ⟨due, kept, sent, -, hwaiting, hdispatch⟩ := dispatchPendingSpeedups_dispatches ctx w
  exact hdispatch.decides hwaiting

/-- Dropping a record that settled long ago drops what is stored. -/
theorem evictStaleTx_decides {s₀ : Store} {height : BlockHeight} {pending covered : List Txid} {tx : CoordinatedTx}
    (hstored : ∀ cur, w.store.txs.get tx.txid = some cur → cur = tx) :
    Decides ctx s₀ w (evictStaleTx height pending covered tx ctx w).2 := by
  have hcfg : settings ctx w = (.ok ctx.settings, w) := rfl
  have hrest : Prog.Conducts (Decides ctx s₀) Anyhow (do
      removeTx tx.txid
      let _ ← addNews (.transactionEvicted tx.txid tx.context)
      pure () : Coord Unit) := inferInstance
  unfold evictStaleTx
  rw [Prog.bind_of_ok hcfg]
  cases tx.settledBlockHeight with
  | none => exact refl w
  | some settledHeight =>
    dsimp only
    split
    · split
      · exact refl w
      · apply Prog.related_bind
        · change Decides ctx s₀ w (w.noted (.evicting tx))
          apply decides_noted (by simp)
          intro hlast
          change ∀ cur, (lastVersion s₀ w.log).txs.get tx.txid = some cur → cur = tx
          rw [← hlast]
          exact hstored
        · intro _ w₁ _
          exact hrest.related ctx w₁
    · exact refl w

/-- The eviction. -/
theorem evictStaleTxs_decides {s₀ : Store} {height : BlockHeight} :
    Decides ctx s₀ w (evictStaleTxs height ctx w).2 := by
  have hloop : ∀ pending covered (txs : List CoordinatedTx) (w₁ : World),
      (∀ tx ∈ txs, w.store.txs.get tx.txid = some tx) → w.store.Shrunk w₁.store →
        Decides ctx s₀ w₁ (Prog.forEach txs (evictStaleTx height pending covered) ctx w₁).2 := by
    intro pending covered txs
    induction txs with
    | nil => exact fun w₁ _ _ => refl w₁
    | cons tx rest ih =>
      intro w₁ htxs hshrunk
      apply Prog.related_bind
      · apply evictStaleTx_decides
        intro cur hcur
        have hold := hshrunk.records _ _ hcur
        rw [htxs tx List.mem_cons_self] at hold
        exact (Option.some.inj hold).symm
      · intro _ w₂ hround
        exact ih w₂ (fun later hlater => htxs later (List.mem_cons_of_mem _ hlater))
          (hshrunk.trans (evictStaleTx_shrunk hround))
  apply hloop _ _ _ w
  · intro tx htx
    exact Store.mem_values.mp (List.mem_of_mem_filter htx)
  · exact ⟨fun _ _ h => h, rfl, fun _ h => h⟩

/-- Step 1 of a tick. -/
theorem reviewActive_decides {s₀ : Store} : Decides ctx s₀ w (reviewActive ctx w).2 := by
  have hheight : Prog.Conducts (Decides ctx s₀) Anyhow getMonitorHeight := getMonitorHeight_conducts
  apply Prog.related_bind (hheight.related ctx w)
  intro height w₁ _
  apply Prog.related_bind evictStaleTxs_decides
  intro _ w₂ _
  have hreview : Prog.Conducts (Decides ctx s₀) Anyhow (do
      let active ← getActiveTxs
      Prog.forEach (active.filter CoordinatedTx.isReviewable) (reviewTransaction height)) := by
    unfold getActiveTxs
    infer_instance
  exact hreview.related ctx w₂

/-- The six steps of a tick. -/
theorem pipeline_decides {s₀ : Store} : Decides ctx s₀ w (pipeline ctx w).2 := by
  apply Prog.related_bind reviewActive_decides
  intro _ w₁ _
  apply Prog.related_bind (reviewSpeedups_conducts (E := Anyhow).related ctx w₁)
  intro _ w₂ _
  apply Prog.related_bind dispatchPending_decides
  intro _ w₃ _
  apply Prog.related_bind dispatchPendingSpeedups_decides
  intro failed w₄ _
  apply Prog.related_bind (boostIfStale_conducts (E := Anyhow).related ctx w₄)
  intro _ w₅ _
  exact (createCpfpBatch_conducts (E := Anyhow)).related ctx w₅

/-- A tick. -/
theorem tick_decides {s₀ : Store} : Decides ctx s₀ w (tick ctx w).2 := by
  apply Prog.related_bind (Aside.decides (Prog.Within.related ctx w))
  intro _ w₁ _
  apply Prog.related_bind (Aside.decides (Prog.Within.related ctx w₁))
  intro ready w₂ _
  split
  · have hheight : Prog.Conducts (Decides ctx s₀) Anyhow getMonitorHeight := getMonitorHeight_conducts
    apply Prog.related_bind (hheight.related ctx w₂)
    intro height w₃ _
    have hcleanup : Prog.Conducts (Decides ctx s₀) Anyhow (cleanupNews height) := inferInstance
    apply Prog.related_bind (hcleanup.related ctx w₃)
    intro _ w₄ _
    exact pipeline_decides
  · exact refl w₂

/-- Every request, whatever it is answered and wherever it stops. -/
theorem exec_decides {s₀ : Store} (request : Request) : Decides ctx s₀ w (exec request ctx w).2 := by
  by_cases hrequest : request = .tick
  · rw [hrequest]
    exact tick_decides
  · have hconducts : Prog.Conducts (Decides ctx s₀) Anyhow (exec request) := request_conducts hrequest
    exact hconducts.related ctx w

/-- The last of some calls. -/
theorem runCalls_concat (cfg : BitcoinSettings) (calls : List Call) (call : Call) (w : World) :
    runCalls cfg (calls ++ [call]) w = (exec call.request ⟨cfg, call.answers⟩ (runCalls cfg calls w)).2 := by
  induction calls generalizing w with
  | nil => rfl
  | cons first rest ih => exact ih _

/-- After any calls, one more decides everything for a reason. -/
theorem runCalls_concat_decided (cfg : BitcoinSettings) (s : Store) (news : List StoredNewsItem)
    (lastRetryAt : Option ℕ) (calls : List Call) (call : Call) :
    GrowsBy (IsDecided ⟨cfg, call.answers⟩ s)
      (runCalls cfg calls (World.start s news lastRetryAt)).log
      (runCalls cfg (calls ++ [call]) (World.start s news lastRetryAt)).log := by
  rw [runCalls_concat]
  exact (exec_decides call.request (linked_runCalls cfg s news lastRetryAt calls).1).2

/-! ### Identifiers -/

/-- A record carries the identifier of its transaction. -/
def CoordinatedTx.IsNamed (tx : CoordinatedTx) : Prop := tx.txid = tx.tx.computeTxid

/-- What is stored for the first time carries the identifier of its transaction. -/
def Event.Names : Event → Prop
  | .inserted tx _ | .registering tx _ => tx.IsNamed
  | _ => True

/-- Every call of a run stores what it stores under the identifier of the transaction. -/
theorem throughout_names (cfg : BitcoinSettings) (s : Store) (news : List StoredNewsItem)
    (lastRetryAt : Option ℕ) (calls : List Call) :
    Throughout (fun e _ => e.Names) (runCalls cfg calls (World.start s news lastRetryAt)).log := by
  induction calls using List.reverseRecOn with
  | nil => exact throughout_nil
  | append_singleton calls call ih =>
    apply GrowsBy.throughout _ ih
    apply (runCalls_concat_decided cfg s news lastRetryAt calls call).mono
    intro e older _ _ hdecided
    cases e <;> first | exact trivial | exact hdecided

/-- While what is stored for the first time is named, every move keeps every record of every version so. -/
theorem named_move {tidy : Prop} {phase : Phase}
    (h : Throughout (fun e _ => e.Names) w.log → EveryRecord CoordinatedTx.IsNamed w)
    (hmove : Move ctx tidy phase w w') (hnames : Throughout (fun e _ => e.Names) w'.log) :
    EveryRecord CoordinatedTx.IsNamed w' := by
  have hnamed : ∀ e ∈ w'.log, e.Names := by
    intro e he
    obtain ⟨newer, older, heq⟩ := List.append_of_mem he
    exact hnames e older (by rw [heq]; exact List.suffix_append _ _)
  have hbefore := h fun e older hsuffix => hnames e older (hsuffix.trans hmove.log_suffix)
  apply hbefore.move hmove
  intro tx hput
  cases hput with
  | changed old tx' hget hchange hinfo =>
    have hold : old.IsNamed := hbefore.current hget
    cases hchange <;> exact hold
  | vanished old height hget hstep hfrom =>
    have hold : old.IsNamed := hbefore.current hget
    exact hold
  | rewrote copy updated hrewrite hread hdrift hnote =>
    have hcopy : copy.IsNamed := hbefore.copy hread
    cases hrewrite <;> exact hcopy
  | inserted tx htx hnote => exact hnamed _ hnote
  | registered tx hfresh hkind hnew hnote =>
    exact hnamed _ (hmove.log_suffix.subset (List.mem_of_mem_head? hnote))

/-- Every record of every version of a run carries the identifier of its transaction. -/
theorem everyRecord_isNamed (cfg : BitcoinSettings) (calls : List Call) :
    EveryRecord CoordinatedTx.IsNamed (runCalls cfg calls World.init) := by
  have hmove : ∀ call ∈ calls, ∀ phase w w',
      (Throughout (fun e _ => e.Names) w.log → EveryRecord CoordinatedTx.IsNamed w) →
      Move ⟨cfg, call.answers⟩ False phase w w' →
      Throughout (fun e _ => e.Names) w'.log → EveryRecord CoordinatedTx.IsNamed w' :=
    fun _ _ _ _ _ h hmove => named_move h hmove
  apply runCalls_induction hmove (fun h => absurd h id) _ (throughout_names cfg Store.empty [] none calls)
  rintro _ s (rfl | ⟨after, hwrote⟩) txid tx hget
  · cases hget
  · cases hwrote

/-! ### What a run hands to the node -/

/-- The version a linked history had reached at an earlier moment is one of its versions. -/
theorem lastVersion_of_suffix {s₀ : Store} {older log : List Event}
    (hlinked : ∀ p ∈ writes log, p.1 = lastVersion s₀ p.2.2) (h : older <:+ log) :
    lastVersion s₀ older = lastVersion s₀ log ∨ ∃ after, .wrote (lastVersion s₀ older) after ∈ log := by
  induction log with
  | nil =>
    rw [List.suffix_nil.mp h]
    exact Or.inl rfl
  | cons e rest ih =>
    rcases List.suffix_cons_iff.mp h with rfl | hsuffix
    · exact Or.inl rfl
    · have hrest : ∀ p ∈ writes rest, p.1 = lastVersion s₀ p.2.2 := by
        intro p hp
        apply hlinked p
        cases e <;> first | exact hp | exact List.mem_cons_of_mem _ hp
      rcases ih hrest hsuffix with hsame | ⟨after, hwrote⟩
      · rw [hsame]
        cases e with
        | wrote before after =>
          have hbefore : before = lastVersion s₀ rest := hlinked (before, after, rest) List.mem_cons_self
          exact Or.inr ⟨after, by rw [← hbefore]; exact List.mem_cons_self⟩
        | _ => exact Or.inl rfl
      · exact Or.inr ⟨after, List.mem_cons_of_mem _ hwrote⟩

/-- A transaction is handed to the node. -/
def Event.IsBroadcast : Event → Prop
  | .broadcast _ => True
  | _ => False

/-- The transaction a moment hands to the node, if it does. -/
def Event.sent? : Event → Option Transaction
  | .broadcast raw => some raw
  | _ => none

/-- No moment of a kind was added to the history. -/
def Lacks (kind : Event → Prop) (w w' : World) : Prop := Grows (fun e => ¬ kind e) w.log w'.log

/-- One more moment of another kind. -/
theorem lacks_noted {kind : Event → Prop} {e : Event} (h : ¬ kind e) : Lacks kind w (w.noted e) :=
  (Grows.refl w.log).cons h

instance indifferent_lacks_broadcast : Indifferent (Lacks Event.IsBroadcast) where
  refl w := Grows.refl w.log
  trans _ _ _ h h' := h.trans h'
  asked w := Grows.refl w.log
  published w _ := Grows.refl w.log
  written w _ := (Grows.refl w.log).cons id
  noted w e he := lacks_noted fun hkind => he (by cases e <;> trivial)
  inserted _ _ _ _ := lacks_noted id
  registering _ _ _ _ := lacks_noted id
  edited w _ := Grows.refl w.log

/-- What a longer history adds is of another kind. -/
theorem Lacks.not_kind {kind : Event → Prop} {newer between : List Event} {e : Event} (h : Lacks kind w w')
    (hlog : w'.log = newer ++ e :: between) (hnew : w.log <:+ between) : ¬ kind e := by
  obtain ⟨added, heq, hall⟩ := h
  obtain ⟨rest, rfl⟩ := hnew
  rw [heq, ← List.cons_append, ← List.append_assoc] at hlog
  obtain rfl := List.append_cancel_right hlog
  exact hall e (List.mem_append_right _ List.mem_cons_self)

/-- Only a tick hands anything to the node. -/
theorem request_lacks {request : Request} (hrequest : request ≠ .tick) :
    Lacks Event.IsBroadcast w (exec request ctx w).2 := by
  have hconducts : Prog.Conducts (Lacks Event.IsBroadcast) Anyhow (exec request) := request_conducts hrequest
  exact hconducts.related ctx w

/-- The first tick of an example run. -/
def firstTickCall : Call := (sampleView 100 [] [sampleParent]).call (plainBuilder fun _ => 200) 5 0 .tick

end BitcoinCoordinator
