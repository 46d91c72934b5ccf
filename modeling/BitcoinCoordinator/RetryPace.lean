import BitcoinCoordinator.TickBroadcasts
import BitcoinCoordinator.Foundation.Spacing

/-!
# How fast broadcasts are retried

A batch that holds a retry opens a retry window, and until the interval has elapsed no batch holds another one. The
clock is read when the window opens, just before the batch is handed over. So while the process runs, these readings
come an interval apart for any two retries of one transaction, however often ticks are made and whatever the node
answers.
-/

namespace BitcoinCoordinator

open Foundation

variable {α β : Type} {ctx : Ctx} {tidy : Prop} {phase : Phase} {w w' : World} {txid : Txid} {now : ℕ → ℕ}

/-! ### Counting retries -/

/-- A moment hands over a transaction whose record counts failed attempts. -/
def Event.isRetry (txid : Txid) (s : Store) : Event → Bool
  | .broadcast raw =>
    decide (raw.computeTxid = txid) && (s.txs.get txid).any fun record => decide (0 < record.retryCount)
  | _ => false

/-- How often a history retried a transaction. -/
def retries (txid : Txid) : List Event → ℕ
  | [] => 0
  | e :: older => retries txid older + if e.isRetry txid (lastVersion Store.empty older) then 1 else 0

/-- A moment that hands nothing over retries nothing. -/
theorem retries_cons {e : Event} {log : List Event} (h : ¬ e.IsBroadcast) :
    retries txid (e :: log) = retries txid log := by
  have hno : e.isRetry txid (lastVersion Store.empty log) = false := by
    cases e <;> first | rfl | exact absurd trivial h
  simp [retries, hno]

/-- A history without broadcasts retries nothing. -/
theorem Lacks.retries_eq (h : Lacks Event.IsBroadcast w w') : retries txid w'.log = retries txid w.log := by
  obtain ⟨added, hlog, hall⟩ := h
  rw [hlog]
  clear hlog
  induction added with
  | nil => rfl
  | cons e added ih =>
    rw [List.cons_append, retries_cons (hall e List.mem_cons_self)]
    exact ih fun e' he' => hall e' (List.mem_cons_of_mem _ he')

/-- Of records that are handed over as stored, those that count failed attempts are retried. -/
theorem retries_broadcasts {log : List Event} {records : List CoordinatedTx}
    (hstored : ∀ tx ∈ records, (lastVersion Store.empty log).txs.get tx.tx.computeTxid = some tx) :
    retries txid ((records.map fun tx => Event.broadcast tx.tx).reverse ++ log) = retries txid log +
      records.countP fun tx => decide (tx.tx.computeTxid = txid) && decide (0 < tx.retryCount) := by
  induction records using List.reverseRecOn with
  | nil => rfl
  | append_singleton records tx ih =>
    have hrest := ih fun tx' htx' => hstored tx' (List.mem_append_left _ htx')
    have hlast := hstored tx (List.mem_append_right _ (List.mem_singleton.mpr rfl))
    have hretry : Event.isRetry txid (lastVersion Store.empty log) (.broadcast tx.tx) =
        (decide (tx.tx.computeTxid = txid) && decide (0 < tx.retryCount)) := by
      unfold Event.isRetry
      by_cases hid : tx.tx.computeTxid = txid
      · subst hid
        rw [hlast]
        rfl
      · simp [hid]
    rw [List.map_append, List.reverse_append, List.countP_append, List.countP_singleton]
    change retries txid ((records.map fun tx => Event.broadcast tx.tx).reverse ++ log) +
      (if Event.isRetry txid (lastVersion Store.empty ((records.map fun tx => Event.broadcast tx.tx).reverse ++ log))
        (.broadcast tx.tx) then 1 else 0) = _
    rw [hrest, lastVersion_broadcasts, hretry, Nat.add_assoc]

/-- Of records of distinct transactions, at most one is retried. -/
theorem countP_le_one {records : List CoordinatedTx}
    (hnodup : (records.map fun tx => tx.tx.computeTxid).Nodup) :
    (records.countP fun tx => decide (tx.tx.computeTxid = txid) && decide (0 < tx.retryCount)) ≤ 1 := by
  calc (records.countP fun tx => decide (tx.tx.computeTxid = txid) && decide (0 < tx.retryCount))
      ≤ records.countP fun tx => tx.tx.computeTxid == txid :=
        List.countP_mono_left fun tx _ htx => by simpa using (Bool.and_eq_true_iff.mp htx).1
    _ = (records.map fun tx => tx.tx.computeTxid).count txid := by
        rw [List.count, List.countP_map]
        rfl
    _ ≤ 1 := List.nodup_iff_count_le_one.mp hnodup txid

/-! ### Moments of a tick -/

/-- What is known of every moment before the builds. -/
structure Midtick (w : World) : Prop where
  owned : Owned w
  linked : Linked Store.empty w
  tidy : IsTidy w
  names : Throughout (fun e _ => e.Names) w.log

/-- What is decided for a reason is named. -/
theorem Decides.names {s₀ : Store} (h : Decides ctx s₀ w w') (hstore : w.store = lastVersion s₀ w.log)
    (hnames : Throughout (fun e _ => e.Names) w.log) : Throughout (fun e _ => e.Names) w'.log := by
  apply GrowsBy.throughout _ hnames
  apply (h hstore).2.mono
  intro e older _ _ hdecided
  cases e <;> first | exact trivial | exact hdecided

/-- The steps of a tick before the builds keep it. -/
theorem Midtick.stepwise {m : Coord α} (h : Midtick w) (hsteps : Stepwise False .settle m ctx w)
    (hdecides : Decides ctx Store.empty w (m ctx w).2) : Midtick (m ctx w).2 := by
  have hkept : Owned (m ctx w).2 ∧ Linked Store.empty (m ctx w).2 ∧ IsTidy (m ctx w).2 := by
    apply hsteps.traced.keeps (I := fun w' => Owned w' ∧ Linked Store.empty w' ∧ IsTidy w')
    · rintro w₁ w₂ ⟨howned, hlinked, htidy⟩ hmove
      exact ⟨howned.move hmove (by simp), hlinked.move hmove, htidy.move hmove⟩
    · exact ⟨h.owned, h.linked, h.tidy⟩
  obtain ⟨howned, hlinked, htidy⟩ := hkept
  exact ⟨howned, hlinked, htidy, hdecides.names h.linked.1 h.names⟩

/-- Records that are stored are stored under the identifiers of their transactions. -/
theorem Midtick.get_computeTxid {tx : CoordinatedTx} (h : Midtick w)
    (hget : w.store.txs.get tx.txid = some tx) : tx.txid = tx.tx.computeTxid :=
  (h.owned.named h.names).current hget

/-! ### The pace -/

/-- The clock, the retry timer and the retries as they were, but for the time that passes. -/
structure RetriesNothing (w w' : World) : Prop where
  lastRetryAt_eq : w'.lastRetryAt = w.lastRetryAt
  clock_le : w.clock ≤ w'.clock
  lacks : Lacks Event.IsBroadcast w w'

instance indifferent_retriesNothing : Indifferent RetriesNothing where
  refl w := ⟨rfl, le_rfl, refl w⟩
  trans _ _ _ h h' := ⟨h'.lastRetryAt_eq.trans h.lastRetryAt_eq, h.clock_le.trans h'.clock_le,
    h.lacks.trans h'.lacks⟩
  asked w := ⟨rfl, Nat.le_succ _, indifferent_lacks_broadcast.asked w⟩
  published w items := ⟨rfl, Nat.le_succ _, indifferent_lacks_broadcast.published w items⟩
  written w s := ⟨rfl, Nat.le_succ _, indifferent_lacks_broadcast.written w s⟩
  noted w e he := ⟨rfl, le_rfl, indifferent_lacks_broadcast.noted w e he⟩
  inserted w tx s h := ⟨rfl, le_rfl, indifferent_lacks_broadcast.inserted w tx s h⟩
  registering w tx s h := ⟨rfl, le_rfl, indifferent_lacks_broadcast.registering w tx s h⟩
  edited w items := ⟨rfl, Nat.le_succ _, indifferent_lacks_broadcast.edited w items⟩

/-- The retries of a transaction were stamped at the given times, an interval apart, and the timer was set in the
past. -/
structure Paced (now : ℕ → ℕ) (interval : ℕ) (txid : Txid) (times : List ℕ) (w : World) : Prop where
  counted : times.length = retries txid w.log
  spaced : Spaced interval times w.lastRetryAt
  past : ∀ last, w.lastRetryAt = some last → last ≤ now w.clock

/-- The retries since a question were stamped after it. -/
structure PacedSince (now : ℕ → ℕ) (interval : ℕ) (txid : Txid) (times : List ℕ) (asked : ℕ) (w : World) : Prop where
  clock_le : asked ≤ w.clock
  paced : ∃ more, Paced now interval txid (times ++ more) w ∧ ∀ t ∈ more, now asked ≤ t

variable {interval asked : ℕ} {times : List ℕ}

/-- What retries nothing keeps the pace. -/
theorem Paced.steady (h : Paced now interval txid times w) (hmono : Monotone now) (hsteady : RetriesNothing w w') :
    Paced now interval txid times w' where
  counted := h.counted.trans hsteady.lacks.retries_eq.symm
  spaced := by
    rw [hsteady.lastRetryAt_eq]
    exact h.spaced
  past last hlast := by
    rw [hsteady.lastRetryAt_eq] at hlast
    exact (h.past last hlast).trans (hmono hsteady.clock_le)

/-- What retries nothing adds no stamps. -/
theorem PacedSince.steady (h : PacedSince now interval txid times asked w) (hmono : Monotone now)
    (hsteady : RetriesNothing w w') : PacedSince now interval txid times asked w' := by
  obtain ⟨hclock, more, hpaced, hmore⟩ := h
  exact ⟨hclock.trans hsteady.clock_le, more, hpaced.steady hmono hsteady, hmore⟩

/-- Handing over stored records adds a retry for each that has a retry count, one of a transaction at most. -/
theorem retries_handedOver {records : List CoordinatedTx} (hmoment : Midtick w)
    (hstored : ∀ tx ∈ records, w.store.txs.get tx.txid = some tx) (hnodup : (records.map CoordinatedTx.txid).Nodup)
    (hlog : w'.log = (records.map fun tx => Event.broadcast tx.tx).reverse ++ w.log) :
    retries txid w'.log = retries txid w.log +
        records.countP (fun tx => decide (tx.tx.computeTxid = txid) && decide (0 < tx.retryCount)) ∧
      records.countP (fun tx => decide (tx.tx.computeTxid = txid) && decide (0 < tx.retryCount)) ≤ 1 := by
  have hid : ∀ tx ∈ records, tx.tx.computeTxid = tx.txid :=
    fun tx htx => (hmoment.get_computeTxid (hstored tx htx)).symm
  constructor
  · rw [hlog]
    apply retries_broadcasts
    intro tx htx
    rw [← hmoment.linked.1, hid tx htx]
    exact hstored tx htx
  · have hids : (records.map fun tx => tx.tx.computeTxid) = records.map CoordinatedTx.txid :=
      List.map_congr_left hid
    apply countP_le_one
    rw [hids]
    exact hnodup

/-- A batch keeps the pace: a retry in it opens a new window, and is stamped with its time. -/
theorem PacedSince.dispatches {due kept records : List CoordinatedTx} (h : PacedSince now interval txid times asked w)
    (hmono : Monotone now) (hnow : ∀ n, ctx.answers.nowSecs n = now n)
    (hinterval : ctx.settings.coordinator.retryIntervalSeconds = interval) (hmoment : Midtick w)
    (hdue : ∀ tx ∈ due, w.store.txs.get tx.txid = some tx)
    (hnodup : (due.map CoordinatedTx.txid).Nodup) (hdispatch : Dispatches ctx due kept records w w') :
    PacedSince now interval txid times asked w' := by
  obtain ⟨hasked, more, hpaced, hmore⟩ := h
  obtain ⟨w₁, w₂, w₃, haside, hlimits, hsent, hrest⟩ := hdispatch.stages
  have hrecords : records.Sublist due := hsent.sublist.trans hlimits.sublist
  have hlog : w₃.log = (records.map fun tx => Event.broadcast tx.tx).reverse ++ w.log := by
    rw [hsent.log_eq, hlimits.log_eq, haside.log_eq]
  obtain ⟨hretries, hone⟩ := retries_handedOver hmoment (fun tx htx => hdue tx (hrecords.subset htx))
    (hnodup.sublist (hrecords.map _)) hlog
  have hsteady : RetriesNothing w₃ w' := hrest _ inferInstance
  have hclocks : w.clock ≤ w₃.clock := haside.clock_le.trans (hlimits.clock_le.trans hsent.clock_le)
  apply PacedSince.steady _ hmono hsteady
  rcases hlimits.pace with ⟨hsame, hfresh⟩ | ⟨n, m, hn, hm, hclock, hstamped, helapsed⟩
  · -- Only first attempts pass, and the timer stays.
    have hnone : (records.countP fun tx =>
        decide (tx.tx.computeTxid = txid) && decide (0 < tx.retryCount)) = 0 := by
      apply List.countP_eq_zero.mpr
      intro tx htx
      simp [hfresh tx (hsent.sublist.subset htx)]
    have htimer : w₃.lastRetryAt = w.lastRetryAt :=
      hsent.lastRetryAt_eq.trans (hsame.trans haside.lastRetryAt_eq)
    refine ⟨hasked.trans hclocks, more, ⟨?_, ?_, fun last hlast => ?_⟩, hmore⟩
    · rw [hretries, hnone]
      exact hpaced.counted
    · rw [htimer]
      exact hpaced.spaced
    · rw [htimer] at hlast
      exact (hpaced.past last hlast).trans (hmono hclocks)
  · -- The interval has elapsed, and the timer is set.
    have htimer : w₃.lastRetryAt = some (now m) := by
      rw [hsent.lastRetryAt_eq, hstamped, hnow]
    have hreading : now n ≤ now m := hmono hm
    have hgap : ∀ last, w.lastRetryAt = some last → last + interval ≤ now m := by
      intro last hlast
      have helapsed := helapsed last (haside.lastRetryAt_eq.trans hlast)
      rw [hinterval, hnow] at helapsed
      have hbefore : last ≤ now n := (hpaced.past last hlast).trans (hmono (haside.clock_le.trans hn))
      omega
    have hpast : ∀ last, w₃.lastRetryAt = some last → last ≤ now w₃.clock := by
      intro last hlast
      rw [htimer] at hlast
      cases hlast
      exact hmono (hclock.le.trans hsent.clock_le)
    refine ⟨hasked.trans hclocks, ?_⟩
    rcases Nat.le_one_iff_eq_zero_or_eq_one.mp hone with hnone | hretried
    · refine ⟨more, ⟨?_, ?_, hpast⟩, hmore⟩
      · rw [hretries, hnone]
        exact hpaced.counted
      · rw [htimer]
        exact hpaced.spaced.later fun last hlast => (Nat.le_add_right last interval).trans (hgap last hlast)
    · refine ⟨more ++ [now m], ⟨?_, ?_, hpast⟩, ?_⟩
      · rw [hretries, hretried, ← List.append_assoc, List.length_append, hpaced.counted]
        rfl
      · rw [htimer, ← List.append_assoc]
        exact hpaced.spaced.next hgap
      · intro t ht
        rcases List.mem_append.mp ht with hearlier | hnew
        · exact hmore t hearlier
        · rw [List.mem_singleton.mp hnew]
          exact hmono (hasked.trans (haside.clock_le.trans (hn.trans hm)))

/-! ### Ticks -/

/-- A first part that retries nothing is followed by the retries of the rest. -/
theorem paced_bind {m : Coord α} {f : α → Coord β} (hmoment : Midtick w) (hmono : Monotone now)
    (hpaced : PacedSince now interval txid times asked w) (hsteps : Stepwise False .settle m ctx w)
    (hdecides : Decides ctx Store.empty w (m ctx w).2) (hsteady : RetriesNothing w (m ctx w).2)
    (hf : ∀ a w₁, m ctx w = (.ok a, w₁) → Midtick w₁ → PacedSince now interval txid times asked w₁ →
      PacedSince now interval txid times asked (f a ctx w₁).2) :
    PacedSince now interval txid times asked ((m >>= f) ctx w).2 := by
  have hmoment₁ := hmoment.stepwise hsteps hdecides
  have hpaced₁ := hpaced.steady hmono hsteady
  rcases hrun : m ctx w with ⟨stop | a, w₁⟩
  · rw [Prog.bind_of_error hrun]
    rw [hrun] at hpaced₁
    exact hpaced₁
  · rw [Prog.bind_of_ok hrun]
    rw [hrun] at hmoment₁ hpaced₁
    exact hf a w₁ hrun hmoment₁ hpaced₁

/-- The builds retry nothing. -/
theorem builds_retry_nothing (failed : Bool) :
    RetriesNothing w ((boostIfStale failed >>= fun _ => createCpfpBatch) ctx w).2 := by
  have hboost : Prog.Conducts RetriesNothing Anyhow (boostIfStale failed) := boostIfStale_conducts
  have hbatch : Prog.Conducts RetriesNothing Anyhow createCpfpBatch := createCpfpBatch_conducts
  have hboth : Prog.Conducts RetriesNothing Anyhow (boostIfStale failed >>= fun _ => createCpfpBatch) :=
    inferInstance
  exact hboth.related ctx w

/-- From step 3 on, two batches keep the pace. -/
theorem dispatchPart_paced (hmoment : Midtick w) (hmono : Monotone now)
    (hnow : ∀ n, ctx.answers.nowSecs n = now n)
    (hinterval : ctx.settings.coordinator.retryIntervalSeconds = interval)
    (hpaced : PacedSince now interval txid times asked w) :
    PacedSince now interval txid times asked ((do
      dispatchPending
      let failed ← dispatchPendingSpeedups
      boostIfStale failed
      createCpfpBatch : Coord Unit) ctx w).2 := by
  have hsteps : Stepwise False .settle dispatchPending ctx w := stepwise_of_plainly dispatchPending_plainly
  have hmoment₁ := hmoment.stepwise hsteps dispatchPending_decides
  have hpaced₁ : PacedSince now interval txid times asked (dispatchPending ctx w).2 := by
    obtain ⟨due, kept, records, hsublist, hdue, hdispatch⟩ := dispatchPending_dispatches ctx w
    apply hpaced.dispatches hmono hnow hinterval hmoment (fun tx htx => (hdue tx htx).2.stored) _ hdispatch
    exact w.store.values_nodup.sublist (hsublist.map _)
  rcases hrun : dispatchPending ctx w with ⟨stop | _, w₁⟩
  · rw [Prog.bind_of_error hrun]
    rw [hrun] at hpaced₁
    exact hpaced₁
  · rw [Prog.bind_of_ok hrun]
    rw [hrun] at hmoment₁ hpaced₁
    have hpaced₂ : PacedSince now interval txid times asked (dispatchPendingSpeedups ctx w₁).2 := by
      obtain ⟨due, kept, records, hsublist, hdue, hdispatch⟩ := dispatchPendingSpeedups_dispatches ctx w₁
      apply hpaced₁.dispatches hmono hnow hinterval hmoment₁ (fun tx htx => (hdue tx htx).stored) _ hdispatch
      exact hmoment₁.tidy.sublist ((hsublist.map _).trans w₁.store.speedupsOrdered_sublist)
    rcases hrun₂ : dispatchPendingSpeedups ctx w₁ with ⟨stop | failed, w₂⟩
    · rw [Prog.bind_of_error hrun₂]
      rw [hrun₂] at hpaced₂
      exact hpaced₂
    · rw [Prog.bind_of_ok hrun₂]
      rw [hrun₂] at hpaced₂
      exact hpaced₂.steady hmono (builds_retry_nothing failed)

/-- The six steps of a tick keep the pace. -/
theorem pipeline_paced (hmoment : Midtick w) (hmono : Monotone now) (hnow : ∀ n, ctx.answers.nowSecs n = now n)
    (hinterval : ctx.settings.coordinator.retryIntervalSeconds = interval)
    (hpaced : PacedSince now interval txid times asked w) :
    PacedSince now interval txid times asked (pipeline ctx w).2 := by
  have hreview : Prog.Conducts RetriesNothing Anyhow reviewActive :=
    reviewActive_conducts fun w _ => ⟨rfl, le_rfl, lacks_noted id⟩
  have hspeedups : Prog.Conducts RetriesNothing Anyhow reviewSpeedups := reviewSpeedups_conducts
  have hdecides : Prog.Conducts (Decides ctx Store.empty) Anyhow reviewSpeedups := reviewSpeedups_conducts
  apply paced_bind hmoment hmono hpaced reviewActive_stepwise reviewActive_decides (hreview.related ctx w)
  intro _ w₁ _ hmoment₁ hpaced₁
  apply paced_bind hmoment₁ hmono hpaced₁ (reviewSpeedups_stepwise fun h => absurd h id)
    (hdecides.related ctx w₁) (hspeedups.related ctx w₁)
  intro _ w₂ _ hmoment₂ hpaced₂
  exact dispatchPart_paced hmoment₂ hmono hnow hinterval hpaced₂

/-- Asking keeps the pace. -/
theorem Aside.retriesNothing (h : Aside w w') : RetriesNothing w w' where
  lastRetryAt_eq := h.lastRetryAt_eq
  clock_le := h.clock_le
  lacks := by
    unfold Lacks
    rw [h.log_eq]
    exact Grows.refl _

/-- A tick keeps the pace. -/
theorem tick_paced (hmoment : Midtick w) (hmono : Monotone now) (hnow : ∀ n, ctx.answers.nowSecs n = now n)
    (hinterval : ctx.settings.coordinator.retryIntervalSeconds = interval)
    (hpaced : PacedSince now interval txid times asked w) :
    PacedSince now interval txid times asked (tick ctx w).2 := by
  have haside : ∀ {γ : Type} (wrap : String → BitcoinCoordinatorError)
      (question : Answers → ℕ → Except String γ) (w : World), Aside w (query wrap question ctx w).2 :=
    fun wrap question w => Prog.Within.related ctx w
  apply paced_bind hmoment hmono hpaced (stepwise_of_calm query_calm) (haside _ _ w).decides
    (haside _ _ w).retriesNothing
  intro _ w₁ _ hmoment₁ hpaced₁
  apply paced_bind hmoment₁ hmono hpaced₁ (stepwise_of_calm query_calm) (haside _ _ w₁).decides
    (haside _ _ w₁).retriesNothing
  intro ready w₂ _ hmoment₂ hpaced₂
  split
  · apply paced_bind hmoment₂ hmono hpaced₂ (stepwise_of_calm query_calm) (haside _ _ w₂).decides
      (haside _ _ w₂).retriesNothing
    intro height w₃ _ hmoment₃ hpaced₃
    have hcleanup : Aside w₃ (cleanupNews height ctx w₃).2 := by
      have hwithin : Prog.Within Aside (cleanupNews height) := writeNews_aside
      exact hwithin.related ctx w₃
    apply paced_bind hmoment₃ hmono hpaced₃ (stepwise_of_calm (cleanupNews_calm height)) hcleanup.decides
      hcleanup.retriesNothing
    intro _ w₄ _ hmoment₄ hpaced₄
    exact pipeline_paced hmoment₄ hmono hnow hinterval hpaced₄
  · exact hpaced₂

/-- Every request keeps the pace. -/
theorem exec_paced (request : Request) (hmoment : Midtick w) (hmono : Monotone now)
    (hnow : ∀ n, ctx.answers.nowSecs n = now n)
    (hinterval : ctx.settings.coordinator.retryIntervalSeconds = interval)
    (hpaced : PacedSince now interval txid times asked w) :
    PacedSince now interval txid times asked (exec request ctx w).2 := by
  by_cases hrequest : request = .tick
  · subst hrequest
    exact tick_paced hmoment hmono hnow hinterval hpaced
  · have hconducts : Prog.Conducts RetriesNothing Anyhow (exec request) := request_conducts hrequest
    exact hpaced.steady hmono (hconducts.related ctx w)

/-- After every run, the next call starts from such a moment. -/
theorem midtick_runCalls (cfg : BitcoinSettings) (calls : List Call) :
    Midtick (runCalls cfg calls World.init) where
  owned := owned_runCalls cfg calls
  linked := linked_runCalls cfg Store.empty [] none calls
  tidy := tidy_runCalls cfg calls
  names := throughout_names cfg Store.empty [] none calls

/-- A reading of the clock for each retry of a transaction, in order: those of the retries that the first calls made
were read by then, the others were not read before. -/
structure StampsRetries (cfg : BitcoinSettings) (calls : List Call) (now : ℕ → ℕ) (txid : Txid) (times : List ℕ) :
    Prop where
  counted : times.length = retries txid (runCalls cfg calls World.init).log
  early : ∀ before, before <+: calls →
    ∀ t ∈ times.take (retries txid (runCalls cfg before World.init).log), t ≤ now (runCalls cfg before World.init).clock
  late : ∀ before, before <+: calls →
    ∀ t ∈ times.drop (retries txid (runCalls cfg before World.init).log), now (runCalls cfg before World.init).clock ≤ t

/-- After one more call the retries are stamped still, with the stamps it added behind the others. -/
theorem StampsRetries.append {cfg : BitcoinSettings} {calls : List Call} {call : Call} {more : List ℕ}
    (h : StampsRetries cfg calls now txid times)
    (hpast : ∀ before, before <+: calls → retries txid (runCalls cfg before World.init).log ≤ times.length ∧
      now (runCalls cfg before World.init).clock ≤ now (runCalls cfg calls World.init).clock)
    (hpaced : Paced now interval txid (times ++ more) (runCalls cfg (calls ++ [call]) World.init))
    (hmore : ∀ t ∈ more, now (runCalls cfg calls World.init).clock ≤ t) :
    StampsRetries cfg (calls ++ [call]) now txid (times ++ more) where
  counted := hpaced.counted
  early before hbefore t ht := by
    rcases List.prefix_concat_iff.mp hbefore with rfl | hearlier
    · obtain ⟨last, hlast, hle⟩ := hpaced.spaced.kept t (List.mem_of_mem_take ht)
      exact hle.trans (hpaced.past last hlast)
    · rw [List.take_append_of_le_length (hpast before hearlier).1] at ht
      exact h.early before hearlier t ht
  late before hbefore t ht := by
    rcases List.prefix_concat_iff.mp hbefore with rfl | hearlier
    · rw [← hpaced.counted, List.drop_length] at ht
      exact absurd ht List.not_mem_nil
    · rw [List.drop_append_of_le_length (hpast before hearlier).1] at ht
      rcases List.mem_append.mp ht with hold | hnew
      · exact h.late before hearlier t hold
      · exact (hpast before hearlier).2.trans (hmore t hnew)

/-- A call under which the node rejects every transaction and a second passes with every question. -/
def tickingCall (request : Request) : Call :=
  ⟨request, { (sampleView 100 [] []).answers fixedBuilder 10 0 with nowSecs := fun n => n }⟩

/-- A transaction is registered and rejected three times. -/
def tickingCalls : List Call :=
  tickingCall (.dispatchWithoutSpeedup sampleParent "parent" none none none) ::
    List.replicate 3 (tickingCall .tick)

end BitcoinCoordinator
