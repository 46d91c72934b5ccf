import BitcoinCoordinator.FailGuard

/-!
# The retry budget

One counter of a record serves two limits: rejections with intact inputs use up the retry budget, and
attempts excused by the guard are counted on top of them. While no attempt was excused early, a record
that runs out of budget was rejected as often as the settings say.
-/

namespace BitcoinCoordinator

open Foundation

/-- A dispatch of the transaction was rejected while its inputs were intact. -/
def Event.isTransient (txid : Txid) : Event → Bool
  | .transient id => decide (id = txid)
  | _ => false

/-- A dispatch of the transaction was rejected, and counted unless it settles the transaction. -/
def Event.isCounted (txid : Txid) : Event → Bool
  | .transient id => decide (id = txid)
  | .deferred id _ => decide (id = txid)
  | _ => false

/-- A budget that runs out was used up by the attempts counted, the last of which was rejected while the
inputs were intact. -/
def BudgetEntry (attempts : ℕ) : Event → List Event → Prop
  | .exhausted txid, older => ∃ older', older = .transient txid :: older' ∧
      attempts ≤ older'.countP (Event.isCounted txid) + 1
  | _, _ => True

/-- What holds of a history about retries: no record counts more attempts than were made before the
newest entry. -/
structure Budgeted (attempts : ℕ) (w : World) : Prop where
  counts : ∀ txid tx, w.store.txs.get txid = some tx →
    tx.retryCount ≤ w.log.tail.countP (Event.isCounted txid)
  entries : Throughout (BudgetEntry attempts) w.log

variable {ctx : Ctx} {tidy : Prop} {phase : Phase} {w w' : World} {attempts : ℕ}

/-- A longer history counts no fewer attempts. -/
theorem countP_le_of_suffix {p : Event → Bool} {log log' : List Event} (h : log <:+ log') :
    log.countP p ≤ log'.countP p :=
  h.sublist.countP_le

/-- A record that has at most drifted from a copy counts the same attempts. -/
theorem StillStored.retryCount_le {copy : CoordinatedTx} (h : StillStored copy w)
    (hcounts : ∀ txid tx, w.store.txs.get txid = some tx →
      tx.retryCount ≤ w.log.tail.countP (Event.isCounted txid)) :
    copy.retryCount ≤ w.log.tail.countP (Event.isCounted copy.txid) := by
  obtain ⟨tx, hget, hdrift⟩ := h
  have hcore := congrArg CoordinatedTx.retryCount hdrift.core
  change tx.retryCount = copy.retryCount at hcore
  rw [← hcore]
  exact hcounts _ _ hget

/-- The attempts before the newest entry are attempts. -/
theorem countP_tail_le (p : Event → Bool) (log : List Event) : log.tail.countP p ≤ log.countP p :=
  countP_le_of_suffix (List.tail_suffix log)

/-- A record that a move puts counts no more attempts than were made. -/
theorem Budgeted.put {log : List Event} {tx : CoordinatedTx} (h : Budgeted attempts w)
    (hput : Put ctx True w log phase tx) :
    tx.retryCount ≤ w.log.countP (Event.isCounted tx.txid) := by
  have hstored : ∀ {old : CoordinatedTx}, w.store.txs.get old.txid = some old →
      old.retryCount ≤ w.log.countP (Event.isCounted old.txid) :=
    fun hget => (h.counts _ _ hget).trans (countP_tail_le _ _)
  cases hput with
  | changed old tx' hget hchange =>
    cases hchange with
    | retry hstep hfrom hcause =>
      have hlog : ∃ e older, w.log = e :: older ∧ e.isCounted old.txid = true := by
        rcases hcause with hhead | ⟨height, hhead⟩
        · obtain ⟨older, hlog⟩ := List.head?_eq_some_iff.mp hhead
          exact ⟨_, older, hlog, by simp [Event.isCounted]⟩
        · obtain ⟨older, hlog⟩ := List.head?_eq_some_iff.mp hhead
          exact ⟨_, older, hlog, by simp [Event.isCounted]⟩
      obtain ⟨e, older, hlog, hcounted⟩ := hlog
      have hcount := h.counts _ _ hget
      rw [hlog] at hcount ⊢
      rw [List.countP_cons_of_pos hcounted]
      exact Nat.succ_le_succ hcount
    | _ =>
      have hcount := hstored hget
      exact hcount
  | vanished old height hget hstep hfrom =>
    have hcount := hstored hget
    exact hcount
  | rewrote copy updated hrewrite hread hdrift hnote =>
    have hcopy := ((hdrift trivial).retryCount_le h.counts).trans (countP_tail_le _ _)
    cases hrewrite <;> exact hcopy
  | inserted tx htx hnote =>
    rw [htx.isNew.retries]
    exact Nat.zero_le _
  | registered tx hfresh hkind hnew hnote =>
    rw [hnew.retries]
    exact Nat.zero_le _

/-- Every move keeps the counts. -/
theorem Budgeted.move (h : Budgeted ctx.settings.coordinator.retryAttemptsSendingTx w)
    (hmove : Move ctx True phase w w') :
    Budgeted ctx.settings.coordinator.retryAttemptsSendingTx w' := by
  constructor
  · intro txid tx hget
    rcases hmove.records hget with hold | ⟨hput, hsuffix, -⟩
    · have hcount := h.counts txid tx hold
      have hlog : w'.log.tail = w.log.tail ∨ w.log <:+ w'.log.tail := by
        obtain ⟨added, hadded⟩ := hmove.log_suffix
        cases added with
        | nil => exact Or.inl (by rw [← hadded]; rfl)
        | cons e rest => exact Or.inr ⟨rest, by rw [← hadded]; rfl⟩
      rcases hlog with hsame | hsuffix
      · rw [hsame]
        exact hcount
      · exact hcount.trans ((countP_tail_le _ _).trans (countP_le_of_suffix hsuffix))
    · rw [← w'.store.keyed _ _ hget]
      exact (h.put hput).trans (countP_le_of_suffix hsuffix)
  · rcases hmove with hplain | hpart
    · cases hplain with
      | quiet hquiet =>
        apply hquiet.throughout h.entries
        · intro e older hremark
          cases e <;> trivial
        · trivial
      | vanished | rewrote =>
        exact throughout_cons.mpr ⟨trivial, throughout_cons.mpr ⟨trivial, h.entries⟩⟩
      | exhausted copy hbudget hnote hdrift =>
        obtain ⟨older, hlog⟩ := List.head?_eq_some_iff.mp hnote
        refine throughout_cons.mpr ⟨?_, h.entries⟩
        refine ⟨older, hlog, ?_⟩
        have hcount := (hdrift trivial).retryCount_le h.counts
        rw [hlog] at hcount
        exact hbudget.trans (Nat.succ_le_succ hcount)
      | _ => exact throughout_cons.mpr ⟨trivial, h.entries⟩
    · cases hpart with
      | inserted => exact throughout_cons.mpr ⟨trivial, throughout_cons.mpr ⟨trivial, h.entries⟩⟩
      | _ => exact throughout_cons.mpr ⟨trivial, h.entries⟩

/-- A history keeps its counts through every run. -/
theorem budgeted_runCalls (cfg : BitcoinSettings) (calls : List Call) :
    Budgeted cfg.coordinator.retryAttemptsSendingTx (runCalls cfg calls World.init) := by
  have hmove : ∀ call ∈ calls, ∀ phase w w',
      Budgeted cfg.coordinator.retryAttemptsSendingTx w → Move ⟨cfg, call.answers⟩ True phase w w' →
        Budgeted cfg.coordinator.retryAttemptsSendingTx w' :=
    fun _ _ _ _ _ h hmove => h.move hmove
  apply runCalls_induction hmove
  · intro _
    exact List.nodup_nil
  · refine ⟨fun txid tx hget => ?_, throughout_nil⟩
    cases hget

/-- Without an excused attempt, the attempts counted are the rejections with intact inputs. -/
theorem countP_isCounted_eq {txid : Txid} {log : List Event}
    (h : ∀ height, .deferred txid height ∉ log) :
    log.countP (Event.isCounted txid) = log.countP (Event.isTransient txid) := by
  apply List.countP_congr
  intro e he
  cases e with
  | deferred id height =>
    have hne : id ≠ txid := by
      rintro rfl
      exact h height he
    simp [Event.isCounted, Event.isTransient, hne]
  | _ => rfl

/-- In every run, whatever the calls are answered and wherever they stop: a transaction whose retry
budget runs out was rejected with intact inputs at least as often as the settings say, provided that
every attempt the guard excused came after all but one of these rejections. -/
theorem retryBudget_of_excused_late (cfg : BitcoinSettings) (calls : List Call) (txid : Txid)
    (older : List Event)
    (hexhausted : .exhausted txid :: older <:+ (runCalls cfg calls World.init).log)
    (hlate : ∀ height before, .deferred txid height :: before <:+ older →
      cfg.coordinator.retryAttemptsSendingTx ≤ before.countP (Event.isTransient txid) + 1) :
    cfg.coordinator.retryAttemptsSendingTx ≤ older.countP (Event.isTransient txid) := by
  obtain ⟨older', rfl, hcounted⟩ := (budgeted_runCalls cfg calls).entries _ _ hexhausted
  have hlast : (Event.transient txid).isTransient txid = true := by simp [Event.isTransient]
  rw [List.countP_cons_of_pos hlast]
  by_cases hexcused : ∃ height, .deferred txid height ∈ older'
  · obtain ⟨height, hmem⟩ := hexcused
    obtain ⟨later, before, hsplit⟩ := List.append_of_mem hmem
    have hsuffix : .deferred txid height :: before <:+ older' := ⟨later, hsplit.symm⟩
    have hbefore := hlate height before (hsuffix.trans (List.suffix_cons _ _))
    have hmore : before.countP (Event.isTransient txid) ≤ older'.countP (Event.isTransient txid) :=
      countP_le_of_suffix ((List.suffix_cons _ _).trans hsuffix)
    omega
  · rw [← countP_isCounted_eq fun height hmem => hexcused ⟨height, hmem⟩]
    exact hcounted

/-- Settings under which the second unexplained rejection is final. -/
def twiceSettings : BitcoinSettings :=
  { coordinator := { retryAttemptsSendingTx := 2 }, monitor := ⟨6⟩ }

/-- A transaction is rejected twice while its inputs are intact. -/
def rejectedCalls : List Call :=
  let view := sampleView 100 [] []
  [view.call fixedBuilder 10 0 (.dispatchWithoutSpeedup sampleParent "parent" none none none),
    view.call fixedBuilder 10 0 .tick,
    view.call fixedBuilder 10 10 .tick]

/-- The budget of the transaction of an example run was used up by two rejections. -/
theorem retryBudget_rejectedCalls :
    ∃ older, .exhausted 1 :: older <:+ (runCalls twiceSettings rejectedCalls World.init).log ∧
      2 ≤ older.countP (Event.isTransient 1) := by
  have hsuffix := event_suffix (.exhausted 1)
    (show (runCalls twiceSettings rejectedCalls World.init).log[2]?.bind Event.moment? =
      some (.exhausted 1) by decide +kernel)
  have hnone : ∀ e ∈ (runCalls twiceSettings rejectedCalls World.init).log.drop 3,
      e.moment? = none := by decide +kernel
  refine ⟨_, hsuffix, retryBudget_of_excused_late twiceSettings rejectedCalls 1 _ hsuffix ?_⟩
  intro height before hbefore
  have hmoment := hnone _ (hbefore.subset List.mem_cons_self)
  cases hmoment

/-- A transaction is accepted and vanishes while its input is spent; then its input is free again and it
is rejected. -/
def excusedCalls : List Call :=
  let first := sampleView 100 [] [sampleParent]
  [first.call fixedBuilder 10 0 (.dispatchWithoutSpeedup sampleParent "parent" none none none),
    first.call fixedBuilder 10 0 .tick,
    (spentView 101).call fixedBuilder 10 0 .tick,
    (sampleView 102 [] []).call fixedBuilder 10 10 .tick]

/-- A budget of two attempts runs out at the first rejection with intact inputs, since an excused attempt
was counted. -/
theorem exists_budget_spent_early :
    ∃ (cfg : BitcoinSettings) (calls : List Call) (txid : Txid) (older : List Event),
      cfg.validate = .ok () ∧ 1 ≤ cfg.coordinator.retryAttemptsSendingTx ∧
      (∀ call ∈ calls, call.SeesOneView ∧ call.answers.SpendsRequested) ∧
      OkRun cfg calls World.init (runCalls cfg calls World.init) ∧
      .exhausted txid :: older <:+ (runCalls cfg calls World.init).log ∧
      older.countP (Event.isTransient txid) < cfg.coordinator.retryAttemptsSendingTx := by
  have hsuffix := event_suffix (.exhausted 1)
    (show (runCalls twiceSettings excusedCalls World.init).log[2]?.bind Event.moment? =
      some (.exhausted 1) by decide +kernel)
  refine ⟨twiceSettings, excusedCalls, 1, _, by decide +kernel, by decide, ?_,
    okRun_runCalls (by decide +kernel), hsuffix, by decide +kernel⟩
  intro call hcall
  simp only [excusedCalls, List.mem_cons, List.not_mem_nil, or_false] at hcall
  rcases hcall with rfl | rfl | rfl | rfl <;>
    exact ⟨NodeView.call_seesOneView (by decide +kernel) _ _ _ _, plainBuilder_spendsRequested _ _ _ _⟩

end BitcoinCoordinator
