import BitcoinCoordinator.LifecycleMetadata

/-!
# The guard of a vanished transaction

A transaction that vanished goes back to dispatch with a deadline. Until the node has it again, a missing
input is excused below the deadline and settles it from the deadline on, and nothing moves the deadline.
A speedup that is being replaced does not go back to dispatch when it is not found, so nothing is armed.
-/

namespace BitcoinCoordinator

open Foundation

/-! ### Deadlines of a history -/

/-- The moments after which a new life of a record begins: the node has it, or it was stored anew. -/
def Event.renews (txid : Txid) : Event → Bool
  | .rewrote copy _ => decide (copy.txid = txid)
  | .registering tx _ => decide (tx.txid = txid)
  | .inserted tx _ => decide (tx.txid = txid)
  | _ => false

/-- The deadline armed for the record of a transaction in its present life. -/
def armedDeadline (txid : Txid) : List Event → Option BlockHeight
  | [] => none
  | .vanished id deadline :: older => if id = txid then some deadline else armedDeadline txid older
  | e :: older => if e.renews txid then none else armedDeadline txid older

/-- Other moments neither arm nor clear a deadline. -/
theorem armedDeadline_cons {txid : Txid} {e : Event} {older : List Event}
    (harmed : ∀ deadline, e ≠ .vanished txid deadline) (hrenewed : e.renews txid = false) :
    armedDeadline txid (e :: older) = armedDeadline txid older := by
  cases e with
  | vanished id deadline =>
    have hne : id ≠ txid := fun heq => harmed deadline (by rw [heq])
    simp [armedDeadline, hne]
  | _ => simp_all [armedDeadline]

/-- A write neither arms nor clears a deadline. -/
@[simp] theorem armedDeadline_wrote {txid : Txid} {before after : Store} {older : List Event} :
    armedDeadline txid (.wrote before after :: older) = armedDeadline txid older :=
  armedDeadline_cons (by simp) rfl

/-- A remark neither arms nor clears a deadline. -/
theorem armedDeadline_remark {txid : Txid} {e : Event} {older : List Event} (h : e.IsRemark) :
    armedDeadline txid (e :: older) = armedDeadline txid older := by
  apply armedDeadline_cons
  · rintro deadline rfl
    exact h
  · cases e <;> first | rfl | exact absurd h id

/-- The records of a store carry the deadlines of the history. -/
def GuardsAgree (s : Store) (log : List Event) : Prop :=
  ∀ txid tx, s.txs.get txid = some tx → tx.failGuardUntil = armedDeadline txid log

/-- Moments that change no deadline of a tracked record keep the agreement. -/
theorem GuardsAgree.same {s s' : Store} {log log' : List Event} (h : GuardsAgree s log)
    (htxs : s'.txs = s.txs) (hsame : ∀ txid tx, s.txs.get txid = some tx →
      armedDeadline txid log' = armedDeadline txid log) : GuardsAgree s' log' := by
  intro txid tx hget
  rw [htxs] at hget
  rw [hsame txid tx hget]
  exact h txid tx hget

/-- Putting a record that carries its deadline keeps the agreement. -/
theorem GuardsAgree.set {s : Store} {log log' : List Event} {new : CoordinatedTx}
    (h : GuardsAgree s log) (hnew : new.failGuardUntil = armedDeadline new.txid log')
    (hother : ∀ txid, txid ≠ new.txid → armedDeadline txid log' = armedDeadline txid log) :
    GuardsAgree (s.setTx new) log' := by
  intro txid tx hget
  rw [Store.get_setTx] at hget
  by_cases hid : txid = new.txid
  · rw [if_pos hid] at hget
    cases hget
    rw [hid, hnew]
  · rw [if_neg hid] at hget
    rw [hother txid hid]
    exact h txid tx hget

/-- Dropping a record keeps the agreement. -/
theorem GuardsAgree.erase {s : Store} {log log' : List Event} {id : Txid} (h : GuardsAgree s log)
    (hsame : ∀ txid, armedDeadline txid log' = armedDeadline txid log) :
    GuardsAgree (s.eraseTx id) log' := by
  intro txid tx hget
  rw [Store.get_eraseTx] at hget
  split at hget
  · cases hget
  · rw [hsame]
    exact h txid tx hget

/-- What a move says about deadlines: one is armed only when none is, at a fixed distance from the height
at which the record was not found; an excused input is below the deadline and one that settles is not. -/
def GuardEntry (depth : ℕ) : Event → List Event → Prop
  | .vanished txid deadline, older => armedDeadline txid older = none ∧
      ∃ height before after older', older = .wrote before after :: .notFound txid height :: older' ∧
        deadline = height + depth ∧ Holds (fun tx => tx.isInFlight) (before.txs.get txid) ∧
        Holds (fun tx => tx.state = .toDispatch ∧ tx.failGuardUntil = some deadline)
          (after.txs.get txid)
  | .deferred txid height, older => ∃ deadline, armedDeadline txid older = some deadline ∧
      height < deadline
  | .condemned txid height, older => ∀ deadline, armedDeadline txid older = some deadline →
      deadline ≤ height
  | .judged txid height before after, older => ∃ old cur, before.txs.get txid = some old ∧
      after.txs.get txid = some cur ∧ ∀ deadline, armedDeadline txid older = some deadline →
        (height < deadline → cur.state = old.state) ∧ (deadline ≤ height → cur.state = .failed)
  | _, _ => True

/-- What holds of a history about guards. -/
structure Guarded (depth : ℕ) (w : World) : Prop where
  sound : EveryRecord CoordinatedTx.MetadataSound w
  agree : GuardsAgree w.store w.log
  entries : Throughout (GuardEntry depth) w.log

variable {ctx : Ctx} {tidy : Prop} {phase : Phase} {w w' : World} {depth : ℕ}

/-! ### Every move keeps the deadlines -/

/-- A changed record keeps its deadline. -/
theorem Change.failGuardUntil_eq {log : List Event} {tx tx' : CoordinatedTx}
    (h : Change tidy log tx phase tx') : tx'.failGuardUntil = tx.failGuardUntil := by
  cases h <;> rfl

/-- A record written back has no deadline. -/
theorem Rewrite.failGuardUntil_eq {copy updated : CoordinatedTx} (h : Rewrite copy updated)
    (hsound : copy.MetadataSound) : updated.failGuardUntil = none := by
  cases h with
  | reorg height hstate => exact (hsound.inFlight (by simp [CoordinatedTx.isInFlight, hstate])).2.1
  | accepted height feeInfo hstate => rfl
  | confirmed height hstate => rfl

/-- A record that has at most drifted from a copy carries its deadline. -/
theorem StillStored.failGuardUntil_eq {copy : CoordinatedTx} (h : StillStored copy w)
    (hagree : GuardsAgree w.store w.log) :
    copy.failGuardUntil = armedDeadline copy.txid w.log := by
  obtain ⟨tx, hget, hdrift⟩ := h
  have hcore := congrArg CoordinatedTx.failGuardUntil hdrift.core
  change tx.failGuardUntil = copy.failGuardUntil at hcore
  exact hcore.symm.trans (hagree _ _ hget)

/-- Every move keeps the agreement of records and history. -/
theorem GuardsAgree.move (h : GuardsAgree w.store w.log)
    (hsound : EveryRecord CoordinatedTx.MetadataSound w) (hmove : Move ctx True phase w w') :
    GuardsAgree w'.store w'.log := by
  have hrenew : ∀ {new : CoordinatedTx} {e : Event}, new.failGuardUntil = none →
      (∀ id, e.renews id = decide (new.txid = id)) → (∀ id deadline, e ≠ .vanished id deadline) →
      GuardsAgree (w.store.setTx new) (e :: .wrote w.store (w.store.setTx new) :: w.log) := by
    intro new e hnone hrenews harms
    apply h.set
    · rw [hnone]
      cases e <;> simp_all [armedDeadline]
    · intro txid hne
      have hfalse : e.renews txid = false := by simp [hrenews, Ne.symm hne]
      rw [armedDeadline_cons (fun deadline => harms txid deadline) hfalse, armedDeadline_wrote]
  rcases hmove with hplain | hpart
  · cases hplain with
    | quiet hquiet =>
      apply h.same hquiet.txs_eq
      intro txid _ _
      rcases hquiet.log_eq with hlog | ⟨e, hremark, hlog⟩ | hlog
      · rw [hlog]
      · rw [hlog, armedDeadline_remark hremark]
      · rw [hlog, armedDeadline_wrote]
    | changed tx tx' hget hchange =>
      apply h.set
      · rw [hchange.failGuardUntil_eq, hchange.txid_eq]
        exact (h _ _ hget).trans armedDeadline_wrote.symm
      · exact fun _ _ => armedDeadline_wrote
    | vanished tx height hget hstep hfrom hnote =>
      obtain ⟨-, hguard, -⟩ := (hsound.current hget).inFlight (hfrom trivial)
      apply h.set
      · simp [CoordinatedTx.requeued, hguard, armedDeadline, World.noted]
      · intro txid hne
        rw [CoordinatedTx.requeued] at hne
        exact (armedDeadline_cons (by simpa using fun heq => absurd heq.symm hne) rfl).trans
          armedDeadline_wrote
    | rewrote copy updated hrewrite hread hdrift hlisted =>
      apply hrenew (hrewrite.failGuardUntil_eq (hsound.copy hread))
      · intro id
        rw [hrewrite.txid_eq]
        rfl
      · simp
    | registering tx hfresh =>
      apply h.same rfl
      intro txid old hget
      have hne : tx.txid ≠ txid := by
        rintro rfl
        rw [hfresh] at hget
        cases hget
      exact armedDeadline_cons (by simp) (by simp [Event.renews, hne])
    | _ => exact h.same rfl fun _ _ _ => armedDeadline_cons (by simp) rfl
  · cases hpart with
    | inserted tx htx => exact hrenew htx.isNew.guard (fun _ => rfl) (by simp)
    | registered tx hfresh hkind hnew hnote =>
      obtain ⟨older, hlog⟩ := List.head?_eq_some_iff.mp hnote
      apply h.set
      · rw [hnew.guard]
        change none = armedDeadline tx.txid (.wrote _ _ :: w.log)
        rw [armedDeadline_wrote, hlog]
        simp [armedDeadline, Event.renews]
      · exact fun _ _ => armedDeadline_wrote
    | evicted tx hnote hstale haged => exact h.erase fun _ => armedDeadline_wrote
    | dropped txid hcancel hpending => exact h.erase fun _ => armedDeadline_wrote
    | listed txid => exact h.same (w.store.txs_list txid) fun _ _ _ => armedDeadline_wrote
    | pended txid => exact h.same (w.store.txs_pend txid) fun _ _ _ => armedDeadline_wrote
    | queue s hphase hwrite => exact h.same hwrite.txs_eq fun _ _ _ => armedDeadline_wrote
    | unlisted txid hphase hidle => exact h.same rfl fun _ _ _ => armedDeadline_wrote

/-- A guard that runs has a deadline above the height. -/
theorem CoordinatedTx.isGuarded_eq_true {tx : CoordinatedTx} {height : BlockHeight} :
    tx.isGuarded height = true ↔ ∃ deadline, tx.failGuardUntil = some deadline ∧ height < deadline := by
  unfold CoordinatedTx.isGuarded
  split <;> simp_all

/-- A guard that does not run has no deadline above the height. -/
theorem CoordinatedTx.isGuarded_eq_false {tx : CoordinatedTx} {height : BlockHeight} :
    tx.isGuarded height = false ↔ ∀ deadline, tx.failGuardUntil = some deadline → deadline ≤ height := by
  unfold CoordinatedTx.isGuarded
  split <;> simp_all

/-- Every move says about deadlines what it should. -/
theorem Guarded.entries_move (h : Guarded ctx.settings.monitor.maxMonitoringConfirmations w)
    (hmove : Move ctx True phase w w') :
    Throughout (GuardEntry ctx.settings.monitor.maxMonitoringConfirmations) w'.log := by
  have hwrote : ∀ s, Throughout (GuardEntry ctx.settings.monitor.maxMonitoringConfirmations)
      (w.written s).log := fun s => throughout_cons.mpr ⟨trivial, h.entries⟩
  rcases hmove with hplain | hpart
  · cases hplain with
    | quiet hquiet =>
      apply hquiet.throughout h.entries
      · intro e older hremark
        cases e <;> trivial
      · trivial
    | changed tx tx' hget hchange => exact hwrote _
    | vanished tx height hget hstep hfrom hnote =>
      obtain ⟨-, hguard, -⟩ := (h.sound.current hget).inFlight (hfrom trivial)
      obtain ⟨older, hlog⟩ := List.head?_eq_some_iff.mp hnote
      apply throughout_cons.mpr ⟨?_, hwrote _⟩
      refine ⟨?_, height, w.store, _, older, by rw [← hlog]; rfl, rfl, ⟨tx, hget, hfrom trivial⟩, ?_⟩
      · exact armedDeadline_wrote.trans ((h.agree _ _ hget).symm.trans hguard)
      · refine ⟨_, (w.store.get_setTx _ tx.txid).trans (if_pos rfl), rfl, ?_⟩
        simp [CoordinatedTx.requeued, hguard]
    | rewrote copy updated hrewrite hread hdrift hlisted =>
      exact throughout_cons.mpr ⟨trivial, hwrote _⟩
    | deferred copy height hguard hdrift =>
      apply throughout_cons.mpr ⟨?_, h.entries⟩
      obtain ⟨deadline, hdeadline, hbelow⟩ := CoordinatedTx.isGuarded_eq_true.mp hguard
      exact ⟨deadline, ((hdrift trivial).failGuardUntil_eq h.agree).symm.trans hdeadline, hbelow⟩
    | condemned copy height hguard hdrift =>
      apply throughout_cons.mpr ⟨?_, h.entries⟩
      intro deadline harmed
      apply CoordinatedTx.isGuarded_eq_false.mp hguard deadline
      rw [(hdrift trivial).failGuardUntil_eq h.agree, harmed]
    | judged txid height before hjudged =>
      apply throughout_cons.mpr ⟨?_, h.entries⟩
      obtain ⟨old, cur, hold, hcur, hexcused, hsettled⟩ := hjudged trivial
      refine ⟨old, cur, hold, hcur, fun deadline harmed => ⟨fun hbelow => ?_, fun habove => ?_⟩⟩
      · apply hexcused
        exact CoordinatedTx.isGuarded_eq_true.mpr
          ⟨deadline, (h.agree _ _ hcur).trans harmed, hbelow⟩
      · apply hsettled
        apply CoordinatedTx.isGuarded_eq_false.mpr
        intro deadline' hdeadline'
        rw [h.agree _ _ hcur, harmed] at hdeadline'
        cases hdeadline'
        exact habove
    | _ => exact throughout_cons.mpr ⟨trivial, h.entries⟩
  · cases hpart with
    | inserted tx htx => exact throughout_cons.mpr ⟨trivial, hwrote _⟩
    | _ => exact hwrote _

/-- A history keeps its deadlines through every run. -/
theorem guarded_runCalls (cfg : BitcoinSettings) (calls : List Call) :
    Guarded cfg.monitor.maxMonitoringConfirmations (runCalls cfg calls World.init) := by
  have hmove : ∀ call ∈ calls, ∀ phase w w',
      Guarded cfg.monitor.maxMonitoringConfirmations w → Move ⟨cfg, call.answers⟩ True phase w w' →
        Guarded cfg.monitor.maxMonitoringConfirmations w' := by
    intro call _ phase w w' h hmove
    exact ⟨h.sound.move hmove fun tx hput => hput.metadataSound h.sound, h.agree.move h.sound hmove,
      h.entries_move hmove⟩
  apply runCalls_induction hmove
  · intro _
    exact List.nodup_nil
  · refine ⟨?_, fun txid tx hget => ?_, throughout_nil⟩
    · rintro s (rfl | ⟨after, hwrote⟩) txid tx hget
      · cases hget
      · cases hwrote
    · cases hget

/-! ### Verdicts on a vanished transaction -/

/-- The verdicts on a missing input follow a deadline: below it none settles the transaction, which keeps
its state, and from it on none is excused, and the transaction has failed. -/
structure VerdictsFollow (txid : Txid) (deadline : BlockHeight) (events : List Event) : Prop where
  condemned : ∀ height, .condemned txid height ∈ events → deadline ≤ height
  deferred : ∀ height, .deferred txid height ∈ events → height < deadline
  judged : ∀ height before after, .judged txid height before after ∈ events →
    ∃ old cur, before.txs.get txid = some old ∧ after.txs.get txid = some cur ∧
      (height < deadline → cur.state = old.state) ∧ (deadline ≤ height → cur.state = .failed)

/-- A deadline was armed by a review that did not find the transaction in flight and put it back in
dispatch. -/
def ArmedByReview (depth : ℕ) (txid : Txid) (deadline : BlockHeight) (older : List Event) : Prop :=
  ∃ height before after older', older = .wrote before after :: .notFound txid height :: older' ∧
    deadline = height + depth ∧ Holds (fun tx => tx.isInFlight) (before.txs.get txid) ∧
    Holds (fun tx => tx.state = .toDispatch ∧ tx.failGuardUntil = some deadline)
      (after.txs.get txid)

/-- An armed deadline stays until the record begins a new life. -/
theorem armedDeadline_append {txid : Txid} {deadline : BlockHeight} {newer older : List Event}
    (h : Throughout (GuardEntry depth) (newer ++ .vanished txid deadline :: older))
    (hkept : ∀ e ∈ newer, e.renews txid = false) :
    armedDeadline txid (newer ++ .vanished txid deadline :: older) = some deadline := by
  induction newer with
  | nil => exact if_pos rfl
  | cons e newer ih =>
    obtain ⟨hentry, hrest⟩ := throughout_cons.mp h
    have harmed := ih hrest fun e' he' => hkept e' (List.mem_cons_of_mem e he')
    rw [List.cons_append, armedDeadline_cons _ (hkept e List.mem_cons_self), harmed]
    rintro other rfl
    have hnone : armedDeadline txid (newer ++ .vanished txid deadline :: older) = none := hentry.1
    rw [hnone] at harmed
    cases harmed

/-- Every entry after a deadline was armed was made under that deadline. -/
theorem guardEntry_of_mem {txid : Txid} {deadline : BlockHeight} {newer older : List Event} {e : Event}
    (h : Throughout (GuardEntry depth) (newer ++ .vanished txid deadline :: older))
    (hkept : ∀ e ∈ newer, e.renews txid = false) (he : e ∈ newer) :
    ∃ before, GuardEntry depth e before ∧ armedDeadline txid before = some deadline := by
  obtain ⟨later, earlier, rfl⟩ := List.append_of_mem he
  rw [List.append_assoc, List.cons_append] at h
  refine ⟨_, h.entry, armedDeadline_append (throughout_cons.mp h.of_append).2 ?_⟩
  intro e' he'
  exact hkept e' (List.mem_append_right _ (List.mem_cons_of_mem _ he'))

/-- In every run, whatever the calls are answered and wherever they stop: when a review puts a vanished
transaction back in dispatch, it arms the deadline at a fixed distance from its height, and until the
node has the transaction again, or a record is stored anew under its identifier, every verdict on a
missing input follows that deadline, no other is armed, and the record carries it. -/
theorem verdictsFollow_of_vanished (cfg : BitcoinSettings) (calls : List Call)
    (later newer older : List Event) (txid : Txid) (deadline : BlockHeight)
    (hlog : (runCalls cfg calls World.init).log =
      later ++ (newer ++ .vanished txid deadline :: older))
    (hkept : ∀ e ∈ newer, e.renews txid = false) :
    ArmedByReview cfg.monitor.maxMonitoringConfirmations txid deadline older ∧
      VerdictsFollow txid deadline newer ∧ (∀ other, .vanished txid other ∉ newer) ∧
      (later = [] → ∀ tx, (runCalls cfg calls World.init).store.txs.get txid = some tx →
        tx.failGuardUntil = some deadline) := by
  obtain ⟨-, hagree, hentries⟩ := guarded_runCalls cfg calls
  have hnewer := hentries
  rw [hlog] at hnewer
  replace hnewer := hnewer.of_append
  refine ⟨hnewer.entry.2, ⟨fun height he => ?_, fun height he => ?_, fun height before after he => ?_⟩,
    fun other he => ?_, fun hend tx hget => ?_⟩
  · obtain ⟨before, hentry, harmed⟩ := guardEntry_of_mem hnewer hkept he
    exact hentry deadline harmed
  · obtain ⟨before, ⟨deadline', harmed', hbelow⟩, harmed⟩ := guardEntry_of_mem hnewer hkept he
    rw [harmed] at harmed'
    cases harmed'
    exact hbelow
  · obtain ⟨older', ⟨old, cur, hold, hcur, hverdict⟩, harmed⟩ := guardEntry_of_mem hnewer hkept he
    exact ⟨old, cur, hold, hcur, hverdict deadline harmed⟩
  · obtain ⟨older', ⟨hnone, -⟩, harmed⟩ := guardEntry_of_mem hnewer hkept he
    rw [hnone] at harmed
    cases harmed
  · rw [hagree _ _ hget, hlog, hend]
    exact armedDeadline_append hnewer hkept

/-! ### Example runs -/

/-- A node that knows nothing of a transaction, one of whose inputs is spent. -/
def spentView (height : BlockHeight) : NodeView := ⟨height, [], [], [⟨9, 0⟩], []⟩

/-- A transaction is accepted, then vanishes with its input spent, until the guard has run out. -/
def flapCalls : List Call :=
  let first := sampleView 100 [] [sampleParent]
  [first.call fixedBuilder 10 0 (.dispatchWithoutSpeedup sampleParent "parent" none none none),
    first.call fixedBuilder 10 0 .tick,
    (spentView 101).call fixedBuilder 10 0 .tick,
    (spentView 107).call fixedBuilder 10 10 .tick]

/-- The verdicts of an example run, one below the deadline and one at it, follow the deadline. -/
theorem verdictsFollow_flapCalls :
    ∃ newer older, (runCalls defaultSettings flapCalls World.init).log =
        newer ++ .vanished 1 107 :: older ∧
      .deferred 1 101 ∈ newer ∧ .condemned 1 107 ∈ newer ∧ VerdictsFollow 1 107 newer := by
  have hlog := eq_take_event_drop (.vanished 1 107)
    (show (runCalls defaultSettings flapCalls World.init).log[10]?.bind Event.moment? =
      some (.vanished 1 107) by decide +kernel)
  have hkept : ∀ e ∈ (runCalls defaultSettings flapCalls World.init).log.take 10,
      e.renews 1 = false := by decide +kernel
  have hdeferred := event_mem (.deferred 1 101)
    (show some (.deferred 1 101) ∈ ((runCalls defaultSettings flapCalls World.init).log.take 10).map
      Event.moment? by decide +kernel)
  have hcondemned := event_mem (.condemned 1 107)
    (show some (.condemned 1 107) ∈ ((runCalls defaultSettings flapCalls World.init).log.take 10).map
      Event.moment? by decide +kernel)
  have hfollow := verdictsFollow_of_vanished defaultSettings flapCalls [] _ _ 1 107
    (hlog.trans (List.nil_append _).symm) hkept
  exact ⟨_, _, hlog, hdeferred, hcondemned, hfollow.2.1⟩

/-- Settings under which the second speedup is an RBF and one unexplained rejection is final. -/
def strictSingleSettings : BitcoinSettings :=
  { coordinator := { retryAttemptsSendingTx := 1 }
    speedup := { maxUnconfirmedSpeedups := 1 }
    monitor := ⟨6⟩ }

/-- A CPFP is replaced by an RBF; both vanish, and the RBF fails. Six blocks later the CPFP is not found
again, and its funding is spent. -/
def maskedCalls : List Call :=
  let first := sampleView 100 [] [sampleParent]
  let spent := { sampleView 110 [sampleParent] [] with utxos := [⟨50, 0⟩] }
  [first.call fixedBuilder 10 0 (.addFunding sampleFunding),
    first.call fixedBuilder 10 0 (.dispatchWithSpeedup sampleParent sampleAnchor "parent" none none),
    first.call fixedBuilder 10 0 .tick,
    (sampleView 100 [sampleParent] [replacedCpfp]).call fixedBuilder 10 0 .tick,
    (sampleView 101 [sampleParent, replacedCpfp] []).call fixedBuilder 10 0 .tick,
    (sampleView 101 [sampleParent] [replacingRbf]).call fixedBuilder 10 0 .tick,
    (sampleView 104 [sampleParent] []).call fixedBuilder 10 0 .tick,
    spent.call fixedBuilder 10 10 .tick]

/-- A speedup is not found in flight, and a missing input is excused at the height at which the guard of
that moment would have run out. -/
theorem exists_verdict_past_deadline :
    ∃ (cfg : BitcoinSettings) (calls : List Call) (newer older : List Event) (txid : Txid)
      (height : BlockHeight), cfg.validate = .ok () ∧
      (∀ call ∈ calls, call.SeesOneView ∧ call.answers.SpendsRequested) ∧
      OkRun cfg calls World.init (runCalls cfg calls World.init) ∧
      (runCalls cfg calls World.init).log = newer ++ .notFound txid height :: older ∧
      (∀ e ∈ newer, e.renews txid = false) ∧
      ¬ VerdictsFollow txid (height + cfg.monitor.maxMonitoringConfirmations) newer := by
  have hlog := eq_take_event_drop (.notFound replacedCpfp.computeTxid 104)
    (show (runCalls strictSingleSettings maskedCalls World.init).log[17]?.bind Event.moment? =
      some (.notFound replacedCpfp.computeTxid 104) by decide +kernel)
  have hdeferred := event_mem (.deferred replacedCpfp.computeTxid 110)
    (show some (.deferred replacedCpfp.computeTxid 110) ∈
      ((runCalls strictSingleSettings maskedCalls World.init).log.take 17).map Event.moment? by
        decide +kernel)
  refine ⟨strictSingleSettings, maskedCalls, _, _, replacedCpfp.computeTxid, 104, by decide +kernel, ?_,
    okRun_runCalls (by decide +kernel), hlog, by decide +kernel, ?_⟩
  · intro call hcall
    simp only [maskedCalls, List.mem_cons, List.not_mem_nil, or_false] at hcall
    rcases hcall with rfl | rfl | rfl | rfl | rfl | rfl | rfl | rfl <;>
      exact ⟨NodeView.call_seesOneView (by decide +kernel) _ _ _ _,
        plainBuilder_spendsRequested _ _ _ _⟩
  · intro hfollow
    have hbelow := hfollow.deferred 110 hdeferred
    exact absurd hbelow (by decide)

end BitcoinCoordinator
