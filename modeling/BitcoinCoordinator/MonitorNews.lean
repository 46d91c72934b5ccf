import BitcoinCoordinator.FundingSwap
import BitcoinCoordinator.Registrations

/-!
# News of the monitor

A client is not shown the monitor's news about the speedups that the coordinator built. The monitor echoes the
context a transaction was registered with, and the filter looks for the two context strings of speedups in
it. A context that the client chose is echoed as well.
-/

namespace BitcoinCoordinator

open Foundation

variable {ctx : Ctx} {tidy : Prop} {phase : Phase} {w w' : World} {client : List (Txid × String)}

/-- A news item of the monitor. -/
inductive MonitorNews where
  | transaction (txid : Txid) (context : String)
  | other (description : String)
  deriving DecidableEq

/-- True when the pattern stands somewhere in the text. -/
def containsText (text pattern : String) : Bool := decide (pattern.toList <:+: text.toList)

/-- True when a context string holds one of those of the speedups. -/
def isSpeedupContext (context : String) : Bool :=
  containsText context cpfpTransactionContext || containsText context rbfTransactionContext

/-- True for the items a client is shown. -/
def MonitorNews.isShown : MonitorNews → Bool
  | .transaction _ context => !isSpeedupContext context
  | .other _ => true

/-- What a client is shown. -/
structure News where
  monitorNews : List MonitorNews
  coordinatorNews : List CoordinatorNews

/-- All unacknowledged news, without those of the monitor about speedups. -/
def getClientNews (answer : ℕ → Except String (List MonitorNews)) : Coord News := do
  let monitorNews ← query .monitorError fun _ n => answer n
  let coordinatorNews ← getNews
  pure ⟨monitorNews.filter MonitorNews.isShown, coordinatorNews⟩

/-- The speedups that a history stored. -/
def builtTxids (log : List Event) : List Txid := (insertions log).map fun p => p.1.txid

/-- True for an item about one of the given transactions. -/
def MonitorNews.isAbout (txids : List Txid) : MonitorNews → Bool
  | .transaction txid _ => decide (txid ∈ txids)
  | .other _ => false

/-- Whatever items the monitor has, each with a context that its transaction was registered with, a client is
shown those that are not about a speedup the coordinator built. -/
def HidesSpeedups (w : World) : Prop :=
  ∀ (ctx : Ctx) (items : List MonitorNews),
    (∀ txid context, .transaction txid context ∈ items → (txid, context) ∈ watched w.log) →
      getClientNews (fun _ => .ok items) ctx w =
        (.ok ⟨items.filter fun item => !item.isAbout (builtTxids w.log), unacknowledged w.news⟩, w.asked)

/-- The identifiers that the requests of a run registered with the monitor, with the contexts that the client
passed for them. -/
def clientWatched (cfg : BitcoinSettings) : List Call → World → List (Txid × String)
  | [], _ => []
  | call :: rest, w =>
    let after := (exec call.request ⟨cfg, call.answers⟩ w).2
    (call.request.registrations.filter fun p => decide (p ∈ watched (addedSince w.log after.log))) ++
      clientWatched cfg rest after

/-! ### Where a context comes from -/

/-- A context comes from the client, or it is the one of a speedup that was built. -/
def Origin (client : List (Txid × String)) (log : List Event) (p : Txid × String) : Prop :=
  p ∈ client ∨ ∃ record s, .inserted record s ∈ log ∧ p = (record.txid, record.context)

/-- What a history says of its registrations: the monitor is told of contexts with an origin, and what is
stored first comes from the client or is a speedup with a context of its kind. -/
def Entry (client : List (Txid × String)) (e : Event) (older : List Event) : Prop :=
  match e with
  | .monitored data _ => ∀ p ∈ data.pairs, Origin client older p
  | .registering record _ => (record.txid, record.context) ∈ client
  | .inserted record _ => isSpeedupContext record.context
  | _ => True

/-- A record has the identifier and the context of one that was stored first. -/
def Known (log : List Event) (record : CoordinatedTx) : Prop :=
  ∃ first s, (.registering first s ∈ log ∨ .inserted first s ∈ log) ∧
    first.txid = record.txid ∧ first.context = record.context

/-- Every record of every version is known. -/
def RecordsKnown (w : World) : Prop := EveryRecord (Known w.log) w

/-- Every context the run deals with is accounted for. -/
structure Accounted (client : List (Txid × String)) (w : World) : Prop where
  stored : RecordsKnown w
  told : Throughout (Entry client) w.log

/-- A changed record keeps its context. -/
theorem Change.context_eq {log : List Event} {tx tx' : CoordinatedTx}
    (h : Change tidy log tx phase tx') : tx'.context = tx.context := by
  cases h <;> rfl

/-- A record written back keeps its context. -/
theorem Rewrite.context_eq {copy updated : CoordinatedTx} (h : Rewrite copy updated) :
    updated.context = copy.context := by
  cases h <;> rfl

/-- A record with the identifier and context of a known one is known, also later. -/
theorem Known.of_eq {log log' : List Event} {record record' : CoordinatedTx} (h : Known log record)
    (hlog : log ⊆ log') (htxid : record'.txid = record.txid) (hcontext : record'.context = record.context) :
    Known log' record' := by
  obtain ⟨first, s, hfirst, hid, hctx⟩ := h
  exact ⟨first, s, hfirst.imp (@hlog _) (@hlog _), hid.trans htxid.symm, hctx.trans hcontext.symm⟩

/-- Every move keeps the records known. -/
theorem RecordsKnown.move (h : RecordsKnown w) (hmove : Move ctx tidy phase w w') : RecordsKnown w' := by
  have hlog : w.log ⊆ w'.log := hmove.log_suffix.subset
  have hold : EveryRecord (Known w'.log) w :=
    fun s hversion txid tx hget => (h s hversion txid tx hget).of_eq hlog rfl rfl
  apply hold.move hmove
  intro tx hput
  cases hput with
  | changed old _ hget hchange hinfo =>
    exact (hold.current hget).of_eq (List.Subset.refl _) hchange.txid_eq hchange.context_eq
  | vanished old height hget hstep hfrom => exact (hold.current hget).of_eq (List.Subset.refl _) rfl rfl
  | rewrote copy _ hrewrite hread hdrift hnote =>
    exact (hold.copy hread).of_eq (List.Subset.refl _) hrewrite.txid_eq hrewrite.context_eq
  | inserted _ htx hnote => exact ⟨tx, w.store, Or.inr hnote, rfl, rfl⟩
  | registered _ hfresh hkind hnew hnote =>
    exact ⟨tx, w.store, Or.inl (hlog (List.mem_of_head? hnote)), rfl, rfl⟩

/-- What is accounted for stays so after a computation of steps whose registrations are accounted for. -/
theorem Accounted.step {α : Type} {m : Coord α} {P : Event → List Event → Prop} (h : Accounted client w)
    (hsteps : Stepwise False phase m ctx w) (hrecorded : Recorded P w (m ctx w).2)
    (hentry : ∀ e older, w.log <:+ older → e :: older <:+ (m ctx w).2.log → P e older →
      Entry client e older) : Accounted client (m ctx w).2 where
  stored := Stepwise.keeps hsteps (fun _ _ hknown hmove => hknown.move hmove) h.stored rfl
  told := by
    apply GrowsBy.throughout _ h.told
    apply hrecorded.history.mono
    intro e older hsuffix hnew hp
    cases e with
    | monitored data inMempool => exact hentry _ older hsuffix hnew (hp trivial)
    | registering record s => exact hentry _ older hsuffix hnew (hp trivial)
    | inserted record s => exact hentry _ older hsuffix hnew (hp trivial)
    | _ => trivial

/-- What a longer history says has an origin had one. -/
theorem Origin.mono {log log' : List Event} {more : List (Txid × String)} {p : Txid × String}
    (h : Origin client log p) (hclient : client ⊆ more) (hlog : log ⊆ log') : Origin more log' p := by
  rcases h with hmem | ⟨record, s, hinserted, hp⟩
  · exact Or.inl (hclient hmem)
  · exact Or.inr ⟨record, s, hlog hinserted, hp⟩

/-- A client registers no fewer identifiers later. -/
theorem Accounted.mono {more : List (Txid × String)} (h : Accounted client w) (hclient : client ⊆ more) :
    Accounted more w where
  stored := h.stored
  told := by
    intro e older hsuffix
    have hentry := h.told e older hsuffix
    cases e with
    | monitored data inMempool => exact fun p hp => (hentry p hp).mono hclient (List.Subset.refl _)
    | registering record s => exact hclient hentry
    | _ => exact hentry

/-- The context of a stored record has an origin. -/
theorem Accounted.origin (h : Accounted client w) {txid : Txid} {record : CoordinatedTx}
    (hget : w.store.txs.get txid = some record) : Origin client w.log (record.txid, record.context) := by
  obtain ⟨first, s, hfirst, hid, hcontext⟩ := EveryRecord.current h.stored hget
  rw [← hid, ← hcontext]
  rcases hfirst with hregistering | hinserted
  · obtain ⟨newer, older, hsplit⟩ := List.append_of_mem hregistering
    exact Or.inl (h.told _ older ⟨newer, hsplit.symm⟩)
  · exact Or.inr ⟨first, s, hinserted, rfl⟩

/-- What the monitor was told of has an origin. -/
theorem Accounted.watched_origin (h : Accounted client w) {p : Txid × String} (hp : p ∈ watched w.log) :
    Origin client w.log p := by
  obtain ⟨data, inMempool, hmonitored, hpair⟩ := mem_watched.mp hp
  obtain ⟨newer, older, hsplit⟩ := List.append_of_mem hmonitored
  apply (h.told _ older ⟨newer, hsplit.symm⟩ p hpair).mono (List.Subset.refl _)
  rw [hsplit]
  exact List.subset_append_of_subset_right _ (List.subset_cons_self _ _)

/-- A stored speedup has the context of a speedup. -/
theorem Accounted.inserted (h : Accounted client w) {record : CoordinatedTx} {s : Store}
    (hinserted : .inserted record s ∈ w.log) : isSpeedupContext record.context := by
  obtain ⟨newer, older, hsplit⟩ := List.append_of_mem hinserted
  exact h.told _ older ⟨newer, hsplit.symm⟩

/-! ### One call -/

/-- Both context strings are those of speedups. -/
theorem isSpeedupContext_ctxForKind (kind : SpeedupKind) : isSpeedupContext (ctxForKind kind) := by
  unfold ctxForKind
  split <;> decide +kernel

/-- A computation of steps that records no registration. -/
theorem Accounted.silent {α : Type} {m : Coord α} (h : Accounted client w)
    (hsteps : Stepwise False phase m ctx w) [hrecords : Records (fun _ _ => False) m] :
    Accounted client (m ctx w).2 :=
  h.step hsteps (hrecords.related ctx w) fun _ _ _ _ hnever => hnever.elim

/-- A computation of steps that tells the monitor of stored records. -/
theorem Accounted.watches {α : Type} {m : Coord α} (h : Accounted client w)
    (hsteps : Stepwise False phase m ctx w) (hrecorded : Recorded (WatchesStored w.store) w (m ctx w).2) :
    Accounted client (m ctx w).2 := by
  apply h.step hsteps hrecorded
  rintro e older hsuffix - ⟨copy, hget, rfl⟩ p hp
  obtain rfl : p = (copy.txid, copy.context) := by simpa [TypesToMonitor.pairs] using hp
  exact (h.origin hget).mono (List.Subset.refl _) hsuffix.subset

/-- A computation of steps that stores speedups. -/
theorem Accounted.stores {α : Type} {m : Coord α} (h : Accounted client w)
    (hsteps : Stepwise False phase m ctx w) [hrecords : Records StoresSpeedup m] :
    Accounted client (m ctx w).2 := by
  apply h.step hsteps (hrecords.related ctx w)
  rintro e older hsuffix - (⟨record, kind, s, rfl, hcontext⟩ | ⟨record, s, hinserted, rfl⟩)
  · change isSpeedupContext record.context
    rw [hcontext]
    exact isSpeedupContext_ctxForKind kind
  · intro p hp
    obtain rfl : p = (record.txid, record.context) := by simpa [TypesToMonitor.pairs] using hp
    exact Or.inr ⟨record, s, hinserted, rfl⟩

/-- The six steps of a tick account for every context. -/
theorem pipeline_accounted (ctx : Ctx) : Prog.Keeps (Accounted client) pipeline ctx := by
  have hreview : Prog.Keeps (Accounted client) reviewActive ctx := fun w h => h.silent reviewActive_stepwise
  have hspeedups : Prog.Keeps (Accounted client) reviewSpeedups ctx :=
    fun w h => h.silent (reviewSpeedups_stepwise False.elim)
  have hpending : Prog.Keeps (Accounted client) dispatchPending ctx :=
    fun w h => h.watches (stepwise_of_plainly dispatchPending_plainly) (dispatchPending_recorded ctx w)
  have hdispatch : Prog.Keeps (Accounted client) dispatchPendingSpeedups ctx :=
    fun w h => h.watches (stepwise_of_plainly (dispatchPendingSpeedups_plainly False.elim))
      (dispatchPendingSpeedups_recorded ctx w)
  have hboost : ∀ skip, Prog.Keeps (Accounted client) (boostIfStale skip) ctx :=
    fun skip w h => h.stores (boostIfStale_stepwise skip)
  have hcpfp : Prog.Keeps (Accounted client) createCpfpBatch ctx :=
    fun w h => h.stores createCpfpBatch_stepwise
  apply Prog.Keeps.seq hreview
  intro _
  apply Prog.Keeps.seq hspeedups
  intro _
  apply Prog.Keeps.seq hpending
  intro _
  apply Prog.Keeps.seq hdispatch
  intro skip
  exact Prog.Keeps.seq (hboost skip) fun _ => hcpfp

/-- A tick accounts for every context. -/
theorem tick_accounted (ctx : Ctx) : Prog.Keeps (Accounted client) tick ctx := by
  have hquery : ∀ {α : Type} (wrap : String → BitcoinCoordinatorError)
      (question : Answers → ℕ → Except String α), Prog.Keeps (Accounted client) (query wrap question) ctx :=
    fun wrap question w h => h.silent (stepwise_of_calm query_calm : Stepwise False .settle _ ctx w)
  have hcleanup : ∀ height, Prog.Keeps (Accounted client) (cleanupNews height) ctx :=
    fun height w h => h.silent (stepwise_of_calm (cleanupNews_calm height) : Stepwise False .settle _ ctx w)
  apply Prog.Keeps.seq (hquery _ _)
  intro _
  apply Prog.Keeps.seq (hquery _ _)
  intro ready
  apply Prog.Keeps.ite <;> intro _
  · apply Prog.Keeps.seq (hquery _ _)
    intro height
    exact Prog.Keeps.seq (hcleanup height) fun _ => pipeline_accounted ctx
  · exact Prog.Keeps.pure _

/-- A request of the client other than a tick accounts for what it registers. -/
theorem request_accounted {request : Request} (hrequest : request ≠ .tick) (h : Accounted client w) :
    Accounted (client ++ request.registrations.filter fun p =>
      decide (p ∈ watched (addedSince w.log (exec request ctx w).2.log))) (exec request ctx w).2 := by
  apply (h.mono (List.subset_append_left client _)).step (exec_stepwise hrequest)
    (request_recorded hrequest ctx w)
  rintro e older hsuffix hnew (⟨data, inMempool, rfl, hpairs⟩ | ⟨record, s, rfl, hregistered, hwatched⟩)
  · intro p hp
    apply Or.inl
    apply List.mem_append_right
    refine List.mem_filter.mpr ⟨hpairs hp, decide_eq_true ?_⟩
    exact mem_watched.mpr ⟨data, inMempool, mem_addedSince hsuffix hnew, hp⟩
  · apply List.mem_append_right
    refine List.mem_filter.mpr ⟨hregistered, decide_eq_true ?_⟩
    obtain ⟨data, inMempool, hmonitored, hp⟩ := mem_watched.mp hwatched
    exact mem_watched.mpr ⟨data, inMempool,
      addedSince_subset hsuffix ((List.suffix_cons _ _).trans hnew) hmonitored, hp⟩

/-! ### Runs -/

/-- Every run accounts for every context: it comes from the client's requests or from a speedup. -/
theorem runCalls_accounted (cfg : BitcoinSettings) (calls : List Call) (h : Accounted client w) :
    Accounted (client ++ clientWatched cfg calls w) (runCalls cfg calls w) := by
  induction calls generalizing client w with
  | nil =>
    rw [clientWatched, List.append_nil]
    exact h
  | cons call rest ih =>
    rw [clientWatched, ← List.append_assoc]
    apply ih
    by_cases hrequest : call.request = .tick
    · apply Accounted.mono _ (List.subset_append_left client _)
      rw [hrequest]
      exact tick_accounted _ w h
    · exact request_accounted hrequest h

/-- Before the first call there is nothing to account for. -/
theorem accounted_init : Accounted [] World.init where
  stored := by
    rintro s (rfl | ⟨after, hwrote⟩) txid tx hget
    · cases hget
    · cases hwrote
  told := throughout_nil

/-- An identifier is that of a stored speedup. -/
theorem mem_builtTxids {log : List Event} {txid : Txid} :
    txid ∈ builtTxids log ↔ ∃ record s, .inserted record s ∈ log ∧ record.txid = txid := by
  unfold builtTxids
  rw [List.mem_map]
  constructor
  · rintro ⟨p, hp, rfl⟩
    exact ⟨p.1, p.2.1, mem_of_mem_insertions hp, rfl⟩
  · rintro ⟨record, s, hinserted, rfl⟩
    obtain ⟨older, hmem⟩ := exists_mem_insertions hinserted
    exact ⟨_, hmem, rfl⟩

/-- What a longer history was told of includes what a shorter one was. -/
theorem watched_subset {log log' : List Event} (h : log ⊆ log') : watched log ⊆ watched log' := by
  intro p hp
  obtain ⟨data, inMempool, hmonitored, hpair⟩ := mem_watched.mp hp
  exact mem_watched.mpr ⟨data, inMempool, h hmonitored, hpair⟩

/-- The entries before a run are still there after it. -/
theorem runCalls_log_suffix (cfg : BitcoinSettings) (calls : List Call) (w : World) :
    w.log <:+ (runCalls cfg calls w).log := by
  induction calls generalizing w with
  | nil => exact List.suffix_rfl
  | cons call rest ih => exact (exec_recorded call.request _ w).history.suffix.trans (ih _)

/-- The monitor was told of what the client registered. -/
theorem clientWatched_subset (cfg : BitcoinSettings) (calls : List Call) (w : World) :
    clientWatched cfg calls w ⊆ watched (runCalls cfg calls w).log := by
  induction calls generalizing w with
  | nil => exact List.nil_subset _
  | cons call rest ih =>
    intro p hp
    rcases List.mem_append.mp hp with hnow | hlater
    · have hnew := of_decide_eq_true (List.mem_filter.mp hnow).2
      apply watched_subset _ hnew
      exact List.Subset.trans (List.take_subset _ _) (runCalls_log_suffix cfg rest _).subset
    · exact ih _ hlater

/-- What a client is shown in a world. -/
theorem getClientNews_ok (items : List MonitorNews) :
    getClientNews (fun _ => .ok items) ctx w =
      (.ok ⟨items.filter MonitorNews.isShown, unacknowledged w.news⟩, w.asked) := rfl

/-- When the client registers no speedup of the coordinator, the news hide exactly the speedups if and only if
no context that reached the monitor through a request of the client holds the context string of a speedup. -/
theorem hidesSpeedups_iff (cfg : BitcoinSettings) (calls : List Call)
    (hforeign : ∀ p ∈ clientWatched cfg calls World.init,
      p.1 ∉ builtTxids (runCalls cfg calls World.init).log) :
    HidesSpeedups (runCalls cfg calls World.init) ↔
      ∀ p ∈ clientWatched cfg calls World.init, isSpeedupContext p.2 = false := by
  have haccounted : Accounted (clientWatched cfg calls World.init) (runCalls cfg calls World.init) :=
    runCalls_accounted cfg calls accounted_init
  constructor
  · rintro hhides ⟨txid, context⟩ hp
    have hwatched := clientWatched_subset cfg calls World.init hp
    have hshown := hhides newsCtx [.transaction txid context] (by simpa using hwatched)
    have habout : (MonitorNews.transaction txid context).isAbout
        (builtTxids (runCalls cfg calls World.init).log) = false :=
      decide_eq_false (hforeign _ hp)
    have hkept : (MonitorNews.transaction txid context).isShown = true := by
      rw [getClientNews_ok] at hshown
      simpa [habout] using hshown
    simpa [MonitorNews.isShown] using hkept
  · intro hclean ctx items hitems
    rw [getClientNews_ok]
    congr 3
    apply List.filter_congr
    intro item hitem
    cases item with
    | other description => rfl
    | transaction txid context =>
      change (!isSpeedupContext context) = !decide (txid ∈ builtTxids (runCalls cfg calls World.init).log)
      congr 1
      rw [Bool.eq_iff_iff, decide_eq_true_iff, mem_builtTxids]
      rcases haccounted.watched_origin (hitems txid context hitem) with hclient | ⟨record, s, hinserted, hp⟩
      · rw [hclean _ hclient, ← mem_builtTxids]
        simpa using hforeign _ hclient
      · obtain ⟨rfl, rfl⟩ := Prod.mk.inj hp
        exact iff_of_true (haccounted.inserted hinserted) ⟨record, s, hinserted, rfl⟩

/-- Once a CPFP is built for the parent of an example run and both are accepted, the news about the CPFP are
hidden and those about the parent are not. -/
theorem hidesSpeedups_acceptedCalls :
    HidesSpeedups (runCalls defaultSettings acceptedCalls World.init) ∧
      (builtTxids (runCalls defaultSettings acceptedCalls World.init).log).length = 1 :=
  ⟨(hidesSpeedups_iff defaultSettings acceptedCalls (by decide +kernel)).mpr (by decide +kernel),
    by decide +kernel⟩

/-- A client registers a transaction under a context of its own that mentions a context string. -/
def mentionedCalls : List Call :=
  [(sampleView 100 [] []).call (plainBuilder fun _ => 200) 10 0
    (.dispatchWithoutSpeedup sampleParent "replaces CPFP_TRANSACTION 17" none none none)]

/-- News about a transaction of the client are hidden when its context mentions a context string. -/
theorem exists_client_news_hidden :
    ∃ (cfg : BitcoinSettings) (calls : List Call),
      cfg.validate = .ok () ∧ OkRun cfg calls World.init (runCalls cfg calls World.init) ∧
      (∀ call ∈ calls, call.SeesOneView ∧ call.answers.SpendsRequested) ∧
      (∀ p ∈ clientWatched cfg calls World.init, p.1 ∉ builtTxids (runCalls cfg calls World.init).log) ∧
      ¬ HidesSpeedups (runCalls cfg calls World.init) := by
  refine ⟨defaultSettings, mentionedCalls, by decide +kernel, okRun_runCalls (by decide +kernel), ?_,
    by decide +kernel, ?_⟩
  · intro call hcall
    obtain rfl := List.mem_singleton.mp hcall
    exact ⟨NodeView.call_seesOneView (by decide +kernel) _ _ _ _, plainBuilder_spendsRequested _ _ _ _⟩
  · intro hhides
    have hwatched : (1, "replaces CPFP_TRANSACTION 17") ∈
        watched (runCalls defaultSettings mentionedCalls World.init).log := by decide +kernel
    have hshown := hhides newsCtx [.transaction 1 "replaces CPFP_TRANSACTION 17"] (by simpa using hwatched)
    have hitems := congrArg (fun r => r.1.toOption.map News.monitorNews) hshown
    revert hitems
    decide +kernel

end BitcoinCoordinator
