import BitcoinCoordinator.TickBroadcasts

/-!
# What the coordinator spends

A speedup spends funding that a client queued, outputs that a client named with the parents it registered, and the
change of earlier speedups, as long as the builder spends what it is asked to. A transaction that is handed to the
node is one that a client registered, or such a speedup.
-/

namespace BitcoinCoordinator

open Foundation

variable {ctx : Ctx} {tidy : Prop} {phase : Phase} {w w' : World}

/-! ### What builds take -/

/-- What is stored as a speedup takes outputs of known origin only. -/
def Event.IsSourced : Event → Prop
  | .inserted tx before => ∀ op ∈ tx.takes, Source before op
  | _ => True

/-- The speedups stored from one world to the next take outputs of known origin only. -/
def Sources (w w' : World) : Prop := Grows Event.IsSourced w.log w'.log

instance sources_isPreorder : IsPreorder World Sources where
  refl w := Grows.refl w.log
  trans _ _ _ h h' := Grows.trans h h'

/-- Worlds with the same history. -/
theorem sources_of_log_eq (h : w'.log = w.log) : Sources w w' := by
  unfold Sources
  rw [h]
  exact Grows.refl _

/-- One more moment. -/
theorem sources_of_log_cons {e : Event} (h : w'.log = e :: w.log) (he : e.IsSourced) : Sources w w' := by
  unfold Sources
  rw [h]
  exact (Grows.refl _).cons he

/-- A quiet move stores no speedup. -/
theorem Quiet.sources (h : Quiet w w') : Sources w w' := by
  rcases h.log_eq with hlog | ⟨e, hremark, hlog⟩ | hlog
  · exact sources_of_log_eq hlog
  · apply sources_of_log_cons hlog
    cases e <;> first | exact trivial | exact absurd hremark id
  · exact sources_of_log_cons hlog trivial

/-- A plain move stores no speedup. -/
theorem Plain.sources (h : Plain ctx tidy phase w w') : Sources w w' := by
  cases h with
  | quiet hquiet => exact hquiet.sources
  | changed => exact sources_of_log_cons rfl trivial
  | vanished | rewrote => exact ((Grows.refl w.log).cons trivial).cons trivial
  | _ => exact sources_of_log_cons rfl trivial

/-- Outside the build steps no move stores a speedup. -/
theorem Move.sources (h : Move ctx tidy phase w w') (hphase : phase ≠ .build) : Sources w w' := by
  rcases h with hplain | hpart
  · exact hplain.sources
  · cases hpart with
    | inserted | listed => exact absurd rfl hphase
    | _ => exact sources_of_log_cons rfl trivial

/-- A computation of plain moves stores no speedup. -/
theorem sources_of_plainly {α : Type} {m : Coord α} (h : Plainly tidy phase m ctx w) : Sources w (m ctx w).2 :=
  h.keeps (I := fun w' => Sources w w')
    (fun _ _ hsources hplain => IsTrans.trans _ _ _ hsources hplain.sources) (refl w)

/-- Steps outside the build steps store no speedup. -/
theorem sources_of_stepwise {α : Type} {m : Coord α} (h : Stepwise tidy phase m ctx w) (hphase : phase ≠ .build) :
    Sources w (m ctx w).2 :=
  h.traced.keeps (I := fun w' => Sources w w')
    (fun _ _ hsources hmove => IsTrans.trans _ _ _ hsources (hmove.sources hphase)) (refl w)

/-- A quiet computation stores no speedup. -/
theorem sources_of_calm {α : Type} {m : Coord α} (h : Calm m ctx w) : Sources w (m ctx w).2 := by
  have hplain : Plainly False .build m ctx w := plainly_of_calm h
  exact sources_of_plainly hplain

variable {bump : ℚ}

/-- The record of a speedup takes what its builder was asked to spend. -/
theorem BuiltWith.sourced_takes {entries : List (SpeedupData × ℕ)} {pricing : ℕ → Pricing} {start : List Utxo}
    {built : SpeedupBuildResult} {feeInfo : FeeInfo} {kind : SpeedupKind} {height : BlockHeight}
    (hbuilder : ctx.answers.SpendsRequested) (h : BuiltWith ctx (entries.map Prod.fst) pricing start built w)
    (hkind : kind.context = makeSpeedupContext built.fundingInputs bump entries)
    (hinputs : ∀ u ∈ built.fundingInputs, Source w'.store u.outPoint)
    (hdata : ∀ op ∈ (entries.map Prod.fst).filterMap SpeedupData.outPoint?, Source w'.store op) :
    ∀ op ∈ (speedupRecord built.tx feeInfo kind height).takes, Source w'.store op := by
  obtain ⟨n, key, hanswer⟩ := h.answered
  have hrequested : ∀ op ∈ requestedInputs (entries.map Prod.fst) built.fundingInputs, Source w'.store op := by
    intro op hop
    rcases List.mem_append.mp hop with hparent | hinput
    · exact hdata op hparent
    · obtain ⟨u, hu, rfl⟩ := List.mem_map.mp hinput
      exact hinputs u hu
  have hnamed : kind.context.parentData.map Prod.fst = entries.map Prod.fst := by
    rw [hkind]
    simp [makeSpeedupContext]
  have hfunded : kind.context.fundingInputs = built.fundingInputs := by rw [hkind, makeSpeedupContext]
  intro op hop
  rcases List.mem_append.mp hop with hspent | hcredited
  · exact hrequested op ((hbuilder _ _ _ _ _ _ hanswer op).mp hspent)
  · change op ∈ requestedInputs (kind.context.parentData.map Prod.fst) kind.context.fundingInputs at hcredited
    rw [hnamed, hfunded] at hcredited
    exact hrequested op hcredited

/-- Storing and listing a speedup that takes outputs of known origin. -/
theorem insertSpeedup_sources {tx : CoordinatedTx} (h : ∀ op ∈ tx.takes, Source w.store op) :
    Sources w (insertSpeedup tx ctx w).2 := by
  have hend : Inserting tx w (insertSpeedup tx ctx w) := insertSpeedup_inserting tx
  have hheld : Sources w (w.holding tx) := ((Grows.refl w.log).cons trivial).cons h
  generalize insertSpeedup tx ctx w = result at hend
  cases hend with
  | refused stop => exact sources_of_log_eq rfl
  | unlisted stop => exact hheld
  | relisted hlisted => exact IsTrans.trans _ _ _ hheld (sources_of_log_cons rfl trivial)
  | listed =>
    have hlisted : Sources (w.holding tx) ((w.holding tx).written ((w.store.setTx tx).list tx.txid)) :=
      sources_of_log_cons rfl trivial
    exact IsTrans.trans _ _ _ (IsTrans.trans _ _ _ hheld hlisted) (sources_of_log_cons rfl trivial)

/-- Persisting a speedup that takes outputs of known origin. -/
theorem saveSpeedup_sources {tx : Transaction} {feeInfo : FeeInfo} {kind : SpeedupKind} {height : BlockHeight}
    (h : ∀ op ∈ (speedupRecord tx feeInfo kind height).takes, Source w.store op) :
    Sources w (saveSpeedup tx feeInfo kind height ctx w).2 := by
  apply Prog.related_bind (insertSpeedup_sources h)
  intro _ w₁ _
  exact sources_of_calm (monitorWatch_calm _ _)

/-- Saving a planned boost. -/
theorem saveBoost_sources {plan : BoostPlan} {nextBump : ℚ} {built : SpeedupBuildResult} {height : BlockHeight}
    {pricing : ℕ → Pricing} {all : List CoordinatedTx} {start : List Utxo} {s : Store}
    (hbuilder : ctx.answers.SpendsRequested) (hplan : plan.Sound ctx.settings all)
    (hbuilt : BuiltWith ctx (plan.parentEntries.map Prod.fst) pricing start built w) (hready : plan.Ready s w) :
    Sources w (saveBoost plan nextBump built height ctx w).2 := by
  apply Prog.related_bind (refl w)
  intro cfg w₁ hsettings
  obtain ⟨rfl, rfl⟩ := settings_ok.mp hsettings
  apply Prog.related_bind
  · apply saveSpeedup_sources
    apply hbuilt.sourced_takes hbuilder
    · exact (plan.kind_ok built.fundingInputs _).1
    · exact hbuilt.sourced
    · exact fun op hop => BoostPlan.sourced_of_takes hready.last (hplan.data_takes hop)
  · intro _ w₂ _
    apply Prog.related_bind (sources_of_calm (reportIfCapped_calm _ _ _ _))
    intro _ w₃ _
    split
    · have hmark : Plainly False .build (markPredecessorAtCap plan.last.txid ctx.settings.fee.maxFeerateSatVb) ctx w₃ :=
        markPredecessorAtCap_plainly _ rfl
      exact sources_of_plainly hmark
    · exact refl w₃

/-- Building and saving a planned boost. -/
theorem runBoost_sources {plan : BoostPlan} {all : List CoordinatedTx} {height : BlockHeight}
    (hbuilder : ctx.answers.SpendsRequested) (hplan : plan.Sound ctx.settings all)
    (hready : plan.Ready w.store w) : Sources w (runBoost plan all height ctx w).2 := by
  have hsteady := plan.steady_ready w.store
  apply Prog.related_bind (refl w)
  intro cfg w₁ hsettings
  obtain ⟨rfl, rfl⟩ := settings_ok.mp hsettings
  apply Prog.related_bind (sources_of_calm getNetworkFeeRate_calm)
  intro fee w₂ hfee
  apply Prog.related_bind (sources_of_calm (publishFeeNews_calm _))
  intro _ w₃ hnews
  have hready₃ := (hsteady.publishFeeNews _).run (hsteady.getNetworkFeeRate.run hready hfee) hnews
  have hplain : Plainly False .build (buildSpeedup plan.parentEntries plan.rbfInitialInputs
      (plan.context.bumpFeeUsed * ctx.settings.speedup.bumpFeePercentage)
      (boostFeeRate fee.1 plan.last.feeInfo.packageFeeRate)
      (chainFeeDiff (boostFeeRate fee.1 plan.last.feeInfo.packageFeeRate)
        (all.filter (isLiveInMempool all))).1) ctx w₃ := buildSpeedup_plainly
  apply Prog.related_bind (sources_of_plainly hplain)
  intro built w₄ hbuild
  cases built with
  | none => exact refl w₄
  | some built =>
    obtain ⟨start, hbuilt, -⟩ := buildSpeedup_ok (fun inputs hinputs u hu =>
      BoostPlan.sourced_of_takes hready₃.last (hplan.initial_takes hinputs hu)) hbuild
    have hready₄ := (buildSpeedup_keeps hsteady (plan.setSpent_keeps_ready w₁.store)).run hready₃ hbuild
    exact saveBoost_sources hbuilder hplan hbuilt hready₄

/-- Step 5. -/
theorem boostIfStale_sources (hbuilder : ctx.answers.SpendsRequested) (skip : Bool) :
    Sources w (boostIfStale skip ctx w).2 := by
  unfold boostIfStale
  split
  · exact refl w
  · apply Prog.related_bind (refl w)
    intro cfg w₁ hsettings
    obtain ⟨rfl, rfl⟩ := settings_ok.mp hsettings
    apply Prog.related_bind (sources_of_calm query_calm)
    intro height w₂ _
    apply Prog.related_bind (refl w₂)
    intro all w₃ hread
    obtain ⟨rfl, rfl⟩ := readStore_ok.mp hread
    cases hplan : planBoost ctx.settings w₃.store.speedupsOrdered height with
    | none => exact refl w₃
    | some plan =>
      have hsound := planBoost_sound hplan
      apply Prog.related_bind
      · exact sources_of_log_cons rfl trivial
      · intro _ w₄ hnote
        obtain rfl := note_ok.mp hnote
        apply runBoost_sources hbuilder hsound
        refine ⟨⟨plan.last, (mem_speedupsOrdered hsound.mem).2, hsound.keeps⟩, ?_, rfl⟩
        intro txid hlisted tx hget
        exact hsound.idle tx (List.mem_filterMap.mpr ⟨txid, hlisted, hget⟩)

/-- Saving the CPFP of a batch. -/
theorem saveCpfpBatch_sources {batch : List CoordinatedTx} {built : SpeedupBuildResult} {pricing : ℕ → Pricing}
    {start : List Utxo} (hbuilder : ctx.answers.SpendsRequested) (hopen : BatchOpen batch w)
    (hbuilt : BuiltWith ctx ((parentEntriesOf batch).map Prod.fst) pricing start built w) :
    Sources w (saveCpfpBatch batch bump built ctx w).2 := by
  have htake : ∀ w, Calm (Prog.forEach batch takePendingParent) ctx w :=
    fun w => Prog.Reaches.forEach fun parent _ _ => takePendingParent_calm parent
  apply Prog.related_bind (sources_of_calm (htake w))
  intro _ w₁ htaken
  apply Prog.related_bind (sources_of_calm (reportIfCapped_calm _ _ _ _))
  intro _ w₂ hreport
  apply Prog.related_bind (sources_of_calm query_calm)
  intro height w₃ hheight
  have hkept : ∀ op, Source w.store op → Source w₃.store op := by
    intro op hsource
    have htaking : Prog.Keeps (Sourced op) (Prog.forEach batch takePendingParent) ctx :=
      Prog.Keeps.forEach fun parent _ => takePendingParent_keeps_sourced op parent
    exact (steady_sourced op).query.run
      ((steady_sourced op).reportIfCapped.run (htaking.run hsource htaken) hreport) hheight
  apply saveSpeedup_sources
  apply hbuilt.sourced_takes hbuilder rfl
  · exact fun u hu => hkept _ (hbuilt.sourced u hu)
  · exact fun op hop => hkept op (sourced_of_parents hopen.ready hop)

/-- Building and saving the CPFP of the next batch. -/
theorem runCpfpBatch_sources {parents : List CoordinatedTx} (unconfirmed : List CoordinatedTx)
    (hbuilder : ctx.answers.SpendsRequested) (hopen : BatchOpen parents w) :
    Sources w (runCpfpBatch parents unconfirmed ctx w).2 := by
  apply Prog.related_bind (refl w)
  intro cfg w₁ hsettings
  obtain ⟨rfl, rfl⟩ := settings_ok.mp hsettings
  apply Prog.related_bind (sources_of_calm getNetworkFeeRate_calm)
  intro fee w₂ hfee
  apply Prog.related_bind (sources_of_calm (publishFeeNews_calm _))
  intro _ w₃ hnews
  cases hlast : (ctx.settings.dispatcher.batchByWeight parents 1).getLast? with
  | none => exact refl w₃
  | some batch =>
    by_cases hbatch : parentEntriesOf batch = []
    · simp only [hbatch, if_true]
      exact refl w₃
    · simp only [hbatch, if_false]
      have hopen₃ := batchOpen_of_calm (publishFeeNews_calm _)
        (batchOpen_of_calm getNetworkFeeRate_calm hopen hfee) hnews
      have hsub := batchByWeight_sublist (List.mem_of_getLast? hlast)
      have hpart : BatchOpen batch w₃ := by
        refine ⟨fun parent hparent => hopen₃.ready parent (hsub.subset hparent), ?_, hopen₃.idle⟩
        rcases hopen₃.chosen with hnodup | ⟨s, hversion, hlisted⟩
        · exact Or.inl (List.Nodup.sublist (hsub.map _) hnodup)
        · exact Or.inr ⟨s, hversion, (hsub.map _).trans hlisted⟩
      have hplain : Plainly False .build (buildSpeedup (parentEntriesOf batch) none ctx.settings.fee.baseFeeMultiplier
          fee.1 (chainFeeDiff fee.1 unconfirmed).1) ctx w₃ := buildSpeedup_plainly
      apply Prog.related_bind (sources_of_plainly hplain)
      intro built w₄ hbuild
      cases built with
      | none => exact refl w₄
      | some built =>
        obtain ⟨start, hbuilt, -⟩ := buildSpeedup_ok (fun inputs hnone => by cases hnone) hbuild
        exact saveCpfpBatch_sources hbuilder (buildSpeedup_keeps_open.run hpart hbuild) hbuilt

/-- Step 6. -/
theorem createCpfpBatch_sources (hbuilder : ctx.answers.SpendsRequested) :
    Sources w (createCpfpBatch ctx w).2 := by
  apply Prog.related_bind (refl w)
  intro cfg w₁ hsettings
  obtain ⟨rfl, rfl⟩ := settings_ok.mp hsettings
  apply Prog.related_bind (sources_of_calm getPendingSpeedupParents_calm)
  intro parents w₂ hpending
  apply Prog.related_bind (refl w₂)
  intro all w₃ hread
  obtain ⟨rfl, rfl⟩ := readStore_ok.mp hread
  split
  · exact refl w₃
  · next hnone =>
    apply runCpfpBatch_sources _ hbuilder
    refine ⟨collectPendingParents_ok hpending, ?_, ?_⟩
    · refine Or.inr ⟨w₁.store, ?_, collectPendingParents_sublist hpending⟩
      have hsteps : Stepwise False .build getPendingSpeedupParents ctx w₁ :=
        stepwise_of_calm getPendingSpeedupParents_calm
      have hkeeps : ∀ w₂ w₃, w₂.HasVersion w₁.store → Move ctx False .build w₂ w₃ → w₃.HasVersion w₁.store :=
        fun _ _ hversion hmove => hversion.move hmove
      exact Stepwise.keeps hsteps hkeeps (Or.inl rfl) hpending
    · intro txid hlisted tx hget hstate
      apply hnone
      refine Or.inr (Or.inl (List.any_eq_true.mpr ⟨tx, ?_, by simpa using hstate⟩))
      exact List.mem_filterMap.mpr ⟨txid, hlisted, hget⟩

/-- A tick stores speedups that take outputs of known origin only. -/
theorem tick_sources (hbuilder : ctx.answers.SpendsRequested) : Sources w (tick ctx w).2 := by
  have hsettle : ∀ {α : Type} {m : Coord α} {w : World}, Stepwise False .settle m ctx w → Sources w (m ctx w).2 :=
    fun h => sources_of_stepwise h (by simp)
  apply Prog.related_bind (sources_of_calm query_calm)
  intro _ w₁ _
  apply Prog.related_bind (sources_of_calm query_calm)
  intro ready w₂ _
  split
  · apply Prog.related_bind (sources_of_calm query_calm)
    intro height w₃ _
    apply Prog.related_bind (sources_of_calm (cleanupNews_calm height))
    intro _ w₄ _
    apply Prog.related_bind (hsettle reviewActive_stepwise)
    intro _ w₅ _
    apply Prog.related_bind (hsettle (reviewSpeedups_stepwise fun h => absurd h id))
    intro _ w₆ _
    apply Prog.related_bind (hsettle (stepwise_of_plainly dispatchPending_plainly))
    intro _ w₇ _
    apply Prog.related_bind (hsettle (stepwise_of_plainly (dispatchPendingSpeedups_plainly fun h => absurd h id)))
    intro failed w₈ _
    apply Prog.related_bind (boostIfStale_sources hbuilder failed)
    intro _ w₉ _
    exact createCpfpBatch_sources hbuilder
  · exact refl w₂

/-- Every request stores speedups that take outputs of known origin only. -/
theorem exec_sources (hbuilder : ctx.answers.SpendsRequested) (request : Request) :
    Sources w (exec request ctx w).2 := by
  by_cases hrequest : request = .tick
  · subst hrequest
    exact tick_sources hbuilder
  · have hsteps : Stepwise False .serve (exec request) ctx w := exec_stepwise hrequest
    exact sources_of_stepwise hsteps (by simp)

/-- Every speedup that a run stores takes outputs of known origin only. -/
theorem sources_runCalls (cfg : BitcoinSettings) (calls : List Call)
    (hbuilder : ∀ call ∈ calls, call.answers.SpendsRequested) :
    Sources World.init (runCalls cfg calls World.init) := by
  induction calls using List.reverseRecOn with
  | nil => exact refl _
  | append_singleton calls call ih =>
    rw [runCalls_concat]
    have hbefore := ih fun earlier hearlier => hbuilder earlier (List.mem_append_left _ hearlier)
    have hcall : call.answers.SpendsRequested := hbuilder call (List.mem_append_right _ (List.mem_singleton.mpr rfl))
    have hlast : Sources (runCalls cfg calls World.init)
        (exec call.request ⟨cfg, call.answers⟩ (runCalls cfg calls World.init)).2 := exec_sources hcall call.request
    exact IsTrans.trans _ _ _ hbefore hlast

/-! ### What is entrusted -/

/-- The outputs that the coordinator was given to spend, or made. -/
inductive IsEntrusted (log : List Event) (op : OutPoint) : Prop where
  /-- A client queued it as funding. -/
  | funding (utxo : Utxo) (s : Store) (hadded : .addingFunding utxo s ∈ log) (hop : utxo.outPoint = op)
  /-- A client named it with a parent. -/
  | anchor (parent : CoordinatedTx) (data : SpeedupData) (s : Store) (hregistered : .registering parent s ∈ log)
      (hkind : parent.kind = .needsSpeedup data) (hop : data.outPoint? = some op)
  /-- A speedup that was built has it. -/
  | change (hbuilt : IsBuilt log op.txid)

/-- What is entrusted stays so. -/
theorem IsEntrusted.mono {log log' : List Event} {op : OutPoint} (h : IsEntrusted log op) (hlog : log ⊆ log') :
    IsEntrusted log' op := by
  cases h with
  | funding utxo s hadded hop => exact IsEntrusted.funding utxo s (hlog hadded) hop
  | anchor parent data s hregistered hkind hop =>
    exact IsEntrusted.anchor parent data s (hlog hregistered) hkind hop
  | change hbuilt =>
    obtain ⟨record, s, hmem, hid⟩ := hbuilt
    exact IsEntrusted.change ⟨record, s, hlog hmem, hid⟩

/-- A record has a transaction that was registered or built, and takes, or names, entrusted outputs only. -/
structure CoordinatedTx.IsTrusted (log : List Event) (tx : CoordinatedTx) : Prop extends tx.HasOrigin log where
  takes : tx.speedup?.isSome → ∀ op ∈ tx.takes, IsEntrusted log op
  names : ∀ data, tx.kind = .needsSpeedup data → ∀ op, data.outPoint? = some op → IsEntrusted log op

/-- Only the kind of a parent has no marks to lose and is that of a parent. -/
theorem TxKind.unmarked_eq_needsSpeedup {kind : TxKind} {data : SpeedupData} :
    kind.unmarked = .needsSpeedup data ↔ kind = .needsSpeedup data := by
  cases kind <;> simp [TxKind.unmarked]

/-- Marks do not show in what a record takes. -/
theorem CoordinatedTx.takes_of_body {tx tx' : CoordinatedTx} (h : tx'.body = tx.body) : tx'.takes = tx.takes := by
  obtain ⟨htx, hkind⟩ := Prod.mk.inj h
  have hunmarked : ∀ tx : CoordinatedTx, tx.takes = { tx with kind := tx.kind.unmarked : CoordinatedTx }.takes := by
    intro tx
    cases hkind : tx.kind with
    | speedup kind =>
      simp only [CoordinatedTx.takes, CoordinatedTx.speedup?, hkind, TxKind.unmarked]
      cases kind <;> rfl
    | _ => simp only [CoordinatedTx.takes, CoordinatedTx.speedup?, hkind, TxKind.unmarked]
  rw [hunmarked tx', hunmarked tx]
  simp only [CoordinatedTx.takes, CoordinatedTx.speedup?, htx, hkind]

/-- A record with the identifier and the body of a trusted one is trusted, also later. -/
theorem CoordinatedTx.IsTrusted.of_body {log log' : List Event} {tx tx' : CoordinatedTx} (h : tx.IsTrusted log)
    (hlog : log ⊆ log') (htxid : tx'.txid = tx.txid) (hbody : tx'.body = tx.body) : tx'.IsTrusted log' where
  toHasOrigin := h.toHasOrigin.of_body hlog htxid hbody
  takes hkind op hop := by
    rw [CoordinatedTx.takes_of_body hbody] at hop
    exact (h.takes (CoordinatedTx.isSome_speedup?_of_body hbody hkind) op hop).mono hlog
  names data hkind op hop := by
    have hold : tx.kind.unmarked = .needsSpeedup data :=
      (congrArg Prod.snd hbody).symm.trans (TxKind.unmarked_eq_needsSpeedup.mpr hkind)
    exact (h.names data (TxKind.unmarked_eq_needsSpeedup.mp hold) op hop).mono hlog

/-- Every funding record of the queue is of an entrusted output. -/
def QueuesEntrusted (w : World) : Prop :=
  ∀ op record, w.store.funding op = some record → IsEntrusted w.log record.utxo.outPoint

/-- An output of known origin is entrusted, when the records and the queue are. -/
theorem Source.isEntrusted {op : OutPoint} (h : Source w.store op) (horigins : OriginsKnown w)
    (hrecords : EveryRecord (CoordinatedTx.IsTrusted w.log) w) (hqueue : QueuesEntrusted w) :
    IsEntrusted w.log op := by
  cases h with
  | change tip hget hspeedup _ =>
    have hbuilt := (horigins.current hget).speedup hspeedup
    rw [w.store.keyed _ _ hget] at hbuilt
    exact IsEntrusted.change hbuilt
  | queued record hqueued hop =>
    obtain ⟨queued, -, hget⟩ := List.mem_filterMap.mp hqueued
    rw [← hop]
    exact hqueue queued record hget
  | parent tx data hget hkind _ hop => exact (hrecords.current hget).names data hkind op hop
  | inherited last hget hspeedup _ hop => exact (hrecords.current hget).takes hspeedup op hop

/-! ### The queue -/

/-- The history grows, and no new output enters the queue. -/
structure KeepsQueue (w w' : World) : Prop where
  log : w.log <:+ w'.log
  queue : ∀ op record, w'.store.funding op = some record →
    ∃ op' old, w.store.funding op' = some old ∧ old.utxo = record.utxo

instance keepsQueue_isPreorder : IsPreorder World KeepsQueue where
  refl _ := ⟨List.suffix_rfl, fun op record hget => ⟨op, record, hget, rfl⟩⟩
  trans _ _ _ h h' := by
    refine ⟨h.log.trans h'.log, fun op record hget => ?_⟩
    obtain ⟨op₁, between, hget₁, hutxo₁⟩ := h'.queue op record hget
    obtain ⟨op₂, old, hget₂, hutxo₂⟩ := h.queue op₁ between hget₁
    exact ⟨op₂, old, hget₂, hutxo₂.trans hutxo₁⟩

/-- A queue without new outputs stays entrusted. -/
theorem QueuesEntrusted.kept (h : QueuesEntrusted w) (hkeeps : KeepsQueue w w') : QueuesEntrusted w' := by
  intro op record hget
  obtain ⟨op', old, hold, hutxo⟩ := hkeeps.queue op record hget
  rw [← hutxo]
  exact (h op' old hold).mono hkeeps.log.subset

/-- The queue is left alone. -/
theorem keepsQueue_of_funding_eq (hlog : w.log <:+ w'.log) (h : w'.store.funding = w.store.funding) :
    KeepsQueue w w' :=
  ⟨hlog, fun op record hget => ⟨op, record, by rw [← h]; exact hget, rfl⟩⟩

/-- A plain move puts nothing into the queue. -/
theorem Plain.keepsQueue (h : Plain ctx tidy phase w w') : KeepsQueue w w' := by
  have hlog := (Move.plain h).log_suffix
  cases h with
  | quiet hquiet =>
    cases hquiet with
    | wrote s hwrite =>
      cases hwrite with
      | unpended txid => exact keepsQueue_of_funding_eq hlog rfl
      | flagged op record hget spent =>
        refine ⟨hlog, fun op' record' hget' => ?_⟩
        change (if op' = op then some { record with spent := spent } else w.store.funding op') = some record' at hget'
        split at hget'
        · cases hget'
          exact ⟨op, record, hget, rfl⟩
        · exact ⟨op', record', hget', rfl⟩
    | _ => exact keepsQueue_of_funding_eq hlog rfl
  | _ => exact keepsQueue_of_funding_eq hlog rfl

/-- A write that leaves the queue alone. -/
theorem writeStore_keepsQueue {f : Store → Store} (h : ∀ s, (f s).funding = s.funding) :
    Prog.Within KeepsQueue (writeStore f) where
  related ctx w := by
    unfold writeStore
    split
    · exact keepsQueue_of_funding_eq (List.suffix_cons _ _) (h w.store)
    · exact keepsQueue_of_funding_eq List.suffix_rfl rfl

/-- A noted moment leaves the queue alone. -/
instance note_keepsQueue {e : Store → Event} : Prog.Within KeepsQueue (note e) where
  related _ _ := keepsQueue_of_funding_eq (List.suffix_cons _ _) rfl

instance readStore_keepsQueue {α : Type} {f : Store → α} : Prog.Within KeepsQueue (readStore f) := Prog.Within.read

instance insertTx_keepsQueue {tx : CoordinatedTx} : Prog.Within KeepsQueue (insertTx tx) :=
  writeStore_keepsQueue fun _ => rfl

instance removeSpeedupFromList_keepsQueue {txid : Txid} : Prog.Within KeepsQueue (removeSpeedupFromList txid) := by
  have hwrite : ∀ list : List Txid, Prog.Within KeepsQueue
      (writeStore fun s => { s with speedupList := list }) := fun _ => writeStore_keepsQueue fun _ => rfl
  unfold removeSpeedupFromList
  infer_instance

instance removeTx_keepsQueue {txid : Txid} : Prog.Within KeepsQueue (removeTx txid) := by
  have herase : Prog.Within KeepsQueue (writeStore fun s => s.eraseTx txid) := writeStore_keepsQueue fun _ => rfl
  unfold removeTx
  infer_instance

instance storeRegistered_keepsQueue {record : CoordinatedTx} :
    Prog.Within KeepsQueue (storeRegistered record) := by
  have hpend : Prog.Within KeepsQueue (addPendingSpeedupParent record.txid) := by
    have hwrite : ∀ list : List Txid, Prog.Within KeepsQueue
        (writeStore fun s => { s with pendingSpeedupParents := list }) := fun _ => writeStore_keepsQueue fun _ => rfl
    unfold addPendingSpeedupParent
    infer_instance
  unfold storeRegistered
  infer_instance

instance insertSpeedup_keepsQueue {tx : CoordinatedTx} : Prog.Within KeepsQueue (insertSpeedup tx) := by
  have hlist : Prog.Within KeepsQueue (appendToSpeedupList tx.txid) := by
    have hwrite : ∀ list : List Txid, Prog.Within KeepsQueue
        (writeStore fun s => { s with speedupList := list }) := fun _ => writeStore_keepsQueue fun _ => rfl
    unfold appendToSpeedupList
    infer_instance
  unfold insertSpeedup putTx
  infer_instance

/-- The queue is entrusted, and so is an output that is about to enter it. -/
structure Grants (op : OutPoint) (w : World) : Prop where
  queue : QueuesEntrusted w
  entrusted : IsEntrusted w.log op

/-- A write that puts no other output into the queue. -/
theorem writeStore_keeps_grants {op : OutPoint} {f : Store → Store}
    (h : ∀ s op' record, (f s).funding op' = some record →
      s.funding op' = some record ∨ record.utxo.outPoint = op) : Prog.Keeps (Grants op) (writeStore f) ctx := by
  intro w hgrants
  unfold writeStore
  split
  · have hlog : w.log ⊆ (w.written (f w.store)).log := List.subset_cons_self _ _
    refine ⟨fun op' record hget => ?_, hgrants.entrusted.mono hlog⟩
    rcases h w.store op' record hget with hold | hnew
    · exact (hgrants.queue op' record hold).mono hlog
    · rw [hnew]
      exact hgrants.entrusted.mono hlog
  · exact ⟨hgrants.queue, hgrants.entrusted⟩

/-- Dropping a funding record. -/
theorem eraseFunding_keeps_grants {op dropped : OutPoint} :
    Prog.Keeps (Grants op) (writeStore fun s => s.eraseFunding dropped) ctx := by
  apply writeStore_keeps_grants
  intro s op' record hget
  change (if op' = dropped then none else s.funding op') = some record at hget
  split at hget
  · cases hget
  · exact Or.inl hget

/-- Storing the funding record of the output. -/
theorem setFunding_keeps_grants {op : OutPoint} {new : FundingData} (hnew : new.utxo.outPoint = op) :
    Prog.Keeps (Grants op) (writeStore fun s => s.setFunding op new) ctx := by
  apply writeStore_keeps_grants
  intro s op' record hget
  change (if op' = op then some new else s.funding op') = some record at hget
  split at hget
  · cases hget
    exact Or.inr hnew
  · exact Or.inl hget

/-- Storing the order of the queue. -/
theorem setFundingList_keeps_grants {op : OutPoint} {list : List OutPoint} :
    Prog.Keeps (Grants op) (writeStore fun s => { s with fundingList := list }) ctx :=
  writeStore_keeps_grants fun _ _ _ hget => Or.inl hget

/-- Queueing a client's output queues an entrusted one. -/
theorem appendFunding_queuesEntrusted {utxo : Utxo} (h : QueuesEntrusted w) :
    QueuesEntrusted (appendFunding utxo ctx w).2 := by
  have hqueue : KeepsQueue w (w.noted (.addingFunding utxo w.store)) :=
    keepsQueue_of_funding_eq (List.suffix_cons _ _) rfl
  have hnoted : Grants utxo.outPoint (w.noted (.addingFunding utxo w.store)) :=
    ⟨h.kept hqueue, IsEntrusted.funding utxo w.store List.mem_cons_self rfl⟩
  have hrest : Prog.Keeps (Grants utxo.outPoint) (do
      writeStore fun s => s.setFunding utxo.outPoint ⟨utxo, false, false⟩
      let list ← readStore Store.fundingList
      if utxo.outPoint ∈ list then pure ()
      else writeStore fun s => { s with fundingList := list ++ [utxo.outPoint] } : Coord Unit) ctx := by
    refine Prog.Keeps.seq (setFunding_keeps_grants rfl) fun _ => ?_
    refine Prog.Keeps.seq (Prog.Keeps.read _) fun list => ?_
    exact Prog.Keeps.ite (fun _ => Prog.Keeps.pure _) fun _ => setFundingList_keeps_grants
  exact (hrest _ hnoted).queue

/-- Swapping an entrusted change output into the queue. -/
theorem swapQueued_keeps_grants (txid : Txid) (change : Utxo) (spent : Bool) (positions : List ℕ)
    (list : List OutPoint) :
    Prog.Keeps (Grants change.outPoint) (swapQueued txid change spent positions list) ctx := by
  have hdrop : ∀ positions list, Prog.Keeps (Grants change.outPoint) (dropQueued positions list) ctx := by
    intro positions
    induction positions with
    | nil => exact fun _ => Prog.Keeps.pure _
    | cons idx rest ih =>
      intro list
      unfold dropQueued
      split
      · exact Prog.Keeps.stop _
      · exact Prog.Keeps.seq eraseFunding_keeps_grants fun _ => ih _
  unfold swapQueued
  split
  · exact Prog.Keeps.pure _
  · refine Prog.Keeps.seq (hdrop _ _) fun _ => ?_
    refine Prog.Keeps.seq (setFunding_keeps_grants rfl) fun _ => ?_
    refine Prog.Keeps.seq setFundingList_keeps_grants fun _ w hgrants => ?_
    have hkeeps : KeepsQueue w (removeSpeedupFromList txid ctx w).2 := Prog.Within.related ctx w
    exact ⟨hgrants.queue.kept hkeeps, hgrants.entrusted.mono hkeeps.log.subset⟩

/-- Swapping a finalized speedup into the queue queues an output of a speedup that was built. -/
theorem replaceFundingOnFinalize_queuesEntrusted {txid : Txid} (horigins : OriginsKnown w)
    (h : QueuesEntrusted w) : QueuesEntrusted (replaceFundingOnFinalize txid ctx w).2 := by
  have hkeeps : KeepsQueue w (w.noted (.finalizing txid w.store)) :=
    keepsQueue_of_funding_eq (List.suffix_cons _ _) rfl
  have hnoted := h.kept hkeeps
  have hnote : note (.finalizing txid) ctx w = (.ok (), w.noted (.finalizing txid w.store)) := rfl
  have hread : getTxById txid ctx (w.noted (.finalizing txid w.store)) =
      (.ok (w.store.txs.get txid), w.noted (.finalizing txid w.store)) := rfl
  unfold replaceFundingOnFinalize
  rw [Prog.bind_of_ok hnote, Prog.bind_of_ok hread]
  cases hget : w.store.txs.get txid with
  | none => exact hnoted
  | some tx =>
    dsimp only
    cases hchange : tx.speedupChangeUtxo with
    | error stop => cases stop <;> exact hnoted
    | ok change =>
      dsimp only
      cases hkind : tx.speedupKind with
      | error error => exact hnoted
      | ok kind =>
        have hspeedup : tx.speedup?.isSome := by
          rw [CoordinatedTx.speedupKind_ok.mp hkind]
          rfl
        have hbuilt := (horigins.current hget).speedup hspeedup
        rw [← (CoordinatedTx.speedupChangeUtxo_ok hchange).1] at hbuilt
        have hgrants : Grants change.outPoint (w.noted (.finalizing txid w.store)) :=
          ⟨hnoted, (IsEntrusted.change hbuilt).mono (List.subset_cons_self _ _)⟩
        exact (swapQueued_keeps_grants _ _ _ _ _ _ hgrants).queue

/-! ### What every step keeps -/

/-- What was stored as a speedup takes entrusted outputs only. -/
def BuildsEntrusted (log : List Event) : Prop :=
  ∀ tx before, .inserted tx before ∈ log → ∀ op ∈ tx.takes, IsEntrusted log op

/-- When no speedup is stored, what was stored takes entrusted outputs only. -/
theorem BuildsEntrusted.of_insertions_eq {log log' : List Event} (h : BuildsEntrusted log) (hlog : log ⊆ log')
    (hsame : insertions log' = insertions log) : BuildsEntrusted log' := by
  intro tx before hmem op hop
  obtain ⟨older, hinsertion⟩ := exists_mem_insertions hmem
  rw [hsame] at hinsertion
  exact (h tx before (mem_of_mem_insertions hinsertion) op hop).mono hlog

/-- Moves keep every record trusted by a history that goes on to the end of them. -/
theorem trusted_moves {log : List Event} (hbuilds : BuildsEntrusted log)
    (hmoves : Relation.ReflTransGen (Move ctx tidy phase) w w') (hlog : w'.log ⊆ log)
    (h : EveryRecord (CoordinatedTx.IsTrusted log) w) : EveryRecord (CoordinatedTx.IsTrusted log) w' := by
  induction hmoves with
  | refl => exact h
  | @tail w₁ w₂ _ hlast ih =>
    have hbefore := ih (List.Subset.trans hlast.log_suffix.subset hlog)
    have hkept : EveryRecord ((fun _ => CoordinatedTx.IsTrusted log) w₂.log) w₂ := by
      apply everyRecord_of_body (P := fun _ => CoordinatedTx.IsTrusted log) hbefore hlast
      · exact fun _ _ _ _ htrusted _ htxid hbody => htrusted.of_body (List.Subset.refl _) htxid hbody
      · intro tx htx hnote
        obtain ⟨kind, hkind, -⟩ := htx.funded
        refine ⟨CoordinatedTx.HasOrigin.of_inserted htx (hlog hnote), fun _ => hbuilds tx _ (hlog hnote), ?_⟩
        intro data hneeds
        simp [CoordinatedTx.speedup?, hneeds] at hkind
      · intro tx hkind hnote
        refine ⟨CoordinatedTx.HasOrigin.of_registering hkind (hlog hnote), fun hsome => ?_, ?_⟩
        · rw [hkind] at hsome
          cases hsome
        · exact fun data hneeds op hop => IsEntrusted.anchor tx data w₁.store (hlog hnote) hneeds hop
    exact hkept

/-- Every record is trusted, and so are the queue and what was built. -/
structure Trusts (w : World) : Prop where
  sourced : ∀ e ∈ w.log, e.IsSourced
  origins : OriginsKnown w
  records : EveryRecord (CoordinatedTx.IsTrusted w.log) w
  queue : QueuesEntrusted w
  builds : BuildsEntrusted w.log

/-- After moves everything is trusted, once the queue and what was built are. -/
theorem Trusts.moves (h : Trusts w) (hmoves : Relation.ReflTransGen (Move ctx tidy phase) w w')
    (hsourced : ∀ e ∈ w'.log, e.IsSourced) (hqueue : QueuesEntrusted w') (hbuilds : BuildsEntrusted w'.log) :
    Trusts w' := by
  have hlog := log_suffix_moves hmoves
  have hstart : EveryRecord (CoordinatedTx.IsTrusted w'.log) w :=
    fun s hversion txid tx hget => (h.records s hversion txid tx hget).of_body hlog.subset rfl rfl
  exact ⟨hsourced, origins_moves hmoves h.origins, trusted_moves hbuilds hmoves (List.Subset.refl _) hstart,
    hqueue, hbuilds⟩

/-- A plain move keeps everything trusted. -/
theorem Trusts.plain (h : Trusts w) (hplain : Plain ctx tidy phase w w') (hsourced : ∀ e ∈ w'.log, e.IsSourced) :
    Trusts w' :=
  h.moves (Relation.ReflTransGen.single (Move.plain hplain)) hsourced (h.queue.kept hplain.keepsQueue)
    (h.builds.of_insertions_eq (Move.plain hplain).log_suffix.subset hplain.insertions_eq)

/-- Outside the build steps no operation stores a speedup. -/
theorem insertions_moves (hphase : phase ≠ .build) (hmoves : Relation.ReflTransGen (Move ctx tidy phase) w w') :
    insertions w'.log = insertions w.log := by
  induction hmoves with
  | refl => rfl
  | tail _ hlast ih =>
    rcases hlast.insertions_cases with hsame | ⟨hbuild, -⟩
    · exact hsame.trans ih
    · exact absurd hbuild hphase

/-- Storing and listing a speedup stores no other one. -/
theorem Inserting.inserted_cases {tx tx' : CoordinatedTx} {before : Store} {r : Except Stop Unit}
    (h : Inserting tx w (r, w')) (hmem : .inserted tx' before ∈ w'.log) :
    .inserted tx' before ∈ w.log ∨ tx' = tx ∧ before = w.store := by
  have hheld : .inserted tx' before ∈ (w.holding tx).log →
      .inserted tx' before ∈ w.log ∨ tx' = tx ∧ before = w.store := by
    intro hin
    simpa [World.holding, World.written, World.noted, or_comm] using hin
  cases h with
  | refused stop => exact Or.inl hmem
  | unlisted stop => exact hheld hmem
  | relisted hlisted => exact hheld (by simpa [World.noted] using hmem)
  | listed => exact hheld (by simpa [World.noted, World.written] using hmem)

/-- An operation of several writes keeps everything trusted, also when it stops on its way. -/
theorem Trusts.whole {r : Except Stop Unit} (h : Trusts w) (hwhole : Whole ctx tidy r phase w w')
    (hsourced : ∀ e ∈ w'.log, e.IsSourced) : Trusts w' := by
  have hmoves := hwhole.moves
  have hlog : w.log ⊆ w'.log := (log_suffix_moves hmoves).subset
  have hqueue : ∀ (m : Coord Unit), Prog.Within KeepsQueue m → m ctx w = (r, w') → QueuesEntrusted w' := by
    intro m hm hrun
    have hkeeps : KeepsQueue w (m ctx w).2 := Prog.Within.related ctx w
    rw [hrun] at hkeeps
    exact h.queue.kept hkeeps
  by_cases hphase : phase = .build
  · subst hphase
    cases hwhole with
    | inserted tx htx hrun =>
      apply h.moves hmoves hsourced (hqueue _ inferInstance hrun)
      have hend : Inserting tx w (insertSpeedup tx ctx w) := insertSpeedup_inserting tx
      rw [hrun] at hend
      intro tx' before hmem op hop
      rcases hend.inserted_cases hmem with hold | ⟨rfl, rfl⟩
      · exact (h.builds tx' before hold op hop).mono hlog
      · exact ((hsourced _ hmem op hop).isEntrusted h.origins h.records h.queue).mono hlog
  · apply h.moves hmoves hsourced _ (h.builds.of_insertions_eq hlog (insertions_moves hphase hmoves))
    cases hwhole with
    | inserted tx htx hrun => exact absurd rfl hphase
    | evicted tx hnote hstale haged hrun => exact hqueue _ inferInstance hrun
    | dropped txid hcancel hpending hrun => exact hqueue _ inferInstance hrun
    | registered tx hfresh hkind hnew hrun => exact hqueue _ inferInstance hrun
    | funded utxo hrun =>
      have hkept : QueuesEntrusted (appendFunding utxo ctx w).2 := appendFunding_queuesEntrusted h.queue
      rw [hrun] at hkept
      exact hkept
    | swapped txid hterminal hrun =>
      have hkept : QueuesEntrusted (replaceFundingOnFinalize txid ctx w).2 :=
        replaceFundingOnFinalize_queuesEntrusted h.origins h.queue
      rw [hrun] at hkept
      exact hkept

/-- Steps keep everything trusted, as long as what is stored as a speedup takes outputs of known origin. -/
theorem Trusts.served {α : Type} {m : Coord α} (h : Trusts w) (hsteps : Served tidy m ctx w)
    (hsourced : ∀ e ∈ (m ctx w).2.log, e.IsSourced) : Trusts (m ctx w).2 := by
  have hkept : (∀ e ∈ (m ctx w).2.log, e.IsSourced) → Trusts (m ctx w).2 := by
    apply hsteps.preserves (I := fun w' => (∀ e ∈ w'.log, e.IsSourced) → Trusts w') _ _ fun _ => h
    · rintro w₁ w₂ htrusts ⟨phase, hstep⟩ hsourced
      have hbefore := htrusts fun e he => hsourced e ((log_suffix_moves hstep.moves).subset he)
      cases hstep with
      | plain hplain => exact hbefore.plain hplain hsourced
      | whole hwhole => exact hbefore.whole hwhole hsourced
    · rintro w₁ w₂ htrusts ⟨phase, stop, htorn⟩ hsourced
      have hbefore := htrusts fun e he => hsourced e ((log_suffix_moves htorn.moves).subset he)
      exact hbefore.whole htorn hsourced
  exact hkept hsourced

/-! ### What is handed to the node -/

/-- A transaction was registered, or built to spend entrusted outputs only. -/
def IsBacked (log : List Event) (raw : Transaction) : Prop :=
  (∃ client s, .registering client s ∈ log ∧ client.tx = raw) ∨
    ∃ speedup s, .inserted speedup s ∈ log ∧ speedup.tx = raw ∧ ∀ op ∈ raw.spends, IsEntrusted log op

/-- The transaction of a trusted record is backed. -/
theorem CoordinatedTx.IsTrusted.isBacked {log log' : List Event} {tx : CoordinatedTx} (h : tx.IsTrusted log)
    (hlog : log ⊆ log') : IsBacked log' tx.tx := by
  cases hkind : tx.speedup? with
  | none =>
    obtain ⟨client, s, hmem, -, htx⟩ := h.registered hkind
    exact Or.inl ⟨client, s, hlog hmem, htx⟩
  | some kind =>
    have hspeedup : tx.speedup?.isSome := by rw [hkind]; rfl
    obtain ⟨speedup, s, hmem, -, htx⟩ := h.built hspeedup
    exact Or.inr ⟨speedup, s, hlog hmem, htx, fun op hop =>
      (h.takes hspeedup op (List.mem_append_left _ hop)).mono hlog⟩

/-- What is handed over is backed by what happened before. -/
def Event.SendsBacked (e : Event) (older : List Event) : Prop :=
  match e with
  | .broadcast raw => IsBacked older raw
  | _ => True

/-- Everything handed over from one world to the next is backed. -/
def Backs (w w' : World) : Prop := GrowsBy Event.SendsBacked w.log w'.log

instance backs_isPreorder : IsPreorder World Backs where
  refl _ := GrowsBy.refl
  trans _ _ _ h h' := GrowsBy.trans h h'

/-- Where nothing is handed over, everything is backed. -/
theorem Lacks.backs (h : Lacks Event.IsBroadcast w w') : Backs w w' := by
  obtain ⟨added, hlog, hall⟩ := h
  unfold Backs
  rw [hlog]
  clear hlog
  induction added with
  | nil => exact GrowsBy.refl
  | cons e added ih =>
    refine (ih fun e' he' => hall e' (List.mem_cons_of_mem _ he')).cons ?_
    have hother := hall e List.mem_cons_self
    cases e <;> first | exact trivial | exact absurd trivial hother

/-- Dispatching records whose transactions are backed. -/
theorem Dispatches.backs {due kept records : List CoordinatedTx} (h : Dispatches ctx due kept records w w')
    (hdue : ∀ tx ∈ due, ∀ log, w.log ⊆ log → IsBacked log tx.tx) : Backs w w' := by
  obtain ⟨w₁, w₂, w₃, haside, hlimits, hsent, hrest⟩ := h.stages
  have hlog : w₂.log = w.log := hlimits.log_eq.trans haside.log_eq
  have hhandsOver : Backs w w₃ := by
    have hbacked : ∀ tx ∈ records, ∀ log, w.log ⊆ log → IsBacked log tx.tx :=
      fun tx htx => hdue tx ((hsent.sublist.trans hlimits.sublist).subset htx)
    unfold Backs
    rw [hsent.log_eq, hlog]
    clear h hsent
    induction records using List.reverseRecOn with
    | nil => exact GrowsBy.refl
    | append_singleton records tx ih =>
      rw [List.map_append, List.reverse_append]
      refine (ih fun tx' htx' => hbacked tx' (List.mem_append_left _ htx')).cons ?_
      exact hbacked tx (List.mem_append_right _ (List.mem_singleton.mpr rfl)) _ (List.subset_append_right _ _)
  exact IsTrans.trans _ _ _ hhandsOver (Lacks.backs (hrest _ inferInstance))

/-- The steps of a tick before the builds keep everything trusted. -/
theorem Trusts.settled {α : Type} {m : Coord α} (h : Trusts w) (hsteps : Stepwise False .settle m ctx w) :
    Trusts (m ctx w).2 := by
  obtain ⟨added, hlog, hall⟩ : Sources w (m ctx w).2 := sources_of_stepwise hsteps (by simp)
  apply h.served (served_of_stepwise hsteps)
  intro e he
  rw [hlog] at he
  rcases List.mem_append.mp he with hnew | hold
  · exact hall e hnew
  · exact h.sourced e hold

/-- After steps that hand over what is backed, everything handed over later is. -/
theorem backs_bind {α β : Type} {m : Coord α} {f : α → Coord β} (h : Trusts w)
    (hsteps : Stepwise False .settle m ctx w) (hbacks : Backs w (m ctx w).2)
    (hf : ∀ a w₁, Trusts w₁ → Backs w₁ (f a ctx w₁).2) : Backs w ((m >>= f) ctx w).2 := by
  apply Prog.related_bind hbacks
  intro a w₁ hrun
  have htrusts := h.settled hsteps
  rw [hrun] at htrusts
  exact hf a w₁ htrusts

/-- A quiet function hands nothing over. -/
theorem backs_of_conducts {α : Type} (m : Coord α) [h : Prog.Conducts (Lacks Event.IsBroadcast) Anyhow m] :
    Backs w (m ctx w).2 :=
  Lacks.backs (h.related ctx w)

/-- Step 3 hands over what is backed. -/
theorem dispatchPending_backs (h : Trusts w) : Backs w (dispatchPending ctx w).2 := by
  obtain ⟨due, kept, records, hsublist, -, hdispatch⟩ := dispatchPending_dispatches ctx w
  apply hdispatch.backs
  intro tx htx log hlog
  have hget : w.store.txs.get tx.txid = some tx := Store.mem_values.mp (hsublist.subset htx)
  exact (h.records.current hget).isBacked hlog

/-- Step 4 hands over what is backed. -/
theorem dispatchPendingSpeedups_backs (h : Trusts w) : Backs w (dispatchPendingSpeedups ctx w).2 := by
  obtain ⟨due, kept, records, hsublist, -, hdispatch⟩ := dispatchPendingSpeedups_dispatches ctx w
  apply hdispatch.backs
  intro tx htx log hlog
  exact (h.records.current (mem_speedupsOrdered (hsublist.subset htx)).2).isBacked hlog

/-- A tick hands over what is backed. -/
theorem tick_backs (h : Trusts w) : Backs w (tick ctx w).2 := by
  have hquery : ∀ {α : Type} (wrap : String → BitcoinCoordinatorError) (question : Answers → ℕ → Except String α)
      (w : World), Backs w (query wrap question ctx w).2 := by
    intro α wrap question w
    have haside : Aside w (query wrap question ctx w).2 := Prog.Within.related ctx w
    unfold Backs
    rw [haside.log_eq]
    exact GrowsBy.refl
  have hreview : Prog.Conducts (Lacks Event.IsBroadcast) Anyhow reviewActive :=
    reviewActive_conducts fun _ _ => lacks_noted id
  have hspeedups : Prog.Conducts (Lacks Event.IsBroadcast) Anyhow reviewSpeedups := reviewSpeedups_conducts
  apply backs_bind h (stepwise_of_calm query_calm) (hquery _ _ w)
  intro _ w₁ h₁
  apply backs_bind h₁ (stepwise_of_calm query_calm) (hquery _ _ w₁)
  intro ready w₂ h₂
  split
  · apply backs_bind h₂ (stepwise_of_calm query_calm) (hquery _ _ w₂)
    intro height w₃ h₃
    apply backs_bind h₃ (stepwise_of_calm (cleanupNews_calm height)) (backs_of_conducts _)
    intro _ w₄ h₄
    apply backs_bind h₄ reviewActive_stepwise (backs_of_conducts _)
    intro _ w₅ h₅
    apply backs_bind h₅ (reviewSpeedups_stepwise fun h => absurd h id) (backs_of_conducts _)
    intro _ w₆ h₆
    apply backs_bind h₆ (stepwise_of_plainly dispatchPending_plainly) (dispatchPending_backs h₆)
    intro _ w₇ h₇
    apply Prog.related_bind (dispatchPendingSpeedups_backs h₇)
    intro failed w₈ _
    exact (builds_hand_nothing failed).1.backs
  · exact GrowsBy.refl

/-- Every request hands over what is backed. -/
theorem exec_backs (h : Trusts w) (request : Request) : Backs w (exec request ctx w).2 := by
  by_cases hrequest : request = .tick
  · subst hrequest
    exact tick_backs h
  · exact Lacks.backs (request_lacks hrequest)

/-- After every run everything is trusted, and everything handed over was backed, as long as the builder spends what
it is asked to. -/
theorem trusts_runCalls (cfg : BitcoinSettings) (calls : List Call)
    (hbuilder : ∀ call ∈ calls, call.answers.SpendsRequested) :
    Trusts (runCalls cfg calls World.init) ∧ Throughout Event.SendsBacked (runCalls cfg calls World.init).log := by
  induction calls using List.reverseRecOn with
  | nil =>
    refine ⟨⟨fun _ he => absurd he List.not_mem_nil, owned_init.origins, ?_, ?_, ?_⟩, throughout_nil⟩
    · rintro s (rfl | ⟨after, hwrote⟩) txid tx hget
      · cases hget
      · cases hwrote
    · intro op record hget
      cases hget
    · intro tx before hmem
      cases hmem
  | append_singleton calls call ih =>
    obtain ⟨htrusts, hbacked⟩ := ih fun earlier hearlier => hbuilder earlier (List.mem_append_left _ hearlier)
    obtain ⟨added, hlog, hall⟩ := sources_runCalls cfg (calls ++ [call]) hbuilder
    have hsourced : ∀ e ∈ (runCalls cfg (calls ++ [call]) World.init).log, e.IsSourced := by
      intro e he
      rw [hlog] at he
      rcases List.mem_append.mp he with hnew | hold
      · exact hall e hnew
      · cases hold
    rw [runCalls_concat] at hsourced ⊢
    have hserved : Served False (exec call.request) ⟨cfg, call.answers⟩ (runCalls cfg calls World.init) :=
      exec_served call.request fun h => absurd h id
    have hcall : Backs (runCalls cfg calls World.init)
        (exec call.request ⟨cfg, call.answers⟩ (runCalls cfg calls World.init)).2 := exec_backs htrusts call.request
    exact ⟨htrusts.served hserved hsourced, hcall.throughout hbacked⟩

end BitcoinCoordinator
