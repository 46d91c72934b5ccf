import BitcoinCoordinator.LostUpdates

/-!
# What a boost CPFP is funded from

A boost that is a child is decided on for the newest speedup in the mempool that is not being replaced. Its
funding comes from another scan, which passes over what is marked spent and takes what is on chain as well.
The two meet exactly when the mark of the tip is clear and no newer speedup on chain still offers its change,
or when nothing offers any and the queue happens to hold the change of the tip.
-/

namespace BitcoinCoordinator

open Foundation

variable {ctx : Ctx} {cfg : BitcoinSettings} {s : Store} {tip : CoordinatedTx} {w w' : World}

/-- The last output of a transaction. -/
def CoordinatedTx.changeOutPoint (tx : CoordinatedTx) : OutPoint := ⟨tx.txid, tx.tx.output.length - 1⟩

/-- True when the change of a speedup is marked spent. -/
def CoordinatedTx.changeIsSpent (tx : CoordinatedTx) : Bool :=
  tx.speedup?.any fun kind => kind.context.spent

/-- True when a speedup is being replaced or its change is marked spent. -/
def Store.IsTaken (s : Store) (tx : CoordinatedTx) : Bool :=
  tx.hasLiveReplacement s.speedupsOrdered || tx.changeIsSpent

/-- The listed speedups after the last entry of a transaction, the newest first. -/
def Store.newerThan (s : Store) (txid : Txid) : List CoordinatedTx :=
  s.speedupsOrdered.reverse.takeWhile fun tx => decide (tx.txid ≠ txid)

/-- The change of a speedup is not marked spent, and every newer speedup on chain is taken. -/
def Store.TipIsNext (s : Store) (tip : CoordinatedTx) : Prop :=
  tip.changeIsSpent = false ∧ ∀ tx ∈ s.newerThan tip.txid,
    tx.state = .confirmed ∨ tx.state = .finalized → s.IsTaken tx = true

/-- Every listed speedup in the mempool or on chain is taken, and the first unspent record of the queue is
the change of the speedup. -/
def Store.QueueHoldsChange (s : Store) (tip : CoordinatedTx) : Prop :=
  (∀ tx ∈ s.speedupsOrdered, tx.state.isOnChainSide = true → s.IsTaken tx = true) ∧
    ∃ record, (s.fundingRecords.find? fun record => !record.spent) = some record ∧
      record.utxo.outPoint = tip.changeOutPoint

/-- Every boost that was stored is one of a plan, made of the store in which it was decided on last. -/
def BoostsArePlanned (cfg : BitcoinSettings) (w : World) : Prop :=
  ∀ p ∈ insertions w.log, p.1.isBoost = true → ∃ plan s height,
    lastPlanned p.2.2 = some (plan.last.txid, s) ∧
      planBoost cfg s.speedupsOrdered height = some plan

/-! ### The scan for funding -/

/-- Where the scan stops, a speedup in the mempool or on chain is not taken; those before it are. -/
theorem findChainTip_split {older : List CoordinatedTx}
    (h : findChainTip s.speedupsOrdered older = .ok (some tip)) :
    ∃ before after, older = before ++ tip :: after ∧
      (∀ tx ∈ before, tx.state.isOnChainSide = true → s.IsTaken tx = true) ∧
      tip.state.isOnChainSide = true ∧ s.IsTaken tip = false := by
  induction older with
  | nil => cases h
  | cons newest older ih =>
    have hpast : findChainTip s.speedupsOrdered older = .ok (some tip) →
        (newest.state.isOnChainSide = true → s.IsTaken newest = true) →
        ∃ before after, newest :: older = before ++ tip :: after ∧
          (∀ tx ∈ before, tx.state.isOnChainSide = true → s.IsTaken tx = true) ∧
          tip.state.isOnChainSide = true ∧ s.IsTaken tip = false := by
      intro hrest htaken
      obtain ⟨before, after, rfl, hbefore, htip⟩ := ih hrest
      exact ⟨newest :: before, after, rfl, List.forall_mem_cons.mpr ⟨htaken, hbefore⟩, htip⟩
    unfold findChainTip at h
    split at h
    · next hstate =>
      split at h
      · cases h
      · next kind hkind =>
        have hspent : newest.changeIsSpent = kind.context.spent := by
          unfold CoordinatedTx.changeIsSpent
          rw [CoordinatedTx.speedupKind_ok.mp hkind]
          rfl
        rw [← hspent] at h
        split at h
        · next htaken => exact hpast h fun _ => htaken
        · next hfree =>
          cases h
          refine ⟨[], older, rfl, ?_, hstate, Bool.eq_false_iff.mpr hfree⟩
          exact fun _ hmem => absurd hmem List.not_mem_nil
    · next hstate => exact hpast h fun hside => absurd hside hstate

/-- When the scan finds nothing, every speedup in the mempool or on chain is taken. -/
theorem findChainTip_none {older : List CoordinatedTx}
    (h : findChainTip s.speedupsOrdered older = .ok none) :
    ∀ tx ∈ older, tx.state.isOnChainSide = true → s.IsTaken tx = true := by
  induction older with
  | nil => exact fun _ hmem => absurd hmem List.not_mem_nil
  | cons newest older ih =>
    unfold findChainTip at h
    split at h
    · split at h
      · cases h
      · next kind hkind =>
        split at h
        · next htaken =>
          refine List.forall_mem_cons.mpr ⟨fun _ => ?_, ih h⟩
          unfold Store.IsTaken CoordinatedTx.changeIsSpent
          rw [CoordinatedTx.speedupKind_ok.mp hkind]
          exact htaken
        · cases h
    · next hstate => exact List.forall_mem_cons.mpr ⟨fun hside => absurd hside hstate, ih h⟩

/-- The change that the scan hands out is the last output of the speedup. -/
theorem CoordinatedTx.outPoint_speedupChangeUtxo {tx : CoordinatedTx} {utxo : Utxo}
    (h : tx.speedupChangeUtxo = .ok utxo) : utxo.outPoint = tx.changeOutPoint := by
  obtain ⟨hid, out, hlast⟩ := CoordinatedTx.speedupChangeUtxo_ok h
  unfold CoordinatedTx.lastOutput at hlast
  unfold Utxo.outPoint CoordinatedTx.changeOutPoint
  split at hlast
  · obtain ⟨-, hvout⟩ := Prod.mk.inj (Except.ok.inj hlast)
    rw [hid, hvout]
  · cases hlast

/-- What comes after the last entry of a transaction comes before the element it is scanned for. -/
theorem mem_of_mem_newerThan {before after : List CoordinatedTx} {tx : CoordinatedTx}
    (hsplit : s.speedupsOrdered.reverse = before ++ tip :: after) (h : tx ∈ s.newerThan tip.txid) :
    tx ∈ before := by
  unfold Store.newerThan at h
  rw [hsplit] at h
  clear hsplit
  induction before with
  | nil => simp at h
  | cons first before ih =>
    rw [List.cons_append, List.takeWhile_cons] at h
    split at h
    · rcases List.mem_cons.mp h with rfl | hrest
      · exact List.mem_cons_self
      · exact List.mem_cons_of_mem _ (ih hrest)
    · exact absurd h List.not_mem_nil

/-- What is scanned before any entry of a transaction is newer. -/
theorem mem_newerThan {before after : List CoordinatedTx} {tx : CoordinatedTx} {txid : Txid}
    (hsplit : s.speedupsOrdered.reverse = before ++ tx :: after)
    (hbefore : ∀ y ∈ before, y.txid ≠ txid) (hne : tx.txid ≠ txid) : tx ∈ s.newerThan txid := by
  unfold Store.newerThan
  rw [hsplit]
  clear hsplit
  induction before with
  | nil => simp [hne]
  | cons first before ih =>
    rw [List.forall_mem_cons] at hbefore
    rw [List.cons_append, List.takeWhile_cons_of_pos (by simpa using hbefore.1)]
    exact List.mem_cons_of_mem _ (ih hbefore.2)

/-- Two listed records with one identifier are the same. -/
theorem eq_of_mem_speedupsOrdered {a b : CoordinatedTx} (ha : a ∈ s.speedupsOrdered)
    (hb : b ∈ s.speedupsOrdered) (hid : a.txid = b.txid) : a = b := by
  have hget := (mem_speedupsOrdered ha).2
  rw [hid, (mem_speedupsOrdered hb).2] at hget
  exact (Option.some.inj hget).symm

/-- The newest live speedup funds its own boost exactly when its change is the one that the scan for funding
comes upon, or the queue holds it. -/
theorem primaryInput?_iff {primary : Utxo} (hprimary : s.primaryInput? = some primary)
    (hlast : s.speedupsOrdered.reverse.find? (isLiveInMempool s.speedupsOrdered) = some tip) :
    primary.outPoint = tip.changeOutPoint ↔ s.TipIsNext tip ∨ s.QueueHoldsChange tip := by
  have hmem : tip ∈ s.speedupsOrdered := List.mem_reverse.mp (List.mem_of_find?_eq_some hlast)
  obtain ⟨hlive, as, bs, hordered, has⟩ := List.find?_eq_some_iff_append.mp hlast
  simp only [isLiveInMempool, Bool.and_eq_true, decide_eq_true_eq, Bool.not_eq_true'] at hlive
  have hside : tip.state.isOnChainSide = true := by
    rw [hlive.1]
    rfl
  unfold Store.primaryInput? at hprimary
  cases hscan : findChainTip s.speedupsOrdered s.speedupsOrdered.reverse with
  | error e =>
    rw [hscan] at hprimary
    cases hprimary
  | ok found =>
    rw [hscan] at hprimary
    cases found with
    | none =>
      have htaken := findChainTip_none hscan
      simp only [List.mem_reverse] at htaken
      obtain ⟨record, hrecord, rfl⟩ := Option.map_eq_some_iff.mp hprimary
      constructor
      · exact fun hchange => Or.inr ⟨htaken, record, hrecord, hchange⟩
      · rintro (⟨hfree, -⟩ | ⟨-, record', hrecord', hchange⟩)
        · have hspent := htaken tip hmem hside
          unfold Store.IsTaken at hspent
          rw [hlive.2, hfree] at hspent
          cases hspent
        · rw [hrecord] at hrecord'
          cases hrecord'
          exact hchange
    | some next =>
      obtain ⟨before, after, hsplit, hbefore, hnextSide, hnextFree⟩ := findChainTip_split hscan
      have hnext : next ∈ s.speedupsOrdered := List.mem_reverse.mp (by simp [hsplit])
      have hutxo : next.speedupChangeUtxo = .ok primary := by
        change next.speedupChangeUtxo.toOption = some primary at hprimary
        cases hchange : next.speedupChangeUtxo with
        | error e =>
          rw [hchange] at hprimary
          cases hprimary
        | ok utxo =>
          rw [hchange] at hprimary
          cases hprimary
          rfl
      rw [CoordinatedTx.outPoint_speedupChangeUtxo hutxo]
      constructor
      · intro hchange
        obtain rfl : next = tip :=
          eq_of_mem_speedupsOrdered hnext hmem (congrArg OutPoint.txid hchange)
        unfold Store.IsTaken at hnextFree
        rw [hlive.2, Bool.false_or] at hnextFree
        refine Or.inl ⟨hnextFree, fun tx htx hsettled => ?_⟩
        apply hbefore tx (mem_of_mem_newerThan hsplit htx)
        rcases hsettled with hstate | hstate <;> rw [hstate] <;> rfl
      · rintro (⟨hfree, hnewer⟩ | ⟨htaken, -⟩)
        · have hopen : s.IsTaken tip = false := by
            unfold Store.IsTaken
            rw [hlive.2, hfree]
            rfl
          have hout : ∀ y ∈ before, y.txid ≠ tip.txid := by
            intro y hy hid
            have hlisted : y ∈ s.speedupsOrdered := List.mem_reverse.mp (by simp [hsplit, hy])
            obtain rfl := eq_of_mem_speedupsOrdered hlisted hmem hid
            rw [hbefore y hy hside] at hopen
            cases hopen
          by_contra hchange
          have hne : next.txid ≠ tip.txid := by
            intro hid
            exact hchange (congrArg _ (eq_of_mem_speedupsOrdered hnext hmem hid))
          have hnewerNext := mem_newerThan hsplit hout hne
          have hdead := has next (mem_of_mem_newerThan hordered hnewerNext)
          have hunmasked : next.hasLiveReplacement s.speedupsOrdered = false := by
            unfold Store.IsTaken at hnextFree
            exact (Bool.or_eq_false_iff.mp hnextFree).1
          simp only [isLiveInMempool, hunmasked, Bool.not_false, Bool.and_true, Bool.not_eq_true',
            decide_eq_false_iff_not] at hdead
          have hsettled : next.state = .confirmed ∨ next.state = .finalized := by
            revert hnextSide hdead
            cases next.state <;> simp [TransactionState.isOnChainSide]
          rw [hnewer next hnewerNext hsettled] at hnextFree
          cases hnextFree
        · rw [htaken next hnext hnextSide] at hnextFree
          cases hnextFree

/-! ### What is stored -/

/-- Where no speedup is stored, the boosts stay planned. -/
theorem BoostsArePlanned.of_insertions_eq (h : BoostsArePlanned cfg w)
    (hsame : insertions w'.log = insertions w.log) : BoostsArePlanned cfg w' := by
  unfold BoostsArePlanned
  rw [hsame]
  exact h

/-- A computation that takes steps outside of the two build steps keeps the boosts planned. -/
theorem Stepwise.keeps_planned {α : Type} {m : Coord α} {phase : Phase} (hphase : phase ≠ .build)
    (h : ∀ w, Stepwise False phase m ctx w) : Prog.Keeps (BoostsArePlanned ctx.settings) m ctx := by
  intro w hplanned
  exact hplanned.of_insertions_eq ((h w).insertions_eq hphase rfl)

/-- A computation of plain moves keeps the boosts planned. -/
theorem plainly_keeps_planned {α : Type} {m : Coord α} {phase : Phase}
    (h : ∀ w, Plainly False phase m ctx w) : Prog.Keeps (BoostsArePlanned ctx.settings) m ctx := by
  intro w hplanned
  exact hplanned.of_insertions_eq (plainly_insertions (h w))

/-- A quiet computation keeps the boosts planned. -/
theorem calm_keeps_planned {α : Type} {m : Coord α} (h : ∀ w, Calm m ctx w) :
    Prog.Keeps (BoostsArePlanned ctx.settings) m ctx := by
  have hplainly : ∀ w, Plainly False .build m ctx w := fun w => plainly_of_calm (h w)
  exact plainly_keeps_planned hplainly

/-- A speedup that is stored in a part of a run keeps the boosts planned, if it is planned itself or no
boost. -/
theorem BoostsArePlanned.stored {p : CoordinatedTx × Store × List Event}
    (h : BoostsArePlanned cfg w) (hstored : insertions w'.log = p :: insertions w.log)
    (hboost : p.1.isBoost = true → ∃ plan s height, lastPlanned p.2.2 = some (plan.last.txid, s) ∧
      planBoost cfg s.speedupsOrdered height = some plan) : BoostsArePlanned cfg w' := by
  intro q hq
  rw [hstored] at hq
  rcases List.mem_cons.mp hq with rfl | hold
  · exact hboost
  · exact h q hold

/-- Building and saving a planned boost. -/
theorem runBoost_planned {plan : BoostPlan} {height planHeight : BlockHeight}
    {all : List CoordinatedTx}
    (hplan : planBoost ctx.settings s.speedupsOrdered planHeight = some plan)
    (hready : plan.Ready s w) (h : BoostsArePlanned ctx.settings w) :
    Prog.Ends (fun _ w' => BoostsArePlanned ctx.settings w') (runBoost plan all height) ctx w := by
  have hsteady : Steady fun w => plan.Ready s w ∧ BoostsArePlanned ctx.settings w := by
    have hkept := plan.steady_ready s
    exact ⟨fun w hw => ⟨hkept.asked w hw.1, hw.2⟩,
      fun w items hw => ⟨hkept.published w items hw.1, hw.2⟩,
      fun w pricing vsize hw => ⟨hkept.signed w pricing vsize hw.1, hw.2⟩⟩
  have hspent : ∀ op spent, Prog.Keeps
      (fun w => plan.Ready s w ∧ BoostsArePlanned ctx.settings w) (setSpent op spent) ctx := by
    intro op spent w hw
    have hplain : Plainly False .build (setSpent op spent) ctx w := setSpent_plainly op spent
    exact ⟨plan.setSpent_keeps_ready s op spent w hw.1,
      hw.2.of_insertions_eq (plainly_insertions hplain)⟩
  apply ends_settings
  apply Prog.Ends.bind (Prog.Ends.of_keeps hsteady.getNetworkFeeRate ⟨hready, h⟩) fun _ _ hw => hw.2
  intro fee w₁ h₁ _
  apply Prog.Ends.bind (Prog.Ends.of_keeps (hsteady.publishFeeNews _) h₁) fun _ _ hw => hw.2
  intro _ w₂ h₂ _
  apply Prog.Ends.bind (Prog.Ends.of_keeps (buildSpeedup_keeps hsteady hspent) h₂) fun _ _ hw => hw.2
  intro built w₃ h₃ _
  cases built with
  | none => exact h₃.2
  | some built =>
    apply (saveBoost_ends plan _ built height).mono
    rintro r w' (hsame | ⟨hstored, -⟩)
    · exact h₃.2.of_insertions_eq hsame
    · exact h₃.2.stored hstored fun _ => ⟨plan, s, planHeight, h₃.1.planned, hplan⟩

/-- Step 5 leaves the boosts planned. -/
theorem boostIfStale_planned (skip : Bool) (h : BoostsArePlanned ctx.settings w) :
    Prog.Ends (fun _ w' => BoostsArePlanned ctx.settings w') (boostIfStale skip) ctx w := by
  apply Prog.Ends.ite <;> intro _
  · exact h
  · apply ends_settings
    apply Prog.Ends.bind (Prog.Ends.of_keeps (calm_keeps_planned fun _ => query_calm) h) fun _ _ hw => hw
    intro height w₁ h₁ _
    apply ends_read
    cases hplan : planBoost ctx.settings w₁.store.speedupsOrdered height with
    | none => exact h₁
    | some plan =>
      have hsound := planBoost_sound hplan
      have hboost : Prog.Ends (fun _ w' => BoostsArePlanned ctx.settings w')
          (runBoost plan w₁.store.speedupsOrdered height) ctx
          (w₁.noted (.planned plan.last.txid w₁.store)) := by
        refine runBoost_planned hplan ⟨?_, ?_, rfl⟩ h₁
        · exact ⟨plan.last, (mem_speedupsOrdered hsound.mem).2, hsound.keeps⟩
        · intro txid hlisted tx hget
          exact hsound.idle tx (List.mem_filterMap.mpr ⟨txid, hlisted, hget⟩)
      exact hboost

/-- A CPFP of a batch is no boost, and keeps the boosts planned. -/
theorem saveCpfpBatch_keeps_planned {batch : List CoordinatedTx} {bump : ℚ}
    {built : SpeedupBuildResult} (hentries : parentEntriesOf batch ≠ []) :
    Prog.Keeps (BoostsArePlanned ctx.settings) (saveCpfpBatch batch bump built) ctx := by
  refine Prog.Keeps.seq (calm_keeps_planned fun _ => Prog.Reaches.forEach fun parent _ _ =>
    takePendingParent_calm parent) fun _ => ?_
  refine Prog.Keeps.seq (calm_keeps_planned fun _ => reportIfCapped_calm _ _ _ _) fun _ => ?_
  refine Prog.Keeps.seq (calm_keeps_planned fun _ => query_calm) fun height => ?_
  intro w h
  have hstores : Prog.Ends (fun _ w' => BoostsArePlanned ctx.settings w')
      (saveSpeedup built.tx (feeInfoForPaidSpeedup built.tx built.fee
        ((parentEntriesOf batch).map Prod.snd).sum)
        (.cpfp (batch.map CoordinatedTx.txid)
          (makeSpeedupContext built.fundingInputs bump (parentEntriesOf batch))) height) ctx w := by
    apply (saveSpeedup_stores _ _ _ _).mono
    rintro r w' (⟨-, hsame⟩ | hstored)
    · exact h.of_insertions_eq hsame
    · apply h.stored hstored
      intro hboost
      have hempty : ((parentEntriesOf batch).map fun p =>
          (p.1, amountFromSpeedupData p.1, p.2)).isEmpty = true := hboost
      exact absurd (by simpa using hempty) hentries
  exact hstores

/-- Step 6 keeps the boosts planned. -/
theorem createCpfpBatch_keeps_planned :
    Prog.Keeps (BoostsArePlanned ctx.settings) createCpfpBatch ctx := by
  refine Prog.Keeps.seq (Prog.Keeps.ask _) fun cfg => ?_
  refine Prog.Keeps.seq (calm_keeps_planned fun _ => getPendingSpeedupParents_calm) fun parents => ?_
  refine Prog.Keeps.seq (fun w h => h) fun all => ?_
  apply Prog.Keeps.ite <;> intro _
  · exact Prog.Keeps.pure _
  · refine Prog.Keeps.seq (Prog.Keeps.ask _) fun cfg => ?_
    refine Prog.Keeps.seq (calm_keeps_planned fun _ => getNetworkFeeRate_calm) fun fee => ?_
    refine Prog.Keeps.seq (calm_keeps_planned fun _ => publishFeeNews_calm _) fun _ => ?_
    split
    · exact Prog.Keeps.pure _
    · next batch _ =>
      apply Prog.Keeps.ite
      · exact fun _ => Prog.Keeps.pure _
      · intro hentries
        refine Prog.Keeps.seq (plainly_keeps_planned fun _ => buildSpeedup_plainly) fun built => ?_
        cases built with
        | none => exact Prog.Keeps.pure _
        | some built => exact saveCpfpBatch_keeps_planned hentries

/-- A request keeps the boosts planned, wherever it stops. -/
theorem exec_keeps_planned (request : Request) :
    Prog.Keeps (BoostsArePlanned ctx.settings) (exec request) ctx := by
  have hsettle : Phase.settle ≠ .build := by simp
  have hserve : Phase.serve ≠ .build := by simp
  by_cases hrequest : request = .tick
  · rw [hrequest]
    have hpipeline : Prog.Keeps (BoostsArePlanned ctx.settings) pipeline ctx := by
      refine Prog.Keeps.seq (Stepwise.keeps_planned hsettle fun _ => reviewActive_stepwise) fun _ => ?_
      refine Prog.Keeps.seq (Stepwise.keeps_planned hsettle fun _ =>
        reviewSpeedups_stepwise fun hfalse => absurd hfalse id) fun _ => ?_
      refine Prog.Keeps.seq (plainly_keeps_planned fun _ => dispatchPending_plainly) fun _ => ?_
      refine Prog.Keeps.seq (plainly_keeps_planned fun _ =>
        dispatchPendingSpeedups_plainly fun hfalse => absurd hfalse id) fun failed => ?_
      refine Prog.Keeps.seq (fun w h => boostIfStale_planned failed h) fun _ => ?_
      exact createCpfpBatch_keeps_planned
    refine Prog.Keeps.seq (calm_keeps_planned fun _ => query_calm) fun _ => ?_
    refine Prog.Keeps.seq (calm_keeps_planned fun _ => query_calm) fun ready => ?_
    apply Prog.Keeps.ite <;> intro _
    · refine Prog.Keeps.seq (calm_keeps_planned fun _ => query_calm) fun height => ?_
      exact Prog.Keeps.seq (calm_keeps_planned fun _ => cleanupNews_calm height) fun _ => hpipeline
    · exact Prog.Keeps.pure _
  · exact Stepwise.keeps_planned hserve fun _ => exec_stepwise hrequest

/-- In every run the boosts are planned. -/
theorem boostsArePlanned_runCalls (calls : List Call) (h : BoostsArePlanned cfg w) :
    BoostsArePlanned cfg (runCalls cfg calls w) := by
  induction calls generalizing w with
  | nil => exact h
  | cons call rest ih =>
    have hkept : ∀ ctx : Ctx, Prog.Keeps (BoostsArePlanned ctx.settings) (exec call.request) ctx :=
      fun _ => exec_keeps_planned call.request
    exact ih (hkept ⟨cfg, call.answers⟩ w h)

/-- Every boost CPFP that a run saves is funded from the change of the speedup it accelerates, exactly when
that change was not marked spent as the boost was decided on and every newer speedup on chain was taken, or
else the queue held it. -/
theorem saved_boost_spends_tip_iff (cfg : BitcoinSettings) (s : Store) (news : List StoredNewsItem)
    (lastRetryAt : Option ℕ) (calls : List Call) (tx : CoordinatedTx) (before : Store)
    (older : List Event) (parents : List Txid) (context : SpeedupContext)
    (hsaved : (tx, before, older) ∈
      insertions (runCalls cfg calls (World.start s news lastRetryAt)).log)
    (hboost : tx.isBoost = true) (hcpfp : tx.speedup? = some (.cpfp parents context)) :
    ∃ decided tip, lastPlanned older = some (tip.txid, decided) ∧ tip ∈ decided.speedupsOrdered ∧
      parents = [tip.txid] ∧
      (context.fundingInputs.head?.map Utxo.outPoint = some tip.changeOutPoint ↔
        decided.TipIsNext tip ∨ decided.QueueHoldsChange tip) := by
  have hstart : BoostsArePlanned cfg (World.start s news lastRetryAt) :=
    fun p hp => absurd hp List.not_mem_nil
  obtain ⟨plan, decided, height, hplanned, hplan⟩ :=
    boostsArePlanned_runCalls calls hstart _ hsaved hboost
  obtain ⟨call, -, w₀, hinsertable, rfl, rfl⟩ :=
    insertionsSound_runCalls cfg s news lastRetryAt calls _ _ _ hsaved
  obtain ⟨last, decided', hlastPlanned, rfl, hsome, hhead⟩ := hinsertable.child hboost _ _ hcpfp
  obtain ⟨rfl, rfl⟩ := Prod.mk.inj (Option.some.inj (hlastPlanned.symm.trans hplanned))
  have hsound := planBoost_sound hplan
  obtain ⟨primary, hprimary⟩ := Option.isSome_iff_exists.mp hsome
  refine ⟨decided', plan.last, hplanned, hsound.mem, rfl, ?_⟩
  rw [hprimary]
  rw [hprimary] at hhead
  rw [← primaryInput?_iff hhead.symm hsound.last]
  simp

/-- The mark that a refused boost left on the change of the CPFP outlives it: with a second funding UTXO
registered, the next boost of the CPFP spends that UTXO. -/
def strandedChangeCalls : List Call :=
  let last := pairView 103 [sampleParent, lightCpfp] []
  heavyBoostCalls ++ [droppedCall, last.call growingBuilder 10 0 (.addFunding secondFunding),
    last.call growingBuilder 10 0 .tick]

/-- The boosts of the example run. -/
theorem saved_boost_spends_tip_strandedChange :
    ∃ p ∈ insertions (runCalls lightSettings strandedChangeCalls World.init).log,
      ∃ parents context decided tip, p.1.speedup? = some (.cpfp parents context) ∧
        lastPlanned p.2.2 = some (tip.txid, decided) ∧ tip ∈ decided.speedupsOrdered ∧
        parents = [tip.txid] ∧
        (context.fundingInputs.head?.map Utxo.outPoint = some tip.changeOutPoint ↔
          decided.TipIsNext tip ∨ decided.QueueHoldsChange tip) := by
  obtain ⟨p, hp, hboost, kind, hkind, hcpfp⟩ :
      ∃ p ∈ insertions (runCalls lightSettings strandedChangeCalls World.init).log,
        p.1.isBoost = true ∧ ∃ kind ∈ p.1.speedup?, kind.isRbf = false := by decide +kernel
  cases kind with
  | rbf replaces new context => cases hcpfp
  | cpfp parents context =>
    obtain ⟨decided, tip, hspends⟩ := saved_boost_spends_tip_iff lightSettings Store.empty [] none
      strandedChangeCalls p.1 p.2.1 p.2.2 parents context hp hboost hkind
    exact ⟨p, hp, parents, context, decided, tip, hkind, hspends⟩

/-- A boost CPFP is saved whose first funding input is not the change of the speedup it accelerates. -/
theorem exists_boost_beside_tip :
    ∃ (cfg : BitcoinSettings) (calls : List Call), cfg.validate = .ok () ∧
      (∀ call ∈ calls, call.SeesOneView ∧ call.answers.SpendsRequested) ∧
      OkRun cfg calls World.init (runCalls cfg calls World.init) ∧
      ∃ p ∈ insertions (runCalls cfg calls World.init).log, p.1.isBoost = true ∧
        ∃ kind ∈ p.1.speedup?, ∃ tip ∈ p.2.1.speedupsOrdered, kind.parents = [tip.txid] ∧
          kind.context.fundingInputs.head?.map Utxo.outPoint ≠ some tip.changeOutPoint := by
  refine ⟨lightSettings, strandedChangeCalls, by decide +kernel, ?_, okRun_runCalls (by decide +kernel),
    by decide +kernel⟩
  intro call hcall
  simp only [strandedChangeCalls, heavyBoostCalls, droppedCall, List.cons_append, List.nil_append,
    List.mem_cons, List.not_mem_nil, or_false] at hcall
  rcases hcall with rfl | rfl | rfl | rfl | rfl | rfl | rfl | rfl <;>
    exact ⟨NodeView.call_seesOneView (by decide +kernel) _ _ _ _, plainBuilder_spendsRequested _ _ _ _⟩

end BitcoinCoordinator
