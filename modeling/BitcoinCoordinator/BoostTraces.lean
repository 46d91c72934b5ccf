import BitcoinCoordinator.ChainTopUp

/-!
# What the boost step stores

Step 5 of a tick stores at most one speedup: the planned boost, at the price of its plan. When that is
a capped RBF and the step completes, the predecessor is recorded at the maximum rate. Step 6 stores at
most one speedup, a CPFP.
-/

namespace BitcoinCoordinator

open Foundation

variable {ctx : Ctx} {tidy : Prop} {phase : Phase} {w w' : World}

/-! ### Storing nothing -/

/-- A computation that makes plain moves stores no speedup. -/
theorem plainly_insertions {α : Type} {m : Coord α} (h : Plainly tidy phase m ctx w) :
    Prog.Ends (fun _ w' => insertions w'.log = insertions w.log) m ctx w := by
  have hmove : ∀ w₁ w₂, insertions w₁.log = insertions w.log → Plain ctx tidy phase w₁ w₂ →
      insertions w₂.log = insertions w.log :=
    fun _ _ hsame hplain => hplain.insertions_eq.trans hsame
  exact Prog.Reaches.keeps h hmove rfl

/-- A quiet computation stores no speedup. -/
theorem calm_insertions {α : Type} {m : Coord α} (h : Calm m ctx w) :
    Prog.Ends (fun _ w' => insertions w'.log = insertions w.log) m ctx w :=
  plainly_insertions (plainly_of_calm h : Plainly False .build m ctx w)

/-- Reading the store hands on what is there. -/
theorem ends_read {α β : Type} {Q : Except Stop β → World → Prop} {f : Store → α}
    {k : α → Coord β} (h : Prog.Ends Q (k (f w.store)) ctx w) :
    Prog.Ends Q (readStore f >>= k) ctx w := h

/-- Reading the settings hands on those of the call. -/
theorem ends_settings {β : Type} {Q : Except Stop β → World → Prop}
    {k : BitcoinSettings → Coord β} (h : Prog.Ends Q (k ctx.settings) ctx w) :
    Prog.Ends Q (settings >>= k) ctx w := h

/-! ### Storing one speedup -/

/-- What storing a speedup leaves: nothing stored when it stopped early, else the speedup. -/
def Stores (tx : CoordinatedTx) (w : World) (r : Except Stop Unit) (w' : World) : Prop :=
  ((∃ e, r = .error e) ∧ insertions w'.log = insertions w.log) ∨
    insertions w'.log =
      (tx, w.store, .wrote w.store (w.store.setTx tx) :: w.log) :: insertions w.log

/-- Storing and listing a speedup. -/
theorem insertSpeedup_stores (tx : CoordinatedTx) :
    Prog.Ends (Stores tx w) (insertSpeedup tx) ctx w := by
  have hinserting : Inserting tx w (insertSpeedup tx ctx w) := insertSpeedup_inserting tx
  unfold Prog.Ends
  generalize insertSpeedup tx ctx w = result at hinserting ⊢
  cases hinserting with
  | refused stop => exact Or.inl ⟨⟨stop, rfl⟩, rfl⟩
  | unlisted stop => exact Or.inr rfl
  | relisted hlisted => exact Or.inr rfl
  | listed => exact Or.inr rfl

/-- What follows quietly on storing a speedup. -/
theorem Stores.calm {α : Type} {tx : CoordinatedTx} {m : Coord Unit} {k : Coord α}
    {Q : Except Stop α → World → Prop} (hm : Prog.Ends (Stores tx w) m ctx w)
    (hk : ∀ w₁, insertions w₁.log =
        (tx, w.store, .wrote w.store (w.store.setTx tx) :: w.log) :: insertions w.log →
      Prog.Ends Q k ctx w₁)
    (hstop : ∀ e w', Stores tx w (.error e) w' → Q (.error e) w') :
    Prog.Ends Q (m >>= fun _ => k) ctx w := by
  apply Prog.Ends.bind hm hstop
  rintro _ w₁ (⟨⟨e, hnever⟩, -⟩ | hstored) -
  · cases hnever
  · exact hk w₁ hstored

/-- Persisting a built speedup. -/
theorem saveSpeedup_stores (tx : Transaction) (feeInfo : FeeInfo) (kind : SpeedupKind)
    (height : BlockHeight) :
    Prog.Ends (Stores (speedupRecord tx feeInfo kind height) w)
      (saveSpeedup tx feeInfo kind height) ctx w := by
  apply Stores.calm (insertSpeedup_stores _)
  · intro w₁ hstored
    apply (calm_insertions (monitorWatch_calm _ _)).mono
    intro _ _ hsame
    exact Or.inr (hsame.trans hstored)
  · intro e w' hstores
    exact hstores

/-! ### The boost -/

/-- The pricing of a planned boost at a network rate, for each size of the child. -/
def BoostPlan.pricing (plan : BoostPlan) (cfg : BitcoinSettings)
    (unconfirmedSpeedups : List CoordinatedTx) (networkFeeRate childVsize : ℕ) : Pricing :=
  pricingOf plan.parentEntries (plan.context.bumpFeeUsed * cfg.speedup.bumpFeePercentage)
    (boostFeeRate networkFeeRate plan.last.feeInfo.packageFeeRate) plan.useRbf
    (chainFeeDiff (boostFeeRate networkFeeRate plan.last.feeInfo.packageFeeRate)
      unconfirmedSpeedups).1 childVsize

/-- A boost stored as planned: of the kind the plan asks for, and signed last, no larger than the size
it was priced at, for the fee of the plan's pricing. -/
structure BoostPlan.Yields (plan : BoostPlan) (cfg : BitcoinSettings)
    (unconfirmedSpeedups : List CoordinatedTx) (tx : CoordinatedTx) (older : List Event) : Prop where
  kind : ∃ inputs context, tx.kind = .speedup (plan.kind inputs context)
  signed : ∃ networkFeeRate childVsize,
    lastSigned older =
      some (plan.pricing cfg unconfirmedSpeedups networkFeeRate childVsize, tx.tx.vsize) ∧
    tx.tx.vsize ≤ childVsize ∧
    tx.feeInfo.fee =
      (cfg.fee.price (plan.pricing cfg unconfirmedSpeedups networkFeeRate childVsize)).1

/-- A record, if there is one, is at the maximum rate. -/
def MarkedAtCap (ctx : Ctx) (txid : Txid) (w : World) : Prop :=
  RecordAt txid (fun record => ∀ tx, record = some tx →
    tx.feeInfo.packageFeeRate = ctx.settings.fee.maxFeerateSatVb) w

/-- What the boost step leaves: nothing stored, or the planned boost, and then the predecessor of a
capped RBF at the maximum rate if the step completed. -/
inductive Boosted (ctx : Ctx) (w : World) (r : Except Stop Unit) (w' : World) : Prop where
  | none (hsame : insertions w'.log = insertions w.log)
  | saved (plan : BoostPlan) (height : BlockHeight) (tx : CoordinatedTx) (before : Store)
      (older : List Event)
      (hplan : planBoost ctx.settings w.store.speedupsOrdered height = some plan)
      (hstored : insertions w'.log = (tx, before, older) :: insertions w.log)
      (hyields : plan.Yields ctx.settings w.store.unconfirmedSpeedups tx older)
      (hmarked : ∀ pricing vsize, lastSigned older = some (pricing, vsize) →
        (ctx.settings.fee.price pricing).2 = true → plan.useRbf = true → r = .ok () →
        MarkedAtCap ctx plan.last.txid w')

/-- Marking the predecessor of a capped RBF. -/
theorem markPredecessorAtCap_ends (txid : Txid) :
    Prog.Ends (fun r w' => insertions w'.log = insertions w.log ∧
        (r = .ok () → MarkedAtCap ctx txid w'))
      (markPredecessorAtCap txid ctx.settings.fee.maxFeerateSatVb) ctx w := by
  have hplain : Plainly False .build
      (markPredecessorAtCap txid ctx.settings.fee.maxFeerateSatVb) ctx w :=
    markPredecessorAtCap_plainly txid rfl
  refine ⟨plainly_insertions hplain, ?_⟩
  generalize hrun : markPredecessorAtCap txid ctx.settings.fee.maxFeerateSatVb ctx w = result
  intro hok
  obtain ⟨r, w'⟩ := result
  cases hok
  obtain ⟨found, w₁, hread, hbody⟩ := Prog.bind_ok.mp hrun
  obtain ⟨hfound, rfl⟩ := readStore_ok.mp hread
  intro tx hget
  cases found with
  | none =>
    obtain ⟨-, rfl⟩ := Prog.pure_ok.mp hbody
    rw [← hfound] at hget
    cases hget
  | some predecessor =>
    obtain ⟨-, rfl⟩ := writeStore_ok.mp hbody
    have hid : predecessor.txid = txid := w₁.store.keyed _ _ hfound.symm
    change (w₁.store.setTx _).txs.get txid = some tx at hget
    rw [Store.get_setTx, if_pos hid.symm] at hget
    cases hget
    rfl

/-- The record a built boost is first stored as. -/
def BoostPlan.record (plan : BoostPlan) (nextBump : ℚ) (built : SpeedupBuildResult)
    (height : BlockHeight) : CoordinatedTx :=
  speedupRecord built.tx
    (feeInfoForPaidSpeedup built.tx built.fee (plan.parentEntries.map Prod.snd).sum)
    (plan.kind built.fundingInputs
      (makeSpeedupContext built.fundingInputs nextBump plan.parentEntries)) height

/-- Saving a planned boost. -/
theorem saveBoost_ends (plan : BoostPlan) (nextBump : ℚ) (built : SpeedupBuildResult)
    (height : BlockHeight) :
    Prog.Ends (fun r w' => insertions w'.log = insertions w.log ∨
        insertions w'.log = (plan.record nextBump built height, w.store,
          .wrote w.store (w.store.setTx (plan.record nextBump built height)) :: w.log) ::
            insertions w.log ∧
        (built.capped = true → plan.useRbf = true → r = .ok () →
          MarkedAtCap ctx plan.last.txid w'))
      (saveBoost plan nextBump built height) ctx w := by
  apply ends_settings
  apply Stores.calm (saveSpeedup_stores _ _ _ _)
  · intro w₁ hstored
    apply Prog.Ends.bind (calm_insertions (reportIfCapped_calm _ _ _ _))
    · intro e w₂ hsame
      refine Or.inr ⟨hsame.trans hstored, ?_⟩
      intro _ _ hok
      cases hok
    · intro _ w₂ hsame _
      apply Prog.Ends.ite
      · intro _
        apply (markPredecessorAtCap_ends plan.last.txid).mono
        rintro r w₃ ⟨hkept, hmark⟩
        exact Or.inr ⟨(hkept.trans hsame).trans hstored, fun _ _ => hmark⟩
      · intro hmarkless
        refine Or.inr ⟨hsame.trans hstored, ?_⟩
        intro hcapped hrbf
        rw [hcapped, hrbf] at hmarkless
        exact absurd rfl hmarkless
  · rintro e w' (⟨-, hsame⟩ | hstored)
    · exact Or.inl hsame
    · refine Or.inr ⟨hstored, ?_⟩
      intro _ _ hok
      cases hok

/-- A boost starts from inputs exactly when it is an RBF. -/
theorem BoostPlan.isSome_rbfInitialInputs (plan : BoostPlan) :
    plan.rbfInitialInputs.isSome = plan.useRbf := by
  unfold BoostPlan.rbfInitialInputs
  cases plan.useRbf <;> rfl

/-- Building and saving a planned boost. -/
theorem runBoost_boosted {plan : BoostPlan} {height : BlockHeight}
    (hplan : planBoost ctx.settings w.store.speedupsOrdered height = some plan) :
    Prog.Ends (fun r w' => Boosted ctx w r w')
      (runBoost plan w.store.speedupsOrdered height) ctx w := by
  have hsound := planBoost_sound hplan
  have hlast : RecordAt plan.last.txid (Holds plan.Keeps) w :=
    ⟨plan.last, (mem_speedupsOrdered hsound.mem).2, hsound.keeps⟩
  have hnone : ∀ (e : Stop) (w' : World), insertions w'.log = insertions w.log →
      Boosted ctx w (.error e) w' := fun e w' hsame => Boosted.none hsame
  apply ends_settings
  apply Prog.Ends.bind (calm_insertions getNetworkFeeRate_calm) hnone
  intro fee w₁ hsame₁ hfee
  apply Prog.Ends.bind (calm_insertions (publishFeeNews_calm _))
  · intro e w₂ hsame₂
    exact Boosted.none (hsame₂.trans hsame₁)
  intro _ w₂ hsame₂ hnews
  have hlast₂ := (steady_recordAt.publishFeeNews _).run
    (steady_recordAt.getNetworkFeeRate.run hlast hfee) hnews
  have hbuilds : ∀ parentEntries initial bumpFee feeRate chainDiffFee,
      Plainly False .build
        (buildSpeedup parentEntries initial bumpFee feeRate chainDiffFee) ctx w₂ :=
    fun _ _ _ _ _ => buildSpeedup_plainly
  apply Prog.Ends.bind (plainly_insertions (hbuilds _ _ _ _ _))
  · intro e w₃ hsame₃
    exact Boosted.none ((hsame₃.trans hsame₂).trans hsame₁)
  intro built w₃ hsame₃ hbuild
  have hsame := (hsame₃.trans hsame₂).trans hsame₁
  cases built with
  | none => exact Boosted.none hsame
  | some built =>
    obtain ⟨start, hbuilt, -⟩ := buildSpeedup_ok (fun inputs hinputs u hu =>
      BoostPlan.sourced_of_takes hlast₂ (hsound.initial_takes hinputs hu)) hbuild
    obtain ⟨childVsize, hsigned, hsize, hprice⟩ := hbuilt.signed
    rw [plan.isSome_rbfInitialInputs] at hsigned hsize hprice
    apply (saveBoost_ends plan _ built height).mono
    rintro r w' (hkept | ⟨hstored, hmark⟩)
    · exact Boosted.none (hkept.trans hsame)
    · rw [hsame] at hstored
      refine Boosted.saved plan height _ w₃.store _ hplan hstored
        ⟨⟨_, _, rfl⟩, fee.1, childVsize, hsigned, hsize, ?_⟩ ?_
      · exact congrArg Prod.fst hprice
      · intro pricing vsize hlastSigned hcapped
        have heq := hsigned.symm.trans hlastSigned
        cases heq
        apply hmark
        rw [← hcapped]
        exact congrArg Prod.snd hprice

/-- Step 5 of a tick. -/
theorem boostIfStale_boosted (skip : Bool) :
    Prog.Ends (fun r w' => Boosted ctx w r w') (boostIfStale skip) ctx w := by
  apply Prog.Ends.ite <;> intro _
  · exact Boosted.none rfl
  · apply ends_settings
    have hheight : Prog.Ends (fun _ w' => w'.store = w.store ∧ w'.log = w.log) getMonitorHeight
        ctx w := by
      unfold Prog.Ends getMonitorHeight query
      split <;> exact ⟨rfl, rfl⟩
    apply Prog.Ends.bind hheight
    · rintro e w₁ ⟨-, hlog⟩
      exact Boosted.none (congrArg insertions hlog)
    · rintro height w₁ ⟨hstore, hlog⟩ -
      apply ends_read
      have hsame : insertions w₁.log = insertions w.log := congrArg insertions hlog
      cases hplan : planBoost ctx.settings w₁.store.speedupsOrdered height with
      | none => exact Boosted.none hsame
      | some plan =>
        have hboost : Prog.Ends (Boosted ctx (w₁.noted (.planned plan.last.txid w₁.store)))
            (runBoost plan w₁.store.speedupsOrdered height) ctx
            (w₁.noted (.planned plan.last.txid w₁.store)) := runBoost_boosted hplan
        apply hboost.mono
        rintro r w' (hkept | ⟨plan', height', tx, before, older, hplan', hstored, hyields, hmarked⟩)
        · exact Boosted.none (hkept.trans hsame)
        · refine Boosted.saved plan' height' tx before older ?_ (hstored.trans ?_) ?_ hmarked
          · rw [← hstore]
            exact hplan'
          · exact congrArg _ hsame
          · rw [← hstore]
            exact hyields

/-! ### The CPFP batch -/

/-- What the CPFP step leaves: nothing stored, or one speedup that replaces nothing. -/
def StoresCpfp (w w' : World) : Prop :=
  insertions w'.log = insertions w.log ∨
    ∃ p, p.1.replaces? = none ∧ insertions w'.log = p :: insertions w.log

/-- What follows on a part that stores nothing. -/
theorem StoresCpfp.bind {α : Type} {m : Coord α} {k : α → Coord Unit}
    (hm : Prog.Ends (fun _ w' => insertions w'.log = insertions w.log) m ctx w)
    (hk : ∀ a w₁, Prog.Ends (fun _ w' => StoresCpfp w₁ w') (k a) ctx w₁) :
    Prog.Ends (fun _ w' => StoresCpfp w w') (m >>= k) ctx w := by
  apply Prog.Ends.bind hm
  · intro e w₁ hsame
    exact Or.inl hsame
  · intro a w₁ hsame _
    apply (hk a w₁).mono
    intro _ w' hstores
    unfold StoresCpfp at hstores ⊢
    rw [hsame] at hstores
    exact hstores

/-- Saving the CPFP of a batch. -/
theorem saveCpfpBatch_storesCpfp (batch : List CoordinatedTx) (bump : ℚ)
    (built : SpeedupBuildResult) :
    Prog.Ends (fun _ w' => StoresCpfp w w') (saveCpfpBatch batch bump built) ctx w := by
  have htake : Calm (Prog.forEach batch takePendingParent) ctx w :=
    Prog.Reaches.forEach fun parent _ _ => takePendingParent_calm parent
  apply StoresCpfp.bind (calm_insertions htake)
  intro _ w₁
  apply StoresCpfp.bind (calm_insertions (reportIfCapped_calm _ _ _ _))
  intro _ w₂
  apply StoresCpfp.bind (calm_insertions query_calm)
  intro height w₃
  apply (saveSpeedup_stores _ _ _ _).mono
  rintro r w' (⟨-, hkept⟩ | hstored)
  · exact Or.inl hkept
  · exact Or.inr ⟨_, rfl, hstored⟩

/-- Building and saving the CPFP of a batch. -/
theorem runCpfpBatch_storesCpfp (parents unconfirmed : List CoordinatedTx) :
    Prog.Ends (fun _ w' => StoresCpfp w w') (runCpfpBatch parents unconfirmed) ctx w := by
  apply ends_settings
  apply StoresCpfp.bind (calm_insertions getNetworkFeeRate_calm)
  intro fee w₁
  apply StoresCpfp.bind (calm_insertions (publishFeeNews_calm _))
  intro _ w₂
  split
  · exact Or.inl rfl
  · next batch _ =>
    apply Prog.Ends.ite <;> intro _
    · exact Or.inl rfl
    · have hbuild : Plainly False .build (buildSpeedup (parentEntriesOf batch) none
          ctx.settings.fee.baseFeeMultiplier fee.1 (chainFeeDiff fee.1 unconfirmed).1) ctx w₂ :=
        buildSpeedup_plainly
      apply StoresCpfp.bind (plainly_insertions hbuild)
      intro built w₃
      cases built with
      | none => exact Or.inl rfl
      | some built => exact saveCpfpBatch_storesCpfp batch _ built

/-- Step 6 of a tick. -/
theorem createCpfpBatch_storesCpfp :
    Prog.Ends (fun _ w' => StoresCpfp w w') createCpfpBatch ctx w := by
  apply ends_settings
  apply StoresCpfp.bind (calm_insertions getPendingSpeedupParents_calm)
  intro parents w₁
  apply ends_read
  apply Prog.Ends.ite <;> intro _
  · exact Or.inl rfl
  · exact runCpfpBatch_storesCpfp parents _

end BitcoinCoordinator
