import BitcoinCoordinator.BoostFunding
import BitcoinCoordinator.Foundation.Grouping

/-!
# Batches by weight

The grouping loop closes a batch only when the next parent exceeds the limit, and what it leaves out is a
suffix of the parents. The CPFP step therefore takes off the pending list only the parents of its batch, and
those that failed or are missing.
-/

namespace BitcoinCoordinator

open Foundation

variable {ctx : Ctx} {s : Store} {w w' : World} {maxTxWeight maxBatches : ℕ} {gone : Txid → Prop}

/-- The weight of a record's transaction. -/
def CoordinatedTx.weight (tx : CoordinatedTx) : ℕ := tx.tx.weight

/-- The pending parents that reached the mempool or the chain, in the order of the list. -/
def Store.readyParents (s : Store) : List CoordinatedTx :=
  s.pendingSpeedupParents.filterMap s.readyParent?

/-- The batch that the CPFP step takes from the pending parents. -/
def Store.nextBatch (s : Store) (cfg : DispatcherSettings) : List CoordinatedTx :=
  (cfg.batchByWeight s.readyParents 1).getLast?.getD []

/-- An entry of the pending list that the CPFP step may drop: it failed or is missing, or it is in the
batch. -/
def Store.MayDrop (s : Store) (cfg : DispatcherSettings) (txid : Txid) : Prop :=
  s.Prunable txid ∨ ∃ parent ∈ s.nextBatch cfg, parent.txid = txid

/-- The pending list is the one of a store less some entries, all of them of one kind. -/
def Thinned (gone : Txid → Prop) (s : Store) (pending : List Txid) : Prop :=
  ∃ dropped : List Txid, pending = s.pendingSpeedupParents.filter (fun txid => decide (txid ∉ dropped)) ∧
    ∀ txid ∈ dropped, gone txid

/-! ### The grouping loop -/

/-- The loop keeps its batches groups of the parents, with the open one behind them, and it leaves parents
over only when the batches are enough. -/
theorem batchLoop_groups {given parents current : List CoordinatedTx}
    {batches : List (List CoordinatedTx)} {currentWeight : ℕ}
    (hgroups : Groups CoordinatedTx.weight maxTxWeight given batches)
    (hsplit : given = batches.flatten ++ (current ++ parents))
    (hweight : currentWeight = (current.map CoordinatedTx.weight).sum)
    (hfits : Fits CoordinatedTx.weight maxTxWeight current) (hcount : batches.length ≤ maxBatches) :
    ∃ closed last rest,
      batchLoop maxTxWeight maxBatches parents batches current currentWeight = (closed, last) ∧
      Groups CoordinatedTx.weight maxTxWeight given closed ∧ given = closed.flatten ++ (last ++ rest) ∧
      Fits CoordinatedTx.weight maxTxWeight last ∧ closed.length ≤ maxBatches ∧
      (rest = [] ∨ maxBatches ≤ closed.length) := by
  induction parents generalizing batches current currentWeight with
  | nil => exact ⟨batches, current, [], rfl, hgroups, hsplit, hfits, hcount, Or.inl rfl⟩
  | cons parent rest ih =>
    unfold batchLoop
    split
    · next hfull => exact ⟨batches, current, _, rfl, hgroups, hsplit, hfits, hcount, Or.inr hfull⟩
    · next hopen =>
      split
      · next hover =>
        have hclosed := hgroups.close hsplit hover.1 hfits (by
          intro next hnext
          cases hnext
          rw [← hweight]
          exact hover.2)
        apply ih hclosed
        · simpa using hsplit
        · exact (List.sum_singleton).symm
        · exact Or.inr rfl
        · simp only [List.length_append, List.length_singleton]
          omega
      · next hunder =>
        apply ih hgroups
        · simpa using hsplit
        · simp [hweight, CoordinatedTx.weight]
        · apply Fits.push
          by_cases hsome : current = []
          · exact Or.inl hsome
          · right
            have hlimit : ¬ maxTxWeight < currentWeight + parent.tx.weight :=
              fun hlt => hunder ⟨hsome, hlt⟩
            rw [← hweight]
            exact not_lt.mp hlimit
        · exact hcount

/-- The batches are groups of the parents, at most as many as asked for, and they hold every parent unless
they are that many. -/
theorem batchByWeight_groups (cfg : DispatcherSettings) (parents : List CoordinatedTx) (maxBatches : ℕ) :
    Groups CoordinatedTx.weight cfg.maxTxWeight parents (cfg.batchByWeight parents maxBatches) ∧
      (cfg.batchByWeight parents maxBatches).length ≤ maxBatches ∧
      ((cfg.batchByWeight parents maxBatches).length < maxBatches →
        (cfg.batchByWeight parents maxBatches).flatten = parents) := by
  have hnil : Groups CoordinatedTx.weight cfg.maxTxWeight parents [] := Groups.nil
  have hzero : 0 = (([] : List CoordinatedTx).map CoordinatedTx.weight).sum := rfl
  obtain ⟨closed, last, rest, hloop, hgroups, hsplit, hfits, hcount, hrest⟩ :=
    batchLoop_groups hnil (List.nil_append parents).symm hzero fits_nil (Nat.zero_le maxBatches)
  unfold DispatcherSettings.batchByWeight
  rw [hloop]
  simp only
  split
  · next hopen =>
    have hnone : rest = [] := hrest.resolve_right (by omega)
    subst hnone
    refine ⟨hgroups.close hsplit hopen.1 hfits (by simp), ?_, fun _ => ?_⟩
    · rw [List.length_append, List.length_singleton]
      exact hopen.2
    · simpa using hsplit.symm
  · next hclosed =>
    refine ⟨hgroups, hcount, fun hfew => ?_⟩
    have hnone : rest = [] := hrest.resolve_right (by omega)
    have hempty : last = [] := by
      by_contra hsome
      exact hclosed ⟨hsome, hfew⟩
    rw [hsplit, hnone, hempty]
    simp

/-! ### The pending list -/

/-- A list thinned by one more entry of the kind. -/
theorem Thinned.filter {pending : List Txid} {txid : Txid} (h : Thinned gone s pending)
    (hgone : gone txid) : Thinned gone s (pending.filter fun id => decide (id ≠ txid)) := by
  obtain ⟨dropped, rfl, hall⟩ := h
  refine ⟨txid :: dropped, ?_, List.forall_mem_cons.mpr ⟨hgone, hall⟩⟩
  rw [List.filter_filter]
  apply List.filter_congr
  intro id _
  simp

/-- The pending list is thinned by entries that are gone. -/
def IsThinned (gone : Txid → Prop) (s : Store) (w : World) : Prop :=
  Thinned gone s w.store.pendingSpeedupParents

/-- Questions, news and signatures leave the pending list alone. -/
theorem steady_isThinned : Steady (IsThinned gone s) where
  asked := fun _ h => h
  published := fun _ _ h => h
  signed := fun _ _ _ h => h

/-- Dropping an entry that is gone. -/
theorem removePendingSpeedupParent_thins {txid : Txid} (hgone : gone txid) :
    Prog.Keeps (IsThinned gone s) (removePendingSpeedupParent txid) ctx := by
  refine OneWrite.keeps (fun _ => removePendingSpeedupParent_oneWrite txid) (fun _ hw => hw) ?_
  intro w hw
  exact Thinned.filter hw hgone

/-- Setting a spent flag leaves the pending list alone. -/
theorem setSpent_thins (op : OutPoint) (spent : Bool) :
    Prog.Keeps (IsThinned gone s) (setSpent op spent) ctx := by
  refine Prog.Keeps.seq ?_ fun _ => fun w hw => hw
  refine OneWrite.keeps (fun _ => writeSpent_oneWrite op spent) (fun _ hw => hw) ?_
  intro w hw
  have hpending := (FlagSet.setSpent w.store op spent).pending
  unfold IsThinned World.written
  rw [hpending]
  exact hw

/-- Persisting a built speedup leaves the pending list alone. -/
theorem saveSpeedup_thins (tx : Transaction) (feeInfo : FeeInfo) (kind : SpeedupKind)
    (height : BlockHeight) : Prog.Keeps (IsThinned gone s) (saveSpeedup tx feeInfo kind height) ctx := by
  refine Prog.Keeps.seq ?_ fun _ => ?_
  · intro w hw
    have hinserting : Inserting (speedupRecord tx feeInfo kind height) w
      (insertSpeedup (speedupRecord tx feeInfo kind height) ctx w) := insertSpeedup_inserting _
    generalize insertSpeedup (speedupRecord tx feeInfo kind height) ctx w = result at hinserting ⊢
    cases hinserting with
    | listed =>
      unfold IsThinned World.noted World.written Store.list
      split <;> exact hw
    | _ => exact hw
  · exact Prog.Keeps.seq steady_isThinned.query fun _ => fun w hw => hw

/-- The walk over the pending list collects the parents that reached the mempool or the chain, and drops
only those that failed or are missing. -/
theorem collectPendingParents_thins {txids : List Txid} {r : Except Stop (List CoordinatedTx)}
    (hprunes : ∀ txid, s.Prunable txid → gone txid) (htxs : w.store.txs = s.txs)
    (hw : IsThinned gone s w) (hrun : collectPendingParents txids ctx w = (r, w')) :
    IsThinned gone s w' ∧ ∀ parents, r = .ok parents → parents = txids.filterMap s.readyParent? :=
  collectPendingParents_spec (fun txid _ hprune => removePendingSpeedupParent_thins (hprunes txid hprune)) htxs hw hrun

/-- Building for a batch thins the pending list by parents of the batch. -/
theorem runCpfpBatch_thins {parents unconfirmed : List CoordinatedTx}
    (hbatch : ∀ batch, (ctx.settings.dispatcher.batchByWeight parents 1).getLast? = some batch →
      ∀ parent ∈ batch, gone parent.txid) :
    Prog.Keeps (IsThinned gone s) (runCpfpBatch parents unconfirmed) ctx := by
  intro w hw
  have hends : Prog.Ends (fun _ w' => IsThinned gone s w') (runCpfpBatch parents unconfirmed) ctx w := by
    apply ends_settings
    apply Prog.Ends.bind (Prog.Ends.of_keeps steady_isThinned.getNetworkFeeRate hw) fun _ _ h => h
    intro fee w₁ h₁ _
    apply Prog.Ends.bind (Prog.Ends.of_keeps (steady_isThinned.publishFeeNews _) h₁) fun _ _ h => h
    intro _ w₂ h₂ _
    generalize hlast : (ctx.settings.dispatcher.batchByWeight parents 1).getLast? = last
    cases last with
    | none => exact h₂
    | some batch =>
      apply Prog.Ends.ite <;> intro _
      · exact h₂
      · apply Prog.Ends.bind (Prog.Ends.of_keeps (buildSpeedup_keeps steady_isThinned setSpent_thins) h₂)
          fun _ _ h => h
        intro built w₃ h₃ _
        cases built with
        | none => exact h₃
        | some built =>
          have hsave : Prog.Keeps (IsThinned gone s)
              (saveCpfpBatch batch ctx.settings.fee.baseFeeMultiplier built) ctx := by
            refine Prog.Keeps.seq (Prog.Keeps.forEach fun parent hparent => ?_) fun _ => ?_
            · exact Prog.Keeps.seq (removePendingSpeedupParent_thins (hbatch batch hlast parent hparent))
                fun _ => fun w hw => hw
            refine Prog.Keeps.seq steady_isThinned.reportIfCapped fun _ => ?_
            refine Prog.Keeps.seq steady_isThinned.query fun height => ?_
            exact saveSpeedup_thins _ _ _ _
          exact Prog.Ends.of_keeps hsave h₃
  exact hends

/-- The CPFP step thins the pending list by what it may drop. -/
theorem createCpfpBatch_thins (ctx : Ctx) (w : World) :
    IsThinned (w.store.MayDrop ctx.settings.dispatcher) w.store (createCpfpBatch ctx w).2 := by
  have hstart : IsThinned (w.store.MayDrop ctx.settings.dispatcher) w.store w :=
    ⟨[], by simp, fun _ h => absurd h List.not_mem_nil⟩
  have hcollect : ∀ {r : Except Stop (List CoordinatedTx)} {w' : World},
      collectPendingParents w.store.pendingSpeedupParents ctx w = (r, w') →
        IsThinned (w.store.MayDrop ctx.settings.dispatcher) w.store w' ∧
          ∀ parents, r = .ok parents → parents = w.store.readyParents :=
    fun hrun => collectPendingParents_thins (fun _ => Or.inl) rfl hstart hrun
  change IsThinned _ w.store
    (Prog.bind (collectPendingParents w.store.pendingSpeedupParents) _ ctx w).2
  unfold Prog.bind
  rcases hrun : collectPendingParents w.store.pendingSpeedupParents ctx w with ⟨e | parents, w'⟩
  · exact (hcollect hrun).1
  · obtain ⟨hthinned, hparents⟩ := hcollect hrun
    rw [hparents parents rfl]
    refine Prog.Keeps.seq (Prog.Keeps.read _) (fun all => ?_) w' hthinned
    apply Prog.Keeps.ite <;> intro _
    · exact Prog.Keeps.pure _
    · apply runCpfpBatch_thins
      intro batch hlast parent hparent
      refine Or.inr ⟨parent, ?_, rfl⟩
      unfold Store.nextBatch
      rw [hlast]
      exact hparent

/-- A pending parent that is ready is tracked, in the mempool or on chain. -/
theorem get_of_mem_readyParents {parent : CoordinatedTx} (h : parent ∈ s.readyParents) :
    s.txs.get parent.txid = some parent ∧ parent.state.isOnChainSide = true := by
  obtain ⟨txid, -, hready⟩ := List.mem_filterMap.mp h
  obtain ⟨hget, hside⟩ := Option.filter_eq_some_iff.mp hready
  rw [s.keyed _ _ hget]
  exact ⟨hget, hside⟩

/-- The batch is made of ready parents. -/
theorem readyParents_of_mem_nextBatch {cfg : DispatcherSettings} {parent : CoordinatedTx}
    (h : parent ∈ s.nextBatch cfg) : parent ∈ s.readyParents := by
  unfold Store.nextBatch at h
  generalize hlast : (cfg.batchByWeight s.readyParents 1).getLast? = last at h
  cases last with
  | none => exact absurd h List.not_mem_nil
  | some batch => exact (batchByWeight_sublist (List.mem_of_getLast? hlast)).subset h

/-- A ready parent outside of the batch is not dropped. -/
theorem not_mayDrop_of_not_mem_nextBatch {cfg : DispatcherSettings} {parent : CoordinatedTx}
    (hready : parent ∈ s.readyParents) (hout : parent ∉ s.nextBatch cfg) :
    ¬ s.MayDrop cfg parent.txid := by
  obtain ⟨hget, hside⟩ := get_of_mem_readyParents hready
  rintro (hprune | ⟨other, hother, hsame⟩)
  · rw [hprune parent hget] at hside
    cases hside
  · have hget' := (get_of_mem_readyParents (readyParents_of_mem_nextBatch hother)).1
    rw [hsame, hget] at hget'
    cases hget'
    exact hout hother

/-- Grouping by weight gives at most as many batches as asked for. They are taken from the front of the
parents in their order, within the limit and as large as it allows, and they hold every parent unless they
are as many as asked for. A parent that the CPFP step leaves out of its batch keeps its place in the pending
list. -/
theorem batchByWeight_loses_nothing :
    (∀ (cfg : DispatcherSettings) (parents : List CoordinatedTx) (maxBatches : ℕ),
      Groups CoordinatedTx.weight cfg.maxTxWeight parents (cfg.batchByWeight parents maxBatches) ∧
        (cfg.batchByWeight parents maxBatches).length ≤ maxBatches ∧
        ((cfg.batchByWeight parents maxBatches).length < maxBatches →
          (cfg.batchByWeight parents maxBatches).flatten = parents)) ∧
    ∀ (ctx : Ctx) (w : World), ∃ dropped : List Txid,
      (createCpfpBatch ctx w).2.store.pendingSpeedupParents =
        w.store.pendingSpeedupParents.filter (fun txid => decide (txid ∉ dropped)) ∧
      (∀ txid ∈ dropped, w.store.MayDrop ctx.settings.dispatcher txid) ∧
      ∀ parent ∈ w.store.readyParents, parent ∉ w.store.nextBatch ctx.settings.dispatcher →
        parent.txid ∉ dropped := by
  refine ⟨batchByWeight_groups, fun ctx w => ?_⟩
  obtain ⟨dropped, hpending, hgone⟩ := createCpfpBatch_thins ctx w
  refine ⟨dropped, hpending, hgone, fun parent hready hout hdropped => ?_⟩
  exact not_mayDrop_of_not_mem_nextBatch hready hout (hgone _ hdropped)

end BitcoinCoordinator
