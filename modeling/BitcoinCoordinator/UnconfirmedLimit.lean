import BitcoinCoordinator.BuildSplit
import BitcoinCoordinator.CappedTips
import BitcoinCoordinator.RosterReviews

/-!
# How many speedups are unconfirmed

A speedup that is built takes a free slot below the limit, or the place of the one it replaces. As every other
step lets the roster follow the one before, the number of unconfirmed speedups stays within the limit.
-/

namespace BitcoinCoordinator

open Foundation

variable {ctx : Ctx} {w w' : World} {m₀ : Roster Txid} {G : Roster Txid → Prop} {n : ℕ}

/-! ### Storing a speedup -/

/-- A call stopped after the record of a speedup was written and before its entry in the list was. -/
def World.IsHalfStored (w : World) : Prop := ∃ tx before, w.log.head? = some (.inserted tx before)

/-- A speedup is half stored when its insertion is the last event. -/
theorem World.isHalfStored_iff {w : World} : w.IsHalfStored ↔ w.log.head?.any Event.isInserted := by
  unfold World.IsHalfStored
  cases w.log.head? with
  | none => simp
  | some e => cases e <;> simp [Event.isInserted]

instance (w : World) : Decidable w.IsHalfStored := decidable_of_iff _ World.isHalfStored_iff.symm

/-- What a stored speedup finds: nobody waits, and it takes a free slot or the place of a standing speedup. -/
structure Admissible (n : ℕ) (m : Roster Txid) (replaces : Option Txid) : Prop where
  idle : ∀ txid, ¬ m.Waits txid
  place : (replaces = none ∧ m.standing.encard + 1 ≤ n) ∨ ∃ p ∈ m.standing, replaces = some p

/-- A bounded roster stays so when an admissible member is admitted. -/
theorem Bounded.admitted {m : Roster Txid} {txid : Txid} {replaces : Option Txid} (h : Bounded n m)
    (hadmissible : Admissible n m replaces) (hfree : ∀ r, ¬ m.Replacing r txid)
    (hself : replaces ≠ some txid) : Bounded n (m.set txid ⟨.waiting, replaces, false⟩) := by
  obtain ⟨hs, hbound⟩ := h
  rcases hadmissible.place with ⟨rfl, hroom⟩ | ⟨p, hp, rfl⟩
  · exact ⟨hs.admitted hadmissible.idle hfree hself (by simp),
      (Roster.encard_standing_admit_le hs hadmissible.idle).trans hroom⟩
  · refine ⟨hs.admitted hadmissible.idle hfree hself ?_,
      (Roster.encard_standing_replace_le hs hadmissible.idle hp).trans hbound⟩
    intro q hq hmasked
    cases hq
    exact hp.2 hmasked

/-- The identifiers listed after one was listed. -/
theorem Store.mem_list_iff {s : Store} {txid txid' : Txid} :
    txid ∈ (s.list txid').speedupList ↔ txid ∈ s.speedupList ∨ txid = txid' := by
  unfold list
  split
  · next hlisted =>
    constructor
    · exact Or.inl
    · rintro (hold | rfl)
      · exact hold
      · exact hlisted
  · change txid ∈ s.speedupList ++ [txid'] ↔ _
    simp

/-- The roster after a record was put and listed. -/
theorem Store.roster_list_setTx {s : Store} {tx : CoordinatedTx} {a : Member Txid}
    (hmember : tx.member? = some a) : ((s.setTx tx).list tx.txid).roster = s.roster.set tx.txid a := by
  funext txid
  have hin : txid ∈ ((s.setTx tx).list tx.txid).speedupList ↔ txid ∈ s.speedupList ∨ txid = tx.txid :=
    Store.mem_list_iff
  rw [Roster.get_set]
  unfold roster
  rw [Store.txs_list, Store.get_setTx]
  by_cases heq : txid = tx.txid
  · rw [if_pos heq, if_pos heq, if_pos (hin.mpr (Or.inr heq))]
    exact hmember
  · rw [if_neg heq, if_neg heq]
    by_cases hold : txid ∈ s.speedupList
    · rw [if_pos hold, if_pos (hin.mpr (Or.inl hold))]
    · rw [if_neg hold, if_neg fun hnew => (hin.mp hnew).elim hold heq]

/-- A store whose active speedups are listed, and a speedup put and listed. -/
theorem Store.ListsActive.list_setTx {s : Store} (h : s.ListsActive) (tx : CoordinatedTx) :
    ((s.setTx tx).list tx.txid).ListsActive := by
  intro txid tx' hget hspeedup hactive
  apply Store.mem_list_iff.mpr
  rw [Store.txs_list, Store.get_setTx] at hget
  split at hget
  · next heq => exact Or.inr heq
  · exact Or.inl (h txid tx' hget hspeedup hactive)

/-- A speedup that no listed one replaces is replaced by no member, and does not replace itself. -/
theorem Store.not_replacing_of_fresh {s : Store} {tx : CoordinatedTx} (hlive : tx.state ≠ .failed)
    (h : tx.hasLiveReplacement (s.speedupsOrdered ++ [tx]) = false) :
    (∀ r, ¬ s.roster.Replacing r tx.txid) ∧ tx.replaces? ≠ some tx.txid := by
  unfold CoordinatedTx.hasLiveReplacement at h
  rw [Bool.or_eq_false_iff, List.any_eq_false] at h
  have hnone : ∀ other ∈ s.speedupsOrdered ++ [tx], other.state ≠ .failed →
      other.replaces? ≠ some tx.txid := by
    intro other hother hliveOther hreplaces
    exact h.2 other hother (by simp [hliveOther, hreplaces])
  constructor
  · rintro r ⟨a, ha, hstage, hreplaces⟩
    obtain ⟨hin, other, hget, hother⟩ := Store.roster_eq_some.mp ha
    obtain ⟨_, _, rfl⟩ := CoordinatedTx.of_member? hother
    apply hnone other (List.mem_append_left _ (List.mem_filterMap.mpr ⟨r, hin, hget⟩)) ?_ hreplaces
    exact fun hfailed => hstage (TransactionState.stage_eq_failed.mpr hfailed)
  · exact hnone tx (List.mem_append_right _ (List.mem_singleton.mpr rfl)) hlive

/-- How a computation that stores a speedup may end: the roster is bounded, or it stopped with the speedup half
stored. -/
def Admits {α : Type} (n : ℕ) (m : Coord α) (ctx : Ctx) (w : World) : Prop :=
  Prog.Ends (fun x w' => Rostered (Bounded n) w' ∨ ((∃ stop, x = .error stop) ∧ w'.IsHalfStored)) m ctx w

/-- A computation that keeps a bound leaves nothing half stored. -/
theorem admits_of_rostered {α : Type} {m : Coord α} (h : Rostered (Bounded n) (m ctx w).2) :
    Admits n m ctx w := Or.inl h

/-- A sequence whose first part keeps what implies the bound. -/
theorem admits_bind {α β : Type} {m : Coord α} {k : α → Coord β} (h : Rostered G (m ctx w).2)
    (hG : ∀ m, G m → Bounded n m)
    (hk : ∀ a w₁, Rostered G w₁ → m ctx w = (.ok a, w₁) → Admits n (k a) ctx w₁) :
    Admits n (m >>= k) ctx w :=
  Prog.Ends.bind (R := fun _ w₁ => Rostered G w₁) h (fun _ _ hend => Or.inl (hend.mono (hG _))) hk

/-- A sequence whose first part stores a speedup. -/
theorem Admits.bind {α β : Type} {m : Coord α} {k : α → Coord β} (h : Admits n m ctx w)
    (hk : ∀ a w₁, Rostered (Bounded n) w₁ → m ctx w = (.ok a, w₁) → Admits n (k a) ctx w₁) :
    Admits n (m >>= k) ctx w := by
  refine Prog.Ends.bind h ?_ ?_
  · rintro e w₁ (hroster | ⟨-, hhalf⟩)
    · exact Or.inl hroster
    · exact Or.inr ⟨⟨e, rfl⟩, hhalf⟩
  · rintro a w₁ (hroster | ⟨⟨_, hstop⟩, -⟩) hrun
    · exact hk a w₁ hroster hrun
    · cases hstop

/-- Storing and listing an admissible speedup. -/
theorem insertSpeedup_admits {tx : CoordinatedTx} {kind : SpeedupKind} (hkind : tx.speedup? = some kind)
    (hstate : tx.state = .toDispatch) (hmark : kind.context.replacedBy = none)
    (h : Rostered (fun m => Bounded n m ∧ Admissible n m tx.replaces?) w) :
    Admits n (insertSpeedup tx) ctx w := by
  have hbounded : Rostered (Bounded n) w := h.mono And.left
  have hmember : tx.member? = some ⟨.waiting, tx.replaces?, false⟩ := by
    rw [CoordinatedTx.member?_of_speedup? hkind, hstate]
    unfold SpeedupContext.isBeingReplaced
    rw [hmark]
    rfl
  have hdone : ∀ w' : World, w.log <:+ w'.log → .inserted tx w.store ∈ w'.log →
      w'.store = (w.store.setTx tx).list tx.txid → Rostered (Bounded n) w' := by
    intro w' hlog hnoted hstore hstays harrives
    obtain ⟨⟨hroster, hadmissible⟩, hlists⟩ :=
      h (hstays.of_suffix hlog) fun e he => harrives e (hlog.subset he)
    obtain ⟨hfree, hself⟩ := Store.not_replacing_of_fresh (by rw [hstate]; simp) (harrives _ hnoted)
    rw [hstore, Store.roster_list_setTx hmember]
    exact ⟨hroster.admitted hadmissible hfree hself, hlists.list_setTx tx⟩
  have hend : Inserting tx w (insertSpeedup tx ctx w) := insertSpeedup_inserting tx
  unfold Admits Prog.Ends
  generalize insertSpeedup tx ctx w = result at hend ⊢
  cases hend with
  | refused stop => exact Or.inl hbounded.asked
  | unlisted stop => exact Or.inr ⟨⟨stop, rfl⟩, tx, w.store, rfl⟩
  | relisted hlisted =>
    left
    apply hdone
    · exact (List.suffix_cons _ _).trans ((List.suffix_cons _ _).trans (List.suffix_cons _ _))
    · exact List.mem_cons_of_mem _ List.mem_cons_self
    · exact (if_pos hlisted).symm
  | listed =>
    left
    apply hdone
    · exact (List.suffix_cons _ _).trans ((List.suffix_cons _ _).trans
        ((List.suffix_cons _ _).trans (List.suffix_cons _ _)))
    · exact List.mem_cons_of_mem _ (List.mem_cons_of_mem _ List.mem_cons_self)
    · rfl

/-- Saving an admissible speedup. -/
theorem saveSpeedup_admits {tx : Transaction} {feeInfo : FeeInfo} {kind : SpeedupKind} {height : BlockHeight}
    (hmark : kind.context.replacedBy = none)
    (h : Rostered (fun m => Bounded n m ∧ Admissible n m (speedupRecord tx feeInfo kind height).replaces?) w) :
    Admits n (saveSpeedup tx feeInfo kind height) ctx w := by
  have hkind : (speedupRecord tx feeInfo kind height).speedup? = some kind := rfl
  apply Admits.bind (insertSpeedup_admits hkind rfl hmark h)
  intro _ w₁ h₁ _
  exact admits_of_rostered (rostered_calm (fun _ => monitorWatch_calm _ _) w₁ h₁)

/-! ### What stands -/

/-- The speedups that are unconfirmed and not being replaced. -/
def Store.standingSpeedups (s : Store) : List CoordinatedTx :=
  s.txs.values.filter fun tx => tx.speedup?.isSome &&
    (decide (tx.state = .inMempool) || decide (tx.state = .toDispatch)) &&
    !tx.hasLiveReplacement s.speedupsOrdered

/-- A listed speedup that is unconfirmed and not being replaced stands in the roster. -/
theorem Store.mem_standing {s : Store} {tx : CoordinatedTx} (hget : s.txs.get tx.txid = some tx)
    (hlisted : tx.txid ∈ s.speedupList) (hspeedup : tx.speedup?.isSome)
    (hstate : tx.state = .inMempool ∨ tx.state = .toDispatch)
    (hlive : tx.hasLiveReplacement s.speedupsOrdered = false) : tx.txid ∈ s.roster.standing := by
  obtain ⟨kind, hkind⟩ := Option.isSome_iff_exists.mp hspeedup
  refine ⟨⟨_, (Store.roster_of_get hget hlisted).trans (CoordinatedTx.member?_of_speedup? hkind), ?_⟩, ?_⟩
  · rcases hstate with hmempool | hwaits
    · exact Or.inr (TransactionState.stage_eq_aloft.mpr hmempool)
    · exact Or.inl (TransactionState.stage_eq_waiting.mpr hwaits)
  · rw [Store.masked_iff hget hlisted, hlive]
    simp

/-- When the active speedups are listed, those that stand are no more than stand in the roster. -/
theorem Store.length_standingSpeedups_le {s : Store} (h : s.ListsActive) :
    (s.standingSpeedups.length : ℕ∞) ≤ s.roster.standing.encard := by
  have hnodup : (s.standingSpeedups.map CoordinatedTx.txid).Nodup :=
    List.Nodup.sublist (List.filter_sublist.map _) s.values_nodup
  have hcard : (s.standingSpeedups.map CoordinatedTx.txid).toFinset.card = s.standingSpeedups.length := by
    rw [List.toFinset_card_of_nodup hnodup, List.length_map]
  rw [← hcard, ← Set.encard_coe_eq_coe_finsetCard]
  apply Set.encard_le_encard
  intro txid hmem
  obtain ⟨tx, htx, rfl⟩ := List.mem_map.mp (List.mem_toFinset.mp hmem)
  obtain ⟨hvalues, hstands⟩ := List.mem_filter.mp htx
  simp only [Bool.and_eq_true, Bool.or_eq_true, decide_eq_true_eq, Bool.not_eq_true'] at hstands
  obtain ⟨⟨hspeedup, hstate⟩, hlive⟩ := hstands
  have hget := Store.mem_values.mp hvalues
  have hactive : tx.state.isActive := by
    rcases hstate with hstate | hstate <;> rw [hstate] <;> rfl
  exact Store.mem_standing hget (h _ tx hget hspeedup hactive) hspeedup hstate hlive

/-- When no listed speedup waits, no member does. -/
theorem Store.Idle.not_waits {s : Store} (h : s.Idle) (txid : Txid) : ¬ s.roster.Waits txid := by
  rintro ⟨a, hmember, hwaiting⟩
  obtain ⟨hlisted, tx, hget, hmember⟩ := Store.roster_eq_some.mp hmember
  obtain ⟨_, _, rfl⟩ := CoordinatedTx.of_member? hmember
  exact h txid hlisted tx hget (TransactionState.stage_eq_waiting.mp hwaiting)

/-- When no listed speedup waits, those that stand are in the mempool and counted there. -/
theorem Store.Idle.encard_standing_le {s : Store} (h : s.Idle) :
    s.roster.standing.encard ≤ (s.unconfirmedSpeedups.length : ℕ∞) := by
  have hsub : s.roster.standing ⊆ ((s.unconfirmedSpeedups.map CoordinatedTx.txid).toFinset : Set Txid) := by
    rintro txid ⟨⟨a, hroster, hstage⟩, hout⟩
    obtain ⟨hlisted, tx, hget, hmember⟩ := Store.roster_eq_some.mp hroster
    obtain rfl : tx.txid = txid := s.keyed _ tx hget
    obtain ⟨_, _, rfl⟩ := CoordinatedTx.of_member? hmember
    have hmempool : tx.state = .inMempool := by
      rcases hstage with hwaits | haloft
      · exact absurd (TransactionState.stage_eq_waiting.mp hwaits) (h _ hlisted tx hget)
      · exact TransactionState.stage_eq_aloft.mp haloft
    rw [Store.masked_iff hget hlisted, Bool.not_eq_true] at hout
    apply List.mem_toFinset.mpr
    refine List.mem_map.mpr ⟨tx, List.mem_filter.mpr ⟨List.mem_filterMap.mpr ⟨_, hlisted, hget⟩, ?_⟩, rfl⟩
    unfold isLiveInMempool
    rw [hmempool, hout]
    rfl
  apply (Set.encard_le_encard hsub).trans
  rw [Set.encard_coe_eq_coe_finsetCard]
  have hcard := List.toFinset_card_le (s.unconfirmedSpeedups.map CoordinatedTx.txid)
  rw [List.length_map] at hcard
  exact_mod_cast hcard

/-! ### The builders -/

/-- A boost replaces its predecessor when no slot is free. -/
theorem planBoost_useRbf {cfg : BitcoinSettings} {s : Store} {height : BlockHeight} {plan : BoostPlan}
    (h : planBoost cfg s.speedupsOrdered height = some plan) :
    plan.useRbf = true ↔ cfg.speedup.maxUnconfirmedSpeedups ≤ s.unconfirmedSpeedups.length := by
  unfold planBoost at h
  split at h
  · cases h
  split at h
  · cases h
  split at h
  · cases h
  split at h
  · cases h
  split at h
  · cases h
  split at h
  · cases h
  cases h
  exact decide_eq_true_iff

/-- The transaction a planned boost replaces. -/
theorem BoostPlan.replaces?_eq (plan : BoostPlan) (tx : Transaction) (feeInfo : FeeInfo)
    (inputs : List Utxo) (context : SpeedupContext) (height : BlockHeight) :
    (speedupRecord tx feeInfo (plan.kind inputs context) height).replaces? =
      if plan.useRbf then some plan.last.txid else none := by
  unfold BoostPlan.kind
  split <;> rfl

/-- The boost of a plan has the context it was built with. -/
theorem BoostPlan.context_kind (plan : BoostPlan) (inputs : List Utxo) (context : SpeedupContext) :
    (plan.kind inputs context).context = context := by
  unfold BoostPlan.kind
  split <;> rfl

/-- A roster in which nobody waits takes a new member while a slot is free. -/
theorem Store.Idle.admissible {s : Store} (h : s.Idle) (hroom : s.unconfirmedSpeedups.length < n) :
    Admissible n s.roster none := by
  refine ⟨h.not_waits, Or.inl ⟨rfl, ?_⟩⟩
  apply (add_le_add_left h.encard_standing_le 1).trans
  exact_mod_cast hroom

/-- A planned boost is admissible. -/
theorem planBoost_admissible {cfg : BitcoinSettings} {s : Store} {height : BlockHeight} {plan : BoostPlan}
    (h : planBoost cfg s.speedupsOrdered height = some plan) :
    Admissible cfg.speedup.maxUnconfirmedSpeedups s.roster
      (if plan.useRbf then some plan.last.txid else none) := by
  have hsound := planBoost_sound h
  have hidle : s.Idle := by
    intro txid hlisted tx hget
    exact hsound.idle tx (List.mem_filterMap.mpr ⟨txid, hlisted, hget⟩)
  split
  · obtain ⟨hlisted, hget⟩ := mem_speedupsOrdered hsound.mem
    obtain ⟨kind, hkind, -⟩ := hsound.speedup
    have hlive := List.find?_some hsound.last
    unfold isLiveInMempool at hlive
    rw [Bool.and_eq_true, decide_eq_true_eq, Bool.not_eq_true'] at hlive
    refine ⟨hidle.not_waits, Or.inr ⟨_, Store.mem_standing hget hlisted ?_ (Or.inl hlive.1) hlive.2, rfl⟩⟩
    rw [hkind]
    rfl
  · next hcpfp =>
    apply hidle.admissible
    rw [planBoost_useRbf h] at hcpfp
    exact not_le.mp hcpfp

/-- What is known of a roster is steady. -/
theorem steady_rostered : Steady (Rostered G) :=
  steady_of_quiet (fun _ _ h hquiet => h.quiet hquiet) fun _ _ _ h => h.noted _

/-- Recording that a predecessor pays the maximum rate changes no roster. -/
theorem markPredecessorAtCap_rostered (txid : Txid) (maxFeerate : ℕ) :
    Prog.Keeps (Rostered G) (markPredecessorAtCap txid maxFeerate) ctx := by
  intro w h
  apply rostered_found
  · exact h
  · intro predecessor hget
    have hid : predecessor.txid = txid := w.store.keyed _ _ hget
    rw [← hid] at hget
    refine writeStore_rostered h (h.putState hget rfl rfl id ?_)
    intro a _ hroster hmember hstage
    dsimp only
    rw [← hstage, Roster.set_eq_self hmember]
    exact hroster

/-- Saving a planned boost. -/
theorem saveBoost_admits {plan : BoostPlan} {nextBump : ℚ} {built : SpeedupBuildResult} {height : BlockHeight}
    (h : Rostered (fun m => Bounded n m ∧
      Admissible n m (if plan.useRbf then some plan.last.txid else none)) w) :
    Admits n (saveBoost plan nextBump built height) ctx w := by
  apply ends_settings
  apply Admits.bind
  · apply saveSpeedup_admits
    · rw [plan.context_kind]
      rfl
    · rw [plan.replaces?_eq]
      exact h
  intro _ w₁ h₁ _
  apply admits_bind (rostered_calm (fun _ => reportIfCapped_calm _ _ _ _) w₁ h₁) fun _ => id
  intro _ w₂ h₂ _
  apply admits_of_rostered
  apply rostered_ite
  · exact fun _ => markPredecessorAtCap_rostered _ _ w₂ h₂
  · exact fun _ => h₂

/-- Building and saving a planned boost. -/
theorem runBoost_admits {plan : BoostPlan} {all : List CoordinatedTx} {height : BlockHeight}
    (h : Rostered (fun m => Bounded n m ∧
      Admissible n m (if plan.useRbf then some plan.last.txid else none)) w) :
    Admits n (runBoost plan all height) ctx w := by
  apply ends_settings
  apply admits_bind (rostered_calm (fun _ => getNetworkFeeRate_calm) w h) fun _ => And.left
  intro fee w₁ h₁ _
  apply admits_bind (rostered_calm (fun _ => publishFeeNews_calm _) w₁ h₁) fun _ => And.left
  intro _ w₂ h₂ _
  apply admits_bind (buildSpeedup_keeps steady_rostered setSpent_rostered w₂ h₂) fun _ => And.left
  intro built w₃ h₃ _
  cases built with
  | none => exact admits_of_rostered (h₃.mono And.left)
  | some built => exact saveBoost_admits h₃

/-- Step 5. -/
theorem boostIfStale_admits (skip : Bool)
    (h : Rostered (Bounded ctx.settings.speedup.maxUnconfirmedSpeedups) w) :
    Admits ctx.settings.speedup.maxUnconfirmedSpeedups (boostIfStale skip) ctx w := by
  apply Prog.Ends.ite <;> intro _
  · exact admits_of_rostered h
  · apply ends_settings
    apply admits_bind (rostered_calm (fun _ => query_calm) w h) fun _ => id
    intro height w₁ h₁ _
    apply ends_read
    cases hplan : planBoost ctx.settings w₁.store.speedupsOrdered height with
    | none => exact admits_of_rostered h₁
    | some plan =>
      have hready : Rostered (fun m => Bounded ctx.settings.speedup.maxUnconfirmedSpeedups m ∧
          Admissible ctx.settings.speedup.maxUnconfirmedSpeedups m
            (if plan.useRbf then some plan.last.txid else none)) w₁ :=
        h₁.mono fun hbounded => ⟨hbounded, planBoost_admissible hplan⟩
      apply admits_bind (m := note _) (hready.noted _) fun _ => And.left
      intro _ w₂ h₂ _
      exact runBoost_admits h₂

/-- Saving the CPFP of a batch. -/
theorem saveCpfpBatch_admits {batch : List CoordinatedTx} {bump : ℚ} {built : SpeedupBuildResult}
    (h : Rostered (fun m => Bounded n m ∧ Admissible n m none) w) :
    Admits n (saveCpfpBatch batch bump built) ctx w := by
  have htake : ∀ w, Calm (Prog.forEach batch takePendingParent) ctx w := fun _ =>
    Prog.Reaches.forEach fun parent _ _ => takePendingParent_calm parent
  apply admits_bind (rostered_calm htake w h) fun _ => And.left
  intro _ w₁ h₁ _
  apply admits_bind (rostered_calm (fun _ => reportIfCapped_calm _ _ _ _) w₁ h₁) fun _ => And.left
  intro _ w₂ h₂ _
  apply admits_bind (rostered_calm (fun _ => query_calm) w₂ h₂) fun _ => And.left
  intro height w₃ h₃ _
  exact saveSpeedup_admits rfl h₃

/-- Building and saving the CPFP of a batch. -/
theorem runCpfpBatch_admits {parents unconfirmed : List CoordinatedTx}
    (h : Rostered (fun m => Bounded n m ∧ Admissible n m none) w) :
    Admits n (runCpfpBatch parents unconfirmed) ctx w := by
  apply ends_settings
  apply admits_bind (rostered_calm (fun _ => getNetworkFeeRate_calm) w h) fun _ => And.left
  intro fee w₁ h₁ _
  apply admits_bind (rostered_calm (fun _ => publishFeeNews_calm _) w₁ h₁) fun _ => And.left
  intro _ w₂ h₂ _
  cases (ctx.settings.dispatcher.batchByWeight parents 1).getLast? with
  | none => exact admits_of_rostered (h₂.mono And.left)
  | some batch =>
    apply Prog.Ends.ite <;> intro _
    · exact admits_of_rostered (h₂.mono And.left)
    · apply admits_bind (buildSpeedup_keeps steady_rostered setSpent_rostered w₂ h₂) fun _ => And.left
      intro built w₃ h₃ _
      cases built with
      | none => exact admits_of_rostered (h₃.mono And.left)
      | some built => exact saveCpfpBatch_admits h₃

/-- Step 6. -/
theorem createCpfpBatch_admits (h : Rostered (Bounded ctx.settings.speedup.maxUnconfirmedSpeedups) w) :
    Admits ctx.settings.speedup.maxUnconfirmedSpeedups createCpfpBatch ctx w := by
  apply ends_settings
  apply admits_bind (rostered_calm (fun _ => getPendingSpeedupParents_calm) w h) fun _ => id
  intro parents w₁ h₁ _
  apply ends_read
  apply Prog.Ends.ite
  · exact fun _ => admits_of_rostered h₁
  · intro hfree
    rw [not_or, not_or, Bool.not_eq_true, List.any_eq_false, not_le] at hfree
    obtain ⟨-, hwaits, hroom⟩ := hfree
    apply runCpfpBatch_admits
    apply h₁.mono
    intro hbounded
    refine ⟨hbounded, Store.Idle.admissible ?_ hroom⟩
    intro txid hlisted tx hget
    simpa using hwaits tx (List.mem_filterMap.mpr ⟨txid, hlisted, hget⟩)

/-! ### Runs -/

/-- The steps 1 to 6. -/
theorem pipeline_admits (h : Rostered (Bounded ctx.settings.speedup.maxUnconfirmedSpeedups) w)
    (htidy : IsTidy w) : Admits ctx.settings.speedup.maxUnconfirmedSpeedups pipeline ctx w := by
  apply admits_bind (reviewActive_rostered h) fun _ => id
  intro _ w₁ h₁ hreview
  have htidy₁ : True → IsTidy w₁ := Stepwise.keeps_tidy reviewActive_stepwise (fun _ => htidy) hreview
  apply admits_bind (reviewSpeedups_rostered h₁ (htidy₁ trivial)) fun _ => id
  intro _ w₂ h₂ hspeedups
  have htidy₂ := Stepwise.keeps_tidy (reviewSpeedups_stepwise htidy₁) htidy₁ hspeedups
  apply admits_bind (dispatchPending_rostered h₂) fun _ => id
  intro _ w₃ h₃ hdispatch
  have htidy₃ := Stepwise.keeps_tidy (stepwise_of_plainly dispatchPending_plainly) htidy₂ hdispatch
  apply admits_bind (dispatchPendingSpeedups_rostered h₃ (htidy₃ trivial)) fun _ => id
  intro failed w₄ h₄ _
  apply Admits.bind (boostIfStale_admits failed h₄)
  intro _ w₅ h₅ _
  exact createCpfpBatch_admits h₅

/-- One tick. -/
theorem tick_admits (h : Rostered (Bounded ctx.settings.speedup.maxUnconfirmedSpeedups) w)
    (htidy : IsTidy w) : Admits ctx.settings.speedup.maxUnconfirmedSpeedups tick ctx w := by
  apply admits_bind (rostered_calm (fun _ => query_calm) w h) fun _ => id
  intro _ w₁ h₁ htick
  have htidy₁ : True → IsTidy w₁ := tidy_of_calm query_calm (fun _ => htidy) htick
  apply admits_bind (rostered_calm (fun _ => query_calm) w₁ h₁) fun _ => id
  intro ready w₂ h₂ hready
  have htidy₂ := tidy_of_calm query_calm htidy₁ hready
  apply Prog.Ends.ite <;> intro _
  · apply admits_bind (rostered_calm (fun _ => query_calm) w₂ h₂) fun _ => id
    intro height w₃ h₃ hheight
    have htidy₃ := tidy_of_calm query_calm htidy₂ hheight
    apply admits_bind (rostered_calm (fun _ => cleanupNews_calm height) w₃ h₃) fun _ => id
    intro _ w₄ h₄ hcleanup
    exact pipeline_admits h₄ (tidy_of_calm (cleanupNews_calm height) htidy₃ hcleanup trivial)
  · exact admits_of_rostered h₂

/-- A request keeps the number of standing members within the limit, or leaves a speedup half stored. -/
theorem exec_bounded (ctx : Ctx) {request : Request}
    (h : Rostered (Bounded ctx.settings.speedup.maxUnconfirmedSpeedups) w) (htidy : IsTidy w) :
    Rostered (Bounded ctx.settings.speedup.maxUnconfirmedSpeedups) (exec request ctx w).2 ∨
      (exec request ctx w).2.IsHalfStored := by
  by_cases hrequest : request = .tick
  · rw [hrequest]
    exact (tick_admits h htidy).imp id And.right
  · exact Or.inl (exec_rostered hrequest h)

/-- A run no call of which leaves a speedup half stored keeps the number of standing members within the limit. -/
theorem runCalls_bounded {cfg : BitcoinSettings} {calls : List Call}
    (h : Rostered (Bounded cfg.speedup.maxUnconfirmedSpeedups) w) (htidy : IsTidy w)
    (hwhole : ∀ before, before <+: calls → ¬ (runCalls cfg before w).IsHalfStored) :
    Rostered (Bounded cfg.speedup.maxUnconfirmedSpeedups) (runCalls cfg calls w) := by
  induction calls generalizing w with
  | nil => exact h
  | cons call rest ih =>
    have hcall : ¬ (exec call.request ⟨cfg, call.answers⟩ w).2.IsHalfStored := hwhole [call] (by simp)
    have hbounded : Rostered (Bounded cfg.speedup.maxUnconfirmedSpeedups)
        (exec call.request ⟨cfg, call.answers⟩ w).2 :=
      (exec_bounded ⟨cfg, call.answers⟩ h htidy).resolve_right hcall
    apply ih hbounded (exec_tidy htidy)
    intro before hbefore
    exact hwhole (call :: before) (List.cons_prefix_cons.mpr ⟨rfl, hbefore⟩)

/-- The roster of a fresh store is bounded. -/
theorem rostered_init (n : ℕ) : Rostered (Bounded n) World.init := by
  have hnone : ∀ txid, Store.empty.roster txid = none := fun _ => rfl
  intro _ _
  refine ⟨⟨⟨?_, ?_, ?_⟩, ?_⟩, ?_⟩
  · rintro k ⟨a, ha, -⟩
    cases ha
  · intro r a k b ha
    cases ha
  · rintro r r' k ⟨a, ha, -⟩
    cases ha
  · have hempty : World.init.store.roster.standing = ∅ := by
      apply Set.eq_empty_of_forall_notMem
      rintro k ⟨⟨a, ha, -⟩, -⟩
      cases ha
    rw [hempty]
    simp
  · intro txid tx hget
    cases hget

/-- In every run in which no confirmed speedup goes back to the mempool or to dispatch, no call stops between the
two writes that store a speedup, and none is stored that is being replaced, the unconfirmed speedups without a
live replacement are within the limit. -/
theorem length_standingSpeedups_le_max (cfg : BitcoinSettings) (calls : List Call)
    (hstays : ConfirmedStays (runCalls cfg calls World.init).log)
    (hwhole : ∀ before, before <+: calls → ¬ (runCalls cfg before World.init).IsHalfStored)
    (harrives : ArrivesUnreplaced (runCalls cfg calls World.init).log) :
    (runCalls cfg calls World.init).store.standingSpeedups.length ≤
      cfg.speedup.maxUnconfirmedSpeedups := by
  have htidy : IsTidy World.init := List.nodup_nil
  obtain ⟨⟨-, hbound⟩, hlists⟩ := runCalls_bounded (rostered_init _) htidy hwhole hstays harrives
  exact_mod_cast (Store.length_standingSpeedups_le hlists).trans hbound

/-- A CPFP and an RBF of it, which fails, and a CPFP that is built anew and boosted keep to a limit of one. -/
theorem length_standingSpeedups_rebuiltTipCalls :
    (runCalls lowCapSettings rebuiltTipCalls World.init).store.standingSpeedups.length ≤ 1 := by
  apply length_standingSpeedups_le_max lowCapSettings rebuiltTipCalls
  · decide +kernel
  · have hwhole : ∀ before ∈ rebuiltTipCalls.inits,
        ¬ (runCalls lowCapSettings before World.init).IsHalfStored := by decide +kernel
    exact fun before hbefore => hwhole before ((List.mem_inits before rebuiltTipCalls).mpr hbefore)
  · decide +kernel

/-- Two speedups are unconfirmed where one may be, since the first was not listed when the second was built. -/
theorem exists_standing_beyond_max :
    ∃ (cfg : BitcoinSettings) (calls : List Call), cfg.validate = .ok () ∧
      ConfirmedStays (runCalls cfg calls World.init).log ∧
      ArrivesUnreplaced (runCalls cfg calls World.init).log ∧
      cfg.speedup.maxUnconfirmedSpeedups <
        (runCalls cfg calls World.init).store.standingSpeedups.length := by
  refine ⟨lowCapSettings, unlistedCalls, ?_, ?_, ?_, ?_⟩
  · decide +kernel
  · decide +kernel
  · decide +kernel
  · decide +kernel

end BitcoinCoordinator
