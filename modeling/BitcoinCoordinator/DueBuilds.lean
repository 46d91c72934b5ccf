import BitcoinCoordinator.ChainTopUp
import BitcoinCoordinator.TickBroadcasts
import BitcoinCoordinator.WeightBatching

/-!
# What a tick leaves to be built

A tick that comes to its end builds what is due. Unless a speedup waits for dispatch or the lack of funding was
published, no parent that could be accelerated is pending while the chain of speedups has a free slot, and the
latest speedup is not stale, or a boost has failed in that very tick.
-/

namespace BitcoinCoordinator

open Foundation

variable {α : Type} {ctx : Ctx} {tidy : Prop} {phase : Phase} {w w' : World}

/-! ### Pending parents -/

/-- Every pending parent is tracked as one that needs a speedup. -/
def PendsParents (w : World) : Prop := ∀ txid ∈ w.store.pendingSpeedupParents, w.store.isNeedsSpeedup txid

/-- What needs a speedup is tracked as such. -/
theorem Store.isNeedsSpeedup_iff {s : Store} {txid : Txid} :
    s.isNeedsSpeedup txid = true ↔ ∃ tx, s.txs.get txid = some tx ∧ tx.isNeedsSpeedup = true := by
  unfold Store.isNeedsSpeedup
  cases s.txs.get txid <;> simp

/-- Only the record of a transaction says whether it needs a speedup. -/
theorem Store.isNeedsSpeedup_congr {s s' : Store} {txid : Txid} (hget : s'.txs.get txid = s.txs.get txid) :
    s'.isNeedsSpeedup txid = s.isNeedsSpeedup txid := by
  unfold Store.isNeedsSpeedup
  rw [hget]

/-- A record is put in the place of one with the same body. -/
theorem PendsParents.put {tx old : CoordinatedTx} (h : PendsParents w) (hget : w.store.txs.get tx.txid = some old)
    (hbody : tx.body = old.body) : PendsParents (w.written (w.store.setTx tx)) := by
  intro txid hin
  by_cases hid : txid = tx.txid
  · subst hid
    obtain ⟨record, hrecord, hneeds⟩ := Store.isNeedsSpeedup_iff.mp (h tx.txid hin)
    rw [hget] at hrecord
    cases hrecord
    refine Store.isNeedsSpeedup_iff.mpr ⟨tx, (w.store.get_setTx tx tx.txid).trans (if_pos rfl), ?_⟩
    rw [CoordinatedTx.isNeedsSpeedup_of_body hbody]
    exact hneeds
  · have hother : (w.store.setTx tx).txs.get txid = w.store.txs.get txid :=
      (w.store.get_setTx tx txid).trans (if_neg hid)
    exact (Store.isNeedsSpeedup_congr hother).trans (h txid hin)

/-- A record is put under an identifier that is not pending. -/
theorem PendsParents.put_free {tx : CoordinatedTx} (h : PendsParents w)
    (hfree : tx.txid ∉ w.store.pendingSpeedupParents) : PendsParents (w.written (w.store.setTx tx)) := by
  intro txid hin
  have hid : txid ≠ tx.txid := fun heq => hfree (heq ▸ hin)
  have hother : (w.store.setTx tx).txs.get txid = w.store.txs.get txid :=
    (w.store.get_setTx tx txid).trans (if_neg hid)
  exact (Store.isNeedsSpeedup_congr hother).trans (h txid hin)

/-- A record that is not pending is dropped. -/
theorem PendsParents.erased {txid : Txid} (h : PendsParents w) (hfree : txid ∉ w.store.pendingSpeedupParents) :
    PendsParents (w.written (w.store.eraseTx txid)) := by
  intro id hin
  have hid : id ≠ txid := fun heq => hfree (heq ▸ hin)
  have hother : (w.store.eraseTx txid).txs.get id = w.store.txs.get id :=
    (w.store.get_eraseTx txid id).trans (if_neg hid)
  exact (Store.isNeedsSpeedup_congr hother).trans (h id hin)

/-- The lists are written, and the pending one only shrinks. -/
theorem PendsParents.thinned {s : Store} (h : PendsParents w) (htxs : s.txs = w.store.txs)
    (hpending : s.pendingSpeedupParents ⊆ w.store.pendingSpeedupParents) : PendsParents (w.written s) := by
  intro txid hin
  have hsame : s.txs.get txid = w.store.txs.get txid := by rw [htxs]
  exact (Store.isNeedsSpeedup_congr hsame).trans (h txid (hpending hin))

/-- A plain move keeps the parents pending. -/
theorem PendsParents.plain (h : PendsParents w) (hplain : Plain ctx True phase w w') : PendsParents w' := by
  cases hplain with
  | quiet hquiet =>
    cases hquiet with
    | wrote s hwrite =>
      cases hwrite with
      | unpended txid => exact h.thinned rfl fun _ => List.mem_of_mem_filter
      | flagged op record hget spent => exact h.thinned rfl (List.Subset.refl _)
    | prepended txids hneeds hrequeue =>
      intro txid hin
      rcases List.mem_append.mp hin with hnew | hold
      · exact hneeds txid (List.mem_of_mem_filter hnew)
      · exact h txid hold
    | _ => exact h
  | changed tx tx' hget hchange _ =>
    rw [← hchange.txid_eq] at hget
    exact h.put hget hchange.body_eq
  | vanished tx height hget hstep _ _ =>
    have hbody : (tx.requeued (height + ctx.settings.monitor.maxMonitoringConfirmations)).body = tx.body := rfl
    exact h.put hget hbody
  | rewrote copy updated hrewrite _ hdrift _ =>
    obtain ⟨record, hget, hdrifted⟩ := hdrift trivial
    rw [← hrewrite.txid_eq] at hget
    exact h.put hget (hrewrite.body_eq.trans hdrifted.body_eq.symm)
  | _ => exact h

/-- A speedup is stored under an identifier that is not pending, wherever it stops. -/
theorem PendsParents.inserting {tx : CoordinatedTx} {r : Except Stop Unit} (h : PendsParents w)
    (hfree : IsBuilt w'.log tx.txid → tx.txid ∉ w.store.pendingSpeedupParents)
    (hend : Inserting tx w (r, w')) : PendsParents w' := by
  have hheld : .inserted tx w.store ∈ w'.log → PendsParents (w.holding tx) :=
    fun hnote => h.put_free (hfree ⟨tx, w.store, hnote, rfl⟩)
  cases hend with
  | refused stop => exact h
  | unlisted stop => exact hheld List.mem_cons_self
  | relisted hlisted => exact hheld (List.mem_cons_of_mem _ List.mem_cons_self)
  | listed =>
    have hlists := (w.store.setTx tx).list_other tx.txid
    have hlisted : PendsParents ((w.holding tx).written ((w.store.setTx tx).list tx.txid)) := by
      apply (hheld (by simp [World.noted, World.written, World.holding])).thinned hlists.1
      rw [hlists.2.1]
      exact List.Subset.refl _
    exact hlisted

/-- A record that is not pending is dropped with its entry in the speedup list, wherever it stops. -/
theorem PendsParents.removed {txid : Txid} (h : PendsParents w) (hfree : txid ∉ w.store.pendingSpeedupParents) :
    PendsParents (removeTx txid ctx w).2 := by
  have hlist : ∀ w, PendsParents w → PendsParents (removeSpeedupFromList txid ctx w).2 :=
    OneWrite.keeps (fun _ => removeSpeedupFromList_oneWrite txid) (fun _ hkept => hkept)
      fun _ hkept => hkept.thinned rfl (List.Subset.refl _)
  unfold removeTx
  cases hrun : writeStore (fun s => s.eraseTx txid) ctx w with
  | mk r w₁ =>
    have herased : PendsParents w₁ := by
      unfold writeStore at hrun
      split at hrun <;> cases hrun
      · exact h.erased hfree
      · exact h
    cases r with
    | error stop =>
      rw [Prog.bind_of_error hrun]
      exact herased
    | ok _ =>
      rw [Prog.bind_of_ok hrun]
      exact hlist w₁ herased

/-- A client transaction is stored under a fresh identifier, and pending when it needs a speedup, wherever it
stops. -/
theorem PendsParents.registered {tx : CoordinatedTx} (h : PendsParents w)
    (hfresh : w.store.txs.get tx.txid = none) : PendsParents (storeRegistered tx ctx w).2 := by
  have hfree : tx.txid ∉ w.store.pendingSpeedupParents := by
    intro hin
    obtain ⟨record, hrecord, -⟩ := Store.isNeedsSpeedup_iff.mp (h _ hin)
    rw [hfresh] at hrecord
    cases hrecord
  have hnote : note (.registering tx) ctx w = (.ok (), w.noted (.registering tx w.store)) := rfl
  unfold storeRegistered
  rw [Prog.bind_of_ok hnote]
  cases hrun : insertTx tx ctx (w.noted (.registering tx w.store)) with
  | mk r w₁ =>
    cases r with
    | error stop =>
      have hrefused : PendsParents w₁ := by
        unfold insertTx writeStore at hrun
        split at hrun <;> cases hrun
        exact h
      rw [Prog.bind_of_error hrun]
      exact hrefused
    | ok _ =>
      obtain ⟨-, hw₁⟩ := writeStore_ok.mp hrun
      have hstored : PendsParents w₁ := by
        rw [hw₁]
        exact h.put_free hfree
      rw [Prog.bind_of_ok hrun]
      split
      · next hneeds =>
        have hone : OneWrite (fun s => s.pend tx.txid) w₁ (addPendingSpeedupParent tx.txid ctx w₁) :=
          addPendingSpeedupParent_oneWrite tx.txid
        have htracked : w₁.store.isNeedsSpeedup tx.txid = true := by
          apply Store.isNeedsSpeedup_iff.mpr
          rw [hw₁]
          exact ⟨tx, (w.store.get_setTx tx tx.txid).trans (if_pos rfl), hneeds⟩
        generalize addPendingSpeedupParent tx.txid ctx w₁ = result at hone
        cases hone with
        | same _ => exact hstored
        | refused _ => exact hstored
        | taken =>
          intro txid hin
          change txid ∈ (w₁.store.pend tx.txid).pendingSpeedupParents at hin
          have hneeded : w₁.store.isNeedsSpeedup txid = true := by
            rw [Store.pendingSpeedupParents_pend] at hin
            split at hin
            · exact hstored txid hin
            · rcases List.mem_append.mp hin with hold | hnew
              · exact hstored txid hold
              · rw [List.mem_singleton.mp hnew]
                exact htracked
          have hsame : (w₁.store.pend tx.txid).txs.get txid = w₁.store.txs.get txid := by rw [Store.txs_pend]
          exact (Store.isNeedsSpeedup_congr hsame).trans hneeded
      · exact hstored

/-- What is pending is not stored as a speedup, as long as no client registers a transaction that was built. -/
theorem PendsParents.not_mem_of_built (h : PendsParents w) (horigins : OriginsKnown w) {log : List Event}
    (hlog : w.log ⊆ log) (hapart : KeptApart log) {txid : Txid} (hbuilt : IsBuilt log txid) :
    txid ∉ w.store.pendingSpeedupParents := by
  intro hin
  obtain ⟨record, hrecord, hneeds⟩ := Store.isNeedsSpeedup_iff.mp (h txid hin)
  have hclient : record.speedup? = none := by
    unfold CoordinatedTx.isNeedsSpeedup at hneeds
    unfold CoordinatedTx.speedup?
    cases hkind : record.kind with
    | speedup kind =>
      rw [hkind] at hneeds
      cases hneeds
    | _ => rfl
  obtain ⟨client, s, hmem, hid⟩ := (horigins.current hrecord).client hclient
  rw [w.store.keyed _ _ hrecord] at hid
  exact hapart txid ⟨client, s, hlog hmem, hid⟩ hbuilt

/-- The records and the pending list as they were. -/
structure LeavesParents (w w' : World) : Prop where
  txs_eq : w'.store.txs = w.store.txs
  pending_eq : w'.store.pendingSpeedupParents = w.store.pendingSpeedupParents

instance leavesParents_isPreorder : IsPreorder World LeavesParents where
  refl _ := ⟨rfl, rfl⟩
  trans _ _ _ h h' := ⟨h'.txs_eq.trans h.txs_eq, h'.pending_eq.trans h.pending_eq⟩

/-- What leaves the records and the pending list keeps the parents pending. -/
theorem LeavesParents.pends (hsame : LeavesParents w w') (h : PendsParents w) : PendsParents w' := by
  intro txid hin
  rw [hsame.pending_eq] at hin
  have hget : w'.store.txs.get txid = w.store.txs.get txid := by rw [hsame.txs_eq]
  exact (Store.isNeedsSpeedup_congr hget).trans (h txid hin)

/-- A funding UTXO is queued. -/
theorem appendFunding_leavesParents {utxo : Utxo} : Prog.Within LeavesParents (appendFunding utxo) := by
  have hwrite : ∀ f : Store → Store, (∀ s, (f s).txs = s.txs) →
      (∀ s, (f s).pendingSpeedupParents = s.pendingSpeedupParents) → Prog.Within LeavesParents (writeStore f) := by
    intro f htxs hpending
    constructor
    intro ctx w
    unfold writeStore
    split
    · exact ⟨htxs w.store, hpending w.store⟩
    · exact ⟨rfl, rfl⟩
  have hnote : Prog.Within LeavesParents (note (.addingFunding utxo)) := ⟨fun _ _ => ⟨rfl, rfl⟩⟩
  have hread : Prog.Within LeavesParents (readStore Store.fundingList) := Prog.Within.read
  apply Prog.Within.seq
  intro _
  have hrecord := hwrite (fun s => s.setFunding utxo.outPoint ⟨utxo, false, false⟩) (fun _ => rfl) fun _ => rfl
  apply Prog.Within.seq
  intro _
  apply Prog.Within.seq
  intro list
  exact Prog.Within.branch Prog.Within.pure
    (hwrite (fun s => { s with fundingList := list ++ [utxo.outPoint] }) (fun _ => rfl) fun _ => rfl)

/-- What settles keeps the parents pending. -/
theorem PendsParents.settle (h : PendsParents w) (hmove : Move ctx True .settle w w') : PendsParents w' := by
  rcases hmove with hplain | hpart
  · exact h.plain hplain
  · cases hpart with
    | unlisted txid _ _ => exact h.thinned rfl (List.Subset.refl _)
    | evicted tx hnote hstale haged =>
      apply h.erased
      intro hin
      obtain ⟨record, hrecord, hneeds⟩ := Store.isNeedsSpeedup_iff.mp (h _ hin)
      exact ((hstale record hrecord).2 hneeds).1 hin
    | queue s _ hwrite => cases hwrite <;> exact h

/-- Settling keeps the parents pending. -/
theorem PendsParents.settled (h : PendsParents w) (hmoves : Relation.ReflTransGen (Move ctx True .settle) w w') :
    PendsParents w' := by
  induction hmoves with
  | refl => exact h
  | tail _ hlast ih => exact ih.settle hlast

/-- An operation of several writes keeps the parents pending, wherever it stops. -/
theorem PendsParents.whole {r : Except Stop Unit} (h : PendsParents w) (horigins : OriginsKnown w)
    (hapart : KeptApart w'.log) (hwhole : Whole ctx True r phase w w') : PendsParents w' := by
  have hmoves := hwhole.moves
  cases hwhole with
  | inserted tx htx hrun =>
    have hend : Inserting tx w (insertSpeedup tx ctx w) := insertSpeedup_inserting tx
    rw [hrun] at hend
    have hgrown : w.log ⊆ w'.log := (log_suffix_moves hmoves).subset
    exact h.inserting (fun hbuilt => h.not_mem_of_built horigins hgrown hapart hbuilt) hend
  | evicted tx hnote hstale haged hrun => exact h.settled hmoves
  | dropped txid hcancel hpending hrun =>
    have hremoved : PendsParents (removeTx txid ctx w).2 := h.removed hpending
    rw [hrun] at hremoved
    exact hremoved
  | registered tx hfresh hkind hnew hrun =>
    have hstored : PendsParents (storeRegistered tx ctx w).2 := h.registered hfresh
    rw [hrun] at hstored
    exact hstored
  | funded utxo hrun =>
    have hsame : LeavesParents w (appendFunding utxo ctx w).2 := appendFunding_leavesParents.related ctx w
    rw [hrun] at hsame
    exact hsame.pends h
  | swapped txid hterminal hrun => exact h.settled hmoves

/-- The origins of the records are known, and as long as no client registers a transaction that was built, what is
pending needs a speedup. -/
structure ParentsKnown (w : World) : Prop where
  origins : OriginsKnown w
  pends : KeptApart w.log → PendsParents w

/-- A plain move keeps the parents known. -/
theorem ParentsKnown.plain (h : ParentsKnown w) (hplain : Plain ctx True phase w w') : ParentsKnown w' where
  origins := h.origins.move (Move.plain hplain)
  pends hapart := (h.pends (hapart.of_subset (Move.plain hplain).log_suffix.subset)).plain hplain

/-- An operation of several writes keeps the parents known, wherever it stops. -/
theorem ParentsKnown.whole {r : Except Stop Unit} (h : ParentsKnown w) (hwhole : Whole ctx True r phase w w') :
    ParentsKnown w' where
  origins := origins_moves hwhole.moves h.origins
  pends hapart := (h.pends (hapart.of_subset (log_suffix_moves hwhole.moves).subset)).whole h.origins hapart hwhole

/-- A step keeps the parents known. -/
theorem ParentsKnown.step (h : ParentsKnown w) (hstep : Step ctx True phase w w') : ParentsKnown w' := by
  cases hstep with
  | plain hplain => exact h.plain hplain
  | whole hwhole => exact h.whole hwhole

/-- A computation that takes steps keeps the parents known. -/
theorem ParentsKnown.stepwise {m : Coord α} {a : α} (h : ParentsKnown w) (hm : Stepwise True phase m ctx w)
    (hrun : m ctx w = (.ok a, w')) : ParentsKnown w' := by
  have hkept : ParentsKnown (m ctx w).2 := by
    apply hm.preserves _ _ h
    · exact fun _ _ hknown hstep => hknown.step hstep
    · rintro _ _ hknown ⟨stop, hwhole⟩
      exact hknown.whole hwhole
  rw [hrun] at hkept
  exact hkept

/-- The parents are known after every run. -/
theorem parentsKnown_runCalls (cfg : BitcoinSettings) (calls : List Call) :
    ParentsKnown (runCalls cfg calls World.init) := by
  induction calls using List.reverseRecOn with
  | nil => exact ⟨owned_init.origins, fun _ _ hin => absurd hin List.not_mem_nil⟩
  | append_singleton calls call ih =>
    rw [runCalls_concat]
    have hserved : Served True (exec call.request) ⟨cfg, call.answers⟩ (runCalls cfg calls World.init) :=
      exec_served call.request fun _ => tidy_runCalls cfg calls
    apply hserved.preserves _ _ ih
    · rintro _ _ hknown ⟨phase, hstep⟩
      exact hknown.step hstep
    · rintro _ _ hknown ⟨phase, stop, hwhole⟩
      exact hknown.whole hwhole

/-! ### Lack of funding -/

/-- The lack of funding is among the news. -/
def World.ReportsShortage (w : World) : Prop :=
  w.Noted .fundingNotAvailable ∨ ∃ available required, w.Noted (.insufficientFunds available required)

/-- No news is dropped. -/
def KeepsNews (w w' : World) : Prop := w.news ⊆ w'.news

instance ordinary_keepsNews : Ordinary KeepsNews where
  refl _ := List.Subset.refl _
  trans _ _ _ h h' := List.Subset.trans h h'
  asked _ := List.Subset.refl _
  published _ _ := List.subset_append_left _ _
  written _ _ := List.Subset.refl _
  noted _ _ _ := List.Subset.refl _
  inserted _ _ _ _ := List.Subset.refl _
  registering _ _ _ _ := List.Subset.refl _

/-- News stay while none is dropped. -/
theorem World.Noted.kept {news : CoordinatorNews} (h : w.Noted news) (hkeeps : KeepsNews w w') : w'.Noted news := by
  obtain ⟨item, hitem, heq⟩ := h
  exact ⟨item, hkeeps hitem, heq⟩

/-- The lack of funding stays reported while no news is dropped. -/
theorem World.ReportsShortage.kept (h : w.ReportsShortage) (hkeeps : KeepsNews w w') : w'.ReportsShortage := by
  rcases h with hnone | ⟨available, required, hshort⟩
  · exact Or.inl (hnone.kept hkeeps)
  · exact Or.inr ⟨available, required, hshort.kept hkeeps⟩

/-- A fee loop that gives up reports it. The induction is on the rounds. -/
theorem buildRound_reports {plan : BuildPlan} {rounds : ℕ} {inputs : List Utxo} {childVsize : ℕ}
    (hrun : buildRound plan rounds inputs childVsize ctx w = (.ok none, w')) : w'.ReportsShortage := by
  induction rounds generalizing inputs childVsize w with
  | zero => exact (Prog.stop_ok.mp hrun).elim
  | succ rounds ih =>
    obtain ⟨cfg, w₁, -, hbody⟩ := Prog.bind_ok.mp hrun
    obtain ⟨maxDustLimit, w₂, -, hsized⟩ := Prog.bind_ok.mp hbody
    obtain ⟨dummy, w₃, -, hpriced⟩ := Prog.bind_ok.mp hsized
    rcases Prog.ite_ok.mp hpriced with ⟨-, hshort⟩ | ⟨-, hcovered⟩
    · obtain ⟨extra, w₄, -, hnext⟩ := Prog.bind_ok.mp hshort
      cases extra with
      | some extra => exact ih hnext
      | none =>
        obtain ⟨_, w₅, habandon, hpure⟩ := Prog.bind_ok.mp hnext
        obtain ⟨-, rfl⟩ := Prog.pure_ok.mp hpure
        obtain ⟨_, w₆, -, hemit⟩ := Prog.bind_ok.mp habandon
        obtain ⟨_, w₇, hnews, hdone⟩ := Prog.bind_ok.mp hemit
        obtain ⟨-, rfl⟩ := Prog.pure_ok.mp hdone
        exact Or.inr ⟨_, _, (addNews_ok hnews).2.2.1⟩
    · obtain ⟨final, w₄, -, hsigned⟩ := Prog.bind_ok.mp hcovered
      rcases Prog.ite_ok.mp hsigned with ⟨-, haccepted⟩ | ⟨-, hagain⟩
      · obtain ⟨_, w₅, -, hpure⟩ := Prog.bind_ok.mp haccepted
        obtain ⟨hnone, -⟩ := Prog.pure_ok.mp hpure
        cases hnone
      · exact ih hagain

/-- A build that gives up reports it. -/
theorem buildSpeedup_reports {entries : List (SpeedupData × ℕ)} {initial : Option (List Utxo)} {bumpFee : ℚ}
    {feeRate chainDiffFee : ℕ}
    (hrun : buildSpeedup entries initial bumpFee feeRate chainDiffFee ctx w = (.ok none, w')) :
    w'.ReportsShortage := by
  cases initial with
  | some inputs =>
    obtain ⟨primary, w₁, -, hbuild⟩ := Prog.bind_ok.mp hrun
    obtain ⟨rounds, w₂, -, hloop⟩ := Prog.bind_ok.mp hbuild
    exact buildRound_reports hloop
  | none =>
    obtain ⟨all, w₁, -, hchoose⟩ := Prog.bind_ok.mp hrun
    obtain ⟨funding, w₂, -, hbuild⟩ := Prog.bind_ok.mp hchoose
    cases funding with
    | none =>
      obtain ⟨_, w₃, hemit, hpure⟩ := Prog.bind_ok.mp hbuild
      obtain ⟨-, rfl⟩ := Prog.pure_ok.mp hpure
      obtain ⟨_, w₄, hnews, hdone⟩ := Prog.bind_ok.mp hemit
      obtain ⟨-, rfl⟩ := Prog.pure_ok.mp hdone
      exact Or.inl (addNews_ok hnews).2.2.1
    | some funding =>
      obtain ⟨rounds, w₃, -, hloop⟩ := Prog.bind_ok.mp hbuild
      exact buildRound_reports hloop

/-! ### What is built waits -/

/-- While a speedup waits for dispatch, a step of a build leaves one waiting. -/
theorem Step.not_idle (h : ¬ w.store.Idle) (hstep : Step ctx tidy .build w w') : ¬ w'.store.Idle := by
  cases hstep with
  | plain hplain => exact fun hidle => h (hplain.idle_of_idle hidle)
  | whole hwhole =>
    cases hwhole with
    | inserted tx htx hrun => exact absurd htx.idle h

/-- While a speedup waits for dispatch, a build leaves one waiting. -/
theorem not_idle_of_stepwise {m : Coord α} {a : α} (h : ¬ w.store.Idle) (hm : Stepwise tidy .build m ctx w)
    (hrun : m ctx w = (.ok a, w')) : ¬ w'.store.Idle := by
  have hsteps := hm.done a w' hrun
  clear hrun hm
  induction hsteps with
  | refl => exact h
  | tail _ hlast ih => exact hlast.not_idle ih

/-- A speedup that was saved waits for dispatch. -/
theorem saveSpeedup_not_idle {tx : Transaction} {feeInfo : FeeInfo} {kind : SpeedupKind} {height : BlockHeight}
    {u : Unit} (hrun : saveSpeedup tx feeInfo kind height ctx w = (.ok u, w')) : ¬ w'.store.Idle := by
  obtain ⟨_, w₁, hinsert, hwatch⟩ := Prog.bind_ok.mp hrun
  have hend : Inserting (speedupRecord tx feeInfo kind height) w (insertSpeedup _ ctx w) :=
    insertSpeedup_inserting _
  rw [hinsert] at hend
  have hstored : w₁.store.txs.get tx.computeTxid = some (speedupRecord tx feeInfo kind height) ∧
      tx.computeTxid ∈ w₁.store.speedupList := by
    have hput := (w.store.get_setTx (speedupRecord tx feeInfo kind height) tx.computeTxid).trans (if_pos rfl)
    cases hend with
    | relisted hlisted => exact ⟨hput, hlisted⟩
    | listed =>
      refine ⟨?_, Store.mem_list _ _⟩
      change ((w.store.setTx (speedupRecord tx feeInfo kind height)).list tx.computeTxid).txs.get _ = _
      rw [Store.txs_list]
      exact hput
  have hcalm : Calm (monitorWatch (.transactions [tx.computeTxid] (ctxForKind kind) none) false) ctx w₁ :=
    monitorWatch_calm _ _
  intro hidle
  apply hidle tx.computeTxid _ (speedupRecord tx feeInfo kind height)
  · rw [calm_txs hcalm hwatch]
    exact hstored.1
  · rfl
  · rw [calm_speedupList hcalm hwatch]
    exact hstored.2

/-- While a speedup waits for dispatch, the plain moves of a build leave one waiting. -/
theorem not_idle_of_plainly {m : Coord α} {a : α} (h : ¬ w.store.Idle) (hm : Plainly tidy .build m ctx w)
    (hrun : m ctx w = (.ok a, w')) : ¬ w'.store.Idle :=
  not_idle_of_stepwise h (stepwise_of_plainly hm) hrun

/-- A boost that was saved waits for dispatch. -/
theorem saveBoost_not_idle {plan : BoostPlan} {nextBump : ℚ} {built : SpeedupBuildResult} {height : BlockHeight}
    {u : Unit} (hrun : saveBoost plan nextBump built height ctx w = (.ok u, w')) : ¬ w'.store.Idle := by
  obtain ⟨cfg, w₁, hcfg, hsave⟩ := Prog.bind_ok.mp hrun
  obtain ⟨rfl, rfl⟩ := settings_ok.mp hcfg
  obtain ⟨_, w₂, hsaved, hreport⟩ := Prog.bind_ok.mp hsave
  obtain ⟨_, w₃, hreported, hmark⟩ := Prog.bind_ok.mp hreport
  have hcalm : ∀ rate context, Plainly False .build
      (reportIfCapped built.capped built.tx.computeTxid rate context) ctx w₂ :=
    fun _ _ => plainly_of_calm (reportIfCapped_calm _ _ _ _)
  have hbusy : ¬ w₃.store.Idle := not_idle_of_plainly (saveSpeedup_not_idle hsaved) (hcalm _ _) hreported
  rcases Prog.ite_ok.mp hmark with ⟨-, hcapped⟩ | ⟨-, hpure⟩
  · have hplain : Plainly False .build (markPredecessorAtCap plan.last.txid ctx.settings.fee.maxFeerateSatVb)
        ctx w₃ := markPredecessorAtCap_plainly _ rfl
    exact not_idle_of_plainly hbusy hplain hcapped
  · obtain ⟨-, rfl⟩ := Prog.pure_ok.mp hpure
    exact hbusy

/-- No boost is due at a height that the monitor reported. -/
def Store.BoostNotDue (ctx : Ctx) (s : Store) : Prop :=
  ∃ n height, ctx.answers.monitorHeight n = .ok height ∧ planBoost ctx.settings s.speedupsOrdered height = none

/-- Step 5 leaves a speedup waiting or a shortage reported, or it leaves the store, since it was told to or no
boost is due. -/
theorem boostIfStale_leaves {failed : Bool} {u : Unit} (hrun : boostIfStale failed ctx w = (.ok u, w')) :
    ¬ w'.store.Idle ∨ w'.ReportsShortage ∨
      w'.store = w.store ∧ (failed = true ∨ w.store.BoostNotDue ctx) := by
  rcases Prog.ite_ok.mp hrun with ⟨hfailed, hpure⟩ | ⟨-, hbody⟩
  · obtain ⟨-, rfl⟩ := Prog.pure_ok.mp hpure
    exact Or.inr (Or.inr ⟨rfl, Or.inl hfailed⟩)
  · obtain ⟨cfg, w₁, hcfg, hask⟩ := Prog.bind_ok.mp hbody
    obtain ⟨rfl, rfl⟩ := settings_ok.mp hcfg
    obtain ⟨height, w₂, hheight, hread⟩ := Prog.bind_ok.mp hask
    obtain ⟨hanswer, rfl⟩ := query_ok.mp hheight
    obtain ⟨all, w₃, hordered, hplan⟩ := Prog.bind_ok.mp hread
    obtain ⟨rfl, rfl⟩ := readStore_ok.mp hordered
    cases hdecided : planBoost ctx.settings w₁.asked.store.speedupsOrdered height with
    | none =>
      rw [hdecided] at hplan
      obtain ⟨-, rfl⟩ := Prog.pure_ok.mp hplan
      exact Or.inr (Or.inr ⟨rfl, Or.inr ⟨_, height, hanswer, hdecided⟩⟩)
    | some plan =>
      rw [hdecided] at hplan
      obtain ⟨_, w₄, -, hboost⟩ := Prog.bind_ok.mp hplan
      obtain ⟨cfg, w₅, -, hfee⟩ := Prog.bind_ok.mp hboost
      obtain ⟨⟨feeRate, feeNews⟩, w₆, -, hpublish⟩ := Prog.bind_ok.mp hfee
      obtain ⟨_, w₇, -, hbuild⟩ := Prog.bind_ok.mp hpublish
      obtain ⟨built, w₈, hbuilt, hsave⟩ := Prog.bind_ok.mp hbuild
      cases built with
      | none =>
        obtain ⟨-, rfl⟩ := Prog.pure_ok.mp hsave
        exact Or.inr (Or.inl (buildSpeedup_reports hbuilt))
      | some built => exact Or.inl (saveBoost_not_idle hsave)

/-- A batch taken from parents that need a speedup has metadata to build from. -/
theorem parentEntriesOf_ne_nil {batch : List CoordinatedTx} (hsome : batch ≠ [])
    (hneeds : ∀ parent ∈ batch, parent.isNeedsSpeedup = true) : parentEntriesOf batch ≠ [] := by
  obtain ⟨parent, rest, rfl⟩ := List.exists_cons_of_ne_nil hsome
  have hparent := hneeds parent List.mem_cons_self
  unfold CoordinatedTx.isNeedsSpeedup at hparent
  unfold parentEntriesOf
  cases hkind : parent.kind with
  | needsSpeedup data => simp [hkind]
  | normal => rw [hkind] at hparent; cases hparent
  | speedup kind => rw [hkind] at hparent; cases hparent

/-- Parents that need a speedup are grouped into a batch with metadata to build from. -/
theorem exists_batch (cfg : DispatcherSettings) {parents : List CoordinatedTx} (hsome : parents ≠ [])
    (hneeds : ∀ parent ∈ parents, parent.isNeedsSpeedup = true) :
    ∃ batch, (cfg.batchByWeight parents 1).getLast? = some batch ∧ parentEntriesOf batch ≠ [] := by
  obtain ⟨hgroups, -, hwhole⟩ := batchByWeight_groups cfg parents 1
  cases hlast : (cfg.batchByWeight parents 1).getLast? with
  | none =>
    have hnil := List.getLast?_eq_none_iff.mp hlast
    have hempty := hwhole (by simp [hnil])
    rw [hnil] at hempty
    exact absurd hempty.symm hsome
  | some batch =>
    have hmem := List.mem_of_getLast? hlast
    refine ⟨batch, rfl, parentEntriesOf_ne_nil (hgroups.nonempty batch hmem) ?_⟩
    exact fun parent hparent => hneeds parent ((batchByWeight_sublist hmem).subset hparent)

/-- Building for a batch of parents that need a speedup leaves a speedup waiting or a shortage reported. -/
theorem runCpfpBatch_leaves {parents unconfirmed : List CoordinatedTx} {u : Unit} (hsome : parents ≠ [])
    (hneeds : ∀ parent ∈ parents, parent.isNeedsSpeedup = true)
    (hrun : runCpfpBatch parents unconfirmed ctx w = (.ok u, w')) : ¬ w'.store.Idle ∨ w'.ReportsShortage := by
  obtain ⟨cfg, w₁, hcfg, hfee⟩ := Prog.bind_ok.mp hrun
  obtain ⟨rfl, rfl⟩ := settings_ok.mp hcfg
  obtain ⟨⟨feeRate, feeNews⟩, w₂, -, hpublish⟩ := Prog.bind_ok.mp hfee
  obtain ⟨_, w₃, -, hbatch⟩ := Prog.bind_ok.mp hpublish
  obtain ⟨batch, hlast, hentries⟩ := exists_batch ctx.settings.dispatcher hsome hneeds
  simp only [hlast] at hbatch
  rcases Prog.ite_ok.mp hbatch with ⟨hnone, -⟩ | ⟨-, hbuild⟩
  · exact absurd hnone hentries
  · obtain ⟨built, w₄, hbuilt, hsave⟩ := Prog.bind_ok.mp hbuild
    cases built with
    | none =>
      obtain ⟨-, rfl⟩ := Prog.pure_ok.mp hsave
      exact Or.inr (buildSpeedup_reports hbuilt)
    | some built =>
      obtain ⟨_, w₅, -, hreport⟩ := Prog.bind_ok.mp hsave
      obtain ⟨_, w₆, -, hask⟩ := Prog.bind_ok.mp hreport
      obtain ⟨height, w₇, -, hsaved⟩ := Prog.bind_ok.mp hask
      exact Or.inl (saveSpeedup_not_idle hsaved)

/-- No CPFP is due: no parent is pending that reached the mempool or the chain, or no slot is free. -/
def Store.BatchNotDue (cfg : BitcoinSettings) (s : Store) : Prop :=
  s.readyParents = [] ∨ cfg.speedup.maxUnconfirmedSpeedups ≤ s.unconfirmedSpeedups.length

/-- Thinning the pending list leaves no parent ready that was not. -/
theorem readyParents_eq_nil {s s' : Store} {gone : Txid → Prop} (htxs : s'.txs = s.txs)
    (hthinned : Thinned gone s s'.pendingSpeedupParents) (h : s.readyParents = []) : s'.readyParents = [] := by
  obtain ⟨dropped, hpending, -⟩ := hthinned
  have hready : s'.readyParent? = s.readyParent? := by
    funext txid
    unfold Store.readyParent?
    rw [htxs]
  have hsub : s'.readyParents.Sublist s.readyParents := by
    unfold Store.readyParents
    rw [hpending, hready]
    exact List.filter_sublist.filterMap _
  rw [h] at hsub
  exact List.eq_nil_of_sublist_nil hsub

/-- Step 6 leaves a speedup waiting or a shortage reported, or it leaves the records and the speedup list, and no
CPFP is due. -/
theorem createCpfpBatch_leaves {u : Unit} (hpends : PendsParents w)
    (hrun : createCpfpBatch ctx w = (.ok u, w')) :
    ¬ w'.store.Idle ∨ w'.ReportsShortage ∨
      w'.store.speedupsOrdered = w.store.speedupsOrdered ∧ w'.store.BatchNotDue ctx.settings := by
  obtain ⟨cfg, w₁, hcfg, hcollect⟩ := Prog.bind_ok.mp hrun
  obtain ⟨rfl, rfl⟩ := settings_ok.mp hcfg
  obtain ⟨parents, w₂, hparents, hread⟩ := Prog.bind_ok.mp hcollect
  obtain ⟨all, w₃, hordered, hdecide⟩ := Prog.bind_ok.mp hread
  obtain ⟨rfl, rfl⟩ := readStore_ok.mp hordered
  have hcalm : Calm getPendingSpeedupParents ctx w₁ := getPendingSpeedupParents_calm
  have htxs : w₃.store.txs = w₁.store.txs := calm_txs hcalm hparents
  have hlist : w₃.store.speedupList = w₁.store.speedupList := calm_speedupList hcalm hparents
  have hsame : w₃.store.speedupsOrdered = w₁.store.speedupsOrdered := by
    unfold Store.speedupsOrdered
    rw [htxs, hlist]
  have hstart : IsThinned w₁.store.Prunable w₁.store w₁ := ⟨[], by simp, fun _ h => absurd h List.not_mem_nil⟩
  obtain ⟨_, w₄, hpending, hwalk⟩ := Prog.bind_ok.mp hparents
  obtain ⟨rfl, rfl⟩ := readStore_ok.mp hpending
  obtain ⟨hthinned, hready⟩ := collectPendingParents_thins (fun _ h => h) rfl hstart hwalk
  obtain rfl := hready parents rfl
  rcases Prog.ite_ok.mp hdecide with ⟨hreason, hpure⟩ | ⟨hdue, hbuild⟩
  · obtain ⟨-, rfl⟩ := Prog.pure_ok.mp hpure
    rcases hreason with hnone | hwaits | hfull
    · exact Or.inr (Or.inr ⟨hsame, Or.inl (readyParents_eq_nil htxs hthinned hnone)⟩)
    · left
      obtain ⟨tx, htx, hstate⟩ := List.any_eq_true.mp hwaits
      obtain ⟨txid, hlisted, hget⟩ := List.mem_filterMap.mp htx
      exact fun hidle => hidle txid hlisted tx hget (of_decide_eq_true hstate)
    · exact Or.inr (Or.inr ⟨hsame, Or.inr hfull⟩)
  · have hneeds : ∀ parent ∈ w₄.store.readyParents, parent.isNeedsSpeedup = true := by
      intro parent hparent
      obtain ⟨txid, hin, hready⟩ := List.mem_filterMap.mp hparent
      obtain ⟨hget, -⟩ := Option.filter_eq_some_iff.mp hready
      obtain ⟨record, hrecord, hneeds⟩ := Store.isNeedsSpeedup_iff.mp (hpends txid hin)
      rw [hget] at hrecord
      cases hrecord
      exact hneeds
    exact (runCpfpBatch_leaves (fun hnone => hdue (Or.inl hnone)) hneeds hbuild).imp_right Or.inl

/-! ### Boosts that fail -/

/-- A transaction failed while the outcome of a broadcast was handled, since a world. -/
def FailedSince (txid : Txid) (w w' : World) : Prop :=
  ∃ newer older handled outcome before after, w'.log = newer ++ .handled handled outcome before after :: older ∧
    w.log <:+ older ∧ before.isTxFailed txid = false ∧ after.isTxFailed txid = true

/-- The history grows, and a transaction fails only while an outcome is handled. -/
structure Judges (txid : Txid) (w w' : World) : Prop where
  log : w.log <:+ w'.log
  failed : w.store.isTxFailed txid = false → w'.store.isTxFailed txid = true → FailedSince txid w w'

/-- What failed since a world failed since any earlier one, and has failed in any later one. -/
theorem FailedSince.mono {txid : Txid} {w₀ w₁ : World} (h : FailedSince txid w w') (hbefore : w₀.log <:+ w.log)
    (hafter : w'.log <:+ w₁.log) : FailedSince txid w₀ w₁ := by
  obtain ⟨newer, older, handled, outcome, before, after, hlog, holder, hflip⟩ := h
  obtain ⟨added, hadded⟩ := hafter
  refine ⟨added ++ newer, older, handled, outcome, before, after, ?_, hbefore.trans holder, hflip⟩
  rw [← hadded, hlog, List.append_assoc]

/-- What leaves the store and adds to the history lets nothing fail. -/
theorem judges_of_store_eq {txid : Txid} (hstore : w'.store = w.store) (hlog : w.log <:+ w'.log) :
    Judges txid w w' where
  log := hlog
  failed hbefore hafter := by
    rw [hstore, hbefore] at hafter
    cases hafter

instance judges_isPreorder {txid : Txid} : IsPreorder World (Judges txid) where
  refl _ := judges_of_store_eq rfl List.suffix_rfl
  trans w w₁ w₂ h h' := by
    refine ⟨h.log.trans h'.log, fun hbefore hafter => ?_⟩
    cases hbetween : w₁.store.isTxFailed txid with
    | true => exact (h.failed hbefore hbetween).mono List.suffix_rfl h'.log
    | false => exact (h'.failed hbetween hafter).mono h.log List.suffix_rfl

/-- Handling an outcome to its end notes what it did. -/
theorem handleSpeedupResult_judges {txid : Txid} {batch : List CoordinatedTx} {height : BlockHeight}
    {result : Txid × DispatchOutcome} {u : Unit}
    (hrun : handleSpeedupResult batch height result ctx w = (.ok u, w')) : Judges txid w w' := by
  unfold handleSpeedupResult at hrun
  cases hfind : batch.find? fun tx => decide (tx.txid = result.1) with
  | none =>
    rw [hfind] at hrun
    obtain ⟨-, rfl⟩ := Prog.pure_ok.mp hrun
    exact refl w'
  | some tx =>
    rw [hfind] at hrun
    obtain ⟨before, w₁, hread, hverify⟩ := Prog.bind_ok.mp hrun
    obtain ⟨rfl, rfl⟩ := readStore_ok.mp hread
    obtain ⟨_, w₂, hverified, hhandle⟩ := Prog.bind_ok.mp hverify
    obtain ⟨-, rfl⟩ := Prog.ofExcept_ok.mp hverified
    obtain ⟨_, w₃, houtcome, hnote⟩ := Prog.bind_ok.mp hhandle
    obtain rfl := note_ok.mp hnote
    have hgrown : w₂.log <:+ w₃.log := by
      have hconducts : Prog.Conducts Extends Anyhow (handleOutcome tx result.1 result.2 height tx.feeInfo) :=
        handleOutcome_conducts markReplaced_conducts
      have hrelated : Extends w₂ (handleOutcome tx result.1 result.2 height tx.feeInfo ctx w₂).2 :=
        hconducts.related ctx w₂
      rw [houtcome] at hrelated
      exact hrelated
    refine ⟨hgrown.trans (List.suffix_cons _ _), fun hbefore hafter => ?_⟩
    exact ⟨[], w₃.log, result.1, result.2, w₂.store, w₃.store, rfl, hgrown, hbefore, hafter⟩

/-- When step 4 reports that a boost failed, one failed while its outcomes were handled. -/
theorem dispatchPendingSpeedups_failed (hrun : dispatchPendingSpeedups ctx w = (.ok true, w')) :
    ∃ boost, boost.isBoost ∧ w.store.txs.get boost.txid = some boost ∧ FailedSince boost.txid w w' := by
  obtain ⟨height, w₁, hheight, hread⟩ := Prog.bind_ok.mp hrun
  obtain ⟨-, rfl⟩ := query_ok.mp hheight
  obtain ⟨all, w₂, hordered, hpending⟩ := Prog.bind_ok.mp hread
  obtain ⟨rfl, rfl⟩ := readStore_ok.mp hordered
  have hwaits : ∀ tx ∈ w.asked.store.speedupsOrdered.filter fun tx => decide (tx.state = .toDispatch),
      w.store.txs.get tx.txid = some tx ∧ tx.state = .toDispatch := by
    intro tx htx
    obtain ⟨hmem, hstate⟩ := List.mem_filter.mp htx
    exact ⟨(mem_speedupsOrdered hmem).2, of_decide_eq_true hstate⟩
  generalize w.asked.store.speedupsOrdered.filter (fun tx => decide (tx.state = .toDispatch)) = pending
    at hpending hwaits
  cases pending with
  | nil =>
    obtain ⟨hfalse, -⟩ := Prog.pure_ok.mp hpending
    cases hfalse
  | cons first rest =>
    obtain ⟨kept, w₃, hlimit, hlimits⟩ := applyRetryRateLimit_limits ctx w.asked (first :: rest)
    dsimp only at hpending
    rw [Prog.bind_of_ok hlimit] at hpending
    cases kept with
    | nil =>
      obtain ⟨hfalse, -⟩ := Prog.pure_ok.mp hpending
      cases hfalse
    | cons one others =>
      obtain ⟨results, w₄, hdispatch, hhandle⟩ := Prog.bind_ok.mp hpending
      obtain ⟨_, w₅, hloop, hjudge⟩ := Prog.bind_ok.mp hhandle
      obtain ⟨hany, rfl⟩ := readStore_ok.mp hjudge
      obtain ⟨boost, hboost, hfailed⟩ := List.any_eq_true.mp hany.symm
      obtain ⟨hmem, hkind⟩ := List.mem_filter.mp hboost
      obtain ⟨hget, hstate⟩ := hwaits boost (hlimits.sublist.subset hmem)
      obtain ⟨records, hsent, -⟩ := dispatch_handsOver ctx w₃ (one :: others)
      rw [hdispatch] at hsent
      have hstart : Judges boost.txid w w₄ := by
        apply judges_of_store_eq
        · exact hsent.store_eq.trans hlimits.store_eq
        · rw [hsent.log_eq, hlimits.log_eq]
          exact List.suffix_append _ _
      have hjudges : Judges boost.txid w w' := by
        refine Prog.forEach_ok_induction (fun _ w' => Judges boost.txid w w') ?_ hstart hloop
        intro result _ w₁ w₂ _ hsofar hround
        exact trans hsofar (handleSpeedupResult_judges hround)
      refine ⟨boost, hkind, hget, hjudges.failed ?_ hfailed⟩
      unfold Store.isTxFailed
      rw [hget]
      simp [hstate]

/-! ### One tick -/

/-- A boost failed while the outcome of a broadcast was handled, since a world. -/
def BoostFailed (w w' : World) : Prop :=
  ∃ boost : CoordinatedTx, boost.isBoost ∧ (∃ s, w'.HasVersion s ∧ s.txs.get boost.txid = some boost) ∧
    FailedSince boost.txid w w'

/-- Nothing is due to be built: no CPFP, and no boost, unless one failed since a world. -/
structure NothingDue (ctx : Ctx) (w w' : World) : Prop where
  batch : w'.store.BatchNotDue ctx.settings
  boost : w'.store.BoostNotDue ctx ∨ BoostFailed w w'

/-- A version stays one of the run. -/
theorem hasVersion_of_stepwise {m : Coord α} {a : Except Stop α} {s : Store} (h : w.HasVersion s)
    (hm : Stepwise tidy phase m ctx w) (hrun : m ctx w = (a, w')) : w'.HasVersion s :=
  Stepwise.keeps (I := fun w => w.HasVersion s) hm (fun _ _ hkept hmove => hkept.move hmove) h hrun

/-- The history grows over steps. -/
theorem log_suffix_of_stepwise {m : Coord α} {a : Except Stop α} (hm : Stepwise tidy phase m ctx w)
    (hrun : m ctx w = (a, w')) : w.log <:+ w'.log :=
  Stepwise.keeps (I := fun w' => w.log <:+ w'.log) hm (fun _ _ hkept hmove => hkept.trans hmove.log_suffix)
    List.suffix_rfl hrun

/-- The six steps of a tick leave a speedup waiting, a shortage reported, or nothing due. -/
theorem pipeline_leaves {u : Unit} (htidy : IsTidy w) (hknown : ParentsKnown w) (hapart : KeptApart w'.log)
    (hrun : pipeline ctx w = (.ok u, w')) :
    ¬ w'.store.Idle ∨ w'.ReportsShortage ∨ NothingDue ctx w w' := by
  obtain ⟨_, w₁, hreview, hrun⟩ := Prog.bind_ok.mp hrun
  have hstep₁ : Stepwise True .settle reviewActive ctx w := reviewActive_stepwise
  have htidy₁ := hstep₁.keeps_tidy (fun _ => htidy) hreview
  have hknown₁ := hknown.stepwise hstep₁ hreview
  obtain ⟨_, w₂, hspeedups, hrun⟩ := Prog.bind_ok.mp hrun
  have hstep₂ : Stepwise True .settle reviewSpeedups ctx w₁ := reviewSpeedups_stepwise htidy₁
  have htidy₂ := hstep₂.keeps_tidy htidy₁ hspeedups
  have hknown₂ := hknown₁.stepwise hstep₂ hspeedups
  obtain ⟨_, w₃, hdispatch, hrun⟩ := Prog.bind_ok.mp hrun
  have hstep₃ : Stepwise True .settle dispatchPending ctx w₂ := stepwise_of_plainly dispatchPending_plainly
  have htidy₃ := hstep₃.keeps_tidy htidy₂ hdispatch
  have hknown₃ := hknown₂.stepwise hstep₃ hdispatch
  obtain ⟨failed, w₄, hbatch, hrun⟩ := Prog.bind_ok.mp hrun
  have hstep₄ : Stepwise True .settle dispatchPendingSpeedups ctx w₃ :=
    stepwise_of_plainly (dispatchPendingSpeedups_plainly htidy₃)
  have hknown₄ := hknown₃.stepwise hstep₄ hbatch
  obtain ⟨_, w₅, hboost, hcreate⟩ := Prog.bind_ok.mp hrun
  have hstep₅ : Stepwise True .build (boostIfStale failed) ctx w₄ := boostIfStale_stepwise failed
  have hknown₅ := hknown₄.stepwise hstep₅ hboost
  have hstep₆ : Stepwise True .build createCpfpBatch ctx w₅ := createCpfpBatch_stepwise
  have hlog₆ := log_suffix_of_stepwise hstep₆ hcreate
  have hpends : PendsParents w₅ := hknown₅.pends (hapart.of_subset hlog₆.subset)
  rcases boostIfStale_leaves hboost with hbusy | hshort | ⟨hsame, hreason⟩
  · exact Or.inl (not_idle_of_stepwise hbusy hstep₆ hcreate)
  · have hkeeps : KeepsNews w₅ (createCpfpBatch ctx w₅).2 := createCpfpBatch_conducts (E := Anyhow).related ctx w₅
    rw [hcreate] at hkeeps
    exact Or.inr (Or.inl (hshort.kept hkeeps))
  · rcases createCpfpBatch_leaves hpends hcreate with hbusy | hshort | ⟨hordered, hnone⟩
    · exact Or.inl hbusy
    · exact Or.inr (Or.inl hshort)
    · refine Or.inr (Or.inr ⟨hnone, ?_⟩)
      rcases hreason with rfl | ⟨n, height, hanswer, hplan⟩
      · right
        obtain ⟨boost, hkind, hget, hfailed⟩ := dispatchPendingSpeedups_failed hbatch
        have hversion : w₃.HasVersion w₃.store := Or.inl rfl
        have hlog₃ := (log_suffix_of_stepwise hstep₁ hreview).trans
          ((log_suffix_of_stepwise hstep₂ hspeedups).trans (log_suffix_of_stepwise hstep₃ hdispatch))
        refine ⟨boost, hkind, ⟨w₃.store, ?_, hget⟩, ?_⟩
        · exact hasVersion_of_stepwise (hasVersion_of_stepwise (hasVersion_of_stepwise hversion hstep₄ hbatch)
            hstep₅ hboost) hstep₆ hcreate
        · exact hfailed.mono hlog₃ ((log_suffix_of_stepwise hstep₅ hboost).trans hlog₆)
      · left
        refine ⟨n, height, hanswer, ?_⟩
        rw [hordered, hsame]
        exact hplan

/-- A tick that comes to its end with the monitor ready runs the six steps, after it has cleaned up the news. -/
theorem tick_ok {u : Unit} (hready : ∀ n, ctx.answers.isReady n ≠ .ok false)
    (hrun : tick ctx w = (.ok u, w')) :
    ∃ clock news, pipeline ctx { w with clock := clock, news := news } = (.ok u, w') := by
  obtain ⟨_, w₁, hsync, hrun⟩ := Prog.bind_ok.mp hrun
  obtain ⟨-, rfl⟩ := query_ok.mp hsync
  obtain ⟨ready, w₂, hask, hrun⟩ := Prog.bind_ok.mp hrun
  obtain ⟨hanswer, rfl⟩ := query_ok.mp hask
  rcases Prog.ite_ok.mp hrun with ⟨-, hrun⟩ | ⟨hnot, -⟩
  · obtain ⟨height, w₃, hheight, hrun⟩ := Prog.bind_ok.mp hrun
    obtain ⟨-, rfl⟩ := query_ok.mp hheight
    obtain ⟨_, w₄, hcleanup, hpipeline⟩ := Prog.bind_ok.mp hrun
    obtain ⟨-, rfl⟩ := writeNews_ok.mp hcleanup
    exact ⟨_, _, hpipeline⟩
  · rw [eq_false_of_ne_true hnot] at hanswer
    exact absurd hanswer (hready _)

/-- A tick of any run that comes to its end with the monitor ready builds what is due, as long as no client
registered a transaction that was built. Either a speedup waits for dispatch, or the lack of funding is among the
news, or nothing is due: no pending parent reached the mempool or the chain, or the chain of speedups is full, and
the latest speedup is not due for a boost, or a boost has failed during the tick. -/
theorem tick_leaves_nothing_due (cfg : BitcoinSettings) (calls : List Call) (answers : Answers) (w' : World)
    (hready : ∀ n, answers.isReady n ≠ .ok false)
    (hrun : tick ⟨cfg, answers⟩ (runCalls cfg calls World.init) = (.ok (), w')) (hapart : KeptApart w'.log) :
    ¬ w'.store.Idle ∨ w'.ReportsShortage ∨ NothingDue ⟨cfg, answers⟩ (runCalls cfg calls World.init) w' := by
  have htidy := tidy_runCalls cfg calls
  have hknown := parentsKnown_runCalls cfg calls
  generalize runCalls cfg calls World.init = w at hrun htidy hknown ⊢
  obtain ⟨clock, news, hpipeline⟩ := tick_ok hready hrun
  have hstart : IsTidy { w with clock := clock, news := news } ∧ ParentsKnown { w with clock := clock, news := news } :=
    ⟨htidy, hknown.origins, hknown.pends⟩
  apply (pipeline_leaves hstart.1 hstart.2 hapart hpipeline).imp_right
  exact fun hleft => hleft.imp_right fun hnothing => ⟨hnothing.batch, hnothing.boost⟩

/-- The answers to a tick while the CPFP of the example runs and its parent wait in the mempool. -/
def settledAnswers : Answers := (sampleView 100 [sampleParent, firstOfChain] []).answers fixedBuilder 10 0

/-- The world after that tick. -/
def settledWorld : World :=
  (tick ⟨defaultSettings, settledAnswers⟩ (runCalls defaultSettings acceptedCalls World.init)).2

/-- The tick that finds them there leaves nothing due. -/
theorem tick_leaves_nothing_due_acceptedCalls :
    NothingDue ⟨defaultSettings, settledAnswers⟩ (runCalls defaultSettings acceptedCalls World.init)
      settledWorld := by
  have hready : ∀ n, settledAnswers.isReady n ≠ .ok false := by
    intro n hnot
    cases hnot
  have hrun : (tick ⟨defaultSettings, settledAnswers⟩ (runCalls defaultSettings acceptedCalls World.init)).1 =
      .ok () := by decide +kernel
  have hleft := tick_leaves_nothing_due defaultSettings acceptedCalls settledAnswers settledWorld hready
    (Prod.ext hrun rfl) (by decide +kernel)
  have hwaits : (settledWorld.store.speedupsOrdered.any fun tx => decide (tx.state = .toDispatch)) = false := by
    decide +kernel
  have hnews : settledWorld.news.isEmpty := by decide +kernel
  refine (hleft.resolve_left ?_).resolve_left ?_
  · intro hbusy
    apply hbusy
    intro txid hlisted tx hget hstate
    have hmem := List.mem_filterMap.mpr ⟨txid, hlisted, hget⟩
    exact Bool.false_ne_true (hwaits.symm.trans (List.any_eq_true.mpr ⟨tx, hmem, decide_eq_true hstate⟩))
  · rintro (⟨item, hitem, -⟩ | ⟨_, _, item, hitem, -⟩) <;>
      exact absurd (List.isEmpty_iff.mp hnews ▸ hitem) List.not_mem_nil

end BitcoinCoordinator
