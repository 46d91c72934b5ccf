import BitcoinCoordinator.SpeedupTraces

/-!
# Every call is a chain of steps: public calls

The public calls as chains of steps, each in one of the parts of a run. A property that every move
keeps holds after any sequence of calls, completed or stopped.
-/

namespace BitcoinCoordinator

open Foundation

variable {ctx : Ctx} {tidy : Prop} {phase : Phase} {w : World}

/-- A step of a call, in some part of a run. -/
def AnyStep (ctx : Ctx) (tidy : Prop) (w w' : World) : Prop := ∃ phase, Step ctx tidy phase w w'

/-- A torn step of a call, in some part of a run. -/
def AnyTorn (ctx : Ctx) (tidy : Prop) (w w' : World) : Prop := ∃ phase, Torn ctx tidy phase w w'

/-- A computation that takes steps, in any part of a run. -/
abbrev Served {α : Type} (tidy : Prop) (m : Coord α) (ctx : Ctx) (w : World) : Prop :=
  Prog.Walks (AnyStep ctx tidy) (AnyTorn ctx tidy) m ctx w

/-- A computation that takes steps in one part of a run. -/
theorem served_of_stepwise {α : Type} {m : Coord α} (h : Stepwise tidy phase m ctx w) :
    Served tidy m ctx w :=
  Prog.Walks.mono h (fun _ _ hstep => ⟨phase, hstep⟩) fun _ _ htorn => ⟨phase, htorn⟩

/-! ### One tick -/

/-- A computation that settles first and then builds. -/
abbrev Ticks {α : Type} (tidy : Prop) (m : Coord α) (ctx : Ctx) (w : World) : Prop :=
  Prog.InTurn (Step ctx tidy .settle) (Torn ctx tidy .settle) (Step ctx tidy .build)
    (Torn ctx tidy .build) m ctx w

/-- A list without duplicates stays so. -/
theorem Stepwise.keeps_tidy {α : Type} {m : Coord α} {a : Except Stop α} {w' : World}
    (h : Stepwise tidy phase m ctx w) (htidy : tidy → IsTidy w) (hrun : m ctx w = (a, w')) :
    tidy → IsTidy w' :=
  fun ht => Stepwise.keeps h (fun _ _ hkept hmove => hkept.move hmove) (htidy ht) hrun

/-- The steps 1 to 4 settle and the steps 5 and 6 build. -/
theorem pipeline_ticks (htidy : tidy → IsTidy w) : Ticks tidy pipeline ctx w := by
  apply Prog.InTurn.bind reviewActive_stepwise
  intro _ w₁ hreview
  have htidy₁ := Stepwise.keeps_tidy reviewActive_stepwise htidy hreview
  apply Prog.InTurn.bind (reviewSpeedups_stepwise htidy₁)
  intro _ w₂ hspeedups
  have htidy₂ := Stepwise.keeps_tidy (reviewSpeedups_stepwise htidy₁) htidy₁ hspeedups
  apply Prog.InTurn.bind (stepwise_of_plainly dispatchPending_plainly)
  intro _ w₃ hdispatch
  have htidy₃ := Stepwise.keeps_tidy (stepwise_of_plainly dispatchPending_plainly) htidy₂ hdispatch
  apply Prog.InTurn.bind (stepwise_of_plainly (dispatchPendingSpeedups_plainly htidy₃))
  intro failed w₄ _
  apply Prog.InTurn.second
  apply Prog.Walks.seq (boostIfStale_stepwise failed)
  intro _ _
  exact createCpfpBatch_stepwise

/-- One tick. -/
theorem tick_ticks (htidy : tidy → IsTidy w) : Ticks tidy tick ctx w := by
  apply Prog.InTurn.bind (stepwise_of_calm query_calm)
  intro _ w₁ htick
  have htidy₁ := tidy_of_calm query_calm htidy htick
  apply Prog.InTurn.bind (stepwise_of_calm query_calm)
  intro ready w₂ hready
  have htidy₂ := tidy_of_calm query_calm htidy₁ hready
  apply Prog.InTurn.ite <;> intro _
  · apply Prog.InTurn.bind (stepwise_of_calm query_calm)
    intro height w₃ hheight
    have htidy₃ := tidy_of_calm query_calm htidy₂ hheight
    apply Prog.InTurn.bind (stepwise_of_calm (cleanupNews_calm height))
    intro _ w₄ hcleanup
    exact pipeline_ticks (tidy_of_calm (cleanupNews_calm height) htidy₃ hcleanup)
  · exact Prog.InTurn.second (Prog.Walks.pure _)

/-- A tick takes steps. -/
theorem tick_served (htidy : tidy → IsTidy w) : Served tidy tick ctx w := by
  apply Prog.InTurn.walks (tick_ticks htidy)
  · rintro a b (hstep | hstep)
    · exact ⟨_, hstep⟩
    · exact ⟨_, hstep⟩
  · rintro a b (htorn | htorn)
    · exact ⟨_, htorn⟩
    · exact ⟨_, htorn⟩

/-! ### Client requests -/

/-- Registering a client transaction: it is stored only when nothing is tracked under its
identifier. -/
theorem registerTx_stepwise (tx : Transaction) {kind : TxKind} (context : String)
    (target : Option BlockHeight) (trigger stuck : Option ℕ)
    (hkind : (registeredTx tx kind context 0 trigger stuck 0).speedup? = none) :
    Stepwise tidy .serve (registerTx tx kind context target trigger stuck) ctx w := by
  apply walks_read
  cases hfound : w.store.txs.get tx.computeTxid with
  | some found => exact Prog.Walks.pure _
  | none =>
    apply Prog.Walks.bind (stepwise_of_calm query_calm)
    intro height w₁ hheight
    apply Prog.Walks.bind (stepwise_of_calm getNetworkFeeRate_calm)
    intro fee w₂ hfee
    apply Prog.Walks.bind (stepwise_of_calm (monitorWatch_calm _ _))
    intro _ w₃ hwatch
    apply storeRegistered_stepwise
    · rw [calm_txs (monitorWatch_calm _ _) hwatch, calm_txs getNetworkFeeRate_calm hfee,
        calm_txs query_calm hheight]
      exact hfound
    · exact hkind
    · exact ⟨rfl, rfl, rfl, rfl, rfl⟩

/-- The transactions of a cancel request are all cancellable. -/
def Cancellable (txids : List Txid) (w : World) : Prop :=
  ∀ txid ∈ txids, w.store.Cancellable txid

/-- The eligible transactions of a request are cancellable. -/
theorem eligibleToCancel_ok {txids eligible : List Txid} {w' : World}
    (hrun : eligibleToCancel txids ctx w = (.ok eligible, w')) :
    w'.store.txs = w.store.txs ∧ Cancellable eligible w' := by
  induction txids generalizing w eligible with
  | nil =>
    obtain ⟨rfl, rfl⟩ := Prog.pure_ok.mp hrun
    exact ⟨rfl, fun txid h => absurd h List.not_mem_nil⟩
  | cons txid rest ih =>
    obtain ⟨refusal, w₁, hread, hbody⟩ := Prog.bind_ok.mp hrun
    obtain ⟨hrefusal, rfl⟩ := readStore_ok.mp hread
    split at hbody
    · obtain ⟨others, w₂, hrest, hpure⟩ := Prog.bind_ok.mp hbody
      obtain ⟨rfl, rfl⟩ := Prog.pure_ok.mp hpure
      obtain ⟨htable, hothers⟩ := ih hrest
      refine ⟨htable, ?_⟩
      intro id hid tx hget
      rcases List.mem_cons.mp hid with rfl | hid
      · rw [htable] at hget
        simp only [Store.classifyCancelRequest, hget] at hrefusal
        split at hrefusal
        · cases hrefusal
        next hplain =>
        split at hrefusal
        · cases hrefusal
        next hstate =>
        exact ⟨not_not.mp hstate, by simpa using hplain⟩
      · exact hothers id hid tx hget
    · obtain ⟨b, w₂, hnews, hrest⟩ := Prog.bind_ok.mp hbody
      obtain ⟨htable, hothers⟩ := ih hrest
      exact ⟨htable.trans (calm_txs (addNews_calm _) hnews), hothers⟩

/-- Sorting out a cancel request is quiet. -/
theorem eligibleToCancel_calm (txids : List Txid) : Calm (eligibleToCancel txids) ctx w := by
  induction txids generalizing w with
  | nil => exact Prog.Reaches.pure _
  | cons txid rest ih =>
    apply reaches_read
    split
    · apply Prog.Reaches.seq ih
      intro _ _
      exact Prog.Reaches.pure _
    · apply Prog.Reaches.seq (addNews_calm _)
      intro _ _
      exact ih

/-- A transaction of a request that is still cancellable and no longer pending. -/
def Droppable (txids : List Txid) (w : World) : Prop :=
  ∀ txid ∈ txids, w.store.Cancellable txid ∧ txid ∉ w.store.pendingSpeedupParents

/-- Taking transactions off the pending list leaves none of them there. -/
theorem removePending_ok {txids : List Txid} {w' : World} {u : Unit}
    (hrun : Prog.forEach txids removePendingSpeedupParent ctx w = (.ok u, w')) :
    ∀ txid ∈ txids, txid ∉ w'.store.pendingSpeedupParents := by
  have hround : ∀ txid rest w w' u,
      (∀ id ∈ txids, id ∉ txid :: rest → id ∉ w.store.pendingSpeedupParents) →
      removePendingSpeedupParent txid ctx w = (.ok u, w') →
      ∀ id ∈ txids, id ∉ rest → id ∉ w'.store.pendingSpeedupParents := by
    intro txid rest w w' u hdone hrun id hid hout hin
    have hone : OneWrite (fun s => s.unpend txid) w (removePendingSpeedupParent txid ctx w) :=
      removePendingSpeedupParent_oneWrite txid
    rw [hrun] at hone
    rw [hone.store_eq] at hin
    obtain ⟨hold, hne⟩ := List.mem_filter.mp hin
    apply hdone id hid _ hold
    intro hcons
    rcases List.mem_cons.mp hcons with heq | hlater
    · simp [heq] at hne
    · exact hout hlater
  have hloop := Prog.forEach_ok_induction
    (fun rest w => ∀ id ∈ txids, id ∉ rest → id ∉ w.store.pendingSpeedupParents)
    hround (fun id hid hout => absurd hid hout) hrun
  exact fun txid hid => hloop txid hid List.not_mem_nil

/-- Dropping the eligible transactions. -/
theorem dropCancelled_stepwise {eligible : List Txid} (context : String) (trigger : Option ℕ)
    (hcancel : Cancellable eligible w) :
    Stepwise tidy .serve (dropCancelled eligible context trigger) ctx w := by
  have hpending : ∀ w, Calm (Prog.forEach eligible removePendingSpeedupParent) ctx w := by
    intro w
    exact Prog.Reaches.forEach fun txid _ _ => removePendingSpeedupParent_calm txid
  apply Prog.Walks.bind (stepwise_of_plainly (note_plainly (Plain.cancelling eligible hcancel)))
  intro _ w₁ hnote
  obtain rfl := note_ok.mp hnote
  apply Prog.Walks.bind (stepwise_of_calm (hpending _))
  intro _ w₂ hdrop
  apply Prog.Walks.bind (stepwise_of_calm (monitorCancel_calm _))
  intro _ w₃ hmonitor
  have hready : Droppable eligible w₃ := by
    intro txid hid
    refine ⟨fun tx hget => ?_, ?_⟩
    · rw [calm_txs (monitorCancel_calm _) hmonitor, calm_txs (hpending _) hdrop] at hget
      exact hcancel txid hid tx hget
    · have hstore : w₃.store = w₂.store := by
        obtain ⟨_, w₄, hquery, hnote⟩ := Prog.bind_ok.mp hmonitor
        obtain ⟨-, rfl⟩ := query_ok.mp hquery
        obtain rfl := note_ok.mp hnote
        rfl
      rw [hstore]
      exact removePending_ok hdrop txid hid
  apply Prog.Walks.forEach_inv Droppable
  · intro txid rest w hinv
    obtain ⟨hcancel, hout⟩ := hinv txid List.mem_cons_self
    exact removeTx_stepwise hcancel hout
  · intro txid rest w w' u hinv hrun id hid
    obtain ⟨hcancel, hout⟩ := hinv id (List.mem_cons_of_mem _ hid)
    rw [removeTx_store hrun]
    have hshrunk := w.store.shrunk_erase txid
    refine ⟨fun tx hget => hcancel tx (hshrunk.records id tx hget), ?_⟩
    rw [hshrunk.pending]
    exact hout
  · exact hready

/-- Cancelling. -/
theorem cancel_stepwise (data : TypesToMonitor) : Stepwise tidy .serve (cancel data) ctx w := by
  unfold cancel
  split
  · apply Prog.Walks.bind (stepwise_of_calm (eligibleToCancel_calm _))
    intro eligible w' hrun
    split
    · exact Prog.Walks.pure _
    · exact dropCancelled_stepwise _ _ (eligibleToCancel_ok hrun).2
  · exact stepwise_of_calm (monitorCancel_calm _)

/-- Registering a funding UTXO. -/
theorem addFunding_stepwise (utxo : Utxo) : Stepwise tidy .serve (addFunding utxo) ctx w := by
  have hset : Stepwise tidy .serve (setFunding utxo) ctx w := by
    apply walks_settings
    split
    · exact Prog.Walks.pure _
    · apply Prog.Walks.seq (appendFunding_stepwise utxo)
      intro _ _
      exact Prog.Walks.pure _
  apply Prog.Walks.seq hset
  intro refused _
  exact stepwise_of_calm (publishFeeNews_calm refused)

/-- Every request other than a tick takes the steps of a client request. -/
theorem exec_stepwise {request : Request} (hrequest : request ≠ .tick) :
    Stepwise tidy .serve (exec request) ctx w := by
  cases request with
  | tick => exact absurd rfl hrequest
  | dispatchWithoutSpeedup tx context target trigger stuck =>
    exact registerTx_stepwise tx context target trigger stuck rfl
  | dispatchWithSpeedup tx data context target trigger =>
    exact registerTx_stepwise tx context target trigger none rfl
  | cancel data => exact cancel_stepwise data
  | addFunding utxo => exact addFunding_stepwise utxo
  | ackNews news =>
    apply stepwise_of_calm
    apply Prog.Reaches.seq query_calm
    intro height _
    exact ackNews_calm news height
  | monitor data => exact stepwise_of_calm (monitorWatch_calm data false)

/-- Every request takes steps, whatever it is answered and wherever it stops. -/
theorem exec_served (request : Request) (htidy : tidy → IsTidy w) :
    Served tidy (exec request) ctx w := by
  by_cases hrequest : request = .tick
  · rw [hrequest]
    exact tick_served htidy
  · exact served_of_stepwise (exec_stepwise hrequest)

/-! ### Runs -/

/-- A property that every move keeps holds in whatever world a request leaves. -/
theorem exec_keeps {request : Request} {I : World → Prop} (htidy : tidy → IsTidy w)
    (hmove : ∀ phase w w', I w → Move ctx tidy phase w w' → I w') (hw : I w) :
    I (exec request ctx w).2 := by
  have htraced : Prog.Reaches (fun w w' => ∃ phase, Move ctx tidy phase w w') (exec request) ctx w := by
    apply (exec_served request htidy).reaches
    · rintro w w' ⟨phase, hstep⟩
      exact Relation.ReflTransGen.mono (fun _ _ h => ⟨phase, h⟩) _ _ hstep.moves
    · rintro w w' ⟨phase, stop, htorn⟩
      exact Relation.ReflTransGen.mono (fun _ _ h => ⟨phase, h⟩) _ _ htorn.moves
  apply htraced.keeps _ hw
  rintro w w' hI ⟨phase, h⟩
  exact hmove phase w w' hI h

/-- Every request leaves the speedup list free of duplicates. -/
theorem exec_tidy {request : Request} (h : IsTidy w) : IsTidy (exec request ctx w).2 := by
  have hmove : ∀ phase w w', IsTidy w → Move ctx True phase w w' → IsTidy w' :=
    fun _ _ _ hkept hmove => hkept.move hmove
  exact exec_keeps (fun _ => h) hmove h

/-- A property that every move keeps holds after any run of calls, completed or stopped. The moves are
those of a run whose speedup list holds no duplicates when the run begins with such a list. -/
theorem runCalls_induction {cfg : BitcoinSettings} {calls : List Call} {I : World → Prop}
    (hmove : ∀ call ∈ calls, ∀ phase w w', I w → Move ⟨cfg, call.answers⟩ tidy phase w w' → I w')
    {w : World} (htidy : tidy → IsTidy w) (hw : I w) : I (runCalls cfg calls w) := by
  induction calls generalizing w with
  | nil => exact hw
  | cons call rest ih =>
    apply ih (fun later hlater => hmove later (List.mem_cons_of_mem _ hlater))
    · exact fun ht => exec_tidy (htidy ht)
    · exact exec_keeps htidy (hmove call List.mem_cons_self) hw

end BitcoinCoordinator
