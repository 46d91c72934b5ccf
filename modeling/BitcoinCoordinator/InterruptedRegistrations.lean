import BitcoinCoordinator.TerminalStates

/-!
# Registrations that stop half-way

Registering a transaction that needs a speedup asks the monitor to watch it, stores its record, and puts
it on the pending list. A second attempt returns at once when it finds the record, so it repairs every
stop but the one between the last two effects.
-/

namespace BitcoinCoordinator

open Foundation

/-- Two worlds agree on a registration: on its record, on what the monitor watches, and on the parents
waiting for a speedup. -/
structure SameRegistration (txid : Txid) (w w' : World) : Prop where
  record : w.store.txs.get txid = w'.store.txs.get txid
  watched : ∀ data inMempool,
    .monitored data inMempool ∈ w.log ↔ .monitored data inMempool ∈ w'.log
  pending : w.store.pendingSpeedupParents = w'.store.pendingSpeedupParents

/-- A call that stops, whatever it is answered, takes one world to the other. -/
def StopsAt (call : Coord Unit) (w w' : World) : Prop := ∃ ctx e, call ctx w = (.error e, w')

/-- Repeating a call to completion leads where a single uninterrupted call with the same answers
does. -/
def RepairedByRetry (call : Coord Unit) (txid : Txid) (w stopped : World) : Prop :=
  ∀ ctx w₁ w₂, call ctx stopped = (.ok (), w₁) →
    call ctx { w with clock := stopped.clock } = (.ok (), w₂) → SameRegistration txid w₁ w₂

variable {tx : Transaction} {data : SpeedupData} {context : String} {target : Option BlockHeight}
  {trigger : Option ℕ} {ctx : Ctx} {w w' : World}

/-- What a registration asks the monitor to watch. -/
def watchRequest (tx : Transaction) (context : String) (trigger : Option ℕ) : TypesToMonitor :=
  .transactions [tx.computeTxid] context trigger

/-- The monitor was asked for what it was asked before and, at most, for one thing more. -/
def WatchesMore (data : TypesToMonitor) (w w' : World) : Prop :=
  (∀ d b, .monitored d b ∈ w.log → .monitored d b ∈ w'.log) ∧
    ∀ d b, .monitored d b ∈ w'.log → d = data ∧ b = false ∨ .monitored d b ∈ w.log

/-- The record a registration stores, from the answers that follow a number of questions. -/
def answeredRecord (tx : Transaction) (data : SpeedupData) (context : String)
    (target : Option BlockHeight) (trigger : Option ℕ) (ctx : Ctx) (clock : ℕ)
    (height : BlockHeight) : CoordinatedTx :=
  registeredTx tx (.needsSpeedup data) context (target.getD height) trigger none
    (ctx.settings.fee.clampRate (ctx.answers.estimatedFeeRate (clock + 1))).1

/-- An accepted watch request is noted. -/
theorem monitorWatch_ok {request : TypesToMonitor} {inMempool : Bool} {u : Unit}
    (h : monitorWatch request inMempool ctx w = (.ok u, w')) :
    w' = w.asked.noted (.monitored request inMempool) := by
  obtain ⟨_, w₁, hquery, hnote⟩ := Prog.bind_ok.mp h
  obtain ⟨-, rfl⟩ := query_ok.mp hquery
  exact note_ok.mp hnote

/-- A refused question changes nothing but the number of questions. -/
theorem query_error {α : Type} {wrap : String → BitcoinCoordinatorError}
    {question : Answers → ℕ → Except String α} {e : Stop}
    (h : query wrap question ctx w = (.error e, w')) : w' = w.asked := by
  unfold query at h
  split at h <;> cases h
  rfl

/-- A refused watch request changes nothing but the number of questions. -/
theorem monitorWatch_error {request : TypesToMonitor} {inMempool : Bool} {e : Stop}
    (h : monitorWatch request inMempool ctx w = (.error e, w')) : w' = w.asked := by
  rcases Prog.bind_error.mp h with hquery | ⟨_, w₁, -, hnote⟩
  · exact query_error hquery
  · cases hnote

/-- A registration finds a tracked transaction registered. -/
theorem dispatchWithSpeedup_tracked {record : CoordinatedTx}
    (hget : w.store.txs.get tx.computeTxid = some record) :
    dispatchWithSpeedup tx data context target trigger ctx w = (.ok (), w) := by
  have hread : getTxById tx.computeTxid ctx w = (.ok (some record), w) := by rw [← hget]; rfl
  unfold dispatchWithSpeedup registerTx
  rw [Prog.bind_of_ok hread]
  rfl

/-- Asking for nothing new. -/
theorem WatchesMore.of_log_eq {request : TypesToMonitor} (h : w'.log = w.log) :
    WatchesMore request w w' := by
  constructor
  · intro d b hin
    rw [h]
    exact hin
  · intro d b hin
    rw [h] at hin
    exact Or.inr hin

/-- The last two effects of a registration. -/
def storeAndPend (record : CoordinatedTx) : Coord Unit := do
  insertTx record
  addPendingSpeedupParent record.txid

/-- A registration of a new transaction stops before it stores anything, or asks the monitor and then
stores the record. -/
theorem dispatchWithSpeedup_new {r : Except Stop Unit}
    (hnew : w.store.txs.get tx.computeTxid = none)
    (h : dispatchWithSpeedup tx data context target trigger ctx w = (r, w')) :
    ((∃ e, r = .error e) ∧ w'.store = w.store ∧
      WatchesMore (watchRequest tx context trigger) w w') ∨
    ∃ height w₁, ctx.answers.monitorHeight w.clock = .ok height ∧ w₁.store = w.store ∧
      WatchesMore (watchRequest tx context trigger) w w₁ ∧
      .monitored (watchRequest tx context trigger) false ∈ w₁.log ∧
      storeAndPend (answeredRecord tx data context target trigger ctx w.clock height) ctx w₁ =
        (r, w') := by
  have hread : getTxById tx.computeTxid ctx w = (.ok none, w) := by rw [← hnew]; rfl
  unfold dispatchWithSpeedup registerTx at h
  rw [Prog.bind_of_ok hread] at h
  cases hheight : getMonitorHeight ctx w with
  | mk answer w₁ =>
    cases answer with
    | error e =>
      have hasked := query_error hheight
      simp only [Prog.bind_of_error hheight, Prod.mk.injEq] at h
      obtain ⟨rfl, rfl⟩ := h
      subst hasked
      exact Or.inl ⟨⟨e, rfl⟩, rfl, WatchesMore.of_log_eq rfl⟩
    | ok height =>
      obtain ⟨hanswer, hasked⟩ := query_ok.mp hheight
      subst hasked
      have hfee : getNetworkFeeRate ctx w.asked =
          (.ok (ctx.settings.fee.clampRate (ctx.answers.estimatedFeeRate (w.clock + 1))),
            w.asked.asked) := rfl
      simp only [Prog.bind_of_ok hheight, Prog.bind_of_ok hfee] at h
      cases hwatch : monitorWatch (watchRequest tx context trigger) false ctx w.asked.asked with
      | mk answer w₂ =>
        unfold watchRequest at hwatch
        cases answer with
        | error e =>
          have hasked := monitorWatch_error hwatch
          simp only [Prog.bind_of_error hwatch, Prod.mk.injEq] at h
          obtain ⟨rfl, rfl⟩ := h
          subst hasked
          exact Or.inl ⟨⟨e, rfl⟩, rfl, WatchesMore.of_log_eq rfl⟩
        | ok u =>
          have hwatched := monitorWatch_ok hwatch
          subst hwatched
          rw [Prog.bind_of_ok hwatch] at h
          let watching := w.asked.asked.asked.noted (.monitored (watchRequest tx context trigger) false)
          let record := answeredRecord tx data context target trigger ctx w.clock height
          refine Or.inr ⟨height, watching.noted (.registering record w.store), hanswer, rfl, ?_, ?_, h⟩
          · constructor
            · intro d b hin
              exact List.mem_cons_of_mem _ (List.mem_cons_of_mem _ hin)
            · intro d b hin
              simpa [watching, World.noted, World.asked, watchRequest] using hin
          · exact List.mem_cons_of_mem _ List.mem_cons_self

/-- A completed end of a registration stored the record and pended the parent. -/
theorem storeAndPend_ok {record : CoordinatedTx} {u : Unit}
    (h : storeAndPend record ctx w = (.ok u, w')) :
    w'.store = (w.store.setTx record).pend record.txid ∧
      ∀ d b, .monitored d b ∈ w'.log ↔ .monitored d b ∈ w.log := by
  obtain ⟨_, w₁, hinsert, hpend⟩ := Prog.bind_ok.mp h
  obtain ⟨-, rfl⟩ := writeStore_ok.mp hinsert
  have hone : OneWrite _ (w.written (w.store.setTx record))
      (addPendingSpeedupParent record.txid ctx _) :=
    addPendingSpeedupParent_oneWrite record.txid
  rw [hpend] at hone
  refine ⟨hone.store_eq, fun d b => ?_⟩
  cases hone with
  | same hsame => simp [World.written]
  | taken => simp [World.written]

/-- A parent that is pending already is not written again. -/
theorem addPendingSpeedupParent_of_mem {txid : Txid} (h : txid ∈ w.store.pendingSpeedupParents) :
    addPendingSpeedupParent txid ctx w = (.ok (), w) := by
  change (if txid ∈ w.store.pendingSpeedupParents then pure () else writeStore _ : Coord Unit) ctx w =
    _
  rw [if_pos h]
  rfl

/-- A stopped end of a registration stored nothing, or the record of a parent that was not pending. -/
theorem storeAndPend_error {record : CoordinatedTx} {e : Stop}
    (h : storeAndPend record ctx w = (.error e, w')) :
    (w'.store = w.store ∨
      w'.store = w.store.setTx record ∧ record.txid ∉ w.store.pendingSpeedupParents) ∧
      ∀ d b, .monitored d b ∈ w'.log ↔ .monitored d b ∈ w.log := by
  rcases Prog.bind_error.mp h with hinsert | ⟨_, w₁, hinsert, hpend⟩
  · have hone : OneWrite _ w (writeStore (fun s => s.setTx record) ctx w) := writeStore_oneWrite
    rw [show writeStore _ ctx w = _ from hinsert] at hone
    cases hone with
    | refused => exact ⟨Or.inl rfl, fun _ _ => Iff.rfl⟩
  · obtain ⟨-, rfl⟩ := writeStore_ok.mp hinsert
    obtain hin | hout := em (record.txid ∈ w.store.pendingSpeedupParents)
    · -- A parent already pending needs no second write, so the attempt would have completed.
      have hdone : addPendingSpeedupParent record.txid ctx (w.written (w.store.setTx record)) =
          (.ok (), w.written (w.store.setTx record)) := addPendingSpeedupParent_of_mem hin
      exact absurd (hdone.symm.trans hpend) (by simp)
    · have hone : OneWrite _ (w.written (w.store.setTx record))
          (addPendingSpeedupParent record.txid ctx _) :=
        addPendingSpeedupParent_oneWrite record.txid
      rw [hpend] at hone
      cases hone with
      | refused =>
        exact ⟨Or.inr ⟨rfl, hout⟩, fun _ _ => by simp [World.written, World.asked]⟩

/-! ### Repeating a stopped registration -/

/-- The registration under study. -/
abbrev registration (tx : Transaction) (data : SpeedupData) (context : String)
    (target : Option BlockHeight) (trigger : Option ℕ) : Coord Unit :=
  dispatchWithSpeedup tx data context target trigger

/-- What stopped attempts leave: nothing stored, or the record of a parent missing from the pending
list; and at most one request to the monitor. -/
structure Interrupted (tx : Transaction) (request : TypesToMonitor) (w w' : World) : Prop where
  store : w'.store = w.store ∨ ∃ record : CoordinatedTx, record.txid = tx.computeTxid ∧
    w'.store = w.store.setTx record ∧ tx.computeTxid ∉ w.store.pendingSpeedupParents
  watched : WatchesMore request w w'

/-- A stopped attempt leaves the registration interrupted. -/
theorem interrupted_of_stopsAt (hnew : w.store.txs.get tx.computeTxid = none)
    (h : StopsAt (registration tx data context target trigger) w w') :
    Interrupted tx (watchRequest tx context trigger) w w' := by
  obtain ⟨ctx, e, hrun⟩ := h
  rcases dispatchWithSpeedup_new hnew hrun with ⟨-, hstore, hwatched⟩ | ⟨height, w₁, -, hstore, hwatched, -, hend⟩
  · exact ⟨Or.inl hstore, hwatched⟩
  · obtain ⟨hleft, hmonitored⟩ := storeAndPend_error hend
    constructor
    · rcases hleft with hsame | ⟨hwritten, hout⟩
      · exact Or.inl (hsame.trans hstore)
      · rw [hstore] at hwritten hout
        exact Or.inr ⟨_, rfl, hwritten, hout⟩
    · constructor
      · intro d b hin
        exact (hmonitored d b).mpr (hwatched.1 d b hin)
      · intro d b hin
        exact hwatched.2 d b ((hmonitored d b).mp hin)

/-- A tracked transaction is not registered again, so no attempt on it stops. -/
theorem not_stopsAt_of_tracked {record : CoordinatedTx}
    (hget : w.store.txs.get tx.computeTxid = some record) :
    ¬ StopsAt (registration tx data context target trigger) w w' := by
  rintro ⟨ctx, e, hrun⟩
  unfold registration at hrun
  rw [dispatchWithSpeedup_tracked hget] at hrun
  cases hrun

/-- Any number of stopped attempts leave the registration interrupted. -/
theorem interrupted_of_stops (hnew : w.store.txs.get tx.computeTxid = none)
    (h : Relation.TransGen (StopsAt (registration tx data context target trigger)) w w') :
    Interrupted tx (watchRequest tx context trigger) w w' := by
  induction h with
  | single hstop => exact interrupted_of_stopsAt hnew hstop
  | tail hstops hstop ih =>
    rcases ih.store with hsame | ⟨record, hid, hwritten, -⟩
    · have hlast := interrupted_of_stopsAt (by rw [hsame]; exact hnew) hstop
      have hstore := hlast.store
      rw [hsame] at hstore
      constructor
      · exact hstore
      · constructor
        · intro d b hin
          exact hlast.watched.1 d b (ih.watched.1 d b hin)
        · intro d b hin
          rcases hlast.watched.2 d b hin with hrequest | hold
          · exact Or.inl hrequest
          · exact ih.watched.2 d b hold
    · exact absurd hstop (not_stopsAt_of_tracked (by rw [hwritten, Store.get_setTx, if_pos hid.symm]))

/-- A completed registration of a new transaction. -/
theorem registration_ok {u : Unit} (hnew : w.store.txs.get tx.computeTxid = none)
    (h : registration tx data context target trigger ctx w = (.ok u, w')) :
    ∃ height, ctx.answers.monitorHeight w.clock = .ok height ∧
      w'.store = (w.store.setTx
        (answeredRecord tx data context target trigger ctx w.clock height)).pend tx.computeTxid ∧
      WatchesMore (watchRequest tx context trigger) w w' ∧
      .monitored (watchRequest tx context trigger) false ∈ w'.log := by
  rcases dispatchWithSpeedup_new hnew h with ⟨⟨e, he⟩, -⟩ |
    ⟨height, w₁, hheight, hstore, hwatched, hin, hend⟩
  · cases he
  · obtain ⟨hstored, hmonitored⟩ := storeAndPend_ok hend
    rw [hstore] at hstored
    refine ⟨height, hheight, hstored, ?_, (hmonitored _ _).mpr hin⟩
    constructor
    · intro d b hold
      exact (hmonitored d b).mpr (hwatched.1 d b hold)
    · intro d b hnew
      exact hwatched.2 d b ((hmonitored d b).mp hnew)

/-- When nothing is refused, a registration completes. -/
theorem registration_completes (hnew : w.store.txs.get tx.computeTxid = none) :
    Prog.Completes (registration tx data context target trigger)
      ⟨defaultSettings, (sampleView 0 [] []).answers (plainBuilder id) 0 0⟩ w := by
  apply Prog.Completes.bind (Prog.Completes.read _)
  intro found w₁ hread
  obtain ⟨hfound, hw₁⟩ := Prog.read_ok.mp hread
  subst w₁
  obtain rfl : found = none := hfound.trans hnew
  refine Prog.Completes.seq (m := getMonitorHeight) ⟨_, _, rfl⟩ fun height _ => ?_
  refine Prog.Completes.seq (m := getNetworkFeeRate) ⟨_, _, rfl⟩ fun rate _ => ?_
  refine Prog.Completes.seq (m := monitorWatch _ _) ⟨_, _, rfl⟩ fun _ _ => ?_
  refine Prog.Completes.seq (m := note _) ⟨_, _, rfl⟩ fun _ _ => ?_
  refine Prog.Completes.seq (m := insertTx _) ⟨_, _, rfl⟩ fun _ _ => ?_
  apply Prog.Completes.ite <;> intro _
  · refine Prog.Completes.seq (m := readStore _) (Prog.Completes.read _) fun list w₃ => ?_
    apply Prog.Completes.ite <;> intro _
    · exact Prog.Completes.pure _
    · exact ⟨_, _, rfl⟩
  · exact Prog.Completes.pure _

/-- Repeating a stopped registration to completion repairs it exactly when it was stopped before the
record was stored. -/
theorem repairedByRetry_iff (tx : Transaction) (data : SpeedupData) (context : String)
    (target : Option BlockHeight) (trigger : Option ℕ) (w stopped : World)
    (hnew : w.store.txs.get tx.computeTxid = none)
    (hstops : Relation.TransGen
      (StopsAt (dispatchWithSpeedup tx data context target trigger)) w stopped) :
    RepairedByRetry (dispatchWithSpeedup tx data context target trigger) tx.computeTxid w stopped ↔
      stopped.store = w.store := by
  have hleft := interrupted_of_stops hnew hstops
  constructor
  · intro hrepaired
    rcases hleft.store with hsame | ⟨record, hid, hwritten, hout⟩
    · exact hsame
    · -- The next attempt returns at once, so the parent never reaches the pending list.
      have htracked : stopped.store.txs.get tx.computeTxid = some record := by
        rw [hwritten, Store.get_setTx, if_pos hid.symm]
      have hclock : ({ w with clock := stopped.clock } : World).store.txs.get tx.computeTxid = none :=
        hnew
      obtain ⟨_, w₂, hrun⟩ : Prog.Completes (registration tx data context target trigger)
          ⟨defaultSettings, (sampleView 0 [] []).answers (plainBuilder id) 0 0⟩
          { w with clock := stopped.clock } := registration_completes hclock
      have hpending := (hrepaired _ _ _ (dispatchWithSpeedup_tracked htracked) hrun).pending
      obtain ⟨height, -, hstored, -⟩ := registration_ok hclock hrun
      rw [hwritten, hstored] at hpending
      have hin : tx.computeTxid ∈ (w.store.setTx record).pendingSpeedupParents := by
        rw [hpending]
        unfold Store.pend
        split
        · next hin => exact hin
        · exact List.mem_append_right _ List.mem_cons_self
      exact absurd hin hout
  · intro hsame ctx w₁ w₂ hretry hsingle
    obtain ⟨height, hheight, hstored, hwatched, hin⟩ := registration_ok (by rw [hsame]; exact hnew) hretry
    obtain ⟨height', hheight', hstored', hwatched', hin'⟩ :=
      registration_ok (w := { w with clock := stopped.clock }) hnew hsingle
    have heights : height' = height := by
      rw [show ctx.answers.monitorHeight stopped.clock = .ok height' from hheight'] at hheight
      cases hheight
      rfl
    have hstores : w₁.store = w₂.store := by
      rw [hstored, hstored', heights, hsame]
    constructor
    · rw [hstores]
    · intro d b
      constructor
      · intro hd
        rcases hwatched.2 d b hd with ⟨rfl, rfl⟩ | hstopped
        · exact hin'
        · rcases hleft.watched.2 d b hstopped with ⟨rfl, rfl⟩ | hold
          · exact hin'
          · exact hwatched'.1 d b hold
      · intro hd
        rcases hwatched'.2 d b hd with ⟨rfl, rfl⟩ | hold
        · exact hin
        · exact hwatched.1 d b (hleft.watched.1 d b hold)
    · rw [hstores]

/-- Answers under which nothing is refused. -/
def acceptingAnswers : Answers := (sampleView 100 [] []).answers (plainBuilder fun _ => 200) 5 0

/-- The example registration. -/
def sampleRegistration : Coord Unit :=
  dispatchWithSpeedup sampleParent sampleAnchor "parent" none none

/-- A call during which the monitor refuses to watch. -/
def monitorDownCtx : Ctx :=
  ⟨defaultSettings, { acceptingAnswers with monitor := fun _ _ _ => .error "monitor down" }⟩

/-- The world left by the example registration when the monitor refuses to watch. -/
def unwatchedWorld : World := (sampleRegistration monitorDownCtx World.init).2

/-- A registration that the monitor refused left the store alone, so repeating it repairs it. -/
theorem repairedByRetry_unwatched :
    unwatchedWorld.store = World.init.store ∧
      RepairedByRetry sampleRegistration sampleParent.computeTxid World.init unwatchedWorld := by
  refine ⟨rfl, ?_⟩
  refine (repairedByRetry_iff sampleParent sampleAnchor "parent" none none World.init unwatchedWorld
    (by decide) (Relation.TransGen.single ?_)).mpr rfl
  exact ⟨monitorDownCtx, .error (.monitorError "monitor down"), rfl⟩

/-- A call during which the backend refuses the second write of a registration. -/
def diskFullCtx : Ctx :=
  ⟨defaultSettings, { acceptingAnswers with
    storage := fun n => if n = 4 then .error "disk full" else .ok () }⟩

/-- The world left by the example registration when the backend refuses its second write. -/
def unpendedWorld : World := (sampleRegistration diskFullCtx World.init).2

/-- A registration stopped between its two writes is not repaired: the parent never waits for a
speedup. -/
theorem exists_registration_not_repaired :
    World.init.store.txs.get sampleParent.computeTxid = none ∧
      StopsAt sampleRegistration World.init unpendedWorld ∧
      ¬ RepairedByRetry sampleRegistration sampleParent.computeTxid World.init unpendedWorld := by
  refine ⟨by decide, ⟨diskFullCtx, .error (.storageBackendError "disk full"), rfl⟩, ?_⟩
  intro hrepaired
  let retried := (sampleRegistration ⟨defaultSettings, acceptingAnswers⟩ unpendedWorld).2
  let single := (sampleRegistration ⟨defaultSettings, acceptingAnswers⟩
    { World.init with clock := unpendedWorld.clock }).2
  have hpending := (hrepaired ⟨defaultSettings, acceptingAnswers⟩ retried single rfl rfl).pending
  have hdiffer : retried.store.pendingSpeedupParents ≠ single.store.pendingSpeedupParents := by
    decide +kernel
  exact hdiffer hpending

end BitcoinCoordinator
