import BitcoinCoordinator.RetryBudget

/-!
# Building apart from dispatching

A tick dispatches before it builds, builds at most one speedup, and builds none while a listed speedup
waits for dispatch. So at most one speedup waits for its first dispatch, as long as every speedup that
waits is listed; a stop between the two writes of a build leaves one that is not.
-/

namespace BitcoinCoordinator

open Foundation

/-- A speedup waits for dispatch. -/
def CoordinatedTx.IsWaiting (tx : CoordinatedTx) : Prop :=
  tx.speedup?.isSome ∧ tx.state = .toDispatch

/-- A speedup waits for its first dispatch. -/
def CoordinatedTx.IsFresh (tx : CoordinatedTx) : Prop :=
  tx.IsWaiting ∧ tx.broadcastBlockHeight = none

/-- Every speedup that waits for dispatch is listed. -/
def Store.ListsWaiting (s : Store) : Prop :=
  ∀ txid tx, s.txs.get txid = some tx → tx.IsWaiting → txid ∈ s.speedupList

/-- No tracked speedup waits for dispatch. -/
def Store.NoneWaiting (s : Store) : Prop :=
  ∀ txid tx, s.txs.get txid = some tx → ¬ tx.IsWaiting

/-- At most one tracked speedup waits for its first dispatch. -/
def Store.OneFresh (s : Store) : Prop :=
  ∀ txid txid' tx tx', s.txs.get txid = some tx → s.txs.get txid' = some tx' → tx.IsFresh →
    tx'.IsFresh → txid = txid'

/-- The node had a transaction before. -/
def WasAccepted (txid : Txid) (log : List Event) : Prop :=
  ∃ copy before, .rewrote copy before ∈ log ∧ copy.txid = txid

/-- When no listed speedup waits, none waits exactly when all that wait are listed. -/
theorem Store.Idle.noneWaiting_iff {s : Store} (h : s.Idle) : s.NoneWaiting ↔ s.ListsWaiting := by
  constructor
  · intro hnone txid tx hget hwaiting
    exact absurd hwaiting (hnone txid tx hget)
  · intro hlists txid tx hget hwaiting
    exact h txid (hlists txid tx hget hwaiting) tx hget hwaiting.2

variable {ctx : Ctx} {tidy : Prop} {phase : Phase} {w w' : World}

/-! ### Waiting speedups -/

/-- Every record with a broadcast height was accepted before. -/
def AcceptedAgree (w : World) : Prop :=
  ∀ txid tx, w.store.txs.get txid = some tx → tx.broadcastBlockHeight.isSome → WasAccepted txid w.log

/-- What the node had, it had. -/
theorem WasAccepted.mono {txid : Txid} {log log' : List Event} (h : WasAccepted txid log)
    (hsub : log ⊆ log') : WasAccepted txid log' := by
  obtain ⟨copy, before, hmem, hid⟩ := h
  exact ⟨copy, before, hsub hmem, hid⟩

/-- A changed record keeps its broadcast height. -/
theorem Change.broadcast_eq {log : List Event} {tx tx' : CoordinatedTx}
    (h : Change tidy log tx phase tx') : tx'.broadcastBlockHeight = tx.broadcastBlockHeight := by
  cases h <;> rfl

/-- A changed record stays a speedup, or stays none. -/
theorem Change.speedup_isSome_eq {log : List Event} {tx tx' : CoordinatedTx}
    (h : Change tidy log tx phase tx') : tx'.speedup?.isSome = tx.speedup?.isSome := by
  cases h with
  | mark phase kind mark hkind => simp [CoordinatedTx.speedup?, hkind]
  | _ => rfl

/-- A record written back is in the mempool or confirmed. -/
theorem Rewrite.state_ne {copy updated : CoordinatedTx} (h : Rewrite copy updated) :
    updated.state ≠ .toDispatch := by
  cases h <;> simp

/-- A record put while it waits was accepted before, or waits for its first dispatch. -/
theorem Put.accepted {log : List Event} {tx : CoordinatedTx} (h : AcceptedAgree w)
    (hput : Put ctx True w log phase tx) (hstate : tx.state = .toDispatch)
    (hbroadcast : tx.broadcastBlockHeight.isSome) : WasAccepted tx.txid w.log := by
  cases hput with
  | changed old tx' hget hchange =>
    rw [hchange.broadcast_eq] at hbroadcast
    rw [hchange.txid_eq]
    exact h _ _ hget hbroadcast
  | vanished old height hget hstep hfrom => exact h _ _ hget hbroadcast
  | rewrote copy updated hrewrite hread hdrift hnote => exact absurd hstate hrewrite.state_ne
  | inserted tx htx hnote =>
    rw [htx.isNew.broadcast] at hbroadcast
    cases hbroadcast
  | registered tx hfresh hkind hnew hnote =>
    rw [hnew.broadcast] at hbroadcast
    cases hbroadcast

/-- Every move keeps the record of what was accepted. -/
theorem AcceptedAgree.move (h : AcceptedAgree w) (hmove : Move ctx True phase w w') :
    AcceptedAgree w' := by
  intro txid tx hget hbroadcast
  have hsub : w.log ⊆ w'.log := hmove.log_suffix.subset
  rcases hmove.records hget with hold | ⟨hput, -, hstore⟩
  · exact (h txid tx hold hbroadcast).mono hsub
  · rw [← w'.store.keyed _ _ hget]
    cases hput with
    | rewrote copy updated hrewrite hread hdrift hnote =>
      exact ⟨copy, w.store, hnote, hrewrite.txid_eq.symm⟩
    | changed old tx' hold hchange =>
      rw [hchange.broadcast_eq] at hbroadcast
      rw [hchange.txid_eq]
      exact (h _ _ hold hbroadcast).mono hsub
    | vanished old height hold hstep hfrom => exact (h _ _ hold hbroadcast).mono hsub
    | inserted tx htx hnote =>
      rw [htx.isNew.broadcast] at hbroadcast
      cases hbroadcast
    | registered tx hfresh hkind hnew hnote =>
      rw [hnew.broadcast] at hbroadcast
      cases hbroadcast

/-- A record put fresh was fresh before, or is a speedup just built. -/
theorem Put.fresh {log : List Event} {tx : CoordinatedTx}
    (hsound : EveryRecord CoordinatedTx.MetadataSound w) (hput : Put ctx True w log phase tx)
    (hfresh : tx.IsFresh) :
    (∃ old, w.store.txs.get tx.txid = some old ∧ old.IsFresh) ∨
      .inserted tx w.store ∈ log ∧ w.store.Idle := by
  obtain ⟨⟨hspeedup, hstate⟩, hbroadcast⟩ := hfresh
  cases hput with
  | changed old tx' hget hchange =>
    left
    have hnone : old.broadcastBlockHeight = none := hchange.broadcast_eq.symm.trans hbroadcast
    refine ⟨old, by rw [hchange.txid_eq]; exact hget, ⟨?_, ?_⟩, hnone⟩
    · rw [← hchange.speedup_isSome_eq]
      exact hspeedup
    · have hsome := (hsound.current hget).inFlight
      cases hchange with
      | advance state hstep hmoved hfrom =>
        have hflight := (hsome (hfrom trivial)).2.2
        rw [hnone] at hflight
        cases hflight
      | finalize height hstep hfrom => cases hstate
      | fail height hstep => cases hstate
      | retry hstep hfrom hcause => exact hfrom trivial
      | mark phase kind mark hkind => exact hstate
      | atCap maxFeerate => exact hstate
  | vanished old height hget hstep hfrom =>
    have hflight := ((hsound.current hget).inFlight (hfrom trivial)).2.2
    change old.broadcastBlockHeight = none at hbroadcast
    rw [hbroadcast] at hflight
    cases hflight
  | rewrote copy updated hrewrite hread hdrift hnote => exact absurd hstate hrewrite.state_ne
  | inserted tx htx hnote => exact Or.inr ⟨hnote, htx.idle⟩
  | registered tx hfresh hkind hnew hnote =>
    rw [hkind] at hspeedup
    cases hspeedup

/-- Every speedup was stored while all that waited were listed. -/
def InsertsListed (log : List Event) : Prop :=
  ∀ tx before, .inserted tx before ∈ log → before.ListsWaiting

/-- Every move keeps that at most one speedup waits for its first dispatch. -/
theorem OneFresh.move (h : w.store.OneFresh) (hsound : EveryRecord CoordinatedTx.MetadataSound w)
    (hmove : Move ctx True phase w w') (hlists : InsertsListed w'.log) : w'.store.OneFresh := by
  have horigin : ∀ {txid tx}, w'.store.txs.get txid = some tx → tx.IsFresh →
      (∃ old, w.store.txs.get txid = some old ∧ old.IsFresh) ∨
        w'.store = w.store.setTx tx ∧ w.store.NoneWaiting := by
    intro txid tx hget hfresh
    rcases hmove.records hget with hold | ⟨hput, -, hstore⟩
    · exact Or.inl ⟨tx, hold, hfresh⟩
    · rcases hput.fresh hsound hfresh with hold | ⟨hnote, hidle⟩
      · rw [w'.store.keyed _ _ hget] at hold
        exact Or.inl hold
      · exact Or.inr ⟨hstore, hidle.noneWaiting_iff.mpr (hlists tx _ hnote)⟩
  intro txid txid' tx tx' hget hget' hfresh hfresh'
  rcases horigin hget hfresh with ⟨old, hold, hfreshOld⟩ | ⟨hstore, hnone⟩
  · rcases horigin hget' hfresh' with ⟨old', hold', hfreshOld'⟩ | ⟨hstore', hnone'⟩
    · exact h txid txid' old old' hold hold' hfreshOld hfreshOld'
    · exact absurd hfreshOld.1 (hnone' _ _ hold)
  · rw [hstore] at hget'
    rcases get_of_setTx hget' with hkept | rfl
    · exact absurd hfresh'.1 (hnone _ _ hkept)
    · rw [← (w.store.setTx tx').keyed _ _ hget', ← w'.store.keyed _ _ hget]

/-- What a write and a stored speedup say about waiting speedups. -/
def SplitEntry : Event → List Event → Prop
  | .wrote _ after, older => after.OneFresh ∧ ∀ txid tx, after.txs.get txid = some tx →
      tx.IsWaiting → tx.IsFresh ∨ WasAccepted txid older
  | .inserted _ before, _ => before.NoneWaiting
  | _, _ => True

/-- What holds of a history about waiting speedups. -/
structure Splitting (w : World) : Prop where
  sound : EveryRecord CoordinatedTx.MetadataSound w
  accepted : AcceptedAgree w
  one : w.store.OneFresh
  entries : Throughout SplitEntry w.log

/-- A version whose writing a move records. -/
theorem Splitting.version (h : Splitting w) (hmove : Move ctx True phase w w')
    (hone : w'.store.OneFresh) : SplitEntry (.wrote w.store w'.store) w.log := by
  refine ⟨hone, fun txid tx hget hwaiting => ?_⟩
  by_cases hnone : tx.broadcastBlockHeight = none
  · exact Or.inl ⟨hwaiting, hnone⟩
  · right
    have hsome := Option.isSome_iff_ne_none.mpr hnone
    rcases hmove.records hget with hold | ⟨hput, -, -⟩
    · exact h.accepted txid tx hold hsome
    · rw [← w'.store.keyed _ _ hget]
      exact hput.accepted h.accepted hwaiting.2 hsome

/-- Every move keeps the split, when every speedup is stored while all that wait are listed. -/
theorem Splitting.move (h : Splitting w) (hmove : Move ctx True phase w w')
    (hlists : InsertsListed w'.log) : Splitting w' := by
  have hone := OneFresh.move h.one h.sound hmove hlists
  have hversion := h.version hmove hone
  refine ⟨h.sound.move hmove fun tx hput => hput.metadataSound h.sound, h.accepted.move hmove, hone, ?_⟩
  rcases hmove with hplain | hpart
  · cases hplain with
    | quiet hquiet =>
      apply hquiet.throughout h.entries
      · intro e older hremark
        cases e <;> trivial
      · exact hversion
    | changed => exact throughout_cons.mpr ⟨hversion, h.entries⟩
    | vanished | rewrote =>
      exact throughout_cons.mpr ⟨trivial, throughout_cons.mpr ⟨hversion, h.entries⟩⟩
    | _ => exact throughout_cons.mpr ⟨trivial, h.entries⟩
  · cases hpart with
    | inserted tx htx =>
      refine throughout_cons.mpr ⟨?_, throughout_cons.mpr ⟨hversion, h.entries⟩⟩
      exact htx.idle.noneWaiting_iff.mpr (hlists tx _ List.mem_cons_self)
    | _ => exact throughout_cons.mpr ⟨hversion, h.entries⟩

/-! ### One tick -/

/-- A speedup was stored. -/
def Event.isInserted : Event → Bool
  | .inserted _ _ => true
  | _ => false

/-- A transaction was handed to the node. -/
def Event.isBroadcast : Event → Bool
  | .broadcast _ => true
  | _ => false

/-- A tick settles and then builds: what settles stores no speedup, what builds hands nothing to the node
and stores at most one speedup. -/
def TickSplit (w w' : World) : Prop :=
  ∃ settled built, w'.log = built ++ (settled ++ w.log) ∧
    (∀ e ∈ settled, e.isInserted = false) ∧ (∀ e ∈ built, e.isBroadcast = false) ∧
    built.countP Event.isInserted ≤ 1

/-- A quiet move adds remarks and writes. -/
theorem Quiet.grows {p : Event → Prop} (h : Quiet w w') (hremark : ∀ e, e.IsRemark → p e)
    (hwrote : ∀ a b, p (.wrote a b)) : Grows p w.log w'.log := by
  rcases h.log_eq with hlog | ⟨e, he, hlog⟩ | hlog
  · rw [hlog]
    exact Grows.refl _
  · rw [hlog]
    exact (Grows.refl _).cons (hremark e he)
  · rw [hlog]
    exact (Grows.refl _).cons (hwrote _ _)

/-- A plain move stores no speedup. -/
theorem Plain.grows (h : Plain ctx tidy phase w w') :
    Grows (fun e => e.isInserted = false) w.log w'.log := by
  have hwrote : ∀ s, Grows (fun e => e.isInserted = false) w.log (w.written s).log :=
    fun _ => (Grows.refl _).cons rfl
  cases h with
  | quiet hquiet =>
    apply hquiet.grows
    · intro e hremark
      cases e <;> first | rfl | exact absurd hremark id
    · exact fun _ _ => rfl
  | vanished | rewrote => exact (hwrote _).cons rfl
  | _ => exact (Grows.refl _).cons rfl

/-- What settles stores no speedup. -/
theorem Move.settles (h : Move ctx tidy .settle w w') :
    Grows (fun e => e.isInserted = false) w.log w'.log := by
  rcases h with hplain | hpart
  · exact hplain.grows
  · cases hpart with
    | _ => exact (Grows.refl _).cons rfl

/-- What builds hands nothing to the node. -/
theorem Move.builds (h : Move ctx tidy .build w w') :
    Grows (fun e => e.isBroadcast = false) w.log w'.log := by
  have hwrote : ∀ s, Grows (fun e => e.isBroadcast = false) w.log (w.written s).log :=
    fun _ => (Grows.refl _).cons rfl
  rcases h with hplain | hpart
  · cases hplain with
    | quiet hquiet =>
      apply hquiet.grows
      · intro e hremark
        cases e <;> first | rfl | exact absurd hremark id
      · exact fun _ _ => rfl
    | _ => exact (Grows.refl _).cons rfl
  · cases hpart with
    | inserted => exact (hwrote _).cons rfl
    | _ => exact (Grows.refl _).cons rfl

/-- The history grows along a chain of moves as it grows by each. -/
theorem grows_of_moves {p : Event → Prop}
    (hmove : ∀ w w', Move ctx tidy phase w w' → Grows p w.log w'.log)
    (h : Relation.ReflTransGen (Move ctx tidy phase) w w') : Grows p w.log w'.log := by
  induction h with
  | refl => exact Grows.refl _
  | tail _ hlast ih => exact ih.trans (hmove _ _ hlast)

/-- The history grows along a chain of steps as it grows by each move. -/
theorem grows_of_steps {p : Event → Prop}
    (hmove : ∀ w w', Move ctx tidy phase w w' → Grows p w.log w'.log)
    (h : Relation.ReflTransGen (Step ctx tidy phase) w w') : Grows p w.log w'.log := by
  induction h with
  | refl => exact Grows.refl _
  | tail _ hlast ih => exact ih.trans (grows_of_moves hmove hlast.moves)

/-- Entries that store no speedup do not count. -/
theorem countP_isInserted_eq {log log' : List Event}
    (h : Grows (fun e => e.isInserted = false) log log') :
    log'.countP Event.isInserted = log.countP Event.isInserted := by
  obtain ⟨added, rfl, hall⟩ := h
  rw [List.countP_append, List.countP_eq_zero.mpr, Nat.zero_add]
  intro e he
  simp [hall e he]

/-- At most one speedup was stored since a count was taken, and if one was, a listed one waits. -/
def AtMostOne (n : ℕ) (w : World) : Prop :=
  w.log.countP Event.isInserted ≤ n ∨ w.log.countP Event.isInserted ≤ n + 1 ∧ ¬ w.store.Idle

/-- A plain move of a build leaves every listed speedup that waits waiting. -/
theorem Plain.idle_of_idle (h : Plain ctx tidy .build w w') (hidle : w'.store.Idle) :
    w.store.Idle := by
  cases h with
  | quiet hquiet =>
    unfold Store.Idle at *
    rw [← hquiet.speedupList_eq, ← hquiet.txs_eq]
    exact hidle
  | changed tx tx' hget hchange =>
    have hstate : tx'.state = tx.state := by
      cases hchange with
      | mark => rfl
      | atCap => rfl
    intro txid hlisted old hold
    by_cases hid : txid = tx'.txid
    · have hsame : old = tx := by
        rw [hid, hchange.txid_eq, hget] at hold
        exact (Option.some.inj hold).symm
      rw [hsame, ← hstate]
      exact hidle txid hlisted tx' ((w.store.get_setTx tx' txid).trans (if_pos hid))
    · exact hidle txid hlisted old ((w.store.get_setTx tx' txid).trans ((if_neg hid).trans hold))
  | signed => exact hidle
  | planned => exact hidle

/-- A speedup just built and listed waits. -/
theorem Insertable.not_idle {tx : CoordinatedTx} {s : Store} (h : Insertable ctx w tx)
    (hget : s.txs.get tx.txid = some tx) (hlisted : tx.txid ∈ s.speedupList) : ¬ s.Idle :=
  fun hidle => hidle tx.txid hlisted tx hget h.isNew.state

/-- A listed identifier is in the list. -/
theorem Store.mem_list (s : Store) (txid : Txid) : txid ∈ (s.list txid).speedupList := by
  unfold Store.list
  split
  · next hin => exact hin
  · simp

/-- Storing a speedup adds one, and when it completes a listed speedup waits. -/
theorem Inserting.atMostOne {tx : CoordinatedTx} {n : ℕ} {r : Except Stop Unit}
    (h : Inserting tx w (r, w')) (htx : Insertable ctx w tx)
    (hn : w.log.countP Event.isInserted ≤ n) :
    w'.log.countP Event.isInserted ≤ n + 1 ∧ (r = .ok () → ¬ w'.store.Idle) := by
  have hhold : (w.holding tx).log.countP Event.isInserted ≤ n + 1 := by
    simp only [World.holding, World.noted, World.written]
    rw [List.countP_cons_of_pos rfl, List.countP_cons_of_neg (by simp [Event.isInserted])]
    omega
  have hget : (w.store.setTx tx).txs.get tx.txid = some tx :=
    (w.store.get_setTx tx tx.txid).trans (if_pos rfl)
  cases h with
  | refused stop => exact ⟨hn.trans (Nat.le_succ n), by simp⟩
  | unlisted stop => exact ⟨hhold, by simp⟩
  | relisted hlisted =>
    refine ⟨?_, fun _ => htx.not_idle hget hlisted⟩
    simpa [World.noted, Event.isInserted] using hhold
  | listed =>
    refine ⟨?_, fun _ => htx.not_idle ?_ (Store.mem_list _ _)⟩
    · simpa [World.noted, World.written, Event.isInserted] using hhold
    · change ((w.store.setTx tx).list tx.txid).txs.get tx.txid = some tx
      rw [Store.txs_list]
      exact hget

/-- Every step of a build keeps that at most one speedup was stored. -/
theorem AtMostOne.step {n : ℕ} (h : AtMostOne n w) (hstep : Step ctx tidy .build w w') :
    AtMostOne n w' := by
  cases hstep with
  | plain hplain =>
    unfold AtMostOne
    rw [countP_isInserted_eq hplain.grows]
    exact h.imp id fun ⟨hcount, hbusy⟩ => ⟨hcount, fun hidle => hbusy (hplain.idle_of_idle hidle)⟩
  | whole hwhole =>
    cases hwhole with
    | inserted tx htx hrun =>
      rcases h with hcount | ⟨-, hbusy⟩
      · have hinserting : Inserting tx w (insertSpeedup tx ctx w) := insertSpeedup_inserting tx
        rw [hrun] at hinserting
        obtain ⟨hcount', hbusy⟩ := hinserting.atMostOne htx hcount
        exact Or.inr ⟨hcount', hbusy rfl⟩
      · exact absurd htx.idle hbusy

/-- A build that stops has stored at most one speedup too. -/
theorem AtMostOne.torn {n : ℕ} (h : AtMostOne n w) (htorn : Torn ctx tidy .build w w') :
    w'.log.countP Event.isInserted ≤ n + 1 := by
  obtain ⟨stop, hwhole⟩ := htorn
  cases hwhole with
  | inserted tx htx hrun =>
    rcases h with hcount | ⟨-, hbusy⟩
    · have hinserting : Inserting tx w (insertSpeedup tx ctx w) := insertSpeedup_inserting tx
      rw [hrun] at hinserting
      exact (hinserting.atMostOne htx hcount).1
    · exact absurd htx.idle hbusy

/-- Every tick settles and then builds at most one speedup, whatever it is answered and wherever it
stops. -/
theorem tickSplit_tick (w : World) : TickSplit w (tick ctx w).2 := by
  have hticks : Ticks False tick ctx w := tick_ticks fun h => absurd h id
  have hsplit : ∀ w₁ w₂ w', Relation.ReflTransGen (Step ctx False .settle) w w₁ →
      Relation.ReflTransGen (Step ctx False .build) w₁ w₂ →
      (w' = w₂ ∨ Torn ctx False .build w₂ w') → TickSplit w w' := by
    intro w₁ w₂ w' hsettle hbuild hend
    obtain ⟨settled, hsettled, hnone⟩ := grows_of_steps (fun _ _ => Move.settles) hsettle
    have hgrows : Grows (fun e => e.isBroadcast = false) w₁.log w'.log := by
      have hsteps := grows_of_steps (fun _ _ => Move.builds) hbuild
      rcases hend with rfl | ⟨stop, htorn⟩
      · exact hsteps
      · exact hsteps.trans (grows_of_moves (fun _ _ => Move.builds) htorn.moves)
    obtain ⟨built, hbuilt, hquiet⟩ := hgrows
    have hone : AtMostOne (w₁.log.countP Event.isInserted) w₂ := by
      clear hend
      induction hbuild with
      | refl => exact Or.inl le_rfl
      | tail _ hlast ih => exact ih.step hlast
    have hcount : w'.log.countP Event.isInserted ≤ w₁.log.countP Event.isInserted + 1 := by
      rcases hend with rfl | htorn
      · rcases hone with hcount | ⟨hcount, -⟩
        · exact hcount.trans (Nat.le_succ _)
        · exact hcount
      · exact hone.torn htorn
    refine ⟨settled, built, by rw [hbuilt, hsettled], hnone, hquiet, ?_⟩
    rw [hbuilt, List.countP_append] at hcount
    omega
  cases hrun : tick ctx w with
  | mk r w' =>
    cases r with
    | ok a =>
      obtain ⟨w₁, hsettle, hbuild⟩ := hticks.done a w' hrun
      exact hsplit w₁ w' w' hsettle hbuild (Or.inl rfl)
    | error e =>
      obtain ⟨w₁, hsettle, htorn | ⟨w₂, hbuild, hend⟩⟩ := hticks.stopped e w' hrun
      · obtain ⟨stop, hwhole⟩ := htorn
        obtain ⟨settled, hsettled, hnone⟩ :=
          (grows_of_steps (fun _ _ => Move.settles) hsettle).trans
            (grows_of_moves (fun _ _ => Move.settles) hwhole.moves)
        exact ⟨settled, [], hsettled, hnone, by simp, by simp⟩
      · exact hsplit w₁ w₂ w' hsettle hbuild hend

/-! ### Runs -/

/-- Building is kept apart from dispatching in a run: in every version at most one speedup waits for its
first dispatch and every other waiting one was accepted before; no speedup is stored while one waits; and
every tick settles and then builds at most one. -/
structure BuildSplit (cfg : BitcoinSettings) (calls : List Call) : Prop where
  entries : Throughout SplitEntry (runCalls cfg calls World.init).log
  ticks : ∀ earlier answers later, calls = earlier ++ ⟨.tick, answers⟩ :: later →
    TickSplit (runCalls cfg earlier World.init)
      (tick ⟨cfg, answers⟩ (runCalls cfg earlier World.init)).2

/-- A speedup found none waiting, so all that waited were listed. -/
theorem insertsListed_of_throughout {log : List Event} (h : Throughout SplitEntry log) :
    InsertsListed log := by
  intro tx before hmem txid old hget hwaiting
  obtain ⟨newer, older, hlog⟩ := List.append_of_mem hmem
  rw [hlog] at h
  exact absurd hwaiting (h.entry txid old hget)

/-- Whatever the calls are answered and wherever they stop, building is kept apart from dispatching
exactly when every speedup is stored while all tracked speedups that wait are listed. -/
theorem buildSplit_iff (cfg : BitcoinSettings) (calls : List Call) :
    BuildSplit cfg calls ↔ InsertsListed (runCalls cfg calls World.init).log := by
  constructor
  · intro h
    exact insertsListed_of_throughout h.entries
  · intro hlists
    have hkept : InsertsListed (runCalls cfg calls World.init).log →
        Splitting (runCalls cfg calls World.init) := by
      have hmove : ∀ call ∈ calls, ∀ phase w w', (InsertsListed w.log → Splitting w) →
          Move ⟨cfg, call.answers⟩ True phase w w' → InsertsListed w'.log → Splitting w' := by
        intro call _ phase w w' h hmove hlists
        have hearlier : InsertsListed w.log :=
          fun tx before hmem => hlists tx before (hmove.log_suffix.subset hmem)
        exact (h hearlier).move hmove hlists
      apply runCalls_induction hmove
      · intro _
        exact List.nodup_nil
      · intro _
        refine ⟨?_, ?_, ?_, throughout_nil⟩
        · rintro s (rfl | ⟨after, hwrote⟩) txid tx hget
          · cases hget
          · cases hwrote
        · intro txid tx hget
          cases hget
        · intro txid txid' tx tx' hget
          cases hget
    exact ⟨(hkept hlists).entries, fun _ _ _ _ => tickSplit_tick _⟩

/-- A second parent of the example runs. -/
def secondParent : Transaction := ⟨2, [⟨⟨51, 0⟩⟩], [⟨1000⟩, ⟨1000⟩], 150, 600⟩

/-- The output of the second parent that a speedup spends. -/
def secondAnchor : SpeedupData := ⟨some ⟨2, 1, 1000, 7⟩, none⟩

/-- A second funding UTXO of the example runs. -/
def secondFunding : Utxo := ⟨10, 0, 1000000, 7⟩

/-- A node that holds the outputs of two parents and two funding UTXOs unspent. -/
def pairView (height : BlockHeight) (mempool relays : List Transaction) : NodeView :=
  ⟨height, [], mempool, [⟨50, 0⟩, ⟨51, 0⟩, ⟨9, 0⟩, ⟨10, 0⟩], relays⟩

/-- The backend refuses the answer to one question of a call. -/
def Call.refusing (call : Call) (n : ℕ) : Call :=
  { call with answers := { call.answers with
      storage := fun m => if m = n then .error "disk full" else .ok () } }

/-- A tick that sends a parent stops between the two writes that store and list the CPFP of the parent; the
tick after sends another parent. -/
def unlistedCalls : List Call :=
  let first := pairView 100 [] [sampleParent]
  let later := pairView 100 [sampleParent] [secondParent]
  [first.call fixedBuilder 10 0 (.addFunding sampleFunding),
    first.call fixedBuilder 10 0 (.addFunding secondFunding),
    first.call fixedBuilder 10 0 (.dispatchWithSpeedup sampleParent sampleAnchor "parent" none none),
    (first.call fixedBuilder 10 0 .tick).refusing 29,
    later.call fixedBuilder 10 0 (.dispatchWithSpeedup secondParent secondAnchor "second" none none),
    later.call fixedBuilder 10 0 .tick]

/-- Two speedups wait for their first dispatch, one of which is not listed. -/
theorem exists_two_fresh :
    ∃ (cfg : BitcoinSettings) (calls : List Call), cfg.validate = .ok () ∧
      ¬ (runCalls cfg calls World.init).store.OneFresh ∧ ¬ BuildSplit cfg calls := by
  obtain ⟨tx, htx, tx', htx', hfresh, hfresh', hne⟩ :
      ∃ tx ∈ (runCalls defaultSettings unlistedCalls World.init).store.txs.values,
        ∃ tx' ∈ (runCalls defaultSettings unlistedCalls World.init).store.txs.values,
          ((tx.speedup?.isSome ∧ tx.state = .toDispatch) ∧ tx.broadcastBlockHeight = none) ∧
          ((tx'.speedup?.isSome ∧ tx'.state = .toDispatch) ∧ tx'.broadcastBlockHeight = none) ∧
          tx.txid ≠ tx'.txid := by decide +kernel
  have htwo : ¬ (runCalls defaultSettings unlistedCalls World.init).store.OneFresh :=
    fun hone => hne (hone _ _ tx tx' (Store.mem_values.mp htx) (Store.mem_values.mp htx') hfresh hfresh')
  refine ⟨defaultSettings, unlistedCalls, BitcoinSettings.validate_default _, htwo, ?_⟩
  intro hsplit
  obtain ⟨p, hp, old, hold, hwaiting, hout⟩ :
      ∃ p ∈ insertions (runCalls defaultSettings unlistedCalls World.init).log,
        ∃ old ∈ p.2.1.txs.values, (old.speedup?.isSome ∧ old.state = .toDispatch) ∧
          old.txid ∉ p.2.1.speedupList := by decide +kernel
  have hlists := insertsListed_of_throughout hsplit.entries p.1 p.2.1 (mem_of_mem_insertions hp)
  exact hout (hlists _ old (Store.mem_values.mp hold) hwaiting)

end BitcoinCoordinator
