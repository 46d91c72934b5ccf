import BitcoinCoordinator.BuildSplit

/-!
# Cancelling only what was never sent

A cancel request looks at the state of a record only, and a transaction waits for dispatch both before
it is first sent and after it vanished. As long as no vanished transaction is cancelled, and none is
registered again under a live speedup that accelerates it, what cancel drops was never in the node and no
live speedup accelerates it.
-/

namespace BitcoinCoordinator

open Foundation

/-- A client transaction that waits for its first dispatch. -/
structure CoordinatedTx.IsUnsent (tx : CoordinatedTx) : Prop where
  client : tx.speedup? = none
  state : tx.state = .toDispatch
  broadcast : tx.broadcastBlockHeight = none

/-- A speedup that has not failed accelerates the transaction. -/
def Store.Accelerates (s : Store) (txid : Txid) : Prop :=
  ∃ id tx kind, s.txs.get id = some tx ∧ tx.state ≠ .failed ∧ tx.speedup? = some kind ∧
    txid ∈ kind.parents

/-- Every record dropped by a cancel request was never in the node, and no speedup that has not failed
accelerates it. -/
def CancelsUnsent (log : List Event) : Prop :=
  ∀ txids s, .cancelling txids s ∈ log → ∀ txid ∈ txids, ∀ tx, s.txs.get txid = some tx →
    tx.broadcastBlockHeight = none ∧ ¬ s.Accelerates txid

/-- No record dropped by a cancel request was put back in dispatch by a review: it has no guard. -/
def CancelsUnguarded (log : List Event) : Prop :=
  ∀ txids s, .cancelling txids s ∈ log → ∀ txid ∈ txids, ∀ tx, s.txs.get txid = some tx →
    tx.failGuardUntil = none

/-- No transaction is registered while a speedup that has not failed accelerates it. -/
def RegistersUnaccelerated (log : List Event) : Prop :=
  ∀ tx s, .registering tx s ∈ log → ¬ s.Accelerates tx.txid

/-- What waits for dispatch after it was in the node has a guard. -/
def CoordinatedTx.GuardSound (tx : CoordinatedTx) : Prop :=
  tx.MetadataSound ∧
    (tx.state = .toDispatch → tx.broadcastBlockHeight.isSome → tx.failGuardUntil.isSome)

variable {ctx : Ctx} {tidy : Prop} {phase : Phase} {w w' : World}

/-! ### Guards of what was in the node -/

/-- Every record a move puts is sound when those of the versions before are. -/
theorem Put.guardSound {log : List Event} {tx : CoordinatedTx}
    (hsound : EveryRecord CoordinatedTx.GuardSound w) (h : Put ctx True w log phase tx) :
    tx.GuardSound := by
  have hmetadata : EveryRecord CoordinatedTx.MetadataSound w :=
    fun s hversion txid tx hget => (hsound s hversion txid tx hget).1
  refine ⟨h.metadataSound hmetadata, fun hstate hbroadcast => ?_⟩
  cases h with
  | changed old tx' hget hchange =>
    have hguard := (hsound.current hget).2
    cases hchange with
    | advance state hstep hmoved hfrom =>
      change state = .toDispatch at hstate
      rcases hmoved with rfl | rfl <;> cases hstate
    | finalize height hstep hfrom => cases hstate
    | fail height hstep => cases hstate
    | retry hstep hfrom hcause => exact hguard (hfrom trivial) hbroadcast
    | mark phase kind mark hkind => exact hguard hstate hbroadcast
    | atCap maxFeerate => exact hguard hstate hbroadcast
  | vanished old height hget hstep hfrom => rfl
  | rewrote copy updated hrewrite hread hdrift hnote => exact absurd hstate hrewrite.state_ne
  | inserted tx htx hnote =>
    rw [htx.isNew.broadcast] at hbroadcast
    cases hbroadcast
  | registered tx hfresh hkind hnew hnote =>
    rw [hnew.broadcast] at hbroadcast
    cases hbroadcast

/-- In every version of a run what waits for dispatch after it was in the node has a guard. -/
theorem guardSound_runCalls (cfg : BitcoinSettings) (calls : List Call) :
    EveryRecord CoordinatedTx.GuardSound (runCalls cfg calls World.init) :=
  everyRecord_runCalls cfg calls fun _ _ _ _ _ hsound hput => hput.guardSound hsound

/-! ### Unsent transactions are not accelerated -/

/-- No unsent transaction was accelerated by a live speedup in a version since the last registration. -/
def UnsentUnaccelerated (w : World) : Prop :=
  ∀ txid tx, w.store.txs.get txid = some tx → tx.IsUnsent → ∀ s, w.HasRecent s →
    ¬ s.Accelerates txid

/-- A changed speedup keeps its parents. -/
theorem Change.parents_eq {log : List Event} {tx tx' : CoordinatedTx} {kind' : SpeedupKind}
    (h : Change tidy log tx phase tx') (hkind : tx'.speedup? = some kind') :
    ∃ kind, tx.speedup? = some kind ∧ kind.parents = kind'.parents := by
  cases h with
  | mark phase kind mark hold =>
    refine ⟨kind, by simp [CoordinatedTx.speedup?, hold], ?_⟩
    cases hkind
    simp
  | _ => exact ⟨kind', hkind, rfl⟩

/-- A changed record that waits did so before. -/
theorem Change.waited {log : List Event} {tx tx' : CoordinatedTx} (h : Change True log tx phase tx')
    (hstate : tx'.state = .toDispatch) : tx.state = .toDispatch := by
  cases h with
  | advance state hstep hmoved hfrom =>
    change state = .toDispatch at hstate
    rcases hmoved with rfl | rfl <;> cases hstate
  | finalize height hstep hfrom => cases hstate
  | fail height hstep => cases hstate
  | retry hstep hfrom hcause => exact hfrom trivial
  | mark phase kind mark hkind => exact hstate
  | atCap maxFeerate => exact hstate

/-- A record that waits for its first dispatch after a move did so before, or was just registered. -/
theorem Put.unsent {log : List Event} {tx : CoordinatedTx} (h : Put ctx True w log phase tx)
    (hsound : EveryRecord CoordinatedTx.MetadataSound w) (hunsent : tx.IsUnsent) :
    (∃ old, w.store.txs.get tx.txid = some old ∧ old.IsUnsent) ∨
      w.store.txs.get tx.txid = none ∧ w.log.head? = some (.registering tx w.store) := by
  obtain ⟨hclient, hstate, hbroadcast⟩ := hunsent
  cases h with
  | changed old tx' hget hchange =>
    left
    refine ⟨old, by rw [hchange.txid_eq]; exact hget, ?_, hchange.waited hstate,
      hchange.broadcast_eq.symm.trans hbroadcast⟩
    have hnone := hchange.speedup_isSome_eq
    rw [hclient] at hnone
    exact Option.isNone_iff_eq_none.mp (by simpa using hnone.symm)
  | vanished old height hget hstep hfrom =>
    have hflight := ((hsound.current hget).inFlight (hfrom trivial)).2.2
    change old.broadcastBlockHeight = none at hbroadcast
    rw [hbroadcast] at hflight
    cases hflight
  | rewrote copy updated hrewrite hread hdrift hnote => exact absurd hstate hrewrite.state_ne
  | inserted tx htx hnote =>
    obtain ⟨kind, hkind, -⟩ := htx.funded
    rw [hkind] at hclient
    cases hclient
  | registered tx hfresh hkind hnew hnote => exact Or.inr ⟨hfresh, hnote⟩

/-- A transaction accelerated after a move was accelerated in a recent version before, or is in the
mempool or on chain. -/
theorem Put.accelerates {log : List Event} {txid : Txid} {tx : CoordinatedTx} {kind : SpeedupKind}
    (h : Put ctx True w log phase tx) (hlive : tx.state ≠ .failed) (hkind : tx.speedup? = some kind)
    (hparent : txid ∈ kind.parents) : (∃ s, w.HasRecent s ∧ s.Accelerates txid) ∨
      Holds (fun parent => parent.state.isOnChainSide) (w.store.txs.get txid) := by
  cases h with
  | changed old tx' hget hchange =>
    left
    obtain ⟨kind', hkind', hparents⟩ := hchange.parents_eq hkind
    refine ⟨w.store, Or.inl rfl, old.txid, old, kind', hget, ?_, hkind', by rw [hparents]; exact hparent⟩
    intro hfailed
    have hsame := TransactionState.canTransitionTo_of_isTerminal (by rw [hfailed]; rfl)
      hchange.canTransitionTo
    exact hlive (hsame.symm.trans hfailed)
  | vanished old height hget hstep hfrom =>
    left
    refine ⟨w.store, Or.inl rfl, old.txid, old, kind, hget, ?_, hkind, hparent⟩
    intro hfailed
    have hflight := hfrom trivial
    simp [CoordinatedTx.isInFlight, hfailed] at hflight
  | rewrote copy updated hrewrite hread hdrift hnote =>
    left
    obtain ⟨s, hrecent, hget⟩ := hread
    have hcopy : copy.state ≠ .failed ∧ copy.speedup? = some kind := by
      cases hrewrite with
      | reorg height hstate => exact ⟨by simp [hstate], hkind⟩
      | accepted height feeInfo hstate => exact ⟨by simp [hstate], hkind⟩
      | confirmed height hstate => exact ⟨by simp [hstate], hkind⟩
    exact ⟨s, hrecent, copy.txid, copy, kind, hget, hcopy.1, hcopy.2, hparent⟩
  | inserted tx htx hnote => exact Or.inr (htx.covers kind hkind txid hparent)
  | registered tx hfresh hclient hnew hnote =>
    rw [hclient] at hkind
    cases hkind

/-- Every move keeps unsent transactions out of the speedups, when none is registered while a live one
accelerates it. -/
theorem UnsentUnaccelerated.move (h : UnsentUnaccelerated w)
    (hsound : EveryRecord CoordinatedTx.MetadataSound w) (hmove : Move ctx True phase w w')
    (hregisters : RegistersUnaccelerated w.log) : UnsentUnaccelerated w' := by
  intro txid tx hget hunsent s hrecent hacc
  have horigin : (∃ old, w.store.txs.get txid = some old ∧ old.IsUnsent) ∨
      w.store.txs.get txid = none ∧ w.log.head? = some (.registering tx w.store) := by
    rcases hmove.records hget with hold | ⟨hput, -, -⟩
    · exact Or.inl ⟨tx, hold, hunsent⟩
    · rw [← w'.store.keyed _ _ hget]
      exact hput.unsent hsound hunsent
  have hnone : ∀ s, w.HasRecent s → ¬ s.Accelerates txid := by
    rcases horigin with ⟨old, hold, hunsentOld⟩ | ⟨-, hhead⟩
    · exact h txid old hold hunsentOld
    · obtain ⟨older, hlog⟩ := List.head?_eq_some_iff.mp hhead
      intro s hs
      have hcurrent : s = w.store := by
        rcases hs with rfl | hmem
        · rfl
        · rw [hlog] at hmem
          cases hmem
      rw [hcurrent, ← w'.store.keyed _ _ hget]
      exact hregisters tx w.store (List.mem_of_mem_head? hhead)
  rcases hmove.hasRecent hrecent with rfl | hold
  · obtain ⟨id, speedup, kind, hspeedup, hlive, hkind, hparent⟩ := hacc
    rcases hmove.records hspeedup with hold | ⟨hput, -, -⟩
    · exact hnone w.store (Or.inl rfl) ⟨id, speedup, kind, hold, hlive, hkind, hparent⟩
    · rcases hput.accelerates hlive hkind hparent with ⟨s, hs, hacc⟩ | ⟨parent, hparent', hside⟩
      · exact hnone s hs hacc
      · rcases horigin with ⟨old, hold, hunsentOld⟩ | ⟨hfresh, -⟩
        · rw [hold] at hparent'
          cases hparent'
          rw [hunsentOld.state] at hside
          cases hside
        · rw [hfresh] at hparent'
          cases hparent'
  · exact hnone s hold hacc

/-! ### Runs -/

/-- What a cancel request says about the records it drops. -/
def CancelEntry : Event → List Event → Prop
  | .cancelling txids s, _ => ∀ txid ∈ txids, ∀ tx, s.txs.get txid = some tx →
      tx.failGuardUntil = none → tx.broadcastBlockHeight = none ∧ ¬ s.Accelerates txid
  | _, _ => True

/-- What holds of a history about cancel requests. -/
structure Cancelling (w : World) : Prop where
  sound : EveryRecord CoordinatedTx.GuardSound w
  unaccelerated : UnsentUnaccelerated w
  entries : Throughout CancelEntry w.log

/-- Every move keeps what cancel requests say. -/
theorem Cancelling.move (h : Cancelling w) (hmove : Move ctx True phase w w')
    (hregisters : RegistersUnaccelerated w.log) : Cancelling w' := by
  have hmetadata : EveryRecord CoordinatedTx.MetadataSound w :=
    fun s hversion txid tx hget => (h.sound s hversion txid tx hget).1
  refine ⟨h.sound.move hmove fun tx hput => hput.guardSound h.sound,
    h.unaccelerated.move hmetadata hmove hregisters, ?_⟩
  have hwrote : ∀ s, Throughout CancelEntry (w.written s).log :=
    fun s => throughout_cons.mpr ⟨trivial, h.entries⟩
  rcases hmove with hplain | hpart
  · cases hplain with
    | quiet hquiet =>
      apply hquiet.throughout h.entries
      · intro e older hremark
        cases e <;> trivial
      · trivial
    | changed => exact hwrote _
    | vanished | rewrote => exact throughout_cons.mpr ⟨trivial, hwrote _⟩
    | cancelling txids hcancel =>
      refine throughout_cons.mpr ⟨?_, h.entries⟩
      intro txid hmem tx hget hguard
      obtain ⟨hstate, hclient⟩ := hcancel txid hmem tx hget
      have hbroadcast : tx.broadcastBlockHeight = none := by
        by_contra hsome
        have hguarded := (h.sound.current hget).2 hstate (Option.isSome_iff_ne_none.mpr hsome)
        rw [hguard] at hguarded
        cases hguarded
      exact ⟨hbroadcast, h.unaccelerated txid tx hget ⟨hclient, hstate, hbroadcast⟩ w.store
        (Or.inl rfl)⟩
    | _ => exact throughout_cons.mpr ⟨trivial, h.entries⟩
  · cases hpart with
    | inserted => exact throughout_cons.mpr ⟨trivial, hwrote _⟩
    | _ => exact hwrote _

/-- In every run, whatever the calls are answered and wherever they stop: cancel drops only transactions
that were never in the node and that no live speedup accelerates, provided that no cancelled record was
put back in dispatch by a review and none was registered while a live speedup accelerated it. -/
theorem cancelsUnsent_runCalls (cfg : BitcoinSettings) (calls : List Call)
    (hcancels : CancelsUnguarded (runCalls cfg calls World.init).log)
    (hregisters : RegistersUnaccelerated (runCalls cfg calls World.init).log) :
    CancelsUnsent (runCalls cfg calls World.init).log := by
  have hkept : RegistersUnaccelerated (runCalls cfg calls World.init).log →
      Cancelling (runCalls cfg calls World.init) := by
    have hmove : ∀ call ∈ calls, ∀ phase w w', (RegistersUnaccelerated w.log → Cancelling w) →
        Move ⟨cfg, call.answers⟩ True phase w w' → RegistersUnaccelerated w'.log → Cancelling w' := by
      intro call _ phase w w' h hmove hregisters
      have hearlier : RegistersUnaccelerated w.log :=
        fun tx s hmem => hregisters tx s (hmove.log_suffix.subset hmem)
      exact (h hearlier).move hmove hearlier
    apply runCalls_induction hmove
    · intro _
      exact List.nodup_nil
    · intro _
      refine ⟨?_, ?_, throughout_nil⟩
      · rintro s (rfl | ⟨after, hwrote⟩) txid tx hget
        · cases hget
        · cases hwrote
      · intro txid tx hget
        cases hget
  intro txids s hmem txid htxid tx hget
  obtain ⟨newer, older, hlog⟩ := List.append_of_mem hmem
  have hentries := (hkept hregisters).entries
  rw [hlog] at hentries
  exact hentries.entry txid htxid tx hget (hcancels txids s hmem txid htxid tx hget)

/-- The cancel request an entry tells of, with the store at that moment. -/
def Event.cancelling? : Event → Option (List Txid × Store)
  | .cancelling txids s => some (txids, s)
  | _ => none

/-- The registration an entry tells of, with the store at that moment. -/
def Event.registering? : Event → Option (CoordinatedTx × Store)
  | .registering tx s => some (tx, s)
  | _ => none

/-- The request that cancels the example parent. -/
def cancelParent : Request := .cancel (.transactions [sampleParent.computeTxid] "parent" none)

/-- A parent is registered and cancelled before it is sent. -/
def cancelledEarlyCalls : List Call :=
  let first := sampleView 100 [] [sampleParent]
  [first.call fixedBuilder 10 0 (.dispatchWithSpeedup sampleParent sampleAnchor "parent" none none),
    first.call fixedBuilder 10 0 cancelParent]

/-- The parent cancelled in an example run was never sent. -/
theorem cancelsUnsent_cancelledEarlyCalls :
    (∃ p ∈ (runCalls defaultSettings cancelledEarlyCalls World.init).log.filterMap Event.cancelling?,
        sampleParent.computeTxid ∈ p.1) ∧
      CancelsUnsent (runCalls defaultSettings cancelledEarlyCalls World.init).log := by
  refine ⟨by decide +kernel, cancelsUnsent_runCalls defaultSettings cancelledEarlyCalls ?_ ?_⟩
  · have hall : ∀ p ∈ (runCalls defaultSettings cancelledEarlyCalls World.init).log.filterMap
        Event.cancelling?, ∀ txid ∈ p.1, ∀ tx ∈ p.2.txs.get txid, tx.failGuardUntil = none := by
      decide +kernel
    intro txids s hmem
    exact hall (txids, s) (List.mem_filterMap.mpr ⟨_, hmem, rfl⟩)
  · have hall : ∀ p ∈ (runCalls defaultSettings cancelledEarlyCalls World.init).log.filterMap
        Event.registering?, p.2.txs.values = [] := by decide +kernel
    intro tx s hmem hacc
    obtain ⟨id, speedup, kind, hget, -⟩ := hacc
    have hvalue : speedup ∈ s.txs.values := Table.mem_values.mpr ⟨id, hget⟩
    rw [hall (tx, s) (List.mem_filterMap.mpr ⟨_, hmem, rfl⟩)] at hvalue
    cases hvalue

/-- A parent and its CPFP are accepted and then vanish; the parent is cancelled. -/
def cancelledLateCalls : List Call :=
  let first := sampleView 100 [] [sampleParent]
  [first.call fixedBuilder 10 0 (.addFunding sampleFunding),
    first.call fixedBuilder 10 0 (.dispatchWithSpeedup sampleParent sampleAnchor "parent" none none),
    first.call fixedBuilder 10 0 .tick,
    (sampleView 100 [sampleParent] [replacedCpfp]).call fixedBuilder 10 0 .tick,
    (sampleView 101 [] []).call fixedBuilder 10 0 .tick,
    (sampleView 101 [] []).call fixedBuilder 10 0 cancelParent]

/-- A cancel request drops a parent that was in the node and that a live CPFP accelerates. -/
theorem exists_cancelled_after_broadcast :
    ∃ (cfg : BitcoinSettings) (calls : List Call), cfg.validate = .ok () ∧
      (∀ call ∈ calls, call.SeesOneView ∧ call.answers.SpendsRequested) ∧
      OkRun cfg calls World.init (runCalls cfg calls World.init) ∧
      ∃ txids s, .cancelling txids s ∈ (runCalls cfg calls World.init).log ∧
        ∃ txid ∈ txids, ∃ tx, s.txs.get txid = some tx ∧ tx.broadcastBlockHeight.isSome ∧
          s.Accelerates txid ∧ (runCalls cfg calls World.init).store.txs.get txid = none := by
  obtain ⟨p, hp, txid, htxid, tx, hget, hbroadcast, speedup, hspeedup, hlive, kind, hkind, hparent,
      hgone⟩ : ∃ p ∈ (runCalls defaultSettings cancelledLateCalls World.init).log.filterMap
        Event.cancelling?, ∃ txid ∈ p.1, ∃ tx ∈ p.2.txs.get txid, tx.broadcastBlockHeight.isSome ∧
          ∃ speedup ∈ p.2.txs.values, speedup.state ≠ .failed ∧ ∃ kind ∈ speedup.speedup?,
            txid ∈ kind.parents ∧
            (runCalls defaultSettings cancelledLateCalls World.init).store.txs.get txid = none := by
    decide +kernel
  obtain ⟨e, he, heq⟩ := List.mem_filterMap.mp hp
  have hcancelling : .cancelling p.1 p.2 ∈ (runCalls defaultSettings cancelledLateCalls World.init).log := by
    cases e <;> cases heq
    exact he
  refine ⟨defaultSettings, cancelledLateCalls, BitcoinSettings.validate_default _, ?_,
    okRun_runCalls (by decide +kernel), p.1, p.2, hcancelling, txid, htxid, tx, hget, hbroadcast, ?_,
    hgone⟩
  · intro call hcall
    simp only [cancelledLateCalls, List.mem_cons, List.not_mem_nil, or_false] at hcall
    rcases hcall with rfl | rfl | rfl | rfl | rfl | rfl <;>
      exact ⟨NodeView.call_seesOneView (by decide +kernel) _ _ _ _, plainBuilder_spendsRequested _ _ _ _⟩
  · exact ⟨_, speedup, kind, Store.mem_values.mp hspeedup, hlive, hkind, hparent⟩

end BitcoinCoordinator
