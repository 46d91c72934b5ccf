import BitcoinCoordinator.BuiltSpeedups
import BitcoinCoordinator.Rosters

/-!
# What settling does to the roster

The steps of a tick that build nothing let the roster follow the one they began with. A speedup that is handled
was read while it waited, so that it may mark the one it replaces, and unmark it once it has failed.
-/

namespace BitcoinCoordinator

open Foundation

variable {ctx : Ctx} {w w' : World} {m₀ : Roster Txid} {G : Roster Txid → Prop}

/-! ### Lifecycle writes -/

/-- A program that writes at most once, neither a record nor the speedup list, changes nothing. -/
theorem oneWrite_rostered {f : Store → Store} {m : Coord Unit} (h : ∀ w, OneWrite f w (m ctx w))
    (htxs : ∀ s, (f s).txs = s.txs) (hlist : ∀ s, (f s).speedupList = s.speedupList) :
    Prog.Keeps (Rostered G) m ctx :=
  OneWrite.keeps h (fun _ hw => hw.asked) fun w hw =>
    hw.same (List.suffix_cons _ _) (htxs w.store) (hlist w.store)

/-- A sequence keeps the property when its first part does, and its second part from where that completed. -/
theorem rostered_bind {α β : Type} {m : Coord α} {k : α → Coord β} (h : Rostered G (m ctx w).2)
    (hk : ∀ a w₁, Rostered G w₁ → m ctx w = (.ok a, w₁) → Rostered G (k a ctx w₁).2) :
    Rostered G ((m >>= k) ctx w).2 :=
  Prog.Ends.bind (R := fun _ w₁ => Rostered G w₁) (Q := fun _ w₁ => Rostered G w₁) h
    (fun _ _ hend => hend) hk

/-- A conditional keeps the property when both branches do. -/
theorem rostered_ite {α : Type} {c : Prop} [Decidable c] {m n : Coord α}
    (hm : c → Rostered G (m ctx w).2) (hn : ¬ c → Rostered G (n ctx w).2) :
    Rostered G ((if c then m else n) ctx w).2 := by
  by_cases hc : c
  · rw [if_pos hc]
    exact hm hc
  · rw [if_neg hc]
    exact hn hc

/-- Reading the store hands on what is there. -/
theorem rostered_read {α β : Type} {f : Store → α} {k : α → Coord β}
    (h : Rostered G (k (f w.store) ctx w).2) : Rostered G ((readStore f >>= k) ctx w).2 := h

/-- Looking a record up hands on what is there. -/
theorem rostered_found {α : Type} {id : Txid} {k : Option CoordinatedTx → Coord α}
    (hnone : Rostered G (k none ctx w).2)
    (hsome : ∀ tx, w.store.txs.get id = some tx → Rostered G (k (some tx) ctx w).2) :
    Rostered G ((getTxById id >>= k) ctx w).2 := by
  apply rostered_read
  cases hget : w.store.txs.get id with
  | none => exact hnone
  | some tx => exact hsome tx hget

/-- A lifecycle step keeps the property when the roster in which the member came to its stage has it. -/
theorem updateTxStateImpl_rostered {id : Txid} {state : TransactionState} {height : Option BlockHeight}
    (h : Rostered G w)
    (hG : ∀ tx a, w.store.txs.get id = some tx → tx.state.canTransitionTo state →
      (tx.state = .confirmed → state ≠ .inMempool ∧ state ≠ .toDispatch) → G w.store.roster →
      w.store.roster id = some a → a.stage = tx.state.stage →
      G (w.store.roster.set id { a with stage := state.stage })) :
    Rostered G (updateTxStateImpl id state height ctx w).2 := by
  have hpublish : ∀ news, Rostered G ((do let _ ← addNews news; pure () : Coord Unit) ctx w).2 :=
    fun news => rostered_calm (fun _ => publish_calm news) w h
  unfold updateTxStateImpl
  split
  · exact h
  apply rostered_found (hpublish _)
  intro tx hget
  have hid : tx.txid = id := w.store.keyed id tx hget
  dsimp only
  split
  · next hstep =>
    apply writeStore_rostered h
    subst hid
    refine h.putState hget rfl rfl (TransactionState.isActive_of_canTransitionTo hstep) ?_
    intro a hstays hroster hmember hstage
    exact hG tx a hget hstep hstays hroster hmember hstage
  · exact hpublish _

/-- A property of rosters that the failure of a member keeps. -/
def FailStable (G : Roster Txid → Prop) : Prop :=
  ∀ m k a, G m → m k = some a → G (m.set k { a with stage := .failed })

/-- Settling a transaction as failed. -/
theorem settleFailed_rostered (hG : FailStable G) (id : Txid) (height : BlockHeight) :
    Prog.Keeps (Rostered G) (settleTx id .failed height) ctx := by
  apply Prog.Keeps.ite <;> intro _
  · intro w hw
    apply updateTxStateImpl_rostered hw
    intro tx a _ _ _ hroster hmember _
    exact hG _ id a hroster hmember
  · exact Prog.Keeps.stop _

/-- Putting a record back to dispatch keeps the property when the roster in which the member waits has it. -/
theorem requeueWith_rostered {id : Txid} {write : CoordinatedTx → Coord Unit} (h : Rostered G w)
    (hwrite : ∀ tx, w.store.txs.get id = some tx → tx.state.canTransitionTo .toDispatch →
      Rostered G (write { tx with state := .toDispatch } ctx w).2) :
    Rostered G (requeueWith id write ctx w).2 := by
  have hpublish : ∀ news, Rostered G ((do let _ ← addNews news; pure () : Coord Unit) ctx w).2 :=
    fun news => rostered_calm (fun _ => publish_calm news) w h
  apply rostered_found (hpublish _)
  intro tx hget
  dsimp only
  split
  · next hstep => exact hwrite tx hget hstep
  · exact hpublish _

/-! ### Failure -/

/-- An untracked record, or one that may settle as failed. -/
def CanFail (record : Option CoordinatedTx) : Prop :=
  ∀ tx, record = some tx → tx.state.canTransitionTo .failed

/-- An untracked record, or one that has failed. -/
def HasFailed (record : Option CoordinatedTx) : Prop := ∀ tx, record = some tx → tx.state = .failed

/-- What may fail may still fail after other transactions were handled. -/
theorem driftStable_canFail : DriftStable CanFail where
  mark := by
    intro tx kind mark h _ tx' heq
    cases heq
    exact h tx rfl
  fail := by
    intro tx height _ _ tx' heq
    cases heq
    rfl

/-- What has failed stays so when other transactions are handled. -/
theorem driftStable_hasFailed : DriftStable HasFailed where
  mark := by
    intro tx kind mark h _ tx' heq
    cases heq
    exact h tx rfl
  fail := by
    intro tx height _ _ tx' heq
    cases heq
    rfl

/-- A completed settlement as failed has failed what may fail. -/
theorem settleFailed_hasFailed {id : Txid} {height : BlockHeight} {u : Unit} (h : RecordAt id CanFail w)
    (hrun : settleTx id .failed height ctx w = (.ok u, w')) : RecordAt id HasFailed w' := by
  intro tx htx
  cases hget : w.store.txs.get id with
  | none =>
    obtain ⟨found, w₁, hread, hbody⟩ := Prog.bind_ok.mp hrun
    obtain ⟨rfl, rfl⟩ := readStore_ok.mp hread
    rw [hget] at hbody
    rw [calm_txs (publish_calm _) hbody, hget] at htx
    cases htx
  | some old =>
    rw [settleFailed_ok hget (h old hget) hrun] at htx
    cases htx
    rfl

/-- A transaction that challenges what it replaces. -/
def Challenger (m₀ : Roster Txid) (tx : CoordinatedTx) : Prop :=
  ∀ replaces, tx.replaces? = some replaces → m₀.Challenges tx.txid replaces

/-- A roster that settles to another one of which something is known. -/
def Settling (m₀ : Roster Txid) (P : Prop) (m : Roster Txid) : Prop := m₀.Settles m ∧ P

variable {P : Prop}

/-- A settling roster stays so when a member fails. -/
theorem failStable_settling : FailStable (Settling m₀ P) := by
  rintro m k a ⟨h, hP⟩ hget
  exact ⟨h.set (h.follows.fail hget) (fun hwaiting => by cases hwaiting), hP⟩

/-- A listed speedup that waits for dispatch is a challenger. -/
theorem challenger_of_get {s : Store} {tx : CoordinatedTx} (h : m₀.Settles s.roster)
    (hget : s.txs.get tx.txid = some tx) (hlisted : tx.txid ∈ s.speedupList)
    (hstate : tx.state = .toDispatch) : Challenger m₀ tx := by
  intro replaces hreplaces
  apply h.challenges
  cases hspeedup : tx.speedup? with
  | none =>
    unfold CoordinatedTx.replaces? at hreplaces
    unfold CoordinatedTx.speedup? at hspeedup
    cases hkind : tx.kind <;> simp_all
  | some kind =>
    refine ⟨_, (Store.roster_of_get hget hlisted).trans (CoordinatedTx.member?_of_speedup? hspeedup), ?_,
      hreplaces⟩
    rw [hstate]
    rfl

/-- Setting the replacement mark of a tracked record. -/
theorem updateReplacedBy_rostered {id : Txid} {tx updated : CoordinatedTx} {mark : Option Txid}
    (h : Rostered G w) (hget : w.store.txs.get id = some tx)
    (hupdated : tx.modifyContext (fun c => { c with replacedBy := mark }) = .ok updated)
    (hG : ∀ a, G w.store.roster → w.store.roster id = some a →
      G (w.store.roster.set id { a with marked := mark.isSome })) :
    Rostered G (updateTx updated ctx w).2 := by
  obtain ⟨kind, hkind, rfl⟩ := CoordinatedTx.modifyContext_ok hupdated
  have hid : tx.txid = id := w.store.keyed _ _ hget
  subst hid
  exact writeStore_rostered h (h.putMark hget hkind mark hG)

/-- Unmasking what a failed challenger replaces. -/
theorem unmaskPredecessor_rostered {tx : CoordinatedTx} {replaces : Txid} (h : Rostered (Settling m₀ P) w)
    (hP : P → m₀.Sound ∧ m₀.Challenges tx.txid replaces) (hfailed : RecordAt tx.txid HasFailed w) :
    Rostered (Settling m₀ P) (unmaskPredecessor replaces ctx w).2 := by
  apply rostered_found h
  intro replaced hget
  dsimp only
  generalize hupdated : replaced.modifyContext _ = result
  cases result with
  | error e => exact h
  | ok updated =>
    apply updateReplacedBy_rostered h hget hupdated
    rintro a ⟨hsettles, hp⟩ hmember
    obtain ⟨hs, hr⟩ := hP hp
    have hdown : ¬ w.store.roster.Replacing tx.txid replaces := by
      rintro ⟨b, hb, hlive, -⟩
      obtain ⟨-, cur, hcur, hcurrent⟩ := Store.roster_eq_some.mp hb
      obtain ⟨_, _, rfl⟩ := CoordinatedTx.of_member? hcurrent
      exact hlive (TransactionState.stage_eq_failed.mpr (hfailed cur hcur))
    refine ⟨hsettles.set (hsettles.follows.unmark hs hmember hr hdown) ?_, hp⟩
    intro hwaiting
    exact hsettles.waits _ ⟨a, hmember, hwaiting⟩

/-- Two properties that are kept are kept together. -/
theorem keeps_and {α : Type} {I J : World → Prop} {m : Coord α} (hI : Prog.Keeps I m ctx)
    (hJ : Prog.Keeps J m ctx) : Prog.Keeps (fun w => I w ∧ J w) m ctx :=
  fun w hw => ⟨hI w hw.1, hJ w hw.2⟩

/-- Giving back what a failed speedup reserved. -/
theorem releaseFailed_rostered {tx : CoordinatedTx} (hP : P → m₀.Sound ∧ Challenger m₀ tx) :
    Prog.Keeps (fun w => Rostered (Settling m₀ P) w ∧ RecordAt tx.txid HasFailed w) (releaseFailed tx)
      ctx := by
  have hmarks : ∀ utxos, Prog.Keeps (fun w => Rostered (Settling m₀ P) w ∧ RecordAt tx.txid HasFailed w)
      (releaseMarks utxos) ctx :=
    releaseMarks_keeps fun op spent =>
      keeps_and (setSpent_rostered op spent) (setSpent_keeps driftStable_hasFailed.mark op spent)
  unfold releaseFailed
  split
  · exact Prog.Keeps.seq (Prog.Keeps.ofExcept _) fun _ => hmarks _
  · next replaces newFundingInputs context hkind =>
    have hreplaces : tx.replaces? = some replaces := by
      unfold CoordinatedTx.replaces?
      rw [hkind]
    refine Prog.Keeps.seq (hmarks _) fun _ => ?_
    intro w hw
    refine ⟨unmaskPredecessor_rostered hw.1 (fun hp => ⟨(hP hp).1, (hP hp).2 replaces hreplaces⟩) hw.2, ?_⟩
    exact unmaskPredecessor_keeps driftStable_hasFailed.mark replaces w hw.2
  · exact Prog.Keeps.pure _

/-- Putting parents back on the pending list changes nothing. -/
theorem requeueProtocolParents_rostered (tx : CoordinatedTx) :
    Prog.Keeps (Rostered G) (requeueProtocolParents tx) ctx := by
  unfold requeueProtocolParents
  split
  · refine Prog.Keeps.seq (Prog.Keeps.read _) fun toPrepend => ?_
    exact oneWrite_rostered (fun _ => prependPendingSpeedupParents_oneWrite toPrepend) (fun _ => rfl)
      fun _ => rfl
  · exact Prog.Keeps.pure _

/-- Settling a challenger as failed. -/
theorem settleFailedDispatch_rostered {tx : CoordinatedTx} (hP : P → m₀.Sound ∧ Challenger m₀ tx)
    (height : BlockHeight) (fundingMissing : Bool) :
    Prog.Keeps (fun w => Rostered (Settling m₀ P) w ∧ RecordAt tx.txid CanFail w)
      (settleFailedDispatch tx height fundingMissing) ctx := by
  have hsettle : Prog.Keeps (Rostered (Settling m₀ P)) (settleTx tx.txid .failed height) ctx :=
    settleFailed_rostered failStable_settling _ _
  refine Prog.Keeps.bind (keeps_and hsettle (settleFailed_keeps driftStable_canFail _ _)) ?_
  rintro w _ w₁ ⟨hroster, hcan⟩ hrun
  have hafter : Prog.Keeps (fun w => Rostered (Settling m₀ P) w ∧ RecordAt tx.txid HasFailed w) (do
      let _ ← addNews (dispatchErrorNews tx tx.txid)
      releaseFailed tx
      if fundingMissing then requeueProtocolParents tx else pure ()) ctx := by
    refine Prog.Keeps.seq (keeps_and (rostered_calm fun _ => addNews_calm _)
      (keeps_of_calm fun _ => addNews_calm _)) fun _ => ?_
    refine Prog.Keeps.seq (releaseFailed_rostered hP) fun _ => ?_
    refine Prog.Keeps.ite (fun _ => ?_) fun _ => Prog.Keeps.pure _
    exact keeps_and (requeueProtocolParents_rostered tx) (requeueProtocolParents_keeps tx)
  obtain ⟨hroster', hfailed⟩ := hafter w₁ ⟨hsettle.run hroster hrun, settleFailed_hasFailed hcan hrun⟩
  refine ⟨hroster', fun cur hcur => ?_⟩
  rw [hfailed cur hcur]
  rfl

/-- The cascade. -/
theorem failAndCascadeWithin_rostered (depth : ℕ) {tx : CoordinatedTx} {P : Prop}
    (hP : P → m₀.Sound ∧ Challenger m₀ tx) (height : BlockHeight) (fundingMissing : Bool) :
    Prog.Keeps (fun w => Rostered (Settling m₀ P) w ∧ RecordAt tx.txid CanFail w)
      (failAndCascadeWithin depth tx height fundingMissing) ctx := by
  induction depth generalizing tx fundingMissing P with
  | zero => exact Prog.Keeps.stop _
  | succ depth ih =>
    refine Prog.Keeps.seq (settleFailedDispatch_rostered hP height fundingMissing) fun _ => ?_
    apply keeps_read
    rintro w ⟨hroster, hcan⟩
    refine ⟨?_, Prog.Keeps.forEach (fun d _ =>
      failAndCascadeWithin_keeps driftStable_canFail depth d height true) w hcan⟩
    -- What depends on the transaction waits for dispatch now, so it waited when the pass began.
    have hall : ∀ d ∈ w.store.dependants tx.txid, d.txid ∈ w.store.speedupList ∧
        w.store.txs.get d.txid = some d ∧ d.state = .toDispatch := by
      intro d hd
      obtain ⟨hordered, hwaits⟩ := List.mem_filter.mp hd
      obtain ⟨hlisted, hget⟩ := mem_speedupsOrdered hordered
      exact ⟨hlisted, hget, by simpa using (Bool.and_eq_true_iff.mp hwaits).1⟩
    have hknown : Rostered (Settling m₀ (P ∧ ∀ d ∈ w.store.dependants tx.txid, Challenger m₀ d)) w := by
      apply hroster.mono
      rintro ⟨hsettles, hp⟩
      refine ⟨hsettles, hp, fun d hd => ?_⟩
      obtain ⟨hlisted, hget, hstate⟩ := hall d hd
      exact challenger_of_get hsettles hget hlisted hstate
    have hloop : Rostered (Settling m₀ (P ∧ ∀ d ∈ w.store.dependants tx.txid, Challenger m₀ d))
        (Prog.forEach (w.store.dependants tx.txid) (fun d => failAndCascadeWithin depth d height true)
          ctx w).2 := by
      refine Prog.Keeps.forEach_inv (fun rest w₁ => rest ⊆ w.store.dependants tx.txid ∧
        ∀ d ∈ rest, RecordAt d.txid CanFail w₁) ?_ ?_ hknown ⟨List.Subset.refl _, ?_⟩
      · rintro d rest w₁ hroster₁ ⟨hsub, hrest⟩
        exact (ih (fun hp => ⟨(hP hp.1).1, hp.2 d (hsub List.mem_cons_self)⟩) true w₁
          ⟨hroster₁, hrest d List.mem_cons_self⟩).1
      · rintro d rest w₁ w₂ u ⟨hsub, hrest⟩ hrun
        refine ⟨fun later hlater => hsub (List.mem_cons_of_mem d hlater), fun later hlater => ?_⟩
        exact (failAndCascadeWithin_keeps driftStable_canFail depth d height true).run
          (hrest later (List.mem_cons_of_mem d hlater)) hrun
      · intro d hd cur hcur
        obtain ⟨-, hget, hstate⟩ := hall d hd
        rw [hget] at hcur
        cases hcur
        rw [hstate]
        rfl
    exact hloop.mono fun h => ⟨h.1, h.2.1⟩

/-- The cascade from its root. -/
theorem failAndCascade_rostered {tx : CoordinatedTx} (hP : P → m₀.Sound ∧ Challenger m₀ tx)
    (height : BlockHeight) (fundingMissing : Bool) :
    Prog.Keeps (fun w => Rostered (Settling m₀ P) w ∧ RecordAt tx.txid CanFail w)
      (failAndCascade tx height fundingMissing) ctx :=
  keeps_read fun w hw => failAndCascadeWithin_rostered _ hP height fundingMissing w hw

/-- Settling a doomed transaction. -/
theorem settleFailedChild_rostered {tx : CoordinatedTx} (hP : P → m₀.Sound ∧ Challenger m₀ tx)
    (height : BlockHeight) :
    Prog.Keeps (fun w => Rostered (Settling m₀ P) w ∧ RecordAt tx.txid CanFail w)
      (settleFailedChild tx height) ctx := by
  have hrebuild : Prog.Keeps (fun w => Rostered (Settling m₀ P) w ∧ RecordAt tx.txid CanFail w)
      (rebuildSurvivors tx height) ctx := by
    refine Prog.Keeps.seq (Prog.Keeps.read _) fun survivors => ?_
    refine Prog.Keeps.seq (failAndCascade_rostered hP height false) fun _ => ?_
    refine Prog.Keeps.seq (Prog.Keeps.read _) fun requeue => ?_
    exact keeps_and (oneWrite_rostered (fun _ => prependPendingSpeedupParents_oneWrite requeue)
      (fun _ => rfl) fun _ => rfl) (prependPendingSpeedupParents_keeps requeue)
  unfold settleFailedChild
  split
  · exact Prog.Keeps.ite (fun _ => failAndCascade_rostered hP height false) fun _ => hrebuild
  · exact failAndCascade_rostered hP height false

/-! ### Dispatch outcomes -/

/-- What has drifted from a copy is a speedup exactly when the copy is one. -/
theorem Drifted.speedup?_eq_none {copy record : CoordinatedTx} (h : Drifted copy record) :
    record.speedup? = none ↔ copy.speedup? = none := by
  constructor
  · intro hnone
    by_contra hsome
    have hrecord := CoordinatedTx.isSome_speedup?_of_body h.body_eq.symm (Option.isSome_iff_ne_none.mpr hsome)
    rw [hnone] at hrecord
    cases hrecord
  · intro hnone
    by_contra hsome
    have hcopy := CoordinatedTx.isSome_speedup?_of_body h.body_eq (Option.isSome_iff_ne_none.mpr hsome)
    rw [hnone] at hcopy
    cases hcopy

/-- A copy that waited for dispatch when the roster was taken. -/
structure Waiting (m₀ : Roster Txid) (copy : CoordinatedTx) : Prop where
  state : copy.state = .toDispatch
  member : copy.speedup?.isSome → m₀ copy.txid = copy.member?

/-- What replaces another transaction is a speedup. -/
theorem CoordinatedTx.exists_speedup?_of_replaces? {tx : CoordinatedTx} {replaces : Txid}
    (h : tx.replaces? = some replaces) : ∃ kind, tx.speedup? = some kind := by
  unfold replaces? at h
  unfold speedup?
  cases hkind : tx.kind with
  | speedup kind => exact ⟨kind, rfl⟩
  | _ =>
    rw [hkind] at h
    cases h

/-- A copy that waited challenges what it replaces. -/
theorem Waiting.challenger {copy : CoordinatedTx} (h : Waiting m₀ copy) : Challenger m₀ copy := by
  intro replaces hreplaces
  obtain ⟨kind, hkind⟩ := CoordinatedTx.exists_speedup?_of_replaces? hreplaces
  have hmember := h.member (by rw [hkind]; rfl)
  rw [CoordinatedTx.member?_of_speedup? hkind] at hmember
  refine ⟨_, hmember, ?_, hreplaces⟩
  rw [h.state]
  rfl

/-- A record that drifted from a copy that waited may fail. -/
theorem Waiting.canFail {copy : CoordinatedTx} (h : Waiting m₀ copy) (hstored : StillStored copy w) :
    RecordAt copy.txid CanFail w := by
  obtain ⟨record, hget, hdrift⟩ := hstored
  intro tx htx
  rw [hget] at htx
  cases htx
  rcases hdrift.state with ⟨hsame, -⟩ | ⟨-, hfailed, -⟩
  · rw [hsame, h.state]
    rfl
  · rw [hfailed]
    rfl

/-- An untracked record, or one that is marked as replaced when it is a speedup. -/
def IsMarked (record : Option CoordinatedTx) : Prop :=
  ∀ tx kind, record = some tx → tx.speedup? = some kind → kind.context.isBeingReplaced

/-- A completed marking leaves the mark. -/
theorem markReplaced_marks {copy : CoordinatedTx} {txid replaces : Txid} {u : Unit}
    (hreplaces : copy.replaces? = some replaces)
    (hrun : markReplaced copy txid ctx w = (.ok u, w')) : RecordAt replaces IsMarked w' := by
  unfold markReplaced at hrun
  rw [hreplaces] at hrun
  obtain ⟨found, w₁, hread, hbody⟩ := Prog.bind_ok.mp hrun
  obtain ⟨rfl, rfl⟩ := readStore_ok.mp hread
  intro tx kind htx hkind
  cases hget : w₁.store.txs.get replaces with
  | none =>
    rw [hget] at hbody
    obtain ⟨-, rfl⟩ := Prog.pure_ok.mp hbody
    rw [hget] at htx
    cases htx
  | some replaced =>
    rw [hget] at hbody
    obtain ⟨updated, w₂, hupdated, hwrite⟩ := Prog.bind_ok.mp hbody
    obtain ⟨hok, rfl⟩ := Prog.ofExcept_ok.mp hupdated
    obtain ⟨kind', hkind', rfl⟩ := CoordinatedTx.modifyContext_ok (Prog.mapError_ok.mp hok)
    obtain ⟨-, rfl⟩ := writeStore_ok.mp hwrite
    have hid : replaced.txid = replaces := w₂.store.keyed _ _ hget
    change (w₂.store.setTx _).txs.get replaces = some tx at htx
    rw [Store.get_setTx, if_pos hid.symm] at htx
    cases htx
    cases hkind
    rw [SpeedupKind.context_modifyContext]
    rfl

/-- Marking what a challenger replaces. -/
theorem markReplaced_rostered {copy : CoordinatedTx} (hP : Challenger m₀ copy) (txid : Txid) :
    Prog.Keeps (Rostered (Settling m₀ P)) (markReplaced copy txid) ctx := by
  unfold markReplaced
  split
  · exact Prog.Keeps.pure _
  · next replaces hreplaces =>
    apply keeps_found
    · exact Prog.Keeps.pure _
    · intro w replaced hw hget
      dsimp only
      generalize hupdated : replaced.modifyContext _ = result
      cases result with
      | error e => exact hw
      | ok updated =>
        refine updateReplacedBy_rostered hw hget hupdated ?_
        rintro a ⟨hsettles, hp⟩ hmember
        refine ⟨hsettles.set (hsettles.follows.mark hmember (hP _ hreplaces)) ?_, hp⟩
        intro hwaiting
        exact hsettles.waits _ ⟨a, hmember, hwaiting⟩

/-- Writing back the copy of a dispatched transaction after what it replaces was marked. -/
theorem markReplaced_rewriteTx_rostered {copy updated : CoordinatedTx} (hwaiting : Waiting m₀ copy)
    (hP : P → m₀.Sound) (hid : updated.txid = copy.txid) (hkind : updated.kind = copy.kind)
    (txid : Txid) (data : TypesToMonitor) (h : Rostered (Settling m₀ P) w) (hkept : IsKept copy w) :
    Rostered (Settling m₀ P)
      ((do markReplaced copy txid; rewriteTx copy updated; monitorWatch data true : Coord Unit) ctx w).2 := by
  have hmark : Prog.Keeps (fun w => Rostered (Settling m₀ P) w ∧ IsKept copy w) (markReplaced copy txid)
      ctx := by
    refine keeps_and (markReplaced_rostered hwaiting.challenger txid) (keeps_and ?_ ?_)
    · exact markReplaced_keeps (driftStable_drifted copy).mark copy txid
    · intro w hlisted
      have hplain : Plainly False .settle (markReplaced copy txid) ctx w := markReplaced_plainly copy txid
      exact plainly_keeps_listed hplain hlisted rfl
  have hspeedup : updated.speedup? = copy.speedup? := CoordinatedTx.speedup?_of_kind hkind
  refine Prog.Ends.bind (Q := fun _ w' => Rostered (Settling m₀ P) w')
    (Prog.Ends.of_keeps hmark ⟨h, hkept⟩) (fun _ _ hend => hend.1) ?_
  rintro _ w₁ ⟨hroster, ⟨record, hget, hdrift⟩, hlisted⟩ hrun
  have hput : Rostered (Settling m₀ P) (w₁.written (w₁.store.setTx updated)) := by
    apply hroster.put
    · intro hsome _ _
      rw [hid]
      exact hlisted (by rw [← hspeedup]; exact hsome)
    · intro hnone old hold
      rw [hid, hget] at hold
      cases hold
      exact hdrift.speedup?_eq_none.mpr (hspeedup.symm.trans hnone)
    · rintro b _ ⟨hsettles, hp⟩ _ hmember
      obtain ⟨kind, hkind', rfl⟩ := CoordinatedTx.of_member? hmember
      rw [hspeedup] at hkind'
      have hold := hwaiting.member (by rw [hkind']; rfl)
      rw [CoordinatedTx.member?_of_speedup? hkind'] at hold
      have hwaited : copy.state.stage = .waiting := TransactionState.stage_eq_waiting.mpr hwaiting.state
      have hleft : ∀ p b, copy.replaces? = some p → w₁.store.roster p = some b → b.marked := by
        intro p b hreplaces hb
        obtain ⟨-, cur, hcur, hmember⟩ := Store.roster_eq_some.mp hb
        obtain ⟨kind', hkind', rfl⟩ := CoordinatedTx.of_member? hmember
        exact markReplaced_marks hreplaces hrun cur kind' hcur hkind'
      rw [hid, CoordinatedTx.replaces?_of_kind hkind]
      exact ⟨hsettles.set (hsettles.follows.accept (hP hp) hold hwaited hleft) fun _ => ⟨_, hold, hwaited⟩, hp⟩
  apply rostered_bind (putTx_rostered hroster hput)
  intro _ w₂ hroster₂ _
  exact rostered_calm (fun _ => monitorWatch_calm _ _) w₂ hroster₂

/-- A computation that keeps a property of the roster where the record of a copy is kept. -/
def Handles (G : Roster Txid → Prop) (copy : CoordinatedTx) (m : Coord Unit) (ctx : Ctx) : Prop :=
  ∀ w, Rostered G w → IsKept copy w → Rostered G (m ctx w).2

/-- A quiet move leaves the records of copies kept. -/
theorem IsKept.quiet {copy : CoordinatedTx} (h : IsKept copy w) (hquiet : Quiet w w') : IsKept copy w' := by
  obtain ⟨hstored, hlisted⟩ := h
  constructor
  · unfold StillStored RecordAt
    rw [hquiet.txs_eq]
    exact hstored
  · intro hspeedup
    rw [hquiet.speedupList_eq]
    exact hlisted hspeedup

/-- A quiet part in front of the handling of a copy. -/
theorem Handles.calm {α : Type} {copy : CoordinatedTx} {m : Coord α} {k : α → Coord Unit}
    (hm : ∀ w, Calm m ctx w) (hk : ∀ a, Handles G copy (k a) ctx) : Handles G copy (m >>= k) ctx := by
  intro w h hkept
  have hkeeps : Prog.Keeps (fun w => Rostered G w ∧ IsKept copy w) m ctx :=
    keeps_and (rostered_calm hm) fun w hw => (hm w).keeps (fun _ _ hkept hquiet => hkept.quiet hquiet) hw
  refine Prog.Ends.bind (Q := fun _ w' => Rostered G w') (Prog.Ends.of_keeps hkeeps ⟨h, hkept⟩)
    (fun _ _ hend => hend.1) ?_
  rintro a w₁ ⟨hroster, hkept₁⟩ _
  exact hk a w₁ hroster hkept₁

/-- A noted moment in front of the handling of a copy. -/
theorem Handles.noted {copy : CoordinatedTx} {e : Store → Event} {k : Coord Unit}
    (hk : Handles G copy k ctx) : Handles G copy (note e >>= fun _ => k) ctx :=
  fun w h hkept => hk (w.noted (e w.store)) (h.noted _) hkept

/-- A conditional handles a copy when both branches do. -/
theorem Handles.ite {copy : CoordinatedTx} {c : Prop} [Decidable c] {m n : Coord Unit}
    (hm : Handles G copy m ctx) (hn : Handles G copy n ctx) : Handles G copy (if c then m else n) ctx := by
  by_cases hc : c
  · rwa [if_pos hc]
  · rwa [if_neg hc]

section Outcomes

variable {tx : CoordinatedTx} {P : Prop} (hwaiting : Waiting m₀ tx)

include hwaiting

/-- What settles a copy as failed handles it. -/
theorem handles_of_fails {m : Coord Unit}
    (h : Prog.Keeps (fun w => Rostered (Settling m₀ P) w ∧ RecordAt tx.txid CanFail w) m ctx) :
    Handles (Settling m₀ P) tx m ctx :=
  fun w hw hkept => (h w ⟨hw, hwaiting.canFail hkept.1⟩).1

/-- Another attempt handles a copy. -/
theorem markAsRetry_handles : Handles (Settling m₀ P) tx (markAsRetry tx.txid) ctx := by
  rintro w hw ⟨⟨record, hget, hdrift⟩, -⟩
  apply requeueWith_rostered hw
  intro cur hcur hstep
  rw [hget] at hcur
  cases hcur
  have hstate : record.state = .toDispatch := (hdrift.state_eq hstep (by simp)).trans hwaiting.state
  have hid : record.txid = tx.txid := w.store.keyed _ _ hget
  rw [← hid] at hget
  apply writeStore_rostered hw
  refine hw.putState hget rfl rfl (fun _ => by rw [hstate]; rfl) ?_
  rintro a - ⟨hsettles, hp⟩ hmember hstage
  have hwaits : a.stage = .waiting := by
    rw [hstage, hstate]
    rfl
  exact ⟨hsettles.set (hsettles.follows.requeue hmember (Or.inl hwaits)) fun _ =>
    hsettles.waits _ ⟨a, hmember, hwaits⟩, hp⟩

variable (hP : P → m₀.Sound)

include hP

/-- The cascade handles its root. -/
theorem failAndCascade_handles (height : BlockHeight) (fundingMissing : Bool) :
    Handles (Settling m₀ P) tx (failAndCascade tx height fundingMissing) ctx :=
  handles_of_fails hwaiting
    (failAndCascade_rostered (fun hp => ⟨hP hp, hwaiting.challenger⟩) height fundingMissing)

/-- Settling a doomed transaction handles it. -/
theorem settleFailedChild_handles (height : BlockHeight) :
    Handles (Settling m₀ P) tx (settleFailedChild tx height) ctx :=
  handles_of_fails hwaiting
    (settleFailedChild_rostered (fun hp => ⟨hP hp, hwaiting.challenger⟩) height)

/-- A rejection with intact inputs is handled. -/
theorem retryOrFail_handles (height : BlockHeight) :
    Handles (Settling m₀ P) tx (retryOrFail tx tx.txid height) ctx := by
  refine Handles.calm (m := settings) (fun _ => Prog.Reaches.ask _) fun cfg => ?_
  refine Handles.noted (Handles.ite ?_ (markAsRetry_handles hwaiting))
  exact Handles.noted (failAndCascade_handles hwaiting hP height false)

/-- A missing input is handled. -/
theorem settleMissingInput_handles (height : BlockHeight) (fundingMissing : Bool) :
    Handles (Settling m₀ P) tx (settleMissingInput tx tx.txid height fundingMissing) ctx := by
  have hexcuse : Handles (Settling m₀ P) tx (excuseOrFail tx tx.txid height fundingMissing) ctx := by
    refine Handles.ite (Handles.noted (markAsRetry_handles hwaiting)) (Handles.noted (Handles.ite ?_ ?_))
    · exact failAndCascade_handles hwaiting hP height true
    · exact settleFailedChild_handles hwaiting hP height
  refine Handles.calm (m := readStore id) (fun _ => Prog.Reaches.read _) fun before => ?_
  intro w hw hkept
  exact rostered_bind (hexcuse w hw hkept) fun _ w₁ hw₁ _ => hw₁.noted _

/-- An accepted transaction is handled. -/
theorem markAccepted_handles (txid : Txid) (height : BlockHeight) (feeInfo : FeeInfo) :
    Handles (Settling m₀ P) tx (markAccepted tx txid height feeInfo) ctx := by
  intro w hw hkept
  refine markReplaced_rewriteTx_rostered hwaiting hP ?_ ?_ txid _ hw hkept <;> rfl

/-- A transaction found on chain is handled. -/
theorem markAlreadyConfirmed_handles (txid : Txid) (height : BlockHeight) :
    Handles (Settling m₀ P) tx (markAlreadyConfirmed tx txid height) ctx := by
  intro w hw hkept
  refine markReplaced_rewriteTx_rostered hwaiting hP ?_ ?_ txid _ hw hkept <;> rfl

/-- A rejected broadcast is handled. -/
theorem classifyDispatchError_handles (height : BlockHeight) (feeInfo : FeeInfo) :
    Handles (Settling m₀ P) tx (classifyDispatchError tx tx.txid height feeInfo) ctx := by
  refine Handles.calm (fun _ => query_calm) fun confirmations => ?_
  rcases confirmations with _ | _ | depth
  · refine Handles.calm (fun _ => missingInputKind_calm tx) fun missing => ?_
    cases missing with
    | none => exact retryOrFail_handles hwaiting hP height
    | some fundingMissing => exact settleMissingInput_handles hwaiting hP height fundingMissing
  · exact markAccepted_handles hwaiting hP _ _ _
  · exact markAlreadyConfirmed_handles hwaiting hP _ _

/-- A dispatch outcome is handled. -/
theorem handleDispatchResult_handles (txid : Txid) (outcome : DispatchOutcome) (height : BlockHeight)
    (feeInfo : FeeInfo) :
    Handles (Settling m₀ P) tx (handleDispatchResult tx txid outcome height feeInfo) ctx := by
  refine Handles.calm (m := readStore id) (fun _ => Prog.Reaches.read _) fun before => ?_
  intro w hw hkept
  refine Prog.Ends.bind (R := fun _ w' => w' = w) (Q := fun _ w' => Rostered (Settling m₀ P) w') rfl ?_ ?_
  · rintro _ _ rfl
    exact hw
  rintro _ _ rfl hverify
  obtain ⟨hverified, -⟩ := Prog.ofExcept_ok.mp hverify
  obtain rfl := CoordinatedTx.verifyTxId_ok (Prog.mapError_ok.mp hverified)
  have houtcome : Handles (Settling m₀ P) tx (handleOutcome tx tx.txid outcome height feeInfo) ctx := by
    cases outcome with
    | success => exact markAccepted_handles hwaiting hP _ _ _
    | fatal reason => exact failAndCascade_handles hwaiting hP height false
    | parentFailed parent => exact settleFailedChild_handles hwaiting hP height
    | dispatchError raw => exact classifyDispatchError_handles hwaiting hP height feeInfo
  exact rostered_bind (houtcome _ hw hkept) fun _ w₁ hw₁ _ => hw₁.noted _

end Outcomes

/-! ### Dispatch -/

/-- A sound roster with a bounded number of standing members. -/
def Bounded (n : ℕ) (m : Roster Txid) : Prop := m.Sound ∧ m.standing.encard ≤ n

/-- A roster that follows a bounded one is bounded. -/
theorem Bounded.follows {n : ℕ} {m : Roster Txid} (h : Bounded n m₀) (hfollows : m₀.Follows m) :
    Bounded n m :=
  ⟨hfollows.sound h.1, (hfollows.encard_standing_le h.1).trans h.2⟩

/-- A pass in which nobody goes to wait again keeps a bound. -/
theorem Rostered.of_settling {n : ℕ} (h : Rostered (Bounded n) w)
    (hpass : Rostered (Settling w.store.roster (Bounded n w.store.roster)) w →
      Rostered (Settling w.store.roster (Bounded n w.store.roster)) w') : Rostered (Bounded n) w' := by
  have hstart : Rostered (Settling w.store.roster (Bounded n w.store.roster)) w :=
    h.mono fun hbounded => ⟨Roster.Settles.refl hbounded.1, hbounded⟩
  exact (hpass hstart).mono fun hend => hend.2.follows hend.1.follows

/-- The outcomes of a batch of copies that waited are handled. -/
theorem results_rostered {txs : List CoordinatedTx} {results : List (Txid × DispatchOutcome)}
    {body : Txid × DispatchOutcome → Coord Unit} (height : BlockHeight)
    (htxs : ∀ tx ∈ txs, Waiting m₀ tx) {P : Prop} (hP : P → m₀.Sound)
    (hbody : ∀ result w, (body result ctx w).2 = w ∨ ∃ tx ∈ txs, ∃ feeInfo, tx.txid = result.1 ∧
      (tx.speedup?.isSome → feeInfo = tx.feeInfo) ∧
        body result ctx w = handleDispatchResult tx result.1 result.2 height feeInfo ctx w)
    (h : Rostered (Settling m₀ P) w) (hready : BatchReady True txs results w) :
    Rostered (Settling m₀ P) (Prog.forEach results body ctx w).2 := by
  refine Prog.Keeps.forEach_inv (BatchReady True txs) ?_ ?_ h hready
  · intro result rest w₁ hroster hready
    rcases hbody result w₁ with hsame | ⟨tx, htx, feeInfo, hid, -, hrun⟩
    · rw [hsame]
      exact hroster
    · have hcopy := hready.2 result List.mem_cons_self tx htx hid
      rw [hrun]
      exact handleDispatchResult_handles (htxs tx htx) hP _ _ _ _ w₁ hroster
        ⟨hcopy.drift trivial, hcopy.listed trivial⟩
  · intro result rest w₁ w₂ u hready hdone
    rcases hbody result w₁ with hsame | ⟨tx, htx, feeInfo, hid, hfee, hrun⟩
    · rw [hdone] at hsame
      subst hsame
      exact ⟨fun htidy => (List.nodup_cons.mp (hready.1 htidy)).2,
        fun later hlater => hready.2 later (List.mem_cons_of_mem _ hlater)⟩
    · rw [hrun] at hdone
      exact hready.next htx hid (htxs tx htx).state hfee hdone

/-- The copies of a review stay ready through quiet functions. -/
theorem ReviewReady.after_calm {α : Type} {tidy : Prop} {txs : List CoordinatedTx} {m : Coord α}
    {a : Except Stop α} (h : ReviewReady tidy txs w) (hcalm : ∀ w, Calm m ctx w)
    (hrun : m ctx w = (a, w')) : ReviewReady tidy txs w' :=
  ⟨h.1, fun tx htx => (h.2 tx htx).after_calm hcalm hrun⟩

/-- Some of the copies of a review are ready when all are. -/
theorem ReviewReady.sublist {tidy : Prop} {txs kept : List CoordinatedTx} (h : ReviewReady tidy txs w)
    (hsub : kept.Sublist txs) : ReviewReady tidy kept w :=
  ⟨fun htidy => List.Nodup.sublist (hsub.map _) (h.1 htidy), fun tx htx => h.2 tx (hsub.subset htx)⟩

/-- Step 3 for one batch of client transactions. -/
theorem dispatchBatch_rostered {txs : List CoordinatedTx} (height : BlockHeight)
    (htxs : ∀ tx ∈ txs, tx.state = .toDispatch ∧ tx.speedup? = none) {P : Prop} (hP : P → m₀.Sound)
    (h : Rostered (Settling m₀ P) w) (hready : ReviewReady True txs w) :
    Rostered (Settling m₀ P) (dispatchBatch txs height ctx w).2 := by
  apply rostered_bind (rostered_calm (fun _ => getNetworkFeeRate_calm) w h)
  rintro ⟨feeRate, feeNews⟩ w₁ h₁ hfee
  have hready₁ := hready.after_calm (fun _ => getNetworkFeeRate_calm) hfee
  apply rostered_bind (rostered_calm (fun _ => publishFeeNews_calm _) w₁ h₁)
  intro _ w₂ h₂ hnews
  have hready₂ := hready₁.after_calm (fun _ => publishFeeNews_calm _) hnews
  apply rostered_bind (rostered_calm (fun _ => applyRetryRateLimit_calm _) w₂ h₂)
  intro kept w₃ h₃ hlimit
  have hsub := applyRetryRateLimit_sublist hlimit
  have hready₃ := (hready₂.after_calm (fun _ => applyRetryRateLimit_calm _) hlimit).sublist hsub
  apply rostered_bind (rostered_sends (fun _ => dispatch_sends _) w₃ h₃)
  intro results w₄ h₄ hdispatch
  have hkept : ∀ tx ∈ kept, tx.state = .toDispatch ∧ tx.speedup? = none :=
    fun tx htx => htxs tx (hsub.subset htx)
  refine results_rostered height ?_ hP ?_ h₄ (BatchReady.dispatched hready₃ hdispatch)
  · intro tx htx
    refine ⟨(hkept tx htx).1, fun hspeedup => ?_⟩
    rw [(hkept tx htx).2] at hspeedup
    cases hspeedup
  · intro result w
    unfold handleBatchResult
    cases hfind : findTxInBatch kept result.1 with
    | error e => exact Or.inl rfl
    | ok tx =>
      obtain ⟨hin, hid⟩ := findTxInBatch_ok hfind
      refine Or.inr ⟨tx, hin, computeFeeForTx tx.tx feeRate, hid, fun hspeedup => ?_, rfl⟩
      rw [(hkept tx hin).2] at hspeedup
      cases hspeedup

/-- Step 3. -/
theorem dispatchPending_rostered {n : ℕ} (h : Rostered (Bounded n) w) :
    Rostered (Bounded n) (dispatchPending ctx w).2 := by
  apply rostered_bind (rostered_calm (fun _ => query_calm) w h)
  intro height w₁ h₁ _
  apply rostered_read
  cases heq : (w₁.store.txs.values.filter fun tx => tx.state.isActive).filter
    (CoordinatedTx.isDispatchable height) with
  | nil => exact h₁
  | cons first others =>
    apply h₁.of_settling
    intro hstart
    apply dispatchBatch_rostered height _ And.left hstart
    · rw [← heq, List.filter_filter]
      apply reviewReady_values
      intro c hc
      simp only [CoordinatedTx.isDispatchable, Bool.and_eq_true, Option.isNone_iff_eq_none] at hc
      exact hc.1.1.1
    · rw [← heq]
      intro c hc
      have hp := (List.mem_filter.mp hc).2
      simp only [CoordinatedTx.isDispatchable, Bool.and_eq_true, decide_eq_true_eq,
        Option.isNone_iff_eq_none] at hp
      exact ⟨hp.1.2, hp.1.1⟩

/-- Step 4 for one batch of speedups. -/
theorem dispatchSpeedupBatch_rostered {txs : List CoordinatedTx} (height : BlockHeight)
    (htxs : ∀ tx ∈ txs, Waiting m₀ tx) {P : Prop} (hP : P → m₀.Sound)
    (h : Rostered (Settling m₀ P) w) (hready : ReviewReady True txs w) :
    Rostered (Settling m₀ P) (dispatchSpeedupBatch txs height ctx w).2 := by
  apply rostered_bind (rostered_sends (fun _ => dispatch_sends _) w h)
  intro results w₁ h₁ hdispatch
  have hbatch : Rostered (Settling m₀ P) (Prog.forEach results (handleSpeedupResult txs height) ctx w₁).2 := by
    refine results_rostered height htxs hP ?_ h₁ (BatchReady.dispatched hready hdispatch)
    intro result w
    unfold handleSpeedupResult
    cases hfind : txs.find? fun tx => tx.txid = result.1 with
    | none => exact Or.inl rfl
    | some tx =>
      have hid : tx.txid = result.1 := by simpa using List.find?_some hfind
      exact Or.inr ⟨tx, List.mem_of_find?_eq_some hfind, tx.feeInfo, hid, fun _ => rfl, rfl⟩
  exact rostered_bind hbatch fun _ _ hend _ => hend

/-- Step 4. -/
theorem dispatchPendingSpeedups_rostered {n : ℕ} (h : Rostered (Bounded n) w) (htidy : IsTidy w) :
    Rostered (Bounded n) (dispatchPendingSpeedups ctx w).2 := by
  apply rostered_bind (rostered_calm (fun _ => query_calm) w h)
  intro height w₁ h₁ hquery
  have htidy₁ : True → IsTidy w₁ := tidy_of_calm query_calm (fun _ => htidy) hquery
  have hready := reviewReady_speedups (fun tx => decide (tx.state = .toDispatch)) htidy₁
  have hwaiting : ∀ tx ∈ w₁.store.speedupsOrdered.filter fun tx => decide (tx.state = .toDispatch),
      Waiting w₁.store.roster tx := by
    intro tx htx
    obtain ⟨hordered, hstate⟩ := List.mem_filter.mp htx
    obtain ⟨hlisted, hget⟩ := mem_speedupsOrdered hordered
    exact ⟨by simpa using hstate, fun _ => Store.roster_of_get hget hlisted⟩
  apply rostered_read
  generalize w₁.store.speedupsOrdered.filter (fun tx => decide (tx.state = .toDispatch)) = all at hready hwaiting
  cases all with
  | nil => exact h₁
  | cons first others =>
    apply h₁.of_settling
    intro hstart
    apply rostered_bind (rostered_calm (fun _ => applyRetryRateLimit_calm _) w₁ hstart)
    intro kept w₂ h₂ hlimit
    have hsub := applyRetryRateLimit_sublist hlimit
    have hready₂ := (hready.after_calm (fun _ => applyRetryRateLimit_calm _) hlimit).sublist hsub
    cases kept with
    | nil => exact h₂
    | cons tx rest =>
      exact dispatchSpeedupBatch_rostered height (fun tx htx => hwaiting tx (hsub.subset htx)) And.left h₂
        hready₂

end BitcoinCoordinator
