import BitcoinCoordinator.SpeedupTraces
import BitcoinCoordinator.Foundation.Replacement

/-!
# The listed speedups as a roster

A listed speedup is a member of a roster: it waits for dispatch, is in the mempool, is on chain or has failed,
and it may replace another speedup. The roster is all that tells which speedups are being replaced, so what
the writes of a call do to it decides how many speedups are unconfirmed.
-/

namespace BitcoinCoordinator

open Foundation

variable {ctx : Ctx} {w w' : World} {G : Roster Txid → Prop}

/-! ### Members -/

/-- How far a transaction in a state has come. -/
def TransactionState.stage : TransactionState → Stage
  | .toDispatch => .waiting
  | .inMempool => .aloft
  | .confirmed => .landed
  | .finalized => .landed
  | .failed => .failed

/-- A speedup as a member. -/
def CoordinatedTx.member? (tx : CoordinatedTx) : Option (Member Txid) :=
  tx.speedup?.map fun kind => ⟨tx.state.stage, tx.replaces?, kind.context.isBeingReplaced⟩

/-- The listed speedups. -/
def Store.roster (s : Store) : Roster Txid := fun txid =>
  if txid ∈ s.speedupList then (s.txs.get txid).bind CoordinatedTx.member? else none

/-- Every speedup in an active state is listed. -/
def Store.ListsActive (s : Store) : Prop :=
  ∀ txid tx, s.txs.get txid = some tx → tx.speedup?.isSome → tx.state.isActive →
    txid ∈ s.speedupList

/-- A state waits when it is `ToDispatch`. -/
theorem TransactionState.stage_eq_waiting {state : TransactionState} :
    state.stage = .waiting ↔ state = .toDispatch := by
  cases state <;> simp [stage]

/-- A state is aloft when it is `InMempool`. -/
theorem TransactionState.stage_eq_aloft {state : TransactionState} :
    state.stage = .aloft ↔ state = .inMempool := by
  cases state <;> simp [stage]

/-- A state has failed when it is `Failed`. -/
theorem TransactionState.stage_eq_failed {state : TransactionState} :
    state.stage = .failed ↔ state = .failed := by
  cases state <;> simp [stage]

/-- A speedup is a member of its stage. -/
theorem CoordinatedTx.member?_of_speedup? {tx : CoordinatedTx} {kind : SpeedupKind}
    (hkind : tx.speedup? = some kind) :
    tx.member? = some ⟨tx.state.stage, tx.replaces?, kind.context.isBeingReplaced⟩ := by
  unfold member?
  rw [hkind]
  rfl

/-- What is no speedup is no member. -/
theorem CoordinatedTx.member?_eq_none {tx : CoordinatedTx} : tx.member? = none ↔ tx.speedup? = none := by
  unfold member?
  rw [Option.map_eq_none_iff]

/-- The stage of a member is that of its record, and it replaces what the record does. -/
theorem CoordinatedTx.of_member? {tx : CoordinatedTx} {a : Member Txid} (h : tx.member? = some a) :
    ∃ kind, tx.speedup? = some kind ∧
      a = ⟨tx.state.stage, tx.replaces?, kind.context.isBeingReplaced⟩ := by
  unfold member? at h
  obtain ⟨kind, hkind, rfl⟩ := Option.map_eq_some_iff.mp h
  exact ⟨kind, hkind, rfl⟩

/-- Records of one kind are the same speedup. -/
theorem CoordinatedTx.speedup?_of_kind {tx tx' : CoordinatedTx} (hkind : tx'.kind = tx.kind) :
    tx'.speedup? = tx.speedup? := by
  unfold speedup?
  rw [hkind]

/-- Records of one kind replace the same transaction. -/
theorem CoordinatedTx.replaces?_of_kind {tx tx' : CoordinatedTx} (hkind : tx'.kind = tx.kind) :
    tx'.replaces? = tx.replaces? := by
  unfold replaces?
  rw [hkind]

/-- A record with another replacement mark is the same member, marked accordingly. -/
theorem CoordinatedTx.member?_replacedBy {tx : CoordinatedTx} {kind : SpeedupKind}
    (hkind : tx.kind = .speedup kind) (txid : Option Txid) :
    { tx with kind := .speedup (kind.modifyContext fun c => { c with replacedBy := txid }) :
      CoordinatedTx }.member? = tx.member?.map fun a => { a with marked := txid.isSome } := by
  unfold member? speedup? replaces?
  rw [hkind]
  cases kind <;> rfl

/-- A record with another spent flag is the same member. -/
theorem CoordinatedTx.member?_spent {tx : CoordinatedTx} {kind : SpeedupKind}
    (hkind : tx.kind = .speedup kind) (spent : Bool) :
    { tx with kind := .speedup (kind.modifyContext fun c => { c with spent := spent }) :
      CoordinatedTx }.member? = tx.member? := by
  unfold member? speedup? replaces?
  rw [hkind]
  cases kind <;> rfl

/-- A member of the roster is a listed speedup. -/
theorem Store.roster_eq_some {s : Store} {txid : Txid} {a : Member Txid} :
    s.roster txid = some a ↔
      txid ∈ s.speedupList ∧ ∃ tx, s.txs.get txid = some tx ∧ tx.member? = some a := by
  unfold roster
  split
  · next hin => simp [hin, Option.bind_eq_some_iff]
  · next hout => simp [hout]

/-- The member of a record found is that of the record. -/
theorem Store.roster_of_get {s : Store} {txid : Txid} {tx : CoordinatedTx}
    (hget : s.txs.get txid = some tx) (hlisted : txid ∈ s.speedupList) : s.roster txid = tx.member? := by
  unfold roster
  rw [if_pos hlisted, hget]
  rfl

/-- The roster after a record was put. -/
theorem Store.roster_setTx (s : Store) (tx : CoordinatedTx) (txid : Txid) :
    (s.setTx tx).roster txid =
      if txid = tx.txid then (if tx.txid ∈ s.speedupList then tx.member? else none) else s.roster txid := by
  unfold roster
  rw [Store.get_setTx]
  by_cases heq : txid = tx.txid
  · rw [if_pos heq, if_pos heq, heq]
    rfl
  · rw [if_neg heq, if_neg heq]
    rfl

/-- The roster after a listed speedup was put. -/
theorem Store.roster_setTx_member {s : Store} {tx : CoordinatedTx} {a : Member Txid}
    (hlisted : tx.txid ∈ s.speedupList) (hmember : tx.member? = some a) :
    (s.setTx tx).roster = s.roster.set tx.txid a := by
  funext txid
  rw [Store.roster_setTx, if_pos hlisted, hmember]
  rfl

/-- A record that is not listed changes no roster. -/
theorem Store.roster_setTx_unlisted {s : Store} {tx : CoordinatedTx} (hout : tx.txid ∉ s.speedupList) :
    (s.setTx tx).roster = s.roster := by
  funext txid
  rw [Store.roster_setTx, if_neg hout]
  split
  · next heq =>
    unfold roster
    rw [heq, if_neg hout]
  · rfl

/-- A record that is no speedup, and was none, changes no roster. -/
theorem Store.roster_setTx_client {s : Store} {tx : CoordinatedTx} (hkind : tx.speedup? = none)
    (hold : tx.speedup? = none → ∀ old, s.txs.get tx.txid = some old → old.speedup? = none) :
    (s.setTx tx).roster = s.roster := by
  by_cases hin : tx.txid ∈ s.speedupList
  · funext txid
    rw [Store.roster_setTx, if_pos hin, CoordinatedTx.member?_eq_none.mpr hkind]
    split
    · next heq =>
      unfold roster
      rw [heq, if_pos hin]
      cases hget : s.txs.get tx.txid with
      | none => rfl
      | some old => exact (CoordinatedTx.member?_eq_none.mpr (hold hkind old hget)).symm
    · rfl
  · exact Store.roster_setTx_unlisted hin

/-- Setting a spent flag keeps the roster. -/
theorem Store.roster_setSpent (s : Store) (op : OutPoint) (spent : Bool) :
    (s.setSpent op spent).roster = s.roster := by
  unfold Store.setSpent
  split
  · rfl
  · split
    · rfl
    · next tx hget =>
      split
      · next kind hkind =>
        have hid : tx.txid = op.txid := s.keyed _ tx hget
        rw [← hid] at hget
        funext txid
        rw [Store.roster_setTx]
        split
        · next heq =>
          dsimp only at heq ⊢
          rw [CoordinatedTx.member?_spent hkind, heq]
          unfold roster
          rw [hget]
          rfl
        · rfl
      · rfl

/-- Setting a spent flag keeps the active speedups listed. -/
theorem Store.ListsActive.setSpent {s : Store} (h : s.ListsActive) (op : OutPoint) (spent : Bool) :
    (s.setSpent op spent).ListsActive := by
  intro txid tx hget hspeedup hactive
  rw [Store.speedupList_setSpent]
  have hstable : MarkStable fun record => ∀ tx, record = some tx → tx.speedup?.isSome →
      tx.state.isActive → txid ∈ s.speedupList := by
    intro tx kind mark hold hkind tx' heq _ hactive
    cases heq
    refine hold tx rfl ?_ hactive
    unfold CoordinatedTx.speedup?
    rw [hkind]
    rfl
  exact hstable.setSpent op spent (fun tx hget => h txid tx hget) tx hget hspeedup hactive

/-! ### Confirmed speedups -/

/-- A write takes a confirmed speedup back to the mempool or to dispatch. -/
def Event.returnsConfirmed : Event → Bool
  | .wrote before after => before.txs.values.any fun tx =>
      tx.speedup?.isSome && decide (tx.state = .confirmed) && (after.txs.get tx.txid).any fun tx' =>
        decide (tx'.state = .inMempool) || decide (tx'.state = .toDispatch)
  | _ => false

/-- No confirmed speedup went back to the mempool or to dispatch. -/
def ConfirmedStays (log : List Event) : Prop := ∀ e ∈ log, e.returnsConfirmed = false

instance (log : List Event) : Decidable (ConfirmedStays log) :=
  inferInstanceAs (Decidable (∀ e ∈ log, _))

/-- What holds of a longer history held before. -/
theorem ConfirmedStays.of_suffix {log log' : List Event} (h : ConfirmedStays log') (hlog : log <:+ log') :
    ConfirmedStays log :=
  fun e he => h e (hlog.subset he)

/-- A write that was made took no confirmed speedup back. -/
theorem ConfirmedStays.not_returned {log : List Event} {s : Store} {tx tx' : CoordinatedTx}
    (h : ConfirmedStays (.wrote s (s.setTx tx') :: log)) (hget : s.txs.get tx.txid = some tx)
    (hid : tx'.txid = tx.txid) (hspeedup : tx.speedup?.isSome) (hstate : tx.state = .confirmed) :
    tx'.state ≠ .inMempool ∧ tx'.state ≠ .toDispatch := by
  by_contra hreturned
  have hback : tx'.state = .inMempool ∨ tx'.state = .toDispatch := by
    by_contra hnone
    exact hreturned (not_or.mp hnone)
  have hnone := h _ List.mem_cons_self
  have hfound : (Event.wrote s (s.setTx tx')).returnsConfirmed = true := by
    apply List.any_eq_true.mpr
    refine ⟨tx, Store.mem_values.mpr hget, ?_⟩
    rw [Store.get_setTx, if_pos hid.symm, hspeedup, hstate]
    rcases hback with hback | hback <;> simp [hback]
  rw [hfound] at hnone
  cases hnone

/-- A speedup is stored that is being replaced already. -/
def Event.arrivesReplaced : Event → Bool
  | .inserted tx before => tx.hasLiveReplacement (before.speedupsOrdered ++ [tx])
  | _ => false

/-- No speedup was being replaced when it was stored. -/
def ArrivesUnreplaced (log : List Event) : Prop := ∀ e ∈ log, e.arrivesReplaced = false

instance (log : List Event) : Decidable (ArrivesUnreplaced log) :=
  inferInstanceAs (Decidable (∀ e ∈ log, _))

/-! ### Rosters along a call -/

/-- While no confirmed speedup goes back, and none is stored that is being replaced, the roster has a property
and the active speedups are listed. -/
def Rostered (G : Roster Txid → Prop) (w : World) : Prop :=
  ConfirmedStays w.log → ArrivesUnreplaced w.log → G w.store.roster ∧ w.store.ListsActive

/-- What the roster of the world is known to have. -/
theorem Rostered.mono {G' : Roster Txid → Prop} (h : Rostered G w)
    (hsub : G w.store.roster → G' w.store.roster) : Rostered G' w :=
  fun hstays harrives => (h hstays harrives).imp_left hsub

/-- A longer history after which the property still holds. -/
theorem Rostered.step (h : Rostered G w) (hlog : w.log <:+ w'.log)
    (hstep : ConfirmedStays w'.log → G w.store.roster → w.store.ListsActive →
      G w'.store.roster ∧ w'.store.ListsActive) : Rostered G w' := by
  intro hstays harrives
  obtain ⟨hroster, hlists⟩ := h (hstays.of_suffix hlog) fun e he => harrives e (hlog.subset he)
  exact hstep hstays hroster hlists

/-- The records and the speedup list are all that matters. -/
theorem Rostered.same (h : Rostered G w) (hlog : w.log <:+ w'.log) (htxs : w'.store.txs = w.store.txs)
    (hlist : w'.store.speedupList = w.store.speedupList) : Rostered G w' := by
  apply h.step hlog
  intro _ hroster hlists
  have hsame : w'.store.roster = w.store.roster := by
    unfold Store.roster
    rw [htxs, hlist]
  refine ⟨by rw [hsame]; exact hroster, ?_⟩
  unfold Store.ListsActive
  rw [htxs, hlist]
  exact hlists

/-- A noted moment changes nothing. -/
theorem Rostered.noted (h : Rostered G w) (e : Event) : Rostered G (w.noted e) :=
  h.same (List.suffix_cons _ _) rfl rfl

/-- A question changes nothing. -/
theorem Rostered.asked (h : Rostered G w) : Rostered G w.asked := h

/-- A quiet move changes nothing. -/
theorem Rostered.quiet (h : Rostered G w) (hquiet : Quiet w w') : Rostered G w' := by
  apply h.same ?_ hquiet.txs_eq hquiet.speedupList_eq
  rcases hquiet.log_eq with hlog | ⟨e, -, hlog⟩ | hlog
  · rw [hlog]
  · rw [hlog]
    exact List.suffix_cons _ _
  · rw [hlog]
    exact List.suffix_cons _ _

/-- Quiet functions change nothing. -/
theorem rostered_calm {α : Type} {m : Coord α} (h : ∀ w, Calm m ctx w) :
    Prog.Keeps (Rostered G) m ctx :=
  fun w hw => (h w).keeps (fun _ _ hkept hquiet => hkept.quiet hquiet) hw

/-- Broadcasting changes nothing. -/
theorem rostered_sends {α : Type} {m : Coord α} (h : ∀ w, Sends m ctx w) :
    Prog.Keeps (Rostered G) m ctx := by
  intro w hw
  refine (h w).keeps ?_ hw
  intro w₁ w₂ hkept hsend
  cases hsend with
  | quiet w₂ hquiet => exact hkept.quiet hquiet
  | sent tx => exact hkept.noted _

/-- A write keeps the property when its version has it. -/
theorem writeStore_rostered {f : Store → Store} (h : Rostered G w)
    (hwritten : Rostered G (w.written (f w.store))) : Rostered G (writeStore f ctx w).2 := by
  unfold writeStore
  split
  · exact hwritten
  · exact h.asked

/-- A write that leaves the records and the speedup list alone changes nothing. -/
theorem writeOther_rostered {f : Store → Store} (htxs : ∀ s, (f s).txs = s.txs)
    (hlist : ∀ s, (f s).speedupList = s.speedupList) : Prog.Keeps (Rostered G) (writeStore f) ctx :=
  fun w hw => writeStore_rostered hw (hw.same (List.suffix_cons _ _) (htxs w.store) (hlist w.store))

/-- A record put with its note keeps the property when the version written has it. -/
theorem putTx_rostered {event : Store → Event} {tx : CoordinatedTx} (h : Rostered G w)
    (hwritten : Rostered G (w.written (w.store.setTx tx))) : Rostered G (putTx event tx ctx w).2 := by
  have hinsert : Rostered G (insertTx tx ctx w).2 := writeStore_rostered h hwritten
  change Rostered G (Prog.bind (insertTx tx) (fun _ => note fun _ => event w.store) ctx w).2
  unfold Prog.bind
  rcases hrun : insertTx tx ctx w with ⟨_ | _, w₁⟩
  · rw [hrun] at hinsert
    exact hinsert
  · rw [hrun] at hinsert
    exact hinsert.noted _

/-- Setting a spent flag changes nothing. -/
theorem setSpent_rostered (op : OutPoint) (spent : Bool) :
    Prog.Keeps (Rostered G) (setSpent op spent) ctx := by
  refine Prog.Keeps.seq ?_ fun _ => fun w hw => hw.noted _
  refine OneWrite.keeps (fun w => writeSpent_oneWrite op spent) (fun _ hw => hw) ?_
  intro w hw
  apply hw.step (List.suffix_cons _ _)
  intro _ hroster hlists
  refine ⟨?_, hlists.setSpent op spent⟩
  change G (w.store.setSpent op spent).roster
  rw [Store.roster_setSpent]
  exact hroster

/-- A record is put: a speedup is listed when it has to be, and the roster with it has the property. -/
theorem Rostered.put (h : Rostered G w) {tx : CoordinatedTx}
    (hlisted : tx.speedup?.isSome → tx.state.isActive → w.store.ListsActive →
      tx.txid ∈ w.store.speedupList)
    (hclient : tx.speedup? = none → ∀ old, w.store.txs.get tx.txid = some old → old.speedup? = none)
    (hG : ∀ a, ConfirmedStays (.wrote w.store (w.store.setTx tx) :: w.log) → G w.store.roster →
      tx.txid ∈ w.store.speedupList → tx.member? = some a → G (w.store.roster.set tx.txid a)) :
    Rostered G (w.written (w.store.setTx tx)) := by
  apply h.step (List.suffix_cons _ _)
  intro hstays hroster hlists
  constructor
  · change G (w.store.setTx tx).roster
    by_cases hin : tx.txid ∈ w.store.speedupList
    · cases hmember : tx.member? with
      | some a =>
        rw [Store.roster_setTx_member hin hmember]
        exact hG a hstays hroster hin hmember
      | none =>
        rw [Store.roster_setTx_client (CoordinatedTx.member?_eq_none.mp hmember) hclient]
        exact hroster
    · rw [Store.roster_setTx_unlisted hin]
      exact hroster
  · intro txid tx' hget hspeedup hactive
    change (w.store.setTx tx).txs.get txid = some tx' at hget
    rw [Store.get_setTx] at hget
    split at hget
    · next heq =>
      cases hget
      rw [heq]
      exact hlisted hspeedup hactive hlists
    · exact hlists txid tx' hget hspeedup hactive

/-- The state of a record changes. -/
theorem Rostered.putState (h : Rostered G w) {tx tx' : CoordinatedTx}
    (hget : w.store.txs.get tx.txid = some tx) (hid : tx'.txid = tx.txid) (hkind : tx'.kind = tx.kind)
    (hactive : tx'.state.isActive → tx.state.isActive)
    (hG : ∀ a, (tx.state = .confirmed → tx'.state ≠ .inMempool ∧ tx'.state ≠ .toDispatch) →
      G w.store.roster → w.store.roster tx.txid = some a → a.stage = tx.state.stage →
      G (w.store.roster.set tx.txid { a with stage := tx'.state.stage })) :
    Rostered G (w.written (w.store.setTx tx')) := by
  have hspeedup : tx'.speedup? = tx.speedup? := CoordinatedTx.speedup?_of_kind hkind
  apply h.put
  · intro hsome hnow hlists
    rw [hid]
    rw [hspeedup] at hsome
    exact hlists _ tx hget hsome (hactive hnow)
  · intro hnone old hold
    rw [hid, hget] at hold
    cases hold
    exact hspeedup.symm.trans hnone
  · intro b hstays hroster hin hmember
    obtain ⟨kind, hkind', rfl⟩ := CoordinatedTx.of_member? hmember
    have hold : tx.member? = some ⟨tx.state.stage, tx.replaces?, kind.context.isBeingReplaced⟩ :=
      CoordinatedTx.member?_of_speedup? (hspeedup.symm.trans hkind')
    rw [hid] at hin ⊢
    rw [CoordinatedTx.replaces?_of_kind hkind]
    refine hG _ ?_ hroster ((Store.roster_of_get hget hin).trans hold) rfl
    intro hconfirmed
    exact hstays.not_returned hget hid (by rw [← hspeedup, hkind']; rfl) hconfirmed

/-- The replacement mark of a speedup changes. -/
theorem Rostered.putMark (h : Rostered G w) {tx : CoordinatedTx} {kind : SpeedupKind}
    (hget : w.store.txs.get tx.txid = some tx) (hkind : tx.kind = .speedup kind) (txid : Option Txid)
    (hG : ∀ a, G w.store.roster → w.store.roster tx.txid = some a →
      G (w.store.roster.set tx.txid { a with marked := txid.isSome })) :
    Rostered G (w.written (w.store.setTx { tx with
      kind := .speedup (kind.modifyContext fun c => { c with replacedBy := txid }) })) := by
  have hsome : tx.speedup? = some kind := by
    unfold CoordinatedTx.speedup?
    rw [hkind]
  have hmember := CoordinatedTx.member?_of_speedup? hsome
  apply h.put
  · intro _ hactive hlists
    exact hlists _ tx hget (by rw [hsome]; rfl) hactive
  · intro hnone
    cases hnone
  · intro b _ hroster hin hnew
    rw [CoordinatedTx.member?_replacedBy hkind, hmember] at hnew
    cases hnew
    exact hG _ hroster ((Store.roster_of_get hget hin).trans hmember)

end BitcoinCoordinator
