import BitcoinCoordinator.CallTraces
import BitcoinCoordinator.Foundation.Histories

/-!
# What holds of every version

A run leaves its versions of the store in the history. A property of records that every way of putting
a record keeps holds of every record of every version, so it may be assumed of the copies as well.
-/

namespace BitcoinCoordinator

open Foundation

variable {ctx : Ctx} {tidy : Prop} {phase : Phase} {w w' : World}

/-- The ways a move puts a record, with the history it leaves. -/
inductive Put (ctx : Ctx) (tidy : Prop) (w : World) (log : List Event) :
    Phase → CoordinatedTx → Prop where
  | changed {phase : Phase} (tx tx' : CoordinatedTx) (hget : w.store.txs.get tx.txid = some tx)
      (hchange : Change tidy w.log tx phase tx') (hinfo : KeepsInfo ctx tx tx') :
      Put ctx tidy w log phase tx'
  | vanished (tx : CoordinatedTx) (height : BlockHeight)
      (hget : w.store.txs.get tx.txid = some tx) (hstep : tx.state.canTransitionTo .toDispatch)
      (hfrom : tidy → tx.isInFlight) : Put ctx tidy w log .settle
        (tx.requeued (height + ctx.settings.monitor.maxMonitoringConfirmations))
  | rewrote (copy updated : CoordinatedTx) (hrewrite : Rewrite copy updated)
      (hread : WasStored copy w) (hdrift : tidy → StillStored copy w)
      (hnote : .rewrote copy w.store ∈ log) : Put ctx tidy w log .settle updated
  | inserted (tx : CoordinatedTx) (htx : Insertable ctx w tx) (hnote : .inserted tx w.store ∈ log) :
      Put ctx tidy w log .build tx
  | registered (tx : CoordinatedTx) (hfresh : w.store.txs.get tx.txid = none)
      (hkind : tx.speedup? = none) (hnew : tx.IsNew)
      (hnote : w.log.head? = some (.registering tx w.store)) : Put ctx tidy w log .serve tx

/-- The record of a store after one was put. -/
theorem get_of_setTx {s : Store} {tx' : CoordinatedTx} {txid : Txid} {tx : CoordinatedTx}
    (h : (s.setTx tx').txs.get txid = some tx) : s.txs.get txid = some tx ∨ tx = tx' := by
  rw [Store.get_setTx] at h
  split at h
  · exact Or.inr (Option.some.inj h).symm
  · exact Or.inl h

/-- Every record after a move was there before, or the move put it and says so in the history. -/
theorem Move.records {txid : Txid} {tx : CoordinatedTx} (h : Move ctx tidy phase w w')
    (hget : w'.store.txs.get txid = some tx) :
    w.store.txs.get txid = some tx ∨ Put ctx tidy w w'.log phase tx ∧
      w.log <:+ w'.log.tail ∧ w'.store = w.store.setTx tx := by
  have herased : ∀ id, (w.store.eraseTx id).txs.get txid = some tx →
      w.store.txs.get txid = some tx := by
    intro id hget
    rw [Store.get_eraseTx] at hget
    split at hget
    · cases hget
    · exact hget
  rcases h with hplain | hpart
  · cases hplain with
    | quiet hquiet =>
      rw [hquiet.txs_eq] at hget
      exact Or.inl hget
    | changed old tx' hold hchange hinfo =>
      rcases get_of_setTx hget with hkept | rfl
      · exact Or.inl hkept
      · exact Or.inr ⟨Put.changed old tx hold hchange hinfo, List.suffix_rfl, rfl⟩
    | vanished old height hold hstep hfrom hnote =>
      rcases get_of_setTx hget with hkept | rfl
      · exact Or.inl hkept
      · exact Or.inr ⟨Put.vanished old height hold hstep hfrom, List.suffix_cons _ _, rfl⟩
    | rewrote copy updated hrewrite hread hdrift hlisted =>
      rcases get_of_setTx hget with hkept | rfl
      · exact Or.inl hkept
      · exact Or.inr ⟨Put.rewrote copy tx hrewrite hread hdrift List.mem_cons_self,
          List.suffix_cons _ _, rfl⟩
    | _ => exact Or.inl hget
  · cases hpart with
    | inserted new htx =>
      rcases get_of_setTx hget with hkept | rfl
      · exact Or.inl hkept
      · exact Or.inr ⟨Put.inserted tx htx List.mem_cons_self, List.suffix_cons _ _, rfl⟩
    | registered new hfresh hkind hnew hnote =>
      rcases get_of_setTx hget with hkept | rfl
      · exact Or.inl hkept
      · exact Or.inr ⟨Put.registered tx hfresh hkind hnew hnote, List.suffix_rfl, rfl⟩
    | listed id =>
      change (w.store.list id).txs.get txid = some tx at hget
      rw [Store.txs_list] at hget
      exact Or.inl hget
    | pended id =>
      change (w.store.pend id).txs.get txid = some tx at hget
      rw [Store.txs_pend] at hget
      exact Or.inl hget
    | queue s hphase hwrite =>
      change s.txs.get txid = some tx at hget
      rw [hwrite.txs_eq] at hget
      exact Or.inl hget
    | evicted old hnote hstale haged => exact Or.inl (herased _ hget)
    | dropped id hcancel hpending => exact Or.inl (herased _ hget)
    | unlisted id hphase hterminal => exact Or.inl hget

/-- A quiet move writes at most over the version it found. -/
theorem Quiet.hasVersion {s : Store} (h : Quiet w w') (hversion : w'.HasVersion s) :
    s = w'.store ∨ w.HasVersion s := by
  rcases hversion with hlast | ⟨after, hwrote⟩
  · exact Or.inl hlast
  · right
    rcases h.log_eq with hlog | ⟨e, hremark, hlog⟩ | hlog
    · rw [hlog] at hwrote
      exact Or.inr ⟨after, hwrote⟩
    · rw [hlog] at hwrote
      rcases List.mem_cons.mp hwrote with heq | hold
      · rw [← heq] at hremark
        exact absurd hremark id
      · exact Or.inr ⟨after, hold⟩
    · rw [hlog] at hwrote
      rcases List.mem_cons.mp hwrote with heq | hold
      · cases heq
        exact Or.inl rfl
      · exact Or.inr ⟨after, hold⟩

/-- A noted moment other than a write adds no version. -/
theorem World.HasVersion.of_noted {s : Store} {e : Event} (hnote : ∀ a b, e ≠ .wrote a b)
    (h : (w.noted e).HasVersion s) : w.HasVersion s := by
  rcases h with hlast | ⟨after, hwrote⟩
  · exact Or.inl hlast
  · rcases List.mem_cons.mp hwrote with heq | hold
    · exact absurd heq.symm (hnote _ _)
    · exact Or.inr ⟨after, hold⟩

/-- A write adds the version it makes. -/
theorem World.HasVersion.of_written {s s' : Store} (h : (w.written s').HasVersion s) :
    s = s' ∨ w.HasVersion s := by
  rcases h with hlast | ⟨after, hwrote⟩
  · exact Or.inl hlast
  · rcases List.mem_cons.mp hwrote with heq | hold
    · cases heq
      exact Or.inr (Or.inl rfl)
    · exact Or.inr (Or.inr ⟨after, hold⟩)

/-- Every version after a move is the one it leaves, or was there before. -/
theorem Move.hasVersion {s : Store} (h : Move ctx tidy phase w w') (hversion : w'.HasVersion s) :
    s = w'.store ∨ w.HasVersion s := by
  rcases h with hplain | hpart
  · cases hplain with
    | quiet hquiet => exact hquiet.hasVersion hversion
    | changed => exact hversion.of_written
    | vanished | rewrote => exact (World.HasVersion.of_noted (by simp) hversion).of_written
    | _ => exact Or.inr (World.HasVersion.of_noted (by simp) hversion)
  · cases hpart with
    | inserted => exact (World.HasVersion.of_noted (by simp) hversion).of_written
    | _ => exact hversion.of_written

/-- A noted moment other than a write makes no version recent. -/
theorem World.HasRecent.of_noted {s : Store} {e : Event} (hnote : ∀ a b, e ≠ .wrote a b)
    (h : (w.noted e).HasRecent s) : w.HasRecent s := by
  refine h.imp id fun hmem => ?_
  change s ∈ recentVersions (e :: w.log) at hmem
  cases e with
  | wrote before after => exact absurd rfl (hnote before after)
  | registering tx s' => cases hmem
  | _ => exact hmem

/-- A write makes only the version it makes recent. -/
theorem World.HasRecent.of_written {s s' : Store} (h : (w.written s').HasRecent s) :
    s = s' ∨ w.HasRecent s := by
  rcases h with hlast | hmem
  · exact Or.inl hlast
  · rcases List.mem_cons.mp hmem with rfl | hold
    · exact Or.inr (Or.inl rfl)
    · exact Or.inr (Or.inr hold)

/-- A recent version after a move is the one it leaves, or was recent before. -/
theorem Move.hasRecent {s : Store} (h : Move ctx tidy phase w w') (hrecent : w'.HasRecent s) :
    s = w'.store ∨ w.HasRecent s := by
  rcases h with hplain | hpart
  · cases hplain with
    | quiet hquiet =>
      cases hquiet with
      | asked => exact Or.inr hrecent
      | stamped now => exact Or.inr hrecent
      | published items => exact Or.inr hrecent
      | noted e hremark =>
        have hother : ∀ a b, e ≠ .wrote a b := by
          rintro a b rfl
          exact hremark
        exact Or.inr (hrecent.of_noted hother)
      | wrote s' hwrite => exact hrecent.of_written
      | prepended txids hneeds hrequeue => exact hrecent.of_written
    | changed => exact hrecent.of_written
    | vanished | rewrote => exact (World.HasRecent.of_noted (by simp) hrecent).of_written
    | _ => exact Or.inr (World.HasRecent.of_noted (by simp) hrecent)
  · cases hpart with
    | inserted => exact (World.HasRecent.of_noted (by simp) hrecent).of_written
    | _ => exact hrecent.of_written

/-- A property of every record of every version. -/
def EveryRecord (P : CoordinatedTx → Prop) (w : World) : Prop :=
  ∀ s, w.HasVersion s → ∀ txid tx, s.txs.get txid = some tx → P tx

/-- What holds of every record of every version holds of a copy. -/
theorem EveryRecord.copy {P : CoordinatedTx → Prop} {copy : CoordinatedTx} (h : EveryRecord P w)
    (hread : WasStored copy w) : P copy := by
  obtain ⟨s, hrecent, hget⟩ := hread
  exact h s hrecent.hasVersion _ _ hget

/-- What holds of every record of every version holds of the current ones. -/
theorem EveryRecord.current {P : CoordinatedTx → Prop} {txid : Txid} {tx : CoordinatedTx}
    (h : EveryRecord P w) (hget : w.store.txs.get txid = some tx) : P tx :=
  h w.store (Or.inl rfl) txid tx hget

/-- What every put keeps, every move keeps. -/
theorem EveryRecord.move {P : CoordinatedTx → Prop} (h : EveryRecord P w)
    (hmove : Move ctx tidy phase w w') (hput : ∀ tx, Put ctx tidy w w'.log phase tx → P tx) :
    EveryRecord P w' := by
  intro s hversion txid tx hget
  rcases hmove.hasVersion hversion with rfl | hold
  · rcases hmove.records hget with hkept | ⟨hput', -⟩
    · exact h.current hkept
    · exact hput tx hput'
  · exact h s hold txid tx hget

/-- What every put keeps holds of every record of every version of a run. -/
theorem everyRecord_runCalls {P : CoordinatedTx → Prop} (cfg : BitcoinSettings) (calls : List Call)
    (hput : ∀ ctx phase w log tx, EveryRecord P w → Put ctx True w log phase tx → P tx) :
    EveryRecord P (runCalls cfg calls World.init) := by
  have hmove : ∀ call ∈ calls, ∀ phase w w', EveryRecord P w →
      Move ⟨cfg, call.answers⟩ True phase w w' → EveryRecord P w' :=
    fun call _ phase w w' h hmove => h.move hmove fun tx => hput _ phase w w'.log tx h
  apply runCalls_induction hmove
  · intro _
    exact List.nodup_nil
  · rintro s (rfl | ⟨after, hwrote⟩) txid tx hget
    · cases hget
    · cases hwrote

/-! ### Entries of the history -/

/-- A quiet move adds to the history what nothing is asked of. -/
theorem Quiet.throughout {P : Event → List Event → Prop} (hquiet : Quiet w w')
    (h : Throughout P w.log) (hremark : ∀ e older, e.IsRemark → P e older)
    (hwrote : P (.wrote w.store w'.store) w.log) : Throughout P w'.log := by
  rcases hquiet.log_eq with hlog | ⟨e, he, hlog⟩ | hlog
  · rw [hlog]
    exact h
  · rw [hlog]
    exact throughout_cons.mpr ⟨hremark e _ he, h⟩
  · rw [hlog]
    exact throughout_cons.mpr ⟨hwrote, h⟩

end BitcoinCoordinator
