import BitcoinCoordinator.Frames

/-!
# Every call is a chain of steps: settling and dispatching

The functions of the first four parts of a tick as chains of steps. What the handling of one
transaction does to another is at most a drift, so the copies a loop still has to handle are what the
store holds, up to drift.
-/

namespace BitcoinCoordinator

open Foundation

variable {ctx : Ctx} {tidy : Prop} {phase : Phase} {w : World}

/-! ### Failure -/

/-- Releasing reservations. -/
theorem releaseMarks_plainly (utxos : List Utxo) :
    Plainly tidy phase (releaseMarks utxos) ctx w :=
  Prog.Reaches.forEach fun u _ _ => setSpent_plainly u.outPoint false

/-- A record with a changed context is a record with a mark. -/
theorem CoordinatedTx.modifyContext_ok {tx updated : CoordinatedTx}
    {f : SpeedupContext → SpeedupContext} (h : tx.modifyContext f = .ok updated) :
    ∃ kind, tx.kind = .speedup kind ∧ updated = { tx with kind := .speedup (kind.modifyContext f) } := by
  unfold CoordinatedTx.modifyContext at h
  split at h
  · next kind hkind =>
    cases h
    exact ⟨kind, hkind, rfl⟩
  · cases h

/-- Setting the replacement mark of a tracked record. -/
theorem updateReplacedBy_plainly {id : Txid} {tx updated : CoordinatedTx} {txid : Option Txid}
    (hget : w.store.txs.get id = some tx)
    (hupdated : tx.modifyContext (fun c => { c with replacedBy := txid }) = .ok updated) :
    Plainly tidy phase (updateTx updated) ctx w := by
  obtain ⟨kind, hkind, rfl⟩ := CoordinatedTx.modifyContext_ok hupdated
  exact updateTx_plainly hget (Change.mark phase kind (Mark.replacedBy txid) hkind) (Or.inl rfl)

/-- Unmasking a predecessor. -/
theorem unmaskPredecessor_plainly (replaces : Txid) :
    Plainly tidy phase (unmaskPredecessor replaces) ctx w := by
  apply reaches_read
  split
  · exact Prog.Reaches.pure _
  · next replaced hget =>
    split
    · next updated hupdated => exact updateReplacedBy_plainly hget hupdated
    · exact Prog.Reaches.pure _

/-- Giving back what a failed speedup reserved. -/
theorem releaseFailed_plainly (tx : CoordinatedTx) :
    Plainly tidy phase (releaseFailed tx) ctx w := by
  unfold releaseFailed
  split
  · apply Prog.Reaches.seq (Prog.Reaches.ofExcept _)
    intro _ _
    exact releaseMarks_plainly _
  · apply Prog.Reaches.seq (releaseMarks_plainly _)
    intro _ _
    exact unmaskPredecessor_plainly _
  · exact Prog.Reaches.pure _

/-- What was stored once stays so through a plain move. -/
theorem WasStored.plain {copy : CoordinatedTx} {w' : World} (h : WasStored copy w)
    (hplain : Plain ctx tidy .settle w w') : WasStored copy w' :=
  h.settle (Move.plain hplain)

/-- What was stored once stays so through plain moves. -/
theorem WasStored.after {α : Type} {copy : CoordinatedTx} {m : Coord α} {a : Except Stop α}
    {w' : World} (h : WasStored copy w) (hplain : Plainly tidy .settle m ctx w)
    (hrun : m ctx w = (a, w')) : WasStored copy w' := by
  have hkept := hplain.keeps (fun _ _ hread hmove => hread.plain hmove) h
  rw [hrun] at hkept
  exact hkept

/-- A record in the store was stored. -/
theorem wasStored_of_get {copy : CoordinatedTx} (h : w.store.txs.get copy.txid = some copy) :
    WasStored copy w :=
  ⟨w.store, Or.inl rfl, h⟩

/-- Settling a transaction as failed. -/
theorem settleFailedDispatch_plainly {tx : CoordinatedTx} (height : BlockHeight)
    (fundingMissing : Bool) (hread : WasStored tx w) :
    Plainly tidy .settle (settleFailedDispatch tx height fundingMissing) ctx w := by
  have hstored : ∀ w w', WasStored tx w → Plain ctx tidy .settle w w' → WasStored tx w' :=
    fun _ _ hread hmove => hread.plain hmove
  apply Prog.Reaches.bind_inv (settleFailed_plainly _ _) hstored hread
  intro _ w₁ hread₁
  apply Prog.Reaches.bind_inv (plainly_of_calm (addNews_calm _)) hstored hread₁
  intro _ w₂ hread₂
  apply Prog.Reaches.bind_inv (releaseFailed_plainly tx) hstored hread₂
  intro _ w₃ hread₃
  apply Prog.Reaches.ite
  · intro _
    exact plainly_of_calm (requeueProtocolParents_calm hread₃)
  · intro _
    exact Prog.Reaches.pure _

/-- A listed speedup record is stored under its identifier. -/
theorem mem_speedupsOrdered {s : Store} {tx : CoordinatedTx} (h : tx ∈ s.speedupsOrdered) :
    tx.txid ∈ s.speedupList ∧ s.txs.get tx.txid = some tx := by
  obtain ⟨id, hid, hget⟩ := List.mem_filterMap.mp h
  have hkey : tx.txid = id := s.keyed id tx hget
  exact ⟨by rw [hkey]; exact hid, by rw [hkey]; exact hget⟩

/-- The cascade. -/
theorem failAndCascadeWithin_plainly (depth : ℕ) {tx : CoordinatedTx} (height : BlockHeight)
    (fundingMissing : Bool) (hread : WasStored tx w) :
    Plainly tidy .settle (failAndCascadeWithin depth tx height fundingMissing) ctx w := by
  induction depth generalizing tx fundingMissing w with
  | zero => exact Prog.Reaches.stop _
  | succ depth ih =>
    apply Prog.Reaches.seq (settleFailedDispatch_plainly height fundingMissing hread)
    intro _ w₁
    apply reaches_read
    apply Prog.Reaches.forEach_inv fun rest w => ∀ d ∈ rest, WasStored d w
    · intro d rest w hrest
      exact ih true (hrest d List.mem_cons_self)
    · intro d rest w w' u hrest hrun later hlater
      exact (hrest later (List.mem_cons_of_mem d hlater)).after
        (ih true (hrest d List.mem_cons_self)) hrun
    · intro d hd
      exact wasStored_of_get (mem_speedupsOrdered (List.mem_filter.mp hd).1).2

/-- The cascade from its root. -/
theorem failAndCascade_plainly {tx : CoordinatedTx} (height : BlockHeight) (fundingMissing : Bool)
    (hread : WasStored tx w) :
    Plainly tidy .settle (failAndCascade tx height fundingMissing) ctx w :=
  reaches_read (failAndCascadeWithin_plainly _ height fundingMissing hread)

/-- The requeued survivors of a failed CPFP are parents that need a speedup, each once. -/
theorem Store.toRequeue_ok (s : Store) (survivors : List Txid) :
    (∀ txid ∈ s.toRequeue survivors, s.isNeedsSpeedup txid) ∧ (s.toRequeue survivors).Nodup := by
  have hfold : ∀ (ids acc : List Txid), (∀ id ∈ acc, s.isNeedsSpeedup id) ∧ acc.Nodup →
      (∀ id ∈ ids.foldl (fun acc id =>
        if id ∉ acc ∧ s.isNeedsSpeedup id then acc ++ [id] else acc) acc, s.isNeedsSpeedup id) ∧
      (ids.foldl (fun acc id =>
        if id ∉ acc ∧ s.isNeedsSpeedup id then acc ++ [id] else acc) acc).Nodup := by
    intro ids
    induction ids with
    | nil => exact fun acc hacc => hacc
    | cons id rest ih =>
      intro acc hacc
      apply ih
      beta_reduce
      split
      · next hid =>
        refine ⟨fun id' hid' => ?_, nodup_append_singleton hacc.2 hid.1⟩
        rcases List.mem_append.mp hid' with hold | hnew
        · exact hacc.1 id' hold
        · rw [List.mem_singleton.mp hnew]
          exact hid.2
      · exact hacc
  exact hfold survivors [] ⟨fun id hid => absurd hid List.not_mem_nil, List.nodup_nil⟩

/-- Settling a doomed transaction. -/
theorem settleFailedChild_plainly {tx : CoordinatedTx} (height : BlockHeight)
    (hread : WasStored tx w) : Plainly tidy .settle (settleFailedChild tx height) ctx w := by
  have hrebuild : Plainly tidy .settle (rebuildSurvivors tx height) ctx w := by
    apply reaches_read
    apply Prog.Reaches.seq (failAndCascade_plainly height false hread)
    intro _ w₁
    apply reaches_read
    obtain ⟨hneeds, hnodup⟩ := w₁.store.toRequeue_ok (w.store.survivors tx)
    exact plainly_of_calm (prependPendingSpeedupParents_calm hneeds (Or.inl hnodup))
  unfold settleFailedChild
  split
  · apply Prog.Reaches.ite
    · intro _
      exact failAndCascade_plainly height false hread
    · intro _
      exact hrebuild
  · exact failAndCascade_plainly height false hread

/-! ### Drift -/

section Drift

variable {txid : Txid} {J : Option CoordinatedTx → Prop}

/-- Looking a record up keeps what the continuation keeps, given the record found. -/
theorem keeps_found {α : Type} {I : World → Prop} {id : Txid} {k : Option CoordinatedTx → Coord α}
    (hnone : Prog.Keeps I (k none) ctx)
    (hsome : ∀ w tx, I w → w.store.txs.get id = some tx → I (k (some tx) ctx w).2) :
    Prog.Keeps I (getTxById id >>= k) ctx := by
  apply keeps_read
  intro w hw
  cases hfound : w.store.txs.get id with
  | none => exact hnone w hw
  | some tx => exact hsome w tx hw hfound

/-- Changing a record keeps a property of a record that the change has. -/
theorem updateTx_recordAt {tx : CoordinatedTx} (hw : RecordAt txid J w)
    (h : txid = tx.txid → J (some tx)) : RecordAt txid J (updateTx tx ctx w).2 := by
  unfold updateTx writeStore
  split
  · change J ((w.store.setTx tx).txs.get txid)
    rw [Store.get_setTx]
    split
    · next hid => exact h hid
    · exact hw
  · exact hw

/-- A property of the world that the writes of one record and quiet moves leave alone. -/
structure Spares (id : Txid) (I : World → Prop) : Prop where
  quiet : ∀ w w', I w → Quiet w w' → I w'
  noted : ∀ w e, I w → I (w.noted e)
  put : ∀ w (tx : CoordinatedTx), tx.txid = id → I w → I (w.written (w.store.setTx tx))

/-- The writes of one record leave the others alone. -/
theorem spares_recordAt {id : Txid} (hne : txid ≠ id) : Spares id (RecordAt txid J) where
  quiet := by
    intro w w' hw hquiet
    unfold RecordAt
    rw [hquiet.txs_eq]
    exact hw
  noted := fun _ _ hw => hw
  put := by
    intro w tx hid hw
    change J ((w.store.setTx tx).txs.get txid)
    rw [Store.get_setTx, if_neg]
    · exact hw
    · rw [hid]
      exact hne

section Spares

variable {I : World → Prop} {id : Txid}

/-- Quiet functions leave alone what a record's writes leave alone. -/
theorem Spares.calm {α : Type} (hI : Spares id I) {m : Coord α} (h : ∀ w, Calm m ctx w) :
    Prog.Keeps I m ctx :=
  fun w hw => (h w).keeps hI.quiet hw

/-- A write of the record. -/
theorem Spares.updateTx (hI : Spares id I) {tx : CoordinatedTx} (hid : tx.txid = id) :
    Prog.Keeps I (updateTx tx) ctx :=
  OneWrite.keeps (fun _ => writeStore_oneWrite) (fun w hw => hI.quiet w _ hw Quiet.asked)
    fun w hw => hI.put w tx hid hw

/-- A write of the record and its note. -/
theorem Spares.putTx (hI : Spares id I) {event : Store → Event} {tx : CoordinatedTx}
    (hid : tx.txid = id) : Prog.Keeps I (putTx event tx) ctx :=
  Prog.Keeps.seq (Prog.Keeps.read _) fun _ =>
    Prog.Keeps.seq (hI.updateTx hid) fun _ => fun w hw => hI.noted w _ hw

/-- A lifecycle step of the record. -/
theorem Spares.updateTxStateImpl (hI : Spares id I) {state : TransactionState}
    {height : Option BlockHeight} : Prog.Keeps I (updateTxStateImpl id state height) ctx := by
  apply Prog.Keeps.ite <;> intro _
  · exact Prog.Keeps.stop _
  apply keeps_found (hI.calm fun _ => publish_calm _)
  intro w tx hw hget
  refine Prog.Keeps.ite (fun _ => ?_) (fun _ => ?_) w hw
  · exact hI.updateTx (w.store.keyed id tx hget)
  · exact hI.calm fun _ => publish_calm _

/-- A settlement of the record. -/
theorem Spares.settleTx (hI : Spares id I) {state : TransactionState} {height : BlockHeight} :
    Prog.Keeps I (settleTx id state height) ctx :=
  Prog.Keeps.ite (fun _ => hI.updateTxStateImpl) fun _ => Prog.Keeps.stop _

/-- Putting the record back to dispatch. -/
theorem Spares.requeueWith (hI : Spares id I) {write : CoordinatedTx → Coord Unit}
    (hwrite : ∀ tx : CoordinatedTx, tx.txid = id →
      Prog.Keeps I (write { tx with state := .toDispatch }) ctx) :
    Prog.Keeps I (requeueWith id write) ctx := by
  apply keeps_found (hI.calm fun _ => publish_calm _)
  intro w tx hw hget
  refine Prog.Keeps.ite (fun _ => ?_) (fun _ => ?_) w hw
  · exact hwrite tx (w.store.keyed id tx hget)
  · exact hI.calm fun _ => publish_calm _

/-- Putting the vanished record back to dispatch. -/
theorem Spares.requeueNotFound (hI : Spares id I) {deadline : BlockHeight} :
    Prog.Keeps I (requeueNotFound id deadline) ctx :=
  hI.requeueWith fun _ hid => hI.putTx hid

/-- Putting the rejected record back to dispatch. -/
theorem Spares.markAsRetry (hI : Spares id I) : Prog.Keeps I (markAsRetry id) ctx :=
  hI.requeueWith fun _ hid => hI.updateTx hid

end Spares

/-- Settling a transaction as failed drifts its record and no other. -/
theorem settleFailed_keeps (hJ : DriftStable J) (id : Txid) (height : BlockHeight) :
    Prog.Keeps (RecordAt txid J) (settleTx id .failed height) ctx := by
  apply Prog.Keeps.ite <;> intro _
  · apply Prog.Keeps.ite <;> intro _
    · exact Prog.Keeps.stop _
    apply keeps_found (keeps_of_calm fun _ => publish_calm _)
    intro w tx hw hget
    by_cases hstep : tx.state.canTransitionTo .failed = true
    · simp only [hstep, if_true]
      apply updateTx_recordAt hw
      intro hid
      apply hJ.fail tx height _ hstep
      have hkey : tx.txid = id := w.store.keyed _ _ hget
      rw [← hget, ← hkey]
      exact hid ▸ hw
    · simp only [hstep]
      exact keeps_of_calm (fun _ => publish_calm _) w hw
  · exact Prog.Keeps.stop _

/-- Setting the replacement mark of a tracked record is a drift. -/
theorem updateReplacedBy_recordAt (hJ : MarkStable J) {id : Txid} {tx updated : CoordinatedTx}
    {mark : Option Txid} (hw : RecordAt txid J w) (hget : w.store.txs.get id = some tx)
    (hupdated : tx.modifyContext (fun c => { c with replacedBy := mark }) = .ok updated) :
    RecordAt txid J (updateTx updated ctx w).2 := by
  obtain ⟨kind, hkind, rfl⟩ := CoordinatedTx.modifyContext_ok hupdated
  apply updateTx_recordAt hw
  intro hid
  refine hJ tx kind (Mark.replacedBy mark) ?_ hkind
  have hkey : tx.txid = id := w.store.keyed _ _ hget
  rw [← hget, ← hkey]
  exact hid ▸ hw

/-- Unmasking a predecessor is a drift. -/
theorem unmaskPredecessor_keeps (hJ : MarkStable J) (replaces : Txid) :
    Prog.Keeps (RecordAt txid J) (unmaskPredecessor replaces) ctx := by
  apply keeps_found
  · exact Prog.Keeps.pure _
  · intro w replaced hw hget
    dsimp only
    generalize hupdated : replaced.modifyContext _ = result
    cases result with
    | ok updated => exact updateReplacedBy_recordAt hJ hw hget hupdated
    | error e => exact hw

/-- Giving back reservations is a drift. -/
theorem releaseFailed_keeps (hJ : MarkStable J) (tx : CoordinatedTx) :
    Prog.Keeps (RecordAt txid J) (releaseFailed tx) ctx := by
  unfold releaseFailed
  split
  · exact Prog.Keeps.seq (Prog.Keeps.ofExcept _) fun _ => releaseMarks_keeps (setSpent_keeps hJ) _
  · exact Prog.Keeps.seq (releaseMarks_keeps (setSpent_keeps hJ) _) fun _ =>
      unmaskPredecessor_keeps hJ _
  · exact Prog.Keeps.pure _

/-- Putting parents back on the pending list leaves the records alone. -/
theorem prependPendingSpeedupParents_keeps (txids : List Txid) :
    Prog.Keeps (RecordAt txid J) (prependPendingSpeedupParents txids) ctx :=
  OneWrite.keeps (fun _ => prependPendingSpeedupParents_oneWrite txids) (fun _ hw => hw)
    fun _ hw => hw

/-- Requeueing the parents of a failed CPFP leaves the records alone. -/
theorem requeueProtocolParents_keeps (tx : CoordinatedTx) :
    Prog.Keeps (RecordAt txid J) (requeueProtocolParents tx) ctx := by
  unfold requeueProtocolParents
  split
  · exact Prog.Keeps.seq (Prog.Keeps.read _) fun _ => prependPendingSpeedupParents_keeps _
  · exact Prog.Keeps.pure _

/-- What follows the settlement of a failed transaction is a drift. -/
theorem afterFailure_keeps (hJ : MarkStable J) (tx : CoordinatedTx) (fundingMissing : Bool) :
    Prog.Keeps (RecordAt txid J) (do
      let _ ← addNews (dispatchErrorNews tx tx.txid)
      releaseFailed tx
      if fundingMissing then requeueProtocolParents tx else pure ()) ctx := by
  refine Prog.Keeps.seq (keeps_of_calm fun _ => addNews_calm _) fun _ => ?_
  refine Prog.Keeps.seq (releaseFailed_keeps hJ tx) fun _ => ?_
  exact Prog.Keeps.ite (fun _ => requeueProtocolParents_keeps tx) fun _ => Prog.Keeps.pure _

/-- The cascade drifts the records. -/
theorem failAndCascadeWithin_keeps (hJ : DriftStable J) (depth : ℕ) (tx : CoordinatedTx)
    (height : BlockHeight) (fundingMissing : Bool) :
    Prog.Keeps (RecordAt txid J) (failAndCascadeWithin depth tx height fundingMissing) ctx := by
  induction depth generalizing tx fundingMissing with
  | zero => exact Prog.Keeps.stop _
  | succ depth ih =>
    have hsettle : Prog.Keeps (RecordAt txid J)
        (settleFailedDispatch tx height fundingMissing) ctx :=
      Prog.Keeps.seq (settleFailed_keeps hJ _ _) fun _ => afterFailure_keeps hJ.mark tx _
    refine Prog.Keeps.seq hsettle fun _ => ?_
    apply keeps_read
    intro w hw
    exact Prog.Keeps.forEach (fun d _ => ih d true) w hw

/-- The cascade from its root drifts the records. -/
theorem failAndCascade_keeps (hJ : DriftStable J) (tx : CoordinatedTx) (height : BlockHeight)
    (fundingMissing : Bool) :
    Prog.Keeps (RecordAt txid J) (failAndCascade tx height fundingMissing) ctx := by
  apply keeps_read
  intro w hw
  exact failAndCascadeWithin_keeps hJ _ tx height fundingMissing w hw

/-- Settling a doomed transaction drifts the records. -/
theorem settleFailedChild_keeps (hJ : DriftStable J) (tx : CoordinatedTx) (height : BlockHeight) :
    Prog.Keeps (RecordAt txid J) (settleFailedChild tx height) ctx := by
  have hrebuild : Prog.Keeps (RecordAt txid J) (rebuildSurvivors tx height) ctx := by
    apply keeps_read
    intro w hw
    refine Prog.Keeps.seq (failAndCascade_keeps hJ tx height false) (fun _ => ?_) w hw
    apply keeps_read
    intro w hw
    exact prependPendingSpeedupParents_keeps _ w hw
  unfold settleFailedChild
  split
  · exact Prog.Keeps.ite (fun _ => failAndCascade_keeps hJ tx height false) fun _ => hrebuild
  · exact failAndCascade_keeps hJ tx height false

/-- Marking a predecessor as replaced is a drift. -/
theorem markReplaced_keeps (hJ : MarkStable J) (tx : CoordinatedTx) (id : Txid) :
    Prog.Keeps (RecordAt txid J) (markReplaced tx id) ctx := by
  unfold markReplaced
  split
  · exact Prog.Keeps.pure _
  · apply keeps_found
    · exact Prog.Keeps.pure _
    · intro w replaced hw hget
      dsimp only
      generalize hupdated : replaced.modifyContext _ = result
      cases result with
      | ok updated => exact updateReplacedBy_recordAt hJ hw hget hupdated
      | error e => exact hw

end Drift

/-! ### Copies -/

/-- A copy that was read from the store, whose record has at most drifted from it. -/
structure IsCopy (tidy : Prop) (copy : CoordinatedTx) (w : World) : Prop where
  read : WasStored copy w
  drift : tidy → StillStored copy w
  listed : tidy → copy.IsListed w

/-- A record just read is a copy. -/
theorem isCopy_of_get {copy : CoordinatedTx} (h : w.store.txs.get copy.txid = some copy)
    (hlisted : copy.IsListed w) : IsCopy tidy copy w :=
  ⟨wasStored_of_get h, fun _ => stillStored_of_get h, fun _ => hlisted⟩

/-- A plain move leaves the speedup list alone. -/
theorem Plain.speedupList_eq {w' : World} (h : Plain ctx tidy phase w w') :
    w'.store.speedupList = w.store.speedupList := by
  cases h with
  | quiet hquiet => exact hquiet.speedupList_eq
  | _ => rfl

/-- Plain moves leave the speedup list alone. -/
theorem plainly_keeps_listed {α : Type} {copy : CoordinatedTx} {m : Coord α} {a : Except Stop α}
    {w' : World} (hplain : Plainly tidy phase m ctx w) (h : copy.IsListed w)
    (hrun : m ctx w = (a, w')) : copy.IsListed w' := by
  have hkept := hplain.keeps (I := copy.IsListed) (fun _ _ hlisted hmove hspeedup => by
    rw [hmove.speedupList_eq]
    exact hlisted hspeedup) h
  rw [hrun] at hkept
  exact hkept

/-- A copy stays one through plain moves that let its record drift at most. -/
theorem IsCopy.after {α : Type} {copy : CoordinatedTx} {m : Coord α} {a : Except Stop α} {w' : World}
    (h : IsCopy tidy copy w) (hplain : Plainly tidy .settle m ctx w)
    (hkeeps : tidy → Prog.Keeps (StillStored copy) m ctx) (hrun : m ctx w = (a, w')) :
    IsCopy tidy copy w' where
  read := h.read.after hplain hrun
  drift := fun htidy => (hkeeps htidy).run (h.drift htidy) hrun
  listed := fun htidy => plainly_keeps_listed hplain (h.listed htidy) hrun

/-- A copy stays one through quiet moves. -/
theorem IsCopy.after_calm {α : Type} {copy : CoordinatedTx} {m : Coord α} {a : Except Stop α}
    {w' : World} (h : IsCopy tidy copy w) (hcalm : ∀ w, Calm m ctx w) (hrun : m ctx w = (a, w')) :
    IsCopy tidy copy w' := by
  have hplain : Plainly tidy .settle m ctx w := plainly_of_calm (hcalm w)
  exact h.after hplain (fun _ => keeps_of_calm hcalm) hrun

/-- A noted moment other than a registration does not affect a copy. -/
theorem IsCopy.noted {copy : CoordinatedTx} {e : Event} (h : IsCopy tidy copy w)
    (he : ∀ tx s, e ≠ .registering tx s) : IsCopy tidy copy (w.noted e) where
  read := by
    obtain ⟨s, hrecent, hget⟩ := h.read
    exact ⟨s, hrecent.noted he, hget⟩
  drift := h.drift
  listed := h.listed

/-! ### Dispatch outcomes -/

/-- Writing a record back from a copy. -/
theorem rewriteTx_plainly {copy updated : CoordinatedTx} (hcopy : IsCopy tidy copy w)
    (hrewrite : Rewrite copy updated) : Plainly tidy .settle (rewriteTx copy updated) ctx w :=
  putTx_plainly (Plain.rewrote copy updated hrewrite hcopy.read hcopy.drift hcopy.listed)

/-- Marking a predecessor as replaced. -/
theorem markReplaced_plainly (tx : CoordinatedTx) (txid : Txid) :
    Plainly tidy phase (markReplaced tx txid) ctx w := by
  unfold markReplaced
  split
  · exact Prog.Reaches.pure _
  · apply reaches_read
    split
    · exact Prog.Reaches.pure _
    · next replaced hget =>
      apply Prog.Reaches.bind (Prog.Reaches.ofExcept _)
      intro updated w' hrun
      obtain ⟨hupdated, rfl⟩ := Prog.ofExcept_ok.mp hrun
      exact updateReplacedBy_plainly hget (Prog.mapError_ok.mp hupdated)

/-- Writing back the copy of a dispatched transaction after its predecessor was marked. -/
theorem markReplaced_rewriteTx_plainly {copy updated : CoordinatedTx} {txid : Txid}
    (hcopy : IsCopy tidy copy w) (hrewrite : Rewrite copy updated) (data : TypesToMonitor) :
    Plainly tidy .settle
      (do markReplaced copy txid; rewriteTx copy updated; monitorWatch data true) ctx w := by
  apply Prog.Reaches.bind (markReplaced_plainly copy txid)
  intro _ w₁ hmark
  have hplain : Plainly tidy .settle (markReplaced copy txid) ctx w := markReplaced_plainly copy txid
  have hcopy₁ : IsCopy tidy copy w₁ :=
    hcopy.after hplain (fun _ => markReplaced_keeps (driftStable_drifted copy).mark copy txid) hmark
  apply Prog.Reaches.seq (rewriteTx_plainly hcopy₁ hrewrite)
  intro _ _
  exact plainly_of_calm (monitorWatch_calm _ _)

/-- Accepting a transaction. -/
theorem markAccepted_plainly {tx : CoordinatedTx} (txid : Txid) (height : BlockHeight)
    {feeInfo : FeeInfo} (hcopy : IsCopy tidy tx w) (hstate : tx.state = .toDispatch)
    (hfee : tx.speedup?.isSome → feeInfo = tx.feeInfo) :
    Plainly tidy .settle (markAccepted tx txid height feeInfo) ctx w :=
  markReplaced_rewriteTx_plainly hcopy (Rewrite.accepted height feeInfo hstate hfee) _

/-- Recording a transaction found on chain. -/
theorem markAlreadyConfirmed_plainly {tx : CoordinatedTx} (txid : Txid) (height : BlockHeight)
    (hcopy : IsCopy tidy tx w) (hstate : tx.state = .toDispatch) :
    Plainly tidy .settle (markAlreadyConfirmed tx txid height) ctx w :=
  markReplaced_rewriteTx_plainly hcopy (Rewrite.confirmed height hstate) _

/-- Retrying a rejected transaction, or failing it when its budget is spent. -/
theorem retryOrFail_plainly {tx : CoordinatedTx} (height : BlockHeight)
    (hcopy : IsCopy tidy tx w) (hstate : tx.state = .toDispatch) :
    Plainly tidy .settle (retryOrFail tx tx.txid height) ctx w := by
  apply reaches_settings
  apply Prog.Reaches.bind (note_plainly (Plain.transient tx.txid))
  intro _ w₁ hnote
  obtain rfl := note_ok.mp hnote
  have hcopy₁ : IsCopy tidy tx (w.noted (.transient tx.txid)) := hcopy.noted (by simp)
  apply Prog.Reaches.ite <;> intro hbudget
  · have hexhausted : Plain ctx tidy .settle (w.noted (.transient tx.txid))
        ((w.noted (.transient tx.txid)).noted (.exhausted tx.txid)) :=
      Plain.exhausted tx hbudget rfl hcopy₁.drift
    apply Prog.Reaches.bind (note_plainly hexhausted)
    intro _ w₂ hnote
    obtain rfl := note_ok.mp hnote
    exact failAndCascade_plainly height false (hcopy₁.noted (by simp)).read
  · exact markAsRetry_plainly hstate hcopy₁.drift (Or.inl rfl)

/-- Excusing a missing input, or failing the transaction. -/
theorem excuseOrFail_plainly {tx : CoordinatedTx} (height : BlockHeight) (fundingMissing : Bool)
    (hcopy : IsCopy tidy tx w) (hstate : tx.state = .toDispatch) :
    Plainly tidy .settle (excuseOrFail tx tx.txid height fundingMissing) ctx w := by
  apply Prog.Reaches.ite <;> intro hguard
  · have hdeferred : Plain ctx tidy .settle w (w.noted (.deferred tx.txid height)) :=
      Plain.deferred tx height hguard hcopy.drift
    apply Prog.Reaches.bind (note_plainly hdeferred)
    intro _ w₁ hnote
    obtain rfl := note_ok.mp hnote
    exact markAsRetry_plainly hstate (hcopy.noted (by simp)).drift (Or.inr ⟨height, rfl⟩)
  · have hcondemned : Plain ctx tidy .settle w (w.noted (.condemned tx.txid height)) :=
      Plain.condemned tx height (by simpa using hguard) hcopy.drift
    apply Prog.Reaches.bind (note_plainly hcondemned)
    intro _ w₁ hnote
    obtain rfl := note_ok.mp hnote
    have hread : WasStored tx (w.noted (.condemned tx.txid height)) := (hcopy.noted (by simp)).read
    apply Prog.Reaches.ite <;> intro _
    · exact failAndCascade_plainly height true hread
    · exact settleFailedChild_plainly height hread

/-- A completed settlement as failed stamps the record. -/
theorem settleFailed_ok {id : Txid} {height : BlockHeight} {old : CoordinatedTx} {w' : World} {u : Unit}
    (hget : w.store.txs.get id = some old) (hstep : old.state.canTransitionTo .failed)
    (hrun : settleTx id .failed height ctx w = (.ok u, w')) :
    w'.store.txs.get id =
      some { old with settledBlockHeight := some height, state := .failed } := by
  have hid : old.txid = id := w.store.keyed _ _ hget
  obtain ⟨found, w₁, hread, hbody⟩ := Prog.bind_ok.mp hrun
  obtain ⟨rfl, rfl⟩ := readStore_ok.mp hread
  rw [hget] at hbody
  have hwrite : updateTx { old with settledBlockHeight := some height, state := .failed } ctx w₁ =
      (.ok u, w') := by
    simpa [hstep, TransactionState.isTerminal] using hbody
  obtain ⟨-, rfl⟩ := writeStore_ok.mp hwrite
  change (w₁.store.setTx _).txs.get id = _
  rw [Store.get_setTx, if_pos hid.symm]

/-- A property of failed records with the given guard. -/
def FailedWith (guard : Option BlockHeight) : Option CoordinatedTx → Prop :=
  Holds fun tx => tx.state = .failed ∧ tx.failGuardUntil = guard

/-- A failed record stays failed when transactions are handled. -/
theorem driftStable_failedWith (guard : Option BlockHeight) : DriftStable (FailedWith guard) where
  mark := markStable_holds fun _ _ _ h _ => h
  fail := by
    rintro tx height ⟨tx', heq, -, hguard⟩ -
    cases heq
    exact ⟨_, rfl, rfl, hguard⟩

/-- A completed cascade has failed its root. -/
theorem failAndCascade_fails {tx old : CoordinatedTx} {height : BlockHeight} {fundingMissing : Bool}
    {w' : World} {u : Unit} (hget : w.store.txs.get tx.txid = some old)
    (hstep : old.state.canTransitionTo .failed)
    (hrun : failAndCascade tx height fundingMissing ctx w = (.ok u, w')) :
    RecordAt tx.txid (FailedWith old.failGuardUntil) w' := by
  have hJ := driftStable_failedWith old.failGuardUntil
  obtain ⟨listed, w₁, hread, hwithin⟩ := Prog.bind_ok.mp hrun
  obtain ⟨-, rfl⟩ := readStore_ok.mp hread
  obtain ⟨_, w₂, hsettle, hrest⟩ := Prog.bind_ok.mp hwithin
  obtain ⟨_, w₃, hstamp, hrelease⟩ := Prog.bind_ok.mp hsettle
  have hfailed : RecordAt tx.txid (FailedWith old.failGuardUntil) w₃ :=
    ⟨_, settleFailed_ok hget hstep hstamp, rfl, rfl⟩
  have hreleased := (afterFailure_keeps hJ.mark tx fundingMissing).run hfailed hrelease
  refine Prog.Keeps.run ?_ hreleased hrest
  apply keeps_read
  intro w hw
  exact Prog.Keeps.forEach (fun d _ => failAndCascadeWithin_keeps hJ _ d height true) w hw

/-- A completed settlement of a doomed transaction has failed it. -/
theorem settleFailedChild_fails {tx old : CoordinatedTx} {height : BlockHeight} {w' : World}
    {u : Unit} (hget : w.store.txs.get tx.txid = some old)
    (hstep : old.state.canTransitionTo .failed)
    (hrun : settleFailedChild tx height ctx w = (.ok u, w')) :
    RecordAt tx.txid (FailedWith old.failGuardUntil) w' := by
  have hrebuild : rebuildSurvivors tx height ctx w = (.ok u, w') →
      RecordAt tx.txid (FailedWith old.failGuardUntil) w' := by
    intro hrun
    obtain ⟨survivors, w₁, hread, hfail⟩ := Prog.bind_ok.mp hrun
    obtain ⟨-, rfl⟩ := readStore_ok.mp hread
    obtain ⟨_, w₂, hcascade, hrest⟩ := Prog.bind_ok.mp hfail
    obtain ⟨requeue, w₃, hread, hprepend⟩ := Prog.bind_ok.mp hrest
    obtain ⟨-, rfl⟩ := readStore_ok.mp hread
    exact (prependPendingSpeedupParents_keeps requeue).run
      (failAndCascade_fails hget hstep hcascade) hprepend
  unfold settleFailedChild at hrun
  cases hspeedup : tx.speedup? with
  | none =>
    rw [hspeedup] at hrun
    exact failAndCascade_fails hget hstep hrun
  | some kind =>
    rw [hspeedup] at hrun
    rcases Prog.ite_ok.mp hrun with ⟨-, hrun⟩ | ⟨-, hrun⟩
    · exact failAndCascade_fails hget hstep hrun
    · exact hrebuild hrun

/-- A completed retry keeps the state and the guard of a record waiting for dispatch. -/
theorem markAsRetry_ok {id : Txid} {old : CoordinatedTx} {w' : World} {u : Unit}
    (hget : w.store.txs.get id = some old)
    (hstate : old.state.canTransitionTo .toDispatch → old.state = .toDispatch)
    (hrun : markAsRetry id ctx w = (.ok u, w')) :
    RecordAt id (Holds fun cur => cur.state = old.state ∧
      cur.failGuardUntil = old.failGuardUntil) w' := by
  have hid : old.txid = id := w.store.keyed _ _ hget
  obtain ⟨found, w₁, hread, hbody⟩ := Prog.bind_ok.mp hrun
  obtain ⟨rfl, rfl⟩ := readStore_ok.mp hread
  rw [hget] at hbody
  rcases Prog.ite_ok.mp hbody with ⟨hstep, hwrite⟩ | ⟨-, hnews⟩
  · obtain ⟨-, rfl⟩ := writeStore_ok.mp hwrite
    refine ⟨{ old with state := .toDispatch, retryCount := old.retryCount + 1 }, ?_,
      (hstate hstep).symm, rfl⟩
    change (w₁.store.setTx _).txs.get id = _
    rw [Store.get_setTx, if_pos hid.symm]
  · exact (keeps_of_calm fun _ => publish_calm _).run ⟨old, hget, rfl, rfl⟩ hnews

/-- A guard runs for a record as for a copy of it. -/
theorem CoordinatedTx.isGuarded_congr {a b : CoordinatedTx} (h : a.failGuardUntil = b.failGuardUntil)
    (height : BlockHeight) : a.isGuarded height = b.isGuarded height := by
  unfold CoordinatedTx.isGuarded
  rw [h]

/-- A drifted record has the guard of its copy. -/
theorem Drifted.failGuardUntil_eq {copy record : CoordinatedTx} (h : Drifted copy record) :
    record.failGuardUntil = copy.failGuardUntil := by
  have hcore : record.core.failGuardUntil = copy.core.failGuardUntil := by rw [h.core]
  exact hcore

/-- The verdict on a missing input takes effect. -/
theorem excuseOrFail_judged {tx : CoordinatedTx} {height : BlockHeight} {fundingMissing : Bool}
    {w' : World} {u : Unit} (hstate : tx.state = .toDispatch) (hcopy : StillStored tx w)
    (hrun : excuseOrFail tx tx.txid height fundingMissing ctx w = (.ok u, w')) :
    Judged tx.txid height w.store w'.store := by
  obtain ⟨old, hget, hdrift⟩ := hcopy
  have hguard : old.isGuarded height = tx.isGuarded height :=
    CoordinatedTx.isGuarded_congr hdrift.failGuardUntil_eq height
  have hfailed : ∀ {record : Option CoordinatedTx}, FailedWith old.failGuardUntil record →
      old.isGuarded height = false → w'.store.txs.get tx.txid = record →
        Judged tx.txid height w.store w'.store := by
    rintro record ⟨cur, rfl, hcur, hsame⟩ hout hrecord
    refine ⟨old, cur, hget, hrecord, fun hrunning => ?_, fun _ => hcur⟩
    rw [CoordinatedTx.isGuarded_congr hsame height, hout] at hrunning
    cases hrunning
  have hstep : old.state.canTransitionTo .failed := by
    rcases hdrift.state with ⟨hsame, -⟩ | ⟨-, hsettled, -⟩
    · rw [hsame, hstate]
      rfl
    · rw [hsettled]
      rfl
  rcases Prog.ite_ok.mp hrun with ⟨hrunning, hbody⟩ | ⟨hout, hbody⟩
  · obtain ⟨_, w₁, hnote, hretry⟩ := Prog.bind_ok.mp hbody
    obtain rfl := note_ok.mp hnote
    obtain ⟨cur, hcur, hsame, hkept⟩ := markAsRetry_ok (w := w.noted _) hget
      (fun hback => (hdrift.state_eq hback (by simp)).trans hstate) hretry
    refine ⟨old, cur, hget, hcur, fun _ => hsame, fun hnot => ?_⟩
    rw [CoordinatedTx.isGuarded_congr hkept height, hguard, hrunning] at hnot
    cases hnot
  · obtain ⟨_, w₁, hnote, hfail⟩ := Prog.bind_ok.mp hbody
    obtain rfl := note_ok.mp hnote
    have hnot : old.isGuarded height = false := by
      rw [hguard]
      simpa using hout
    rcases Prog.ite_ok.mp hfail with ⟨-, hcascade⟩ | ⟨-, hchild⟩
    · exact hfailed (failAndCascade_fails (w := w.noted _) hget hstep hcascade) hnot rfl
    · exact hfailed (settleFailedChild_fails (w := w.noted _) hget hstep hchild) hnot rfl

/-- Classifying a rejected broadcast. -/
theorem classifyDispatchError_plainly {tx : CoordinatedTx} (height : BlockHeight)
    {feeInfo : FeeInfo} (hcopy : IsCopy tidy tx w) (hstate : tx.state = .toDispatch)
    (hfee : tx.speedup?.isSome → feeInfo = tx.feeInfo) :
    Plainly tidy .settle (classifyDispatchError tx tx.txid height feeInfo) ctx w := by
  apply Prog.Reaches.bind (plainly_of_calm query_calm)
  intro confirmations w₁ hquery
  have hcopy₁ := hcopy.after_calm (fun _ => query_calm) hquery
  split
  · exact markAccepted_plainly _ height hcopy₁ hstate hfee
  · exact markAlreadyConfirmed_plainly _ height hcopy₁ hstate
  · apply Prog.Reaches.bind (plainly_of_calm (missingInputKind_calm tx))
    intro missing w₂ hmissing
    have hcopy₂ := hcopy₁.after_calm (fun _ => missingInputKind_calm tx) hmissing
    cases missing with
    | none => exact retryOrFail_plainly height hcopy₂ hstate
    | some fundingMissing =>
      apply reaches_read
      apply Prog.Reaches.bind (excuseOrFail_plainly height fundingMissing hcopy₂ hstate)
      intro _ w₃ hexcuse
      apply note_plainly
      apply Plain.judged
      intro htidy
      exact excuseOrFail_judged hstate (hcopy₂.drift htidy) hexcuse

/-- A dispatch result that is handled names the transaction. -/
theorem CoordinatedTx.verifyTxId_ok {tx : CoordinatedTx} {txid : Txid} {u : Unit}
    (h : tx.verifyTxId txid = .ok u) : tx.txid = txid := by
  unfold CoordinatedTx.verifyTxId at h
  split at h
  · cases h
  · next hsame => exact not_not.mp hsame

/-- Handling one dispatch outcome. -/
theorem handleDispatchResult_plainly {tx : CoordinatedTx} (txid : Txid)
    (outcome : DispatchOutcome) (height : BlockHeight) {feeInfo : FeeInfo}
    (hcopy : IsCopy tidy tx w) (hstate : tx.state = .toDispatch)
    (hfee : tx.speedup?.isSome → feeInfo = tx.feeInfo) :
    Plainly tidy .settle (handleDispatchResult tx txid outcome height feeInfo) ctx w := by
  apply reaches_read
  apply Prog.Reaches.bind (Prog.Reaches.ofExcept _)
  intro _ w₁ hverify
  obtain ⟨hverified, rfl⟩ := Prog.ofExcept_ok.mp hverify
  obtain rfl := CoordinatedTx.verifyTxId_ok (Prog.mapError_ok.mp hverified)
  have houtcome : Plainly tidy .settle (handleOutcome tx tx.txid outcome height feeInfo) ctx w₁ := by
    cases outcome with
    | success => exact markAccepted_plainly _ height hcopy hstate hfee
    | fatal reason => exact failAndCascade_plainly height false hcopy.read
    | parentFailed parent => exact settleFailedChild_plainly height hcopy.read
    | dispatchError raw => exact classifyDispatchError_plainly height hcopy hstate hfee
  apply Prog.Reaches.seq houtcome
  intro _ _
  exact plainly_of_calm (note_calm (by trivial))

/-- Handling one dispatch outcome lets the other records drift at most. -/
theorem handleDispatchResult_keeps_other {J : Option CoordinatedTx → Prop} (hJ : DriftStable J)
    {id txid : Txid} {tx : CoordinatedTx} {outcome : DispatchOutcome} {height : BlockHeight}
    {feeInfo : FeeInfo} (hne : id ≠ tx.txid) :
    Prog.Keeps (RecordAt id J) (handleDispatchResult tx txid outcome height feeInfo) ctx := by
  have hrewrite : ∀ (updated : CoordinatedTx) (data : TypesToMonitor), updated.txid = tx.txid →
      Prog.Keeps (RecordAt id J)
        (do markReplaced tx txid; rewriteTx tx updated; monitorWatch data true) ctx := by
    intro updated data hid
    refine Prog.Keeps.seq (markReplaced_keeps hJ.mark tx txid) fun _ => ?_
    refine Prog.Keeps.seq ((spares_recordAt hne).putTx hid) fun _ => ?_
    exact keeps_of_calm fun _ => monitorWatch_calm _ _
  have hnote : ∀ e : Store → Event, Prog.Keeps (RecordAt id J) (note e) ctx := fun _ _ hw => hw
  have hretry : txid = tx.txid → Prog.Keeps (RecordAt id J) (markAsRetry txid) ctx := by
    rintro rfl
    exact (spares_recordAt hne).markAsRetry
  have hclassify : txid = tx.txid →
      Prog.Keeps (RecordAt id J) (classifyDispatchError tx txid height feeInfo) ctx := by
    intro hid
    refine Prog.Keeps.seq (keeps_of_calm fun _ => query_calm) fun confirmations => ?_
    rcases confirmations with _ | _ | depth
    rotate_left
    · exact hrewrite _ _ rfl
    · exact hrewrite _ _ rfl
    · refine Prog.Keeps.seq (keeps_of_calm fun _ => missingInputKind_calm tx) fun missing => ?_
      cases missing with
      | none =>
        refine Prog.Keeps.seq (Prog.Keeps.ask _) fun cfg => ?_
        refine Prog.Keeps.seq (hnote _) fun _ => ?_
        apply Prog.Keeps.ite <;> intro _
        · exact Prog.Keeps.seq (hnote _) fun _ => failAndCascade_keeps hJ tx height false
        · exact hretry hid
      | some fundingMissing =>
        refine Prog.Keeps.seq (Prog.Keeps.read _) fun before => ?_
        refine Prog.Keeps.seq ?_ fun _ => hnote _
        apply Prog.Keeps.ite <;> intro _
        · exact Prog.Keeps.seq (hnote _) fun _ => hretry hid
        · refine Prog.Keeps.seq (hnote _) fun _ => ?_
          apply Prog.Keeps.ite <;> intro _
          · exact failAndCascade_keeps hJ tx height true
          · exact settleFailedChild_keeps hJ tx height
  refine Prog.Keeps.seq (Prog.Keeps.read _) fun before => ?_
  refine Prog.Keeps.bind (Prog.Keeps.ofExcept _) ?_
  intro w _ w₁ hw hverify
  obtain ⟨hverified, rfl⟩ := Prog.ofExcept_ok.mp hverify
  have hid := CoordinatedTx.verifyTxId_ok (Prog.mapError_ok.mp hverified)
  refine Prog.Keeps.seq ?_ (fun _ => hnote _) w₁ hw
  cases outcome with
  | success => exact hrewrite _ _ rfl
  | fatal reason => exact failAndCascade_keeps hJ tx height false
  | parentFailed parent => exact settleFailedChild_keeps hJ tx height
  | dispatchError raw => exact hclassify hid.symm

/-! ### The outcomes of a batch -/

/-- Deciding outcomes names each transaction at most once, in order. -/
theorem dispatchValid_sublist {txs : List CoordinatedTx} {results : List (Txid × DispatchOutcome)}
    {w' : World} (hrun : dispatchValid txs ctx w = (.ok results, w')) :
    (results.map Prod.fst).Sublist (txs.map CoordinatedTx.txid) := by
  induction txs generalizing w results with
  | nil =>
    obtain ⟨rfl, -⟩ := Prog.pure_ok.mp hrun
    exact List.Sublist.refl _
  | cons tx rest ih =>
    obtain ⟨outcome, w₁, hone, hbody⟩ := Prog.bind_ok.mp hrun
    obtain ⟨outcomes, w₂, hrest, hpure⟩ := Prog.bind_ok.mp hbody
    obtain ⟨rfl, rfl⟩ := Prog.pure_ok.mp hpure
    have hnamed : ∀ result, outcome = some result → result.1 = tx.txid := by
      rintro result rfl
      obtain ⟨failedParent, w₃, hread, hbody⟩ := Prog.bind_ok.mp hone
      cases failedParent with
      | some parent =>
        obtain ⟨hsome, -⟩ := Prog.pure_ok.mp hbody
        cases hsome
        rfl
      | none =>
        obtain ⟨ready, w₄, -, hsend⟩ := Prog.bind_ok.mp hbody
        rcases Prog.ite_ok.mp hsend with ⟨-, hsend⟩ | ⟨-, hpure⟩
        · obtain ⟨sent, w₅, -, hpure⟩ := Prog.bind_ok.mp hsend
          obtain ⟨hsome, -⟩ := Prog.pure_ok.mp hpure
          cases hsome
          rfl
        · obtain ⟨hnone, -⟩ := Prog.pure_ok.mp hpure
          cases hnone
    cases outcome with
    | none => exact (ih hrest).cons _
    | some result =>
      change (result.1 :: outcomes.map Prod.fst).Sublist _
      rw [hnamed result rfl]
      exact (ih hrest).cons_cons _

/-- A batch without duplicates has at most one outcome for each of its transactions. -/
theorem dispatch_nodup {txs : List CoordinatedTx} {results : List (Txid × DispatchOutcome)}
    {w' : World} (hnodup : (txs.map CoordinatedTx.txid).Nodup)
    (hrun : dispatch txs ctx w = (.ok results, w')) : (results.map Prod.fst).Nodup := by
  obtain ⟨cfg, w₁, hcfg, hbody⟩ := Prog.bind_ok.mp hrun
  obtain ⟨sent, w₂, hsent, hpure⟩ := Prog.bind_ok.mp hbody
  obtain ⟨rfl, -⟩ := Prog.pure_ok.mp hpure
  have hrefused : ((txs.filterMap fun tx => (cfg.dispatcher.refusal? tx).map fun msg =>
      (tx.txid, DispatchOutcome.fatal msg)).map Prod.fst) =
        (txs.filter fun tx => !(cfg.dispatcher.refusal? tx).isNone).map CoordinatedTx.txid := by
    clear hnodup hrun hbody hsent hpure
    induction txs with
    | nil => rfl
    | cons tx rest ih =>
      rw [List.filterMap_cons, List.filter_cons]
      cases cfg.dispatcher.refusal? tx with
      | none => simpa using ih
      | some msg => simpa using ih
  have hsplit : ((txs.filter fun tx => !(cfg.dispatcher.refusal? tx).isNone).map CoordinatedTx.txid ++
      (txs.filter fun tx => (cfg.dispatcher.refusal? tx).isNone).map CoordinatedTx.txid).Nodup := by
    rw [← List.map_append]
    apply (List.Perm.nodup_iff (List.Perm.map _ ?_)).mpr hnodup
    exact List.perm_append_comm.trans (List.filter_append_perm _ txs)
  rw [List.map_append, hrefused]
  exact List.Nodup.sublist (List.Sublist.append_left (dispatchValid_sublist hsent) _) hsplit

/-- The transactions of a batch are copies, and the outcomes still to be handled name distinct ones. -/
def BatchReady (tidy : Prop) (txs : List CoordinatedTx) (results : List (Txid × DispatchOutcome))
    (w : World) : Prop :=
  (tidy → (results.map Prod.fst).Nodup) ∧
    ∀ result ∈ results, ∀ tx ∈ txs, tx.txid = result.1 → IsCopy tidy tx w

/-- Handling the outcome of one transaction leaves the others of the batch ready. -/
theorem BatchReady.next {txs : List CoordinatedTx} {result : Txid × DispatchOutcome}
    {rest : List (Txid × DispatchOutcome)} {tx : CoordinatedTx} {height : BlockHeight}
    {feeInfo : FeeInfo} {w' : World} {u : Unit} (h : BatchReady tidy txs (result :: rest) w)
    (htx : tx ∈ txs) (hid : tx.txid = result.1) (hstate : tx.state = .toDispatch)
    (hfee : tx.speedup?.isSome → feeInfo = tx.feeInfo)
    (hrun : handleDispatchResult tx result.1 result.2 height feeInfo ctx w = (.ok u, w')) :
    BatchReady tidy txs rest w' := by
  obtain ⟨hnodup, hcopies⟩ := h
  refine ⟨fun htidy => (List.nodup_cons.mp (hnodup htidy)).2, ?_⟩
  intro later hlater other hother hnamed
  apply (hcopies later (List.mem_cons_of_mem _ hlater) other hother hnamed).after
    (handleDispatchResult_plainly _ _ _ (hcopies result List.mem_cons_self tx htx hid) hstate hfee)
    (fun htidy => handleDispatchResult_keeps_other (driftStable_drifted other) ?_) hrun
  rw [hnamed, hid]
  intro heq
  have hfirst : result.1 ∉ rest.map Prod.fst := (List.nodup_cons.mp (hnodup htidy)).1
  exact hfirst (List.mem_map.mpr ⟨later, hlater, heq⟩)

/-! ### The transaction engine -/

/-- Reviewing one client transaction. -/
theorem reviewTransaction_plainly {tx : CoordinatedTx} (height : BlockHeight)
    (hflight : tx.isInFlight) (hcopy : IsCopy tidy tx w) :
    Plainly tidy .settle (reviewTransaction height tx) ctx w := by
  apply reaches_settings
  apply Prog.Reaches.bind (plainly_of_calm query_calm)
  intro status w₁ hquery
  have hcopy₁ := hcopy.after_calm (fun _ => query_calm) hquery
  apply Prog.Reaches.ite <;> intro _
  · apply Prog.Reaches.ite <;> intro hstate
    · exact rewriteTx_plainly hcopy₁ (Rewrite.reorg height hstate)
    · apply Prog.Reaches.ite <;> intro _
      · exact plainly_of_calm (publish_calm _)
      · exact Prog.Reaches.pure _
  apply Prog.Reaches.ite <;> intro _
  · apply Prog.Reaches.bind (plainly_of_calm (note_calm (by trivial)))
    intro _ w₂ hnote
    obtain rfl := note_ok.mp hnote
    exact requeueNotFound_plainly hflight (hcopy₁.noted (by simp)).drift rfl
  apply Prog.Reaches.ite <;> intro _
  · exact markFinalized_plainly height hflight hcopy₁.drift
  apply Prog.Reaches.ite <;> intro _
  · exact updateTxState_plainly (Or.inr rfl) hflight hcopy₁.drift
  apply Prog.Reaches.ite <;> intro _
  · exact updateTxState_plainly (Or.inl rfl) hflight hcopy₁.drift
  · exact Prog.Reaches.pure _

/-- Reviewing one client transaction writes its record at most. -/
theorem reviewTransaction_keeps {I : World → Prop} {tx : CoordinatedTx} {height : BlockHeight}
    (hI : Spares tx.txid I) : Prog.Keeps I (reviewTransaction height tx) ctx := by
  refine Prog.Keeps.seq (Prog.Keeps.ask _) fun cfg => ?_
  refine Prog.Keeps.seq (hI.calm fun _ => query_calm) fun status => ?_
  apply Prog.Keeps.ite <;> intro _
  · apply Prog.Keeps.ite <;> intro _
    · exact hI.putTx rfl
    · apply Prog.Keeps.ite <;> intro _
      · exact hI.calm fun _ => publish_calm _
      · exact Prog.Keeps.pure _
  apply Prog.Keeps.ite <;> intro _
  · exact Prog.Keeps.seq (fun w hw => hI.noted w _ hw) fun _ => hI.requeueNotFound
  apply Prog.Keeps.ite <;> intro _
  · exact hI.settleTx
  apply Prog.Keeps.ite <;> intro _
  · exact hI.updateTxStateImpl
  apply Prog.Keeps.ite <;> intro _
  · exact hI.updateTxStateImpl
  · exact Prog.Keeps.pure _

/-- A copy whose record has at most drifted from it and, of a speedup, is listed. -/
def IsKept (copy : CoordinatedTx) (w : World) : Prop := StillStored copy w ∧ copy.IsListed w

/-- The writes of one record leave the copies of the others alone. -/
theorem spares_isKept {copy : CoordinatedTx} {id : Txid} (hne : copy.txid ≠ id) :
    Spares id (IsKept copy) where
  quiet := by
    rintro w w' ⟨hstored, hlisted⟩ hquiet
    refine ⟨(spares_recordAt hne).quiet w w' hstored hquiet, fun hspeedup => ?_⟩
    rw [hquiet.speedupList_eq]
    exact hlisted hspeedup
  noted := fun _ _ hw => hw
  put := fun w tx hid hw => ⟨(spares_recordAt hne).put w tx hid hw.1, hw.2⟩

/-- The copies a review still has to go through, of distinct transactions. -/
def ReviewReady (tidy : Prop) (txs : List CoordinatedTx) (w : World) : Prop :=
  (tidy → (txs.map CoordinatedTx.txid).Nodup) ∧ ∀ tx ∈ txs, IsCopy tidy tx w

/-- A review goes through its copies by steps when one round does and keeps the other copies. -/
theorem review_stepwise {txs : List CoordinatedTx} {body : CoordinatedTx → Coord Unit}
    (hbody : ∀ tx ∈ txs, ∀ w, IsCopy tidy tx w → Stepwise tidy .settle (body tx) ctx w)
    (hkeeps : ∀ tx (other : CoordinatedTx), other.txid ≠ tx.txid →
      Prog.Keeps (IsKept other) (body tx) ctx)
    (hready : ReviewReady tidy txs w) : Stepwise tidy .settle (Prog.forEach txs body) ctx w := by
  apply Prog.Walks.forEach_inv (fun rest w => rest ⊆ txs ∧ ReviewReady tidy rest w)
  · rintro tx rest w ⟨hsub, -, hcopies⟩
    exact hbody tx (hsub List.mem_cons_self) w (hcopies tx List.mem_cons_self)
  · rintro tx rest w w' u ⟨hsub, hnodup, hcopies⟩ hrun
    have hsteps := hbody tx (hsub List.mem_cons_self) w (hcopies tx List.mem_cons_self)
    refine ⟨fun other hother => hsub (List.mem_cons_of_mem _ hother),
      fun htidy => (List.nodup_cons.mp (hnodup htidy)).2, ?_⟩
    intro other hother
    have hcopy := hcopies other (List.mem_cons_of_mem _ hother)
    have hkept : tidy → IsKept other w' := by
      intro htidy
      refine (hkeeps tx other fun heq => ?_).run ⟨hcopy.drift htidy, hcopy.listed htidy⟩ hrun
      have hout : tx.txid ∉ rest.map CoordinatedTx.txid := (List.nodup_cons.mp (hnodup htidy)).1
      exact hout (List.mem_map.mpr ⟨other, hother, heq⟩)
    refine ⟨?_, fun htidy => (hkept htidy).1, fun htidy => (hkept htidy).2⟩
    exact Stepwise.keeps hsteps (fun _ _ hread hmove => hread.settle hmove) hcopy.read hrun
  · exact ⟨List.Subset.refl _, hready⟩

/-- The client records of a scan are copies of distinct transactions. -/
theorem reviewReady_values {p : CoordinatedTx → Bool} (hp : ∀ tx, p tx → tx.speedup? = none) :
    ReviewReady tidy (w.store.txs.values.filter p) w := by
  refine ⟨fun _ => ?_, ?_⟩
  · exact List.Nodup.sublist (List.Sublist.map _ List.filter_sublist) w.store.values_nodup
  · intro tx htx
    obtain ⟨hvalues, hclient⟩ := List.mem_filter.mp htx
    apply isCopy_of_get (Store.mem_values.mp hvalues)
    intro hspeedup
    rw [hp tx hclient] at hspeedup
    cases hspeedup

/-- Step 1. -/
theorem reviewActive_stepwise : Stepwise tidy .settle reviewActive ctx w := by
  apply Prog.Walks.bind (stepwise_of_calm query_calm)
  intro height _ hasked
  apply Prog.Walks.seq (evictStaleTxs_stepwise (query_ok.mp hasked).1)
  intro _ w₁
  apply walks_read
  apply review_stepwise
  · intro tx htx w hcopy
    have hreviewable := (List.mem_filter.mp htx).2
    unfold CoordinatedTx.isReviewable at hreviewable
    exact stepwise_of_plainly
      (reviewTransaction_plainly height (Bool.and_eq_true_iff.mp hreviewable).2 hcopy)
  · intro tx other hne
    exact reviewTransaction_keeps (spares_isKept hne)
  · rw [List.filter_filter]
    apply reviewReady_values
    intro tx htx
    simp only [CoordinatedTx.isReviewable, Bool.and_eq_true, Option.isNone_iff_eq_none] at htx
    exact htx.1.1

/-- The retry window only drops transactions. -/
theorem applyRetryRateLimit_sublist {txs kept : List CoordinatedTx} {w' : World}
    (hrun : applyRetryRateLimit txs ctx w = (.ok kept, w')) : kept.Sublist txs := by
  obtain ⟨ready, w₁, -, hrun⟩ := Prog.bind_ok.mp hrun
  rcases Prog.ite_ok.mp hrun with ⟨-, hrun⟩ | ⟨-, hrun⟩
  · obtain ⟨u, w₂, -, hpure⟩ := Prog.bind_ok.mp hrun
    obtain ⟨rfl, -⟩ := Prog.pure_ok.mp hpure
    exact List.Sublist.refl _
  · obtain ⟨rfl, -⟩ := Prog.pure_ok.mp hrun
    exact List.filter_sublist

/-- The transaction found in a batch has the identifier asked for. -/
theorem findTxInBatch_ok {txs : List CoordinatedTx} {txid : Txid} {tx : CoordinatedTx}
    (h : findTxInBatch txs txid = .ok tx) : tx ∈ txs ∧ tx.txid = txid := by
  unfold findTxInBatch at h
  split at h
  · next found hfind =>
    cases h
    exact ⟨List.mem_of_find?_eq_some hfind, by simpa using List.find?_some hfind⟩
  · cases h

/-- A batch read from the store is ready once it was dispatched. -/
theorem BatchReady.dispatched {txs : List CoordinatedTx} {results : List (Txid × DispatchOutcome)}
    {w' : World} (hready : ReviewReady tidy txs w)
    (hrun : dispatch txs ctx w = (.ok results, w')) : BatchReady tidy txs results w' := by
  refine ⟨fun htidy => dispatch_nodup (hready.1 htidy) hrun, ?_⟩
  intro _ _ tx htx _
  exact (hready.2 tx htx).after (plainly_of_sends (dispatch_sends txs))
    (fun _ => keeps_of_sends fun _ => dispatch_sends txs) hrun

/-- Handling the outcomes of a batch of client transactions. -/
theorem handleBatch_plainly {txs : List CoordinatedTx} {results : List (Txid × DispatchOutcome)}
    (feeRate : ℕ) (height : BlockHeight)
    (htxs : ∀ tx ∈ txs, tx.state = .toDispatch ∧ tx.speedup? = none)
    (hready : BatchReady tidy txs results w) :
    Plainly tidy .settle (Prog.forEach results (handleBatchResult txs feeRate height)) ctx w := by
  have hfee : ∀ tx ∈ txs, tx.speedup?.isSome → computeFeeForTx tx.tx feeRate = tx.feeInfo := by
    intro tx htx hspeedup
    rw [(htxs tx htx).2] at hspeedup
    cases hspeedup
  apply Prog.Reaches.forEach_inv (BatchReady tidy txs)
  · intro result rest w hready
    apply Prog.Reaches.bind (Prog.Reaches.ofExcept _)
    intro tx w' hfind
    obtain ⟨hfound, rfl⟩ := Prog.ofExcept_ok.mp hfind
    obtain ⟨hin, hid⟩ := findTxInBatch_ok (Prog.mapError_ok.mp hfound)
    exact handleDispatchResult_plainly _ _ _
      (hready.2 result List.mem_cons_self tx hin hid) (htxs tx hin).1 (hfee tx hin)
  · intro result rest w w' u hready hrun
    obtain ⟨tx, w₁, hfind, hhandle⟩ := Prog.bind_ok.mp hrun
    obtain ⟨hfound, rfl⟩ := Prog.ofExcept_ok.mp hfind
    obtain ⟨hin, hid⟩ := findTxInBatch_ok (Prog.mapError_ok.mp hfound)
    exact hready.next hin hid (htxs tx hin).1 (hfee tx hin) hhandle
  · exact hready

/-- Step 3 for one batch of client transactions. -/
theorem dispatchBatch_plainly {txs : List CoordinatedTx} (height : BlockHeight)
    (htxs : ∀ tx ∈ txs, tx.state = .toDispatch ∧ tx.speedup? = none) (hready : ReviewReady tidy txs w) :
    Plainly tidy .settle (dispatchBatch txs height) ctx w := by
  apply Prog.Reaches.bind (plainly_of_calm getNetworkFeeRate_calm)
  intro fee w₁ hfee
  apply Prog.Reaches.bind (plainly_of_calm (publishFeeNews_calm _))
  intro _ w₂ hnews
  apply Prog.Reaches.bind (plainly_of_calm (applyRetryRateLimit_calm _))
  intro kept w₃ hlimit
  have hsub := applyRetryRateLimit_sublist hlimit
  have hkept : ReviewReady tidy kept w₃ := by
    refine ⟨fun htidy => List.Nodup.sublist (hsub.map _) (hready.1 htidy), ?_⟩
    intro tx htx
    have hcopy₁ := (hready.2 tx (hsub.subset htx)).after_calm (fun _ => getNetworkFeeRate_calm) hfee
    have hcopy₂ := hcopy₁.after_calm (fun _ => publishFeeNews_calm _) hnews
    exact hcopy₂.after_calm (fun _ => applyRetryRateLimit_calm _) hlimit
  apply Prog.Reaches.bind (plainly_of_sends (dispatch_sends _))
  intro results w₄ hdispatch
  exact handleBatch_plainly _ height (fun tx htx => htxs tx (hsub.subset htx))
    (BatchReady.dispatched hkept hdispatch)

/-- Step 3. -/
theorem dispatchPending_plainly : Plainly tidy .settle dispatchPending ctx w := by
  apply Prog.Reaches.seq (plainly_of_calm query_calm)
  intro height w₁
  apply reaches_read
  split
  · exact Prog.Reaches.pure _
  · next tx rest heq =>
    rw [← heq]
    apply dispatchBatch_plainly
    · intro c hc
      have hp := (List.mem_filter.mp hc).2
      simp only [CoordinatedTx.isDispatchable, Bool.and_eq_true, decide_eq_true_eq,
        Option.isNone_iff_eq_none] at hp
      exact ⟨hp.1.2, hp.1.1⟩
    · rw [List.filter_filter]
      apply reviewReady_values
      intro c hc
      simp only [CoordinatedTx.isDispatchable, Bool.and_eq_true, Option.isNone_iff_eq_none] at hc
      exact hc.1.1.1

end BitcoinCoordinator
