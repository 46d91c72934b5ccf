import BitcoinCoordinator.Moves

/-!
# What the storage functions do, move by move

One lemma for each function of the source that makes plain moves only: whatever it is answered and
wherever it stops, the world it leaves is reached by plain moves. Where it touches no transaction
record they are quiet.
-/

namespace BitcoinCoordinator

open Foundation

/-- A computation that touches no transaction record, wherever it stops. -/
abbrev Calm {α : Type} (m : Coord α) (ctx : Ctx) (w : World) : Prop := Prog.Reaches Quiet m ctx w

/-- A computation started in a world makes plain moves only, wherever it stops. -/
abbrev Plainly {α : Type} (tidy : Prop) (phase : Phase) (m : Coord α) (ctx : Ctx) (w : World) :
    Prop :=
  Prog.Reaches (Plain ctx tidy phase) m ctx w

variable {α β : Type} {ctx : Ctx} {tidy : Prop} {phase : Phase} {w : World}

/-- Quiet moves are plain. -/
theorem plainly_of_calm {m : Coord α} (h : Calm m ctx w) : Plainly tidy phase m ctx w :=
  Prog.Reaches.mono h fun _ _ hquiet => Plain.quiet hquiet

/-- A calm computation leaves the records alone. -/
theorem calm_txs {m : Coord α} {a : Except Stop α} {w' : World} (h : Calm m ctx w)
    (hrun : m ctx w = (a, w')) : w'.store.txs = w.store.txs := by
  have hkeep := h.keeps (I := fun w₁ => w₁.store.txs = w.store.txs)
    (fun w₁ w₂ h₁ h₂ => h₂.txs_eq.trans h₁) rfl
  simpa [hrun] using hkeep

/-- A calm computation keeps the speedup list. -/
theorem calm_speedupList {m : Coord α} {a : Except Stop α} {w' : World} (h : Calm m ctx w)
    (hrun : m ctx w = (a, w')) : w'.store.speedupList = w.store.speedupList := by
  have hkeep := h.keeps (I := fun w₁ => w₁.store.speedupList = w.store.speedupList)
    (fun w₁ w₂ h₁ h₂ => h₂.speedupList_eq.trans h₁) rfl
  simpa [hrun] using hkeep

/-- A calm computation signs nothing. -/
theorem calm_lastSigned {m : Coord α} {a : Except Stop α} {w' : World} (h : Calm m ctx w)
    (hrun : m ctx w = (a, w')) : lastSigned w'.log = lastSigned w.log := by
  have hkeep := h.keeps (I := fun w₁ => lastSigned w₁.log = lastSigned w.log)
    (fun w₁ w₂ h₁ h₂ => h₂.lastSigned_eq.trans h₁) rfl
  simpa [hrun] using hkeep

/-! ### Primitives -/

/-- Reading the store takes no move and hands on what is there. -/
theorem reaches_read {move : World → World → Prop} {f : Store → α} {k : α → Coord β}
    (h : Prog.Reaches move (k (f w.store)) ctx w) :
    Prog.Reaches move (readStore f >>= k) ctx w := h

/-- Reading the settings takes no move. -/
theorem reaches_settings {move : World → World → Prop} {k : BitcoinSettings → Coord β}
    (h : Prog.Reaches move (k ctx.settings) ctx w) :
    Prog.Reaches move (settings >>= k) ctx w := h

/-- A remark is one quiet move. -/
theorem note_calm {e : Store → Event} (h : (e w.store).IsRemark) : Calm (note e) ctx w :=
  Relation.ReflTransGen.single (Quiet.noted _ h)

/-- A noted moment is one move. -/
theorem note_plainly {e : Store → Event} (h : Plain ctx tidy phase w (w.noted (e w.store))) :
    Plainly tidy phase (note e) ctx w :=
  Relation.ReflTransGen.single h

/-- A question is one quiet move, answered or not. -/
theorem query_calm {wrap : String → BitcoinCoordinatorError}
    {question : Answers → ℕ → Except String α} : Calm (query wrap question) ctx w := by
  unfold Calm Prog.Reaches query
  split <;> exact Relation.ReflTransGen.single Quiet.asked

/-- A question whose error the caller handles is one quiet move. -/
theorem attempt_calm {question : Answers → ℕ → Except String α} :
    Calm (attempt question) ctx w :=
  Relation.ReflTransGen.single Quiet.asked

/-- A question that is always answered is one quiet move. -/
theorem ask_calm {question : Answers → ℕ → α} : Calm (ask question) ctx w :=
  Relation.ReflTransGen.single Quiet.asked

/-- A write is one move, taken or refused, of a relation that asking belongs to. -/
theorem writeStore_reaches {move : World → World → Prop} {f : Store → Store}
    (hasked : move w w.asked) (h : move w (w.written (f w.store))) :
    Prog.Reaches move (writeStore f) ctx w := by
  unfold Prog.Reaches writeStore
  split
  · exact Relation.ReflTransGen.single h
  · exact Relation.ReflTransGen.single hasked

/-- A quiet write is one quiet move. -/
theorem writeStore_calm {f : Store → Store} (h : QuietWrite w.store (f w.store)) :
    Calm (writeStore f) ctx w :=
  writeStore_reaches Quiet.asked (Quiet.wrote _ h)

/-- A write of the news is one quiet move, taken or refused. -/
theorem writeNews_calm {f : List StoredNewsItem → List StoredNewsItem} :
    Calm (writeNews f) ctx w := by
  unfold Calm Prog.Reaches writeNews
  split
  · exact Relation.ReflTransGen.single (Quiet.published _)
  · exact Relation.ReflTransGen.single Quiet.asked

/-- Changing a tracked record is one move. -/
theorem updateTx_plainly {tx tx' : CoordinatedTx} {txid : Txid}
    (hget : w.store.txs.get txid = some tx) (hchange : Change tidy w.log tx phase tx')
    (hinfo : KeepsInfo ctx tx tx') : Plainly tidy phase (updateTx tx') ctx w := by
  have hid : tx.txid = txid := w.store.keyed txid tx hget
  rw [← hid] at hget
  exact writeStore_reaches (Plain.quiet Quiet.asked) (Plain.changed tx tx' hget hchange hinfo)

/-- A record put over a version: the write and its note are one move of a relation that asking
belongs to. -/
theorem putTx_reaches {move : World → World → Prop} {event : Store → Event} {tx : CoordinatedTx}
    (hasked : move w w.asked)
    (hmove : move w ((w.written (w.store.setTx tx)).noted (event w.store))) :
    Prog.Reaches move (putTx event tx) ctx w := by
  apply reaches_read
  change Relation.ReflTransGen _ w (Prog.bind (insertTx tx) _ ctx w).2
  unfold Prog.bind insertTx writeStore
  cases hst : ctx.answers.storage w.clock with
  | ok u => exact Relation.ReflTransGen.single hmove
  | error e => exact Relation.ReflTransGen.single hasked

/-- A record put over a version is one move. -/
theorem putTx_plainly {event : Store → Event} {tx : CoordinatedTx}
    (h : Plain ctx tidy phase w ((w.written (w.store.setTx tx)).noted (event w.store))) :
    Plainly tidy phase (putTx event tx) ctx w :=
  putTx_reaches (Plain.quiet Quiet.asked) h

/-! ### News and pending parents -/

/-- An addition is refused when the value is stored, and puts it behind the others otherwise. Either way
the store stays. -/
theorem addNews_cases {news : CoordinatorNews} {inserted : Bool}
    (h : addNews news ctx w = (.ok inserted, w')) :
    w'.store = w.store ∧
      ((inserted = false ∧ news ∈ w.news.map StoredNewsItem.news ∧ w'.news = w.news) ∨
        (inserted = true ∧ news ∉ w.news.map StoredNewsItem.news ∧
          w'.news = w.news ++ [⟨news, none⟩])) := by
  obtain ⟨all, w₁, hread, hbody⟩ := Prog.bind_ok.mp h
  obtain ⟨rfl, hw₁⟩ := Prog.read_ok.mp hread
  subst w₁
  have hstored : (w.news.any fun item => item.news = news) = true ↔
      news ∈ w.news.map StoredNewsItem.news := by simp
  rcases Prog.ite_ok.mp hbody with ⟨hany, hrun⟩ | ⟨hnone, hrun⟩
  · obtain ⟨rfl, rfl⟩ := Prog.pure_ok.mp hrun
    exact ⟨rfl, Or.inl ⟨rfl, hstored.mp hany, rfl⟩⟩
  · obtain ⟨u, w₂, hwrite, hpure⟩ := Prog.bind_ok.mp hrun
    obtain ⟨-, rfl⟩ := writeNews_ok.mp hwrite
    obtain ⟨rfl, rfl⟩ := Prog.pure_ok.mp hpure
    exact ⟨rfl, Or.inr ⟨rfl, fun hmem => hnone (hstored.mpr hmem), rfl⟩⟩

/-- Storing a news item is quiet. -/
theorem addNews_calm (news : CoordinatorNews) : Calm (addNews news) ctx w := by
  apply Prog.Reaches.seq (Prog.Reaches.read _)
  intro all _
  apply Prog.Reaches.ite
  · intro _
    exact Prog.Reaches.pure _
  · intro _
    apply Prog.Reaches.seq writeNews_calm
    intro _ _
    exact Prog.Reaches.pure _

/-- Publishing a news item is quiet. -/
theorem publish_calm (news : CoordinatorNews) :
    Calm (do let _ ← addNews news; pure ()) ctx w := by
  apply Prog.Reaches.seq (addNews_calm news)
  intro _ _
  exact Prog.Reaches.pure _

/-- Dropping old news is quiet. -/
theorem cleanupNews_calm (height : BlockHeight) : Calm (cleanupNews height) ctx w :=
  writeNews_calm

/-- Acknowledging news is quiet. -/
theorem ackNews_calm (news : CoordinatorNews) (height : BlockHeight) :
    Calm (ackNews news height) ctx w :=
  writeNews_calm

/-- Prepending parents to the pending list is quiet. -/
theorem prependPendingSpeedupParents_calm {txids : List Txid}
    (hneeds : ∀ txid ∈ txids, w.store.isNeedsSpeedup txid) (hrequeue : IsRequeue txids w) :
    Calm (prependPendingSpeedupParents txids) ctx w := by
  apply reaches_read
  apply Prog.Reaches.ite
  · intro _
    exact Prog.Reaches.pure _
  · intro _
    exact writeStore_reaches Quiet.asked (Quiet.prepended txids hneeds hrequeue)

/-- Dropping from the pending list is quiet. -/
theorem removePendingSpeedupParent_calm (txid : Txid) :
    Calm (removePendingSpeedupParent txid) ctx w := by
  apply reaches_read
  apply Prog.Reaches.ite
  · intro _
    exact writeStore_calm (QuietWrite.unpended txid)
  · intro _
    exact Prog.Reaches.pure _

/-- Walking the pending list is quiet. -/
theorem collectPendingParents_calm (txids : List Txid) :
    Calm (collectPendingParents txids) ctx w := by
  induction txids generalizing w with
  | nil => exact Prog.Reaches.pure _
  | cons txid rest ih =>
    have hskip : Calm (do removePendingSpeedupParent txid; collectPendingParents rest) ctx w :=
      Prog.Reaches.seq (removePendingSpeedupParent_calm txid) fun _ _ => ih
    apply reaches_read
    split
    · exact hskip
    · next tx hget =>
      have htake : Calm (do let live ← collectPendingParents rest; pure (tx :: live)) ctx w :=
        Prog.Reaches.seq ih fun _ _ => Prog.Reaches.pure _
      cases tx.state with
      | toDispatch => exact ih
      | inMempool => exact htake
      | confirmed => exact htake
      | finalized => exact htake
      | failed => exact hskip

/-- Reading the pending parents is quiet. -/
theorem getPendingSpeedupParents_calm : Calm getPendingSpeedupParents ctx w :=
  reaches_read (collectPendingParents_calm _)

/-- Requeueing the parents of a failed CPFP is quiet. -/
theorem requeueProtocolParents_calm {tx : CoordinatedTx} (hread : WasStored tx w) :
    Calm (requeueProtocolParents tx) ctx w := by
  unfold requeueProtocolParents
  split
  · next parents context hkind =>
    apply reaches_read
    apply prependPendingSpeedupParents_calm
    · intro txid htxid
      exact (List.mem_filter.mp htxid).2
    · refine Or.inr ⟨tx, .cpfp parents context, hread, ?_, List.filter_sublist⟩
      unfold CoordinatedTx.speedup?
      rw [hkind]
  · exact Prog.Reaches.pure _

/-! ### Lifecycle -/

/-- A drifted record that can take a step other than failing is in the state of its copy. -/
theorem Drifted.state_eq {copy record : CoordinatedTx} {target : TransactionState}
    (h : Drifted copy record) (hstep : record.state.canTransitionTo target)
    (htarget : target ≠ .failed) : record.state = copy.state := by
  rcases h.state with ⟨hstate, -⟩ | ⟨-, hfailed, -⟩
  · exact hstate
  · rw [hfailed] at hstep
    exact absurd (TransactionState.canTransitionTo_of_isTerminal rfl hstep).symm htarget

/-- A drifted record that can take a step other than failing is in flight when its copy is. -/
theorem Drifted.isInFlight {copy record : CoordinatedTx} {target : TransactionState}
    (h : Drifted copy record) (hflight : copy.isInFlight) (hstep : record.state.canTransitionTo target)
    (htarget : target ≠ .failed) : record.isInFlight := by
  unfold CoordinatedTx.isInFlight at hflight ⊢
  rw [h.state_eq hstep htarget]
  exact hflight

/-- The record found is the one a copy has drifted to. -/
theorem StillStored.drifted {copy record : CoordinatedTx} (h : StillStored copy w)
    (hget : w.store.txs.get copy.txid = some record) : Drifted copy record := by
  obtain ⟨cur, hcur, hdrift⟩ := h
  rw [hget] at hcur
  cases hcur
  exact hdrift

/-- A lifecycle step of a transaction in flight, or the news why not. -/
theorem updateTxState_plainly {copy : CoordinatedTx} {state : TransactionState}
    (hstate : state = .inMempool ∨ state = .confirmed) (hflight : copy.isInFlight)
    (hdrift : tidy → StillStored copy w) :
    Plainly tidy .settle (updateTxState copy.txid state) ctx w := by
  have hactive : state.isTerminal = false := by rcases hstate with rfl | rfl <;> rfl
  apply Prog.Reaches.ite
  · intro hargs
    rw [hactive] at hargs
    exact absurd hargs.1 (by simp)
  intro _
  apply reaches_read
  split
  case h_1 => exact plainly_of_calm (publish_calm _)
  case h_2 tx hget =>
    apply Prog.Reaches.ite <;> intro hstep
    · have hmove : Plainly tidy .settle (updateTx { tx with state := state }) ctx w := by
        refine updateTx_plainly hget ?_ (Or.inl rfl)
        apply Change.advance state hstep hstate
        intro htidy
        apply ((hdrift htidy).drifted hget).isInFlight hflight hstep
        rintro rfl
        cases hactive
      simpa [hactive] using hmove
    · exact plainly_of_calm (publish_calm _)

/-- Settling a transaction in a terminal state, when the write is a valid change. -/
theorem settleTx_plainly {txid : Txid} {state : TransactionState} {height : BlockHeight}
    (hterminal : state.isTerminal = true)
    (hchange : ∀ tx, w.store.txs.get txid = some tx → tx.state.canTransitionTo state →
      Change tidy w.log tx .settle { tx with settledBlockHeight := some height, state := state }) :
    Plainly tidy .settle (settleTx txid state height) ctx w := by
  apply Prog.Reaches.ite
  · intro _
    apply Prog.Reaches.ite
    · intro _
      exact Prog.Reaches.stop _
    intro _
    apply reaches_read
    split
    case h_1 => exact plainly_of_calm (publish_calm _)
    case h_2 tx hget =>
      apply Prog.Reaches.ite <;> intro hstep
      · have hmove : Plainly tidy .settle
            (updateTx { tx with settledBlockHeight := some height, state := state }) ctx w :=
          updateTx_plainly hget (hchange tx hget hstep) (Or.inl rfl)
        simpa [hterminal] using hmove
      · exact plainly_of_calm (publish_calm _)
  · intro _
    exact Prog.Reaches.stop _

/-- Settling a transaction as failed. -/
theorem settleFailed_plainly (txid : Txid) (height : BlockHeight) :
    Plainly tidy .settle (settleTx txid .failed height) ctx w :=
  settleTx_plainly rfl fun _ _ hstep => Change.fail height hstep

/-- Settling a transaction in flight as finalized. -/
theorem markFinalized_plainly {copy : CoordinatedTx} (height : BlockHeight)
    (hflight : copy.isInFlight) (hdrift : tidy → StillStored copy w) :
    Plainly tidy .settle (markFinalized copy.txid height) ctx w := by
  apply settleTx_plainly rfl
  intro tx hget hstep
  apply Change.finalize height hstep
  intro htidy
  exact ((hdrift htidy).drifted hget).isInFlight hflight hstep (by simp)

/-- Putting a record back to dispatch. -/
theorem requeueWith_plainly {txid : Txid} {write : CoordinatedTx → Coord Unit}
    (hwrite : ∀ tx : CoordinatedTx, w.store.txs.get txid = some tx →
      tx.state.canTransitionTo .toDispatch →
        Plainly tidy .settle (write { tx with state := .toDispatch }) ctx w) :
    Plainly tidy .settle (requeueWith txid write) ctx w := by
  apply reaches_read
  split
  case h_1 => exact plainly_of_calm (publish_calm _)
  case h_2 tx hget =>
    apply Prog.Reaches.ite
    · intro hstep
      exact hwrite tx hget hstep
    · intro _
      exact plainly_of_calm (publish_calm _)

/-- Putting a vanished record back to dispatch. -/
theorem requeueNotFound_plainly {copy : CoordinatedTx} {height : BlockHeight}
    (hflight : copy.isInFlight) (hdrift : tidy → StillStored copy w)
    (hnote : w.log.head? = some (.notFound copy.txid height)) :
    Plainly tidy .settle (requeueNotFound copy.txid
      (height + ctx.settings.monitor.maxMonitoringConfirmations)) ctx w := by
  apply requeueWith_plainly
  intro tx hget hstep
  have hid : tx.txid = copy.txid := w.store.keyed _ _ hget
  apply putTx_plainly
  rw [← hid] at hnote ⊢
  apply Plain.vanished tx height (by rw [hid, hget]) hstep _ hnote
  intro htidy
  exact ((hdrift htidy).drifted hget).isInFlight hflight hstep (by simp)

/-- Putting a rejected record back to dispatch. -/
theorem markAsRetry_plainly {copy : CoordinatedTx} (hstate : copy.state = .toDispatch)
    (hdrift : tidy → StillStored copy w)
    (hcause : w.log.head? = some (.transient copy.txid) ∨
      ∃ height, w.log.head? = some (.deferred copy.txid height)) :
    Plainly tidy .settle (markAsRetry copy.txid) ctx w := by
  apply requeueWith_plainly
  intro tx hget hstep
  have hid : tx.txid = copy.txid := w.store.keyed _ _ hget
  refine updateTx_plainly hget ?_ (Or.inl rfl)
  apply Change.retry hstep
  · intro htidy
    rw [((hdrift htidy).drifted hget).state_eq hstep (by simp), hstate]
  · rw [hid]
    exact hcause

/-! ### Spent flags -/

/-- Setting the spent flag of a tracked speedup. -/
theorem setSpeedupSpent_plainly {txid : Txid} {tx : CoordinatedTx} (spent : Bool)
    (hget : w.store.txs.get txid = some tx) :
    Plainly tidy phase (setSpeedupSpent tx spent) ctx w := by
  unfold setSpeedupSpent
  split
  · next kind hkind =>
    apply Prog.Reaches.ite
    · intro _
      exact Prog.Reaches.pure _
    · intro _
      exact updateTx_plainly hget (Change.mark phase kind (Mark.spent spent) hkind) (Or.inl rfl)
  · exact Prog.Reaches.pure _

/-- Setting the spent flag of an outpoint. -/
theorem setSpent_plainly (op : OutPoint) (spent : Bool) :
    Plainly tidy phase (setSpent op spent) ctx w := by
  have hwrite : Plainly tidy phase (writeSpent op spent) ctx w := by
    apply reaches_read
    split
    · next record hget =>
      apply Prog.Reaches.ite
      · intro _
        exact Prog.Reaches.pure _
      · intro _
        exact plainly_of_calm (writeStore_calm (QuietWrite.flagged op record hget spent))
    · apply reaches_read
      split
      · exact Prog.Reaches.pure _
      · next tx hget => exact setSpeedupSpent_plainly spent hget
  apply Prog.Reaches.seq hwrite
  intro _ _
  exact plainly_of_calm (note_calm (by trivial))

end BitcoinCoordinator
