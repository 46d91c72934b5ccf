import BitcoinCoordinator.Broadcasts
import BitcoinCoordinator.FundingSwap
import BitcoinCoordinator.Registrations

/-!
# How records leave the store

A tracked transaction is forgotten in two ways. A tick evicts a record that settled and has been buried for the
configured number of blocks, and a cancel request drops a client transaction that waits for dispatch and that the
client named. Every other write keeps every record.
-/

namespace BitcoinCoordinator

open Foundation

variable {α β : Type} {ctx : Ctx} {tidy : Prop} {phase : Phase} {w w' : World}
  {P : Store → Txid → List Event → Prop}

/-! ### Writes that drop a record -/

/-- A moment that drops tracked records does so for a reason. -/
def DropsFor (P : Store → Txid → List Event → Prop) (e : Event) (older : List Event) : Prop :=
  ∀ before after, e = .wrote before after → ∀ txid, before.txs.get txid ≠ none →
    after.txs.get txid = none → P before txid older

/-- A history grew by moments that drop tracked records for a reason only. -/
def Drops (P : Store → Txid → List Event → Prop) (w w' : World) : Prop :=
  GrowsBy (DropsFor P) w.log w'.log

/-- What is dropped at first, and then. -/
theorem Drops.trans {w'' : World} (h : Drops P w w') (h' : Drops P w' w'') : Drops P w w'' :=
  GrowsBy.trans h h'

instance drops_isPreorder : IsPreorder World (Drops P) where
  refl _ := GrowsBy.refl
  trans _ _ _ h h' := Drops.trans h h'

/-- What leaves the history alone drops nothing. -/
theorem drops_of_log_eq (h : w'.log = w.log) : Drops P w w' := by
  unfold Drops
  rw [h]
  exact GrowsBy.refl

/-- A moment that is no write drops nothing. -/
theorem drops_noted {e : Event} (h : ∀ before after, e ≠ .wrote before after) : Drops P w (w.noted e) :=
  GrowsBy.refl.cons fun before after heq => absurd heq (h before after)

/-- A write that keeps every record. -/
theorem drops_written {s : Store} (h : ∀ txid, w.store.txs.get txid ≠ none → s.txs.get txid ≠ none) :
    Drops P w (w.written s) := by
  apply GrowsBy.refl.cons
  intro before after heq txid hbefore hafter
  cases heq
  exact absurd hafter (h txid hbefore)

/-- Putting a record keeps every record. -/
theorem drops_setTx {tx : CoordinatedTx} : Drops P w (w.written (w.store.setTx tx)) := by
  apply drops_written
  intro txid hget
  rw [Store.get_setTx]
  split
  · simp
  · exact hget

/-- A write that leaves the records alone. -/
theorem drops_of_txs_eq {s : Store} (h : s.txs = w.store.txs) : Drops P w (w.written s) := by
  apply drops_written
  intro txid hget
  rw [h]
  exact hget

/-- Dropping a record for a reason. -/
theorem drops_eraseTx {txid : Txid} (h : P w.store txid w.log) :
    Drops P w (w.written (w.store.eraseTx txid)) := by
  apply GrowsBy.refl.cons
  intro before after heq id hbefore hafter
  cases heq
  rw [Store.get_eraseTx] at hafter
  split at hafter
  · next hid =>
    rw [hid]
    exact h
  · exact absurd hafter hbefore

/-! ### Moves -/

/-- The reason of a move that drops a record: a tick drops what it just chose to evict, and other requests drop
what waits for dispatch. -/
def LeavesBy (ctx : Ctx) (phase : Phase) (s : Store) (txid : Txid) (older : List Event) : Prop :=
  (phase ≠ .serve ∧ s.Evictable txid ∧
    ∃ copy, copy.txid = txid ∧ older.head? = some (.evicting copy) ∧ ctx.Buries copy) ∨
    phase = .serve ∧ s.Cancellable txid ∧ txid ∉ s.pendingSpeedupParents

/-- Every move drops records for its reason only. -/
theorem Move.drops (h : Move ctx tidy phase w w') : Drops (LeavesBy ctx phase) w w' := by
  rcases h with hplain | hpart
  · cases hplain with
    | quiet hquiet =>
      cases hquiet with
      | asked => exact drops_of_log_eq rfl
      | stamped now => exact drops_of_log_eq rfl
      | published items => exact drops_of_log_eq rfl
      | noted e hremark =>
        apply drops_noted
        rintro before after rfl
        exact hremark
      | wrote s hwrite => exact drops_of_txs_eq hwrite.txs_eq
      | prepended txids _ _ => exact drops_of_txs_eq rfl
    | changed => exact drops_setTx
    | vanished | rewrote => exact drops_setTx.trans (drops_noted (by simp))
    | _ => exact drops_noted (by simp)
  · cases hpart with
    | inserted => exact drops_setTx.trans (drops_noted (by simp))
    | listed txid => exact drops_of_txs_eq (w.store.txs_list txid)
    | unlisted txid _ _ => exact drops_of_txs_eq rfl
    | evicted tx hnote hstale haged => exact drops_eraseTx (Or.inl ⟨by simp, hstale, tx, rfl, hnote, haged⟩)
    | dropped txid hcancel hpending => exact drops_eraseTx (Or.inr ⟨rfl, hcancel, hpending⟩)
    | registered => exact drops_setTx
    | pended txid => exact drops_of_txs_eq (w.store.txs_pend txid)
    | queue s _ hwrite => exact drops_of_txs_eq hwrite.txs_eq

/-- A request makes the moves of its own parts of a run. -/
theorem exec_moves (request : Request) :
    Prog.Reaches (fun w w' => ∃ phase, (phase = .serve ↔ request ≠ .tick) ∧ Move ctx False phase w w')
      (exec request) ctx w := by
  by_cases hrequest : request = .tick
  · subst hrequest
    have hwalks : Prog.Walks (fun w w' => ∃ phase, phase ≠ .serve ∧ Step ctx False phase w w')
        (fun w w' => ∃ phase, phase ≠ .serve ∧ Torn ctx False phase w w') tick ctx w := by
      apply (tick_ticks fun h => absurd h id).walks
      · rintro a b (h | h)
        · exact ⟨.settle, by simp, h⟩
        · exact ⟨.build, by simp, h⟩
      · rintro a b (h | h)
        · exact ⟨.settle, by simp, h⟩
        · exact ⟨.build, by simp, h⟩
    apply hwalks.reaches
    · rintro a b ⟨phase, hphase, hstep⟩
      exact Relation.ReflTransGen.mono (fun _ _ h => ⟨phase, by simpa using hphase, h⟩) _ _ hstep.moves
    · rintro a b ⟨phase, hphase, stop, htorn⟩
      exact Relation.ReflTransGen.mono (fun _ _ h => ⟨phase, by simpa using hphase, h⟩) _ _ htorn.moves
  · apply (Stepwise.traced (exec_stepwise hrequest)).mono
    exact fun _ _ hmove => ⟨.serve, by simpa using hrequest, hmove⟩

/-- The reason for which a request drops a record. -/
def LeavesOn (ctx : Ctx) (request : Request) (s : Store) (txid : Txid) (older : List Event) : Prop :=
  (request = .tick ∧ s.Evictable txid ∧
    ∃ copy, copy.txid = txid ∧ older.head? = some (.evicting copy) ∧ ctx.Buries copy) ∨
    request ≠ .tick ∧ s.Cancellable txid ∧ txid ∉ s.pendingSpeedupParents

/-- Every request drops records for its reason only, whatever it is answered and wherever it stops. -/
theorem exec_drops (request : Request) : Drops (LeavesOn ctx request) w (exec request ctx w).2 := by
  apply (exec_moves request).keeps (I := fun w' => Drops (LeavesOn ctx request) w w')
  · rintro w₁ w₂ hdrops ⟨phase, hphase, hmove⟩
    apply Drops.trans hdrops
    apply hmove.drops.mono
    intro e older _ _ hreason before after heq txid hbefore hafter
    rcases hreason before after heq txid hbefore hafter with ⟨hnot, hrest⟩ | ⟨hserve, hrest⟩
    · exact Or.inl ⟨not_not.mp fun h => hnot (hphase.mpr h), hrest⟩
    · exact Or.inr ⟨hphase.mp hserve, hrest⟩
  · exact refl w

/-! ### Client requests -/

instance query_drops {wrap : String → BitcoinCoordinatorError}
    {question : Answers → ℕ → Except String α} : Prog.Within (Drops P) (query wrap question) where
  related ctx w := by
    unfold query
    split <;> exact drops_of_log_eq rfl

instance attempt_drops {question : Answers → ℕ → Except String α} :
    Prog.Within (Drops P) (attempt question) := ⟨fun _ _ => drops_of_log_eq rfl⟩

instance readStore_drops {f : Store → α} : Prog.Within (Drops P) (readStore f) := Prog.Within.read

instance getTxById_drops {txid : Txid} : Prog.Within (Drops P) (getTxById txid) := readStore_drops

instance getMonitorHeight_drops : Prog.Within (Drops P) getMonitorHeight := query_drops

instance settings_drops : Prog.Within (Drops P) settings := Prog.Within.ask

/-- A noted moment that is no write. -/
theorem note_drops {e : Store → Event} (h : ∀ s before after, e s ≠ .wrote before after) :
    Prog.Within (Drops P) (note e) := ⟨fun _ w => drops_noted (h w.store)⟩

/-- A write that keeps every record. -/
theorem writeStore_drops {f : Store → Store}
    (h : ∀ s txid, s.txs.get txid ≠ none → (f s).txs.get txid ≠ none) :
    Prog.Within (Drops P) (writeStore f) where
  related ctx w := by
    unfold writeStore
    split
    · exact drops_written (h w.store)
    · exact drops_of_log_eq rfl

instance insertTx_drops {tx : CoordinatedTx} : Prog.Within (Drops P) (insertTx tx) where
  related ctx w := by
    unfold insertTx writeStore
    split
    · exact drops_setTx
    · exact drops_of_log_eq rfl

/-- Dropping a record for a reason that holds at any time. -/
theorem removeTx_drops {named : Txid → Prop} {txid : Txid} (h : named txid) :
    Prog.Within (Drops fun _ id _ => named id) (removeTx txid) where
  related ctx w := by
    apply Prog.related_bind
    · unfold writeStore
      split
      · exact drops_eraseTx h
      · exact drops_of_log_eq rfl
    · intro _ w₁ _
      have hlist : Prog.Within (Drops fun _ id _ => named id) (removeSpeedupFromList txid) := by
        have hwrite : ∀ list : List Txid, Prog.Within (Drops fun _ id _ => named id)
            (writeStore fun s => { s with speedupList := list }) :=
          fun _ => writeStore_drops fun _ _ => id
        unfold removeSpeedupFromList
        infer_instance
      exact hlist.related ctx w₁

instance addPendingSpeedupParent_drops {txid : Txid} :
    Prog.Within (Drops P) (addPendingSpeedupParent txid) := by
  have hwrite : ∀ list : List Txid, Prog.Within (Drops P)
      (writeStore fun s => { s with pendingSpeedupParents := list }) :=
    fun _ => writeStore_drops fun _ _ => id
  unfold addPendingSpeedupParent
  infer_instance

instance removePendingSpeedupParent_drops {txid : Txid} :
    Prog.Within (Drops P) (removePendingSpeedupParent txid) := by
  have hwrite : ∀ list : List Txid, Prog.Within (Drops P)
      (writeStore fun s => { s with pendingSpeedupParents := list }) :=
    fun _ => writeStore_drops fun _ _ => id
  unfold removePendingSpeedupParent
  infer_instance

instance writeNews_drops {f : List StoredNewsItem → List StoredNewsItem} :
    Prog.Within (Drops P) (writeNews f) := ⟨fun ctx w => drops_of_log_eq (writeNews_log ctx w)⟩

instance addNews_drops {news : CoordinatorNews} : Prog.Within (Drops P) (addNews news) := by
  have hread : Prog.Within (Drops P) (Prog.read World.news : Coord (List StoredNewsItem)) := Prog.Within.read
  unfold addNews
  infer_instance

instance publishFeeNews_drops {news : Option CoordinatorNews} :
    Prog.Within (Drops P) (publishFeeNews news) := by
  unfold publishFeeNews
  split <;> infer_instance

instance monitorWatch_drops {data : TypesToMonitor} {inMempool : Bool} :
    Prog.Within (Drops P) (monitorWatch data inMempool) := by
  have hnote : Prog.Within (Drops P) (note fun _ => .monitored data inMempool) := note_drops (by simp)
  unfold monitorWatch
  infer_instance

instance monitorCancel_drops {data : TypesToMonitor} : Prog.Within (Drops P) (monitorCancel data) := by
  have hnote : Prog.Within (Drops P) (note fun _ => .unmonitored data) := note_drops (by simp)
  unfold monitorCancel
  infer_instance

instance registerTx_drops {raw : Transaction} {kind : TxKind} {context : String}
    {target : Option BlockHeight} {trigger stuck : Option ℕ} :
    Prog.Within (Drops P) (registerTx raw kind context target trigger stuck) := by
  have hstore : ∀ record, Prog.Within (Drops P) (storeRegistered record) := by
    intro record
    have hnote : Prog.Within (Drops P) (note (.registering record)) := note_drops (by simp)
    unfold storeRegistered
    infer_instance
  have hfee : Prog.Within (Drops P) getNetworkFeeRate := by
    unfold getNetworkFeeRate
    infer_instance
  apply Prog.Within.seq
  intro found
  cases found with
  | some tx => exact Prog.Within.pure
  | none =>
    apply Prog.Within.seq
    intro height
    apply Prog.Within.seq
    rintro ⟨feeRate, news⟩
    infer_instance

instance addFunding_drops {utxo : Utxo} : Prog.Within (Drops P) (addFunding utxo) := by
  have happend : Prog.Within (Drops P) (appendFunding utxo) := by
    have hnote : Prog.Within (Drops P) (note (.addingFunding utxo)) := note_drops (by simp)
    have hrecord : Prog.Within (Drops P)
        (writeStore fun s => s.setFunding utxo.outPoint ⟨utxo, false, false⟩) :=
      writeStore_drops fun _ _ => id
    have hlist : ∀ list : List OutPoint, Prog.Within (Drops P)
        (writeStore fun s => { s with fundingList := list }) := fun _ => writeStore_drops fun _ _ => id
    unfold appendFunding
    infer_instance
  have hset : Prog.Within (Drops P) (setFunding utxo) := by
    apply Prog.Within.seq
    intro cfg
    split <;> infer_instance
  exact Prog.Within.seq fun _ => publishFeeNews_drops

/-- Sorting out a cancel request drops nothing. -/
theorem eligibleToCancel_drops {txids : List Txid} : Prog.Within (Drops P) (eligibleToCancel txids) := by
  induction txids with
  | nil => exact Prog.Within.pure
  | cons txid rest ih =>
    apply Prog.Within.seq
    intro refusal
    cases refusal <;> infer_instance

/-- The eligible transactions are among those of the request. -/
theorem eligibleToCancel_subset {txids eligible : List Txid}
    (hrun : eligibleToCancel txids ctx w = (.ok eligible, w')) : eligible ⊆ txids := by
  induction txids generalizing w w' eligible with
  | nil =>
    obtain ⟨rfl, -⟩ := Prog.pure_ok.mp hrun
    exact List.Subset.refl _
  | cons txid rest ih =>
    obtain ⟨refusal, w₁, -, hbody⟩ := Prog.bind_ok.mp hrun
    split at hbody
    · obtain ⟨others, w₂, hrest, hpure⟩ := Prog.bind_ok.mp hbody
      obtain ⟨rfl, -⟩ := Prog.pure_ok.mp hpure
      exact List.cons_subset_cons txid (ih hrest)
    · obtain ⟨_, w₂, -, hrest⟩ := Prog.bind_ok.mp hbody
      exact List.Subset.trans (ih hrest) (List.subset_cons_self _ _)

/-- The transactions that a request names to be cancelled. -/
def Request.cancelled : Request → List Txid
  | .cancel (.transactions txids _ _) => txids
  | _ => []

/-- A client request drops what it names to be cancelled only. -/
theorem request_drops {request : Request} (hrequest : request ≠ .tick) :
    Drops (fun _ txid _ => txid ∈ request.cancelled) w (exec request ctx w).2 := by
  cases request with
  | tick => exact absurd rfl hrequest
  | dispatchWithoutSpeedup raw context target trigger stuck => exact registerTx_drops.related ctx w
  | dispatchWithSpeedup raw data context target trigger => exact registerTx_drops.related ctx w
  | addFunding utxo => exact addFunding_drops.related ctx w
  | ackNews news =>
    have hack : Prog.Within (Drops fun _ txid _ => txid ∈ (Request.ackNews news).cancelled)
        (ackCoordinatorNews news) := Prog.Within.seq fun _ => writeNews_drops
    exact hack.related ctx w
  | monitor data => exact monitorWatch_drops.related ctx w
  | cancel data =>
    cases data with
    | other description => exact monitorCancel_drops.related ctx w
    | transactions txids context trigger =>
      apply Prog.related_bind (eligibleToCancel_drops.related ctx w)
      intro eligible w₁ hrun
      have hsubset := eligibleToCancel_subset hrun
      cases eligible with
      | nil => exact refl w₁
      | cons txid rest =>
        have hnote : Prog.Within (Drops fun _ id _ => id ∈ txids) (note (.cancelling (txid :: rest))) :=
          note_drops (by simp)
        have hremove : Prog.Within (Drops fun _ id _ => id ∈ txids)
            (Prog.forEach (txid :: rest) removeTx) :=
          Prog.Within.loop fun id hid => removeTx_drops (hsubset hid)
        have hdrop : Prog.Within (Drops fun _ id _ => id ∈ txids)
            (dropCancelled (txid :: rest) context trigger) := by
          unfold dropCancelled
          infer_instance
        exact hdrop.related ctx w₁

/-! ### Runs -/

/-- A write in the middle of a history. -/
theorem mem_writes_append (newer : List Event) (before after : Store) (older : List Event) :
    (before, after, older) ∈ writes (newer ++ .wrote before after :: older) := by
  induction newer with
  | nil => exact List.mem_cons_self
  | cons e newer ih => cases e <;> first | exact ih | exact List.mem_cons_of_mem _ ih

/-- An eviction is of the record that is stored then. -/
def EvictsStored (e : Event) (older : List Event) : Prop :=
  ∀ record, e = .evicting record →
    ∀ tx, (lastVersion Store.empty older).txs.get record.txid = some tx → tx = record

/-- Every eviction of a run is of the record that is stored then. -/
theorem throughout_evictions (cfg : BitcoinSettings) (calls : List Call) :
    Throughout EvictsStored (runCalls cfg calls World.init).log := by
  induction calls using List.reverseRecOn with
  | nil => exact throughout_nil
  | append_singleton calls call ih =>
    apply GrowsBy.throughout _ ih
    apply (runCalls_concat_decided cfg Store.empty [] none calls call).mono
    rintro e older - - hdecided record rfl
    exact hdecided

/-- Whatever the calls of a run are answered and wherever they stop, a write drops a tracked record for one of two
reasons. A tick drops one that settled, when it was told of a height as far above as configured, and a parent that
needs a speedup only while it is neither pending nor covered by a live speedup. A cancel request drops a client
transaction that it names, that waits for dispatch and is not pending. -/
theorem record_leaves_only (cfg : BitcoinSettings) (calls : List Call) (call : Call) (before after : Store)
    (newer older : List Event) (txid : Txid) (record : CoordinatedTx)
    (hcall : (runCalls cfg (calls ++ [call]) World.init).log = newer ++ .wrote before after :: older)
    (hnew : (runCalls cfg calls World.init).log <:+ older)
    (hget : before.txs.get txid = some record) (hgone : after.txs.get txid = none) :
    (call.request = .tick ∧ record.state.isTerminal ∧
      (record.isNeedsSpeedup → txid ∉ before.pendingSpeedupParents ∧ txid ∉ before.liveCovered) ∧
      ∃ settledHeight n height,
        record.settledBlockHeight = some settledHeight ∧ call.answers.monitorHeight n = .ok height ∧
          cfg.storage.maxTrackingConfirmations ≤ height - settledHeight) ∨
    txid ∈ call.request.cancelled ∧ record.state = .toDispatch ∧ record.speedup? = none ∧
      txid ∉ before.pendingSpeedupParents := by
  have hsome : before.txs.get txid ≠ none := by simp [hget]
  have hdrops : Drops (LeavesOn ⟨cfg, call.answers⟩ call.request) (runCalls cfg calls World.init)
      (runCalls cfg (calls ++ [call]) World.init) := by
    rw [runCalls_concat]
    exact exec_drops call.request
  unfold Drops at hdrops
  rw [hcall] at hdrops
  rcases hdrops.entry hnew before after rfl txid hsome hgone with
    ⟨hrequest, hstale, copy, hcopy, hhead, haged⟩ | ⟨hrequest, hcancel, hpending⟩
  · left
    obtain ⟨hterminal, hcovered⟩ := hstale record hget
    have hlinked := linked_runCalls cfg Store.empty [] none (calls ++ [call])
    change Linked _ (runCalls cfg (calls ++ [call]) World.init) at hlinked
    obtain ⟨rest, rfl⟩ : ∃ rest, older = .evicting copy :: rest := by
      cases older with
      | nil => cases hhead
      | cons e rest =>
        cases hhead
        exact ⟨rest, rfl⟩
    have hstored : EvictsStored (.evicting copy) rest := throughout_evictions cfg (calls ++ [call]) _ rest
      (by rw [hcall]; exact (List.suffix_cons _ _).trans (List.suffix_append _ _))
    have hbefore : before = lastVersion Store.empty rest := by
      have hmem : (before, after, .evicting copy :: rest) ∈
          writes (runCalls cfg (calls ++ [call]) World.init).log := by
        rw [hcall]
        exact mem_writes_append newer before after _
      exact hlinked.2 _ hmem
    have hsame : record = copy := by
      apply hstored copy rfl
      rw [← hbefore, hcopy]
      exact hget
    refine ⟨hrequest, hterminal, hcovered, ?_⟩
    rw [hsame]
    exact haged
  · right
    have hnamed : Drops (fun _ id _ => id ∈ call.request.cancelled) (runCalls cfg calls World.init)
        (runCalls cfg (calls ++ [call]) World.init) := by
      rw [runCalls_concat]
      exact request_drops hrequest
    unfold Drops at hnamed
    rw [hcall] at hnamed
    obtain ⟨hstate, hkind⟩ := hcancel record hget
    exact ⟨hnamed.entry hnew before after rfl txid hsome hgone, hstate, hkind, hpending⟩

/-- The versions a moment writes over and makes, if it is a write. -/
def Event.written? : Event → Option (Store × Store)
  | .wrote before after => some (before, after)
  | _ => none

/-- A CPFP and its parent are accepted and buried. -/
def finalizedCalls : List Call := acceptedCalls ++ [⟨.tick, buriedCtx.answers⟩]

/-- A tick many blocks later. -/
def laterTickCall : Call :=
  ({ sampleView 300 [] [] with chain := [(sampleParent, 7), (firstOfChain, 7)] } : NodeView).call
    fixedBuilder 10 0 .tick

/-- A later tick drops a record that settled. -/
theorem record_leaves_only_finalizedCalls : ∃ record : CoordinatedTx, record.state.isTerminal ∧
    ∃ settledHeight n height,
      record.settledBlockHeight = some settledHeight ∧ laterTickCall.answers.monitorHeight n = .ok height ∧
        defaultSettings.storage.maxTrackingConfirmations ≤ height - settledHeight := by
  have hgrown := runCalls_concat_decided defaultSettings Store.empty [] none finalizedCalls laterTickCall
  have hdrops : (((runCalls defaultSettings (finalizedCalls ++ [laterTickCall]) World.init).log.drop 2).head?.bind
      Event.written?).any (fun p => p.1.txs.values.any fun record =>
        decide (record.state = .finalized) && (p.2.txs.get record.txid).isNone) = true := by decide +kernel
  obtain ⟨⟨before, after⟩, hwritten, hany⟩ := (Option.any_eq_true _ _).mp hdrops
  obtain ⟨e, hhead, he⟩ := Option.bind_eq_some_iff.mp hwritten
  obtain ⟨record, hmem, hdropped⟩ := List.any_eq_true.mp hany
  obtain ⟨hstate, hgone⟩ := Bool.and_eq_true_iff.mp hdropped
  obtain ⟨newer, older, hlog, hsuffix⟩ := exists_entry 2 hhead hgrown.suffix (by decide +kernel)
  cases e <;> cases he
  rcases record_leaves_only defaultSettings finalizedCalls laterTickCall before after newer older record.txid record
    hlog hsuffix (Store.mem_values.mp hmem) (Option.isNone_iff_eq_none.mp hgone) with
    ⟨-, hterminal, -, haged⟩ | ⟨-, hwaits, -⟩
  · exact ⟨record, hterminal, haged⟩
  · rw [of_decide_eq_true hstate] at hwaits
    cases hwaits

end BitcoinCoordinator
