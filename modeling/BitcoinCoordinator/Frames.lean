import BitcoinCoordinator.Operations

/-!
# What the engines leave alone

The engine functions that touch no transaction record, and the frame of those that reserve and
release funding: they change no more of a record than a speedup's context.
-/

namespace BitcoinCoordinator

open Foundation

variable {α β : Type} {ctx : Ctx} {tidy : Prop} {phase : Phase} {w : World}

/-! ### Quiet functions -/

/-- Asking the monitor to watch something is quiet. -/
theorem monitorWatch_calm (data : TypesToMonitor) (inMempool : Bool) :
    Calm (monitorWatch data inMempool) ctx w := by
  apply Prog.Reaches.seq query_calm
  intro _ _
  exact note_calm (by trivial)

/-- Asking the monitor to stop watching something is quiet. -/
theorem monitorCancel_calm (data : TypesToMonitor) : Calm (monitorCancel data) ctx w := by
  apply Prog.Reaches.seq query_calm
  intro _ _
  exact note_calm (by trivial)

/-- Reading the network rate is quiet. -/
theorem getNetworkFeeRate_calm : Calm getNetworkFeeRate ctx w := by
  apply reaches_settings
  apply Prog.Reaches.seq attempt_calm
  intro _ _
  exact Prog.Reaches.pure _

/-- Publishing fee news is quiet. -/
theorem publishFeeNews_calm (news : Option CoordinatorNews) :
    Calm (publishFeeNews news) ctx w := by
  unfold publishFeeNews
  split
  · exact publish_calm _
  · exact Prog.Reaches.pure _

/-- Probing the parents of a transaction is quiet. -/
theorem parentsReady_calm (ops : List OutPoint) : Calm (parentsReady ops) ctx w := by
  induction ops generalizing w with
  | nil => exact Prog.Reaches.pure _
  | cons op rest ih =>
    apply reaches_read
    apply Prog.Reaches.ite
    · intro _
      apply reaches_settings
      apply Prog.Reaches.seq query_calm
      intro status _
      apply Prog.Reaches.ite
      · intro _
        exact ih
      · intro _
        exact Prog.Reaches.pure _
    · intro _
      exact ih

/-- The moves of a broadcast: quiet ones and the hand-over of a transaction. -/
inductive Sending (w : World) : World → Prop where
  | quiet (w' : World) (hquiet : Quiet w w') : Sending w w'
  | sent (tx : Transaction) : Sending w (w.noted (.broadcast tx))

/-- A computation that broadcasts and touches no transaction record, wherever it stops. -/
abbrev Sends {α : Type} (m : Coord α) (ctx : Ctx) (w : World) : Prop := Prog.Reaches Sending m ctx w

/-- A calm computation broadcasts at most. -/
theorem sends_of_calm {m : Coord α} (h : Calm m ctx w) : Sends m ctx w :=
  Prog.Reaches.mono h fun _ w' hquiet => Sending.quiet w' hquiet

/-- Broadcasting makes plain moves of the first part of a tick only. -/
theorem plainly_of_sends {m : Coord α} (h : Sends m ctx w) : Plainly tidy .settle m ctx w := by
  apply Prog.Reaches.mono h
  intro w w' hsend
  cases hsend with
  | quiet w' hquiet => exact Plain.quiet hquiet
  | sent tx => exact Plain.sent tx

/-- Broadcasting leaves the store's records and lists alone. -/
theorem sends_keeps {m : Coord α} {a : Except Stop α} {w' : World} (h : Sends m ctx w)
    (hrun : m ctx w = (a, w')) :
    w'.store.txs = w.store.txs ∧ w'.store.speedupList = w.store.speedupList := by
  have hkeep := h.keeps (I := fun w₁ =>
    w₁.store.txs = w.store.txs ∧ w₁.store.speedupList = w.store.speedupList) ?_ ⟨rfl, rfl⟩
  · simpa [hrun] using hkeep
  · rintro w₁ w₂ ⟨htxs, hlist⟩ hsend
    cases hsend with
    | quiet w₂ hquiet => exact ⟨hquiet.txs_eq.trans htxs, hquiet.speedupList_eq.trans hlist⟩
    | sent tx => exact ⟨htxs, hlist⟩

/-- Handing a transaction to the node. -/
theorem sendTransaction_sends (tx : Transaction) : Sends (sendTransaction tx) ctx w := by
  have hsent : Sends (note fun _ => .broadcast tx) ctx w :=
    Relation.ReflTransGen.single (Sending.sent tx)
  apply Prog.Reaches.seq hsent
  intro _ _
  apply Prog.Reaches.seq (sends_of_calm attempt_calm)
  intro answer _
  cases answer <;> exact Prog.Reaches.pure _

/-- Deciding one outcome. -/
theorem dispatchOne_sends (tx : CoordinatedTx) : Sends (dispatchOne tx) ctx w := by
  apply reaches_read
  split
  · exact Prog.Reaches.pure _
  · apply Prog.Reaches.seq (sends_of_calm (parentsReady_calm _))
    intro ready _
    apply Prog.Reaches.ite
    · intro _
      apply Prog.Reaches.seq (sendTransaction_sends _)
      intro _ _
      exact Prog.Reaches.pure _
    · intro _
      exact Prog.Reaches.pure _

/-- Deciding the outcomes of the valid transactions. -/
theorem dispatchValid_sends (txs : List CoordinatedTx) : Sends (dispatchValid txs) ctx w := by
  induction txs generalizing w with
  | nil => exact Prog.Reaches.pure _
  | cons tx rest ih =>
    apply Prog.Reaches.seq (dispatchOne_sends tx)
    intro _ _
    apply Prog.Reaches.seq ih
    intro _ _
    exact Prog.Reaches.pure _

/-- Dispatching a batch: the outcomes are handled afterwards. -/
theorem dispatch_sends (txs : List CoordinatedTx) : Sends (dispatch txs) ctx w := by
  apply reaches_settings
  apply Prog.Reaches.seq (dispatchValid_sends _)
  intro _ _
  exact Prog.Reaches.pure _

/-- Probing inputs is quiet. -/
theorem anyInputMissing_calm (ops : List OutPoint) : Calm (anyInputMissing ops) ctx w := by
  induction ops generalizing w with
  | nil => exact Prog.Reaches.pure _
  | cons op rest ih =>
    apply Prog.Reaches.seq query_calm
    intro unspent _
    apply Prog.Reaches.ite
    · intro _
      exact ih
    · intro _
      exact Prog.Reaches.pure _

/-- Finding the kind of a missing input is quiet. -/
theorem missingInputKind_calm (tx : CoordinatedTx) : Calm (missingInputKind tx) ctx w := by
  apply Prog.Reaches.seq (anyInputMissing_calm _)
  intro _ _
  apply Prog.Reaches.ite
  · intro _
    exact Prog.Reaches.pure _
  · intro _
    apply Prog.Reaches.seq (anyInputMissing_calm _)
    intro _ _
    apply Prog.Reaches.ite <;> exact fun _ => Prog.Reaches.pure _

/-- The retry window is quiet. -/
theorem applyRetryRateLimit_calm (txs : List CoordinatedTx) :
    Calm (applyRetryRateLimit txs) ctx w := by
  have hready : ∀ w, Calm isRetryReady ctx w := by
    intro w
    apply reaches_settings
    apply Prog.Reaches.seq (Prog.Reaches.read _)
    intro last _
    cases last with
    | none => exact Prog.Reaches.pure _
    | some last =>
      apply Prog.Reaches.seq ask_calm
      intro _ _
      exact Prog.Reaches.pure _
  have hstamp : ∀ w, Calm stampRetry ctx w := by
    intro w
    apply Prog.Reaches.seq ask_calm
    intro now _
    exact Relation.ReflTransGen.single (Quiet.stamped now)
  apply Prog.Reaches.seq (hready w)
  intro ready w₁
  apply Prog.Reaches.ite
  · intro _
    apply Prog.Reaches.seq (hstamp w₁)
    intro _ _
    exact Prog.Reaches.pure _
  · intro _
    exact Prog.Reaches.pure _

/-- Publishing a shortfall is quiet. -/
theorem emitInsufficientFunds_calm (available required : ℕ) :
    Calm (emitInsufficientFunds available required) ctx w :=
  publish_calm _

/-- Publishing the lack of funding is quiet. -/
theorem emitFundingNotAvailable_calm : Calm emitFundingNotAvailable ctx w := publish_calm _

/-- Having a speedup signed is quiet. -/
theorem speedupTransactions_calm (data : List SpeedupData) (inputs : List Utxo) (fee : ℕ) :
    Calm (speedupTransactions data inputs fee) ctx w := by
  unfold speedupTransactions
  split
  · exact Prog.Reaches.stop _
  · exact query_calm

/-- Publishing the maximum rate is quiet. -/
theorem reportIfCapped_calm (capped : Bool) (txid : Txid) (rate : ℕ) (context : String) :
    Calm (reportIfCapped capped txid rate context) ctx w := by
  apply Prog.Reaches.ite
  · intro _
    exact publish_calm _
  · intro _
    exact Prog.Reaches.pure _

/-- Taking a parent off the pending list is quiet. -/
theorem takePendingParent_calm (parent : CoordinatedTx) :
    Calm (takePendingParent parent) ctx w := by
  apply Prog.Reaches.seq (removePendingSpeedupParent_calm _)
  intro _ _
  exact note_calm (by trivial)

/-! ### Frames -/

/-- A property of a record that no mark affects. -/
def MarkStable (J : Option CoordinatedTx → Prop) : Prop :=
  ∀ (tx : CoordinatedTx) (kind : SpeedupKind) (mark : Mark), J (some tx) → tx.kind = .speedup kind →
    J (some { tx with kind := .speedup (kind.modifyContext mark.apply) })

/-- A property of a record that the handling of other transactions does not affect. -/
structure DriftStable (J : Option CoordinatedTx → Prop) : Prop where
  mark : MarkStable J
  fail : ∀ (tx : CoordinatedTx) (height : BlockHeight), J (some tx) →
    tx.state.canTransitionTo .failed →
      J (some { tx with settledBlockHeight := some height, state := .failed })

/-- A property of records that no mark affects. -/
theorem markStable_holds {P : CoordinatedTx → Prop}
    (h : ∀ (tx : CoordinatedTx) (kind : SpeedupKind) (mark : Mark), P tx → tx.kind = .speedup kind →
      P { tx with kind := .speedup (kind.modifyContext mark.apply) }) : MarkStable (Holds P) := by
  rintro tx kind mark ⟨tx', heq, hP⟩ hkind
  cases heq
  exact ⟨_, rfl, h tx kind mark hP hkind⟩

/-- Marks do not show in the core of a record. -/
theorem CoordinatedTx.core_mark {tx : CoordinatedTx} {kind : SpeedupKind} (mark : Mark)
    (hkind : tx.kind = .speedup kind) :
    { tx with kind := .speedup (kind.modifyContext mark.apply) : CoordinatedTx }.core = tx.core := by
  unfold CoordinatedTx.core
  simp only [hkind]
  cases kind <;> cases mark <;> rfl

/-- What has drifted from a copy stays so when other transactions are handled. -/
theorem driftStable_drifted (copy : CoordinatedTx) : DriftStable (Holds (Drifted copy)) where
  mark := markStable_holds fun tx kind mark hdrift hkind =>
    ⟨(CoordinatedTx.core_mark mark hkind).trans hdrift.core, hdrift.state⟩
  fail := by
    rintro tx height ⟨tx', heq, hdrift⟩ hstep
    cases heq
    refine ⟨_, rfl, hdrift.core, Or.inr ⟨?_, rfl, rfl⟩⟩
    rcases hdrift.state with ⟨hstate, -⟩ | ⟨hcopy, -, -⟩
    · rw [← hstate]
      exact hstep
    · exact hcopy

/-- A stored record is its own copy. -/
theorem stillStored_of_get {copy : CoordinatedTx} (h : w.store.txs.get copy.txid = some copy) :
    StillStored copy w :=
  ⟨copy, h, rfl, Or.inl ⟨rfl, rfl⟩⟩

variable {txid : Txid} {J : Option CoordinatedTx → Prop}

/-- Reading the store keeps what the continuation keeps from there. -/
theorem keeps_read {I : World → Prop} {f : Store → α} {k : α → Coord β}
    (h : ∀ w, I w → I (k (f w.store) ctx w).2) : Prog.Keeps I (readStore f >>= k) ctx := h

/-- Quiet functions keep every property of a record. -/
theorem keeps_of_calm {m : Coord α} (h : ∀ w, Calm m ctx w) :
    Prog.Keeps (RecordAt txid J) m ctx := by
  intro w hw
  unfold RecordAt
  rw [calm_txs (h w) rfl]
  exact hw

/-- Broadcasting keeps every property of a record. -/
theorem keeps_of_sends {m : Coord α} (h : ∀ w, Sends m ctx w) :
    Prog.Keeps (RecordAt txid J) m ctx := by
  intro w hw
  unfold RecordAt
  rw [(sends_keeps (h w) rfl).1]
  exact hw

/-- A property of a record that no mark affects survives the setting of a spent flag. -/
theorem MarkStable.setSpent (hJ : MarkStable J) {s : Store} (op : OutPoint) (spent : Bool)
    (h : J (s.txs.get txid)) : J ((s.setSpent op spent).txs.get txid) := by
  unfold Store.setSpent
  split
  · exact h
  · split
    · exact h
    · next tx hget =>
      split
      · next kind hkind =>
        rw [Store.get_setTx]
        split
        · next hid =>
          refine hJ tx kind (Mark.spent spent) ?_ hkind
          have hkey := s.keyed _ tx hget
          rw [← hget, ← hkey, ← hid]
          exact h
        · exact h
      · exact h

/-- Setting a spent flag keeps the properties of the store that its function keeps. -/
theorem setSpent_keeps_store {P : Store → Prop} (op : OutPoint) (spent : Bool)
    (h : ∀ s, P s → P (s.setSpent op spent)) :
    Prog.Keeps (fun w => P w.store) (setSpent op spent) ctx := by
  refine Prog.Keeps.seq ?_ fun _ => fun w hw => hw
  exact OneWrite.keeps (fun w => writeSpent_oneWrite op spent) (fun _ hw => hw) fun w => h w.store

/-- Setting a spent flag keeps what no mark affects. -/
theorem setSpent_keeps (hJ : MarkStable J) (op : OutPoint) (spent : Bool) :
    Prog.Keeps (RecordAt txid J) (setSpent op spent) ctx :=
  setSpent_keeps_store (P := fun s => J (s.txs.get txid)) op spent fun _ => hJ.setSpent op spent

/-- A property of the world that no question, no news item and no signature affects. -/
structure Steady (I : World → Prop) : Prop where
  asked : ∀ w, I w → I w.asked
  published : ∀ w items, I w → I { w.asked with news := items }
  signed : ∀ w pricing vsize, I w → I (w.noted (.signed pricing vsize))

/-- A property that no quiet move affects is steady when no signature affects it. -/
theorem steady_of_quiet {I : World → Prop} (hquiet : ∀ w w', I w → Quiet w w' → I w')
    (hsigned : ∀ w pricing vsize, I w → I (w.noted (.signed pricing vsize))) : Steady I where
  asked := fun w hw => hquiet w _ hw Quiet.asked
  published := fun w items hw => hquiet w _ hw (Quiet.published items)
  signed := hsigned

/-- A property of a record is steady. -/
theorem steady_recordAt : Steady (RecordAt txid J) where
  asked := fun _ h => h
  published := fun _ _ h => h
  signed := fun _ _ _ h => h

variable {I : World → Prop}

/-- A question keeps a steady property, answered or not. -/
theorem Steady.query (hI : Steady I) {wrap : String → BitcoinCoordinatorError}
    {question : Answers → ℕ → Except String α} : Prog.Keeps I (query wrap question) ctx := by
  intro w hw
  unfold BitcoinCoordinator.query
  split <;> exact hI.asked w hw

/-- Publishing keeps a steady property. -/
theorem Steady.publish (hI : Steady I) (news : CoordinatorNews) :
    Prog.Keeps I (do let _ ← addNews news; pure () : Coord Unit) ctx := by
  have hwrite : ∀ f, Prog.Keeps I (writeNews f) ctx := by
    intro f w hw
    unfold writeNews
    split
    · exact hI.published w _ hw
    · exact hI.asked w hw
  refine Prog.Keeps.seq (Prog.Keeps.seq (Prog.Keeps.read _) fun all => ?_) fun _ => Prog.Keeps.pure _
  apply Prog.Keeps.ite <;> intro _
  · exact Prog.Keeps.pure _
  · exact Prog.Keeps.seq (hwrite _) fun _ => Prog.Keeps.pure _

/-- Reading the network rate keeps a steady property. -/
theorem Steady.getNetworkFeeRate (hI : Steady I) : Prog.Keeps I getNetworkFeeRate ctx := by
  refine Prog.Keeps.seq (Prog.Keeps.ask _) fun cfg => ?_
  exact Prog.Keeps.seq (fun w hw => hI.asked w hw) fun _ => Prog.Keeps.pure _

/-- Publishing fee news keeps a steady property. -/
theorem Steady.publishFeeNews (hI : Steady I) (news : Option CoordinatorNews) :
    Prog.Keeps I (publishFeeNews news) ctx := by
  unfold BitcoinCoordinator.publishFeeNews
  split
  · exact hI.publish _
  · exact Prog.Keeps.pure _

/-- Publishing the maximum rate keeps a steady property. -/
theorem Steady.reportIfCapped (hI : Steady I) {capped : Bool} {txid : Txid} {rate : ℕ}
    {context : String} : Prog.Keeps I (reportIfCapped capped txid rate context) ctx :=
  Prog.Keeps.ite (fun _ => hI.publish _) fun _ => Prog.Keeps.pure _

/-- Having a speedup signed keeps a steady property. -/
theorem Steady.speedupTransactions (hI : Steady I) (data : List SpeedupData) (inputs : List Utxo)
    (fee : ℕ) : Prog.Keeps I (speedupTransactions data inputs fee) ctx := by
  unfold BitcoinCoordinator.speedupTransactions
  split
  · exact Prog.Keeps.stop _
  · exact hI.query

/-- Releasing reservations keeps what setting one spent flag keeps. -/
theorem releaseMarks_keeps (hspent : ∀ op spent, Prog.Keeps I (setSpent op spent) ctx)
    (utxos : List Utxo) : Prog.Keeps I (releaseMarks utxos) ctx :=
  Prog.Keeps.forEach fun u _ => hspent u.outPoint false

/-- Choosing the primary input keeps what setting one spent flag keeps. -/
theorem getFunding_keeps (hspent : ∀ op spent, Prog.Keeps I (setSpent op spent) ctx)
    (speedups : List CoordinatedTx) : Prog.Keeps I (getFunding speedups) ctx := by
  have hmark : ∀ (op : OutPoint) (a : Option (Utxo × Bool)),
      Prog.Keeps I (do setSpent op true; pure a) ctx :=
    fun op a => Prog.Keeps.seq (hspent op true) fun _ => Prog.Keeps.pure a
  refine Prog.Keeps.seq (Prog.Keeps.ofExcept _) ?_
  intro tip
  cases tip with
  | some tx => exact Prog.Keeps.seq (Prog.Keeps.ofExcept _) fun utxo => hmark _ _
  | none =>
    apply keeps_read
    intro w hw
    cases w.store.fundingRecords.find? fun record => !record.spent with
    | some record => exact hmark _ _ w hw
    | none => exact hw

/-- Choosing a second input keeps what setting one spent flag keeps. -/
theorem getCombineFunding_keeps (hspent : ∀ op spent, Prog.Keeps I (setSpent op spent) ctx) :
    Prog.Keeps I getCombineFunding ctx := by
  apply keeps_read
  intro w hw
  cases w.store.fundingRecords.find? fun record => !record.fromSpeedup && !record.spent with
  | some record =>
    exact Prog.Keeps.seq (hspent _ true) (fun _ => Prog.Keeps.pure _) w hw
  | none => exact hw

end BitcoinCoordinator
