import BitcoinCoordinator.Foundation.Links
import BitcoinCoordinator.BuildLedger

/-!
# What a finalized RBF replaced

When an RBF finalizes, the records it replaced, directly or through other RBFs, are settled as failed
one after the other. A record that the lifecycle does not let fail, and an identifier that is no longer
tracked, are passed over with a news item, and a cycle of replacements is followed for ever. The loop is
therefore sound from exactly the stores in which neither is met.
-/

namespace BitcoinCoordinator

open Foundation

variable {ctx : Ctx} {w w' : World}

/-- The transaction replaced by the record of an identifier. -/
def Store.replaces? (s : Store) (txid : Txid) : Option Txid :=
  (s.txs.get txid).bind CoordinatedTx.replaces?

/-- The identifiers reached from a speedup through the replacement links. -/
def Store.Replaced (s : Store) (tx : CoordinatedTx) (txid : Txid) : Prop :=
  ∃ first, tx.replaces? = some first ∧ Leads s.replaces? first txid

/-- A news item with this content is stored, acknowledged or not. -/
def World.Noted (w : World) (news : CoordinatorNews) : Prop := ∃ item ∈ w.news, item.news = news

/-- The news a refused lifecycle step publishes. -/
def CoordinatorNews.IsRefusedStep : CoordinatorNews → Prop
  | .txNotFound _ => True
  | .invalidStateTransition _ _ _ => True
  | _ => False

/-- Everything a speedup replaced has failed at some height or is no longer tracked. -/
def ReplacedSettled (tx : CoordinatedTx) (w : World) : Prop :=
  ∀ txid, w.store.Replaced tx txid → ∀ record, w.store.txs.get txid = some record →
    record.state = .failed ∧ record.settledBlockHeight.isSome

/-- No refused lifecycle step was published between two worlds. -/
def NoRefusal (w w' : World) : Prop :=
  ∀ item ∈ w'.news, item ∈ w.news ∨ ¬ item.news.IsRefusedStep

/-- Whatever the monitor and the backend answer, the loop over what a speedup replaced comes to an end,
and when it completes all of it is settled and no refusal was published. -/
def SettlesReplaced (tx : CoordinatedTx) (height : BlockHeight) (w : World) : Prop :=
  ∀ ctx, (removeReplacedRbf tx height ctx w).1 ≠ .error .unfinished ∧
    ∀ w', removeReplacedRbf tx height ctx w = (.ok (), w') → ReplacedSettled tx w' ∧ NoRefusal w w'

/-- An identifier whose record may fail, or one that is missing and was reported missing before. -/
def World.CanSettle (w : World) (txid : Txid) : Prop :=
  match w.store.txs.get txid with
  | some record => record.state = .toDispatch ∨ record.state = .inMempool ∨ record.state = .failed
  | none => w.Noted (.txNotFound txid)

/-- What a speedup replaced can all be settled, and no replacement is followed in a circle. -/
def ChainCanSettle (tx : CoordinatedTx) (w : World) : Prop :=
  ∀ txid, w.store.Replaced tx txid →
    w.CanSettle txid ∧ ¬ Relation.TransGen (LinksTo w.store.replaces?) txid txid

/-! ### One predecessor -/

/-- A record settled as failed, when the lifecycle allows it. -/
def CoordinatedTx.settleFailed (height : BlockHeight) (tx : CoordinatedTx) : CoordinatedTx :=
  if tx.state.canTransitionTo .failed then
    { tx with settledBlockHeight := some height, state := .failed }
  else tx

/-- Settling keeps what a record replaces. -/
@[simp] theorem CoordinatedTx.replaces?_settleFailed (height : BlockHeight) (tx : CoordinatedTx) :
    (tx.settleFailed height).replaces? = tx.replaces? := by
  unfold CoordinatedTx.settleFailed
  split <;> rfl

/-- Settling twice is settling once. -/
@[simp] theorem CoordinatedTx.settleFailed_settleFailed (height : BlockHeight)
    (tx : CoordinatedTx) : (tx.settleFailed height).settleFailed height = tx.settleFailed height := by
  by_cases h : tx.state.canTransitionTo .failed
  · simp only [settleFailed, h, if_true]
    rfl
  · simp [settleFailed, h]

/-- A record is failed after settling exactly when the lifecycle allows it. -/
theorem CoordinatedTx.settleFailed_state_iff (height : BlockHeight) (tx : CoordinatedTx) :
    (tx.settleFailed height).state = .failed ↔
      tx.state = .toDispatch ∨ tx.state = .inMempool ∨ tx.state = .failed := by
  unfold CoordinatedTx.settleFailed
  cases tx with
  | mk txid tx kind state => cases state <;> simp [TransactionState.canTransitionTo]

/-- Publishing leaves the store alone, stores the item and keeps the others. -/
theorem addNews_ok {news : CoordinatorNews} {b : Bool} (h : addNews news ctx w = (.ok b, w')) :
    w'.store = w.store ∧ w.news ⊆ w'.news ∧ w'.Noted news ∧ (w.Noted news → w'.news = w.news) := by
  have hnoted : w.Noted news ↔ news ∈ w.news.map StoredNewsItem.news := by simp [World.Noted]
  obtain ⟨hstore, ⟨-, hstored, hnews⟩ | ⟨-, hnew, hnews⟩⟩ := addNews_cases h
  · refine ⟨hstore, fun item hitem => by rwa [hnews], ?_, fun _ => hnews⟩
    obtain ⟨item, hitem, heq⟩ := hnoted.mpr hstored
    exact ⟨item, by rwa [hnews], heq⟩
  · refine ⟨hstore, ?_, ⟨⟨news, none⟩, by simp [hnews], rfl⟩, ?_⟩
    · rw [hnews]
      exact List.subset_append_left _ _
    · intro hmem
      exact absurd (hnoted.mp hmem) hnew

/-- Settling one identifier as failed: its record alone is settled, and a refusal is published exactly
when it cannot be settled. -/
theorem settleTx_failed_ok {txid : Txid} {height : BlockHeight} {u : Unit}
    (h : settleTx txid .failed height ctx w = (.ok u, w')) :
    (∀ id, w'.store.txs.get id =
      if id = txid then (w.store.txs.get id).map (CoordinatedTx.settleFailed height)
      else w.store.txs.get id) ∧
    w.news ⊆ w'.news ∧ (w.store.txs.get txid = none → w'.Noted (.txNotFound txid)) ∧
    (w.CanSettle txid → w'.news = w.news) := by
  unfold settleTx updateTxStateImpl at h
  simp only [TransactionState.isTerminal, if_true, reduceCtorEq, and_false, if_false] at h
  obtain ⟨found, w₁, hread, hbody⟩ := Prog.bind_ok.mp h
  obtain ⟨hfound, hw₁⟩ := readStore_ok.mp hread
  subst w₁
  cases hget : w.store.txs.get txid with
  | none =>
    rw [hget] at hfound
    subst hfound
    obtain ⟨b, w₂, hnews, hpure⟩ := Prog.bind_ok.mp hbody
    obtain ⟨-, hw'⟩ := Prog.pure_ok.mp hpure
    subst hw'
    obtain ⟨hstore, hsub, hnoted, hkeep⟩ := addNews_ok hnews
    refine ⟨?_, hsub, fun _ => hnoted, ?_⟩
    · intro id
      rw [hstore]
      split
      · next hid => rw [hid, hget]; rfl
      · rfl
    · intro hcan
      unfold World.CanSettle at hcan
      rw [hget] at hcan
      exact hkeep hcan
  | some tx =>
    rw [hget] at hfound
    subst hfound
    rcases Prog.ite_ok.mp hbody with ⟨hstep, hrun⟩ | ⟨hstep, hrun⟩
    · obtain ⟨-, rfl⟩ := writeStore_ok.mp hrun
      refine ⟨?_, fun _ hi => hi, fun hnone => absurd hnone (by simp), fun _ => rfl⟩
      intro id
      change (w.store.txs.set tx.txid _).get id = _
      have hkey := w.store.keyed txid tx hget
      rw [hkey, Table.get_set]
      by_cases hid : id = txid
      · simp [hid, hget, CoordinatedTx.settleFailed, hstep, hkey]
      · simp only [hid, if_false]
    · obtain ⟨b, w₂, hnews, hpure⟩ := Prog.bind_ok.mp hrun
      obtain ⟨-, hw'⟩ := Prog.pure_ok.mp hpure
      subst hw'
      obtain ⟨hstore, hsub, -, -⟩ := addNews_ok hnews
      refine ⟨?_, hsub, fun hnone => absurd hnone (by simp), ?_⟩
      · intro id
        rw [hstore]
        by_cases hid : id = txid
        · simp [hid, hget, CoordinatedTx.settleFailed, hstep]
        · simp only [hid, if_false]
      · intro hcan
        unfold World.CanSettle at hcan
        rw [hget] at hcan
        exact absurd (TransactionState.canTransitionTo_failed_iff.mpr hcan) hstep

/-! ### The whole chain -/

/-- What a completed loop from an identifier did: every record reached through the replacement links is
settled, no other record changed, and every refusal was published. -/
structure SettledChain (height : BlockHeight) (first : Txid) (w w' : World) : Prop where
  settled : ∀ id, Leads w.store.replaces? first id →
    w'.store.txs.get id = (w.store.txs.get id).map (CoordinatedTx.settleFailed height)
  untouched : ∀ id, ¬ Leads w.store.replaces? first id → w'.store.txs.get id = w.store.txs.get id
  news_subset : w.news ⊆ w'.news
  missing : ∀ id, Leads w.store.replaces? first id → w.store.txs.get id = none →
    w'.Noted (.txNotFound id)
  quiet : (∀ id, Leads w.store.replaces? first id → w.CanSettle id) → w'.news = w.news

/-- Settling some records keeps every replacement link. -/
theorem replaces?_eq_of_settled {s s' : Store} {height : BlockHeight}
    (h : ∀ id, s'.txs.get id = (s.txs.get id).map (CoordinatedTx.settleFailed height) ∨
      s'.txs.get id = s.txs.get id) : s'.replaces? = s.replaces? := by
  funext id
  unfold Store.replaces?
  rcases h id with heq | heq
  · rw [heq]
    cases s.txs.get id with
    | none => rfl
    | some tx => simp
  · rw [heq]

/-- What can be settled can still be settled after some records were. -/
theorem World.CanSettle.mono {id : Txid} {height : BlockHeight} (hcan : w.CanSettle id)
    (hrecord : w'.store.txs.get id = (w.store.txs.get id).map (CoordinatedTx.settleFailed height) ∨
      w'.store.txs.get id = w.store.txs.get id)
    (hnews : w.news ⊆ w'.news) : w'.CanSettle id := by
  unfold World.CanSettle at hcan ⊢
  cases hget : w.store.txs.get id with
  | none =>
    rw [hget] at hcan hrecord
    have hnone : w'.store.txs.get id = none := by simpa using hrecord
    obtain ⟨item, hitem, heq⟩ := hcan
    rw [hnone]
    exact ⟨item, hnews hitem, heq⟩
  | some tx =>
    rw [hget] at hcan hrecord
    rcases hrecord with heq | heq
    · have hfailed := (tx.settleFailed_state_iff height).mpr hcan
      rw [heq, Option.map_some]
      exact Or.inr (Or.inr hfailed)
    · rw [heq]
      exact hcan

/-- A monitor cancel touches neither the store nor the news. -/
theorem monitorCancel_ok {data : TypesToMonitor} {u : Unit}
    (h : monitorCancel data ctx w = (.ok u, w')) : w'.store = w.store ∧ w'.news = w.news := by
  obtain ⟨v, w₁, hquery, hnote⟩ := Prog.bind_ok.mp h
  obtain ⟨-, rfl⟩ := query_ok.mp hquery
  have hw' := note_ok.mp hnote
  subst w'
  exact ⟨rfl, rfl⟩

/-- A completed loop settled the whole chain. The induction is on the bound; a record that the rest of
the chain leads back to is settled twice, which changes nothing. -/
theorem removeReplacedFrom_ok {context : String} {height : BlockHeight} {bound : ℕ} {first : Txid}
    (h : removeReplacedFrom context height bound first ctx w = (.ok (), w')) :
    SettledChain height first w w' := by
  induction bound generalizing first w with
  | zero => exact absurd h (by simp [removeReplacedFrom])
  | succ bound ih =>
    obtain ⟨found, w₀, hread, hbody⟩ := Prog.bind_ok.mp h
    obtain ⟨rfl, hw₀⟩ := readStore_ok.mp hread
    subst w₀
    obtain ⟨_, w₁, hcancel, hbody⟩ := Prog.bind_ok.mp hbody
    obtain ⟨_, w₂, hsettle, hrest⟩ := Prog.bind_ok.mp hbody
    obtain ⟨hstore, hnews⟩ := monitorCancel_ok hcancel
    obtain ⟨hget, hsub, hmissing, hquiet⟩ := settleTx_failed_ok hsettle
    have hcan_iff : ∀ id, w₁.CanSettle id ↔ w.CanSettle id := by
      intro id
      unfold World.CanSettle World.Noted
      rw [hstore, hnews]
    simp only [hstore, hnews, hcan_iff] at hget hsub hmissing hquiet
    have hone : ∀ id, w₂.store.txs.get id =
        (w.store.txs.get id).map (CoordinatedTx.settleFailed height) ∨
        w₂.store.txs.get id = w.store.txs.get id := by
      intro id
      rw [hget]
      split
      · exact Or.inl rfl
      · exact Or.inr rfl
    have hself : w₂.store.txs.get first =
        (w.store.txs.get first).map (CoordinatedTx.settleFailed height) := by
      rw [hget, if_pos rfl]
    have hother : ∀ id, id ≠ first → w₂.store.txs.get id = w.store.txs.get id := by
      intro id hid
      rw [hget, if_neg hid]
    have hlinks := replaces?_eq_of_settled hone
    cases hnext : w.store.replaces? first with
    | none =>
      have hend : (w.store.txs.get first).bind CoordinatedTx.replaces? = none := hnext
      rw [hend] at hrest
      obtain ⟨-, rfl⟩ := Prog.pure_ok.mp hrest
      have hlead : ∀ id, Leads w.store.replaces? first id ↔ id = first := by
        intro id
        rw [leads_iff, hnext]
        simp
      constructor
      case settled =>
        intro id hid
        rw [(hlead id).mp hid, hself]
      case untouched =>
        intro id hid
        exact hother id fun heq => hid ((hlead id).mpr heq)
      case news_subset => exact hsub
      case missing =>
        intro id hid
        rw [(hlead id).mp hid]
        exact hmissing
      case quiet =>
        intro hall
        exact hquiet (hall first ((hlead first).mpr rfl))
    | some older =>
      have hlink : (w.store.txs.get first).bind CoordinatedTx.replaces? = some older := hnext
      rw [hlink] at hrest
      have hchain := ih hrest
      have hlead : ∀ id, Leads w.store.replaces? first id ↔
          id = first ∨ Leads w₂.store.replaces? older id := by
        intro id
        rw [leads_iff, hnext, hlinks]
        simp
      constructor
      case settled =>
        intro id hid
        by_cases hrest : Leads w₂.store.replaces? older id
        · rw [hchain.settled id hrest]
          rcases hone id with heq | heq <;> rw [heq]
          rw [Option.map_map]
          congr 1
          funext tx
          simp
        · obtain rfl := ((hlead id).mp hid).resolve_right hrest
          rw [hchain.untouched id hrest, hself]
      case untouched =>
        intro id hid
        rw [hlead, not_or] at hid
        rw [hchain.untouched id hid.2, hother id hid.1]
      case news_subset => exact fun item hitem => hchain.news_subset (hsub hitem)
      case missing =>
        intro id hid hnone
        rcases (hlead id).mp hid with rfl | hrest
        · obtain ⟨item, hitem, heq⟩ := hmissing hnone
          exact ⟨item, hchain.news_subset hitem, heq⟩
        · apply hchain.missing id hrest
          rcases hone id with heq | heq <;> simp [heq, hnone]
      case quiet =>
        intro hall
        rw [hchain.quiet, hquiet (hall first ((hlead first).mpr (Or.inl rfl)))]
        intro id hid
        exact (hall id ((hlead id).mpr (Or.inr hid))).mono (hone id) hsub

/-! ### Termination -/

/-- The backend takes every write and the monitor carries out every cancel. -/
def Answers.AcceptAll (answers : Answers) : Prop :=
  (∀ n, answers.storage n = .ok ()) ∧ ∀ n data, answers.cancel n data = .ok ()

/-- A refused question is an error, not an endless loop. -/
theorem query_avoids {α : Type} {wrap : String → BitcoinCoordinatorError}
    {question : Answers → ℕ → Except String α} :
    Prog.Avoids .unfinished (query wrap question) ctx w := by
  unfold Prog.Avoids query
  split <;> simp

variable {stop : Stop}

/-- A refused write stops with the backend's error. -/
theorem writeStore_avoids {f : Store → Store}
    (hstop : ∀ reason, stop ≠ .error (.storageBackendError reason)) :
    Prog.Avoids stop (writeStore f) ctx w := by
  unfold Prog.Avoids writeStore
  split
  · simp
  · next e _ =>
    intro heq
    exact hstop e (Except.error.inj heq).symm

/-- Publishing stops with the backend's error. -/
theorem addNews_avoids (news : CoordinatorNews)
    (hstop : ∀ reason, stop ≠ .error (.storageBackendError reason)) :
    Prog.Avoids stop (addNews news) ctx w := by
  have hwrite : ∀ f w, Prog.Avoids stop (writeNews f) ctx w := by
    intro f w
    unfold Prog.Avoids writeNews
    split
    · simp
    · next e _ =>
      intro heq
      exact hstop e (Except.error.inj heq).symm
  apply Prog.Avoids.seq (Prog.Avoids.read _)
  intro all w₁
  apply Prog.Avoids.ite <;> intro _
  · exact Prog.Avoids.pure _
  · exact Prog.Avoids.seq (hwrite _ _) fun _ _ => Prog.Avoids.pure _

/-- Settling one identifier ends. -/
theorem settleTx_failed_avoids (txid : Txid) (height : BlockHeight) :
    Prog.Avoids .unfinished (settleTx txid .failed height) ctx w := by
  have hpublish : ∀ news w, Prog.Avoids .unfinished
      (do let _ ← addNews news; pure () : Coord Unit) ctx w :=
    fun news _ => Prog.Avoids.seq (addNews_avoids news (by simp)) fun _ _ => Prog.Avoids.pure _
  unfold settleTx updateTxStateImpl
  simp only [TransactionState.isTerminal, if_true, reduceCtorEq, and_false, if_false]
  apply Prog.Avoids.seq (Prog.Avoids.read _)
  intro found w₁
  cases found with
  | none => exact hpublish _ _
  | some tx =>
    apply Prog.Avoids.ite <;> intro _
    · exact writeStore_avoids (by simp)
    · exact hpublish _ _

/-- Settling one identifier completes when the backend takes every write. -/
theorem settleTx_failed_completes (haccept : ctx.answers.AcceptAll) (txid : Txid)
    (height : BlockHeight) : Prog.Completes (settleTx txid .failed height) ctx w := by
  have hwrite : ∀ f w, Prog.Completes (writeStore f) ctx w :=
    fun f w => ⟨(), _, writeStore_ok.mpr ⟨haccept.1 _, rfl⟩⟩
  have hpublish : ∀ news w, Prog.Completes
      (do let _ ← addNews news; pure () : Coord Unit) ctx w := by
    intro news w
    refine Prog.Completes.seq ?_ fun _ _ => Prog.Completes.pure _
    apply Prog.Completes.seq (Prog.Completes.read _)
    intro all w₁
    apply Prog.Completes.ite <;> intro _
    · exact Prog.Completes.pure _
    · refine Prog.Completes.seq ?_ fun _ _ => Prog.Completes.pure _
      exact ⟨(), _, writeNews_ok.mpr ⟨haccept.1 _, rfl⟩⟩
  unfold settleTx updateTxStateImpl
  simp only [TransactionState.isTerminal, if_true, reduceCtorEq, and_false, if_false]
  apply Prog.Completes.seq (Prog.Completes.read _)
  intro found w₁
  cases found with
  | none => exact hpublish _ _
  | some tx =>
    apply Prog.Completes.ite <;> intro _
    · exact hwrite _ _
    · exact hpublish _ _

/-- One round of the loop changes no replacement link. -/
theorem replaces?_round {data : TypesToMonitor} {txid : Txid} {height : BlockHeight} {w₁ w₂ : World}
    {u v : Unit} (hcancel : monitorCancel data ctx w = (.ok u, w₁))
    (hsettle : settleTx txid .failed height ctx w₁ = (.ok v, w₂)) :
    w₂.store.replaces? = w.store.replaces? := by
  obtain ⟨hstore, -⟩ := monitorCancel_ok hcancel
  obtain ⟨hget, -⟩ := settleTx_failed_ok hsettle
  rw [← hstore]
  apply replaces?_eq_of_settled
  intro id
  rw [hget]
  split
  · exact Or.inl rfl
  · exact Or.inr rfl

/-- The loop comes to an end when the chain does, whatever it is answered. -/
theorem removeReplacedFrom_avoids {context : String} {height : BlockHeight} {bound : ℕ} {first : Txid}
    (h : EndsWithin w.store.replaces? bound first) :
    Prog.Avoids .unfinished (removeReplacedFrom context height bound first) ctx w := by
  induction bound generalizing first w with
  | zero => exact h.elim
  | succ bound ih =>
    apply Prog.Avoids.bind (Prog.Avoids.read _)
    intro found w₀ hread
    obtain ⟨rfl, hw₀⟩ := Prog.read_ok.mp hread
    subst w₀
    apply Prog.Avoids.bind
    · exact Prog.Avoids.seq query_avoids fun _ _ => Prog.Avoids.of_completes ⟨_, _, rfl⟩
    intro _ w₁ hcancel
    apply Prog.Avoids.bind (settleTx_failed_avoids _ _)
    intro _ w₂ hsettle
    cases hnext : w.store.replaces? first with
    | none =>
      have hend : (w.store.txs.get first).bind CoordinatedTx.replaces? = none := hnext
      rw [hend]
      exact Prog.Avoids.pure _
    | some older =>
      have hlink : (w.store.txs.get first).bind CoordinatedTx.replaces? = some older := hnext
      rw [hlink]
      apply ih
      rw [replaces?_round hcancel hsettle]
      exact h older hnext

/-- When nothing is refused, the loop completes on a chain that ends and runs for ever on one that does
not. -/
theorem removeReplacedFrom_accepted {context : String} {height : BlockHeight} {bound : ℕ}
    {first : Txid} (haccept : ctx.answers.AcceptAll) :
    (EndsWithin w.store.replaces? bound first →
      Prog.Completes (removeReplacedFrom context height bound first) ctx w) ∧
    (¬ EndsWithin w.store.replaces? bound first →
      (removeReplacedFrom context height bound first ctx w).1 = .error .unfinished) := by
  induction bound generalizing first w with
  | zero => exact ⟨False.elim, fun _ => rfl⟩
  | succ bound ih =>
    obtain ⟨u, w₁, hcancel⟩ : Prog.Completes
        (monitorCancel (.transactions [first] context none)) ctx w :=
      ⟨(), _, Prog.bind_ok.mpr ⟨(), w.asked, query_ok.mpr ⟨haccept.2 _ _, rfl⟩, rfl⟩⟩
    obtain ⟨v, w₂, hsettle⟩ := settleTx_failed_completes (w := w₁) haccept first height
    have hlinks := replaces?_round hcancel hsettle
    have hread : getTxById first ctx w = (.ok (w.store.txs.get first), w) := rfl
    have hrun : removeReplacedFrom context height (bound + 1) first ctx w =
        ((w.store.replaces? first).elim (pure ()) (removeReplacedFrom context height bound))
          ctx w₂ := by
      unfold removeReplacedFrom
      rw [Prog.bind_of_ok hread, Prog.bind_of_ok hcancel, Prog.bind_of_ok hsettle]
      unfold Store.replaces?
      cases (w.store.txs.get first).bind CoordinatedTx.replaces? <;> rfl
    unfold Prog.Completes
    rw [hrun]
    cases hnext : w.store.replaces? first with
    | none =>
      refine ⟨fun _ => ⟨(), w₂, rfl⟩, fun hends => ?_⟩
      exact absurd (fun older hlink => by rw [hnext] at hlink; cases hlink) hends
    | some older =>
      have hends : EndsWithin w.store.replaces? (bound + 1) first ↔
          EndsWithin w₂.store.replaces? bound older := by
        simp [EndsWithin, hnext, hlinks]
      rw [hends]
      exact ih

/-- A circle of replacements is followed for ever: the loop outlasts every bound. -/
theorem removeReplacedFrom_loops {context : String} {height : BlockHeight} {first : Txid}
    (haccept : ctx.answers.AcceptAll) (hcycle : ¬ AcyclicFrom w.store.replaces? first) (bound : ℕ) :
    (removeReplacedFrom context height bound first ctx w).1 = .error .unfinished :=
  (removeReplacedFrom_accepted haccept).2 fun hends => hcycle hends.acyclicFrom

/-! ### When the chain is settled -/

/-- Every identifier with a replacement link is tracked. -/
theorem mem_tracked_of_replaces? {s : Store} {txid : Txid} (h : (s.replaces? txid).isSome) :
    txid ∈ s.txs.values.map CoordinatedTx.txid := by
  unfold Store.replaces? at h
  cases hget : s.txs.get txid with
  | none =>
    rw [hget] at h
    cases h
  | some tx =>
    have hkey := s.keyed txid tx hget
    rw [← hkey]
    apply List.mem_map_of_mem
    rw [Store.mem_values, hkey, hget]

/-- The bound of the loop is large enough exactly when the chain has no circle. -/
theorem endsWithin_tracked_iff {s : Store} {first : Txid} :
    EndsWithin s.replaces? (s.txs.values.length + 1) first ↔ AcyclicFrom s.replaces? first := by
  have hbound := endsWithin_iff_acyclicFrom (a := first)
    (fun _ h => mem_tracked_of_replaces? (s := s) h)
  rwa [List.length_map] at hbound

/-- A record that may fail is stamped with the height. -/
theorem CoordinatedTx.settledBlockHeight_settleFailed {tx : CoordinatedTx} {height : BlockHeight}
    (h : tx.state = .toDispatch ∨ tx.state = .inMempool ∨ tx.state = .failed) :
    (tx.settleFailed height).settledBlockHeight = some height := by
  have hstep := TransactionState.canTransitionTo_failed_iff.mpr h
  simp [CoordinatedTx.settleFailed, hstep]

/-- A completed loop changed no replacement link. -/
theorem SettledChain.replaces?_eq {height : BlockHeight} {first : Txid}
    (h : SettledChain height first w w') : w'.store.replaces? = w.store.replaces? := by
  apply replaces?_eq_of_settled
  intro id
  by_cases hlead : Leads w.store.replaces? first id
  · exact Or.inl (h.settled id hlead)
  · exact Or.inr (h.untouched id hlead)

/-- What a finalized RBF replaced is settled, the loop over it ends and no refusal is published, exactly
when every record it leads to may fail, every missing one was reported before, and no replacement is
followed in a circle. -/
theorem settlesReplaced_iff (tx : CoordinatedTx) (height : BlockHeight) (w : World) :
    SettlesReplaced tx height w ↔ ChainCanSettle tx w := by
  cases hfirst : tx.replaces? with
  | none =>
    have hempty : ∀ s id, ¬ Store.Replaced s tx id := by
      rintro s id ⟨first, heq, -⟩
      rw [hfirst] at heq
      cases heq
    have hrun : removeReplacedRbf tx height = pure () := by
      unfold removeReplacedRbf
      rw [hfirst]
    unfold SettlesReplaced
    rw [hrun]
    constructor
    · exact fun _ id hid => absurd hid (hempty _ id)
    · intro _ ctx
      refine ⟨Prog.Avoids.pure _, ?_⟩
      intro w' hw'
      obtain ⟨-, rfl⟩ := Prog.pure_ok.mp hw'
      exact ⟨fun id hid => absurd hid (hempty _ id), fun item hitem => Or.inl hitem⟩
  | some first =>
    have hreplaced : ∀ s id, Store.Replaced s tx id ↔ Leads s.replaces? first id := by
      intro s id
      simp [Store.Replaced, hfirst]
    have hrun : ∀ ctx, removeReplacedRbf tx height ctx w =
        removeReplacedFrom tx.context height (w.store.txs.values.length + 1) first ctx w := by
      intro ctx
      unfold removeReplacedRbf
      rw [hfirst]
      rfl
    unfold SettlesReplaced
    simp only [hrun]
    constructor
    · intro h
      let ctx : Ctx := ⟨defaultSettings, (sampleView 0 [] []).answers (plainBuilder id) 0 0⟩
      have haccept : ctx.answers.AcceptAll := ⟨fun _ => rfl, fun _ _ => rfl⟩
      obtain ⟨hends, hdone⟩ := h ctx
      have hbound : EndsWithin w.store.replaces? (w.store.txs.values.length + 1) first := by
        by_contra hlong
        exact hends ((removeReplacedFrom_accepted haccept).2 hlong)
      have hcompletes : Prog.Completes (removeReplacedFrom tx.context height
          (w.store.txs.values.length + 1) first) ctx w :=
        (removeReplacedFrom_accepted haccept).1 hbound
      obtain ⟨u, w', hw'⟩ := hcompletes
      obtain ⟨hsettled, hquiet⟩ := hdone w' hw'
      have hchain := removeReplacedFrom_ok hw'
      intro id hid
      rw [hreplaced] at hid
      refine ⟨?_, hbound.acyclicFrom id hid⟩
      unfold World.CanSettle
      cases hget : w.store.txs.get id with
      | none =>
        obtain ⟨item, hitem, heq⟩ := hchain.missing id hid hget
        rcases hquiet item hitem with hold | hother
        · exact ⟨item, hold, heq⟩
        · exact absurd (by rw [heq]; trivial) hother
      | some record =>
        have hrecord : w'.store.txs.get id = some (record.settleFailed height) := by
          rw [hchain.settled id hid, hget]
          rfl
        have hid' : w'.store.Replaced tx id := by
          rw [hreplaced, hchain.replaces?_eq]
          exact hid
        exact (record.settleFailed_state_iff height).mp (hsettled id hid' _ hrecord).1
    · intro hcan ctx
      have hacyclic : AcyclicFrom w.store.replaces? first :=
        fun id hlead => (hcan id ((hreplaced _ _).mpr hlead)).2
      refine ⟨removeReplacedFrom_avoids (endsWithin_tracked_iff.mpr hacyclic), ?_⟩
      intro w' hw'
      have hchain := removeReplacedFrom_ok hw'
      constructor
      · intro id hid record hrecord
        rw [hreplaced, hchain.replaces?_eq] at hid
        have hstate := (hcan id ((hreplaced _ _).mpr hid)).1
        rw [hchain.settled id hid] at hrecord
        obtain ⟨old, hget, rfl⟩ := Option.map_eq_some_iff.mp hrecord
        unfold World.CanSettle at hstate
        rw [hget] at hstate
        refine ⟨(old.settleFailed_state_iff height).mpr hstate, ?_⟩
        rw [CoordinatedTx.settledBlockHeight_settleFailed hstate]
        rfl
      · intro item hitem
        rw [hchain.quiet fun id hid => (hcan id ((hreplaced _ _).mpr hid)).1] at hitem
        exact Or.inl hitem

/-! ### A replaced speedup that confirms first -/

/-- Settings under which the second speedup is an RBF. -/
def singleSpeedupSettings : BitcoinSettings :=
  { speedup := { maxUnconfirmedSpeedups := 1 }, monitor := ⟨6⟩ }

/-- A builder whose speedups all have the same size. -/
def fixedBuilder : Builder := plainBuilder fun _ => 200

/-- The CPFP of the example run. -/
def replacedCpfp : Transaction := fixedBuilder [sampleAnchor] [sampleFunding] 7 3350

/-- The RBF of the example run. -/
def replacingRbf : Transaction := fixedBuilder [sampleAnchor] [sampleFunding] 7 6900

/-- A CPFP is accepted and replaced by an RBF, which is accepted too. A block then confirms the CPFP, and
the next block, after a reorg, the RBF. -/
def confirmedFirstCalls : List Call :=
  let first := sampleView 100 [] [sampleParent]
  let mined := { sampleView 102 [] [] with chain := [(sampleParent, 1), (replacedCpfp, 1)] }
  let reorged := { sampleView 103 [] [] with chain := [(sampleParent, 2), (replacingRbf, 1)] }
  [first.call fixedBuilder 10 0 (.addFunding sampleFunding),
    first.call fixedBuilder 10 0 (.dispatchWithSpeedup sampleParent sampleAnchor "parent" none none),
    first.call fixedBuilder 10 0 .tick,
    (sampleView 100 [sampleParent] [replacedCpfp]).call fixedBuilder 10 0 .tick,
    (sampleView 101 [sampleParent, replacedCpfp] []).call fixedBuilder 10 0 .tick,
    (sampleView 101 [sampleParent] [replacingRbf]).call fixedBuilder 10 0 .tick,
    mined.call fixedBuilder 10 0 .tick,
    reorged.call fixedBuilder 10 10 .tick]

/-- The tick that finds the RBF buried. -/
def rbfBuriedCall : Call :=
  let buried := { sampleView 108 [] [] with chain := [(sampleParent, 7), (replacingRbf, 6)] }
  buried.call fixedBuilder 10 20 .tick

/-- An RBF is finalized while the CPFP it replaced stays confirmed, with a refusal published. -/
theorem exists_replaced_unsettled :
    ∃ (cfg : BitcoinSettings) (calls : List Call) (last : Call) (w w' : World) (tx : CoordinatedTx),
      cfg.validate = .ok () ∧
      (∀ call ∈ calls ++ [last], call.SeesOneView ∧ call.answers.SpendsRequested) ∧
      OkRun cfg calls World.init w ∧ OkRun cfg [last] w w' ∧
      w'.store.txs.get tx.txid = some tx ∧ tx.state = .finalized ∧
      ¬ ReplacedSettled tx w' ∧ ¬ NoRefusal w w' := by
  let w := runCalls singleSpeedupSettings confirmedFirstCalls World.init
  let w' := runCalls singleSpeedupSettings [rbfBuriedCall] w
  obtain ⟨tx, hget, hfinalized, hreplaces⟩ : ∃ tx ∈ w'.store.txs.get replacingRbf.computeTxid,
      tx.state = .finalized ∧ tx.replaces? = some replacedCpfp.computeTxid := by decide +kernel
  obtain ⟨old, hold, hstate⟩ : ∃ old ∈ w'.store.txs.get replacedCpfp.computeTxid,
      old.state = .confirmed := by decide +kernel
  obtain ⟨item, hitem, hnew, hrefused⟩ : ∃ item ∈ w'.news, item ∉ w.news ∧
      item.news = .invalidStateTransition replacedCpfp.computeTxid .confirmed .failed := by
    decide +kernel
  refine ⟨singleSpeedupSettings, confirmedFirstCalls, rbfBuriedCall, w, w', tx, by decide +kernel, ?_,
    okRun_runCalls (by decide +kernel), okRun_runCalls (by decide +kernel), ?_, hfinalized, ?_, ?_⟩
  · intro call hcall
    simp only [confirmedFirstCalls, rbfBuriedCall, List.cons_append, List.nil_append, List.mem_cons,
      List.not_mem_nil, or_false] at hcall
    rcases hcall with rfl | rfl | rfl | rfl | rfl | rfl | rfl | rfl | rfl <;>
      exact ⟨NodeView.call_seesOneView (by decide +kernel) _ _ _ _,
        plainBuilder_spendsRequested _ _ _ _⟩
  · rw [w'.store.keyed _ tx hget]
    exact hget
  · intro hsettled
    have hfailed := (hsettled _ ⟨_, hreplaces, Relation.ReflTransGen.refl⟩ old hold).1
    rw [hstate] at hfailed
    cases hfailed
  · intro hquiet
    rcases hquiet item hitem with hmem | hother
    · exact hnew hmem
    · exact hother (by rw [hrefused]; trivial)

end BitcoinCoordinator
