import BitcoinCoordinator.Ownership
import BitcoinCoordinator.Foundation.Docket

/-!
# The store as a docket

Seen from outside, the coordinator keeps a docket. A tracked transaction has a card, which says what it is and never
changes, and a state, which moves along the lifecycle. It enters to be dispatched, and it leaves once it has settled or,
if it is a client's, before it is sent. The writes of a run are the turns of this docket, but for two: a copy written
back over a record that failed meanwhile, and a speedup stored over a record that is tracked already.
-/

namespace BitcoinCoordinator

open Foundation

variable {ctx : Ctx} {tidy : Prop} {phase : Phase} {w w' : World}

/-! ### Cards -/

/-- What a tracked transaction is, whatever becomes of it. -/
structure Card where
  tx : Transaction
  kind : TxKind
  targetBlockHeight : BlockHeight
  confirmationTrigger : Option ℕ
  stuckInMempoolBlocks : Option ℕ
  context : String
  deriving DecidableEq

/-- The card of a record. The marks on its kind are left out, since they come and go with other transactions. -/
def CoordinatedTx.card (tx : CoordinatedTx) : Card where
  tx := tx.tx
  kind := tx.kind.unmarked
  targetBlockHeight := tx.targetBlockHeight
  confirmationTrigger := tx.confirmationTrigger
  stuckInMempoolBlocks := tx.stuckInMempoolBlocks
  context := tx.context

/-- The docket a store keeps. -/
def Store.docket (s : Store) : Docket Txid Card TransactionState :=
  fun txid => (s.txs.get txid).map fun tx => (tx.card, tx.state)

/-- The rules of the docket. -/
def lifecycle : DocketRules Card TransactionState where
  enters _ state := state = .toDispatch
  moves state state' := state.canTransitionTo state'
  leaves card state := state.isTerminal ∨ state = .toDispatch ∧ ∀ kind, card.kind ≠ .speedup kind

/-- A changed record keeps its card. -/
theorem Change.card_eq {log : List Event} {tx tx' : CoordinatedTx} (h : Change tidy log tx phase tx') :
    tx'.card = tx.card := by
  cases h with
  | mark _ kind mark hkind =>
    unfold CoordinatedTx.card
    rw [TxKind.unmarked_apply, hkind]
  | _ => rfl

/-- A record written back has the card of its copy. -/
theorem Rewrite.card_eq {copy updated : CoordinatedTx} (h : Rewrite copy updated) : updated.card = copy.card := by
  cases h <;> rfl

/-- A record that drifted from a copy has its card. -/
theorem Drifted.card_eq {copy record : CoordinatedTx} (h : Drifted copy record) : record.card = copy.card := by
  have hcore : ∀ {α : Type} (field : CoordinatedTx → α), field record.core = field copy.core :=
    fun field => congrArg field h.core
  unfold CoordinatedTx.card
  congr 1
  · exact hcore CoordinatedTx.tx
  · exact hcore CoordinatedTx.kind
  · exact hcore CoordinatedTx.targetBlockHeight
  · exact hcore CoordinatedTx.confirmationTrigger
  · exact hcore CoordinatedTx.stuckInMempoolBlocks
  · exact hcore CoordinatedTx.context

/-! ### Writes as turns -/

/-- What is found in the docket. -/
theorem Store.docket_of_get {s : Store} {txid : Txid} {tx : CoordinatedTx} (h : s.txs.get txid = some tx) :
    s.docket txid = some (tx.card, tx.state) := by
  unfold Store.docket
  rw [h]
  rfl

/-- The docket after a record was put. -/
theorem Store.docket_setTx (s : Store) (tx : CoordinatedTx) (txid : Txid) :
    (s.setTx tx).docket txid = if txid = tx.txid then some (tx.card, tx.state) else s.docket txid := by
  unfold Store.docket
  rw [Store.get_setTx]
  split <;> rfl

/-- A write that leaves the records alone leaves the docket. -/
theorem turns_of_txs_eq {s s' : Store} (h : s'.txs = s.txs) : lifecycle.Turns s.docket s'.docket := by
  left
  unfold Store.docket
  rw [h]

/-- Putting a record is a turn exactly when it enters to be dispatched or keeps its card and moves along the
lifecycle. -/
theorem turns_setTx_iff {s : Store} {tx : CoordinatedTx} : lifecycle.Turns s.docket (s.setTx tx).docket ↔
    (s.txs.get tx.txid = none → tx.state = .toDispatch) ∧
      ∀ old, s.txs.get tx.txid = some old → old.card = tx.card ∧ old.state.canTransitionTo tx.state := by
  have hself : (s.setTx tx).docket tx.txid = some (tx.card, tx.state) := by
    rw [Store.docket_setTx, if_pos rfl]
  constructor
  · intro hturns
    constructor
    · intro hfresh
      have hnone : s.docket tx.txid = none := by
        unfold Store.docket
        rw [hfresh]
        rfl
      rcases hturns.turnsAt tx.txid with hsame | hturn
      · rw [hself, hnone] at hsame
        cases hsame
      · rw [hself, hnone] at hturn
        cases hturn with
        | entered h => exact h
    · intro old hold
      rcases hturns.turnsAt tx.txid with hsame | hturn
      · rw [hself, Store.docket_of_get hold] at hsame
        obtain ⟨hcard, hstate⟩ := Prod.mk.inj (Option.some.inj hsame)
        exact ⟨hcard.symm, by rw [hstate]; exact TransactionState.canTransitionTo_self _⟩
      · rw [hself, Store.docket_of_get hold] at hturn
        generalize hcard : tx.card = card at hturn
        cases hturn with
        | moved h => exact ⟨rfl, h⟩
  · rintro ⟨hfresh, hold⟩
    right
    refine ⟨tx.txid, ?_, fun txid hne => by rw [Store.docket_setTx, if_neg hne]⟩
    rw [hself]
    cases hget : s.txs.get tx.txid with
    | none =>
      have hnone : s.docket tx.txid = none := by
        unfold Store.docket
        rw [hget]
        rfl
      rw [hnone]
      exact DocketRules.Turn.entered (hfresh hget)
    | some old =>
      obtain ⟨hcard, hstep⟩ := hold old hget
      rw [Store.docket_of_get hget, hcard]
      exact DocketRules.Turn.moved hstep

/-- Changing a record in place along the lifecycle is a turn. -/
theorem turns_changed {s : Store} {old tx : CoordinatedTx} (hget : s.txs.get old.txid = some old)
    (htxid : tx.txid = old.txid) (hcard : tx.card = old.card) (hstep : old.state.canTransitionTo tx.state) :
    lifecycle.Turns s.docket (s.setTx tx).docket := by
  apply turns_setTx_iff.mpr
  rw [htxid, hget]
  constructor
  · intro hnone
    cases hnone
  · rintro record hrecord
    cases hrecord
    exact ⟨hcard.symm, hstep⟩

/-- Dropping a record that may leave is a turn. -/
theorem turns_eraseTx {s : Store} {txid : Txid}
    (h : ∀ tx, s.txs.get txid = some tx → lifecycle.leaves tx.card tx.state) :
    lifecycle.Turns s.docket (s.eraseTx txid).docket := by
  have hothers : ∀ id, id ≠ txid → (s.eraseTx txid).docket id = s.docket id := by
    intro id hne
    unfold Store.docket
    rw [Store.get_eraseTx, if_neg hne]
  have hself : (s.eraseTx txid).docket txid = none := by
    unfold Store.docket
    rw [Store.get_eraseTx, if_pos rfl]
    rfl
  cases hget : s.txs.get txid with
  | none =>
    left
    funext id
    by_cases hid : id = txid
    · subst hid
      rw [hself]
      unfold Store.docket
      rw [hget]
      rfl
    · exact hothers id hid
  | some tx =>
    right
    refine ⟨txid, ?_, hothers⟩
    rw [hself, Store.docket_of_get hget]
    exact DocketRules.Turn.left (h tx hget)

/-- A record that is no speedup has the card of none. -/
theorem CoordinatedTx.card_kind_ne {tx : CoordinatedTx} (h : tx.speedup? = none) (kind : SpeedupKind) :
    tx.card.kind ≠ .speedup kind := by
  unfold CoordinatedTx.speedup? at h
  unfold CoordinatedTx.card
  cases hkind : tx.kind with
  | speedup k =>
    rw [hkind] at h
    cases h
  | _ => simp [TxKind.unmarked]

/-! ### Histories -/

/-- Every write of a history is a turn of the docket. -/
def RefinesDocket (log : List Event) : Prop :=
  ∀ p ∈ writes log, lifecycle.Turns p.1.docket p.2.1.docket

/-- No copy was written back over a record that failed meanwhile, and no speedup was stored over a record, unless over
one with its card that could go back to dispatch. -/
structure KeepsCards (log : List Event) : Prop where
  rewrites : ∀ copy before, .rewrote copy before ∈ log → ∀ old, before.txs.get copy.txid = some old →
    old.state ≠ .failed
  builds : ∀ tx before, .inserted tx before ∈ log → ∀ old, before.txs.get tx.txid = some old →
    old.card = tx.card ∧ old.state.canTransitionTo .toDispatch

/-- A write is judged over the version it was made on. -/
theorem refinesDocket_wrote {before after : Store} {log : List Event} :
    RefinesDocket (.wrote before after :: log) ↔
      lifecycle.Turns before.docket after.docket ∧ RefinesDocket log :=
  List.forall_mem_cons

/-- Other moments are no turns. -/
theorem refinesDocket_noted {e : Event} {log : List Event} (h : ∀ before after, e ≠ .wrote before after) :
    RefinesDocket (e :: log) ↔ RefinesDocket log := by
  cases e <;> first | rfl | exact absurd rfl (h _ _)

/-- A copy written back is judged over the version it was written to. -/
theorem keepsCards_rewrote {copy : CoordinatedTx} {before : Store} {log : List Event} :
    KeepsCards (.rewrote copy before :: log) ↔
      (∀ old, before.txs.get copy.txid = some old → old.state ≠ .failed) ∧ KeepsCards log := by
  constructor
  · rintro ⟨hrewrites, hbuilds⟩
    exact ⟨hrewrites copy before List.mem_cons_self,
      fun c b h => hrewrites c b (List.mem_cons_of_mem _ h), fun t b h => hbuilds t b (List.mem_cons_of_mem _ h)⟩
  · rintro ⟨hcopy, hrewrites, hbuilds⟩
    constructor
    · intro c b h
      rcases List.mem_cons.mp h with heq | hold
      · cases heq
        exact hcopy
      · exact hrewrites c b hold
    · intro t b h
      rcases List.mem_cons.mp h with heq | hold
      · cases heq
      · exact hbuilds t b hold

/-- A stored speedup is judged over the version it was stored on. -/
theorem keepsCards_inserted {tx : CoordinatedTx} {before : Store} {log : List Event} :
    KeepsCards (.inserted tx before :: log) ↔
      (∀ old, before.txs.get tx.txid = some old → old.card = tx.card ∧ old.state.canTransitionTo .toDispatch) ∧
        KeepsCards log := by
  constructor
  · rintro ⟨hrewrites, hbuilds⟩
    exact ⟨hbuilds tx before List.mem_cons_self,
      fun c b h => hrewrites c b (List.mem_cons_of_mem _ h), fun t b h => hbuilds t b (List.mem_cons_of_mem _ h)⟩
  · rintro ⟨htx, hrewrites, hbuilds⟩
    constructor
    · intro c b h
      rcases List.mem_cons.mp h with heq | hold
      · cases heq
      · exact hrewrites c b hold
    · intro t b h
      rcases List.mem_cons.mp h with heq | hold
      · cases heq
        exact htx
      · exact hbuilds t b hold

/-- Other moments are not judged. -/
theorem keepsCards_noted {e : Event} {log : List Event} (hrewrote : ∀ copy before, e ≠ .rewrote copy before)
    (hinserted : ∀ tx before, e ≠ .inserted tx before) : KeepsCards (e :: log) ↔ KeepsCards log := by
  constructor
  · rintro ⟨hrewrites, hbuilds⟩
    exact ⟨fun c b h => hrewrites c b (List.mem_cons_of_mem _ h),
      fun t b h => hbuilds t b (List.mem_cons_of_mem _ h)⟩
  · rintro ⟨hrewrites, hbuilds⟩
    constructor
    · intro c b h
      rcases List.mem_cons.mp h with heq | hold
      · exact absurd heq.symm (hrewrote c b)
      · exact hrewrites c b hold
    · intro t b h
      rcases List.mem_cons.mp h with heq | hold
      · exact absurd heq.symm (hinserted t b)
      · exact hbuilds t b hold

/-- A copy written back over a record that drifted from it is a turn exactly when the record has not failed. -/
theorem turns_rewrote_iff {s : Store} {copy updated record : CoordinatedTx} (hrewrite : Rewrite copy updated)
    (hget : s.txs.get copy.txid = some record) (hdrift : Drifted copy record) :
    lifecycle.Turns s.docket (s.setTx updated).docket ↔ record.state ≠ .failed := by
  rw [turns_setTx_iff, hrewrite.txid_eq, hget]
  have hcard : record.card = updated.card := hdrift.card_eq.trans hrewrite.card_eq.symm
  constructor
  · rintro ⟨-, hold⟩ hfailed
    have hstep := (hold record rfl).2
    rw [hfailed] at hstep
    cases hrewrite <;> cases hstep
  · intro hlive
    constructor
    · intro hnone
      cases hnone
    rintro old hold
    cases hold
    refine ⟨hcard, ?_⟩
    rcases hdrift.state with ⟨hsame, -⟩ | ⟨-, hfailed, -⟩
    · rw [hsame]
      cases hrewrite with
      | reorg height hstate => rw [hstate]; rfl
      | accepted height feeInfo hstate hfee => rw [hstate]; rfl
      | confirmed height hstate => rw [hstate]; rfl
    · exact absurd hfailed hlive

/-- What a move adds to the history: turns of the docket, copies written back, stored speedups, and moments that are no
writes. -/
inductive Turning (w : World) : List Event → Prop where
  | nothing : Turning w w.log
  | noted {log : List Event} (e : Event) (he : ¬ e.IsRevision) (h : Turning w log) : Turning w (e :: log)
  | turned (s : Store) (hturns : lifecycle.Turns w.store.docket s.docket) :
      Turning w (.wrote w.store s :: w.log)
  | rewrote (copy updated record : CoordinatedTx) (hrewrite : Rewrite copy updated)
      (hget : w.store.txs.get copy.txid = some record) (hdrift : Drifted copy record) :
      Turning w (.rewrote copy w.store :: .wrote w.store (w.store.setTx updated) :: w.log)
  | inserted (tx : CoordinatedTx) (hnew : tx.IsNew) :
      Turning w (.inserted tx w.store :: .wrote w.store (w.store.setTx tx) :: w.log)

/-- Every move adds such moments. -/
theorem Move.turning (h : Move ctx True phase w w') : Turning w w'.log := by
  have hplain : ∀ e : Event, ¬ e.IsRevision → Turning w (e :: w.log) :=
    fun e he => Turning.noted e he Turning.nothing
  have hquietly : ∀ s : Store, s.txs = w.store.txs → Turning w (.wrote w.store s :: w.log) :=
    fun s hsame => Turning.turned s (turns_of_txs_eq hsame)
  rcases h with hsteady | hpart
  · cases hsteady with
    | quiet hquiet =>
      cases hquiet with
      | asked => exact Turning.nothing
      | stamped now => exact Turning.nothing
      | published items => exact Turning.nothing
      | noted e hremark => exact hplain e hremark.not_isRevision
      | wrote s hwrite => exact hquietly s hwrite.txs_eq
      | prepended txids _ _ => exact hquietly _ rfl
    | changed tx tx' hget hchange =>
      exact Turning.turned _ (turns_changed hget hchange.txid_eq hchange.card_eq hchange.canTransitionTo)
    | vanished tx height hget hstep _ _ =>
      exact Turning.noted _ id (Turning.turned _ (turns_changed hget rfl rfl hstep))
    | rewrote copy updated hrewrite _ hdrift _ =>
      obtain ⟨record, hget, hdrifted⟩ := hdrift trivial
      exact Turning.rewrote copy updated record hrewrite hget hdrifted
    | _ => exact hplain _ id
  · cases hpart with
    | inserted tx htx => exact Turning.inserted tx htx.isNew
    | listed txid => exact hquietly _ (w.store.txs_list txid)
    | unlisted txid _ _ => exact hquietly _ rfl
    | evicted tx _ hstale _ =>
      exact Turning.turned _ (turns_eraseTx fun record hget => Or.inl (hstale record hget).1)
    | dropped txid hcancel _ =>
      apply Turning.turned _ (turns_eraseTx _)
      intro record hget
      obtain ⟨hstate, hkind⟩ := hcancel record hget
      exact Or.inr ⟨hstate, CoordinatedTx.card_kind_ne hkind⟩
    | registered tx hfresh _ hnew _ =>
      apply Turning.turned _ (turns_setTx_iff.mpr ⟨fun _ => hnew.state, _⟩)
      rw [hfresh]
      intro old hold
      cases hold
    | pended txid => exact hquietly _ (w.store.txs_pend txid)
    | queue s _ hwrite => exact hquietly s hwrite.txs_eq

/-- A move keeps the equivalence: the two kinds of write that may not be turns say so in the history. -/
theorem Turning.refinesDocket_iff {log : List Event} (hturning : Turning w log)
    (h : RefinesDocket w.log ↔ KeepsCards w.log) : RefinesDocket log ↔ KeepsCards log := by
  induction hturning with
  | nothing => exact h
  | noted e he _ ih =>
    rw [refinesDocket_noted, keepsCards_noted]
    · exact ih
    all_goals
      rintro _ _ rfl
      exact he trivial
  | turned s hturns =>
    rw [refinesDocket_wrote, keepsCards_noted (by simp) (by simp)]
    exact (and_iff_right hturns).trans h
  | rewrote copy updated record hrewrite hget hdrift =>
    rw [refinesDocket_noted (by simp), refinesDocket_wrote, keepsCards_rewrote, keepsCards_noted (by simp) (by simp),
      turns_rewrote_iff hrewrite hget hdrift, hget]
    apply and_congr _ h
    exact ⟨fun hlive old hold => by cases hold; exact hlive, fun hall => hall record rfl⟩
  | inserted tx hnew =>
    rw [refinesDocket_noted (by simp), refinesDocket_wrote, keepsCards_inserted, keepsCards_noted (by simp) (by simp),
      turns_setTx_iff, hnew.state]
    exact and_congr (and_iff_right fun _ => rfl) h

/-- Whatever the calls of a run are answered and wherever they stop, its writes are turns of the docket, one entry at a
time, exactly when no copy is written back over a record that failed meanwhile and no speedup is stored over a record
with another card or one that cannot go back to dispatch. -/
theorem runCalls_refinesDocket_iff (cfg : BitcoinSettings) (calls : List Call) :
    RefinesDocket (runCalls cfg calls World.init).log ↔ KeepsCards (runCalls cfg calls World.init).log := by
  have hmove : ∀ call ∈ calls, ∀ phase w w', (RefinesDocket w.log ↔ KeepsCards w.log) →
      Move ⟨cfg, call.answers⟩ True phase w w' → (RefinesDocket w'.log ↔ KeepsCards w'.log) :=
    fun _ _ _ _ _ h hmove => hmove.turning.refinesDocket_iff h
  have htidy : IsTidy World.init := List.nodup_nil
  apply runCalls_induction hmove fun _ => htidy
  refine iff_of_true (fun p hp => ?_) ⟨fun _ _ hmem => ?_, fun _ _ hmem => ?_⟩
  · cases hp
  · cases hmem
  · cases hmem

/-! ### Clients' transactions -/

/-- The rules of the docket when what failed may come back. -/
def revivals : DocketRules Card TransactionState where
  enters := lifecycle.enters
  moves state state' := state.canTransitionTo state' ∨ state = .failed
  leaves := lifecycle.leaves

/-- A turn is one under the laxer rules as well. -/
theorem revivals_of_lifecycle {l l' : Docket Txid Card TransactionState} (h : lifecycle.Turns l l') (txid : Txid) :
    revivals.TurnsAt txid l l' := by
  rcases h.turnsAt txid with hsame | hturn
  · exact Or.inl hsame
  · right
    apply DocketRules.Turn.mono _ _ _ hturn
    · exact fun _ _ henters => henters
    · exact fun _ _ hmoves => Or.inl hmoves
    · exact fun _ _ hleaves => hleaves

/-- A copy written back over a record that drifted from it keeps the card, and moves the record along the lifecycle
unless it has failed. -/
theorem revivals_rewrote {s : Store} {copy updated record : CoordinatedTx} (hrewrite : Rewrite copy updated)
    (hget : s.txs.get copy.txid = some record) (hdrift : Drifted copy record) (txid : Txid) :
    revivals.TurnsAt txid s.docket (s.setTx updated).docket := by
  by_cases hfailed : record.state = .failed
  · by_cases htxid : txid = updated.txid
    · right
      subst htxid
      rw [Store.docket_setTx, if_pos rfl, Store.docket_of_get (hrewrite.txid_eq.symm ▸ hget), hrewrite.card_eq,
        ← hdrift.card_eq]
      exact DocketRules.Turn.moved (Or.inr hfailed)
    · left
      rw [Store.docket_setTx, if_neg htxid]
  · exact revivals_of_lifecycle ((turns_rewrote_iff hrewrite hget hdrift).mpr hfailed) txid

/-- What was built when a history was shorter was built. -/
theorem IsBuilt.of_suffix {log log' : List Event} {txid : Txid} (h : IsBuilt log txid) (hlog : log <:+ log') :
    IsBuilt log' txid := by
  obtain ⟨record, s, hmem, hid⟩ := h
  exact ⟨record, s, hlog.subset hmem, hid⟩

/-- Every write turns an entry under the laxer rules, unless a speedup was ever built under its identifier. -/
def TurnsUnbuilt (log : List Event) : Prop :=
  ∀ txid, ¬ IsBuilt log txid → ∀ p ∈ writes log, revivals.TurnsAt txid p.1.docket p.2.1.docket

/-- Another moment. -/
theorem TurnsUnbuilt.noted {e : Event} {log : List Event} (h : TurnsUnbuilt log)
    (he : ∀ before after, e ≠ .wrote before after) : TurnsUnbuilt (e :: log) := by
  intro txid hunbuilt p hp
  have hold : p ∈ writes log := by
    cases e with
    | wrote before after => exact absurd rfl (he before after)
    | _ => exact hp
  exact h txid (fun hbuilt => hunbuilt (hbuilt.of_suffix (List.suffix_cons _ _))) p hold

/-- A write that turns every entry so. -/
theorem TurnsUnbuilt.wrote {before after : Store} {log : List Event} (h : TurnsUnbuilt log)
    (hturns : ∀ txid, revivals.TurnsAt txid before.docket after.docket) :
    TurnsUnbuilt (.wrote before after :: log) := by
  intro txid hunbuilt p hp
  rcases List.mem_cons.mp hp with rfl | hold
  · exact hturns txid
  · exact h txid (fun hbuilt => hunbuilt (hbuilt.of_suffix (List.suffix_cons _ _))) p hold

/-- A move turns the entries that are not built so. -/
theorem Turning.turnsUnbuilt {log : List Event} (hturning : Turning w log) (h : TurnsUnbuilt w.log) :
    TurnsUnbuilt log := by
  induction hturning with
  | nothing => exact h
  | noted e he _ ih =>
    apply ih.noted
    rintro _ _ rfl
    exact he trivial
  | turned s hturns => exact h.wrote fun txid => revivals_of_lifecycle hturns txid
  | rewrote copy updated record hrewrite hget hdrift =>
    exact (h.wrote (revivals_rewrote hrewrite hget hdrift)).noted (by simp)
  | inserted tx hnew =>
    -- Only the entry of the built speedup may turn against the rules.
    intro txid hunbuilt p hp
    rcases List.mem_cons.mp hp with rfl | hold
    · left
      rw [Store.docket_setTx, if_neg]
      rintro rfl
      exact hunbuilt ⟨tx, w.store, List.mem_cons_self, rfl⟩
    · apply h txid _ p hold
      exact fun hbuilt => hunbuilt (hbuilt.of_suffix ((List.suffix_cons _ _).trans (List.suffix_cons _ _)))

/-- Every run turns the entries that are not built so. -/
theorem turnsUnbuilt_runCalls (cfg : BitcoinSettings) (calls : List Call) :
    TurnsUnbuilt (runCalls cfg calls World.init).log := by
  have hmove : ∀ call ∈ calls, ∀ phase w w', TurnsUnbuilt w.log → Move ⟨cfg, call.answers⟩ True phase w w' →
      TurnsUnbuilt w'.log := fun _ _ _ _ _ h hmove => hmove.turning.turnsUnbuilt h
  have htidy : IsTidy World.init := List.nodup_nil
  apply runCalls_induction hmove fun _ => htidy
  intro txid _ p hp
  cases hp

/-- Over the newer part of a linked history, an entry that turns and is never taken off goes on. -/
theorem goes_on {rules : DocketRules Card TransactionState} {newer older : List Event} {txid : Txid}
    (hlinked : ∀ p ∈ writes (newer ++ older), p.1 = lastVersion Store.empty p.2.2)
    (hturns : ∀ p ∈ writes (newer ++ older), rules.TurnsAt txid p.1.docket p.2.1.docket)
    (hkept : ∀ before after, .wrote before after ∈ newer → (after.txs.get txid).isSome) :
    Relation.ReflTransGen (rules.KeepsAt txid) (lastVersion Store.empty older).docket
      (lastVersion Store.empty (newer ++ older)).docket := by
  induction newer with
  | nil => exact Relation.ReflTransGen.refl
  | cons e newer ih =>
    have hrest : ∀ before after, .wrote before after ∈ newer → (after.txs.get txid).isSome :=
      fun before after hmem => hkept before after (List.mem_cons_of_mem _ hmem)
    cases e with
    | wrote before after =>
      have hbefore : before = lastVersion Store.empty (newer ++ older) :=
        hlinked (before, after, newer ++ older) List.mem_cons_self
      have hrun := ih (fun p hp => hlinked p (List.mem_cons_of_mem _ hp))
        (fun p hp => hturns p (List.mem_cons_of_mem _ hp)) hrest
      have hturn := hturns (before, after, newer ++ older) List.mem_cons_self
      rw [← hbefore] at hrun
      apply hrun.tail ⟨hturn, _⟩
      obtain ⟨record, hget⟩ := Option.isSome_iff_exists.mp (hkept before after List.mem_cons_self)
      change after.docket txid ≠ none
      rw [Store.docket_of_get hget]
      exact Option.some_ne_none _
    | _ => exact ih hlinked hturns hrest

/-- From any moment of a run on, a tracked transaction that no speedup was built under the identifier of keeps its card
for as long as no write takes it off, whatever the calls are answered and wherever they stop, and its state follows the
lifecycle, except that it may leave the failed state by any step. -/
theorem client_keeps_card (cfg : BitcoinSettings) (calls : List Call) (newer older : List Event) (txid : Txid)
    (record : CoordinatedTx) (hlog : (runCalls cfg calls World.init).log = newer ++ older)
    (hclient : ¬ IsBuilt (runCalls cfg calls World.init).log txid)
    (hget : (lastVersion Store.empty older).txs.get txid = some record)
    (hkept : ∀ before after, .wrote before after ∈ newer → (after.txs.get txid).isSome) :
    ∃ current, (runCalls cfg calls World.init).store.txs.get txid = some current ∧ current.card = record.card ∧
      Relation.ReflTransGen revivals.moves record.state current.state := by
  have hlinked := linked_runCalls cfg Store.empty [] none calls
  change Linked _ (runCalls cfg calls World.init) at hlinked
  have hturns := turnsUnbuilt_runCalls cfg calls txid hclient
  rw [hlog] at hturns
  have hends : (runCalls cfg calls World.init).store = lastVersion Store.empty (newer ++ older) :=
    hlinked.1.trans (by rw [hlog])
  have hlinks := hlinked.2
  rw [hlog] at hlinks
  obtain ⟨state, hdocket, hsteps⟩ :=
    DocketRules.kept_of_run (goes_on hlinks hturns hkept) (Store.docket_of_get hget)
  rw [← hends] at hdocket
  unfold Store.docket at hdocket
  obtain ⟨current, hcurrent, hentry⟩ := Option.map_eq_some_iff.mp hdocket
  obtain ⟨hcard, hstate⟩ := Prod.mk.inj hentry
  exact ⟨current, hcurrent, hcard, hstate ▸ hsteps⟩

/-- The parent of an example run goes from dispatch to the mempool. -/
theorem client_keeps_card_acceptedCalls : ∃ record current : CoordinatedTx, record.state = .toDispatch ∧
    (runCalls defaultSettings acceptedCalls World.init).store.txs.get sampleParent.computeTxid = some current ∧
      current.card = record.card ∧ Relation.ReflTransGen revivals.moves record.state current.state := by
  have hlog := (List.take_append_drop 20 (runCalls defaultSettings acceptedCalls World.init).log).symm
  have hbuilt : sampleParent.computeTxid ∉ builtTxids (runCalls defaultSettings acceptedCalls World.init).log := by
    decide +kernel
  have hstored : ((lastVersion Store.empty ((runCalls defaultSettings acceptedCalls World.init).log.drop 20)).txs.get
      sampleParent.computeTxid).any (fun record => decide (record.state = .toDispatch)) = true := by decide +kernel
  have htracked : (((runCalls defaultSettings acceptedCalls World.init).log.take 20).all fun e =>
      e.written?.all fun p => (p.2.txs.get sampleParent.computeTxid).isSome) = true := by decide +kernel
  obtain ⟨record, hget, hstate⟩ := (Option.any_eq_true _ _).mp hstored
  obtain ⟨current, hcurrent⟩ := client_keeps_card defaultSettings acceptedCalls _ _ sampleParent.computeTxid record hlog
    (fun hin => hbuilt (mem_builtTxids.mpr hin)) hget (by
      intro before after hmem
      exact List.all_eq_true.mp htracked _ hmem)
  exact ⟨record, current, of_decide_eq_true hstate, hcurrent⟩

end BitcoinCoordinator
