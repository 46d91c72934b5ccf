import BitcoinCoordinator.DueBuilds
import BitcoinCoordinator.ReplacedChains
import BitcoinCoordinator.RetryPace
import BitcoinCoordinator.StopReasons

/-!
# What a tick hands over

A client transaction that waits for dispatch is handed to the node by any tick that comes to its end once its
target height is reached. It is held back when the dispatcher refuses it, when a tracked transaction that it spends
from has failed, while the monitor has not seen one of those, and as a retry while the retry interval goes on. The
two reviews that come first leave its record alone.
-/

namespace BitcoinCoordinator

open Foundation

variable {α : Type} {ctx : Ctx} {tidy : Prop} {phase : Phase} {w w' : World} {tx : CoordinatedTx}
  {lastRetryAt : Option ℕ}

/-! ### Handing over -/

/-- A transaction was handed to the node, since a world. -/
def SentSince (raw : Transaction) (w w' : World) : Prop :=
  ∃ newer older, w'.log = newer ++ .broadcast raw :: older ∧ w.log <:+ older

/-- What was sent since a world was sent since any earlier one, and before any later one. -/
theorem SentSince.mono {raw : Transaction} {w₀ w₁ : World} (h : SentSince raw w w') (hbefore : w₀.log <:+ w.log)
    (hafter : w'.log <:+ w₁.log) : SentSince raw w₀ w₁ := by
  obtain ⟨newer, older, hlog, holder⟩ := h
  obtain ⟨added, hadded⟩ := hafter
  refine ⟨added ++ newer, older, ?_, hbefore.trans holder⟩
  rw [← hadded, hlog, List.append_assoc]

/-- Why a transaction that is due is not handed over: the dispatcher refuses it, a tracked transaction that it
spends from has failed, the monitor did not see one, or it is a retry and the interval goes on. -/
inductive CoordinatedTx.IsWithheld (ctx : Ctx) (lastRetryAt : Option ℕ) (s : Store) (tx : CoordinatedTx) : Prop
  | refused (reason : String) (hrefused : ctx.settings.dispatcher.refusal? tx = some reason)
  | failed (parent : Txid) (hfailed : s.failedParent tx = some parent)
  | unseen (op : OutPoint) (n : ℕ) (status : TransactionStatus) (hspends : op ∈ tx.tx.spends)
      (hknown : s.isTxKnown op.txid) (hanswer : ctx.answers.txStatus n op.txid true = .ok status)
      (hunseen : status.isSeen ctx.settings.monitor.maxMonitoringConfirmations = false)
  | early (last n : ℕ) (hretry : 0 < tx.retryCount) (hlast : lastRetryAt = some last)
      (hearly : ctx.answers.nowSecs n - last < ctx.settings.coordinator.retryIntervalSeconds)

/-- A transaction was stored as it is, and withheld, at a moment between two worlds. -/
def CoordinatedTx.WithheldSince (ctx : Ctx) (tx : CoordinatedTx) (w w' : World) : Prop :=
  ∃ older, w.log <:+ older ∧ older <:+ w'.log ∧ (lastVersion Store.empty older).txs.get tx.txid = some tx ∧
    tx.IsWithheld ctx w.lastRetryAt (lastVersion Store.empty older)

/-- Parents found not ready include one that the monitor did not see. -/
theorem parentsReady_unseen {ops : List OutPoint} (hrun : parentsReady ops ctx w = (.ok false, w')) :
    ∃ op ∈ ops, w.store.isTxKnown op.txid ∧ ∃ n status, ctx.answers.txStatus n op.txid true = .ok status ∧
      status.isSeen ctx.settings.monitor.maxMonitoringConfirmations = false := by
  induction ops generalizing w with
  | nil =>
    obtain ⟨hfalse, -⟩ := Prog.pure_ok.mp hrun
    cases hfalse
  | cons first rest ih =>
    obtain ⟨known, w₁, hread, hbody⟩ := Prog.bind_ok.mp hrun
    obtain ⟨rfl, rfl⟩ := readStore_ok.mp hread
    rcases Prog.ite_ok.mp hbody with ⟨hknown, hprobe⟩ | ⟨-, hrest⟩
    · obtain ⟨cfg, w₂, hcfg, hask⟩ := Prog.bind_ok.mp hprobe
      obtain ⟨rfl, rfl⟩ := settings_ok.mp hcfg
      obtain ⟨status, w₃, hquery, hseen⟩ := Prog.bind_ok.mp hask
      obtain ⟨hanswer, rfl⟩ := query_ok.mp hquery
      rcases Prog.ite_ok.mp hseen with ⟨-, hrest⟩ | ⟨hunseen, -⟩
      · obtain ⟨op, hop, hfound⟩ := ih hrest
        exact ⟨op, List.mem_cons_of_mem _ hop, hfound⟩
      · exact ⟨first, List.mem_cons_self, hknown, _, status, hanswer, eq_false_of_ne_true hunseen⟩
    · obtain ⟨op, hop, hfound⟩ := ih hrest
      exact ⟨op, List.mem_cons_of_mem _ hop, hfound⟩

/-- A valid transaction is handed over or withheld. -/
theorem dispatchOne_serves {result : Option (Txid × DispatchOutcome)}
    (hrun : dispatchOne tx ctx w = (.ok result, w')) :
    SentSince tx.tx w w' ∨ tx.IsWithheld ctx lastRetryAt w.store := by
  obtain ⟨failedParent, w₁, hread, hbody⟩ := Prog.bind_ok.mp hrun
  obtain ⟨rfl, rfl⟩ := readStore_ok.mp hread
  cases hparent : w₁.store.failedParent tx with
  | some parent => exact Or.inr (.failed parent hparent)
  | none =>
    rw [hparent] at hbody
    obtain ⟨ready, w₂, hprobe, hsend⟩ := Prog.bind_ok.mp hbody
    have haside : Aside w₁ w₂ := related_of_run hprobe
    cases ready with
    | false =>
      obtain ⟨op, hop, hknown, n, status, hanswer, hunseen⟩ := parentsReady_unseen hprobe
      exact Or.inr (.unseen op n status hop hknown hanswer hunseen)
    | true =>
      obtain ⟨outcome, hsent⟩ := sendTransaction_run ctx w₂ tx.tx
      rw [if_pos rfl, Prog.bind_of_ok hsent] at hsend
      obtain ⟨-, rfl⟩ := Prog.pure_ok.mp hsend
      refine Or.inl ⟨[], w₂.log, rfl, ?_⟩
      rw [haside.log_eq]

/-- Each valid transaction of a list is handed over or withheld. The induction is on the list. -/
theorem dispatchValid_serves {txs : List CoordinatedTx} {results : List (Txid × DispatchOutcome)}
    (hrun : dispatchValid txs ctx w = (.ok results, w')) (hmem : tx ∈ txs) :
    SentSince tx.tx w w' ∨ tx.IsWithheld ctx lastRetryAt w.store := by
  induction txs generalizing w results with
  | nil => exact absurd hmem List.not_mem_nil
  | cons first rest ih =>
    obtain ⟨outcome, w₁, hone, hothers⟩ := Prog.bind_ok.mp hrun
    obtain ⟨outcomes, w₂, hrest, hpure⟩ := Prog.bind_ok.mp hothers
    obtain ⟨-, rfl⟩ := Prog.pure_ok.mp hpure
    obtain ⟨sent, hsent⟩ := dispatchOne_handsOver ctx w first
    obtain ⟨sent', hsent'⟩ := dispatchValid_handsOver ctx w₁ rest
    rw [hone] at hsent
    rw [hrest] at hsent'
    have hlog : w.log <:+ w₁.log := by
      rw [hsent.log_eq]
      exact List.suffix_append _ _
    have hlog' : w₁.log <:+ w'.log := by
      rw [hsent'.log_eq]
      exact List.suffix_append _ _
    rcases List.mem_cons.mp hmem with rfl | hlater
    · exact (dispatchOne_serves hone).imp_left fun h => h.mono List.suffix_rfl hlog'
    · have hserved := ih hrest hlater
      rw [hsent.store_eq] at hserved
      exact hserved.imp_left fun h => h.mono hlog List.suffix_rfl

/-- Each transaction of a batch is handed over or withheld. -/
theorem dispatch_serves {txs : List CoordinatedTx} {results : List (Txid × DispatchOutcome)}
    (hrun : dispatch txs ctx w = (.ok results, w')) (hmem : tx ∈ txs) :
    SentSince tx.tx w w' ∨ tx.IsWithheld ctx lastRetryAt w.store := by
  obtain ⟨cfg, w₁, hcfg, hvalid⟩ := Prog.bind_ok.mp hrun
  obtain ⟨rfl, rfl⟩ := settings_ok.mp hcfg
  obtain ⟨valid, w₂, hdispatch, hpure⟩ := Prog.bind_ok.mp hvalid
  obtain ⟨-, rfl⟩ := Prog.pure_ok.mp hpure
  cases hrefusal : ctx.settings.dispatcher.refusal? tx with
  | some reason => exact Or.inr (.refused reason hrefusal)
  | none =>
    apply dispatchValid_serves hdispatch
    exact List.mem_filter.mpr ⟨hmem, by simp [hrefusal]⟩

/-- The retry interval is found to go on only after a retry. -/
theorem isRetryReady_early (hrun : isRetryReady ctx w = (.ok false, w')) :
    ∃ last n, w.lastRetryAt = some last ∧
      ctx.answers.nowSecs n - last < ctx.settings.coordinator.retryIntervalSeconds := by
  obtain ⟨cfg, w₁, hcfg, hread⟩ := Prog.bind_ok.mp hrun
  obtain ⟨rfl, rfl⟩ := settings_ok.mp hcfg
  obtain ⟨lastRetryAt, w₂, hlast, hask⟩ := Prog.bind_ok.mp hread
  obtain ⟨rfl, rfl⟩ := Prog.read_ok.mp hlast
  cases hset : w₂.lastRetryAt with
  | none =>
    rw [hset] at hask
    obtain ⟨hfalse, -⟩ := Prog.pure_ok.mp hask
    cases hfalse
  | some last =>
    rw [hset] at hask
    obtain ⟨now, w₃, hnow, hpure⟩ := Prog.bind_ok.mp hask
    obtain ⟨hearly, -⟩ := Prog.pure_ok.mp hpure
    cases hnow
    exact ⟨last, w₂.clock, rfl, Nat.lt_of_not_le (of_decide_eq_false hearly.symm)⟩

/-- What the retry window drops is a retry, and the interval goes on. -/
theorem applyRetryRateLimit_early {txs kept : List CoordinatedTx}
    (hrun : applyRetryRateLimit txs ctx w = (.ok kept, w')) (hmem : tx ∈ txs) (hdropped : tx ∉ kept) :
    tx.IsWithheld ctx w.lastRetryAt w.store := by
  obtain ⟨ready, w₁, hready, hlimit⟩ := Prog.bind_ok.mp hrun
  rcases Prog.ite_ok.mp hlimit with ⟨-, hall⟩ | ⟨-, hpure⟩
  · obtain ⟨_, w₂, -, hpure⟩ := Prog.bind_ok.mp hall
    obtain ⟨rfl, -⟩ := Prog.pure_ok.mp hpure
    exact absurd hmem hdropped
  · obtain ⟨rfl, -⟩ := Prog.pure_ok.mp hpure
    have hout : ¬ (decide (tx.retryCount = 0) || ready) = true :=
      fun hpasses => hdropped (List.mem_filter.mpr ⟨hmem, hpasses⟩)
    rw [Bool.or_eq_true, not_or, decide_eq_true_eq] at hout
    rw [eq_false_of_ne_true hout.2] at hready
    obtain ⟨last, n, hlast, hearly⟩ := isRetryReady_early hready
    exact .early last n (Nat.pos_of_ne_zero hout.1) hlast hearly

/-- Each of the transactions that are due is handed over or withheld. -/
theorem dispatchBatch_serves {txs : List CoordinatedTx} {height : BlockHeight} {u : Unit}
    (hrun : dispatchBatch txs height ctx w = (.ok u, w')) (hmem : tx ∈ txs) :
    SentSince tx.tx w w' ∨ tx.IsWithheld ctx w.lastRetryAt w.store := by
  obtain ⟨⟨feeRate, feeNews⟩, w₁, hfee, hpublish⟩ := Prog.bind_ok.mp hrun
  obtain ⟨_, w₂, hnews, hlimit⟩ := Prog.bind_ok.mp hpublish
  obtain ⟨kept, w₃, hkept, hsend⟩ := Prog.bind_ok.mp hlimit
  obtain ⟨results, w₄, hdispatch, hhandle⟩ := Prog.bind_ok.mp hsend
  have hasked : Aside w w₁ := related_of_run hfee
  have hpublished : Aside w₁ w₂ := related_of_run hnews
  obtain ⟨kept', w₃', hkept', hlimits⟩ := applyRetryRateLimit_limits ctx w₂ txs
  rw [hkept] at hkept'
  cases hkept'
  have hstore : w₃.store = w.store := hlimits.store_eq.trans (hpublished.store_eq.trans hasked.store_eq)
  have hbefore : w.log <:+ w₃.log := by rw [hlimits.log_eq, hpublished.log_eq, hasked.log_eq]
  have hafter : w₄.log <:+ w'.log := by
    have hconducts : ∀ result, Prog.Conducts Extends Anyhow (handleBatchResult kept feeRate height result) :=
      fun _ => handleBatchResult_conducts
    have hloop : Prog.Conducts Extends Anyhow (Prog.forEach results (handleBatchResult kept feeRate height)) :=
      inferInstance
    have hextends : Extends w₄ (Prog.forEach results (handleBatchResult kept feeRate height) ctx w₄).2 :=
      hloop.related ctx w₄
    rw [hhandle] at hextends
    exact hextends
  have hretry : w₂.lastRetryAt = w.lastRetryAt := hpublished.lastRetryAt_eq.trans hasked.lastRetryAt_eq
  by_cases hpasses : tx ∈ kept
  · have hserved : SentSince tx.tx w₃ w₄ ∨ tx.IsWithheld ctx w.lastRetryAt w₃.store :=
      dispatch_serves hdispatch hpasses
    rw [hstore] at hserved
    exact hserved.imp_left fun h => h.mono hbefore hafter
  · have hwithheld := applyRetryRateLimit_early hkept hmem hpasses
    rw [hretry, hpublished.store_eq, hasked.store_eq] at hwithheld
    exact Or.inr hwithheld

/-- Step 3 hands over each client transaction that is due, or it is withheld. -/
theorem dispatchPending_serves {u : Unit} (hget : w.store.txs.get tx.txid = some tx) (hclient : tx.speedup? = none)
    (hstate : tx.state = .toDispatch)
    (hdue : ∀ n height, ctx.answers.monitorHeight n = .ok height → tx.isReadyToDispatch height)
    (hrun : dispatchPending ctx w = (.ok u, w')) :
    SentSince tx.tx w w' ∨ tx.IsWithheld ctx w.lastRetryAt w.store := by
  obtain ⟨height, w₁, hheight, hactive⟩ := Prog.bind_ok.mp hrun
  obtain ⟨hanswer, rfl⟩ := query_ok.mp hheight
  obtain ⟨active, w₂, hread, hbatch⟩ := Prog.bind_ok.mp hactive
  obtain ⟨rfl, rfl⟩ := readStore_ok.mp hread
  have hmem : tx ∈ (w.asked.store.txs.values.filter fun tx => tx.state.isActive).filter
      (CoordinatedTx.isDispatchable height) := by
    apply List.mem_filter.mpr
    refine ⟨List.mem_filter.mpr ⟨Store.mem_values.mpr hget, by rw [hstate]; rfl⟩, ?_⟩
    simp [CoordinatedTx.isDispatchable, hclient, hstate, hdue _ height hanswer]
  generalize (w.asked.store.txs.values.filter fun tx => tx.state.isActive).filter
    (CoordinatedTx.isDispatchable height) = due at hbatch hmem
  cases due with
  | nil => exact absurd hmem List.not_mem_nil
  | cons first rest => exact dispatchBatch_serves (w := w.asked) hbatch hmem

/-! ### The reviews before -/

/-- The history tells the store, the records have origins, and what an RBF replaces was built. -/
structure LinksKnown (w : World) : Prop where
  linked : Linked Store.empty w
  origins : OriginsKnown w
  links : EveryRecord (CoordinatedTx.ReplacesBuilt w.log) w

/-- Steps keep the links known. -/
theorem LinksKnown.stepwise {m : Coord α} {a : Except Stop α} (h : LinksKnown w) (hm : Stepwise tidy phase m ctx w)
    (hrun : m ctx w = (a, w')) : LinksKnown w' := by
  refine Stepwise.keeps (I := LinksKnown) hm ?_ h hrun
  intro w₁ w₂ hknown hmove
  exact ⟨hknown.linked.move hmove, hknown.origins.move hmove, replacesBuilt_move hknown.links hknown.origins hmove⟩

/-- The links are known after every run. -/
theorem linksKnown_runCalls (cfg : BitcoinSettings) (calls : List Call) :
    LinksKnown (runCalls cfg calls World.init) :=
  ⟨linked_runCalls cfg Store.empty [] none calls, (owned_runCalls cfg calls).origins, replacesBuilt_runCalls cfg calls⟩

/-- No replacement leads from what was built to a client transaction, as long as no client registers a transaction
that was built. -/
theorem LinksKnown.not_leads {first : Txid} (h : LinksKnown w) (hapart : KeptApart w.log)
    (hget : w.store.txs.get tx.txid = some tx) (hclient : tx.speedup? = none) (hfirst : IsBuilt w.log first) :
    ¬ Leads w.store.replaces? first tx.txid := by
  have hnot : ¬ IsBuilt w.log tx.txid := hapart tx.txid ((h.origins.current hget).client hclient)
  intro hlead
  rcases Relation.ReflTransGen.cases_tail hlead with heq | ⟨last, -, hlink⟩
  · rw [← heq] at hfirst
    exact hnot hfirst
  · obtain ⟨record, hrecord, hreplaces⟩ := Option.bind_eq_some_iff.mp hlink
    exact hnot (h.links.current hrecord tx.txid hreplaces)

/-- Swapping a finalized speedup into the queue leaves the records alone. -/
theorem replaceFundingOnFinalize_keeps_record {txid id : Txid} {J : Option CoordinatedTx → Prop} :
    Prog.Keeps (RecordAt txid J) (replaceFundingOnFinalize id) ctx := by
  apply replaceFundingOnFinalize_keeps
  · exact fun _ _ hw => hw
  · exact fun f hf => writeStore_keeps_record fun s => (hf s).1
  · exact OneWrite.keeps (fun _ => removeSpeedupFromList_oneWrite id) (fun _ hw => hw) fun _ hw => hw

/-- Settling a finalized speedup leaves the record of a client transaction alone. -/
theorem finalizeSpeedup_leaves {other : CoordinatedTx} {height : BlockHeight} {u : Unit} (hknown : LinksKnown w)
    (hread : WasStored other w) (hflight : other.isInFlight) (hne : tx.txid ≠ other.txid)
    (hget : w.store.txs.get tx.txid = some tx) (hclient : tx.speedup? = none)
    (hrun : finalizeSpeedup other height ctx w = (.ok u, w')) (hapart : KeptApart w'.log) :
    w'.store.txs.get tx.txid = some tx := by
  obtain ⟨_, w₁, hsettle, hrest⟩ := Prog.bind_ok.mp hrun
  obtain ⟨_, w₂, hremove, hswap⟩ := Prog.bind_ok.mp hrest
  have hstep₁ : Stepwise False .settle (markFinalized other.txid height) ctx w :=
    stepwise_of_plainly (markFinalized_plainly height hflight False.elim)
  have hstep₂ : Stepwise False .settle (removeReplacedRbf other height) ctx w₁ :=
    stepwise_of_plainly (removeReplacedRbf_plainly other height)
  have hstep₃ : Stepwise False .settle (replaceOnFinalize other.txid) ctx w₂ :=
    replaceFundingOnFinalize_stepwise False.elim
  have hgrown : w₁.log <:+ w'.log :=
    (log_suffix_of_stepwise hstep₂ hremove).trans (log_suffix_of_stepwise hstep₃ hswap)
  have hget₁ : RecordAt tx.txid (fun record => record = some tx) w₁ :=
    (spares_recordAt hne).settleTx.run hget hsettle
  have hget₂ : RecordAt tx.txid (fun record => record = some tx) w₂ := by
    unfold removeReplacedRbf at hremove
    cases hreplaces : other.replaces? with
    | none =>
      rw [hreplaces] at hremove
      obtain ⟨-, rfl⟩ := Prog.pure_ok.mp hremove
      exact hget₁
    | some first =>
      rw [hreplaces] at hremove
      obtain ⟨tracked, w₃, hcount, hloop⟩ := Prog.bind_ok.mp hremove
      obtain ⟨-, rfl⟩ := readStore_ok.mp hcount
      have hbuilt : IsBuilt w₃.log first := by
        obtain ⟨record, s, hmem, hid⟩ := hknown.links.copy hread first hreplaces
        exact ⟨record, s, (log_suffix_of_stepwise hstep₁ hsettle).subset hmem, hid⟩
      have hnot := (hknown.stepwise hstep₁ hsettle).not_leads (hapart.of_subset hgrown.subset) hget₁ hclient hbuilt
      exact ((removeReplacedFrom_ok hloop).untouched tx.txid hnot).trans hget₁
  exact replaceFundingOnFinalize_keeps_record.run hget₂ hswap

/-- Reviewing a speedup leaves the record of a client transaction alone. -/
theorem reviewSpeedup_leaves {other : CoordinatedTx} {all : List CoordinatedTx} {height : BlockHeight} {u : Unit}
    (hknown : LinksKnown w) (hread : WasStored other w) (hflight : other.isInFlight) (hne : tx.txid ≠ other.txid)
    (hget : w.store.txs.get tx.txid = some tx) (hclient : tx.speedup? = none)
    (hrun : reviewSpeedup all height other ctx w = (.ok u, w')) (hapart : KeptApart w'.log) :
    w'.store.txs.get tx.txid = some tx := by
  have hspares : Spares other.txid (RecordAt tx.txid fun record => record = some tx) := spares_recordAt hne
  obtain ⟨cfg, w₁, hcfg, hask⟩ := Prog.bind_ok.mp hrun
  obtain ⟨-, rfl⟩ := settings_ok.mp hcfg
  obtain ⟨status, w₂, hquery, hcases⟩ := Prog.bind_ok.mp hask
  have hasked : LinksKnown w₂ ∧ WasStored other w₂ ∧ RecordAt tx.txid (fun record => record = some tx) w₂ := by
    obtain ⟨-, rfl⟩ := query_ok.mp hquery
    exact ⟨⟨hknown.linked, hknown.origins, hknown.links⟩, hread, hget⟩
  obtain ⟨hknown, hread, hget⟩ := hasked
  rcases Prog.ite_ok.mp hcases with ⟨-, hpool⟩ | ⟨-, hcases⟩
  · rcases Prog.ite_ok.mp hpool with ⟨-, hreorg⟩ | ⟨-, hpure⟩
    · have hkeeps : Prog.Keeps _ (markReorg other height) ctx := hspares.putTx rfl
      exact hkeeps.run hget hreorg
    · obtain ⟨-, rfl⟩ := Prog.pure_ok.mp hpure
      exact hget
  rcases Prog.ite_ok.mp hcases with ⟨-, hlost⟩ | ⟨-, hcases⟩
  · obtain ⟨_, w₃, hnote, hlive⟩ := Prog.bind_ok.mp hlost
    obtain rfl := note_ok.mp hnote
    rcases Prog.ite_ok.mp hlive with ⟨-, hpure⟩ | ⟨-, hrequeue⟩
    · obtain ⟨-, rfl⟩ := Prog.pure_ok.mp hpure
      exact hget
    · exact hspares.requeueNotFound.run (hspares.noted _ _ hget) hrequeue
  rcases Prog.ite_ok.mp hcases with ⟨-, hfinal⟩ | ⟨-, hcases⟩
  · exact finalizeSpeedup_leaves hknown hread hflight hne hget hclient hfinal hapart
  rcases Prog.ite_ok.mp hcases with ⟨-, hconfirmed⟩ | ⟨-, hcases⟩
  · have hkeeps : Prog.Keeps _ (markConfirmed other.txid) ctx := hspares.updateTxStateImpl
    exact hkeeps.run hget hconfirmed
  rcases Prog.ite_ok.mp hcases with ⟨-, horphan⟩ | ⟨-, hpure⟩
  · have hkeeps : Prog.Keeps _ (markOrphan other.txid) ctx := hspares.updateTxStateImpl
    exact hkeeps.run hget horphan
  · obtain ⟨-, rfl⟩ := Prog.pure_ok.mp hpure
    exact hget

/-- Reviewing speedups one after the other leaves the record of a client transaction alone. The induction is on the
speedups, each of which was read before. -/
theorem reviewLoop_leaves {all others : List CoordinatedTx} {height : BlockHeight} {u : Unit} (hknown : LinksKnown w)
    (hothers : ∀ other ∈ others, WasStored other w ∧ other.isInFlight ∧ tx.txid ≠ other.txid)
    (hget : w.store.txs.get tx.txid = some tx) (hclient : tx.speedup? = none)
    (hrun : Prog.forEach others (reviewSpeedup all height) ctx w = (.ok u, w')) (hapart : KeptApart w'.log) :
    w'.store.txs.get tx.txid = some tx := by
  induction others generalizing w with
  | nil =>
    obtain ⟨-, rfl⟩ := Prog.pure_ok.mp hrun
    exact hget
  | cons other rest ih =>
    obtain ⟨_, w₁, hround, hrest⟩ := Prog.bind_ok.mp hrun
    obtain ⟨hread, hflight, hne⟩ := hothers other List.mem_cons_self
    have hstep : Stepwise False .settle (reviewSpeedup all height other) ctx w :=
      reviewSpeedup_stepwise all height hflight ⟨hread, False.elim, False.elim⟩
    have hlater : ∀ later ∈ rest, WasStored later w₁ ∧ later.isInFlight ∧ tx.txid ≠ later.txid := by
      intro later hin
      obtain ⟨hstored, hrest⟩ := hothers later (List.mem_cons_of_mem _ hin)
      exact ⟨Stepwise.keeps (I := WasStored later) hstep (fun _ _ hkept hmove => hkept.settle hmove) hstored hround,
        hrest⟩
    have hloop : Stepwise False .settle (Prog.forEach rest (reviewSpeedup all height)) ctx w₁ := by
      apply review_stepwise
      · exact fun later hin _ hcopy => reviewSpeedup_stepwise all height (hlater later hin).2.1 hcopy
      · exact fun later _ hdiffers => reviewSpeedup_keeps_copy hdiffers
      · exact ⟨False.elim, fun later hin => ⟨(hlater later hin).1, False.elim, False.elim⟩⟩
    have hgrown : w₁.log <:+ w'.log := log_suffix_of_stepwise hloop hrest
    have hget₁ : w₁.store.txs.get tx.txid = some tx :=
      reviewSpeedup_leaves hknown hread hflight hne hget hclient hround (hapart.of_subset hgrown.subset)
    exact ih (hknown.stepwise hstep hround) hlater hget₁ hrest

/-- Step 2 leaves the record of a client transaction that waits for dispatch alone. -/
theorem reviewSpeedups_leaves {u : Unit} (hknown : LinksKnown w) (hget : w.store.txs.get tx.txid = some tx)
    (hclient : tx.speedup? = none) (hstate : tx.state = .toDispatch)
    (hrun : reviewSpeedups ctx w = (.ok u, w')) (hapart : KeptApart w'.log) :
    w'.store.txs.get tx.txid = some tx := by
  obtain ⟨height, w₁, hheight, hread⟩ := Prog.bind_ok.mp hrun
  obtain ⟨-, rfl⟩ := query_ok.mp hheight
  obtain ⟨all, w₂, hordered, hloop⟩ := Prog.bind_ok.mp hread
  obtain ⟨rfl, rfl⟩ := readStore_ok.mp hordered
  have hasked : LinksKnown w.asked := ⟨hknown.linked, hknown.origins, hknown.links⟩
  refine reviewLoop_leaves hasked ?_ hget hclient hloop hapart
  intro other hin
  obtain ⟨hlisted, hflight⟩ := List.mem_filter.mp hin
  have hother : w.store.txs.get other.txid = some other := (mem_speedupsOrdered hlisted).2
  refine ⟨wasStored_of_get hother, hflight, fun heq => ?_⟩
  rw [← heq, hget] at hother
  cases hother
  unfold CoordinatedTx.isInFlight at hflight
  rw [hstate] at hflight
  cases hflight

/-- Evicting another record leaves this one alone. -/
theorem evictStaleTx_leaves {txid : Txid} {J : Option CoordinatedTx → Prop} {other : CoordinatedTx}
    {height : BlockHeight} {pending covered : List Txid} (hne : txid ≠ other.txid) :
    Prog.Keeps (RecordAt txid J) (evictStaleTx height pending covered other) ctx := by
  have herase : Prog.Keeps (RecordAt txid J) (writeStore fun s => s.eraseTx other.txid) ctx := by
    refine OneWrite.keeps (fun _ => writeStore_oneWrite) (fun _ hw => hw) fun w hw => ?_
    change J ((w.store.eraseTx other.txid).txs.get txid)
    rw [Store.get_eraseTx, if_neg hne]
    exact hw
  have hremove : Prog.Keeps (RecordAt txid J) (removeTx other.txid) ctx :=
    Prog.Keeps.seq herase fun _ =>
      OneWrite.keeps (fun _ => removeSpeedupFromList_oneWrite other.txid) (fun _ hw => hw) fun _ hw => hw
  unfold evictStaleTx
  refine Prog.Keeps.seq (Prog.Keeps.ask _) fun cfg => ?_
  cases other.settledBlockHeight with
  | none => exact Prog.Keeps.pure _
  | some settledHeight =>
    refine Prog.Keeps.ite (fun _ => ?_) fun _ => Prog.Keeps.pure _
    refine Prog.Keeps.ite (fun _ => Prog.Keeps.pure _) fun _ => ?_
    refine Prog.Keeps.seq (fun _ hw => hw) fun _ => ?_
    exact Prog.Keeps.seq hremove fun _ => keeps_of_calm fun _ => publish_calm _

/-- Step 1 leaves the record of a transaction that waits for dispatch alone. -/
theorem reviewActive_leaves {u : Unit} (hget : w.store.txs.get tx.txid = some tx) (hstate : tx.state = .toDispatch)
    (hrun : reviewActive ctx w = (.ok u, w')) : w'.store.txs.get tx.txid = some tx := by
  have hdiffers : ∀ {w : World} {other : CoordinatedTx}, w.store.txs.get tx.txid = some tx →
      other ∈ w.store.txs.values → other.state ≠ .toDispatch → tx.txid ≠ other.txid := by
    intro w other hget hin hother heq
    have hsame := Store.mem_values.mp hin
    rw [← heq, hget] at hsame
    cases hsame
    exact hother hstate
  obtain ⟨height, w₁, hheight, hrun⟩ := Prog.bind_ok.mp hrun
  obtain ⟨-, rfl⟩ := query_ok.mp hheight
  obtain ⟨_, w₂, hevict, hrun⟩ := Prog.bind_ok.mp hrun
  obtain ⟨active, w₃, hactive, hreview⟩ := Prog.bind_ok.mp hrun
  obtain ⟨rfl, rfl⟩ := readStore_ok.mp hactive
  have hasked : RecordAt tx.txid (fun record => record = some tx) w.asked := hget
  have hkept : RecordAt tx.txid (fun record => record = some tx) w₃ := by
    obtain ⟨settled, w₄, hsettled, hevict⟩ := Prog.bind_ok.mp hevict
    obtain ⟨rfl, rfl⟩ := readStore_ok.mp hsettled
    obtain ⟨pending, w₅, hpending, hevict⟩ := Prog.bind_ok.mp hevict
    obtain ⟨rfl, rfl⟩ := readStore_ok.mp hpending
    obtain ⟨covered, w₆, hcovered, hevict⟩ := Prog.bind_ok.mp hevict
    obtain ⟨rfl, rfl⟩ := readStore_ok.mp hcovered
    refine (Prog.Keeps.forEach fun other hin => evictStaleTx_leaves ?_).run hasked hevict
    obtain ⟨hvalues, hterminal⟩ := List.mem_filter.mp hin
    refine hdiffers hget hvalues fun hother => ?_
    rw [hother] at hterminal
    cases hterminal
  refine (Prog.Keeps.forEach fun other hin => reviewTransaction_keeps (spares_recordAt ?_)).run hkept hreview
  obtain ⟨hlisted, hreviewable⟩ := List.mem_filter.mp hin
  refine hdiffers hkept (List.mem_of_mem_filter hlisted) fun hother => ?_
  unfold CoordinatedTx.isReviewable at hreviewable
  rw [hother] at hreviewable
  simp at hreviewable

/-! ### One tick -/

/-- The six steps of a tick hand over a client transaction that is due, or it is withheld. -/
theorem pipeline_serves {u : Unit} (hknown : LinksKnown w) (hget : w.store.txs.get tx.txid = some tx)
    (hclient : tx.speedup? = none) (hstate : tx.state = .toDispatch)
    (hdue : ∀ n height, ctx.answers.monitorHeight n = .ok height → tx.isReadyToDispatch height)
    (hrun : pipeline ctx w = (.ok u, w')) (hapart : KeptApart w'.log) :
    SentSince tx.tx w w' ∨ tx.WithheldSince ctx w w' := by
  obtain ⟨_, w₁, hreview, hrun⟩ := Prog.bind_ok.mp hrun
  obtain ⟨_, w₂, hspeedups, hrun⟩ := Prog.bind_ok.mp hrun
  obtain ⟨_, w₃, hdispatch, hrun⟩ := Prog.bind_ok.mp hrun
  obtain ⟨failed, w₄, hbatch, hrun⟩ := Prog.bind_ok.mp hrun
  obtain ⟨_, w₅, hboost, hcreate⟩ := Prog.bind_ok.mp hrun
  have hstep₁ : Stepwise False .settle reviewActive ctx w := reviewActive_stepwise
  have hstep₂ : Stepwise False .settle reviewSpeedups ctx w₁ := reviewSpeedups_stepwise False.elim
  have hstep₃ : Stepwise False .settle dispatchPending ctx w₂ := stepwise_of_plainly dispatchPending_plainly
  have hstep₄ : Stepwise False .settle dispatchPendingSpeedups ctx w₃ :=
    stepwise_of_plainly (dispatchPendingSpeedups_plainly False.elim)
  have hstep₅ : Stepwise False .build (boostIfStale failed) ctx w₄ := boostIfStale_stepwise failed
  have hstep₆ : Stepwise False .build createCpfpBatch ctx w₅ := createCpfpBatch_stepwise
  have hbefore : w.log <:+ w₂.log :=
    (log_suffix_of_stepwise hstep₁ hreview).trans (log_suffix_of_stepwise hstep₂ hspeedups)
  have hafter : w₃.log <:+ w'.log := (log_suffix_of_stepwise hstep₄ hbatch).trans
    ((log_suffix_of_stepwise hstep₅ hboost).trans (log_suffix_of_stepwise hstep₆ hcreate))
  have hgrown : w₂.log <:+ w'.log := (log_suffix_of_stepwise hstep₃ hdispatch).trans hafter
  have hknown₁ := hknown.stepwise hstep₁ hreview
  have hget₁ := reviewActive_leaves hget hstate hreview
  have hget₂ := reviewSpeedups_leaves hknown₁ hget₁ hclient hstate hspeedups (hapart.of_subset hgrown.subset)
  have hretry : w₂.lastRetryAt = w.lastRetryAt := by
    have hreviews : Prog.Conducts RetriesNothing Anyhow reviewActive :=
      reviewActive_conducts fun _ _ => ⟨rfl, le_rfl, lacks_noted id⟩
    have hspeedupReviews : Prog.Conducts RetriesNothing Anyhow reviewSpeedups := reviewSpeedups_conducts
    have hsteady : RetriesNothing w (reviewActive ctx w).2 := hreviews.related ctx w
    have hsteady₁ : RetriesNothing w₁ (reviewSpeedups ctx w₁).2 := hspeedupReviews.related ctx w₁
    rw [hreview] at hsteady
    rw [hspeedups] at hsteady₁
    exact hsteady₁.lastRetryAt_eq.trans hsteady.lastRetryAt_eq
  rcases dispatchPending_serves hget₂ hclient hstate hdue hdispatch with hsent | hwithheld
  · exact Or.inl (hsent.mono hbefore hafter)
  · have hstore : w₂.store = lastVersion Store.empty w₂.log := (hknown₁.stepwise hstep₂ hspeedups).linked.1
    rw [hretry, hstore] at hwithheld
    rw [hstore] at hget₂
    exact Or.inr ⟨w₂.log, hbefore, hgrown, hget₂, hwithheld⟩

/-- A client transaction that waits for dispatch is handed over by any tick of any run that comes to its end with the
monitor ready, once its target height is reached and as long as no client registered a transaction that was built.
Otherwise it is withheld: the dispatcher refuses it, or in the version of the store at a moment of the tick a tracked
transaction that it spends from had failed or was not seen by the monitor, or it is a retry within the interval since
the last one. -/
theorem tick_hands_over_due (cfg : BitcoinSettings) (calls : List Call) (answers : Answers) (w' : World)
    (tx : CoordinatedTx) (hready : ∀ n, answers.isReady n ≠ .ok false)
    (hrun : tick ⟨cfg, answers⟩ (runCalls cfg calls World.init) = (.ok (), w')) (hapart : KeptApart w'.log)
    (hget : (runCalls cfg calls World.init).store.txs.get tx.txid = some tx) (hclient : tx.speedup? = none)
    (hstate : tx.state = .toDispatch)
    (hdue : ∀ n height, answers.monitorHeight n = .ok height → tx.isReadyToDispatch height) :
    SentSince tx.tx (runCalls cfg calls World.init) w' ∨
      tx.WithheldSince ⟨cfg, answers⟩ (runCalls cfg calls World.init) w' := by
  have hknown := linksKnown_runCalls cfg calls
  generalize runCalls cfg calls World.init = w at hrun hget hknown ⊢
  obtain ⟨clock, news, hpipeline⟩ := tick_ok hready hrun
  have hstart : LinksKnown { w with clock := clock, news := news } := ⟨hknown.linked, hknown.origins, hknown.links⟩
  exact pipeline_serves (w := { w with clock := clock, news := news }) hstart hget hclient hstate hdue hpipeline hapart

/-- A funding UTXO is queued and a transaction registered. -/
def registeringCalls : List Call := growingChainCalls.take 2

/-- The answers to the tick that follows. -/
def firstTickAnswers : Answers := (sampleView 100 [] [sampleParent]).answers fixedBuilder 10 0

/-- What that tick finds registered. -/
def waitingParent : CoordinatedTx :=
  registeredTx sampleParent (.needsSpeedup sampleAnchor) "parent" 100 none none 10

/-- The world after that tick. -/
def handedOverWorld : World :=
  (tick ⟨defaultSettings, firstTickAnswers⟩ (runCalls defaultSettings registeringCalls World.init)).2

/-- The tick hands the transaction over, whose input comes from a transaction that no version tracks. -/
theorem tick_hands_over_due_registeringCalls :
    SentSince sampleParent (runCalls defaultSettings registeringCalls World.init) handedOverWorld := by
  have hready : ∀ n, firstTickAnswers.isReady n ≠ .ok false := by
    intro n hnot
    cases hnot
  have hrun : (tick ⟨defaultSettings, firstTickAnswers⟩ (runCalls defaultSettings registeringCalls World.init)).1 =
      .ok () := by decide +kernel
  have hdue : ∀ n height, firstTickAnswers.monitorHeight n = .ok height → waitingParent.isReadyToDispatch height := by
    intro n height hanswer
    cases hanswer
    decide
  have hserved := tick_hands_over_due defaultSettings registeringCalls firstTickAnswers handedOverWorld waitingParent
    hready (Prod.ext hrun rfl) (by decide +kernel) (by decide +kernel) rfl rfl hdue
  refine hserved.resolve_right ?_
  rintro ⟨older, -, holder, -, hwithheld⟩
  have howned : Owned (exec .tick ⟨defaultSettings, firstTickAnswers⟩
    (runCalls defaultSettings registeringCalls World.init)).2 := (owned_runCalls _ _).exec
  have hlinked : Linked Store.empty (exec .tick ⟨defaultSettings, firstTickAnswers⟩
      (runCalls defaultSettings registeringCalls World.init)).2 := by
    have hruns := linked_runCalls defaultSettings Store.empty [] none (registeringCalls ++ [⟨.tick, firstTickAnswers⟩])
    rw [runCalls_concat] at hruns
    exact hruns
  have hversion : handedOverWorld.HasVersion (lastVersion Store.empty older) := by
    rcases lastVersion_of_suffix hlinked.2 holder with hlast | hwrote
    · exact Or.inl (hlast.trans hlinked.1.symm)
    · exact Or.inr hwrote
  generalize lastVersion Store.empty older = s at hversion hwithheld
  have hunknown : ¬ s.isTxKnown 50 := by
    intro hknown
    obtain ⟨record, hrecord⟩ := Option.isSome_iff_exists.mp hknown
    have horigin := howned.origins s hversion 50 record hrecord
    have hid : record.txid = 50 := s.keyed 50 record hrecord
    cases hkind : record.speedup? with
    | none =>
      have hregistered := mem_registeredTxids.mpr (horigin.client hkind)
      rw [hid] at hregistered
      exact absurd hregistered (by decide +kernel)
    | some kind =>
      have hbuilt := mem_builtTxids.mpr (horigin.speedup (by rw [hkind]; rfl))
      rw [hid] at hbuilt
      exact absurd hbuilt (by decide +kernel)
  cases hwithheld with
  | refused reason hrefused => cases hrefused
  | failed parent hfailed =>
    have hparent := List.mem_of_find?_eq_some hfailed
    have htracked : (s.isTxKnown parent && s.isTxFailed parent) = true :=
      List.find?_some (p := fun id => s.isTxKnown id && s.isTxFailed id) hfailed
    rw [List.mem_singleton.mp hparent, eq_false_of_ne_true hunknown] at htracked
    cases htracked
  | unseen op n status hspends hknown _ _ =>
    rw [List.mem_singleton.mp hspends] at hknown
    exact hunknown hknown
  | early last n hretry _ _ => cases hretry

end BitcoinCoordinator
