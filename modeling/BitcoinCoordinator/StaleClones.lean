import BitcoinCoordinator.HeardAnswers

/-!
# Copies that a batch writes back

A batch of speedups is handled with the copies read when step 4 began. The branches that fail or retry a
transaction change its stored record, so a copy serves them as well as the record does; the branches that
accept one write the whole copy back. What an earlier outcome changed of the record is lost there: a mark of
its context, or the height it failed at.
-/

namespace BitcoinCoordinator

open Foundation

variable {α : Type} {ctx : Ctx} {w w' : World} {height : BlockHeight}

/-- Handle one outcome with the record read again from the store. -/
def handleReread (dispatchable : List CoordinatedTx) (currentHeight : BlockHeight)
    (result : Txid × DispatchOutcome) : Coord Unit :=
  match dispatchable.find? fun tx => tx.txid = result.1 with
  | some _ => do
    let found ← getTxById result.1
    match found with
    | some tx => handleDispatchResult tx result.1 result.2 currentHeight tx.feeInfo
    | none => pure ()
  | none => pure ()

/-- From the given worlds, two programs match in one environment. -/
abbrev MatchesFrom (m n : Coord α) (ctx : Ctx) (w w' : World) : Prop :=
  Prog.MatchesAt (World.Within ⊤) (World.Alike 0) m n ctx ctx w w'

/-- After every outcome the store is the same, whether the copies are handled or the records read again. -/
def NothingLost (ctx : Ctx) (w : World) (batch : List CoordinatedTx) (height : BlockHeight)
    (results : List (Txid × DispatchOutcome)) : Prop :=
  ∀ handled, handled <+: results →
    (Prog.forEach handled (handleSpeedupResult batch height) ctx w).2.store =
      (Prog.forEach handled (handleReread batch height) ctx w).2.store

/-- The node took the transaction: the broadcast succeeded, or the node knows the transaction at a depth.
The world is the one in which the outcome is settled. -/
inductive Taken (ctx : Ctx) (w : World) (txid : Txid) : DispatchOutcome → ℕ → World → Prop where
  | success : Taken ctx w txid .success 0 w
  | known (raw : String) (confirmations : ℕ)
      (hanswer : ctx.answers.txConfirmations w.clock txid = .ok (some confirmations)) :
      Taken ctx w txid (.dispatchError raw) confirmations w.asked

/-- The copy of a transaction is written back: the node took it, its predecessor is marked, and the backend
takes the write. -/
def WritesBack (ctx : Ctx) (w : World) (tx : CoordinatedTx) (outcome : DispatchOutcome) : Prop :=
  ∃ confirmations v w' u, Taken ctx w tx.txid outcome confirmations v ∧
    markReplaced tx tx.txid ctx v = (.ok u, w') ∧ ctx.answers.storage w'.clock = .ok ()

/-- If the copy of the transaction is written back, the stored record still has its marks and its settled
height. -/
def CopyIsFresh (ctx : Ctx) (w : World) (batch : List CoordinatedTx)
    (result : Txid × DispatchOutcome) : Prop :=
  ∀ tx, batch.find? (fun tx => tx.txid = result.1) = some tx → WritesBack ctx w tx result.2 →
    ∀ record, w.store.txs.get tx.txid = some record →
      record.kind = tx.kind ∧ record.settledBlockHeight = tx.settledBlockHeight

/-- Whenever the outcomes handled before an outcome completed, its copy is fresh. -/
def CopiesAreFresh (ctx : Ctx) (w : World) (batch : List CoordinatedTx) (height : BlockHeight)
    (results : List (Txid × DispatchOutcome)) : Prop :=
  ∀ handled result rest, results = handled ++ result :: rest → ∀ w' u,
    Prog.forEach handled (handleSpeedupResult batch height) ctx w = (.ok u, w') →
      CopyIsFresh ctx w' batch result

/-! ### Copies that differ in marks, state and settled height -/

/-- Settling a transaction as failed, with what follows, depends on its core. -/
theorem settleFailedDispatch_core (tx : CoordinatedTx) (fundingMissing : Bool) :
    settleFailedDispatch tx.core height fundingMissing = settleFailedDispatch tx height fundingMissing := by
  obtain ⟨txid, signed, kind, _⟩ := tx
  cases kind with
  | speedup kind => cases kind <;> rfl
  | normal => rfl
  | needsSpeedup data => rfl

/-- The cascade depends on the core of its root. -/
theorem failAndCascade_core (tx : CoordinatedTx) (fundingMissing : Bool) :
    failAndCascade tx.core height fundingMissing = failAndCascade tx height fundingMissing := by
  have hwithin : ∀ depth, failAndCascadeWithin depth tx.core height fundingMissing =
      failAndCascadeWithin depth tx height fundingMissing := by
    intro depth
    cases depth with
    | zero => rfl
    | succ depth =>
      unfold failAndCascadeWithin
      rw [settleFailedDispatch_core]
      rfl
  unfold failAndCascade
  simp only [hwithin]

/-- The inputs that are probed, the predecessor and whether it is a boost depend on the core. -/
theorem CoordinatedTx.probes_core (tx : CoordinatedTx) :
    tx.core.fundingOutpoints = tx.fundingOutpoints ∧ tx.core.nonFundingInputs = tx.nonFundingInputs ∧
      tx.core.replaces? = tx.replaces? ∧
      tx.core.speedup?.map SpeedupKind.isBoost = tx.speedup?.map SpeedupKind.isBoost := by
  obtain ⟨txid, signed, kind, _⟩ := tx
  cases kind with
  | speedup kind => cases kind <;> exact ⟨rfl, rfl, rfl, rfl⟩
  | normal => exact ⟨rfl, rfl, rfl, rfl⟩
  | needsSpeedup data => exact ⟨rfl, rfl, rfl, rfl⟩

/-- Settling a doomed transaction depends on its core. -/
theorem settleFailedChild_core (tx : CoordinatedTx) :
    settleFailedChild tx.core height = settleFailedChild tx height := by
  have hsurvivors : (fun s : Store => s.survivors tx.core) = fun s => s.survivors tx := by
    funext s
    unfold Store.survivors
    rw [tx.probes_core.2.1]
  have hrebuild : rebuildSurvivors tx.core height = rebuildSurvivors tx height := by
    unfold rebuildSurvivors
    rw [hsurvivors, failAndCascade_core]
  have hchild : ∀ tx : CoordinatedTx, settleFailedChild tx height =
      if (tx.speedup?.map SpeedupKind.isBoost).getD true = true then failAndCascade tx height false
      else rebuildSurvivors tx height := by
    intro tx
    unfold settleFailedChild
    cases tx.speedup? with
    | some kind => rfl
    | none => rfl
  rw [hchild, hchild, tx.probes_core.2.2.2, failAndCascade_core, hrebuild]

/-- Marking the predecessor as replaced depends on the core. -/
theorem markReplaced_core (tx : CoordinatedTx) (txid : Txid) :
    markReplaced tx.core txid = markReplaced tx txid := by
  unfold markReplaced
  rw [tx.probes_core.2.2.1]

/-- Probing the inputs depends on the core. -/
theorem missingInputKind_core (tx : CoordinatedTx) : missingInputKind tx.core = missingInputKind tx := by
  unfold missingInputKind
  rw [tx.probes_core.1, tx.probes_core.2.1]

/-! ### One outcome -/

variable {copy record : CoordinatedTx}

/-- A record with the core of a copy is the copy with other marks, state and settled height. -/
theorem CoordinatedTx.eq_of_core (h : record.core = copy.core) :
    record = { copy with
      kind := record.kind, state := record.state, settledBlockHeight := record.settledBlockHeight } := by
  obtain ⟨_, _⟩ := record
  obtain ⟨_, _⟩ := copy
  simp only [CoordinatedTx.core, CoordinatedTx.mk.injEq] at h ⊢
  tauto

/-- A record as it is written back for a transaction the node took. -/
def CoordinatedTx.taken (tx : CoordinatedTx) (height : BlockHeight) (confirmations : ℕ) :
    CoordinatedTx :=
  if confirmations = 0 then
    { tx with state := .inMempool, broadcastBlockHeight := some height, failGuardUntil := none }
  else
    { tx with
      broadcastBlockHeight := some (tx.broadcastBlockHeight.getD height)
      state := .confirmed
      failGuardUntil := none }

/-- Records with the same core are written back alike exactly when their marks and settled heights agree. -/
theorem CoordinatedTx.taken_eq_iff (h : record.core = copy.core) (confirmations : ℕ) :
    record.taken height confirmations = copy.taken height confirmations ↔
      record.kind = copy.kind ∧ record.settledBlockHeight = copy.settledBlockHeight := by
  rw [CoordinatedTx.eq_of_core h]
  unfold CoordinatedTx.taken
  split <;> simp

/-- Settling a transaction the node took. -/
def settleTaken (tx : CoordinatedTx) (txid : Txid) (height : BlockHeight) (confirmations : ℕ) :
    Coord Unit := do
  markReplaced tx txid
  rewriteTx tx (tx.taken height confirmations)
  monitorWatch (.transactions [txid] tx.context tx.confirmationTrigger) true

/-- The outcome of a transaction the node took is settled so. -/
theorem Taken.handleOutcome_eq {tx : CoordinatedTx} {txid : Txid} {outcome : DispatchOutcome}
    {confirmations : ℕ} {v : World} (h : Taken ctx w txid outcome confirmations v) :
    handleOutcome tx txid outcome height tx.feeInfo ctx w = settleTaken tx txid height confirmations ctx v := by
  cases h with
  | success => rfl
  | known raw confirmations hanswer =>
    have hquery : (query .monitorError fun answers n => answers.txConfirmations n txid : Coord (Option ℕ))
        ctx w = (.ok (some confirmations), w.asked) := query_ok.mpr ⟨hanswer, rfl⟩
    change (query _ _ >>= _) ctx w = _
    rw [Prog.bind_of_ok hquery]
    cases confirmations <;> rfl

/-- A node that took a transaction in one world took it in a world that differs in the history. -/
theorem Taken.alike {txid : Txid} {outcome : DispatchOutcome} {confirmations : ℕ} {v : World}
    (h : Taken ctx w txid outcome confirmations v) (halike : w.Alike 0 w') :
    ∃ v', Taken ctx w' txid outcome confirmations v' ∧ v.Alike 0 v' := by
  cases h with
  | success => exact ⟨w', Taken.success, halike⟩
  | known raw confirmations hanswer =>
    rw [halike.clock] at hanswer
    exact ⟨w'.asked, Taken.known raw confirmations hanswer, halike.asked⟩

/-- A refused write of a record. -/
theorem putTx_refused {e : Store → Event} {tx : CoordinatedTx} {reason : String}
    (h : ctx.answers.storage w.clock = .error reason) :
    putTx e tx ctx w = (.error (.error (.storageBackendError reason)), w.asked) := by
  have hwrite : insertTx tx ctx w = (.error (.error (.storageBackendError reason)), w.asked) := by
    unfold insertTx writeStore
    rw [h]
  have hread : readStore id ctx w = (.ok w.store, w) := rfl
  unfold putTx
  rw [Prog.bind_of_ok hread]
  exact Prog.bind_of_error hwrite

/-- Settling a transaction the node took with a copy or with the record leads to worlds alike, when the copy
is written back only over a record with its marks and settled height. -/
theorem settleTaken_alike {txid : Txid} {confirmations : ℕ} (halike : w.Alike 0 w')
    (hcore : record.core = copy.core)
    (hfresh : ∀ u v, markReplaced copy txid ctx w = (.ok u, v) → ctx.answers.storage v.clock = .ok () →
      record.kind = copy.kind ∧ record.settledBlockHeight = copy.settledBlockHeight) :
    MatchesFrom (settleTaken copy txid height confirmations)
      (settleTaken record txid height confirmations) ctx w w' := by
  have hreplaced : markReplaced record txid = markReplaced copy txid := by
    rw [← markReplaced_core record, hcore, markReplaced_core]
  have hcontext : record.context = copy.context ∧
      record.confirmationTrigger = copy.confirmationTrigger := by
    rw [CoordinatedTx.eq_of_core hcore]
    exact ⟨rfl, rfl⟩
  unfold settleTaken
  rw [hreplaced, hcontext.1, hcontext.2]
  apply Prog.MatchesAt.bind (markReplaced_matches copy txid w w' fun _ => halike)
  intro u v v' hrun hwithin
  have hv := hwithin le_top
  apply Prog.MatchesAt.bind ?_ fun _ v₁ v₁' _ hv₁ => monitorWatch_matches _ true v₁ v₁' hv₁
  rcases hstorage : ctx.answers.storage v.clock with reason | u'
  · have hstorage' : ctx.answers.storage v'.clock = .error reason := by rw [← hv.clock, hstorage]
    exact Prog.MatchesAt.of_run (putTx_refused hstorage) (putTx_refused hstorage') (fun _ => le_top)
      fun _ => hv.asked
  · rw [(CoordinatedTx.taken_eq_iff hcore confirmations).mpr (hfresh u v hrun hstorage)]
    exact putTx_matches _ _ _ v v' hwithin

/-- The cascade from a copy or from the record. -/
theorem failAndCascade_alike (hcore : record.core = copy.core) (fundingMissing : Bool) :
    MatchesOn 0 ⊤ (failAndCascade copy height fundingMissing)
      (failAndCascade record height fundingMissing) ctx ctx := by
  rw [← failAndCascade_core record, hcore, failAndCascade_core]
  exact failAndCascade_matches copy fundingMissing

/-- Settling a doomed copy or the record. -/
theorem settleFailedChild_alike (hcore : record.core = copy.core) :
    MatchesOn 0 ⊤ (settleFailedChild copy height) (settleFailedChild record height) ctx ctx := by
  rw [← settleFailedChild_core record, hcore, settleFailedChild_core]
  exact settleFailedChild_matches copy

/-- Retrying or failing a copy or the record, whose inputs are intact. -/
theorem retryOrFail_alike {txid : Txid} (hcore : record.core = copy.core) :
    MatchesOn 0 ⊤ (retryOrFail copy txid height) (retryOrFail record txid height) ctx ctx := by
  have hcount : record.retryCount = copy.retryCount := by rw [CoordinatedTx.eq_of_core hcore]
  unfold retryOrFail
  rw [hcount]
  refine Prog.Matches.bind settings_matches fun cfg => ?_
  refine Prog.Matches.bind (note_matches _ _) fun _ => ?_
  apply Prog.Matches.ite <;> intro _
  · exact Prog.Matches.bind (note_matches _ _) fun _ => failAndCascade_alike hcore false
  · exact markAsRetry_matches txid

/-- Excusing or failing a copy or the record, one of whose inputs is missing. -/
theorem settleMissingInput_alike {txid : Txid} (hcore : record.core = copy.core) (fundingMissing : Bool) :
    MatchesOn 0 ⊤ (settleMissingInput copy txid height fundingMissing)
      (settleMissingInput record txid height fundingMissing) ctx ctx := by
  have hguard : record.isGuarded height = copy.isGuarded height := by
    rw [CoordinatedTx.eq_of_core hcore]
    rfl
  unfold settleMissingInput excuseOrFail
  rw [hguard]
  refine Prog.Matches.bind (readStore_matches _) fun before => ?_
  refine Prog.Matches.bind ?_ fun _ => note_matches _ _
  apply Prog.Matches.ite <;> intro _
  · exact Prog.Matches.bind (note_matches _ _) fun _ => markAsRetry_matches txid
  · refine Prog.Matches.bind (note_matches _ _) fun _ => ?_
    exact Prog.Matches.ite (fun _ => failAndCascade_alike hcore true) fun _ => settleFailedChild_alike hcore

/-- Handling an outcome with a copy or with the record leads to worlds alike, when the copy is written back
only over a record with its marks and settled height. -/
theorem handleOutcome_alike {outcome : DispatchOutcome} (halike : w.Alike 0 w')
    (hcore : record.core = copy.core)
    (hfresh : WritesBack ctx w copy outcome →
      record.kind = copy.kind ∧ record.settledBlockHeight = copy.settledBlockHeight) :
    MatchesFrom (handleOutcome copy copy.txid outcome height copy.feeInfo)
      (handleOutcome record copy.txid outcome height record.feeInfo) ctx w w' := by
  have htaken : ∀ {confirmations v}, Taken ctx w copy.txid outcome confirmations v →
      MatchesFrom (handleOutcome copy copy.txid outcome height copy.feeInfo)
        (handleOutcome record copy.txid outcome height record.feeInfo) ctx w w' := by
    intro confirmations v htaken
    obtain ⟨v', htaken', hv⟩ := htaken.alike halike
    have hsettles : MatchesFrom (settleTaken copy copy.txid height confirmations)
        (settleTaken record copy.txid height confirmations) ctx v v' :=
      settleTaken_alike hv hcore fun u v₁ hrun hstorage =>
        hfresh ⟨confirmations, v, v₁, u, htaken, hrun, hstorage⟩
    exact hsettles.congr htaken.handleOutcome_eq htaken'.handleOutcome_eq fun _ => le_top
  cases outcome with
  | success => exact htaken Taken.success
  | fatal reason => exact failAndCascade_alike hcore false w w' fun _ => halike
  | parentFailed parent => exact settleFailedChild_alike hcore w w' fun _ => halike
  | dispatchError raw =>
    rcases hanswer : ctx.answers.txConfirmations w.clock copy.txid with reason | confirmations
    · have hquery : ∀ {v : World}, w.Alike 0 v → (query .monitorError fun answers n =>
          answers.txConfirmations n copy.txid : Coord (Option ℕ)) ctx v =
            (.error (.error (.monitorError reason)), v.asked) := by
        intro v hv
        rw [hv.clock] at hanswer
        simp [query, hanswer]
      have hsame : w.Alike 0 w := ⟨rfl, rfl, rfl, rfl, Nat.zero_le _⟩
      exact Prog.MatchesAt.of_run (Prog.bind_of_error (hquery hsame)) (Prog.bind_of_error (hquery halike))
        (fun _ => le_top) fun _ => halike.asked
    · cases confirmations with
      | some confirmations => exact htaken (Taken.known raw confirmations hanswer)
      | none =>
        have hmissing : missingInputKind record = missingInputKind copy := by
          rw [← missingInputKind_core record, hcore, missingInputKind_core]
        unfold handleOutcome classifyDispatchError
        dsimp only
        rw [hmissing]
        apply Prog.MatchesAt.bind (query_matches (fun _ h => by rw [h.txConfirmations]) w w' fun _ => halike)
        intro answer v v' hquery hv
        rw [(query_ok.mp hquery).1] at hanswer
        cases hanswer
        refine Prog.Matches.bind (missingInputKind_matches copy) (fun missing => ?_) v v' hv
        cases missing with
        | none => exact retryOrFail_alike hcore
        | some fundingMissing => exact settleMissingInput_alike hcore fundingMissing

/-! ### The batch -/

variable {batch : List CoordinatedTx} {results : List (Txid × DispatchOutcome)}
  {result : Txid × DispatchOutcome}

/-- Handling a result that names the transaction is handling its outcome. -/
theorem handleDispatchResult_of_eq {tx : CoordinatedTx} {txid : Txid} {outcome : DispatchOutcome}
    {feeInfo : FeeInfo} (h : tx.txid = txid) :
    handleDispatchResult tx txid outcome height feeInfo ctx w =
      (do
        handleOutcome tx txid outcome height feeInfo
        note fun after => .handled txid outcome w.store after : Coord Unit) ctx w := by
  have hverify : tx.verifyTxId txid = .ok () := by
    unfold CoordinatedTx.verifyTxId
    rw [if_neg (not_not.mpr h)]
  have hread : readStore id ctx w = (.ok w.store, w) := rfl
  unfold handleDispatchResult
  rw [Prog.bind_of_ok hread, hverify]
  rfl

/-- Handling a result of the batch with its copy, and with the record read again. -/
theorem handleSpeedupResult_of_find {tx : CoordinatedTx}
    (hfind : batch.find? (fun tx => tx.txid = result.1) = some tx) (hcore : record.core = tx.core)
    (hget : w'.store.txs.get tx.txid = some record) :
    handleSpeedupResult batch height result ctx w = (do
        handleOutcome tx tx.txid result.2 height tx.feeInfo
        note fun after => .handled tx.txid result.2 w.store after : Coord Unit) ctx w ∧
      handleReread batch height result ctx w' = (do
        handleOutcome record tx.txid result.2 height record.feeInfo
        note fun after => .handled tx.txid result.2 w'.store after : Coord Unit) ctx w' := by
  have htxid : tx.txid = result.1 := by simpa using List.find?_some hfind
  have hrecord : record.txid = tx.txid := by rw [CoordinatedTx.eq_of_core hcore]
  have hread : getTxById tx.txid ctx w' = (.ok (some record), w') := by
    rw [← hget]
    rfl
  unfold handleSpeedupResult handleReread
  rw [hfind, ← htxid]
  dsimp only
  rw [Prog.bind_of_ok hread]
  exact ⟨handleDispatchResult_of_eq rfl, handleDispatchResult_of_eq hrecord⟩

/-- Handling one outcome with the copy or with the record read again leads to worlds alike. -/
theorem handleSpeedupResult_alike (halike : w.Alike 0 w')
    (hstored : ∀ tx ∈ batch, tx.txid = result.1 → StillStored tx w)
    (hfresh : CopyIsFresh ctx w batch result) :
    MatchesFrom (handleSpeedupResult batch height result) (handleReread batch height result)
      ctx w w' := by
  cases hfind : batch.find? fun tx => tx.txid = result.1 with
  | none =>
    unfold handleSpeedupResult handleReread
    rw [hfind]
    exact Prog.Matches.pure () w w' fun _ => halike
  | some tx =>
    have htxid : tx.txid = result.1 := by simpa using List.find?_some hfind
    obtain ⟨record, hget, hdrift⟩ := hstored tx (List.mem_of_find?_eq_some hfind) htxid
    have hget' : w'.store.txs.get tx.txid = some record := by rw [← halike.store, hget]
    apply Prog.MatchesAt.congr ?_ (handleSpeedupResult_of_find hfind hdrift.core hget').1
      (handleSpeedupResult_of_find (w := w) hfind hdrift.core hget').2 id
    apply Prog.MatchesAt.bind (handleOutcome_alike halike hdrift.core fun hwrites =>
      hfresh tx hfind hwrites record hget)
    intro _ v v' _ hv
    exact note_matches _ _ v v' hv

/-- The store after a transaction that the node took is written back. -/
theorem handleOutcome_store {tx : CoordinatedTx} {txid : Txid} {outcome : DispatchOutcome}
    {confirmations : ℕ} {v : World} {u : Unit} {e : Store → Event}
    (htaken : Taken ctx w txid outcome confirmations v) (hrun : markReplaced tx txid ctx v = (.ok u, w'))
    (hstorage : ctx.answers.storage w'.clock = .ok ()) :
    ((do
      handleOutcome tx txid outcome height tx.feeInfo
      note e : Coord Unit) ctx w).2.store = w'.store.setTx (tx.taken height confirmations) := by
  have hwrite : rewriteTx tx (tx.taken height confirmations) ctx w' = (.ok (),
      (w'.written (w'.store.setTx (tx.taken height confirmations))).noted (.rewrote tx w'.store)) := by
    have hread : readStore id ctx w' = (.ok w'.store, w') := rfl
    have hinsert : insertTx (tx.taken height confirmations) ctx w' = (.ok (),
      w'.written (w'.store.setTx (tx.taken height confirmations))) := writeStore_ok.mpr ⟨hstorage, rfl⟩
    unfold rewriteTx putTx
    rw [Prog.bind_of_ok hread, Prog.bind_of_ok hinsert]
    rfl
  have hsettle : handleOutcome tx txid outcome height tx.feeInfo ctx w =
      monitorWatch (.transactions [txid] tx.context tx.confirmationTrigger) true ctx
        ((w'.written (w'.store.setTx (tx.taken height confirmations))).noted (.rewrote tx w'.store)) := by
    rw [htaken.handleOutcome_eq]
    exact (Prog.bind_of_ok hrun).trans (Prog.bind_of_ok hwrite)
  rw [Prog.bind_congr_run hsettle]
  have hkeeps : Prog.Keeps (fun w => w.store = w'.store.setTx (tx.taken height confirmations))
      (do
        monitorWatch (.transactions [txid] tx.context tx.confirmationTrigger) true
        note e : Coord Unit) ctx := by
    refine Prog.Keeps.seq (Prog.Keeps.seq (steady_store _).query fun _ => ?_) fun _ => ?_
    · exact fun _ h => h
    · exact fun _ h => h
  exact hkeeps _ rfl

/-- When the store is the same with the copy and with the record read again, the copy was fresh. -/
theorem copyIsFresh_of_store_eq (halike : w.Alike 0 w')
    (hstored : ∀ tx ∈ batch, tx.txid = result.1 → StillStored tx w)
    (hsame : (handleSpeedupResult batch height result ctx w).2.store =
      (handleReread batch height result ctx w').2.store) : CopyIsFresh ctx w batch result := by
  intro tx hfind hwrites record hget
  have htxid : tx.txid = result.1 := by simpa using List.find?_some hfind
  obtain ⟨record', hrecord', hdrift⟩ := hstored tx (List.mem_of_find?_eq_some hfind) htxid
  obtain rfl : record' = record := Option.some.inj (hrecord'.symm.trans hget)
  have hcore := hdrift.core
  obtain ⟨confirmations, v, w₁, u, htaken, hreplaced, hstorage⟩ := hwrites
  obtain ⟨v', htaken', hv⟩ := htaken.alike halike
  have hmatches : MatchesOn 0 ⊤ (markReplaced tx tx.txid) (markReplaced tx tx.txid) ctx ctx :=
    markReplaced_matches tx tx.txid
  obtain ⟨-, w₁', hreplaced', hw₁⟩ := (hmatches v v' fun _ => hv).run hreplaced le_top
  have hget' : w'.store.txs.get tx.txid = some record' := by rw [← halike.store, hget]
  have hmark : markReplaced record' tx.txid ctx v' = (.ok u, w₁') := by
    rw [← markReplaced_core record', hcore, markReplaced_core, hreplaced']
  have hstorage' : ctx.answers.storage w₁'.clock = .ok () := by rw [← hw₁.clock, hstorage]
  rw [(handleSpeedupResult_of_find hfind hcore hget').1,
    (handleSpeedupResult_of_find (w := w) hfind hcore hget').2,
    handleOutcome_store htaken hreplaced hstorage, handleOutcome_store htaken' hmark hstorage', hw₁.store]
    at hsame
  have htaken : ∀ (x : CoordinatedTx) (s : Store), x.core = tx.core →
      (s.setTx (x.taken height confirmations)).txs.get tx.txid = some (x.taken height confirmations) := by
    intro x s hx
    have htxid : (x.taken height confirmations).txid = tx.txid := by
      rw [CoordinatedTx.eq_of_core hx]
      unfold CoordinatedTx.taken
      split <;> rfl
    rw [Store.get_setTx, if_pos htxid.symm]
  have hrecords := congrArg (fun s : Store => s.txs.get tx.txid) hsame
  simp only [htaken tx _ rfl, htaken record' _ hcore, Option.some.injEq] at hrecords
  exact (CoordinatedTx.taken_eq_iff hcore confirmations).mp hrecords.symm

/-- The copies are fresh when the first is, and the others are from where it was handled. -/
theorem copiesAreFresh_cons {rest : List (Txid × DispatchOutcome)} :
    CopiesAreFresh ctx w batch height (result :: rest) ↔ CopyIsFresh ctx w batch result ∧
      ∀ u w', handleSpeedupResult batch height result ctx w = (.ok u, w') →
        CopiesAreFresh ctx w' batch height rest := by
  constructor
  · intro hfresh
    refine ⟨hfresh [] result rest rfl w () rfl, ?_⟩
    intro u w₁ hrun handled result' rest' hsplit w' u' hhandled
    apply hfresh (result :: handled) result' rest' (by rw [hsplit]; rfl) w' u'
    exact (Prog.bind_of_ok hrun).trans hhandled
  · intro hfresh handled result' rest' hsplit w' u hhandled
    cases handled with
    | nil =>
      obtain ⟨rfl, rfl⟩ := List.cons.inj hsplit
      obtain ⟨-, rfl⟩ := Prog.pure_ok.mp hhandled
      exact hfresh.1
    | cons first handled =>
      obtain ⟨rfl, hrest⟩ := List.cons.inj hsplit
      obtain ⟨u', w₁, hrun, hhandled⟩ := Prog.bind_ok.mp hhandled
      exact hfresh.2 u' w₁ hrun handled result' rest' hrest w' u hhandled

/-- Handling one outcome leaves the copies of the other transactions behind by a drift at most. -/
theorem handleSpeedupResult_keeps_stored {tx : CoordinatedTx} (hne : tx.txid ≠ result.1) :
    Prog.Keeps (StillStored tx) (handleSpeedupResult batch height result) ctx := by
  unfold handleSpeedupResult
  cases hfind : batch.find? fun tx => tx.txid = result.1 with
  | none => exact Prog.Keeps.pure _
  | some handled =>
    have htxid : handled.txid = result.1 := by simpa using List.find?_some hfind
    apply handleDispatchResult_keeps_other (driftStable_drifted tx)
    rw [htxid]
    exact hne

/-- Handling the outcome of one transaction leaves the copies of the others of a batch behind by a drift at
most. -/
theorem stillStored_rest {u : Unit} {result : Txid × DispatchOutcome} {rest : List (Txid × DispatchOutcome)}
    (hstored : ∀ later ∈ result :: rest, ∀ tx ∈ batch, tx.txid = later.1 → StillStored tx w)
    (hnodup : ((result :: rest).map Prod.fst).Nodup)
    (hrun : handleSpeedupResult batch height result ctx w = (.ok u, w')) :
    ∀ later ∈ rest, ∀ tx ∈ batch, tx.txid = later.1 → StillStored tx w' := by
  intro later hlater tx htx hnamed
  have hne : tx.txid ≠ result.1 := by
    rw [hnamed]
    exact fun heq => (List.nodup_cons.mp hnodup).1 (List.mem_map.mpr ⟨later, hlater, heq⟩)
  have hkept : Prog.Keeps (StillStored tx) (handleSpeedupResult batch height result) ctx :=
    handleSpeedupResult_keeps_stored hne
  exact hkept.run (hstored later (List.mem_cons_of_mem _ hlater) tx htx hnamed) hrun

/-- From worlds alike, the stores after the outcomes are the same exactly when every copy is fresh. The
induction is on the outcomes; the copies still to be handled have drifted at most. -/
theorem store_eq_iff_copiesAreFresh (halike : w.Alike 0 w')
    (hstored : ∀ result ∈ results, ∀ tx ∈ batch, tx.txid = result.1 → StillStored tx w)
    (hnodup : (results.map Prod.fst).Nodup) :
    (∀ handled, handled <+: results →
        (Prog.forEach handled (handleSpeedupResult batch height) ctx w).2.store =
          (Prog.forEach handled (handleReread batch height) ctx w').2.store) ↔
      CopiesAreFresh ctx w batch height results := by
  induction results generalizing w w' with
  | nil =>
    constructor
    · intro _ handled result rest hsplit
      simp at hsplit
    · intro _ handled hprefix
      rw [List.prefix_nil.mp hprefix]
      exact halike.store
  | cons result rest ih =>
    rw [copiesAreFresh_cons]
    have hhead := hstored result List.mem_cons_self
    obtain ⟨-, hothers⟩ := List.nodup_cons.mp hnodup
    constructor
    · intro hsame
      have hfirst : CopyIsFresh ctx w batch result := by
        apply copyIsFresh_of_store_eq halike hhead
        have hone := hsame [result] ⟨rest, rfl⟩
        have hlast : ∀ (body : Txid × DispatchOutcome → Coord Unit) (w : World),
            (Prog.forEach [result] body ctx w).2 = (body result ctx w).2 := by
          intro body w
          change (Prog.bind (body result) (fun _ => Prog.pure ()) ctx w).2 = _
          unfold Prog.bind
          rcases body result ctx w with ⟨_ | _, _⟩ <;> rfl
        rw [hlast, hlast] at hone
        exact hone
      refine ⟨hfirst, fun u v hrun => ?_⟩
      obtain ⟨-, v', hrun', hv⟩ := (handleSpeedupResult_alike halike hhead hfirst).run hrun le_top
      apply (ih hv (stillStored_rest hstored hnodup hrun) hothers).mp
      intro handled hprefix
      have hlonger := hsame (result :: handled) (List.cons_prefix_cons.mpr ⟨rfl, hprefix⟩)
      unfold Prog.forEach at hlonger
      rw [Prog.bind_of_ok hrun, Prog.bind_of_ok hrun'] at hlonger
      exact hlonger
    · rintro ⟨hfirst, hlater⟩ handled hprefix
      cases handled with
      | nil => exact halike.store
      | cons first handled =>
        obtain ⟨rfl, hshorter⟩ := List.cons_prefix_cons.mp hprefix
        unfold Prog.forEach
        have halikeOne : MatchesFrom (handleSpeedupResult batch height first)
          (handleReread batch height first) ctx w w' := handleSpeedupResult_alike halike hhead hfirst
        rcases hrun : handleSpeedupResult batch height first ctx w with ⟨e | u, v⟩
        · obtain ⟨-, v', hrun', hv⟩ := halikeOne.run hrun le_top
          rw [Prog.bind_of_error hrun, Prog.bind_of_error hrun']
          exact hv.store
        · obtain ⟨-, v', hrun', hv⟩ := halikeOne.run hrun le_top
          rw [Prog.bind_of_ok hrun, Prog.bind_of_ok hrun']
          exact (ih hv (stillStored_rest hstored hnodup hrun) hothers).mpr (hlater u v hrun) handled hshorter

/-- Handling the outcomes of a batch with its copies loses nothing exactly when every copy that is written
back still has the marks and the settled height of its record. -/
theorem nothingLost_iff_copiesAreFresh
    (hcopies : ∀ tx ∈ batch, w.store.txs.get tx.txid = some tx) (hnodup : (results.map Prod.fst).Nodup) :
    NothingLost ctx w batch height results ↔ CopiesAreFresh ctx w batch height results :=
  store_eq_iff_copiesAreFresh ⟨rfl, rfl, rfl, rfl, Nat.zero_le _⟩
    (fun _ _ tx htx _ => stillStored_of_get (hcopies tx htx)) hnodup

end BitcoinCoordinator
