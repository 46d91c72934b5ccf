import BitcoinCoordinator.BatchVerdicts
import BitcoinCoordinator.Conduct

/-!
# When a batch loses an update

Every way in which the outcomes of a batch can be settled is brought about by answers of the monitor and the
node: those that settle one outcome can be put after those that settled the outcomes before. So a batch loses
nothing, whatever is answered, exactly when no verdict on an earlier outcome touches the record of a
transaction that the node may then be found to have taken.
-/

namespace BitcoinCoordinator

open Foundation

variable {α : Type} {ctx : Ctx} {cfg : BitcoinSettings} {height : BlockHeight} {s : Store} {w w' : World}
  {verdicts : List (Txid × Verdict)} {tx : CoordinatedTx}

/-! ### Answers -/

/-- Answers that take every write and every request, and tell the same of every transaction and of every
output. -/
def Answers.steady (confirmations : Option ℕ) (unspent : Bool) : Answers where
  monitorTick _ := .ok ()
  isReady _ := .ok true
  monitorHeight _ := .ok 0
  txStatus _ _ _ := .ok ⟨false, true, fun _ => false, false, false⟩
  txConfirmations _ _ := .ok confirmations
  isUtxoUnspent _ _ _ _ := .ok unspent
  estimatedFeeRate _ := .ok 0
  monitor _ _ _ := .ok ()
  cancel _ _ := .ok ()
  sendTransaction _ tx := .ok tx.computeTxid
  speedupTransactions _ _ _ _ _ := .error ""
  storage _ := .ok ()
  nowSecs _ := 0
  maxDustLimit := 0
  buildRounds := 0

/-- Other answers from a question on, to the questions that are asked while outcomes are handled. -/
def Answers.before (answers : Answers) (n : ℕ) (later : Answers) : Answers :=
  { later with
    storage := fun m => if m < n then answers.storage m else later.storage m
    monitor := fun m => if m < n then answers.monitor m else later.monitor m
    txConfirmations := fun m => if m < n then answers.txConfirmations m else later.txConfirmations m
    isUtxoUnspent := fun m => if m < n then answers.isUtxoUnspent m else later.isUtxoUnspent m }

/-- Up to the question nothing has changed. -/
instance Answers.agreeOn_before {answers later : Answers} {n : ℕ} :
    Ctx.AgreeOn 0 n ⟨cfg, answers⟩ ⟨cfg, answers.before n later⟩ where
  settings := rfl
  answers m _ hm := by
    have hlt : m < n := Nat.lt_of_succ_le (WithTop.coe_le_coe.mp hm)
    constructor <;> simp [Answers.before, hlt]

/-- From the question on the answers are the other ones. -/
instance Answers.agreeOn_later {answers later : Answers} {n : ℕ} :
    Ctx.AgreeOn n ⊤ ⟨cfg, later⟩ ⟨cfg, answers.before n later⟩ where
  settings := rfl
  answers m hm _ := by
    have hlt : ¬ m < n := not_lt.mpr hm
    constructor <;> simp [Answers.before, hlt]

/-- A program whose only errors are refused writes completes when none is refused. -/
theorem completes_of_storage {Q : α → World → Prop} {m : Coord α} [hm : Prog.Conducts (fun _ _ => True) Excused m]
    (hstorage : ∀ n, ctx.answers.storage n = .ok ()) (h : Prog.Ends (UnlessRefused Q) m ctx w) :
    ∃ a w', m ctx w = (.ok a, w') ∧ Q a w' := by
  rcases h with ⟨reason, hrefused⟩ | ⟨a, hrun, hQ⟩
  · rcases hm.halts ctx w _ hrefused with hpassed | hunfinished
    · cases hpassed with
      | storage hstopped =>
        rw [hstorage] at hstopped
        cases hstopped
    · cases hunfinished
  · exact ⟨a, _, Prod.ext hrun rfl, hQ⟩

/-! ### One outcome -/

/-- Probing outputs of which the same is told. -/
theorem anyInputMissing_steady {confirmations : Option ℕ} {unspent : Bool} (ops : List OutPoint) :
    ∃ w', anyInputMissing ops ⟨cfg, Answers.steady confirmations unspent⟩ w =
      (.ok (!unspent && !ops.isEmpty), w') := by
  induction ops generalizing w with
  | nil =>
    rw [List.isEmpty_nil, Bool.not_true, Bool.and_false]
    exact ⟨w, rfl⟩
  | cons op rest ih =>
    have hquery : (query .monitorError fun answers n => answers.isUtxoUnspent n op.txid op.vout true : Coord Bool)
        ⟨cfg, Answers.steady confirmations unspent⟩ w = (.ok unspent, w.asked) := query_ok.mpr ⟨rfl, rfl⟩
    unfold anyInputMissing
    rw [Prog.bind_of_ok hquery]
    cases unspent with
    | true => exact ih
    | false => exact ⟨w.asked, rfl⟩

/-- Probing the inputs of a transaction when the same is told of all of them. -/
theorem missingInputKind_steady (cfg : BitcoinSettings) (w : World) (confirmations : Option ℕ) (unspent : Bool)
    (tx : CoordinatedTx) :
    ∃ missing w', missingInputKind tx ⟨cfg, Answers.steady confirmations unspent⟩ w = (.ok missing, w') ∧
      missing.isSome = (!unspent && !tx.probed.isEmpty) := by
  have hprobed : tx.probed.isEmpty = (tx.fundingOutpoints.isEmpty && tx.nonFundingInputs.isEmpty) := by
    unfold CoordinatedTx.probed
    cases tx.fundingOutpoints <;> rfl
  obtain ⟨w₁, hfunding⟩ : ∃ w₁, anyInputMissing tx.fundingOutpoints
      ⟨cfg, Answers.steady confirmations unspent⟩ w = (.ok (!unspent && !tx.fundingOutpoints.isEmpty), w₁) :=
    anyInputMissing_steady _
  obtain ⟨w₂, hother⟩ : ∃ w₂, anyInputMissing tx.nonFundingInputs
      ⟨cfg, Answers.steady confirmations unspent⟩ w₁ = (.ok (!unspent && !tx.nonFundingInputs.isEmpty), w₂) :=
    anyInputMissing_steady _
  unfold missingInputKind
  rw [Prog.bind_of_ok hfunding, hprobed]
  by_cases hgone : (!unspent && !tx.fundingOutpoints.isEmpty) = true
  · rw [if_pos hgone]
    refine ⟨some true, w₁, rfl, ?_⟩
    revert hgone
    cases unspent <;> cases tx.fundingOutpoints.isEmpty <;> simp
  · rw [if_neg hgone, Prog.bind_of_ok hother]
    by_cases hgone' : (!unspent && !tx.nonFundingInputs.isEmpty) = true
    · rw [if_pos hgone']
      refine ⟨some false, w₂, rfl, ?_⟩
      revert hgone'
      cases unspent <;> cases tx.nonFundingInputs.isEmpty <;> simp
    · rw [if_neg hgone']
      refine ⟨none, w₂, rfl, ?_⟩
      revert hgone hgone'
      cases unspent <;> cases tx.fundingOutpoints.isEmpty <;> cases tx.nonFundingInputs.isEmpty <;> simp

/-- Marking what a transaction replaces completes when that is a speedup and nothing is refused. -/
theorem markReplaced_completes (hreplaces : tx.ReplacesSpeedup w.store)
    (hstorage : ∀ n, w.clock ≤ n → ctx.answers.storage n = .ok ()) :
    ∃ w', markReplaced tx tx.txid ctx w = (.ok (), w') ∧ w.clock ≤ w'.clock := by
  unfold markReplaced
  cases htx : tx.replaces? with
  | none => exact ⟨w, rfl, le_rfl⟩
  | some replaces =>
    have hread : getTxById replaces ctx w = (.ok (w.store.txs.get replaces), w) := rfl
    dsimp only
    rw [Prog.bind_of_ok hread]
    cases hget : w.store.txs.get replaces with
    | none => exact ⟨w, rfl, le_rfl⟩
    | some replaced =>
      obtain ⟨kind, hkind⟩ := Option.isSome_iff_exists.mp (hreplaces replaces htx replaced hget)
      obtain ⟨updated, hupdated⟩ : ∃ updated,
          (replaced.modifyContext fun c => { c with replacedBy := some tx.txid }) = .ok updated := by
        unfold CoordinatedTx.speedup? at hkind
        unfold CoordinatedTx.modifyContext
        split at hkind
        · exact ⟨_, rfl⟩
        · cases hkind
      have hmodify : (Prog.ofExcept ((replaced.modifyContext fun c =>
          { c with replacedBy := some tx.txid }).mapError Stop.error) : Coord CoordinatedTx) ctx w =
            (.ok updated, w) := by
        rw [hupdated]
        rfl
      have hwrite : updateTx updated ctx w = (.ok (), w.written (w.store.setTx updated)) :=
        writeStore_ok.mpr ⟨hstorage w.clock le_rfl, rfl⟩
      exact ⟨_, (Prog.bind_of_ok hmodify).trans hwrite, Nat.le_succ _⟩

/-- Settling a transaction the node took completes when what it replaces is a speedup and nothing is
refused. -/
theorem settleTaken_completes {confirmations : ℕ} (hreplaces : tx.ReplacesSpeedup w.store)
    (hstorage : ∀ n, ctx.answers.storage n = .ok ()) (hmonitor : ∀ n data inMempool,
      ctx.answers.monitor n data inMempool = .ok ()) :
    ∃ w', settleTaken tx tx.txid height confirmations ctx w = (.ok (), w') := by
  obtain ⟨w₁, hreplaced, -⟩ := markReplaced_completes hreplaces fun n _ => hstorage n
  have hput : ∃ w₂, rewriteTx tx (tx.taken height confirmations) ctx w₁ = (.ok (), w₂) := by
    have hread : readStore id ctx w₁ = (.ok w₁.store, w₁) := rfl
    have hinsert : insertTx (tx.taken height confirmations) ctx w₁ = (.ok (),
        w₁.written (w₁.store.setTx (tx.taken height confirmations))) := writeStore_ok.mpr ⟨hstorage _, rfl⟩
    unfold rewriteTx putTx
    rw [Prog.bind_of_ok hread, Prog.bind_of_ok hinsert]
    exact ⟨_, rfl⟩
  obtain ⟨w₂, hput⟩ := hput
  have hquery : ∀ data, (query .monitorError fun answers n => answers.monitor n data true : Coord Unit) ctx w₂ =
      (.ok (), w₂.asked) := fun data => query_ok.mpr ⟨hmonitor _ _ _, rfl⟩
  unfold settleTaken
  rw [Prog.bind_of_ok hreplaced, Prog.bind_of_ok hput]
  exact ⟨_, Prog.bind_of_ok (hquery _)⟩

/-- A rejected transaction that the node does not know is retried when none of its inputs is missing. -/
theorem handleOutcome_intact {raw : String} (hanswer : ctx.answers.txConfirmations w.clock tx.txid = .ok none)
    (hprobe : missingInputKind tx ctx w.asked = (.ok none, w')) :
    handleOutcome tx tx.txid (.dispatchError raw) height tx.feeInfo ctx w = retryOrFail tx tx.txid height ctx w' := by
  have hquery : (query .monitorError fun answers n => answers.txConfirmations n tx.txid : Coord (Option ℕ)) ctx w =
      (.ok none, w.asked) := query_ok.mpr ⟨hanswer, rfl⟩
  exact (Prog.bind_of_ok hquery).trans (Prog.bind_of_ok hprobe)

/-- A rejected transaction that the node does not know is settled when one of its inputs is missing. -/
theorem handleOutcome_missing {raw : String} {fundingMissing : Bool}
    (hanswer : ctx.answers.txConfirmations w.clock tx.txid = .ok none)
    (hprobe : missingInputKind tx ctx w.asked = (.ok (some fundingMissing), w')) :
    handleOutcome tx tx.txid (.dispatchError raw) height tx.feeInfo ctx w =
      settleMissingInput tx tx.txid height fundingMissing ctx w' := by
  have hquery : (query .monitorError fun answers n => answers.txConfirmations n tx.txid : Coord (Option ℕ)) ctx w =
      (.ok none, w.asked) := query_ok.mpr ⟨hanswer, rfl⟩
  exact (Prog.bind_of_ok hquery).trans (Prog.bind_of_ok hprobe)

/-- Every verdict an outcome can have is brought about by answers that stay the same. -/
theorem exists_answers_of_admits {outcome : DispatchOutcome} {verdict : Verdict}
    (h : s.Tracks height verdicts w.store) (hget : s.txs.get tx.txid = some tx)
    (hwaits : tx.state = .toDispatch) (hstored : StillStored tx w)
    (hadmits : s.Admits cfg height tx outcome verdict) :
    ∃ answers w', handleOutcome tx tx.txid outcome height tx.feeInfo ⟨cfg, answers⟩ w = (.ok (), w') ∧
      s.Tracks height ((tx.txid, verdict) :: verdicts) w'.store := by
  have htaken : ∀ {confirmations : ℕ} {v : World}, tx.ReplacesSpeedup s →
      Taken ⟨cfg, Answers.steady (some 0) true⟩ w tx.txid outcome confirmations v → v.store = w.store →
      ∃ answers w', handleOutcome tx tx.txid outcome height tx.feeInfo ⟨cfg, answers⟩ w = (.ok (), w') ∧
        s.Tracks height ((tx.txid, .taken) :: verdicts) w'.store := by
    intro confirmations v hspeedup htaken hstore
    rw [← hstore] at h
    obtain ⟨w', hrun⟩ : ∃ w', settleTaken tx tx.txid height confirmations
        ⟨cfg, Answers.steady (some 0) true⟩ v = (.ok (), w') :=
      settleTaken_completes (h.replacesSpeedup.mpr hspeedup) (fun _ => rfl) fun _ _ _ => rfl
    exact ⟨_, w', htaken.handleOutcome_eq.trans hrun, (h.taken hget hrun).2⟩
  have hrest : ∀ (unspent : Bool) {m : Coord Unit} {verdict : Verdict} {v : World}
      [Prog.Conducts (fun _ _ => True) Excused m],
      Prog.Ends (UnlessRefused fun _ w' => s.Tracks height ((tx.txid, verdict) :: verdicts) w'.store) m
        ⟨cfg, Answers.steady none unspent⟩ v →
      handleOutcome tx tx.txid outcome height tx.feeInfo ⟨cfg, Answers.steady none unspent⟩ w =
        m ⟨cfg, Answers.steady none unspent⟩ v →
      ∃ answers w', handleOutcome tx tx.txid outcome height tx.feeInfo ⟨cfg, answers⟩ w = (.ok (), w') ∧
        s.Tracks height ((tx.txid, verdict) :: verdicts) w'.store := by
    intro unspent m verdict v _ hends hsame
    obtain ⟨_, w', hrun, htracks⟩ := completes_of_storage (fun _ => rfl) hends
    exact ⟨_, w', hsame.trans hrun, htracks⟩
  cases outcome with
  | success =>
    obtain ⟨rfl, hspeedup⟩ := hadmits
    exact htaken hspeedup Taken.success rfl
  | fatal reason =>
    obtain rfl := hadmits
    exact hrest true (h.failAndCascade hstored false) rfl
  | parentFailed parent =>
    obtain rfl := hadmits
    exact hrest true (h.settleFailedChild hstored) rfl
  | dispatchError raw =>
    rcases hadmits with ⟨rfl, hspeedup⟩ | rfl | ⟨hprobed, rfl⟩
    · exact htaken hspeedup (Taken.known raw 0 rfl) rfl
    · obtain ⟨missing, w₁, hprobe, hmissing⟩ := missingInputKind_steady cfg w.asked none true tx
      have hstore : w₁.store = w.store := (missingInputKind_ok hprobe).1
      rw [← hstore] at h
      cases missing with
      | none => exact hrest true (h.retryOrFail hwaits (hstored.of_store_eq hstore)) (handleOutcome_intact rfl hprobe)
      | some fundingMissing => cases hmissing
    · obtain ⟨missing, w₁, hprobe, hmissing⟩ := missingInputKind_steady cfg w.asked none false tx
      have hstore : w₁.store = w.store := (missingInputKind_ok hprobe).1
      rw [← hstore] at h
      cases missing with
      | none => simp [hprobed] at hmissing
      | some fundingMissing =>
        exact hrest false (h.settleMissingInput hwaits (hstored.of_store_eq hstore) fundingMissing)
          (handleOutcome_missing rfl hprobe)

/-! ### A batch -/

variable {batch : List CoordinatedTx} {results handled : List (Txid × DispatchOutcome)}

/-- From a question on, every write is taken and the node knows every transaction. -/
def Answers.AcceptsFrom (answers : Answers) (n : ℕ) : Prop :=
  ∀ m, n ≤ m → answers.storage m = .ok () ∧ ∀ txid, answers.txConfirmations m txid = .ok (some 0)

/-- An outcome that can be settled as taken is written back under such answers. -/
theorem Store.Tracks.writesBack {outcome : DispatchOutcome} {answers : Answers}
    (h : s.Tracks height verdicts w.store) (haccepts : answers.AcceptsFrom w.clock)
    (hadmits : s.Admits cfg height tx outcome .taken) : WritesBack ⟨cfg, answers⟩ w tx outcome := by
  have hwrites : ∀ {v : World} {confirmations : ℕ}, tx.ReplacesSpeedup s →
      Taken ⟨cfg, answers⟩ w tx.txid outcome confirmations v → v.store = w.store → w.clock ≤ v.clock →
      WritesBack ⟨cfg, answers⟩ w tx outcome := by
    intro v confirmations hspeedup htaken hstore hclock
    rw [← hstore] at h
    obtain ⟨w', hrun, hlater⟩ : ∃ w', markReplaced tx tx.txid ⟨cfg, answers⟩ v = (.ok (), w') ∧
        v.clock ≤ w'.clock :=
      markReplaced_completes (h.replacesSpeedup.mpr hspeedup) fun n hn => (haccepts n (hclock.trans hn)).1
    exact ⟨confirmations, v, w', (), htaken, hrun, (haccepts _ (hclock.trans hlater)).1⟩
  cases outcome with
  | success => exact hwrites hadmits.2 Taken.success rfl le_rfl
  | fatal reason => cases hadmits
  | parentFailed parent => cases hadmits
  | dispatchError raw =>
    rcases hadmits with ⟨-, hspeedup⟩ | hretry | ⟨-, hmissing⟩
    · exact hwrites hspeedup (Taken.known raw 0 ((haccepts _ le_rfl).2 _)) rfl (Nat.le_succ _)
    · unfold CoordinatedTx.retryVerdict at hretry
      split at hretry <;> cases hretry
    · unfold CoordinatedTx.missingVerdict at hmissing
      split at hmissing <;> cases hmissing

/-- Every way in which outcomes can be settled is brought about by some answers. The induction is on the
verdicts; the answers to the first outcome are put before those to the others. -/
theorem exists_answers_of_canSettle {verdicts' : List (Txid × Verdict)} (hbatch : s.Batches batch)
    (h : s.Tracks height verdicts w.store)
    (hstored : ∀ result ∈ handled, ∀ tx ∈ batch, tx.txid = result.1 → StillStored tx w)
    (hnodup : (handled.map Prod.fst).Nodup)
    (hsettle : s.CanSettle cfg batch height verdicts handled verdicts') :
    ∃ answers w', Prog.forEach handled (handleSpeedupResult batch height) ⟨cfg, answers⟩ w = (.ok (), w') ∧
      s.Tracks height verdicts' w'.store ∧ answers.AcceptsFrom w'.clock := by
  induction hsettle generalizing w with
  | done verdicts => exact ⟨Answers.steady (some 0) true, w, rfl, h, fun _ _ => ⟨rfl, fun _ => rfl⟩⟩
  | @unknown verdicts verdicts' result rest hfind _ ih =>
    have hfirst : ∀ ctx, handleSpeedupResult batch height result ctx w = (.ok (), w) := by
      intro ctx
      unfold handleSpeedupResult
      rw [hfind]
      rfl
    have hlater := stillStored_rest hstored hnodup (hfirst ⟨cfg, Answers.steady none true⟩)
    obtain ⟨answers, w', hrun, hafter⟩ := ih h hlater (List.nodup_cons.mp hnodup).2
    exact ⟨answers, w', (Prog.bind_of_ok (hfirst _)).trans hrun, hafter⟩
  | @settled verdicts verdicts' result rest tx verdict hfind hadmits _ ih =>
    have hmem := List.mem_of_find?_eq_some hfind
    have htxid : tx.txid = result.1 := by simpa using List.find?_some hfind
    have hget : s.txs.get tx.txid = some tx := (mem_speedupsOrdered (hbatch tx hmem).1).2
    obtain ⟨record, hrecord, hdrift⟩ := hstored result List.mem_cons_self tx hmem htxid
    obtain ⟨first, w₁, houtcome, htracks⟩ :=
      exists_answers_of_admits h hget (hbatch tx hmem).2 ⟨record, hrecord, hdrift⟩ hadmits
    obtain ⟨w₂, hfirst, hstore⟩ : ∃ w₂, handleSpeedupResult batch height result ⟨cfg, first⟩ w = (.ok (), w₂) ∧
        w₂.store = w₁.store := by
      rw [(handleSpeedupResult_of_find hfind hdrift.core hrecord).1, Prog.bind_of_ok houtcome]
      exact ⟨_, rfl, rfl⟩
    rw [← hstore] at htracks
    obtain ⟨later, w', hrest, htracks', haccepts⟩ := ih htracks (stillStored_rest hstored hnodup hfirst)
      (List.nodup_cons.mp hnodup).2
    have hheard : MatchesOn 0 w₂.clock (handleSpeedupResult batch height result)
        (handleSpeedupResult batch height result) ⟨cfg, first⟩ ⟨cfg, first.before w₂.clock later⟩ :=
      handleSpeedupResult_matches batch result
    have hheardRest : MatchesOn w₂.clock ⊤ (Prog.forEach rest (handleSpeedupResult batch height))
        (Prog.forEach rest (handleSpeedupResult batch height)) ⟨cfg, later⟩
        ⟨cfg, first.before w₂.clock later⟩ :=
      Prog.Matches.forEach fun result _ => handleSpeedupResult_matches batch result
    obtain ⟨-, v₂, hfirst', halike⟩ :=
      (hheard w w fun _ => ⟨rfl, rfl, rfl, rfl, Nat.zero_le _⟩).run hfirst le_rfl
    obtain ⟨-, v', hrest', halike'⟩ := (hheardRest w₂ v₂ fun _ =>
      ⟨halike.store, halike.news, halike.lastRetryAt, halike.clock, le_rfl⟩).run hrest le_top
    refine ⟨first.before w₂.clock later, v', (Prog.bind_of_ok hfirst').trans hrest', ?_, ?_⟩
    · rw [← halike'.store]
      exact htracks'
    · intro m hm
      rw [← halike'.clock] at hm
      have hlater : ¬ m < w₂.clock := not_lt.mpr (halike'.started.trans hm)
      simpa [Answers.before, hlater] using haccepts m hm

/-- Successes are settled as taken. -/
theorem Store.CanSettle.taken {verdicts' : List (Txid × Verdict)}
    (h : s.CanSettle cfg batch height verdicts handled verdicts') (hsuccess : ∀ result ∈ handled, result.2 = .success) :
    ∀ settled ∈ verdicts', settled ∈ verdicts ∨ settled.2 = .taken ∧ ∃ tx ∈ batch, tx.txid = settled.1 := by
  induction h with
  | done verdicts => exact fun settled hmem => Or.inl hmem
  | unknown _ _ ih => exact ih fun result hmem => hsuccess result (List.mem_cons_of_mem _ hmem)
  | settled hfind hadmits _ ih =>
    intro settled hmem
    rw [hsuccess _ List.mem_cons_self] at hadmits
    rcases ih (fun result hmem => hsuccess result (List.mem_cons_of_mem _ hmem)) settled hmem with hold | hnew
    · rcases List.mem_cons.mp hold with rfl | hold
      · exact Or.inr ⟨hadmits.1, _, List.mem_of_find?_eq_some hfind, rfl⟩
      · exact Or.inl hold
    · exact Or.inr hnew

/-- Successes, whatever the last outcome is, touch nothing of a batch without an RBF. -/
theorem Store.Batches.takesUntouched_of_success {last : Txid × DispatchOutcome} (hbatch : s.Batches batch)
    (hplain : ∀ tx ∈ batch, tx.replaces? = none) (hsuccess : ∀ result ∈ results, result.2 = .success) :
    s.TakesUntouched cfg batch height (results ++ [last]) := by
  intro handled result rest hsplit tx _ _ verdicts hsettle
  have hearlier : ∀ result ∈ handled, result.2 = .success := by
    intro earlier hmem
    apply hsuccess
    rcases rest.eq_nil_or_concat with rfl | ⟨others, final, rfl⟩
    · rwa [(List.append_inj' hsplit rfl).1]
    · have hsplit' : results ++ [last] = (handled ++ result :: others) ++ [final] := by
        rw [hsplit, List.append_assoc, List.cons_append, List.concat_eq_append]
      rw [(List.append_inj' hsplit' rfl).1]
      exact List.mem_append_left _ hmem
  have htaken := hsettle.taken hearlier
  apply Store.untouched_of_not_failed
  · intro settled hmem
    rcases htaken settled hmem with hnone | ⟨htaken, -⟩
    · exact absurd hnone List.not_mem_nil
    · rw [htaken]
      exact Verdict.noConfusion
  · intro settled hmem
    rcases htaken settled hmem with hnone | ⟨-, root, hroot, htxid⟩
    · exact absurd hnone List.not_mem_nil
    · rintro ⟨record, hrecord, hrbf⟩
      rw [← htxid, (mem_speedupsOrdered (hbatch root hroot).1).2] at hrecord
      cases hrecord
      rw [hplain root hroot] at hrbf
      cases hrbf

/-- A Fatal outcome of a transaction that spends the change of one that is taken later touches this one. -/
theorem Store.not_takesUntouched_of_release {root : CoordinatedTx} {reason : String}
    {rest : List (Txid × DispatchOutcome)} (hroot : batch.find? (fun other => other.txid = root.txid) = some root)
    (htx : batch.find? (fun other => other.txid = tx.txid) = some tx) (hspeedup : tx.ReplacesSpeedup s)
    (hfrees : s.Frees root.txid (.change tx.txid)) (hspent : s.flag (.change tx.txid) = some true) :
    ¬ s.TakesUntouched cfg batch height ((root.txid, .fatal reason) :: (tx.txid, .success) :: rest) := by
  intro huntouched
  have hadmits : s.Admits cfg height tx .success .taken := ⟨rfl, hspeedup⟩
  have hsettle : s.CanSettle cfg batch height [] [(root.txid, .fatal reason)] [(root.txid, .failed)] :=
    .settled hroot rfl (.done _)
  have hkept := (huntouched _ _ rest rfl tx htx hadmits _ hsettle).spent
  exact hkept ⟨root.txid, Or.inl .refl, hfrees⟩ hspent

/-- Whatever is answered, handling the outcomes of a batch with its copies loses nothing, exactly when no
verdict on an earlier outcome can have touched the record of a transaction that is then found to be taken. -/
theorem nothingLost_iff_takesUntouched (hbatch : w.store.Batches batch)
    (hnodup : (results.map Prod.fst).Nodup) :
    (∀ answers, NothingLost ⟨cfg, answers⟩ w batch height results) ↔
      w.store.TakesUntouched cfg batch height results := by
  have hcopies : ∀ tx ∈ batch, w.store.txs.get tx.txid = some tx :=
    fun tx htx => (mem_speedupsOrdered (hbatch tx htx).1).2
  have hstored : ∀ tx ∈ batch, StillStored tx w := fun tx htx => stillStored_of_get (hcopies tx htx)
  have hhandled : ∀ {handled result rest}, results = handled ++ result :: rest → (handled.map Prod.fst).Nodup := by
    intro handled result rest hsplit
    rw [hsplit, List.map_append] at hnodup
    exact (List.nodup_append.mp hnodup).1
  have hunsettled : ∀ {handled result rest verdicts tx}, results = handled ++ result :: rest →
      batch.find? (fun tx => tx.txid = result.1) = some tx →
      w.store.CanSettle cfg batch height [] handled verdicts → tx.txid ∉ verdicts.map Prod.fst := by
    intro handled result rest verdicts tx hsplit hfind hsettle hmem
    have htxid : tx.txid = result.1 := by simpa using List.find?_some hfind
    rw [hsplit, List.map_append, List.map_cons] at hnodup
    rcases hsettle.mem hmem with hnone | hmem
    · exact List.not_mem_nil hnone
    · exact (List.nodup_append.mp hnodup).2.2 _ hmem _ List.mem_cons_self htxid
  simp only [nothingLost_iff_copiesAreFresh hcopies hnodup]
  constructor
  · intro hfresh handled result rest hsplit tx hfind hadmits verdicts hsettle
    have hget := hcopies tx (List.mem_of_find?_eq_some hfind)
    obtain ⟨answers, w', hrun, htracks, haccepts⟩ := exists_answers_of_canSettle hbatch w.store.tracks_nil
      (fun _ _ tx htx _ => hstored tx htx) (hhandled hsplit) hsettle
    obtain ⟨record, hrecord, hkinds⟩ := htracks.after hget
    apply (htracks.fresh_iff hget (hunsettled hsplit hfind hsettle) hrecord hkinds).mp
    exact hfresh answers handled result rest hsplit w' () hrun tx hfind (htracks.writesBack haccepts hadmits) record
      hrecord
  · intro huntouched answers handled result rest hsplit w' u hrun tx hfind hwrites record hrecord
    have hget := hcopies tx (List.mem_of_find?_eq_some hfind)
    obtain ⟨verdicts, hsettle, htracks⟩ := Store.Tracks.handleAll hbatch w.store.tracks_nil
      (fun _ _ tx htx _ => hstored tx htx) (hhandled hsplit) hrun
    obtain ⟨record', hrecord', hkinds⟩ := htracks.after hget
    cases hrecord.symm.trans hrecord'
    apply (htracks.fresh_iff hget (hunsettled hsplit hfind hsettle) hrecord hkinds).mpr
    exact huntouched handled result rest hsplit tx hfind (htracks.admits_taken hwrites) verdicts hsettle

/-- A builder whose dearer speedups are larger. -/
def growingBuilder : Builder := plainBuilder fun fee => if fee < 3500 then 200 else 240

/-- Settings under which the larger speedups are too heavy to be sent. -/
def lightSettings : BitcoinSettings := { dispatcher := ⟨900⟩, monitor := ⟨6⟩ }

/-- The CPFP of the example run. -/
def lightCpfp : Transaction := growingBuilder [sampleAnchor] [sampleFunding] 7 3350

/-- A CPFP is built and accepted, and a block later a boost of it is built that is too heavy. -/
def heavyBoostCalls : List Call :=
  let first := sampleView 100 [] [sampleParent]
  [first.call growingBuilder 10 0 (.addFunding sampleFunding),
    first.call growingBuilder 10 0 (.dispatchWithSpeedup sampleParent sampleAnchor "parent" none none),
    first.call growingBuilder 10 0 .tick,
    (sampleView 100 [sampleParent] [lightCpfp]).call growingBuilder 10 0 .tick,
    (sampleView 101 [sampleParent, lightCpfp] []).call growingBuilder 10 0 .tick]

/-- The node no longer knows the CPFP and would relay it again. -/
def droppedCall : Call := (sampleView 102 [sampleParent] [lightCpfp]).call growingBuilder 10 0 .tick

/-- The settings and answers of that tick. -/
def droppedCtx : Ctx := ⟨lightSettings, droppedCall.answers⟩

/-- The world in which its step 4 begins. -/
def droppedWorld : World :=
  ((do
    reviewActive
    reviewSpeedups
    dispatchPending : Coord Unit) droppedCtx (runCalls lightSettings heavyBoostCalls World.init)).2

/-- The batch of its step 4: the CPFP and its boost. -/
def droppedBatch : List CoordinatedTx :=
  droppedWorld.store.speedupsOrdered.filter fun tx => decide (tx.state = .toDispatch)

/-- The boost in that batch. -/
def heavyBoost : Transaction := growingBuilder [] [⟨lightCpfp.computeTxid, 0, 997650, 7⟩] 7 4260

/-- If the CPFP is accepted and the node rejects the boost, nothing can be lost; if the boost is too heavy, its
outcome comes first, and an update can be lost. -/
theorem nothingLost_droppedBatch :
    (droppedWorld.store.TakesUntouched lightSettings droppedBatch 102
        [(lightCpfp.computeTxid, .success), (heavyBoost.computeTxid, .dispatchError "rejected")] ∧
      ∀ answers, NothingLost ⟨lightSettings, answers⟩ droppedWorld droppedBatch 102
        [(lightCpfp.computeTxid, .success), (heavyBoost.computeTxid, .dispatchError "rejected")]) ∧
    ¬ droppedWorld.store.TakesUntouched lightSettings droppedBatch 102
        [(heavyBoost.computeTxid, .fatal "too heavy"), (lightCpfp.computeTxid, .success)] ∧
      ¬ ∀ answers, NothingLost ⟨lightSettings, answers⟩ droppedWorld droppedBatch 102
        [(heavyBoost.computeTxid, .fatal "too heavy"), (lightCpfp.computeTxid, .success)] := by
  have hbatch : droppedWorld.store.Batches droppedBatch := by
    intro tx htx
    obtain ⟨hlisted, hwaits⟩ := List.mem_filter.mp htx
    exact ⟨hlisted, of_decide_eq_true hwaits⟩
  have hdistinct : lightCpfp.computeTxid ≠ heavyBoost.computeTxid := by decide +kernel
  have hplain : ∀ tx ∈ droppedBatch, tx.replaces? = none := by decide +kernel
  have huntouched : droppedWorld.store.TakesUntouched lightSettings droppedBatch 102
      [(lightCpfp.computeTxid, .success), (heavyBoost.computeTxid, .dispatchError "rejected")] :=
    Store.Batches.takesUntouched_of_success hbatch hplain (List.forall_mem_singleton.mpr rfl)
  have htouched : ¬ droppedWorld.store.TakesUntouched lightSettings droppedBatch 102
      [(heavyBoost.computeTxid, .fatal "too heavy"), (lightCpfp.computeTxid, .success)] := by
    obtain ⟨cpfp, hcpfp⟩ : ∃ cpfp, droppedBatch.find? (fun tx => tx.txid = lightCpfp.computeTxid) = some cpfp :=
      Option.isSome_iff_exists.mp (by decide +kernel)
    obtain ⟨boost, hboost⟩ : ∃ boost, droppedBatch.find? (fun tx => tx.txid = heavyBoost.computeTxid) = some boost :=
      Option.isSome_iff_exists.mp (by decide +kernel)
    have hcpfpTxid : cpfp.txid = lightCpfp.computeTxid := by simpa using List.find?_some hcpfp
    have hboostTxid : boost.txid = heavyBoost.computeTxid := by simpa using List.find?_some hboost
    have hboostMem := List.mem_of_find?_eq_some hboost
    have hgives : ∀ tx ∈ droppedBatch, tx.txid = heavyBoost.computeTxid →
        ⟨lightCpfp.computeTxid, 0⟩ ∈ tx.givesBack := by decide +kernel
    have hchange : droppedWorld.store.flagOf ⟨lightCpfp.computeTxid, 0⟩ = .change lightCpfp.computeTxid := by
      decide +kernel
    rw [← hcpfpTxid, ← hboostTxid]
    rw [← hcpfpTxid] at hcpfp
    rw [← hboostTxid] at hboost
    apply Store.not_takesUntouched_of_release hboost hcpfp
    · intro replaced hrbf
      rw [hplain cpfp (List.mem_of_find?_eq_some hcpfp)] at hrbf
      cases hrbf
    · refine ⟨boost, (mem_speedupsOrdered (hbatch boost hboostMem).1).2, _, hgives boost hboostMem hboostTxid, ?_⟩
      rw [hcpfpTxid]
      exact hchange
    · rw [hcpfpTxid]
      decide +kernel
  refine ⟨⟨huntouched, (nothingLost_iff_takesUntouched hbatch ?_).mpr huntouched⟩, htouched, fun hlossless =>
    htouched ((nothingLost_iff_takesUntouched hbatch ?_).mp hlossless)⟩
  · simpa using hdistinct
  · simpa using hdistinct.symm

/-- The boost is refused and releases the change of the CPFP; the CPFP is accepted, and its copy sets the
flag again. -/
theorem exists_release_lost :
    ∃ (cfg : BitcoinSettings) (calls : List Call) (results : List (Txid × DispatchOutcome)),
      cfg.validate = .ok () ∧ cfg = droppedCtx.settings ∧
      (∀ call ∈ calls ++ [droppedCall], call.SeesOneView ∧ call.answers.SpendsRequested) ∧
      OkRun cfg calls World.init (runCalls cfg calls World.init) ∧
      droppedWorld = ((do
        reviewActive
        reviewSpeedups
        dispatchPending : Coord Unit) droppedCtx (runCalls cfg calls World.init)).2 ∧
      (dispatch droppedBatch droppedCtx droppedWorld).1 = .ok results ∧
      ¬ NothingLost droppedCtx (dispatch droppedBatch droppedCtx droppedWorld).2 droppedBatch 102
        results := by
  have hresults : (dispatch droppedBatch droppedCtx droppedWorld).1 =
      .ok ((dispatch droppedBatch droppedCtx droppedWorld).1.toOption.getD []) := by
    have hok : (dispatch droppedBatch droppedCtx droppedWorld).1.toBool = true := by decide +kernel
    revert hok
    cases (dispatch droppedBatch droppedCtx droppedWorld).1 with
    | ok results => exact fun _ => rfl
    | error e => exact fun hok => absurd hok (by simp [Except.toBool])
  refine ⟨lightSettings, heavyBoostCalls, _, ?_, rfl, ?_, okRun_runCalls (by decide +kernel), rfl,
    hresults, ?_⟩
  · decide +kernel
  · intro call hcall
    simp only [heavyBoostCalls, droppedCall, List.cons_append, List.nil_append, List.mem_cons,
      List.not_mem_nil, or_false] at hcall
    rcases hcall with rfl | rfl | rfl | rfl | rfl | rfl <;>
      exact ⟨NodeView.call_seesOneView (by decide +kernel) _ _ _ _,
        plainBuilder_spendsRequested _ _ _ _⟩
  · intro hlossless
    have hflags := congrArg (fun s : Store => s.flag (s.flagOf ⟨lightCpfp.computeTxid, 0⟩))
      (hlossless _ List.prefix_rfl)
    revert hflags
    decide +kernel

end BitcoinCoordinator
