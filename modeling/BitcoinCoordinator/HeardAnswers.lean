import BitcoinCoordinator.FundingChoice
import BitcoinCoordinator.Foundation.Relational

/-!
# The answers that the handling of outcomes hears

Handling the outcomes of a batch does not look at the history, and of the environment it hears only the
answers to the questions it asks, in their order. Two environments that give the same answers from one
question to another therefore lead to the same store. So the answers to one outcome can be chosen apart from
the answers to the others.
-/

namespace BitcoinCoordinator

open Foundation

variable {α : Type} {ctx ctx' : Ctx} {w w' : World} {height : BlockHeight} {start : ℕ} {limit : WithTop ℕ}

/-- Worlds that differ in their histories at most, after at least the given number of questions. -/
structure World.Alike (start : ℕ) (w w' : World) : Prop where
  store : w.store = w'.store
  news : w.news = w'.news
  lastRetryAt : w.lastRetryAt = w'.lastRetryAt
  clock : w.clock = w'.clock
  started : start ≤ w.clock

/-- At most the given number of questions were asked. -/
def World.Within (limit : WithTop ℕ) (w : World) : Prop := (w.clock : WithTop ℕ) ≤ limit

/-- The same answer to a question, whichever of those asked while outcomes are handled it is. -/
structure Answers.SameAt (answers answers' : Answers) (n : ℕ) : Prop where
  storage : answers.storage n = answers'.storage n
  monitor : answers.monitor n = answers'.monitor n
  txConfirmations : answers.txConfirmations n = answers'.txConfirmations n
  isUtxoUnspent : answers.isUtxoUnspent n = answers'.isUtxoUnspent n

/-- Under the same settings, the same answers from one question to another. -/
class Ctx.AgreeOn (start : ℕ) (limit : WithTop ℕ) (ctx ctx' : Ctx) : Prop where
  settings : ctx.settings = ctx'.settings
  answers : ∀ n, start ≤ n → ((n + 1 : ℕ) : WithTop ℕ) ≤ limit → ctx.answers.SameAt ctx'.answers n

/-- One environment agrees with itself. -/
instance Ctx.agreeOn_refl : ctx.AgreeOn start limit ctx where
  settings := rfl
  answers _ _ _ := ⟨rfl, rfl, rfl, rfl⟩

/-- Two programs match in two environments, between the two questions given. -/
abbrev MatchesOn (start : ℕ) (limit : WithTop ℕ) (m n : Coord α) (ctx ctx' : Ctx) : Prop :=
  Prog.Matches (World.Within limit) (World.Alike start) m n ctx ctx'

/-! ### Steps -/

/-- Fewer questions are within the same limit. -/
theorem World.Within.of_le (h : w'.Within limit) (hle : w.clock ≤ w'.clock) : w.Within limit :=
  le_trans (WithTop.coe_le_coe.mpr hle) h

/-- Worlds alike after one more question each. -/
theorem World.Alike.asked (h : w.Alike start w') : w.asked.Alike start w'.asked where
  store := h.store
  news := h.news
  lastRetryAt := h.lastRetryAt
  clock := congrArg (· + 1) h.clock
  started := Nat.le_succ_of_le h.started

variable [hagree : ctx.AgreeOn start limit ctx']

/-- A question asked within the limit is answered alike. -/
theorem World.Alike.heard (h : w.Alike start w') (hasked : w.asked.Within limit) :
    ctx.answers.SameAt ctx'.answers w'.clock := by
  rw [← h.clock]
  exact hagree.answers w.clock h.started hasked

omit hagree in
/-- Two questions that are answered alike when they are asked within the limit. -/
theorem matches_of_asked {m n : Coord α}
    (hclock : ∀ w, (m ctx w).2.clock = w.clock + 1)
    (h : ∀ w w', w.Alike start w' → w.asked.Within limit →
      (m ctx w).1 = (n ctx' w').1 ∧ (m ctx w).2.Alike start (n ctx' w').2) :
    MatchesOn start limit m n ctx ctx' := by
  intro w w' halike hguard
  have hasked : w.asked.Within limit := hguard.of_le (le_of_eq (hclock w).symm)
  have hstart : w.Within limit := hasked.of_le (Nat.le_succ _)
  exact ⟨hstart, h w w' (halike hstart) hasked⟩

/-- The same question. -/
theorem query_matches {wrap : String → BitcoinCoordinatorError} {question : Answers → ℕ → Except String α}
    (hsame : ∀ n, ctx.answers.SameAt ctx'.answers n → question ctx.answers n = question ctx'.answers n) :
    MatchesOn start limit (query wrap question) (query wrap question) ctx ctx' := by
  apply matches_of_asked
  · intro w
    unfold query
    split <;> rfl
  · intro w w' halike hasked
    unfold query
    rw [halike.clock, hsame _ (halike.heard hasked)]
    split <;> exact ⟨rfl, halike.asked⟩

omit hagree in
/-- Noted moments, whatever they are. -/
theorem note_matches (e e' : Store → Event) : MatchesOn start limit (note e) (note e') ctx ctx' :=
  Prog.Matches.modify (fun _ h => h) fun _ _ h => ⟨h.store, h.news, h.lastRetryAt, h.clock, h.started⟩

omit hagree in
/-- Reading the store. -/
theorem readStore_matches (f : Store → α) : MatchesOn start limit (readStore f) (readStore f) ctx ctx' :=
  Prog.Matches.read fun _ _ h => congrArg f h.store

/-- The same settings. -/
theorem settings_matches : MatchesOn start limit settings settings ctx ctx' := Prog.Matches.ask hagree.settings

/-- The same write. -/
theorem writeStore_matches (f : Store → Store) :
    MatchesOn start limit (writeStore f) (writeStore f) ctx ctx' := by
  apply matches_of_asked
  · intro w
    unfold writeStore
    split <;> rfl
  · intro w w' halike hasked
    have hsame : ctx.answers.SameAt ctx'.answers w'.clock := halike.heard hasked
    unfold writeStore
    rw [halike.clock, hsame.storage, halike.store]
    split
    · exact ⟨rfl, rfl, halike.news, halike.lastRetryAt, halike.asked.clock, halike.asked.started⟩
    · exact ⟨rfl, halike.asked⟩

/-- Publishing the same item. -/
theorem addNews_matches (news : CoordinatorNews) :
    MatchesOn start limit (addNews news) (addNews news) ctx ctx' := by
  have hwrite : ∀ f, MatchesOn start limit (writeNews f) (writeNews f) ctx ctx' := by
    intro f
    apply matches_of_asked
    · intro w
      unfold writeNews
      split <;> rfl
    · intro w w' halike hasked
      have hsame : ctx.answers.SameAt ctx'.answers w'.clock := halike.heard hasked
      unfold writeNews
      rw [halike.clock, hsame.storage, halike.news]
      split
      · exact ⟨rfl, halike.store, rfl, halike.lastRetryAt, halike.asked.clock, halike.asked.started⟩
      · exact ⟨rfl, halike.asked⟩
  refine Prog.Matches.bind (Prog.Matches.read fun _ _ h => h.news) fun all => ?_
  apply Prog.Matches.ite <;> intro _
  · exact Prog.Matches.pure _
  · exact Prog.Matches.bind (hwrite _) fun _ => Prog.Matches.pure _

/-- Publishing and going on. -/
theorem publish_matches (news : CoordinatorNews) :
    MatchesOn start limit (do let _ ← addNews news; pure () : Coord Unit)
      (do let _ ← addNews news; pure ()) ctx ctx' :=
  Prog.Matches.bind (addNews_matches news) fun _ => Prog.Matches.pure _

/-- Writing the same record, whatever is noted. -/
theorem putTx_matches (e e' : Store → Event) (tx : CoordinatedTx) :
    MatchesOn start limit (putTx e tx) (putTx e' tx) ctx ctx' := by
  refine Prog.Matches.bind (readStore_matches id) fun _ => ?_
  refine Prog.Matches.bind (writeStore_matches _) fun _ => ?_
  exact note_matches _ _

/-- The same lifecycle step. -/
theorem settleTx_matches (txid : Txid) (state : TransactionState) :
    MatchesOn start limit (settleTx txid state height) (settleTx txid state height) ctx ctx' := by
  apply Prog.Matches.ite <;> intro _
  · apply Prog.Matches.ite <;> intro _
    · exact Prog.Matches.stop _
    · refine Prog.Matches.bind (readStore_matches _) fun found => ?_
      cases found with
      | none => exact publish_matches _
      | some tx =>
        apply Prog.Matches.ite <;> intro _
        · exact writeStore_matches _
        · exact publish_matches _
  · exact Prog.Matches.stop _

/-- Setting the same flag. -/
theorem setSpent_matches (op : OutPoint) (spent : Bool) :
    MatchesOn start limit (setSpent op spent) (setSpent op spent) ctx ctx' := by
  refine Prog.Matches.bind ?_ fun _ => note_matches _ _
  refine Prog.Matches.bind (readStore_matches _) fun record => ?_
  cases record with
  | some record =>
    apply Prog.Matches.ite <;> intro _
    · exact Prog.Matches.pure _
    · exact writeStore_matches _
  | none =>
    refine Prog.Matches.bind (readStore_matches _) fun found => ?_
    cases found with
    | none => exact Prog.Matches.pure _
    | some tx =>
      have hset : MatchesOn start limit (setSpeedupSpent tx spent) (setSpeedupSpent tx spent) ctx ctx' := by
        unfold setSpeedupSpent
        cases tx.kind with
        | speedup kind =>
          apply Prog.Matches.ite <;> intro _
          · exact Prog.Matches.pure _
          · exact writeStore_matches _
        | normal => exact Prog.Matches.pure _
        | needsSpeedup data => exact Prog.Matches.pure _
      exact hset

/-- Releasing the same inputs. -/
theorem releaseMarks_matches (utxos : List Utxo) :
    MatchesOn start limit (releaseMarks utxos) (releaseMarks utxos) ctx ctx' :=
  Prog.Matches.forEach fun u _ => setSpent_matches u.outPoint false

/-- Unmasking the same predecessor. -/
theorem unmaskPredecessor_matches (replaces : Txid) :
    MatchesOn start limit (unmaskPredecessor replaces) (unmaskPredecessor replaces) ctx ctx' := by
  refine Prog.Matches.bind (readStore_matches _) fun found => ?_
  cases found with
  | none => exact Prog.Matches.pure _
  | some replaced =>
    dsimp only
    generalize replaced.modifyContext _ = result
    cases result with
    | ok updated => exact writeStore_matches _
    | error e => exact Prog.Matches.pure _

/-- Putting the same parents back on the pending list. -/
theorem prependPendingSpeedupParents_matches (txids : List Txid) :
    MatchesOn start limit (prependPendingSpeedupParents txids)
      (prependPendingSpeedupParents txids) ctx ctx' := by
  refine Prog.Matches.bind (readStore_matches _) fun list => ?_
  apply Prog.Matches.ite <;> intro _
  · exact Prog.Matches.pure _
  · exact writeStore_matches _

/-- Putting the same record back to dispatch. -/
theorem markAsRetry_matches (txid : Txid) :
    MatchesOn start limit (markAsRetry txid) (markAsRetry txid) ctx ctx' := by
  refine Prog.Matches.bind (readStore_matches _) fun found => ?_
  cases found with
  | none => exact publish_matches _
  | some tx =>
    apply Prog.Matches.ite <;> intro _
    · exact writeStore_matches _
    · exact publish_matches _

/-- Giving back the same reservations. -/
theorem releaseFailed_matches (tx : CoordinatedTx) :
    MatchesOn start limit (releaseFailed tx) (releaseFailed tx) ctx ctx' := by
  unfold releaseFailed
  cases tx.kind with
  | speedup kind =>
    cases kind with
    | cpfp parents context =>
      exact Prog.Matches.bind (Prog.Matches.ofExcept _) fun _ => releaseMarks_matches _
    | rbf replaces new context =>
      exact Prog.Matches.bind (releaseMarks_matches _) fun _ => unmaskPredecessor_matches _
  | normal => exact Prog.Matches.pure _
  | needsSpeedup data => exact Prog.Matches.pure _

/-- Settling the same transaction as failed, with what follows. -/
theorem settleFailedDispatch_matches (tx : CoordinatedTx) (fundingMissing : Bool) :
    MatchesOn start limit (settleFailedDispatch tx height fundingMissing)
      (settleFailedDispatch tx height fundingMissing) ctx ctx' := by
  have hrequeue : MatchesOn start limit (requeueProtocolParents tx) (requeueProtocolParents tx) ctx ctx' := by
    unfold requeueProtocolParents
    cases tx.kind with
    | speedup kind =>
      cases kind with
      | cpfp parents context =>
        exact Prog.Matches.bind (readStore_matches _) fun _ => prependPendingSpeedupParents_matches _
      | rbf replaces new context => exact Prog.Matches.pure _
    | normal => exact Prog.Matches.pure _
    | needsSpeedup data => exact Prog.Matches.pure _
  refine Prog.Matches.bind (settleTx_matches _ _) fun _ => ?_
  refine Prog.Matches.bind (addNews_matches _) fun _ => ?_
  refine Prog.Matches.bind (releaseFailed_matches tx) fun _ => ?_
  exact Prog.Matches.ite (fun _ => hrequeue) fun _ => Prog.Matches.pure _

/-- The cascade of the same transaction. -/
theorem failAndCascade_matches (tx : CoordinatedTx) (fundingMissing : Bool) :
    MatchesOn start limit (failAndCascade tx height fundingMissing)
      (failAndCascade tx height fundingMissing) ctx ctx' := by
  have hwithin : ∀ depth (tx : CoordinatedTx) fundingMissing, MatchesOn start limit
      (failAndCascadeWithin depth tx height fundingMissing)
        (failAndCascadeWithin depth tx height fundingMissing) ctx ctx' := by
    intro depth
    induction depth with
    | zero => exact fun _ _ => Prog.Matches.stop _
    | succ depth ih =>
      intro tx fundingMissing
      refine Prog.Matches.bind (settleFailedDispatch_matches tx _) fun _ => ?_
      refine Prog.Matches.bind (readStore_matches _) fun dependants => ?_
      exact Prog.Matches.forEach fun d _ => ih d true
  exact Prog.Matches.bind (readStore_matches _) fun _ => hwithin _ _ _

/-- Settling the same doomed transaction. -/
theorem settleFailedChild_matches (tx : CoordinatedTx) :
    MatchesOn start limit (settleFailedChild tx height) (settleFailedChild tx height) ctx ctx' := by
  have hrebuild : MatchesOn start limit (rebuildSurvivors tx height) (rebuildSurvivors tx height) ctx ctx' := by
    refine Prog.Matches.bind (readStore_matches _) fun survivors => ?_
    refine Prog.Matches.bind (failAndCascade_matches tx _) fun _ => ?_
    exact Prog.Matches.bind (readStore_matches _) fun _ => prependPendingSpeedupParents_matches _
  unfold settleFailedChild
  cases tx.speedup? with
  | some kind => exact Prog.Matches.ite (fun _ => failAndCascade_matches tx _) fun _ => hrebuild
  | none => exact failAndCascade_matches tx _

/-- Marking the same predecessor as replaced. -/
theorem markReplaced_matches (tx : CoordinatedTx) (txid : Txid) :
    MatchesOn start limit (markReplaced tx txid) (markReplaced tx txid) ctx ctx' := by
  unfold markReplaced
  cases tx.replaces? with
  | none => exact Prog.Matches.pure _
  | some replaces =>
    refine Prog.Matches.bind (readStore_matches _) fun found => ?_
    cases found with
    | none => exact Prog.Matches.pure _
    | some replaced =>
      exact Prog.Matches.bind (Prog.Matches.ofExcept _) fun _ => writeStore_matches _

/-- Probing the inputs of the same transaction. -/
theorem missingInputKind_matches (tx : CoordinatedTx) :
    MatchesOn start limit (missingInputKind tx) (missingInputKind tx) ctx ctx' := by
  have hany : ∀ ops, MatchesOn start limit (anyInputMissing ops) (anyInputMissing ops) ctx ctx' := by
    intro ops
    induction ops with
    | nil => exact Prog.Matches.pure _
    | cons op rest ih =>
      refine Prog.Matches.bind (query_matches fun _ h => by rw [h.isUtxoUnspent]) fun unspent => ?_
      exact Prog.Matches.ite (fun _ => ih) fun _ => Prog.Matches.pure _
  refine Prog.Matches.bind (hany _) fun fundingGone => ?_
  apply Prog.Matches.ite <;> intro _
  · exact Prog.Matches.pure _
  · refine Prog.Matches.bind (hany _) fun otherGone => ?_
    exact Prog.Matches.ite (fun _ => Prog.Matches.pure _) fun _ => Prog.Matches.pure _


/-- Asking the monitor to watch the same. -/
theorem monitorWatch_matches (data : TypesToMonitor) (inMempool : Bool) :
    MatchesOn start limit (monitorWatch data inMempool) (monitorWatch data inMempool) ctx ctx' :=
  Prog.Matches.bind (query_matches fun _ h => by rw [h.monitor]) fun _ => note_matches _ _

/-! ### Outcomes -/

variable {tx : CoordinatedTx} {txid : Txid} {feeInfo : FeeInfo}

/-- Settling the same transaction as in the mempool or on chain. -/
theorem settleAccepted_matches (updated : CoordinatedTx) :
    MatchesOn start limit
      (do
        markReplaced tx txid
        rewriteTx tx updated
        monitorWatch (.transactions [txid] tx.context tx.confirmationTrigger) true : Coord Unit)
      (do
        markReplaced tx txid
        rewriteTx tx updated
        monitorWatch (.transactions [txid] tx.context tx.confirmationTrigger) true) ctx ctx' := by
  refine Prog.Matches.bind (markReplaced_matches tx txid) fun _ => ?_
  refine Prog.Matches.bind (putTx_matches _ _ updated) fun _ => ?_
  exact monitorWatch_matches _ true

/-- Retrying or failing the same transaction, whose inputs are intact. -/
theorem retryOrFail_matches :
    MatchesOn start limit (retryOrFail tx txid height) (retryOrFail tx txid height) ctx ctx' := by
  refine Prog.Matches.bind settings_matches fun cfg => ?_
  refine Prog.Matches.bind (note_matches _ _) fun _ => ?_
  apply Prog.Matches.ite <;> intro _
  · exact Prog.Matches.bind (note_matches _ _) fun _ => failAndCascade_matches tx false
  · exact markAsRetry_matches txid

/-- Excusing or failing the same transaction, one of whose inputs is missing. -/
theorem settleMissingInput_matches (fundingMissing : Bool) :
    MatchesOn start limit (settleMissingInput tx txid height fundingMissing)
      (settleMissingInput tx txid height fundingMissing) ctx ctx' := by
  refine Prog.Matches.bind (readStore_matches _) fun before => ?_
  refine Prog.Matches.bind ?_ fun _ => note_matches _ _
  apply Prog.Matches.ite <;> intro _
  · exact Prog.Matches.bind (note_matches _ _) fun _ => markAsRetry_matches txid
  · refine Prog.Matches.bind (note_matches _ _) fun _ => ?_
    exact Prog.Matches.ite (fun _ => failAndCascade_matches tx true) fun _ => settleFailedChild_matches tx

/-- Settling the same outcome of the same transaction. -/
theorem handleOutcome_matches (outcome : DispatchOutcome) :
    MatchesOn start limit (handleOutcome tx txid outcome height feeInfo)
      (handleOutcome tx txid outcome height feeInfo) ctx ctx' := by
  cases outcome with
  | success => exact settleAccepted_matches _
  | fatal reason => exact failAndCascade_matches tx false
  | parentFailed parent => exact settleFailedChild_matches tx
  | dispatchError raw =>
    refine Prog.Matches.bind (query_matches fun _ h => by rw [h.txConfirmations]) fun confirmations => ?_
    rcases confirmations with _ | _ | depth
    · refine Prog.Matches.bind (missingInputKind_matches tx) fun missing => ?_
      cases missing with
      | none => exact retryOrFail_matches
      | some fundingMissing => exact settleMissingInput_matches fundingMissing
    · exact settleAccepted_matches _
    · exact settleAccepted_matches _

/-- Handling the same outcome with the same batch. -/
theorem handleSpeedupResult_matches (batch : List CoordinatedTx) (result : Txid × DispatchOutcome) :
    MatchesOn start limit (handleSpeedupResult batch height result) (handleSpeedupResult batch height result)
      ctx ctx' := by
  unfold handleSpeedupResult
  cases batch.find? fun tx => tx.txid = result.1 with
  | none => exact Prog.Matches.pure _
  | some tx =>
    refine Prog.Matches.bind (readStore_matches _) fun before => ?_
    refine Prog.Matches.bind (Prog.Matches.ofExcept _) fun _ => ?_
    exact Prog.Matches.bind (handleOutcome_matches _) fun _ => note_matches _ _

end BitcoinCoordinator
