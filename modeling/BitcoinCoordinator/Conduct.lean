import BitcoinCoordinator.Foundation.Conduct
import BitcoinCoordinator.Coordinator

/-!
# How a call conducts itself

Nearly every function of the coordinator does nothing but ask, publish, write and note, and stops only to
pass on an error of its environment. What such a function does to the world is inferred once, for every
relation that these four steps keep. The moments of a run that need a reason of their own, such as handing a
transaction to the node, are left to the few functions in which they occur.
-/

namespace BitcoinCoordinator

open Foundation

variable {α β : Type} {R : World → World → Prop} {E : Ctx → Stop → Prop}

/-! ### Reasons to stop -/

/-- The reasons that pass on an error the environment answered. -/
inductive PassedOn (ctx : Ctx) : Stop → Prop where
  | storage {n : ℕ} {e : String} (h : ctx.answers.storage n = .error e) :
      PassedOn ctx (.error (.storageBackendError e))
  | monitorTick {n : ℕ} {e : String} (h : ctx.answers.monitorTick n = .error e) :
      PassedOn ctx (.error (.monitorError e))
  | isReady {n : ℕ} {e : String} (h : ctx.answers.isReady n = .error e) :
      PassedOn ctx (.error (.monitorError e))
  | monitorHeight {n : ℕ} {e : String} (h : ctx.answers.monitorHeight n = .error e) :
      PassedOn ctx (.error (.monitorError e))
  | txStatus {n : ℕ} {txid : Txid} {inMempool : Bool} {e : String}
      (h : ctx.answers.txStatus n txid inMempool = .error e) : PassedOn ctx (.error (.monitorError e))
  | parentStatus {n : ℕ} {txid : Txid} {e : String} (h : ctx.answers.txStatus n txid true = .error e) :
      PassedOn ctx (.error (.internal e))
  | txConfirmations {n : ℕ} {txid : Txid} {e : String} (h : ctx.answers.txConfirmations n txid = .error e) :
      PassedOn ctx (.error (.monitorError e))
  | isUtxoUnspent {n : ℕ} {op : OutPoint} {e : String}
      (h : ctx.answers.isUtxoUnspent n op.txid op.vout true = .error e) : PassedOn ctx (.error (.monitorError e))
  | monitor {n : ℕ} {data : TypesToMonitor} {inMempool : Bool} {e : String}
      (h : ctx.answers.monitor n data inMempool = .error e) : PassedOn ctx (.error (.monitorError e))
  | cancel {n : ℕ} {data : TypesToMonitor} {e : String} (h : ctx.answers.cancel n data = .error e) :
      PassedOn ctx (.error (.monitorError e))
  | speedupTransactions {n : ℕ} {data : List SpeedupData} {inputs : List Utxo} {key : PublicKey} {fee : ℕ}
      {e : String} (h : ctx.answers.speedupTransactions n data inputs key fee = .error e) :
      PassedOn ctx (.error (.protocolBuilderError e))

/-- The errors of the environment and a loop that is not observed to its end are admitted. -/
class Permits (E : Ctx → Stop → Prop) : Prop where
  passedOn : ∀ ctx stop, PassedOn ctx stop → E ctx stop
  unfinished : ∀ ctx, E ctx .unfinished

/-- Every reason to stop is admitted. -/
class PermitsAll (E : Ctx → Stop → Prop) : Prop extends Permits E where
  all : ∀ ctx stop, E ctx stop

/-- No reason to stop is asked for. -/
def Anyhow : Ctx → Stop → Prop := fun _ _ => True

instance admitsAll_anyhow : PermitsAll Anyhow where
  passedOn _ _ _ := trivial
  unfinished _ := trivial
  all _ _ := trivial

/-- A call may stop for an error the environment answered, or in a loop that is not observed to its end. -/
def Excused (ctx : Ctx) (stop : Stop) : Prop := PassedOn ctx stop ∨ stop = .unfinished

instance permits_excused : Permits Excused where
  passedOn _ _ h := Or.inl h
  unfinished _ := Or.inr rfl

/-! ### Ordinary steps -/

/-- The moments that need a reason: a transaction is handed to the node, a settled record is dropped, and a
record is stored for the first time. A version of the store is noted by its write only. -/
def Event.IsDecisive : Event → Prop
  | .broadcast _ | .evicting _ | .inserted _ _ | .registering _ _ | .wrote _ _ => True
  | _ => False

/-- A preorder on worlds that questions, added news, writes and remarks keep. A record that is stored for the
first time is stored under the identifier of its transaction. -/
class Ordinary (R : World → World → Prop) : Prop extends IsPreorder World R where
  asked : ∀ w, R w w.asked
  published : ∀ w news, R w { w.asked with news := w.news ++ [⟨news, none⟩] }
  written : ∀ w s, R w (w.written s)
  noted : ∀ w e, ¬ e.IsDecisive → R w (w.noted e)
  inserted : ∀ w tx s, tx.txid = tx.tx.computeTxid → R w (w.noted (.inserted tx s))
  registering : ∀ w tx s, tx.txid = tx.tx.computeTxid → R w (w.noted (.registering tx s))

/-- A preorder that any other news keep too, acknowledged or cleaned up. -/
class Indifferent (R : World → World → Prop) : Prop extends Ordinary R where
  edited : ∀ w items, R w { w.asked with news := items }

instance indifferent_anything : Indifferent fun _ _ => True where
  refl _ := trivial
  trans _ _ _ _ _ := trivial
  asked _ := trivial
  published _ _ := trivial
  written _ _ := trivial
  noted _ _ _ := trivial
  inserted _ _ _ _ := trivial
  registering _ _ _ _ := trivial
  edited _ _ := trivial

/-! ### News -/

/-- A write of the news stops when the backend refuses it. -/
theorem writeNews_halts [Permits E] {f : List StoredNewsItem → List StoredNewsItem} (ctx : Ctx) (w : World) :
    Prog.Halts E (writeNews f) ctx w := by
  intro stop hstop
  unfold writeNews at hstop
  split at hstop
  · cases hstop
  · next e he =>
    cases hstop
    exact Permits.passedOn ctx _ (.storage he)

instance writeNews_conducts [Indifferent R] [Permits E] {f : List StoredNewsItem → List StoredNewsItem} :
    Prog.Conducts R E (writeNews f) where
  related ctx w := by
    unfold writeNews
    split
    · exact Indifferent.edited w _
    · exact Ordinary.asked w
  halts := writeNews_halts

instance ackNews_conducts [Indifferent R] [Permits E] {news : CoordinatorNews} {height : BlockHeight} :
    Prog.Conducts R E (ackNews news height) := writeNews_conducts

instance cleanupNews_conducts [Indifferent R] [Permits E] {height : BlockHeight} :
    Prog.Conducts R E (cleanupNews height) := writeNews_conducts

section Functions

variable [Ordinary R] [Permits E]

/-! ### Primitives -/

instance readStore_conducts {f : Store → α} : Prog.Conducts R E (readStore f) := Prog.Conducts.read

instance settings_conducts : Prog.Conducts R E settings := Prog.Conducts.ask

/-- A question whose errors are passed on. -/
theorem query_conducts {wrap : String → BitcoinCoordinatorError} {question : Answers → ℕ → Except String α}
    (h : ∀ (ctx : Ctx) n e, question ctx.answers n = .error e → PassedOn ctx (.error (wrap e))) :
    Prog.Conducts R E (query wrap question) where
  related ctx w := by
    unfold query
    split <;> exact Ordinary.asked w
  halts ctx w := by
    intro stop hstop
    unfold query at hstop
    split at hstop
    · cases hstop
    · next e he =>
      cases hstop
      exact Permits.passedOn ctx _ (h ctx _ _ he)

instance attempt_conducts {question : Answers → ℕ → Except String α} :
    Prog.Conducts R E (attempt question) where
  related _ w := Ordinary.asked w
  halts _ _ := Prog.Halts.of_ok rfl

instance ask_conducts {question : Answers → ℕ → α} : Prog.Conducts R E (ask question) where
  related _ w := Ordinary.asked w
  halts _ _ := Prog.Halts.of_ok rfl

instance writeStore_conducts {f : Store → Store} : Prog.Conducts R E (writeStore f) where
  related ctx w := by
    unfold writeStore
    split
    · exact Ordinary.written w _
    · exact Ordinary.asked w
  halts ctx w := by
    intro stop hstop
    unfold writeStore at hstop
    split at hstop
    · cases hstop
    · next e he =>
      cases hstop
      exact Permits.passedOn ctx _ (.storage he)

omit [Ordinary R] [Permits E] in
/-- A noted moment that the relation allows in every world. -/
theorem note_conducts_of {e : Store → Event} (h : ∀ w, R w (w.noted (e w.store))) :
    Prog.Conducts R E (note e) where
  related _ w := h w
  halts _ _ := Prog.Halts.of_ok rfl

omit [Permits E] in
/-- A remark is noted. -/
theorem note_conducts {e : Store → Event} (h : ∀ s, ¬ (e s).IsDecisive) : Prog.Conducts R E (note e) :=
  note_conducts_of fun w => Ordinary.noted w _ (h w.store)

/-! ### Storage -/

variable {tx copy updated : CoordinatedTx} {txid : Txid} {txids : List Txid} {height : BlockHeight}
  {op : OutPoint} {utxo : Utxo} {spent : Bool} {news : CoordinatorNews}

instance insertTx_conducts : Prog.Conducts R E (insertTx tx) := writeStore_conducts

instance updateTx_conducts : Prog.Conducts R E (updateTx tx) := writeStore_conducts

instance getTxById_conducts : Prog.Conducts R E (getTxById txid) := readStore_conducts

/-- A record put with a note that the relation allows. -/
theorem putTx_conducts {event : Store → Event} (h : ∀ before, Prog.Conducts R E (note fun _ => event before)) :
    Prog.Conducts R E (putTx event tx) :=
  Prog.Conducts.seq fun before => Prog.Conducts.seq fun _ => h before

instance removeSpeedupFromList_conducts : Prog.Conducts R E (removeSpeedupFromList txid) := by
  unfold removeSpeedupFromList
  infer_instance

instance removeTx_conducts : Prog.Conducts R E (removeTx txid) := by
  unfold removeTx
  infer_instance

instance addNews_conducts : Prog.Conducts R E (addNews news) where
  related ctx w := by
    unfold addNews
    apply Prog.related_bind (refl w)
    intro all w₁ hread
    obtain ⟨rfl, rfl⟩ := Prog.read_ok.mp hread
    split
    · exact refl w₁
    · rw [Prog.state_map]
      unfold writeNews
      split
      · exact Ordinary.published w₁ news
      · exact Ordinary.asked w₁
  halts ctx w := by
    unfold addNews
    refine Prog.Halts.seq (m := Prog.read World.news) (Prog.Halts.read _) fun all w₁ => ?_
    split
    · exact Prog.Halts.pure false
    · exact Prog.Halts.seq (writeNews_halts ctx w₁) fun _ _ => Prog.Halts.pure true

omit [Permits E] in
/-- A function that looks up a record and goes on with either answer. -/
theorem lookup_conducts {f : Option CoordinatedTx → Coord α} (hnone : Prog.Conducts R E (f none))
    (hsome : ∀ tx, Prog.Conducts R E (f (some tx))) : Prog.Conducts R E (getTxById txid >>= f) := by
  apply Prog.Conducts.seq
  intro found
  cases found with
  | none => exact hnone
  | some tx => exact hsome tx

/-- A state is settled with a height, or it is not terminal. -/
theorem updateTxStateImpl_conducts {state : TransactionState} {settled : Option BlockHeight}
    (h : ¬ (state.isTerminal = true ∧ settled = none)) :
    Prog.Conducts R E (updateTxStateImpl txid state settled) := by
  apply Prog.Conducts.branch
  · exact fun hbad => absurd hbad h
  · intro _
    apply lookup_conducts
    · infer_instance
    · intro tx
      infer_instance

/-- A state that is not terminal is updated. -/
theorem updateTxState_conducts {state : TransactionState} (h : state.isTerminal = false) :
    Prog.Conducts R E (updateTxState txid state) := by
  apply updateTxStateImpl_conducts
  simp [h]

/-- A terminal state is settled. -/
theorem settleTx_conducts {state : TransactionState} (h : state.isTerminal = true) :
    Prog.Conducts R E (settleTx txid state height) :=
  Prog.Conducts.branch (fun _ => updateTxStateImpl_conducts (by simp)) fun hnot => absurd h hnot

/-- Putting a record back to dispatch is what the write is. -/
theorem requeueWith_conducts {write : CoordinatedTx → Coord Unit}
    (hwrite : ∀ tx, Prog.Conducts R E (write tx)) : Prog.Conducts R E (requeueWith txid write) := by
  apply lookup_conducts
  · infer_instance
  · intro tx
    exact Prog.Conducts.branch (fun _ => hwrite _) fun _ => inferInstance

instance requeueNotFound_conducts : Prog.Conducts R E (requeueNotFound txid height) :=
  requeueWith_conducts fun _ => putTx_conducts fun _ => note_conducts fun _ => id

instance markAsRetry_conducts : Prog.Conducts R E (markAsRetry txid) :=
  requeueWith_conducts fun _ => updateTx_conducts

instance getSpeedupsOrdered_conducts : Prog.Conducts R E getSpeedupsOrdered := readStore_conducts

instance appendToSpeedupList_conducts : Prog.Conducts R E (appendToSpeedupList txid) := by
  unfold appendToSpeedupList
  infer_instance

instance addPendingSpeedupParent_conducts : Prog.Conducts R E (addPendingSpeedupParent txid) := by
  unfold addPendingSpeedupParent
  infer_instance

instance prependPendingSpeedupParents_conducts : Prog.Conducts R E (prependPendingSpeedupParents txids) := by
  unfold prependPendingSpeedupParents
  infer_instance

instance removePendingSpeedupParent_conducts : Prog.Conducts R E (removePendingSpeedupParent txid) := by
  unfold removePendingSpeedupParent
  infer_instance

instance collectPendingParents_conducts : Prog.Conducts R E (collectPendingParents txids) := by
  induction txids with
  | nil => exact Prog.Conducts.pure
  | cons txid rest ih =>
    apply lookup_conducts
    · infer_instance
    · intro tx
      cases hstate : tx.state <;> simp only [hstate] <;> infer_instance

instance getPendingSpeedupParents_conducts : Prog.Conducts R E getPendingSpeedupParents :=
  Prog.Conducts.seq fun _ => collectPendingParents_conducts

instance requeueProtocolParents_conducts : Prog.Conducts R E (requeueProtocolParents tx) := by
  unfold requeueProtocolParents
  split <;> infer_instance

/-- One round of the eviction, in worlds where the relation allows it. -/
theorem evictStaleTx_conducts {pending covered : List Txid} (h : ∀ w, R w (w.noted (.evicting tx))) :
    Prog.Conducts R E (evictStaleTx height pending covered tx) := by
  have hnote : Prog.Conducts R E (note fun _ => .evicting tx) := note_conducts_of h
  apply Prog.Conducts.seq
  intro cfg
  cases tx.settledBlockHeight <;> infer_instance

/-- The eviction, when the relation allows it in every world. -/
theorem evictStaleTxs_conducts (h : ∀ w tx, R w (w.noted (.evicting tx))) :
    Prog.Conducts R E (evictStaleTxs height) := by
  have hround : ∀ pending covered tx, Prog.Conducts R E (evictStaleTx height pending covered tx) :=
    fun _ _ tx => evictStaleTx_conducts fun w => h w tx
  unfold evictStaleTxs getSettledTxs
  infer_instance

instance getFundingRecord_conducts : Prog.Conducts R E (getFundingRecord op) := readStore_conducts

instance readFundingRecords_conducts : Prog.Conducts R E readFundingRecords := readStore_conducts

instance appendFunding_conducts : Prog.Conducts R E (appendFunding utxo) := by
  have hnote : Prog.Conducts R E (note (.addingFunding utxo)) := note_conducts fun _ => id
  unfold appendFunding
  infer_instance

instance setSpeedupSpent_conducts : Prog.Conducts R E (setSpeedupSpent tx spent) := by
  unfold setSpeedupSpent
  split <;> infer_instance

instance writeSpent_conducts : Prog.Conducts R E (writeSpent op spent) := by
  apply Prog.Conducts.seq
  intro record
  cases record with
  | some record => infer_instance
  | none =>
    apply lookup_conducts
    · infer_instance
    · intro tx
      infer_instance

instance setSpent_conducts : Prog.Conducts R E (setSpent op spent) :=
  Prog.Conducts.seq fun _ => note_conducts fun _ => id

/-! ### Funding -/

instance setFunding_conducts : Prog.Conducts R E (setFunding utxo) := by
  apply Prog.Conducts.seq
  intro cfg
  split <;> infer_instance

instance getCombineFunding_conducts : Prog.Conducts R E getCombineFunding := by
  apply Prog.Conducts.seq
  intro records
  split <;> infer_instance

instance releaseMarks_conducts {utxos : List Utxo} : Prog.Conducts R E (releaseMarks utxos) := by
  unfold releaseMarks
  infer_instance

/-- The funding inputs of a speedup are released. -/
theorem markParentsUnspent_conducts {kind : SpeedupKind} (hkind : tx.kind = .speedup kind) :
    Prog.Conducts R E (markParentsUnspent tx) := by
  have hok : tx.speedupKind = .ok kind := by
    unfold CoordinatedTx.speedupKind
    rw [hkind]
  have hread : Prog.Conducts R E
      (Prog.ofExcept ((Except.ok kind).mapError Stop.error) : Coord SpeedupKind) :=
    Prog.Conducts.ofExcept fun _ _ h => by cases h
  unfold markParentsUnspent
  rw [hok]
  exact Prog.Conducts.seq fun _ => releaseMarks_conducts

/-! ### Monitor -/

instance getMonitorHeight_conducts : Prog.Conducts R E getMonitorHeight :=
  query_conducts fun _ _ _ h => .monitorHeight h

instance getTxStatus_conducts {inMempool : Bool} : Prog.Conducts R E (getTxStatus txid inMempool) :=
  query_conducts fun _ _ _ h => .txStatus h

instance monitorWatch_conducts {data : TypesToMonitor} {inMempool : Bool} :
    Prog.Conducts R E (monitorWatch data inMempool) := by
  have hnote : Prog.Conducts R E (note fun _ => .monitored data inMempool) := note_conducts fun _ => id
  have hquery : Prog.Conducts R E
      (query .monitorError fun answers n => answers.monitor n data inMempool) :=
    query_conducts fun _ _ _ h => .monitor h
  exact Prog.Conducts.seq fun _ => hnote

instance monitorCancel_conducts {data : TypesToMonitor} : Prog.Conducts R E (monitorCancel data) := by
  have hnote : Prog.Conducts R E (note fun _ => .unmonitored data) := note_conducts fun _ => id
  have hquery : Prog.Conducts R E (query .monitorError fun answers n => answers.cancel n data) :=
    query_conducts fun _ _ _ h => .cancel h
  exact Prog.Conducts.seq fun _ => hnote

/-! ### Dispatch -/

instance parentsReady_conducts {ops : List OutPoint} : Prog.Conducts R E (parentsReady ops) := by
  induction ops with
  | nil => exact Prog.Conducts.pure
  | cons op rest ih =>
    have hquery : Prog.Conducts R E
        (query .internal fun answers n => answers.txStatus n op.txid true) :=
      query_conducts fun _ _ _ h => .parentStatus h
    unfold parentsReady
    infer_instance

omit [Permits E] in
/-- A transaction is handed over when the relation allows it in every world. -/
theorem sendTransaction_conducts {raw : Transaction} (h : ∀ w, R w (w.noted (.broadcast raw))) :
    Prog.Conducts R E (sendTransaction raw) := by
  have hnote : Prog.Conducts R E (note fun _ => .broadcast raw) := note_conducts_of h
  apply Prog.Conducts.seq
  intro _
  apply Prog.Conducts.seq
  intro answer
  cases answer <;> infer_instance

/-- A batch is handed over when the relation allows it in every world. -/
theorem dispatch_conducts {txs : List CoordinatedTx} (h : ∀ w raw, R w (w.noted (.broadcast raw))) :
    Prog.Conducts R E (dispatch txs) := by
  have hone : ∀ tx, Prog.Conducts R E (dispatchOne tx) := by
    intro tx
    have hsend : Prog.Conducts R E (sendTransaction tx.tx) := sendTransaction_conducts fun w => h w _
    apply Prog.Conducts.seq
    intro failedParent
    cases failedParent <;> infer_instance
  have hvalid : ∀ txs, Prog.Conducts R E (dispatchValid txs) := by
    intro txs
    induction txs with
    | nil => exact Prog.Conducts.pure
    | cons tx rest ih => exact Prog.Conducts.seq fun _ => Prog.Conducts.bind
  unfold dispatch
  infer_instance

instance isRetryReady_conducts : Prog.Conducts R E isRetryReady := by
  apply Prog.Conducts.seq
  intro cfg
  apply Prog.Conducts.seq
  intro lastRetryAt
  cases lastRetryAt <;> infer_instance

omit [Permits E] in
/-- The rate limit, when the relation allows a new retry interval in every world. -/
theorem applyRetryRateLimit_conducts {txs : List CoordinatedTx}
    (h : ∀ (w : World) now, R w { w with lastRetryAt := some now }) :
    Prog.Conducts R E (applyRetryRateLimit txs) := by
  have hmodify : ∀ now : ℕ, Prog.Conducts R E
      (Prog.modify fun w : World => { w with lastRetryAt := some now } : Coord Unit) :=
    fun now => ⟨fun _ w => h w now, fun _ _ => Prog.Halts.of_ok rfl⟩
  have hstamp : Prog.Conducts R E stampRetry := Prog.Conducts.seq hmodify
  unfold applyRetryRateLimit
  infer_instance

/-! ### Failure -/

instance publishFeeNews_conducts {news : Option CoordinatorNews} :
    Prog.Conducts R E (publishFeeNews news) := by
  unfold publishFeeNews
  split <;> infer_instance

instance getNetworkFeeRate_conducts : Prog.Conducts R E getNetworkFeeRate := by
  unfold getNetworkFeeRate
  infer_instance

instance markFinalized_conducts : Prog.Conducts R E (markFinalized txid height) := settleTx_conducts rfl

instance markConfirmed_conducts : Prog.Conducts R E (markConfirmed txid) := updateTxState_conducts rfl

instance markOrphan_conducts : Prog.Conducts R E (markOrphan txid) := updateTxState_conducts rfl

instance rewriteTx_conducts : Prog.Conducts R E (rewriteTx copy updated) :=
  putTx_conducts fun _ => note_conducts fun _ => id

instance markReorg_conducts : Prog.Conducts R E (markReorg tx height) := rewriteTx_conducts

instance unmaskPredecessor_conducts : Prog.Conducts R E (unmaskPredecessor txid) := by
  apply lookup_conducts
  · infer_instance
  · intro replaced
    dsimp only
    split <;> infer_instance

instance releaseFailed_conducts : Prog.Conducts R E (releaseFailed tx) := by
  unfold releaseFailed
  split
  · next hkind => exact markParentsUnspent_conducts hkind
  · infer_instance
  · infer_instance

instance settleFailedDispatch_conducts {fundingMissing : Bool} :
    Prog.Conducts R E (settleFailedDispatch tx height fundingMissing) := by
  have hsettle : Prog.Conducts R E (settleTx tx.txid .failed height) := settleTx_conducts rfl
  unfold settleFailedDispatch
  infer_instance

instance failAndCascadeWithin_conducts {depth : ℕ} {fundingMissing : Bool} :
    Prog.Conducts R E (failAndCascadeWithin depth tx height fundingMissing) := by
  induction depth generalizing tx fundingMissing with
  | zero => exact Prog.Conducts.stop fun ctx => Permits.unfinished ctx
  | succ depth ih =>
    unfold failAndCascadeWithin
    infer_instance

instance failAndCascade_conducts {fundingMissing : Bool} :
    Prog.Conducts R E (failAndCascade tx height fundingMissing) := by
  unfold failAndCascade
  infer_instance

instance rebuildSurvivors_conducts : Prog.Conducts R E (rebuildSurvivors tx height) := by
  unfold rebuildSurvivors
  infer_instance

instance settleFailedChild_conducts : Prog.Conducts R E (settleFailedChild tx height) := by
  unfold settleFailedChild
  split <;> infer_instance

instance anyInputMissing_conducts {ops : List OutPoint} : Prog.Conducts R E (anyInputMissing ops) := by
  induction ops with
  | nil => exact Prog.Conducts.pure
  | cons op rest ih =>
    have hquery : Prog.Conducts R E
        (query .monitorError fun answers n => answers.isUtxoUnspent n op.txid op.vout true) :=
      query_conducts fun _ _ _ h => .isUtxoUnspent h
    unfold anyInputMissing
    infer_instance

instance missingInputKind_conducts : Prog.Conducts R E (missingInputKind tx) := by
  unfold missingInputKind
  infer_instance

instance retryOrFail_conducts : Prog.Conducts R E (retryOrFail tx txid height) := by
  have htransient : Prog.Conducts R E (note fun _ => .transient txid) := note_conducts fun _ => id
  have hexhausted : Prog.Conducts R E (note fun _ => .exhausted txid) := note_conducts fun _ => id
  unfold retryOrFail
  infer_instance

instance excuseOrFail_conducts {fundingMissing : Bool} :
    Prog.Conducts R E (excuseOrFail tx txid height fundingMissing) := by
  have hdeferred : Prog.Conducts R E (note fun _ => .deferred txid height) := note_conducts fun _ => id
  have hcondemned : Prog.Conducts R E (note fun _ => .condemned txid height) := note_conducts fun _ => id
  unfold excuseOrFail
  infer_instance

instance settleMissingInput_conducts {fundingMissing : Bool} :
    Prog.Conducts R E (settleMissingInput tx txid height fundingMissing) :=
  Prog.Conducts.seq fun _ => Prog.Conducts.seq fun _ => note_conducts fun _ => id

/-! ### Dispatch outcomes -/

omit [Permits E] in
/-- A copy that replaces nothing marks nothing. -/
theorem markReplaced_conducts_of_none (h : tx.replaces? = none) :
    Prog.Conducts R E (markReplaced tx txid) := by
  unfold markReplaced
  rw [h]
  exact Prog.Conducts.pure

omit [Permits E] in
/-- Marking the replaced record, which stops when that is no speedup. -/
theorem markReplaced_conducts [PermitsAll E] : Prog.Conducts R E (markReplaced tx txid) := by
  unfold markReplaced
  split
  · infer_instance
  · apply lookup_conducts
    · infer_instance
    · intro replaced
      have hmodify : ∀ x : Except Stop CoordinatedTx, Prog.Conducts R E (Prog.ofExcept x : Coord _) :=
        fun x => Prog.Conducts.ofExcept fun ctx e _ => PermitsAll.all ctx e
      infer_instance

/-- Handling an outcome conducts itself as the marking of the replaced record does. -/
theorem handleOutcome_conducts {outcome : DispatchOutcome} {feeInfo : FeeInfo}
    (hreplaced : Prog.Conducts R E (markReplaced tx txid)) :
    Prog.Conducts R E (handleOutcome tx txid outcome height feeInfo) := by
  have haccepted : Prog.Conducts R E (markAccepted tx txid height feeInfo) := by
    unfold markAccepted
    infer_instance
  have hconfirmed : Prog.Conducts R E (markAlreadyConfirmed tx txid height) := by
    unfold markAlreadyConfirmed
    infer_instance
  unfold handleOutcome
  split
  · infer_instance
  · infer_instance
  · infer_instance
  · have hquery : Prog.Conducts R E
        (query .monitorError fun answers n => answers.txConfirmations n txid) :=
      query_conducts fun _ _ _ h => .txConfirmations h
    apply Prog.Conducts.seq
    intro confirmations
    split
    · infer_instance
    · infer_instance
    · apply Prog.Conducts.seq
      intro missing
      cases missing <;> infer_instance

/-- A copy is found under its own identifier. -/
theorem CoordinatedTx.verifyTxId_self (h : tx.txid = txid) : tx.verifyTxId txid = .ok () :=
  if_neg (not_not.mpr h)

/-- Handling an outcome, once the copy is known to be the one named. -/
theorem handleDispatchResult_conducts {outcome : DispatchOutcome} {feeInfo : FeeInfo}
    (hverify : ∀ ctx e, (tx.verifyTxId txid).mapError Stop.error = .error e → E ctx e)
    (hreplaced : Prog.Conducts R E (markReplaced tx txid)) :
    Prog.Conducts R E (handleDispatchResult tx txid outcome height feeInfo) := by
  have hverify : Prog.Conducts R E
      (Prog.ofExcept ((tx.verifyTxId txid).mapError Stop.error) : Coord Unit) :=
    Prog.Conducts.ofExcept hverify
  have hnote : ∀ before, Prog.Conducts R E (note (.handled txid outcome before)) :=
    fun before => note_conducts fun _ => id
  have houtcome : Prog.Conducts R E (handleOutcome tx txid outcome height feeInfo) :=
    handleOutcome_conducts hreplaced
  exact Prog.Conducts.seq fun before => Prog.Conducts.seq fun _ => Prog.Conducts.seq fun _ => hnote before

omit [Permits E] in
/-- Handling one outcome of a batch, which stops when the batch is not what it should be. -/
theorem handleBatchResult_conducts [PermitsAll E] {txs : List CoordinatedTx} {feeRate : ℕ}
    {result : Txid × DispatchOutcome} :
    Prog.Conducts R E (handleBatchResult txs feeRate height result) := by
  have hfind : Prog.Conducts R E
      (Prog.ofExcept ((findTxInBatch txs result.1).mapError Stop.error) : Coord CoordinatedTx) :=
    Prog.Conducts.ofExcept fun ctx e _ => PermitsAll.all ctx e
  exact Prog.Conducts.seq fun tx =>
    handleDispatchResult_conducts (fun ctx e _ => PermitsAll.all ctx e) markReplaced_conducts

omit [Permits E] in
/-- Handling one outcome of a batch of speedups, which stops when a record is not what it should be. -/
theorem handleSpeedupResult_conducts [PermitsAll E] {txs : List CoordinatedTx}
    {result : Txid × DispatchOutcome} : Prog.Conducts R E (handleSpeedupResult txs height result) := by
  unfold handleSpeedupResult
  split
  · exact handleDispatchResult_conducts (fun ctx e _ => PermitsAll.all ctx e) markReplaced_conducts
  · infer_instance

/-! ### Review -/

instance reportStuck_conducts : Prog.Conducts R E (reportStuck tx) := by
  unfold reportStuck
  infer_instance

instance reviewTransaction_conducts : Prog.Conducts R E (reviewTransaction height tx) := by
  have hnote : Prog.Conducts R E (note fun _ => .notFound tx.txid height) := note_conducts fun _ => id
  unfold reviewTransaction
  infer_instance

/-- Step 1 of a tick, when the relation allows the eviction in every world. -/
theorem reviewActive_conducts (h : ∀ w tx, R w (w.noted (.evicting tx))) :
    Prog.Conducts R E reviewActive := by
  have hevict : ∀ height, Prog.Conducts R E (evictStaleTxs height) := fun _ => evictStaleTxs_conducts h
  unfold reviewActive getActiveTxs
  infer_instance

instance removeReplacedFrom_conducts {context : String} {bound : ℕ} :
    Prog.Conducts R E (removeReplacedFrom context height bound txid) := by
  induction bound generalizing txid with
  | zero => exact Prog.Conducts.stop fun ctx => Permits.unfinished ctx
  | succ bound ih =>
    have hsettle : Prog.Conducts R E (settleTx txid .failed height) := settleTx_conducts rfl
    apply Prog.Conducts.seq
    intro found
    refine Prog.Conducts.seq fun _ => Prog.Conducts.seq fun _ => ?_
    split <;> infer_instance

instance removeReplacedRbf_conducts : Prog.Conducts R E (removeReplacedRbf tx height) := by
  unfold removeReplacedRbf
  split <;> infer_instance

omit [Permits E] in
/-- The swap of the funding queue, which stops when a record is not what it should be. -/
theorem replaceFundingOnFinalize_conducts [PermitsAll E] :
    Prog.Conducts R E (replaceFundingOnFinalize txid) := by
  have hpanic : ∀ {γ : Type}, Prog.Conducts R E (Prog.stop .panic : Coord γ) :=
    Prog.Conducts.stop fun ctx => PermitsAll.all ctx _
  have hdrop : ∀ positions list, Prog.Conducts R E (dropQueued positions list) := by
    intro positions
    induction positions with
    | nil => exact fun _ => Prog.Conducts.pure
    | cons idx rest ih =>
      intro list
      unfold dropQueued
      split
      · exact hpanic
      · infer_instance
  have hswap : ∀ txid change spent positions list,
      Prog.Conducts R E (swapQueued txid change spent positions list) := by
    intro txid change spent positions list
    unfold swapQueued
    split <;> infer_instance
  have hnote : Prog.Conducts R E (note (.finalizing txid)) := note_conducts fun _ => id
  have hkind : ∀ x : Except Stop SpeedupKind, Prog.Conducts R E (Prog.ofExcept x : Coord _) :=
    fun x => Prog.Conducts.ofExcept fun ctx e _ => PermitsAll.all ctx e
  apply Prog.Conducts.seq
  intro _
  apply lookup_conducts
  · infer_instance
  · intro tx
    dsimp only
    split
    · exact hpanic
    · infer_instance
    · exact Prog.Conducts.seq fun kind => Prog.Conducts.seq fun list => hswap _ _ _ _ _

/-- Reviewing one speedup conducts itself as the swap of the funding queue does. -/
theorem reviewSpeedup_conducts {all : List CoordinatedTx}
    (hswap : Prog.Conducts R E (replaceFundingOnFinalize tx.txid)) :
    Prog.Conducts R E (reviewSpeedup all height tx) := by
  have hnote : Prog.Conducts R E (note fun _ => .notFound tx.txid height) := note_conducts fun _ => id
  have hfinalize : Prog.Conducts R E (finalizeSpeedup tx height) := by
    have hreplace : Prog.Conducts R E (replaceOnFinalize tx.txid) := hswap
    unfold finalizeSpeedup
    infer_instance
  unfold reviewSpeedup
  infer_instance

omit [Permits E] in
/-- Step 2 of a tick. -/
theorem reviewSpeedups_conducts [PermitsAll E] : Prog.Conducts R E reviewSpeedups := by
  have hreview : ∀ all height tx, Prog.Conducts R E (reviewSpeedup all height tx) :=
    fun _ _ _ => reviewSpeedup_conducts replaceFundingOnFinalize_conducts
  unfold reviewSpeedups
  infer_instance

/-! ### Building -/

instance emitInsufficientFunds_conducts {available required : ℕ} :
    Prog.Conducts R E (emitInsufficientFunds available required) := by
  unfold emitInsufficientFunds
  infer_instance

instance emitFundingNotAvailable_conducts : Prog.Conducts R E emitFundingNotAvailable := by
  unfold emitFundingNotAvailable
  infer_instance

/-- A speedup with a first input is signed. -/
theorem speedupTransactions_conducts {data : List SpeedupData} {inputs : List Utxo} {fee : ℕ}
    (h : inputs ≠ []) : Prog.Conducts R E (speedupTransactions data inputs fee) := by
  obtain ⟨first, rest, rfl⟩ := List.exists_cons_of_ne_nil h
  change Prog.Conducts R E (query .protocolBuilderError fun answers n =>
    answers.speedupTransactions n data (first :: rest) first.pubKey fee)
  exact query_conducts fun _ _ _ h => .speedupTransactions h

instance combineInput_conducts {plan : BuildPlan} {inputs : List Utxo} :
    Prog.Conducts R E (combineInput plan inputs) := by
  unfold combineInput
  infer_instance

instance abandonBuild_conducts {plan : BuildPlan} {inputs : List Utxo} {available required : ℕ} :
    Prog.Conducts R E (abandonBuild plan inputs available required) := by
  unfold abandonBuild
  infer_instance

/-- The fee loop, started with an input. -/
theorem buildRound_conducts {plan : BuildPlan} {rounds : ℕ} {inputs : List Utxo} {childVsize : ℕ}
    (h : inputs ≠ []) : Prog.Conducts R E (buildRound plan rounds inputs childVsize) := by
  induction rounds generalizing inputs childVsize with
  | zero => exact Prog.Conducts.stop fun ctx => Permits.unfinished ctx
  | succ rounds ih =>
    have hsigned : ∀ pricing vsize, Prog.Conducts R E (note fun _ => .signed pricing vsize) :=
      fun _ _ => note_conducts fun _ => id
    have hbuild : ∀ data fee, Prog.Conducts R E (speedupTransactions data inputs fee) :=
      fun _ _ => speedupTransactions_conducts h
    have hresize : ∀ vsize, Prog.Conducts R E (buildRound plan rounds inputs vsize) := fun _ => ih h
    have hextra : ∀ extra, Prog.Conducts R E (buildRound plan rounds (inputs ++ [extra]) 0) :=
      fun _ => ih (by simp)
    refine Prog.Conducts.seq fun cfg => Prog.Conducts.seq fun maxDustLimit =>
      Prog.Conducts.seq fun dummy => ?_
    apply Prog.Conducts.branch <;> intro _
    · apply Prog.Conducts.seq
      intro extra
      cases extra <;> infer_instance
    · infer_instance

/-- A build, started with an input. -/
theorem buildWith_conducts {plan : BuildPlan} {inputs : List Utxo} (h : inputs ≠ []) :
    Prog.Conducts R E (buildWith plan inputs) :=
  Prog.Conducts.seq fun _ => buildRound_conducts h

omit [Permits E] in
/-- A build, which stops when a record is not what it should be. -/
theorem buildSpeedup_conducts [PermitsAll E] {entries : List (SpeedupData × ℕ)}
    {initial : Option (List Utxo)} {bumpFee : ℚ} {feeRate chainDiffFee : ℕ} :
    Prog.Conducts R E (buildSpeedup entries initial bumpFee feeRate chainDiffFee) := by
  have hexcept : ∀ {γ : Type} (x : Except Stop γ), Prog.Conducts R E (Prog.ofExcept x : Coord γ) :=
    fun x => Prog.Conducts.ofExcept fun ctx e _ => PermitsAll.all ctx e
  have hwith : ∀ plan inputs, Prog.Conducts R E (buildWith plan inputs) := by
    intro plan inputs
    by_cases hinputs : inputs = []
    · subst hinputs
      apply Prog.Conducts.seq
      intro rounds
      cases rounds with
      | zero => exact Prog.Conducts.stop fun ctx => PermitsAll.all ctx _
      | succ rounds =>
        refine Prog.Conducts.seq fun cfg => Prog.Conducts.seq fun maxDustLimit => ?_
        have hpanic : ∀ data, Prog.Conducts R E (speedupTransactions data [] 1) :=
          fun _ => Prog.Conducts.stop fun ctx => PermitsAll.all ctx _
        apply Prog.Conducts.seq_of_result
        intro ctx w dummy w' hrun
        cases hrun
    · exact buildWith_conducts hinputs
  have hfunding : ∀ speedups, Prog.Conducts R E (getFunding speedups) := by
    intro speedups
    apply Prog.Conducts.seq
    intro tip
    cases tip with
    | some tx => infer_instance
    | none =>
      apply Prog.Conducts.seq
      intro records
      split <;> infer_instance
  unfold buildSpeedup
  cases initial with
  | some inputs => infer_instance
  | none =>
    refine Prog.Conducts.seq fun speedups => Prog.Conducts.seq fun funding => ?_
    rcases funding with _ | ⟨utxo, isSpeedup⟩ <;> infer_instance

instance saveSpeedup_conducts {raw : Transaction} {feeInfo : FeeInfo} {kind : SpeedupKind} :
    Prog.Conducts R E (saveSpeedup raw feeInfo kind height) := by
  have hinserted : ∀ before, Prog.Conducts R E
      (note fun _ => .inserted (speedupRecord raw feeInfo kind height) before) :=
    fun before => note_conducts_of fun w => Ordinary.inserted w _ before rfl
  have hput : Prog.Conducts R E
      (putTx (.inserted (speedupRecord raw feeInfo kind height)) (speedupRecord raw feeInfo kind height)) :=
    putTx_conducts hinserted
  have hrecorded : ∀ txid, Prog.Conducts R E (note fun _ => .recorded txid) :=
    fun txid => note_conducts fun _ => id
  unfold saveSpeedup insertSpeedup
  infer_instance

instance reportIfCapped_conducts {capped : Bool} {rate : ℕ} {context : String} :
    Prog.Conducts R E (reportIfCapped capped txid rate context) := by
  unfold reportIfCapped
  infer_instance

instance markPredecessorAtCap_conducts {maxFeerate : ℕ} :
    Prog.Conducts R E (markPredecessorAtCap txid maxFeerate) := by
  apply lookup_conducts
  · infer_instance
  · intro predecessor
    infer_instance

instance saveBoost_conducts {plan : BoostPlan} {nextBump : ℚ} {built : SpeedupBuildResult} :
    Prog.Conducts R E (saveBoost plan nextBump built height) := by
  unfold saveBoost
  infer_instance

instance saveCpfpBatch_conducts {batch : List CoordinatedTx} {bumpFee : ℚ} {built : SpeedupBuildResult} :
    Prog.Conducts R E (saveCpfpBatch batch bumpFee built) := by
  have htake : ∀ parent : CoordinatedTx, Prog.Conducts R E (takePendingParent parent) :=
    fun _ => Prog.Conducts.seq fun _ => note_conducts fun _ => id
  unfold saveCpfpBatch
  infer_instance

/-- A boost conducts itself as its build does. -/
theorem runBoost_conducts {plan : BoostPlan} {all : List CoordinatedTx}
    (hbuild : ∀ bumpFee feeRate chainDiffFee, Prog.Conducts R E
      (buildSpeedup plan.parentEntries plan.rbfInitialInputs bumpFee feeRate chainDiffFee)) :
    Prog.Conducts R E (runBoost plan all height) := by
  refine Prog.Conducts.seq fun cfg => ?_
  apply Prog.Conducts.seq
  rintro ⟨feeRate, feeNews⟩
  refine Prog.Conducts.seq fun _ => ?_
  apply Prog.Conducts.seq
  intro built
  cases built <;> infer_instance

omit [Permits E] in
/-- Step 5 of a tick. -/
theorem boostIfStale_conducts [PermitsAll E] {skip : Bool} : Prog.Conducts R E (boostIfStale skip) := by
  apply Prog.Conducts.branch
  · exact fun _ => Prog.Conducts.pure
  · intro _
    refine Prog.Conducts.seq fun cfg => Prog.Conducts.seq fun height => Prog.Conducts.seq fun speedups => ?_
    split
    · infer_instance
    · next plan _ =>
      have hnote : Prog.Conducts R E (note (.planned plan.last.txid)) := note_conducts fun _ => id
      exact Prog.Conducts.seq fun _ => runBoost_conducts fun _ _ _ => buildSpeedup_conducts

/-- Building one CPFP conducts itself as the build does. -/
theorem runCpfpBatch_conducts {parents unconfirmed : List CoordinatedTx}
    (hbuild : ∀ entries bumpFee feeRate chainDiffFee, Prog.Conducts R E
      (buildSpeedup entries none bumpFee feeRate chainDiffFee)) :
    Prog.Conducts R E (runCpfpBatch parents unconfirmed) := by
  refine Prog.Conducts.seq fun cfg => ?_
  apply Prog.Conducts.seq
  rintro ⟨feeRate, feeNews⟩
  refine Prog.Conducts.seq fun _ => ?_
  split
  · infer_instance
  · apply Prog.Conducts.branch
    · exact fun _ => Prog.Conducts.pure
    · intro _
      apply Prog.Conducts.seq
      intro built
      cases built <;> infer_instance

omit [Permits E] in
/-- Step 6 of a tick. -/
theorem createCpfpBatch_conducts [PermitsAll E] : Prog.Conducts R E createCpfpBatch := by
  have hrun : ∀ parents unconfirmed, Prog.Conducts R E (runCpfpBatch parents unconfirmed) :=
    fun _ _ => runCpfpBatch_conducts fun _ _ _ _ => buildSpeedup_conducts
  unfold createCpfpBatch
  infer_instance

/-! ### Client requests -/

instance registerTx_conducts {raw : Transaction} {kind : TxKind} {context : String}
    {target : Option BlockHeight} {trigger stuck : Option ℕ} :
    Prog.Conducts R E (registerTx raw kind context target trigger stuck) := by
  have hstore : ∀ height feeRate, Prog.Conducts R E
      (storeRegistered (registeredTx raw kind context height trigger stuck feeRate)) := by
    intro height feeRate
    have hnote : Prog.Conducts R E
        (note (.registering (registeredTx raw kind context height trigger stuck feeRate))) :=
      note_conducts_of fun w => Ordinary.registering w _ _ rfl
    unfold storeRegistered
    infer_instance
  apply lookup_conducts
  · apply Prog.Conducts.seq
    intro height
    apply Prog.Conducts.seq
    rintro ⟨feeRate, feeNews⟩
    exact Prog.Conducts.seq fun _ => hstore _ _
  · intro tracked
    infer_instance

instance eligibleToCancel_conducts : Prog.Conducts R E (eligibleToCancel txids) := by
  induction txids with
  | nil => exact Prog.Conducts.pure
  | cons txid rest ih =>
    apply Prog.Conducts.seq
    intro refusal
    cases refusal <;> infer_instance

instance cancel_conducts {data : TypesToMonitor} : Prog.Conducts R E (cancel data) := by
  have hdrop : ∀ eligible context trigger,
      Prog.Conducts R E (dropCancelled eligible context trigger) := by
    intro eligible context trigger
    have hnote : Prog.Conducts R E (note (.cancelling eligible)) := note_conducts fun _ => id
    unfold dropCancelled
    infer_instance
  unfold cancel
  split
  · apply Prog.Conducts.seq
    intro eligible
    cases eligible <;> infer_instance
  · infer_instance

end Functions

/-- A request of the client other than a tick. -/
theorem request_conducts [Indifferent R] [Permits E] {request : Request} (hrequest : request ≠ .tick) :
    Prog.Conducts R E (exec request) := by
  cases request with
  | tick => exact absurd rfl hrequest
  | dispatchWithoutSpeedup raw context target trigger stuck => exact registerTx_conducts
  | dispatchWithSpeedup raw data context target trigger => exact registerTx_conducts
  | cancel data => exact cancel_conducts
  | addFunding utxo => exact Prog.Conducts.seq fun _ => publishFeeNews_conducts
  | ackNews news => exact Prog.Conducts.seq fun _ => ackNews_conducts
  | monitor data => exact monitorWatch_conducts

end BitcoinCoordinator
