import BitcoinCoordinator.Dispatcher
import BitcoinCoordinator.Fee
import BitcoinCoordinator.Funding

/-!
# What both engines share

The functions of `engines/common.rs`: the lifecycle writes, the retry window, the handling of a
dispatch outcome, and the failure cascade.
-/

namespace BitcoinCoordinator

open Foundation

/-! ### Monitor -/

/-- Ask the monitor to watch something. -/
def monitorWatch (data : TypesToMonitor) (inMempool : Bool) : Coord Unit := do
  query .monitorError fun answers n => answers.monitor n data inMempool
  note fun _ => .monitored data inMempool

/-- Ask the monitor to stop watching something. -/
def monitorCancel (data : TypesToMonitor) : Coord Unit := do
  query .monitorError fun answers n => answers.cancel n data
  note fun _ => .unmonitored data

/-- The height the monitor has reached. -/
def getMonitorHeight : Coord BlockHeight :=
  query .monitorError fun answers n => answers.monitorHeight n

/-- The chain status of a transaction. -/
def getTxStatus (txid : Txid) (inMempool : Bool) : Coord TransactionStatus :=
  query .monitorError fun answers n => answers.txStatus n txid inMempool

/-! ### Lifecycle writes -/

/-- Write a record back from a copy the caller holds. -/
def rewriteTx (tx updated : CoordinatedTx) : Coord Unit := putTx (.rewrote tx) updated

/-- A confirmed transaction reappeared in the mempool. -/
def markReorg (tx : CoordinatedTx) (currentHeight : BlockHeight) : Coord Unit :=
  rewriteTx tx { tx with state := .inMempool, broadcastBlockHeight := some currentHeight }

/-- Settle a transaction that reached the finality depth. -/
def markFinalized (txid : Txid) (currentHeight : BlockHeight) : Coord Unit :=
  settleTx txid .finalized currentHeight

/-- Record a confirmation. -/
def markConfirmed (txid : Txid) : Coord Unit := updateTxState txid .confirmed

/-- Keep an orphaned transaction in the mempool state. -/
def markOrphan (txid : Txid) : Coord Unit := updateTxState txid .inMempool

/-- True when the retry interval has elapsed since the last batch of retries. -/
def isRetryReady : Coord Bool := do
  let cfg ← settings
  let lastRetryAt ← Prog.read World.lastRetryAt
  match lastRetryAt with
  | none => pure true
  | some last => do
    let now ← ask Answers.nowSecs
    pure (decide (cfg.coordinator.retryIntervalSeconds ≤ now - last))

/-- Start a new retry interval. -/
def stampRetry : Coord Unit := do
  let now ← ask Answers.nowSecs
  Prog.modify fun w => { w with lastRetryAt := some now }

/-- Drop the retries while the retry interval has not elapsed. -/
def applyRetryRateLimit (txs : List CoordinatedTx) : Coord (List CoordinatedTx) := do
  let retryReady ← isRetryReady
  if (txs.any fun tx => decide (0 < tx.retryCount)) && retryReady then do
    stampRetry
    pure txs
  else
    pure (txs.filter fun tx => decide (tx.retryCount = 0) || retryReady)

/-! ### Failure -/

/-- The news published when a dispatched transaction settles as failed. -/
def dispatchErrorNews (tx : CoordinatedTx) (txid : Txid) : CoordinatorNews :=
  if tx.speedup?.isSome then .speedupDispatchError txid tx.context
  else .dispatchError txid tx.context

/-- Clear the replacement mark of the predecessor of a failed RBF, when it is still a speedup. -/
def unmaskPredecessor (replaces : Txid) : Coord Unit := do
  let found ← getTxById replaces
  match found with
  | none => pure ()
  | some replaced =>
    match replaced.modifyContext fun c => { c with replacedBy := none } with
    | .ok updated => updateTx updated
    | .error _ => pure ()

/-- Give back what a failed speedup reserved: every funding input of a CPFP, and the inputs newly
claimed by an RBF, whose predecessor is no longer being replaced. -/
def releaseFailed (tx : CoordinatedTx) : Coord Unit :=
  match tx.kind with
  | .speedup (.cpfp _ _) => markParentsUnspent tx
  | .speedup (.rbf replaces newFundingInputs _) => do
    releaseMarks newFundingInputs
    unmaskPredecessor replaces
  | _ => pure ()

/-- Settle a transaction as failed, publish it, give back what it reserved and, when its funding is
missing, put its parents back on the pending list. -/
def settleFailedDispatch (tx : CoordinatedTx) (currentHeight : BlockHeight)
    (fundingMissing : Bool) : Coord Unit := do
  settleTx tx.txid .failed currentHeight
  let _ ← addNews (dispatchErrorNews tx tx.txid)
  releaseFailed tx
  if fundingMissing then requeueProtocolParents tx else pure ()

/-- True when a speedup's first funding input comes from the transaction, or the transaction is one
of its parents. -/
def CoordinatedTx.dependsOn (tx : CoordinatedTx) (txid : Txid) : Bool :=
  match tx.speedup? with
  | none => false
  | some kind =>
    (kind.context.fundingInputs.head?.any fun fi => decide (fi.txid = txid)) ||
      decide (txid ∈ kind.parents)

/-- The listed speedups waiting for dispatch that depend on a transaction. -/
def Store.dependants (s : Store) (txid : Txid) : List CoordinatedTx :=
  s.speedupsOrdered.filter fun tx => decide (tx.state = .toDispatch) && tx.dependsOn txid

/-- The cascade, with a bound on its depth. -/
def failAndCascadeWithin : ℕ → CoordinatedTx → BlockHeight → Bool → Coord Unit
  | 0, _, _, _ => Prog.stop .unfinished
  | depth + 1, tx, currentHeight, fundingMissing => do
    settleFailedDispatch tx currentHeight fundingMissing
    let dependants ← readStore fun s => s.dependants tx.txid
    Prog.forEach dependants fun d => failAndCascadeWithin depth d currentHeight true

/-- Settle a transaction as failed and, recursively, every speedup waiting for dispatch that depends
on it. Each level settles one more listed speedup, so the list bounds the depth. -/
def failAndCascade (tx : CoordinatedTx) (currentHeight : BlockHeight) (fundingMissing : Bool) :
    Coord Unit := do
  let listed ← readStore fun s => s.speedupList.length
  failAndCascadeWithin (listed + 1) tx currentHeight fundingMissing

/-- The outputs a first CPFP spends besides its funding whose transaction has not failed. -/
def Store.survivors (s : Store) (tx : CoordinatedTx) : List Txid :=
  (tx.nonFundingInputs.map OutPoint.txid).filter fun id => !s.isTxFailed id

/-- The parents among the survivors, each once, in order. -/
def Store.toRequeue (s : Store) (survivors : List Txid) : List Txid :=
  survivors.foldl (fun acc id => if id ∉ acc ∧ s.isNeedsSpeedup id then acc ++ [id] else acc) []

/-- Settle a first CPFP as failed and put the parents that have not failed back on the pending
list. -/
def rebuildSurvivors (tx : CoordinatedTx) (currentHeight : BlockHeight) : Coord Unit := do
  let survivors ← readStore fun s => s.survivors tx
  failAndCascade tx currentHeight false
  let toRequeue ← readStore fun s => s.toRequeue survivors
  prependPendingSpeedupParents toRequeue

/-- Settle a transaction whose input can never be valid: a first CPFP rebuilds its survivors. -/
def settleFailedChild (tx : CoordinatedTx) (currentHeight : BlockHeight) : Coord Unit :=
  match tx.speedup? with
  | some kind =>
    if kind.isBoost then failAndCascade tx currentHeight false
    else rebuildSurvivors tx currentHeight
  | none => failAndCascade tx currentHeight false

/-! ### Dispatch outcomes -/

/-- Mark the predecessor of a dispatched RBF as replaced by it. -/
def markReplaced (tx : CoordinatedTx) (txid : Txid) : Coord Unit :=
  match tx.replaces? with
  | none => pure ()
  | some replaces => do
    let found ← getTxById replaces
    match found with
    | none => pure ()
    | some replaced => do
      let updated ← Prog.ofExcept <|
        (replaced.modifyContext fun c => { c with replacedBy := some txid }).mapError Stop.error
      updateTx updated

/-- Settle a transaction the node accepted or already had in its mempool. -/
def markAccepted (tx : CoordinatedTx) (txid : Txid) (currentHeight : BlockHeight)
    (feeInfo : FeeInfo) : Coord Unit := do
  markReplaced tx txid
  rewriteTx tx { tx with
    state := .inMempool
    broadcastBlockHeight := some currentHeight
    feeInfo := feeInfo
    failGuardUntil := none }
  monitorWatch (.transactions [txid] tx.context tx.confirmationTrigger) true

/-- Settle a transaction the node reports on chain, keeping the original broadcast height. -/
def markAlreadyConfirmed (tx : CoordinatedTx) (txid : Txid) (currentHeight : BlockHeight) :
    Coord Unit := do
  markReplaced tx txid
  rewriteTx tx { tx with
    broadcastBlockHeight := some (tx.broadcastBlockHeight.getD currentHeight)
    state := .confirmed
    failGuardUntil := none }
  monitorWatch (.transactions [txid] tx.context tx.confirmationTrigger) true

/-- True when the node reports one of the outpoints missing or spent. -/
def anyInputMissing : List OutPoint → Coord Bool
  | [] => pure false
  | op :: rest => do
    let unspent ← query .monitorError fun answers n => answers.isUtxoUnspent n op.txid op.vout true
    if unspent then anyInputMissing rest else pure true

/-- Which kind of input is missing: `true` for a funding input, `false` for another one. Funding
inputs are probed first. -/
def missingInputKind (tx : CoordinatedTx) : Coord (Option Bool) := do
  let fundingGone ← anyInputMissing tx.fundingOutpoints
  if fundingGone then
    pure (some true)
  else do
    let otherGone ← anyInputMissing tx.nonFundingInputs
    if otherGone then pure (some false) else pure none

/-- True while the reorg guard of a record still runs. -/
def CoordinatedTx.isGuarded (tx : CoordinatedTx) (currentHeight : BlockHeight) : Bool :=
  match tx.failGuardUntil with
  | some deadline => decide (currentHeight < deadline)
  | none => false

/-- Inputs are intact and the cause is unknown: retry until the budget is spent. -/
def retryOrFail (tx : CoordinatedTx) (txid : Txid) (currentHeight : BlockHeight) :
    Coord Unit := do
  let cfg ← settings
  note fun _ => .transient txid
  if cfg.coordinator.retryAttemptsSendingTx ≤ tx.retryCount + 1 then do
    note fun _ => .exhausted txid
    failAndCascade tx currentHeight false
  else
    markAsRetry txid

/-- Another attempt while the guard runs, else failure. -/
def excuseOrFail (tx : CoordinatedTx) (txid : Txid) (currentHeight : BlockHeight)
    (fundingMissing : Bool) : Coord Unit :=
  if tx.isGuarded currentHeight then do
    note fun _ => .deferred txid currentHeight
    markAsRetry txid
  else do
    note fun _ => .condemned txid currentHeight
    if fundingMissing then failAndCascade tx currentHeight true
    else settleFailedChild tx currentHeight

/-- A missing input is definitive, except while the guard runs. -/
def settleMissingInput (tx : CoordinatedTx) (txid : Txid) (currentHeight : BlockHeight)
    (fundingMissing : Bool) : Coord Unit := do
  let before ← readStore id
  excuseOrFail tx txid currentHeight fundingMissing
  note fun after => .judged txid currentHeight before after

/-- Classify a rejected broadcast by asking the node about the transaction, then its inputs. -/
def classifyDispatchError (tx : CoordinatedTx) (txid : Txid) (currentHeight : BlockHeight)
    (feeInfo : FeeInfo) : Coord Unit := do
  let confirmations ← query .monitorError fun answers n => answers.txConfirmations n txid
  match confirmations with
  | some 0 => markAccepted tx txid currentHeight feeInfo
  | some (_ + 1) => markAlreadyConfirmed tx txid currentHeight
  | none => do
    let missing ← missingInputKind tx
    match missing with
    | some fundingMissing => settleMissingInput tx txid currentHeight fundingMissing
    | none => retryOrFail tx txid currentHeight

/-- The branch of `handle_dispatch_result` for each outcome. -/
def handleOutcome (tx : CoordinatedTx) (txid : Txid) (outcome : DispatchOutcome)
    (currentHeight : BlockHeight) (feeInfo : FeeInfo) : Coord Unit :=
  match outcome with
  | .success => markAccepted tx txid currentHeight feeInfo
  | .fatal _ => failAndCascade tx currentHeight false
  | .parentFailed _ => settleFailedChild tx currentHeight
  | .dispatchError _ => classifyDispatchError tx txid currentHeight feeInfo

/-- Handle one dispatch outcome. -/
def handleDispatchResult (tx : CoordinatedTx) (txid : Txid) (outcome : DispatchOutcome)
    (currentHeight : BlockHeight) (feeInfo : FeeInfo) : Coord Unit := do
  let before ← readStore id
  Prog.ofExcept ((tx.verifyTxId txid).mapError Stop.error)
  handleOutcome tx txid outcome currentHeight feeInfo
  note fun after => .handled txid outcome before after

end BitcoinCoordinator
