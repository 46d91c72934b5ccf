import BitcoinCoordinator.EngineContext

/-!
# The transaction engine

Steps 1 and 3 of a tick, from `engines/transaction_engine.rs`: the review and the dispatch of the
transactions that are not speedups.
-/

namespace BitcoinCoordinator

open Foundation

/-- The transactions step 1 reviews: broadcast or confirmed, and not speedups. -/
def CoordinatedTx.isReviewable (tx : CoordinatedTx) : Bool :=
  tx.speedup?.isNone && (decide (tx.state = .inMempool) || decide (tx.state = .confirmed))

/-- Publish that a transaction waited too long in the mempool. -/
def reportStuck (tx : CoordinatedTx) : Coord Unit := do
  let _ ← addNews (.transactionStuckInMempool tx.txid tx.context)
  pure ()

/-- Update one transaction from its chain status. -/
def reviewTransaction (currentHeight : BlockHeight) (tx : CoordinatedTx) : Coord Unit := do
  let cfg ← settings
  let maxConfs := cfg.monitor.maxMonitoringConfirmations
  let status ← getTxStatus tx.txid tx.broadcastBlockHeight.isSome
  if status.isInMempool then
    if tx.state = .confirmed then markReorg tx currentHeight
    else if tx.isStuckInMempool currentHeight then reportStuck tx
    else pure ()
  else if status.isNotFound then do
    note fun _ => .notFound tx.txid currentHeight
    requeueNotFound tx.txid (currentHeight + maxConfs)
  else if status.isFinalized maxConfs then
    markFinalized tx.txid currentHeight
  else if status.isConfirmed then
    markConfirmed tx.txid
  else if status.isOrphan then
    markOrphan tx.txid
  else
    pure ()

/-- Step 1 of a tick: evict old records, then review the transactions in flight. -/
def reviewActive : Coord Unit := do
  let currentHeight ← getMonitorHeight
  evictStaleTxs currentHeight
  let active ← getActiveTxs
  Prog.forEach (active.filter CoordinatedTx.isReviewable) (reviewTransaction currentHeight)

/-- Handle one outcome of a batch of transactions. -/
def handleBatchResult (txs : List CoordinatedTx) (feeRate : ℕ) (currentHeight : BlockHeight)
    (result : Txid × DispatchOutcome) : Coord Unit := do
  let tx ← Prog.ofExcept ((findTxInBatch txs result.1).mapError Stop.error)
  handleDispatchResult tx result.1 result.2 currentHeight (computeFeeForTx tx.tx feeRate)

/-- Publish a fee news item, if there is one. -/
def publishFeeNews (news : Option CoordinatorNews) : Coord Unit :=
  match news with
  | some news => do
    let _ ← addNews news
    pure ()
  | none => pure ()

/-- Broadcast a batch of transactions and handle the outcomes in order. -/
def dispatchBatch (txs : List CoordinatedTx) (currentHeight : BlockHeight) : Coord Unit := do
  let (feeRate, feeNews) ← getNetworkFeeRate
  publishFeeNews feeNews
  let txs ← applyRetryRateLimit txs
  let results ← dispatch txs
  Prog.forEach results (handleBatchResult txs feeRate currentHeight)

/-- The transactions step 3 dispatches. -/
def CoordinatedTx.isDispatchable (currentHeight : BlockHeight) (tx : CoordinatedTx) : Bool :=
  tx.speedup?.isNone && decide (tx.state = .toDispatch) && tx.isReadyToDispatch currentHeight

/-- Step 3 of a tick: broadcast the transactions that are due. -/
def dispatchPending : Coord Unit := do
  let currentHeight ← getMonitorHeight
  let active ← getActiveTxs
  match active.filter (CoordinatedTx.isDispatchable currentHeight) with
  | [] => pure ()
  | tx :: rest => dispatchBatch (tx :: rest) currentHeight

end BitcoinCoordinator
