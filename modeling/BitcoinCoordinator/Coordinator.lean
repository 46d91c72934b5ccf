import BitcoinCoordinator.SpeedupEngine

/-!
# The public calls

The functions of `coordinator.rs`, the requests a client can make, and the worlds a run of requests
reaches.
-/

namespace BitcoinCoordinator

open Foundation

/-- The six steps of a tick. -/
def pipeline : Coord Unit := do
  reviewActive
  reviewSpeedups
  dispatchPending
  let boostFailed ← dispatchPendingSpeedups
  boostIfStale boostFailed
  createCpfpBatch

/-- Advance the monitor and, once it is synced, run the six steps. -/
def tick : Coord Unit := do
  query .monitorError fun answers n => answers.monitorTick n
  let ready ← query .monitorError fun answers n => answers.isReady n
  if ready then do
    let currentHeight ← getMonitorHeight
    cleanupNews currentHeight
    pipeline
  else
    pure ()

/-- The record a client transaction is first stored as. -/
def registeredTx (tx : Transaction) (kind : TxKind) (context : String)
    (targetBlockHeight : BlockHeight) (confirmationTrigger stuckInMempoolBlocks : Option ℕ)
    (feeRate : ℕ) : CoordinatedTx where
  txid := tx.computeTxid
  tx := tx
  kind := kind
  state := .toDispatch
  targetBlockHeight := targetBlockHeight
  confirmationTrigger := confirmationTrigger
  stuckInMempoolBlocks := stuckInMempoolBlocks
  settledBlockHeight := none
  broadcastBlockHeight := none
  failGuardUntil := none
  retryCount := 0
  feeInfo := computeFeeForTx tx feeRate
  context := context

/-- Store a client transaction and, when it needs a speedup, put it on the pending list. -/
def storeRegistered (record : CoordinatedTx) : Coord Unit := do
  note (.registering record)
  insertTx record
  if record.isNeedsSpeedup then addPendingSpeedupParent record.txid else pure ()

/-- Persist a client transaction and register it with the monitor, unless it is tracked. -/
def registerTx (tx : Transaction) (kind : TxKind) (context : String)
    (targetBlockHeight : Option BlockHeight) (confirmationTrigger stuckInMempoolBlocks : Option ℕ) :
    Coord Unit := do
  let found ← getTxById tx.computeTxid
  match found with
  | some _ => pure ()
  | none => do
    let currentHeight ← getMonitorHeight
    let (feeRate, _) ← getNetworkFeeRate
    monitorWatch (.transactions [tx.computeTxid] context confirmationTrigger) false
    storeRegistered <| registeredTx tx kind context (targetBlockHeight.getD currentHeight)
      confirmationTrigger stuckInMempoolBlocks feeRate

/-- Register a transaction for dispatch without speedup support. -/
def dispatchWithoutSpeedup (tx : Transaction) (context : String)
    (targetBlockHeight : Option BlockHeight) (confirmationTrigger stuckInMempoolBlocks : Option ℕ) :
    Coord Unit :=
  registerTx tx .normal context targetBlockHeight confirmationTrigger stuckInMempoolBlocks

/-- Register a transaction for dispatch with speedup support. -/
def dispatchWithSpeedup (tx : Transaction) (speedupData : SpeedupData) (context : String)
    (targetBlockHeight : Option BlockHeight) (confirmationTrigger : Option ℕ) : Coord Unit :=
  registerTx tx (.needsSpeedup speedupData) context targetBlockHeight confirmationTrigger none

/-- Why a cancel request is refused for a transaction, if it is. -/
def Store.classifyCancelRequest (s : Store) (txid : Txid) : Option CancelRefusal :=
  match s.txs.get txid with
  | none => some .notFound
  | some tx =>
    if tx.speedup?.isSome then some (.notCancellable tx.kind)
    else if tx.state ≠ .toDispatch then some (.alreadyDispatched tx.state)
    else none

/-- The transactions of a cancel request that may be cancelled; the others are published. -/
def eligibleToCancel : List Txid → Coord (List Txid)
  | [] => pure []
  | txid :: rest => do
    let refusal ← readStore fun s => s.classifyCancelRequest txid
    match refusal with
    | none => do
      let eligible ← eligibleToCancel rest
      pure (txid :: eligible)
    | some reason => do
      let _ ← addNews (.invalidCancel txid reason)
      eligibleToCancel rest

/-- Drop the eligible transactions from the pending list, the monitor and the store. -/
def dropCancelled (eligible : List Txid) (context : String) (confirmationTrigger : Option ℕ) :
    Coord Unit := do
  note (.cancelling eligible)
  Prog.forEach eligible removePendingSpeedupParent
  monitorCancel (.transactions eligible context confirmationTrigger)
  Prog.forEach eligible removeTx

/-- Cancel the eligible transactions of a request. -/
def cancelTransactions (txids : List Txid) (context : String) (confirmationTrigger : Option ℕ) :
    Coord Unit := do
  let eligible ← eligibleToCancel txids
  match eligible with
  | [] => pure ()
  | txid :: rest => dropCancelled (txid :: rest) context confirmationTrigger

/-- Cancel monitoring, and drop the targeted transactions that were not dispatched. -/
def cancel (data : TypesToMonitor) : Coord Unit :=
  match data with
  | .transactions txids context confirmationTrigger =>
    cancelTransactions txids context confirmationTrigger
  | .other description => monitorCancel (.other description)

/-- Register a funding UTXO, or publish why it is refused. -/
def addFunding (utxo : Utxo) : Coord Unit := do
  let refused ← setFunding utxo
  publishFeeNews refused

/-- Acknowledge a coordinator news item. -/
def ackCoordinatorNews (news : CoordinatorNews) : Coord Unit := do
  let currentHeight ← getMonitorHeight
  ackNews news currentHeight

/-- Watch something without dispatching anything. -/
def monitor (data : TypesToMonitor) : Coord Unit := monitorWatch data false

/-- What a client can ask of a coordinator. -/
inductive Request where
  | tick
  | dispatchWithoutSpeedup (tx : Transaction) (context : String)
      (targetBlockHeight : Option BlockHeight) (confirmationTrigger stuckInMempoolBlocks : Option ℕ)
  | dispatchWithSpeedup (tx : Transaction) (speedupData : SpeedupData) (context : String)
      (targetBlockHeight : Option BlockHeight) (confirmationTrigger : Option ℕ)
  | cancel (data : TypesToMonitor)
  | addFunding (utxo : Utxo)
  | ackNews (news : CoordinatorNews)
  | monitor (data : TypesToMonitor)

/-- Carry out one request. `dispatch` is one of the two registrations, and reads change nothing. -/
def exec : Request → Coord Unit
  | .tick => tick
  | .dispatchWithoutSpeedup tx context target trigger stuck =>
    dispatchWithoutSpeedup tx context target trigger stuck
  | .dispatchWithSpeedup tx data context target trigger =>
    dispatchWithSpeedup tx data context target trigger
  | .cancel data => cancel data
  | .addFunding utxo => addFunding utxo
  | .ackNews news => ackCoordinatorNews news
  | .monitor data => monitor data

/-- A request together with the answers it is given. -/
structure Call where
  request : Request
  answers : Answers

/-- The world after a sequence of calls, each of which completed or stopped. -/
def runCalls (cfg : BitcoinSettings) : List Call → World → World
  | [], w => w
  | call :: rest, w => runCalls cfg rest (exec call.request ⟨cfg, call.answers⟩ w).2

/-- A sequence of calls that all returned `Ok`. -/
inductive OkRun (cfg : BitcoinSettings) : List Call → World → World → Prop where
  | nil (w : World) : OkRun cfg [] w w
  | cons {call : Call} {rest : List Call} {w w₁ w₂ : World}
      (hcall : exec call.request ⟨cfg, call.answers⟩ w = (.ok (), w₁))
      (hrest : OkRun cfg rest w₁ w₂) : OkRun cfg (call :: rest) w w₂

end BitcoinCoordinator
