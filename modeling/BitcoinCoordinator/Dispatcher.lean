import BitcoinCoordinator.Storage

/-!
# The dispatcher

The functions of `dispatcher.rs`: grouping parents by weight, the checks made before a broadcast,
and the broadcast itself.
-/

namespace BitcoinCoordinator

open Foundation

/-- The grouping loop, with the batches closed so far and the open batch with its weight. -/
def batchLoop (maxTxWeight maxBatches : ℕ) :
    List CoordinatedTx → List (List CoordinatedTx) → List CoordinatedTx → ℕ →
      List (List CoordinatedTx) × List CoordinatedTx
  | [], batches, current, _ => (batches, current)
  | parent :: rest, batches, current, currentWeight =>
    if maxBatches ≤ batches.length then
      (batches, current)
    else if current ≠ [] ∧ maxTxWeight < currentWeight + parent.tx.weight then
      batchLoop maxTxWeight maxBatches rest (batches ++ [current]) [parent] parent.tx.weight
    else
      batchLoop maxTxWeight maxBatches rest batches (current ++ [parent])
        (currentWeight + parent.tx.weight)

/-- Group parents into at most `maxBatches` batches whose weight stays within the limit. -/
def DispatcherSettings.batchByWeight (cfg : DispatcherSettings) (parents : List CoordinatedTx)
    (maxBatches : ℕ) : List (List CoordinatedTx) :=
  let (batches, current) := batchLoop cfg.maxTxWeight maxBatches parents [] [] 0
  if current ≠ [] ∧ batches.length < maxBatches then batches ++ [current] else batches

/-- The grouping loop keeps the order of what it was given. -/
theorem batchLoop_sublist {maxTxWeight maxBatches : ℕ} {parents : List CoordinatedTx}
    {batches : List (List CoordinatedTx)} {current given : List CoordinatedTx} {weight : ℕ}
    (h : (batches.flatten ++ (current ++ parents)).Sublist given) :
    ((batchLoop maxTxWeight maxBatches parents batches current weight).1.flatten ++
      (batchLoop maxTxWeight maxBatches parents batches current weight).2).Sublist given := by
  induction parents generalizing batches current weight with
  | nil =>
    rw [List.append_nil] at h
    exact h
  | cons parent rest ih =>
    unfold batchLoop
    split
    · refine List.Sublist.trans ?_ h
      exact List.Sublist.append_left (List.sublist_append_left current (parent :: rest)) _
    · split
      · apply ih
        simpa using h
      · apply ih
        simpa using h

/-- A batch holds parents that were grouped, in their order. -/
theorem batchByWeight_sublist {cfg : DispatcherSettings} {parents batch : List CoordinatedTx}
    {maxBatches : ℕ} (h : batch ∈ cfg.batchByWeight parents maxBatches) :
    batch.Sublist parents := by
  have hloop : ((batchLoop cfg.maxTxWeight maxBatches parents [] [] 0).1.flatten ++
      (batchLoop cfg.maxTxWeight maxBatches parents [] [] 0).2).Sublist parents :=
    batchLoop_sublist (by simp)
  have hclosed : ∀ closed ∈ (batchLoop cfg.maxTxWeight maxBatches parents [] [] 0).1,
      closed.Sublist parents := by
    intro closed hclosed
    exact (List.sublist_flatten_of_mem hclosed).trans ((List.sublist_append_left _ _).trans hloop)
  unfold DispatcherSettings.batchByWeight at h
  simp only at h
  split at h
  · rcases List.mem_append.mp h with hold | hnew
    · exact hclosed batch hold
    · rw [List.mem_singleton.mp hnew]
      exact (List.sublist_append_right _ _).trans hloop
  · exact hclosed batch h

/-- Why a transaction is refused before it is sent, if it is. -/
def DispatcherSettings.refusal? (cfg : DispatcherSettings) (tx : CoordinatedTx) :
    Option String :=
  if tx.tx.input.isEmpty then
    some "transaction has no inputs"
  else if cfg.maxTxWeight < tx.tx.weight then
    some s!"transaction weight {tx.tx.weight} wu exceeds max {cfg.maxTxWeight} wu"
  else
    none

/-- The transactions that pass the checks, and the outcomes of those that do not, in order. -/
def DispatcherSettings.validate (cfg : DispatcherSettings) (txs : List CoordinatedTx) :
    List CoordinatedTx × List (Txid × DispatchOutcome) :=
  (txs.filter fun tx => (cfg.refusal? tx).isNone,
    txs.filterMap fun tx => (cfg.refusal? tx).map fun msg => (tx.txid, .fatal msg))

/-- The first tracked parent of a transaction that has settled as failed. -/
def Store.failedParent (s : Store) (tx : CoordinatedTx) : Option Txid :=
  (tx.tx.spends.map OutPoint.txid).find? fun id => s.isTxKnown id && s.isTxFailed id

/-- True when every tracked parent of the inputs is in the mempool or on chain; untracked parents
are assumed to be on chain. -/
def parentsReady : List OutPoint → Coord Bool
  | [] => pure true
  | op :: rest => do
    let known ← readStore fun s => s.isTxKnown op.txid
    if known then do
      let cfg ← settings
      let status ← query .internal fun answers n => answers.txStatus n op.txid true
      if status.isInMempool || status.isConfirmed ||
          status.isFinalized cfg.monitor.maxMonitoringConfirmations then
        parentsReady rest
      else
        pure false
    else
      parentsReady rest

/-- Hand a transaction to the node. -/
def sendTransaction (tx : Transaction) : Coord DispatchOutcome := do
  note fun _ => .broadcast tx
  let answer ← attempt fun answers n => answers.sendTransaction n tx
  match answer with
  | .ok _ => pure .success
  | .error e => pure (.dispatchError e)

/-- Decide the outcome of one valid transaction; a deferred one has none. -/
def dispatchOne (tx : CoordinatedTx) : Coord (Option (Txid × DispatchOutcome)) := do
  let failedParent ← readStore fun s => s.failedParent tx
  match failedParent with
  | some parent => pure (some (tx.txid, .parentFailed parent))
  | none => do
    let ready ← parentsReady tx.tx.spends
    if ready then do
      let outcome ← sendTransaction tx.tx
      pure (some (tx.txid, outcome))
    else
      pure none

/-- Decide the outcomes of the valid transactions, in order. -/
def dispatchValid : List CoordinatedTx → Coord (List (Txid × DispatchOutcome))
  | [] => pure []
  | tx :: rest => do
    let outcome ← dispatchOne tx
    let outcomes ← dispatchValid rest
    pure (outcome.toList ++ outcomes)

/-- Broadcast each transaction whose tracked parents are ready. Refused transactions come first in
the result. -/
def dispatch (txs : List CoordinatedTx) : Coord (List (Txid × DispatchOutcome)) := do
  let cfg ← settings
  let (valid, failures) := cfg.dispatcher.validate txs
  let results ← dispatchValid valid
  pure (failures ++ results)

end BitcoinCoordinator
