import BitcoinCoordinator.Helper

/-!
# The coordinator's storage

The functions of `storage.rs` over the persisted store. Every `set` and `remove` of the source is
one `writeStore`, so a stop can fall between any two of them.
-/

namespace BitcoinCoordinator

open Foundation

/-! ### Transaction records -/

/-- Put a record under its identifier. -/
def Store.setTx (s : Store) (tx : CoordinatedTx) : Store :=
  { s with
    txs := s.txs.set tx.txid tx
    keyed := by
      intro id tx' h
      rw [Table.get_set] at h
      split at h
      · next heq =>
        cases h
        exact heq.symm
      · exact s.keyed id tx' h }

/-- Drop the record of an identifier. -/
def Store.eraseTx (s : Store) (txid : Txid) : Store :=
  { s with
    txs := s.txs.erase txid
    keyed := by
      intro id tx' h
      rw [Table.get_erase] at h
      split at h
      · cases h
      · exact s.keyed id tx' h }

/-- Persist a new record. -/
def insertTx (tx : CoordinatedTx) : Coord Unit := writeStore fun s => s.setTx tx

/-- Persist new records. -/
def insertTxs (txs : List CoordinatedTx) : Coord Unit := Prog.forEach txs insertTx

/-- Persist a changed record. -/
def updateTx (tx : CoordinatedTx) : Coord Unit := writeStore fun s => s.setTx tx

/-- Persist a record and record the version it was put over. -/
def putTx (event : Store → Event) (tx : CoordinatedTx) : Coord Unit := do
  let before ← readStore id
  insertTx tx
  note fun _ => event before

/-- The record of a transaction, if it is tracked. -/
def getTxById (txid : Txid) : Coord (Option CoordinatedTx) := readStore fun s => s.txs.get txid

/-- All records, in key order. -/
def getAllTxs : Coord (List CoordinatedTx) := readStore fun s => s.txs.values

/-- The records in a state. -/
def getByState (state : TransactionState) : Coord (List CoordinatedTx) :=
  readStore fun s => s.txs.values.filter fun tx => decide (tx.state = state)

/-- True when a transaction is tracked. -/
def existsTx (txid : Txid) : Coord Bool := readStore fun s => (s.txs.get txid).isSome

/-- The records in a non-terminal state. -/
def getActiveTxs : Coord (List CoordinatedTx) :=
  readStore fun s => s.txs.values.filter fun tx => tx.state.isActive

/-- The records in a terminal state. -/
def getSettledTxs : Coord (List CoordinatedTx) :=
  readStore fun s => s.txs.values.filter fun tx => tx.state.isTerminal

/-- Drop a txid from the speedup list, writing only when it was there. -/
def removeSpeedupFromList (txid : Txid) : Coord Unit := do
  let list ← readStore Store.speedupList
  if txid ∈ list then
    writeStore fun s => { s with speedupList := list.filter fun id => decide (id ≠ txid) }

/-- Drop a record and its entry in the speedup list. -/
def removeTx (txid : Txid) : Coord Unit := do
  writeStore fun s => s.eraseTx txid
  removeSpeedupFromList txid

/-- A scanned record is stored under its identifier. -/
theorem Store.mem_values {s : Store} {tx : CoordinatedTx} :
    tx ∈ s.txs.values ↔ s.txs.get tx.txid = some tx := by
  rw [Table.mem_values]
  constructor
  · rintro ⟨id, hget⟩
    rw [s.keyed id tx hget]
    exact hget
  · intro hget
    exact ⟨_, hget⟩

/-- The scan visits every identifier at most once. -/
theorem Store.values_nodup (s : Store) : (s.txs.values.map CoordinatedTx.txid).Nodup := by
  have hkeys : s.txs.values.map CoordinatedTx.txid = s.txs.entries.map Prod.fst := by
    unfold Table.values
    rw [List.map_map]
    apply List.map_congr_left
    rintro ⟨id, tx⟩ hmem
    exact s.keyed id tx ((Table.lookupEntry_eq_some s.txs.sorted).mpr hmem)
  rw [hkeys]
  exact List.Pairwise.map _ (fun _ _ hlt => ne_of_lt hlt) s.txs.sorted

/-! ### News -/

/-- Store a news item unless an equal one, acknowledged or not, is stored already. -/
def addNews (news : CoordinatorNews) : Coord Bool := do
  let all ← Prog.read World.news
  if all.any fun item => item.news = news then
    pure false
  else do
    writeNews fun _ => all ++ [⟨news, none⟩]
    pure true

/-- All unacknowledged news, oldest first. -/
def getNews : Coord (List CoordinatorNews) :=
  Prog.read fun w => (w.news.filter fun item => item.ackedAtBlock.isNone).map StoredNewsItem.news

/-- Acknowledge the first unacknowledged item of the given value. -/
def ackFirst (news : CoordinatorNews) (currentHeight : BlockHeight) :
    List StoredNewsItem → List StoredNewsItem
  | [] => []
  | item :: rest =>
    if item.ackedAtBlock.isNone ∧ item.news = news then
      { item with ackedAtBlock := some currentHeight } :: rest
    else item :: ackFirst news currentHeight rest

/-- Mark a news item as acknowledged at the given height. -/
def ackNews (news : CoordinatorNews) (currentHeight : BlockHeight) : Coord Unit :=
  writeNews (ackFirst news currentHeight)

/-- Drop the items acknowledged in a strictly earlier block. -/
def cleanupNews (currentHeight : BlockHeight) : Coord Unit :=
  writeNews fun all => all.filter fun item =>
    match item.ackedAtBlock with
    | none => true
    | some h => currentHeight ≤ h

/-! ### Lifecycle -/

/-- Move a record to a state if the step is valid, stamping terminal states with the height;
otherwise publish why not. -/
def updateTxStateImpl (txid : Txid) (newState : TransactionState)
    (blockHeight : Option BlockHeight) : Coord Unit := do
  if newState.isTerminal ∧ blockHeight = none then
    fail (.internal "settle_tx must be used for terminal states (Finalized/Failed)")
  else do
    let found ← getTxById txid
    match found with
    | none => do
      let _ ← addNews (.txNotFound txid)
      pure ()
    | some tx =>
      if tx.state.canTransitionTo newState then
        updateTx { tx with
          settledBlockHeight := if newState.isTerminal then blockHeight else tx.settledBlockHeight
          state := newState }
      else do
        let _ ← addNews (.invalidStateTransition txid tx.state newState)
        pure ()

/-- Move a record to a non-terminal state. -/
def updateTxState (txid : Txid) (newState : TransactionState) : Coord Unit :=
  updateTxStateImpl txid newState none

/-- Settle a record in a terminal state at the given height. -/
def settleTx (txid : Txid) (newState : TransactionState) (blockHeight : BlockHeight) :
    Coord Unit := do
  if newState.isTerminal then
    updateTxStateImpl txid newState (some blockHeight)
  else
    fail (.internal "settle_tx must only be called with Finalized or Failed")

/-- Move a record back to `ToDispatch` by a write, or publish why not. -/
def requeueWith (txid : Txid) (write : CoordinatedTx → Coord Unit) : Coord Unit := do
  let found ← getTxById txid
  match found with
  | none => do
    let _ ← addNews (.txNotFound txid)
    pure ()
  | some tx =>
    if tx.state.canTransitionTo .toDispatch then
      write { tx with state := .toDispatch }
    else do
      let _ ← addNews (.invalidStateTransition txid tx.state .toDispatch)
      pure ()

/-- Re-queue a vanished record and arm its fail guard, keeping a deadline already set. -/
def requeueNotFound (txid : Txid) (guardDeadline : BlockHeight) : Coord Unit :=
  requeueWith txid fun tx => putTx (fun _ => .vanished txid guardDeadline)
    { tx with failGuardUntil := some (tx.failGuardUntil.getD guardDeadline) }

/-- Re-queue a record for another attempt and count it. -/
def markAsRetry (txid : Txid) : Coord Unit :=
  requeueWith txid fun tx => updateTx { tx with retryCount := tx.retryCount + 1 }

/-! ### Speedups -/

/-- The records of the speedup list, oldest first, skipping entries without a record. -/
def Store.speedupsOrdered (s : Store) : List CoordinatedTx := s.speedupList.filterMap s.txs.get

/-- Speedup records in creation order. -/
def getSpeedupsOrdered : Coord (List CoordinatedTx) := readStore Store.speedupsOrdered

/-- Append a txid to the speedup list unless it is there. -/
def appendToSpeedupList (txid : Txid) : Coord Unit := do
  let list ← readStore Store.speedupList
  if txid ∈ list then
    pure ()
  else
    writeStore fun s => { s with speedupList := list ++ [txid] }

/-- Persist a new speedup and append it to the speedup list. -/
def insertSpeedup (tx : CoordinatedTx) : Coord Unit := do
  putTx (.inserted tx) tx
  appendToSpeedupList tx.txid
  note fun _ => .recorded tx.txid

/-! ### Pending speedup parents -/

/-- Record that a parent waits for a CPFP. -/
def addPendingSpeedupParent (txid : Txid) : Coord Unit := do
  let list ← readStore Store.pendingSpeedupParents
  if txid ∈ list then
    pure ()
  else
    writeStore fun s => { s with pendingSpeedupParents := list ++ [txid] }

/-- Put parents at the front of the pending list, in their order, skipping those already there. -/
def prependPendingSpeedupParents (txids : List Txid) : Coord Unit := do
  let list ← readStore Store.pendingSpeedupParents
  let toPrepend := txids.filter fun id => decide (id ∉ list)
  if toPrepend = [] then
    pure ()
  else
    writeStore fun s => { s with pendingSpeedupParents := toPrepend ++ list }

/-- Drop a parent from the pending list, writing only when it was there. -/
def removePendingSpeedupParent (txid : Txid) : Coord Unit := do
  let list ← readStore Store.pendingSpeedupParents
  if txid ∈ list then
    writeStore fun s =>
      { s with pendingSpeedupParents := list.filter fun id => decide (id ≠ txid) }

/-- Walk the pending list: collect the parents that reached the mempool or the chain, drop the
failed and missing ones, and leave the ones not yet broadcast. -/
def collectPendingParents : List Txid → Coord (List CoordinatedTx)
  | [] => pure []
  | txid :: rest => do
    let found ← getTxById txid
    match found with
    | none => do
      removePendingSpeedupParent txid
      collectPendingParents rest
    | some tx =>
      match tx.state with
      | .inMempool | .confirmed | .finalized => do
        let live ← collectPendingParents rest
        pure (tx :: live)
      | .failed => do
        removePendingSpeedupParent txid
        collectPendingParents rest
      | .toDispatch => collectPendingParents rest

/-- The pending parents a CPFP can be built for. -/
def getPendingSpeedupParents : Coord (List CoordinatedTx) := do
  let list ← readStore Store.pendingSpeedupParents
  collectPendingParents list

/-- True when the identifier is tracked as a parent needing a speedup. -/
def Store.isNeedsSpeedup (s : Store) (txid : Txid) : Bool :=
  match s.txs.get txid with
  | some tx => tx.isNeedsSpeedup
  | none => false

/-- Put the tracked parents of a failed CPFP back on the pending list. -/
def requeueProtocolParents (failedCpfp : CoordinatedTx) : Coord Unit :=
  match failedCpfp.kind with
  | .speedup (.cpfp parents _) => do
    let toPrepend ← readStore fun s => parents.filter s.isNeedsSpeedup
    prependPendingSpeedupParents toPrepend
  | _ => pure ()

/-! ### Eviction -/

/-- The parents covered by a speedup that is neither failed nor finalized. -/
def Store.liveCovered (s : Store) : List Txid :=
  (s.speedupsOrdered.filter fun tx => !tx.state.isTerminal).flatMap fun tx =>
    match tx.speedup? with
    | some kind => kind.parents
    | none => []

/-- Drop one settled record that is old enough and unprotected. -/
def evictStaleTx (currentHeight : BlockHeight) (pending covered : List Txid)
    (tx : CoordinatedTx) : Coord Unit := do
  let cfg ← settings
  match tx.settledBlockHeight with
  | none => pure ()
  | some settledHeight =>
    if cfg.storage.maxTrackingConfirmations ≤ currentHeight - settledHeight then
      if tx.isNeedsSpeedup ∧ (tx.txid ∈ pending ∨ tx.txid ∈ covered) then
        pure ()
      else do
        note fun _ => .evicting tx
        removeTx tx.txid
        let _ ← addNews (.transactionEvicted tx.txid tx.context)
        pure ()
    else
      pure ()

/-- Drop the records settled for `max_tracking_confirmations` blocks, except parents that are
pending or covered by a live speedup. -/
def evictStaleTxs (currentHeight : BlockHeight) : Coord Unit := do
  let settled ← getSettledTxs
  let pending ← readStore Store.pendingSpeedupParents
  let covered ← readStore Store.liveCovered
  Prog.forEach settled (evictStaleTx currentHeight pending covered)

/-! ### Funding queue -/

/-- Put a funding record under an outpoint. -/
def Store.setFunding (s : Store) (op : OutPoint) (record : FundingData) : Store :=
  { s with funding := fun op' => if op' = op then some record else s.funding op' }

/-- Drop the funding record of an outpoint. -/
def Store.eraseFunding (s : Store) (op : OutPoint) : Store :=
  { s with funding := fun op' => if op' = op then none else s.funding op' }

/-- The funding record of an outpoint. -/
def getFundingRecord (op : OutPoint) : Coord (Option FundingData) :=
  readStore fun s => s.funding op

/-- True when an outpoint is a materialized change of the queue, or the change of a tracked
speedup. -/
def Store.isSpeedupDerived (s : Store) (op : OutPoint) : Bool :=
  match s.funding op with
  | some record => record.fromSpeedup
  | none =>
    match s.txs.get op.txid with
    | some tx => tx.speedup?.isSome
    | none => false

/-- The funding records of the queue, in insertion order. -/
def Store.fundingRecords (s : Store) : List FundingData := s.fundingList.filterMap s.funding

/-- Read every funding record in insertion order. -/
def readFundingRecords : Coord (List FundingData) := readStore Store.fundingRecords

/-- Store a funding UTXO unspent and append its outpoint to the queue. -/
def appendFunding (utxo : Utxo) : Coord Unit := do
  note (.addingFunding utxo)
  writeStore fun s => s.setFunding utxo.outPoint ⟨utxo, false, false⟩
  let list ← readStore Store.fundingList
  if utxo.outPoint ∈ list then
    pure ()
  else
    writeStore fun s => { s with fundingList := list ++ [utxo.outPoint] }

/-- Set the spent flag of a tracked speedup; other records have none. -/
def setSpeedupSpent (tx : CoordinatedTx) (spent : Bool) : Coord Unit :=
  match tx.kind with
  | .speedup kind =>
    if kind.context.spent = spent then
      pure ()
    else
      updateTx { tx with
        kind := .speedup (kind.modifyContext fun c => { c with spent := spent }) }
  | _ => pure ()

/-- Set the spent flag of an outpoint: of its funding record if there is one, else of the tracked
speedup that created it. -/
def writeSpent (op : OutPoint) (spent : Bool) : Coord Unit := do
  let record ← getFundingRecord op
  match record with
  | some rec =>
    if rec.spent = spent then
      pure ()
    else
      writeStore fun s => s.setFunding op { rec with spent := spent }
  | none => do
    let found ← getTxById op.txid
    match found with
    | none => pure ()
    | some tx => setSpeedupSpent tx spent

/-- Set the spent flag of an outpoint. -/
def setSpent (op : OutPoint) (spent : Bool) : Coord Unit := do
  writeSpent op spent
  note fun _ => .marked op spent

/-- Drop every funding record. -/
def clearFundingRecords : Coord Unit := do
  let list ← readStore Store.fundingList
  Prog.forEach list fun op => writeStore fun s => s.eraseFunding op
  writeStore fun s => { s with fundingList := [] }

/-- Remove the entries at the given positions, from the highest to the lowest, dropping each
one's record. -/
def dropQueued : List ℕ → List OutPoint → Coord (List OutPoint)
  | [], list => pure list
  | idx :: rest, list =>
    match list[idx]? with
    | none => Prog.stop .panic
    | some removed => do
      writeStore fun s => s.eraseFunding removed
      dropQueued rest (list.eraseIdx idx)

/-- The positions of the queue whose outpoint is in the given list, in order. -/
def queuePositions (consumed : List OutPoint) (list : List OutPoint) : List ℕ :=
  (list.zipIdx.filter fun p => decide (p.1 ∈ consumed)).map Prod.snd

/-- Replace the queue entries at the given positions by a change output at the first of them, and
take the speedup out of the list. Nothing happens when there is no position. -/
def swapQueued (txid : Txid) (change : Utxo) (spent : Bool) (positions : List ℕ)
    (list : List OutPoint) : Coord Unit :=
  match positions with
  | [] => pure ()
  | first :: _ => do
    let list ← dropQueued positions.reverse list
    writeStore fun s => s.setFunding change.outPoint ⟨change, spent, true⟩
    writeStore fun s =>
      { s with fundingList := list.insertIdx (min first list.length) change.outPoint }
    removeSpeedupFromList txid

/-- On finalization, replace the queued funding inputs of a speedup by its change output and take
it out of the speedup list. Nothing happens when no input is queued. -/
def replaceFundingOnFinalize (txid : Txid) : Coord Unit := do
  note (.finalizing txid)
  let found ← getTxById txid
  match found with
  | none => pure ()
  | some tx =>
    match tx.speedupChangeUtxo with
    | .error .panic => Prog.stop .panic
    | .error _ => pure ()
    | .ok change => do
      let kind ← Prog.ofExcept (tx.speedupKind.mapError Stop.error)
      let list ← readStore Store.fundingList
      let consumed := kind.context.fundingInputs.map Utxo.outPoint
      swapQueued tx.txid change kind.context.spent (queuePositions consumed list) list

/-! ### Dispatcher view -/

/-- True when the transaction is tracked. -/
def Store.isTxKnown (s : Store) (txid : Txid) : Bool := (s.txs.get txid).isSome

/-- True when the tracked transaction has settled as failed. -/
def Store.isTxFailed (s : Store) (txid : Txid) : Bool :=
  match s.txs.get txid with
  | some tx => tx.state = .failed
  | none => false

end BitcoinCoordinator
