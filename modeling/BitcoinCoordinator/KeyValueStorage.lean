import BitcoinCoordinator.Storage
import BitcoinCoordinator.Foundation.Paths
import BitcoinCoordinator.Foundation.Simulation
import Mathlib.Data.String.Basic

/-!
# The coordinator's storage over a key-value backend

The functions of `storage.rs` as they use the backend: one keyspace for all values, each under the path of its
`StoreKey`. A read finds a value of the type asked for or none, every `set` and `remove` may be refused, and a
partial read scans everything below a path.
-/

namespace BitcoinCoordinator

open Foundation

/-! ### The backend -/

/-- The values the coordinator stores, by their types. -/
inductive StoredValue where
  | tx (tx : CoordinatedTx)
  | news (items : List StoredNewsItem)
  | txids (list : List Txid)
  | outPoints (list : List OutPoint)
  | funding (record : FundingData)
  deriving DecidableEq

/-- A stored record. -/
def StoredValue.tx? : StoredValue → Option CoordinatedTx
  | .tx record => some record
  | _ => none

/-- A stored news log. -/
def StoredValue.news? : StoredValue → Option (List StoredNewsItem)
  | .news items => some items
  | _ => none

/-- A stored list of identifiers. -/
def StoredValue.txids? : StoredValue → Option (List Txid)
  | .txids list => some list
  | _ => none

/-- A stored list of outpoints. -/
def StoredValue.outPoints? : StoredValue → Option (List OutPoint)
  | .outPoints list => some list
  | _ => none

/-- A stored funding record. -/
def StoredValue.funding? : StoredValue → Option FundingData
  | .funding record => some record
  | _ => none

/-- A key of the backend, as the segments it was made of. -/
abbrev StorageKey := List String

/-- The backend, and the number of questions asked so far. -/
structure Backend where
  cells : Table StorageKey StoredValue
  clock : ℕ

/-- A backend nothing was written to. -/
def Backend.empty : Backend := ⟨Table.empty, 0⟩

/-- A computation on the backend. -/
abbrev Backed (α : Type) : Type := Prog Ctx Stop Backend α

/-- What the coordinator is given to make keys and to read values: the texts of identifiers and outpoints, and the
error of a value of another type. Texts tell apart what they are texts of, and identifiers are ordered as their
texts. -/
structure KeyText where
  txid : Txid → String
  outPoint : OutPoint → String
  mismatch : String
  txid_strictMono : StrictMono txid
  outPoint_injective : Function.Injective outPoint

/-- Runs of letters are such texts. -/
instance : Inhabited KeyText where
  default :=
    { txid := fun n => String.ofList (List.replicate n 'a')
      outPoint := fun op => String.ofList (List.replicate op.txid 'a' ++ List.replicate op.vout 'b')
      mismatch := "mismatch"
      txid_strictMono := by
        refine strictMono_nat_of_lt_succ fun n => ?_
        rw [String.lt_iff_toList_lt, String.toList_ofList, String.toList_ofList]
        induction n with
        | zero => exact List.nil_lt_cons _ _
        | succ n ih => exact List.cons_lt_cons_iff.mpr (.inr ⟨rfl, ih⟩)
      outPoint_injective := by
        intro op op' h
        have hletters := String.ofList_injective h
        have htxid : op.txid = op'.txid := by
          simpa [List.count_replicate] using congrArg (List.count 'a') hletters
        have hvout : op.vout = op'.vout := by
          simpa [List.count_replicate] using congrArg (List.count 'b') hletters
        cases op
        cases op'
        simp_all }

/-! ### Keys -/

/-- What the coordinator keeps in the backend. -/
inductive StoreKey where
  | tx (txid : Txid)
  | news
  | speedupList
  | pendingSpeedupParents
  | fundingList
  | funding (op : OutPoint)
  deriving DecidableEq

namespace CoordinatorStorage

variable {α : Type}

/-- The first segment of every key. -/
def txPrefix : String := "bitcoin_coordinator"

/-- A key of a namespace. -/
def coordinatorKey (space tail : List String) : StorageKey := txPrefix :: (space ++ tail)

/-- A key of the speedup namespace. -/
def speedupKey (tail : List String) : StorageKey := coordinatorKey ["speedup"] tail

/-- A key of the funding namespace. -/
def fundingKey (tail : List String) : StorageKey := coordinatorKey ["funding"] tail

variable (text : KeyText)

/-- The key of what is kept. -/
def getKey : StoreKey → StorageKey
  | .tx txid => coordinatorKey ["txs"] [text.txid txid]
  | .news => coordinatorKey ["news"] []
  | .speedupList => speedupKey ["list"]
  | .pendingSpeedupParents => speedupKey ["pending_parents"]
  | .fundingList => fundingKey ["list"]
  | .funding op => fundingKey ["record", text.outPoint op]

/-! ### The backend's operations -/

/-- Read the value of a key, as a value of one type. -/
def get (decode : StoredValue → Option α) (key : StoreKey) : Backed (Option α) := fun _ b =>
  match b.cells.get (getKey text key) with
  | none => (.ok none, b)
  | some value =>
    match decode value with
    | some a => (.ok (some a), b)
    | none => (.error (.error (.storageBackendError text.mismatch)), b)

/-- Read the list of a key, empty when there is none. -/
def getOrDefault (decode : StoredValue → Option (List α)) (key : StoreKey) : Backed (List α) := do
  let found ← get text decode key
  pure (found.getD [])

/-- Decode the values of a scan. -/
def decodeAll (decode : StoredValue → Option α) (values : List StoredValue) : Except Stop (List α) :=
  match values.mapM decode with
  | some all => .ok all
  | none => .error (.error (.storageBackendError text.mismatch))

/-- Read all values below a path, as values of one type. -/
def partialGet (decode : StoredValue → Option α) (root : StorageKey) : Backed (List α) := fun _ b =>
  (decodeAll text decode (b.cells.scan root), b)

/-- Change the cells, unless the backend refuses. -/
def write (f : Table StorageKey StoredValue → Table StorageKey StoredValue) : Backed Unit := fun ctx b =>
  match ctx.answers.storage b.clock with
  | .ok () => (.ok (), ⟨f b.cells, b.clock + 1⟩)
  | .error e => (.error (.error (.storageBackendError e)), ⟨b.cells, b.clock + 1⟩)

/-- Store a value. -/
def set (key : StoreKey) (value : StoredValue) : Backed Unit := write fun cells => cells.set (getKey text key) value

/-- Remove a value. -/
def remove (key : StoreKey) : Backed Unit := write fun cells => cells.erase (getKey text key)

/-! ### Transaction records -/

/-- Persist a new record. -/
def insertTx (tx : CoordinatedTx) : Backed Unit := set text (.tx tx.txid) (.tx tx)

/-- Persist new records. -/
def insertTxs (txs : List CoordinatedTx) : Backed Unit := Prog.forEach txs (insertTx text)

/-- Persist a changed record. -/
def updateTx (tx : CoordinatedTx) : Backed Unit := set text (.tx tx.txid) (.tx tx)

/-- The record of a transaction, if it is tracked. -/
def getTxById (txid : Txid) : Backed (Option CoordinatedTx) := get text StoredValue.tx? (.tx txid)

/-- All records. -/
def getAllTxs : Backed (List CoordinatedTx) := partialGet text StoredValue.tx? (coordinatorKey ["txs"] [])

/-- The records in a state. -/
def getByState (state : TransactionState) : Backed (List CoordinatedTx) := do
  let txs ← getAllTxs text
  pure (txs.filter fun tx => decide (tx.state = state))

/-- The records in a non-terminal state. -/
def getActiveTxs : Backed (List CoordinatedTx) := do
  let txs ← getAllTxs text
  pure (txs.filter fun tx => tx.state.isActive)

/-- The records in a terminal state. -/
def getSettledTxs : Backed (List CoordinatedTx) := do
  let txs ← getAllTxs text
  pure (txs.filter fun tx => tx.state.isTerminal)

/-- True when a transaction is tracked. -/
def existsTx (txid : Txid) : Backed Bool := do
  let found ← getTxById text txid
  pure found.isSome

/-- Drop an identifier from a list, writing only when it was there. -/
def removeFrom (key : StoreKey) (txid : Txid) : Backed Unit := do
  let list ← getOrDefault text StoredValue.txids? key
  let kept := list.filter fun id => decide (id ≠ txid)
  if kept.length ≠ list.length then set text key (.txids kept) else pure ()

/-- Drop a txid from the speedup list. -/
def removeSpeedupFromList (txid : Txid) : Backed Unit := removeFrom text .speedupList txid

/-- Drop a record and its entry in the speedup list. -/
def removeTx (txid : Txid) : Backed Unit := do
  remove text (.tx txid)
  removeSpeedupFromList text txid

/-! ### News -/

/-- Store a news item unless an equal one is stored already. -/
def addNews (news : CoordinatorNews) : Backed Bool := do
  let all ← getOrDefault text StoredValue.news? .news
  if all.any fun item => item.news = news then
    pure false
  else do
    set text .news (.news (all ++ [⟨news, none⟩]))
    pure true

/-- All unacknowledged news. -/
def getNews : Backed (List CoordinatorNews) := do
  let all ← getOrDefault text StoredValue.news? .news
  pure ((all.filter fun item => item.ackedAtBlock.isNone).map StoredNewsItem.news)

/-- Mark a news item as acknowledged. -/
def ackNews (news : CoordinatorNews) (currentHeight : BlockHeight) : Backed Unit := do
  let all ← getOrDefault text StoredValue.news? .news
  set text .news (.news (ackFirst news currentHeight all))

/-- Drop the items acknowledged in a strictly earlier block. -/
def cleanupNews (currentHeight : BlockHeight) : Backed Unit := do
  let all ← getOrDefault text StoredValue.news? .news
  set text .news (.news (all.filter fun item =>
    match item.ackedAtBlock with
    | none => true
    | some h => currentHeight ≤ h))

/-! ### Lifecycle -/

/-- Publish and go on. -/
def publish (news : CoordinatorNews) : Backed Unit := do
  let _ ← addNews text news
  pure ()

/-- Move a record to a state if the step is valid, stamping terminal states with the height. -/
def updateTxStateImpl (txid : Txid) (newState : TransactionState) (blockHeight : Option BlockHeight) :
    Backed Unit := do
  if newState.isTerminal ∧ blockHeight = none then
    Prog.stop (.error (.internal "settle_tx must be used for terminal states (Finalized/Failed)"))
  else do
    let found ← getTxById text txid
    match found with
    | none => publish text (.txNotFound txid)
    | some tx =>
      if tx.state.canTransitionTo newState then
        updateTx text { tx with
          settledBlockHeight := if newState.isTerminal then blockHeight else tx.settledBlockHeight
          state := newState }
      else
        publish text (.invalidStateTransition txid tx.state newState)

/-- Move a record to a non-terminal state. -/
def updateTxState (txid : Txid) (newState : TransactionState) : Backed Unit :=
  updateTxStateImpl text txid newState none

/-- Settle a record in a terminal state at the given height. -/
def settleTx (txid : Txid) (newState : TransactionState) (blockHeight : BlockHeight) : Backed Unit := do
  if newState.isTerminal then
    updateTxStateImpl text txid newState (some blockHeight)
  else
    Prog.stop (.error (.internal "settle_tx must only be called with Finalized or Failed"))

/-- Put a record back to dispatch as it is turned by a function, or publish why not. -/
def requeueWith (txid : Txid) (turn : CoordinatedTx → CoordinatedTx) : Backed Unit := do
  let found ← getTxById text txid
  match found with
  | none => publish text (.txNotFound txid)
  | some tx =>
    if tx.state.canTransitionTo .toDispatch then
      updateTx text (turn { tx with state := .toDispatch })
    else
      publish text (.invalidStateTransition txid tx.state .toDispatch)

/-- Re-queue a vanished record and arm its fail guard, keeping a deadline already set. -/
def requeueNotFound (txid : Txid) (guardDeadline : BlockHeight) : Backed Unit :=
  requeueWith text txid fun tx => { tx with failGuardUntil := some (tx.failGuardUntil.getD guardDeadline) }

/-- Re-queue a record for another attempt and count it. -/
def markAsRetry (txid : Txid) : Backed Unit :=
  requeueWith text txid fun tx => { tx with retryCount := tx.retryCount + 1 }

/-! ### Speedups -/

/-- Collect what is found for each entry of a list. -/
def collect {K : Type} (look : K → Backed (Option α)) : List K → Backed (List α)
  | [] => pure []
  | k :: rest => do
    let found ← look k
    let others ← collect look rest
    pure (found.toList ++ others)

/-- Persist a new speedup and append it to the speedup list. -/
def insertSpeedup (tx : CoordinatedTx) : Backed Unit := do
  insertTx text tx
  let list ← getOrDefault text StoredValue.txids? .speedupList
  if tx.txid ∈ list then pure () else set text .speedupList (.txids (list ++ [tx.txid]))

/-- Speedup records in creation order, skipping entries without a record. -/
def getSpeedupsOrdered : Backed (List CoordinatedTx) := do
  let list ← getOrDefault text StoredValue.txids? .speedupList
  collect (getTxById text) list

/-! ### Pending speedup parents -/

/-- Record that a parent waits for a CPFP. -/
def addPendingSpeedupParent (txid : Txid) : Backed Unit := do
  let list ← getOrDefault text StoredValue.txids? .pendingSpeedupParents
  if txid ∈ list then pure () else set text .pendingSpeedupParents (.txids (list ++ [txid]))

/-- Put parents at the front of the pending list, in their order, skipping those already there. -/
def prependPendingSpeedupParents (txids : List Txid) : Backed Unit :=
  if txids = [] then
    pure ()
  else do
    let list ← getOrDefault text StoredValue.txids? .pendingSpeedupParents
    let toPrepend := txids.filter fun id => decide (id ∉ list)
    if toPrepend = [] then pure () else set text .pendingSpeedupParents (.txids (toPrepend ++ list))

/-- Drop a parent from the pending list. -/
def removePendingSpeedupParent (txid : Txid) : Backed Unit := removeFrom text .pendingSpeedupParents txid

/-- Walk the pending list: collect the live parents, drop the failed and missing ones. -/
def collectPendingParents : List Txid → Backed (List CoordinatedTx)
  | [] => pure []
  | txid :: rest => do
    let found ← getTxById text txid
    match found with
    | none => do
      removePendingSpeedupParent text txid
      collectPendingParents rest
    | some tx =>
      match tx.state with
      | .inMempool | .confirmed | .finalized => do
        let live ← collectPendingParents rest
        pure (tx :: live)
      | .failed => do
        removePendingSpeedupParent text txid
        collectPendingParents rest
      | .toDispatch => collectPendingParents rest

/-- The pending parents a CPFP can be built for. -/
def getPendingSpeedupParents : Backed (List CoordinatedTx) := do
  let list ← getOrDefault text StoredValue.txids? .pendingSpeedupParents
  collectPendingParents text list

/-- The identifier of a tracked parent needing a speedup. -/
def neededParent (txid : Txid) : Backed (Option Txid) := do
  let found ← getTxById text txid
  pure (if found.any CoordinatedTx.isNeedsSpeedup then some txid else none)

/-- Put the tracked parents of a failed CPFP back on the pending list. -/
def requeueProtocolParents (failedCpfp : CoordinatedTx) : Backed Unit :=
  match failedCpfp.kind with
  | .speedup (.cpfp parents _) => do
    let toPrepend ← collect (neededParent text) parents
    prependPendingSpeedupParents text toPrepend
  | _ => pure ()

/-! ### Eviction -/

/-- Drop one settled record that is old enough and unprotected. -/
def evictStaleTx (currentHeight : BlockHeight) (pending covered : List Txid) (tx : CoordinatedTx) :
    Backed Unit := do
  let cfg ← Prog.ask Ctx.settings
  match tx.settledBlockHeight with
  | none => pure ()
  | some settledHeight =>
    if cfg.storage.maxTrackingConfirmations ≤ currentHeight - settledHeight then
      if tx.isNeedsSpeedup ∧ (tx.txid ∈ pending ∨ tx.txid ∈ covered) then
        pure ()
      else do
        removeTx text tx.txid
        publish text (.transactionEvicted tx.txid tx.context)
    else
      pure ()

/-- The parents covered by those of some speedups that are neither failed nor finalized. -/
def liveCovered (speedups : List CoordinatedTx) : List Txid :=
  (speedups.filter fun tx => !tx.state.isTerminal).flatMap fun tx =>
    match tx.speedup? with
    | some kind => kind.parents
    | none => []

/-- Drop the records settled for `max_tracking_confirmations` blocks, except protected parents. -/
def evictStaleTxs (currentHeight : BlockHeight) : Backed Unit := do
  let settled ← getSettledTxs text
  let pending ← getOrDefault text StoredValue.txids? .pendingSpeedupParents
  let speedups ← getSpeedupsOrdered text
  Prog.forEach settled (evictStaleTx text currentHeight pending (liveCovered speedups))

/-! ### Funding queue -/

/-- The funding record of an outpoint. -/
def getFundingRecord (op : OutPoint) : Backed (Option FundingData) := get text StoredValue.funding? (.funding op)

/-- True when an outpoint is a materialized change of the queue, or the change of a tracked speedup. -/
def isSpeedupDerived (op : OutPoint) : Backed Bool := do
  let record ← getFundingRecord text op
  match record with
  | some record => pure record.fromSpeedup
  | none => do
    let found ← getTxById text op.txid
    pure (found.any fun tx => tx.speedup?.isSome)

/-- The entries of the funding queue. -/
def fundingList : Backed (List OutPoint) := getOrDefault text StoredValue.outPoints? .fundingList

/-- Replace the funding queue. -/
def setFundingList (list : List OutPoint) : Backed Unit := set text .fundingList (.outPoints list)

/-- Store a funding record. -/
def putFundingRecord (op : OutPoint) (record : FundingData) : Backed Unit := set text (.funding op) (.funding record)

/-- Read every funding record in insertion order. -/
def readFundingRecords : Backed (List FundingData) := do
  let list ← fundingList text
  collect (getFundingRecord text) list

/-- Store a funding UTXO unspent and append its outpoint to the queue. -/
def appendFunding (utxo : Utxo) : Backed Unit := do
  putFundingRecord text utxo.outPoint ⟨utxo, false, false⟩
  let list ← fundingList text
  if utxo.outPoint ∈ list then pure () else setFundingList text (list ++ [utxo.outPoint])

/-- Set the spent flag of an outpoint: of its funding record if there is one, else of the tracked speedup that
created it. -/
def setSpent (op : OutPoint) (spent : Bool) : Backed Unit := do
  let record ← getFundingRecord text op
  match record with
  | some record =>
    if record.spent = spent then pure () else putFundingRecord text op { record with spent := spent }
  | none => do
    let found ← getTxById text op.txid
    match found with
    | none => pure ()
    | some tx =>
      match tx.kind with
      | .speedup kind =>
        if kind.context.spent = spent then
          pure ()
        else
          updateTx text { tx with kind := .speedup (kind.modifyContext fun c => { c with spent := spent }) }
      | _ => pure ()

/-- Drop every funding record. -/
def clearFundingRecords : Backed Unit := do
  let list ← fundingList text
  Prog.forEach list fun op => remove text (.funding op)
  remove text .fundingList

/-- Remove the entries at the given positions, from the highest to the lowest, dropping each one's record. -/
def dropQueued : List ℕ → List OutPoint → Backed (List OutPoint)
  | [], list => pure list
  | idx :: rest, list =>
    match list[idx]? with
    | none => Prog.stop .panic
    | some removed => do
      remove text (.funding removed)
      dropQueued rest (list.eraseIdx idx)

/-- Replace the queue entries at the given positions by a change output at the first of them, and take the speedup
out of the list. -/
def swapQueued (txid : Txid) (change : Utxo) (spent : Bool) (positions : List ℕ) (list : List OutPoint) :
    Backed Unit :=
  match positions with
  | [] => pure ()
  | first :: _ => do
    let list ← dropQueued text positions.reverse list
    putFundingRecord text change.outPoint ⟨change, spent, true⟩
    setFundingList text (list.insertIdx (min first list.length) change.outPoint)
    removeSpeedupFromList text txid

/-- On finalization, replace the queued funding inputs of a speedup by its change output. -/
def replaceFundingOnFinalize (txid : Txid) : Backed Unit := do
  let found ← getTxById text txid
  match found with
  | none => pure ()
  | some tx =>
    match tx.speedupChangeUtxo with
    | .error .panic => Prog.stop .panic
    | .error _ => pure ()
    | .ok change => do
      let kind ← Prog.ofExcept (tx.speedupKind.mapError Stop.error)
      let list ← fundingList text
      let consumed := kind.context.fundingInputs.map Utxo.outPoint
      swapQueued text tx.txid change kind.context.spent (queuePositions consumed list) list

/-! ### Dispatcher view -/

/-- True when the transaction is tracked. -/
def isTxKnown (txid : Txid) : Backed Bool := do
  let found ← getTxById text txid
  pure found.isSome

/-- True when the tracked transaction has settled as failed. -/
def isTxFailed (txid : Txid) : Backed Bool := do
  let found ← getTxById text txid
  pure (found.any fun tx => decide (tx.state = .failed))

end CoordinatorStorage

end BitcoinCoordinator
