import BitcoinCoordinator.World

/-!
# Accessors of tracked records

The methods of `helper.rs`: what a record's kind gives access to, which lifecycle steps are
valid, and when a speedup counts as replaced.
-/

namespace BitcoinCoordinator

open Foundation

/-- The context of either kind of speedup. -/
def SpeedupKind.context : SpeedupKind → SpeedupContext
  | .cpfp _ context => context
  | .rbf _ _ context => context

/-- Change the context of either kind of speedup. -/
def SpeedupKind.modifyContext (f : SpeedupContext → SpeedupContext) : SpeedupKind → SpeedupKind
  | .cpfp parents context => .cpfp parents (f context)
  | .rbf replaces new context => .rbf replaces new (f context)

/-- True for an RBF. -/
def SpeedupKind.isRbf : SpeedupKind → Bool
  | .cpfp _ _ => false
  | .rbf _ _ _ => true

/-- True when the speedup was built by `boost_if_stale`: a boost CPFP carries no parent data. -/
def SpeedupKind.isBoost : SpeedupKind → Bool
  | .cpfp _ context => context.parentData.isEmpty
  | .rbf _ _ _ => true

/-- The transactions a CPFP accelerates. -/
def SpeedupKind.parents : SpeedupKind → List Txid
  | .cpfp parents _ => parents
  | .rbf _ _ _ => []

/-- The speedup kind of a record, if it is a speedup. -/
def CoordinatedTx.speedup? (tx : CoordinatedTx) : Option SpeedupKind :=
  match tx.kind with
  | .speedup kind => some kind
  | _ => none

/-- True for a parent that needs a speedup. -/
def CoordinatedTx.isNeedsSpeedup (tx : CoordinatedTx) : Bool :=
  match tx.kind with
  | .needsSpeedup _ => true
  | _ => false

/-- The speedup kind of a record, or a violation. -/
def CoordinatedTx.speedupKind (tx : CoordinatedTx) :
    Except BitcoinCoordinatorError SpeedupKind :=
  match tx.kind with
  | .speedup kind => .ok kind
  | kind => .error (.invariantViolation (.expectedSpeedup kind tx.txid))

/-- Change the context of a speedup record, or report a violation. -/
def CoordinatedTx.modifyContext (tx : CoordinatedTx) (f : SpeedupContext → SpeedupContext) :
    Except BitcoinCoordinatorError CoordinatedTx :=
  match tx.kind with
  | .speedup kind => .ok { tx with kind := .speedup (kind.modifyContext f) }
  | _ => .error (.invariantViolation (.expectedSpeedupMut tx.txid))

/-- The last output and its index, or a violation when there are no outputs. -/
def CoordinatedTx.lastOutput (tx : CoordinatedTx) :
    Except BitcoinCoordinatorError (TxOut × ℕ) :=
  match tx.tx.output.getLast? with
  | some out => .ok (out, tx.tx.output.length - 1)
  | none => .error (.invariantViolation (.noOutputs tx.txid))

/-- The funding UTXO backed by a speedup's change output, which is its last output. The funding
inputs are indexed without a check, so an empty list panics. -/
def CoordinatedTx.speedupChangeUtxo (tx : CoordinatedTx) : Except Stop Utxo :=
  match tx.speedupKind with
  | .error e => .error (.error e)
  | .ok kind =>
    match tx.lastOutput with
    | .error e => .error (.error e)
    | .ok (out, vout) =>
      match kind.context.fundingInputs with
      | [] => .error .panic
      | first :: _ => .ok ⟨tx.txid, vout, out.value, first.pubKey⟩

/-- Outpoints of the funding inputs; empty when the record is not a speedup. -/
def CoordinatedTx.fundingOutpoints (tx : CoordinatedTx) : List OutPoint :=
  match tx.speedup? with
  | some kind => (kind.context.fundingInputs.map Utxo.outPoint).dedup
  | none => []

/-- The inputs that are not funding inputs. -/
def CoordinatedTx.nonFundingInputs (tx : CoordinatedTx) : List OutPoint :=
  tx.tx.spends.filter fun op => decide (op ∉ tx.fundingOutpoints)

/-- Refuse a dispatch result that names another transaction. -/
def CoordinatedTx.verifyTxId (tx : CoordinatedTx) (txid : Txid) :
    Except BitcoinCoordinatorError Unit :=
  if tx.txid ≠ txid then .error (.invariantViolation (.expectedTxid txid tx.txid)) else .ok ()

/-- The record of a dispatch batch with the given identifier, or a violation. -/
def findTxInBatch (txs : List CoordinatedTx) (txid : Txid) :
    Except BitcoinCoordinatorError CoordinatedTx :=
  match txs.find? (fun t => t.txid = txid) with
  | some tx => .ok tx
  | none => .error (.invariantViolation (.notInDispatchBatch txid))

/-- The valid lifecycle steps. -/
def TransactionState.canTransitionTo : TransactionState → TransactionState → Bool
  | .toDispatch, .inMempool => true
  | .inMempool, .confirmed => true
  | .confirmed, .finalized => true
  | .toDispatch, .confirmed => true
  | .toDispatch, .finalized => true
  | .inMempool, .finalized => true
  | .inMempool, .toDispatch => true
  | .confirmed, .inMempool => true
  | .confirmed, .toDispatch => true
  | .toDispatch, .failed => true
  | .inMempool, .failed => true
  | a, b => a = b

/-- The two terminal states. -/
def TransactionState.isTerminal : TransactionState → Bool
  | .finalized => true
  | .failed => true
  | _ => false

/-- The states the tick pipeline acts on. -/
def TransactionState.isActive : TransactionState → Bool
  | .toDispatch => true
  | .inMempool => true
  | .confirmed => true
  | _ => false

/-- Only an active state leads to an active one. -/
theorem TransactionState.isActive_of_canTransitionTo {a b : TransactionState}
    (hstep : a.canTransitionTo b) (hb : b.isActive) : a.isActive := by
  cases a <;> cases b <;> simp_all [canTransitionTo, isActive]

/-- The transaction an RBF record replaces. -/
def CoordinatedTx.replaces? (tx : CoordinatedTx) : Option Txid :=
  match tx.kind with
  | .speedup (.rbf replaces _ _) => some replaces
  | _ => none

/-- True when the speedup is being replaced: its `replaced_by` is set, or the list holds an RBF
of it that has not failed. -/
def CoordinatedTx.hasLiveReplacement (tx : CoordinatedTx) (allSpeedups : List CoordinatedTx) :
    Bool :=
  (match tx.speedup? with
    | some kind => kind.context.isBeingReplaced
    | none => false) ||
  allSpeedups.any fun s => decide (s.state ≠ .failed) && decide (s.replaces? = some tx.txid)

/-- True when the target height has been reached. -/
def CoordinatedTx.isReadyToDispatch (tx : CoordinatedTx) (currentHeight : BlockHeight) : Bool :=
  tx.targetBlockHeight ≤ currentHeight

/-- True when the transaction has waited in the mempool for its threshold. -/
def CoordinatedTx.isStuckInMempool (tx : CoordinatedTx) (currentHeight : BlockHeight) : Bool :=
  match tx.stuckInMempoolBlocks, tx.broadcastBlockHeight with
  | some threshold, some broadcast => threshold ≤ currentHeight - broadcast
  | _, _ => false

/-- Every state steps to itself. -/
theorem TransactionState.canTransitionTo_self (a : TransactionState) : a.canTransitionTo a := by
  cases a <;> rfl

/-- A terminal state only steps to itself. -/
theorem TransactionState.canTransitionTo_of_isTerminal {a b : TransactionState}
    (ha : a.isTerminal) (h : a.canTransitionTo b) : a = b := by
  cases a <;> cases b <;> simp_all [isTerminal, canTransitionTo]

/-- The states that may settle as failed. -/
theorem TransactionState.canTransitionTo_failed_iff {a : TransactionState} :
    a.canTransitionTo .failed ↔ a = .toDispatch ∨ a = .inMempool ∨ a = .failed := by
  cases a <;> simp [canTransitionTo]

/-- Changing a context keeps the parents. -/
@[simp] theorem SpeedupKind.parents_modifyContext (f : SpeedupContext → SpeedupContext)
    (kind : SpeedupKind) : (kind.modifyContext f).parents = kind.parents := by
  cases kind <;> rfl

/-- The changed context is the change of the context. -/
@[simp] theorem SpeedupKind.context_modifyContext (f : SpeedupContext → SpeedupContext)
    (kind : SpeedupKind) : (kind.modifyContext f).context = f kind.context := by
  cases kind <;> rfl

end BitcoinCoordinator
