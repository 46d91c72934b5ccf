import Mathlib.Data.Rat.Defs

/-!
# Records of the coordinator

The data of `types.rs`, with the fields of the third-party types the coordinator reads. A
transaction carries the results of `compute_txid`, `vsize` and `weight`; an identifier is a
natural number ordered like the hexadecimal string that keys it in the store. Bump multipliers
are exact rationals.
-/

namespace BitcoinCoordinator

/-- A transaction identifier. -/
abbrev Txid := ℕ

/-- A block height. -/
abbrev BlockHeight := ℕ

/-- A public key, used only to be handed on. -/
abbrev PublicKey := ℕ

/-- One output of one transaction. -/
structure OutPoint where
  txid : Txid
  vout : ℕ
  deriving DecidableEq, Repr

/-- A spendable output with its amount and owner. -/
structure Utxo where
  txid : Txid
  vout : ℕ
  amount : ℕ
  pubKey : PublicKey
  deriving DecidableEq, Repr

/-- The output a UTXO record stands for. -/
def Utxo.outPoint (u : Utxo) : OutPoint := ⟨u.txid, u.vout⟩

/-- A transaction input. -/
structure TxIn where
  previousOutput : OutPoint
  deriving DecidableEq, Repr

/-- A transaction output, in sats. -/
structure TxOut where
  value : ℕ
  deriving DecidableEq, Repr

/-- A signed transaction with its identifier and sizes. -/
structure Transaction where
  computeTxid : Txid
  input : List TxIn
  output : List TxOut
  vsize : ℕ
  weight : ℕ
  deriving DecidableEq, Repr

/-- The outputs a transaction spends, in input order. -/
def Transaction.spends (tx : Transaction) : List OutPoint := tx.input.map TxIn.previousOutput

/-- Signing metadata of a parent: the output a CPFP spends, whole or in parts. -/
structure SpeedupData where
  utxo : Option Utxo
  partialUtxo : Option (Txid × ℕ × ℕ)
  deriving DecidableEq, Repr

/-- The output the metadata names, if any. -/
def SpeedupData.outPoint? (data : SpeedupData) : Option OutPoint :=
  (data.utxo.map Utxo.outPoint).or (data.partialUtxo.map fun p => ⟨p.1, p.2.1⟩)

/-- Lifecycle of a tracked transaction. -/
inductive TransactionState where
  | toDispatch
  | inMempool
  | confirmed
  | finalized
  | failed
  deriving DecidableEq, Repr

/-- Fees of a transaction and of the package it pays for, in sats and sat/vB. -/
structure FeeInfo where
  fee : ℕ
  feeRate : ℕ
  packageFeeRate : ℕ
  weight : ℕ
  deriving DecidableEq, Repr

/-- What every speedup stores, CPFP or RBF. -/
structure SpeedupContext where
  fundingInputs : List Utxo
  replacedBy : Option Txid
  bumpFeeUsed : ℚ
  parentData : List (SpeedupData × ℕ × ℕ)
  spent : Bool
  deriving DecidableEq, Repr

/-- True once an RBF replacement of this speedup was dispatched. -/
def SpeedupContext.isBeingReplaced (context : SpeedupContext) : Bool := context.replacedBy.isSome

/-- The two kinds of fee-bumping transactions. -/
inductive SpeedupKind where
  | cpfp (parents : List Txid) (context : SpeedupContext)
  | rbf (replaces : Txid) (newFundingInputs : List Utxo) (context : SpeedupContext)
  deriving DecidableEq, Repr

/-- What a tracked transaction is to the coordinator. -/
inductive TxKind where
  | normal
  | needsSpeedup (data : SpeedupData)
  | speedup (kind : SpeedupKind)
  deriving DecidableEq, Repr

/-- The coordinator's record of one transaction. -/
structure CoordinatedTx where
  txid : Txid
  tx : Transaction
  kind : TxKind
  state : TransactionState
  targetBlockHeight : BlockHeight
  confirmationTrigger : Option ℕ
  stuckInMempoolBlocks : Option ℕ
  settledBlockHeight : Option BlockHeight
  broadcastBlockHeight : Option BlockHeight
  failGuardUntil : Option BlockHeight
  retryCount : ℕ
  feeInfo : FeeInfo
  context : String
  deriving DecidableEq, Repr

/-- A UTXO of the funding queue. -/
structure FundingData where
  utxo : Utxo
  spent : Bool
  fromSpeedup : Bool
  deriving DecidableEq, Repr

/-- Why a cancel request was refused for one transaction. -/
inductive CancelRefusal where
  | notFound
  | notCancellable (kind : TxKind)
  | alreadyDispatched (state : TransactionState)
  deriving DecidableEq, Repr

/-- Events published to the operator. -/
inductive CoordinatorNews where
  | txNotFound (txid : Txid)
  | invalidStateTransition (txid : Txid) (source target : TransactionState)
  | estimateFeerateTooHigh (estimatedFeeRate maxFeeRate : ℕ)
  | invalidFundingUtxo (amount minRequired : ℕ)
  | fundingNotAvailable
  | transactionStuckInMempool (txid : Txid) (context : String)
  | dispatchError (txid : Txid) (context : String)
  | transactionEvicted (txid : Txid) (context : String)
  | insufficientFunds (available required : ℕ)
  | speedupDispatchError (txid : Txid) (context : String)
  | maxFeeRateReached (txid : Txid) (effectiveFeeRate : ℕ) (context : String)
  | invalidCancel (txid : Txid) (reason : CancelRefusal)
  deriving DecidableEq, Repr

/-- Result of broadcasting one transaction. -/
inductive DispatchOutcome where
  | success
  | fatal (reason : String)
  | parentFailed (parent : Txid)
  | dispatchError (raw : String)
  deriving DecidableEq, Repr

/-- What a client asks the monitor to watch. -/
inductive TypesToMonitor where
  | transactions (txids : List Txid) (context : String) (confirmationTrigger : Option ℕ)
  | other (description : String)
  deriving DecidableEq, Repr

/-- Broken internal expectations, one for each message of the source. -/
inductive Violation where
  | expectedSpeedup (kind : TxKind) (txid : Txid)
  | expectedSpeedupMut (txid : Txid)
  | noOutputs (txid : Txid)
  | expectedTxid (expected found : Txid)
  | notInDispatchBatch (txid : Txid)
  deriving DecidableEq, Repr

/-- Errors returned by the public functions. -/
inductive BitcoinCoordinatorError where
  | invalidConfiguration (reason : String)
  | monitorError (reason : String)
  | storageBackendError (reason : String)
  | bitcoinClientError (reason : String)
  | protocolBuilderError (reason : String)
  | keyManagerError (reason : String)
  | internal (reason : String)
  | invariantViolation (violation : Violation)
  deriving DecidableEq, Repr

/-- Why a call ended without completing: an error it returned, an index out of range, or a loop
that does not end within the rounds it is observed for. -/
inductive Stop where
  | error (error : BitcoinCoordinatorError)
  | panic
  | unfinished
  deriving DecidableEq, Repr

end BitcoinCoordinator
