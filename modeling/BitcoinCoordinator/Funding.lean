import BitcoinCoordinator.Storage

/-!
# The funding manager

The functions of `funding.rs`: which UTXO pays for the next speedup, and how it is reserved and
released.
-/

namespace BitcoinCoordinator

open Foundation

/-- The news published for a UTXO below the accepted amount. -/
def FundingSettings.check (cfg : FundingSettings) (utxo : Utxo) : Option CoordinatorNews :=
  if utxo.amount < cfg.minFundingAmountSats then
    some (.invalidFundingUtxo utxo.amount cfg.minFundingAmountSats)
  else
    none

/-- Append a UTXO to the queue, or return why it is refused. -/
def setFunding (utxo : Utxo) : Coord (Option CoordinatorNews) := do
  let cfg ← settings
  match cfg.funding.check utxo with
  | some news => pure (some news)
  | none => do
    appendFunding utxo
    pure none

/-- The states in which a speedup's change can fund the next one. -/
def TransactionState.isOnChainSide : TransactionState → Bool
  | .inMempool => true
  | .confirmed => true
  | .finalized => true
  | _ => false

/-- Pass 1 of `get_funding`, over the speedups from the newest: the first one in the mempool or on
chain that is neither being replaced nor already spent. -/
def findChainTip (speedups : List CoordinatedTx) :
    List CoordinatedTx → Except Stop (Option CoordinatedTx)
  | [] => .ok none
  | tx :: older =>
    if tx.state.isOnChainSide then
      match tx.speedupKind with
      | .error e => .error (.error e)
      | .ok kind =>
        if tx.hasLiveReplacement speedups || kind.context.spent then
          findChainTip speedups older
        else
          .ok (some tx)
    else
      findChainTip speedups older

/-- Choose and reserve the primary funding input: the live chain tip, else the first unspent
record of the queue. The flag tells whether the choice is speedup-derived. -/
def getFunding (speedups : List CoordinatedTx) : Coord (Option (Utxo × Bool)) := do
  let tip ← Prog.ofExcept (findChainTip speedups speedups.reverse)
  match tip with
  | some tx => do
    let utxo ← Prog.ofExcept tx.speedupChangeUtxo
    setSpent utxo.outPoint true
    pure (some (utxo, true))
  | none => do
    let records ← readFundingRecords
    match records.find? (fun record => !record.spent) with
    | some record => do
      setSpent record.utxo.outPoint true
      pure (some (record.utxo, record.fromSpeedup))
    | none => pure none

/-- Choose and reserve a second funding input: the first unspent user-provided record. -/
def getCombineFunding : Coord (Option Utxo) := do
  let records ← readFundingRecords
  match records.find? (fun record => !record.fromSpeedup && !record.spent) with
  | some record => do
    setSpent record.utxo.outPoint true
    pure (some record.utxo)
  | none => pure none

/-- Clear the reservation of each UTXO. -/
def releaseMarks (utxos : List Utxo) : Coord Unit :=
  Prog.forEach utxos fun u => setSpent u.outPoint false

/-- Clear the reservation of every funding input of a speedup. -/
def markParentsUnspent (tx : CoordinatedTx) : Coord Unit := do
  let kind ← Prog.ofExcept (tx.speedupKind.mapError Stop.error)
  releaseMarks kind.context.fundingInputs

/-- Swap a finalized speedup's change into the queue. -/
def replaceOnFinalize (txid : Txid) : Coord Unit := replaceFundingOnFinalize txid

end BitcoinCoordinator
