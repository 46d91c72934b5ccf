import BitcoinCoordinator.TransactionEngine

/-!
# The speedup engine

Steps 2, 4, 5 and 6 of a tick, from `engines/speedup_engine.rs`: the review and the dispatch of the
speedups, the boost of a stale tip, and the CPFP of the next batch of pending parents.
-/

namespace BitcoinCoordinator

open Foundation

/-! ### Review -/

/-- Settle the replaced transactions one after the other, with a bound on their number. -/
def removeReplacedFrom (context : String) (currentHeight : BlockHeight) : ℕ → Txid → Coord Unit
  | 0, _ => Prog.stop .unfinished
  | bound + 1, currentId => do
    let found ← getTxById currentId
    monitorCancel (.transactions [currentId] context none)
    settleTx currentId .failed currentHeight
    match found.bind CoordinatedTx.replaces? with
    | some older => removeReplacedFrom context currentHeight bound older
    | none => pure ()

/-- Stop watching what a finalized RBF replaced and settle it as failed. A chain of distinct
tracked predecessors ends within the number of records and one untracked predecessor. -/
def removeReplacedRbf (tx : CoordinatedTx) (currentHeight : BlockHeight) : Coord Unit :=
  match tx.replaces? with
  | none => pure ()
  | some replaces => do
    let tracked ← readStore fun s => s.txs.values.length
    removeReplacedFrom tx.context currentHeight (tracked + 1) replaces

/-- Settle a finalized speedup: its record, what it replaced, and its funding. -/
def finalizeSpeedup (tx : CoordinatedTx) (currentHeight : BlockHeight) : Coord Unit := do
  markFinalized tx.txid currentHeight
  removeReplacedRbf tx currentHeight
  replaceOnFinalize tx.txid

/-- Update one speedup from its chain status. A replaced speedup that vanished is left alone. -/
def reviewSpeedup (allSpeedups : List CoordinatedTx) (currentHeight : BlockHeight)
    (tx : CoordinatedTx) : Coord Unit := do
  let cfg ← settings
  let maxConfs := cfg.monitor.maxMonitoringConfirmations
  let status ← getTxStatus tx.txid true
  if status.isInMempool then
    if tx.state = .confirmed then markReorg tx currentHeight else pure ()
  else if status.isNotFound then do
    note fun _ => .notFound tx.txid currentHeight
    if tx.hasLiveReplacement allSpeedups then pure ()
    else requeueNotFound tx.txid (currentHeight + maxConfs)
  else if status.isFinalized maxConfs then
    finalizeSpeedup tx currentHeight
  else if status.isConfirmed then
    markConfirmed tx.txid
  else if status.isOrphan then
    markOrphan tx.txid
  else
    pure ()

/-- True for the speedups step 2 reviews. -/
def CoordinatedTx.isInFlight (tx : CoordinatedTx) : Bool :=
  decide (tx.state = .inMempool) || decide (tx.state = .confirmed)

/-- Step 2 of a tick: review the speedups in flight, as they were when the step began. -/
def reviewSpeedups : Coord Unit := do
  let currentHeight ← getMonitorHeight
  let allSpeedups ← getSpeedupsOrdered
  Prog.forEach (allSpeedups.filter CoordinatedTx.isInFlight)
    (reviewSpeedup allSpeedups currentHeight)

/-! ### Dispatch -/

/-- Handle one outcome of a batch of speedups. -/
def handleSpeedupResult (dispatchable : List CoordinatedTx) (currentHeight : BlockHeight)
    (result : Txid × DispatchOutcome) : Coord Unit :=
  match dispatchable.find? fun tx => tx.txid = result.1 with
  | some tx => handleDispatchResult tx result.1 result.2 currentHeight tx.feeInfo
  | none => pure ()

/-- True when the record is a boost. -/
def CoordinatedTx.isBoost (tx : CoordinatedTx) : Bool :=
  match tx.speedup? with
  | some kind => kind.isBoost
  | none => false

/-- Broadcast a batch of speedups, handle the outcomes in order, and tell whether a boost of the
batch is failed now. -/
def dispatchSpeedupBatch (dispatchable : List CoordinatedTx) (currentHeight : BlockHeight) :
    Coord Bool := do
  let results ← dispatch dispatchable
  Prog.forEach results (handleSpeedupResult dispatchable currentHeight)
  readStore fun s =>
    (dispatchable.filter CoordinatedTx.isBoost).any fun tx => s.isTxFailed tx.txid

/-- Step 4 of a tick: broadcast the speedups waiting for dispatch. -/
def dispatchPendingSpeedups : Coord Bool := do
  let currentHeight ← getMonitorHeight
  let allSpeedups ← getSpeedupsOrdered
  match allSpeedups.filter fun tx => decide (tx.state = .toDispatch) with
  | [] => pure false
  | tx :: rest => do
    let dispatchable ← applyRetryRateLimit (tx :: rest)
    match dispatchable with
    | [] => pure false
    | tx :: rest => dispatchSpeedupBatch (tx :: rest) currentHeight

/-! ### Building -/

/-- A built speedup with what was paid for it. -/
structure SpeedupBuildResult where
  tx : Transaction
  fee : ℕ
  capped : Bool
  fundingInputs : List Utxo

/-- Publish that the funding does not cover the fee. -/
def emitInsufficientFunds (available required : ℕ) : Coord Unit := do
  let _ ← addNews (.insufficientFunds available required)
  pure ()

/-- Publish that there is no funding. -/
def emitFundingNotAvailable : Coord Unit := do
  let _ ← addNews .fundingNotAvailable
  pure ()

/-- Have a speedup built and signed. The change goes to the key of the first funding input. -/
def speedupTransactions (data : List SpeedupData) (fundingInputs : List Utxo) (fee : ℕ) :
    Coord Transaction :=
  match fundingInputs with
  | [] => Prog.stop .panic
  | first :: _ =>
    query .protocolBuilderError fun answers n =>
      answers.speedupTransactions n data fundingInputs first.pubKey fee

/-- What a build keeps fixed over its rounds. -/
structure BuildPlan where
  parentEntries : List (SpeedupData × ℕ)
  bumpFee : ℚ
  feeRate : ℕ
  isRbf : Bool
  chainDiffFee : ℕ
  inheritedCount : ℕ
  primaryIsSpeedup : Bool

/-- The pricing of a round that sizes the child. -/
def BuildPlan.pricing (plan : BuildPlan) (childVsize : ℕ) : Pricing where
  parentVsizes := plan.parentEntries.map Prod.snd
  childVsize := childVsize
  bumpFee := plan.bumpFee
  feeRate := plan.feeRate
  isRbf := plan.isRbf
  chainDiffFee := plan.chainDiffFee

/-- A second funding input, possible only beside a single speedup-derived one. -/
def combineInput (plan : BuildPlan) (fundingInputs : List Utxo) : Coord (Option Utxo) :=
  if fundingInputs.length = 1 ∧ plan.primaryIsSpeedup then getCombineFunding else pure none

/-- Give up a build for lack of funds: release what it marked and publish the shortfall. -/
def abandonBuild (plan : BuildPlan) (fundingInputs : List Utxo) (available required : ℕ) :
    Coord Unit := do
  releaseMarks (fundingInputs.drop plan.inheritedCount)
  emitInsufficientFunds available required

/-- The fee loop: size the speedup, price it, add a second input when the first does not cover the
fee, and accept the signed transaction once it is no larger than the size it was priced at. -/
def buildRound (plan : BuildPlan) :
    ℕ → List Utxo → ℕ → Coord (Option SpeedupBuildResult)
  | 0, _, _ => Prog.stop .unfinished
  | rounds + 1, fundingInputs, childVsize => do
    let cfg ← settings
    let maxDustLimit ← Prog.ask fun ctx => ctx.answers.maxDustLimit
    let available := (fundingInputs.map Utxo.amount).sum
    let data := plan.parentEntries.map Prod.fst
    let dummy ← speedupTransactions data fundingInputs 1
    let pricing := plan.pricing (if childVsize = 0 then dummy.vsize else childVsize)
    let priced := cfg.fee.price pricing
    if available - priced.1 < maxDustLimit then do
      let extra ← combineInput plan fundingInputs
      match extra with
      | some extra => buildRound plan rounds (fundingInputs ++ [extra]) 0
      | none => do
        abandonBuild plan fundingInputs available (priced.1 + maxDustLimit)
        pure none
    else do
      let final ← speedupTransactions data fundingInputs priced.1
      if final.vsize ≤ pricing.childVsize then do
        note fun _ => .signed pricing final.vsize
        pure (some ⟨final, priced.1, priced.2, fundingInputs⟩)
      else
        buildRound plan rounds fundingInputs final.vsize

/-- Start the fee loop with the given inputs. -/
def buildWith (plan : BuildPlan) (fundingInputs : List Utxo) :
    Coord (Option SpeedupBuildResult) := do
  let rounds ← Prog.ask fun ctx => ctx.answers.buildRounds
  buildRound plan rounds fundingInputs 0

/-- Build a speedup. Without initial inputs it is a CPFP, which takes its primary input from the
funding manager; with initial inputs it is an RBF, which reuses its predecessor's. -/
def buildSpeedup (parentEntries : List (SpeedupData × ℕ)) (rbfInitialInputs : Option (List Utxo))
    (bumpFee : ℚ) (feeRate chainDiffFee : ℕ) : Coord (Option SpeedupBuildResult) :=
  match rbfInitialInputs with
  | some inputs => do
    let primaryIsSpeedup ← readStore fun s =>
      inputs.head?.any fun fi => s.isSpeedupDerived fi.outPoint
    buildWith ⟨parentEntries, bumpFee, feeRate, true, chainDiffFee, inputs.length,
      primaryIsSpeedup⟩ inputs
  | none => do
    let allSpeedups ← getSpeedupsOrdered
    let funding ← getFunding allSpeedups
    match funding with
    | some (utxo, isSpeedup) =>
      buildWith ⟨parentEntries, bumpFee, feeRate, false, chainDiffFee, 0, isSpeedup⟩ [utxo]
    | none => do
      emitFundingNotAvailable
      pure none

/-- The amount of the output a parent's metadata names. -/
def amountFromSpeedupData (data : SpeedupData) : ℕ :=
  ((data.utxo.map Utxo.amount).or (data.partialUtxo.map fun p => p.2.2)).getD 0

/-- The context of a freshly built speedup. -/
def makeSpeedupContext (fundingInputs : List Utxo) (bumpFee : ℚ)
    (parentEntries : List (SpeedupData × ℕ)) : SpeedupContext where
  fundingInputs := fundingInputs
  replacedBy := none
  bumpFeeUsed := bumpFee
  parentData := parentEntries.map fun p => (p.1, amountFromSpeedupData p.1, p.2)
  spent := false

/-- The context string of a speedup. -/
def ctxForKind (kind : SpeedupKind) : String :=
  if kind.isRbf then rbfTransactionContext else cpfpTransactionContext

/-- The record a speedup is first stored as. -/
def speedupRecord (tx : Transaction) (feeInfo : FeeInfo) (kind : SpeedupKind)
    (currentHeight : BlockHeight) : CoordinatedTx where
  txid := tx.computeTxid
  tx := tx
  kind := .speedup kind
  state := .toDispatch
  targetBlockHeight := currentHeight
  confirmationTrigger := none
  stuckInMempoolBlocks := none
  settledBlockHeight := none
  broadcastBlockHeight := none
  failGuardUntil := none
  retryCount := 0
  feeInfo := feeInfo
  context := ctxForKind kind

/-- Persist a freshly built speedup and register it with the monitor. -/
def saveSpeedup (tx : Transaction) (feeInfo : FeeInfo) (kind : SpeedupKind)
    (currentHeight : BlockHeight) : Coord Unit := do
  insertSpeedup (speedupRecord tx feeInfo kind currentHeight)
  monitorWatch (.transactions [tx.computeTxid] (ctxForKind kind) none) false

/-- True when a speedup is in the mempool and not being replaced. -/
def isLiveInMempool (allSpeedups : List CoordinatedTx) (tx : CoordinatedTx) : Bool :=
  decide (tx.state = .inMempool) && !tx.hasLiveReplacement allSpeedups

/-! ### Boost -/

/-- What `boost_if_stale` decided to build: a replacement of its predecessor, or a child of it. -/
structure BoostPlan where
  last : CoordinatedTx
  context : SpeedupContext
  useRbf : Bool

/-- The parents a boost credits: inherited by an RBF, none for a CPFP. -/
def BoostPlan.parentEntries (plan : BoostPlan) : List (SpeedupData × ℕ) :=
  if plan.useRbf then plan.context.parentData.map fun p => (p.1, p.2.2) else []

/-- The inputs an RBF starts from. -/
def BoostPlan.rbfInitialInputs (plan : BoostPlan) : Option (List Utxo) :=
  if plan.useRbf then some plan.context.fundingInputs else none

/-- How many of the inputs are inherited. -/
def BoostPlan.rbfInheritedCount (plan : BoostPlan) : ℕ :=
  if plan.useRbf then plan.context.fundingInputs.length else 0

/-- The kind of the boost once its inputs and context are known. -/
def BoostPlan.kind (plan : BoostPlan) (fundingInputs : List Utxo) (context : SpeedupContext) :
    SpeedupKind :=
  if plan.useRbf then
    .rbf plan.last.txid (fundingInputs.drop plan.rbfInheritedCount) context
  else
    .cpfp [plan.last.txid] context

/-- Decide whether and how to boost: no speedup waits for dispatch, and the latest live speedup has
waited long enough below the maximum rate. A full mempool chain is boosted by an RBF. -/
def planBoost (cfg : BitcoinSettings) (allSpeedups : List CoordinatedTx)
    (currentHeight : BlockHeight) : Option BoostPlan :=
  if allSpeedups.any fun tx => decide (tx.state = .toDispatch) then
    none
  else
    match allSpeedups.reverse.find? (isLiveInMempool allSpeedups) with
    | none => none
    | some last =>
      match last.broadcastBlockHeight with
      | none => none
      | some broadcastHeight =>
        if currentHeight - broadcastHeight < cfg.speedup.minBlocksBeforeResendSpeedup then
          none
        else if cfg.fee.maxFeerateSatVb ≤ last.feeInfo.packageFeeRate then
          none
        else
          match last.speedup? with
          | none => none
          | some kind =>
            some ⟨last, kind.context, decide (cfg.speedup.maxUnconfirmedSpeedups ≤
              (allSpeedups.filter (isLiveInMempool allSpeedups)).length)⟩

/-- Record that the predecessor of a capped RBF already pays the maximum rate. -/
def markPredecessorAtCap (txid : Txid) (maxFeerate : ℕ) : Coord Unit := do
  let found ← getTxById txid
  match found with
  | some predecessor =>
    updateTx { predecessor with
      feeInfo := { predecessor.feeInfo with packageFeeRate := maxFeerate } }
  | none => pure ()

/-- Publish that a capped speedup reached the maximum rate. -/
def reportIfCapped (capped : Bool) (txid : Txid) (rate : ℕ) (context : String) : Coord Unit :=
  if capped then do
    let _ ← addNews (.maxFeeRateReached txid rate context)
    pure ()
  else
    pure ()

/-- Persist a built boost and, when it is capped, publish it and mark the predecessor of an RBF. -/
def saveBoost (plan : BoostPlan) (nextBump : ℚ) (built : SpeedupBuildResult)
    (currentHeight : BlockHeight) : Coord Unit := do
  let cfg ← settings
  let context := makeSpeedupContext built.fundingInputs nextBump plan.parentEntries
  let feeInfo := feeInfoForPaidSpeedup built.tx built.fee (plan.parentEntries.map Prod.snd).sum
  let kind := plan.kind built.fundingInputs context
  saveSpeedup built.tx feeInfo kind currentHeight
  reportIfCapped built.capped built.tx.computeTxid feeInfo.packageFeeRate (ctxForKind kind)
  if built.capped && plan.useRbf then
    markPredecessorAtCap plan.last.txid cfg.fee.maxFeerateSatVb
  else
    pure ()

/-- Build the planned boost at a rate above its predecessor's and save it. -/
def runBoost (plan : BoostPlan) (allSpeedups : List CoordinatedTx)
    (currentHeight : BlockHeight) : Coord Unit := do
  let cfg ← settings
  let (networkFeeRate, feeNews) ← getNetworkFeeRate
  publishFeeNews feeNews
  let feeRate := boostFeeRate networkFeeRate plan.last.feeInfo.packageFeeRate
  let nextBump := plan.context.bumpFeeUsed * cfg.speedup.bumpFeePercentage
  let unconfirmed := allSpeedups.filter (isLiveInMempool allSpeedups)
  let built ← buildSpeedup plan.parentEntries plan.rbfInitialInputs nextBump feeRate
    (chainFeeDiff feeRate unconfirmed).1
  match built with
  | none => pure ()
  | some built => saveBoost plan nextBump built currentHeight

/-- Step 5 of a tick: boost the latest live speedup if it is stale. -/
def boostIfStale (skipBoost : Bool) : Coord Unit :=
  if skipBoost then
    pure ()
  else do
    let cfg ← settings
    let currentHeight ← getMonitorHeight
    let allSpeedups ← getSpeedupsOrdered
    match planBoost cfg allSpeedups currentHeight with
    | none => pure ()
    | some plan => do
      note (.planned plan.last.txid)
      runBoost plan allSpeedups currentHeight

/-! ### CPFP batch -/

/-- The metadata and size of each parent of a batch. -/
def parentEntriesOf (batch : List CoordinatedTx) : List (SpeedupData × ℕ) :=
  batch.filterMap fun parent =>
    match parent.kind with
    | .needsSpeedup data => some (data, parent.tx.vsize)
    | _ => none

/-- Take the covered parents off the pending list. -/
def takePendingParent (parent : CoordinatedTx) : Coord Unit := do
  removePendingSpeedupParent parent.txid
  note fun _ => .taken parent.txid

/-- Persist the CPFP built for a batch. -/
def saveCpfpBatch (batch : List CoordinatedTx) (bumpFee : ℚ) (built : SpeedupBuildResult) :
    Coord Unit := do
  Prog.forEach batch takePendingParent
  let entries := parentEntriesOf batch
  let context := makeSpeedupContext built.fundingInputs bumpFee entries
  let feeInfo := feeInfoForPaidSpeedup built.tx built.fee (entries.map Prod.snd).sum
  let kind := SpeedupKind.cpfp (batch.map CoordinatedTx.txid) context
  reportIfCapped built.capped built.tx.computeTxid feeInfo.packageFeeRate (ctxForKind kind)
  let currentHeight ← getMonitorHeight
  saveSpeedup built.tx feeInfo kind currentHeight

/-- Build one CPFP for a batch of parents and save it. -/
def runCpfpBatch (parents unconfirmed : List CoordinatedTx) : Coord Unit := do
  let cfg ← settings
  let (feeRate, feeNews) ← getNetworkFeeRate
  publishFeeNews feeNews
  match (cfg.dispatcher.batchByWeight parents 1).getLast? with
  | none => pure ()
  | some batch =>
    if parentEntriesOf batch = [] then
      pure ()
    else do
      let built ← buildSpeedup (parentEntriesOf batch) none cfg.fee.baseFeeMultiplier feeRate
        (chainFeeDiff feeRate unconfirmed).1
      match built with
      | none => pure ()
      | some built => saveCpfpBatch batch cfg.fee.baseFeeMultiplier built

/-- Step 6 of a tick: build one CPFP for the next batch of pending parents, unless a speedup waits
for dispatch or no slot is free. -/
def createCpfpBatch : Coord Unit := do
  let cfg ← settings
  let parents ← getPendingSpeedupParents
  let allSpeedups ← getSpeedupsOrdered
  let unconfirmed := allSpeedups.filter (isLiveInMempool allSpeedups)
  if parents = [] ∨ (allSpeedups.any fun tx => decide (tx.state = .toDispatch)) ∨
      cfg.speedup.maxUnconfirmedSpeedups ≤ unconfirmed.length then
    pure ()
  else
    runCpfpBatch parents unconfirmed

end BitcoinCoordinator
