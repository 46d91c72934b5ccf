import BitcoinCoordinator.BuildResults
import BitcoinCoordinator.Foundation.Located

/-!
# Builds that stop half-way

Whether a build that stops leaves something half reserved depends on where it stops: which of its questions
is refused, whether it replaces a speedup or takes the primary input, and whether it took a second input. The
two building steps are written down once more with these places. What a place says of the reservations is
then read off the store before the call: the inputs claimed on the way to it, and how many of them were
released.
-/

namespace BitcoinCoordinator

open Foundation

/-- How a build came by its inputs: it replaces a speedup and inherits them, or it takes the primary input;
and it took a second input beside them or not. -/
structure BuildPath where
  rbf : Bool
  combined : Bool
  deriving DecidableEq

/-- Where a building step stops. The question that is refused comes before any input is claimed, while the
speedup is priced and signed, after so many of the claimed inputs were released, before the speedup is stored
and after so many parents were taken, between its record and its entry in the list, or after both. -/
inductive StopPoint where
  | preparing
  | pricing (path : BuildPath)
  | releasing (path : BuildPath) (freed : ℕ)
  | saving (path : BuildPath) (taken : ℕ)
  | listing (path : BuildPath) (taken : ℕ) (txid : Txid)
  | finishing
  deriving DecidableEq

/-- The inputs that a build on a store claims along a path. -/
def Store.claims (s : Store) (path : BuildPath) : List OutPoint :=
  let primary := if path.rbf then [] else (s.primaryInput?.map Utxo.outPoint).toList
  let extra := (s.setAllSpent primary true).combineRecord?.map fun record => record.utxo.outPoint
  if path.combined then primary ++ extra.toList else primary

/-- An output that was reserved already, or keeps no reservation. -/
def Store.StaysReserved (s : Store) (op : OutPoint) : Prop := s.flag (s.flagOf op) ≠ some false

/-- An output that was free already, or keeps no reservation. -/
def Store.StaysFree (s : Store) (op : OutPoint) : Prop := s.flag (s.flagOf op) ≠ some true

/-- What must hold of the store before the call for a stop at the place to leave nothing half reserved: the
claimed inputs that were not released were reserved already, the released ones were free, no parent was
taken, and a stored speedup that is not listed did not overwrite a reserved one. -/
def StopPoint.IsClean (s : Store) : StopPoint → Prop
  | .preparing => True
  | .pricing path => ∀ op ∈ s.claims path, s.StaysReserved op
  | .releasing path freed =>
    (∀ op ∈ (s.claims path).take freed, s.StaysFree op) ∧
      ∀ op ∈ s.claims path, (∀ op' ∈ (s.claims path).take freed, s.flagOf op' ≠ s.flagOf op) →
        s.StaysReserved op
  | .saving path taken => taken = 0 ∧ ∀ op ∈ s.claims path, s.StaysReserved op
  | .listing path taken txid =>
    taken = 0 ∧ s.flag (.change txid) ≠ some true ∧
      ∀ op ∈ s.claims path, s.flagOf op ≠ .change txid → s.StaysReserved op
  | .finishing => True

/-! ### The building steps with their places -/

/-- A computation that tells where it stops. -/
abbrev Located (α : Type) : Type := Prog Ctx StopPoint World α

/-- `releaseMarks`, after so many inputs were released. -/
def releaseMarksAt (path : BuildPath) : ℕ → List Utxo → Located Unit
  | _, [] => pure ()
  | freed, u :: rest => do
    (setSpent u.outPoint false).stopsAt (.releasing path freed)
    releaseMarksAt path (freed + 1) rest

/-- `abandonBuild` with its places. -/
def abandonBuildAt (path : BuildPath) (plan : BuildPlan) (fundingInputs : List Utxo)
    (available required : ℕ) : Located Unit := do
  let claimed := fundingInputs.drop plan.inheritedCount
  releaseMarksAt path 0 claimed
  (emitInsufficientFunds available required).stopsAt (.releasing path claimed.length)

/-- `buildRound` with its places; it returns the path with the speedup. -/
def buildRoundAt (plan : BuildPlan) : BuildPath →
    ℕ → List Utxo → ℕ → Located (Option (SpeedupBuildResult × BuildPath))
  | path, 0, _, _ => Prog.stop (.pricing path)
  | path, rounds + 1, fundingInputs, childVsize => do
    let cfg ← settings.stopsAt (.pricing path)
    let maxDustLimit ← (Prog.ask fun ctx => ctx.answers.maxDustLimit : Coord ℕ).stopsAt (.pricing path)
    let available := (fundingInputs.map Utxo.amount).sum
    let data := plan.parentEntries.map Prod.fst
    let dummy ← (speedupTransactions data fundingInputs 1).stopsAt (.pricing path)
    let pricing := plan.pricing (if childVsize = 0 then dummy.vsize else childVsize)
    let priced := cfg.fee.price pricing
    if available - priced.1 < maxDustLimit then do
      let extra ← (combineInput plan fundingInputs).stopsAt (.pricing path)
      match extra with
      | some extra => buildRoundAt plan { path with combined := true } rounds (fundingInputs ++ [extra]) 0
      | none => do
        abandonBuildAt path plan fundingInputs available (priced.1 + maxDustLimit)
        pure none
    else do
      let final ← (speedupTransactions data fundingInputs priced.1).stopsAt (.pricing path)
      if final.vsize ≤ pricing.childVsize then do
        (note fun _ => .signed pricing final.vsize).stopsAt (.pricing path)
        pure (some (⟨final, priced.1, priced.2, fundingInputs⟩, path))
      else
        buildRoundAt plan path rounds fundingInputs final.vsize

/-- `buildWith` with its places. -/
def buildWithAt (plan : BuildPlan) (fundingInputs : List Utxo) :
    Located (Option (SpeedupBuildResult × BuildPath)) := do
  let rounds ← (Prog.ask fun ctx => ctx.answers.buildRounds : Coord ℕ).stopsAt (.pricing ⟨plan.isRbf, false⟩)
  buildRoundAt plan ⟨plan.isRbf, false⟩ rounds fundingInputs 0

/-- `buildSpeedup` with its places. -/
def buildSpeedupAt (parentEntries : List (SpeedupData × ℕ)) (rbfInitialInputs : Option (List Utxo))
    (bumpFee : ℚ) (feeRate chainDiffFee : ℕ) : Located (Option (SpeedupBuildResult × BuildPath)) :=
  match rbfInitialInputs with
  | some inputs => do
    let primaryIsSpeedup ← (readStore fun s =>
      inputs.head?.any fun fi => s.isSpeedupDerived fi.outPoint).stopsAt .preparing
    buildWithAt ⟨parentEntries, bumpFee, feeRate, true, chainDiffFee, inputs.length,
      primaryIsSpeedup⟩ inputs
  | none => do
    let allSpeedups ← getSpeedupsOrdered.stopsAt .preparing
    let funding ← (getFunding allSpeedups).stopsAt .preparing
    match funding with
    | some (utxo, isSpeedup) =>
      buildWithAt ⟨parentEntries, bumpFee, feeRate, false, chainDiffFee, 0, isSpeedup⟩ [utxo]
    | none => do
      emitFundingNotAvailable.stopsAt .preparing
      pure none

/-- `insertSpeedup` with its places. -/
def insertSpeedupAt (path : BuildPath) (taken : ℕ) (tx : CoordinatedTx) : Located Unit := do
  (putTx (.inserted tx) tx).stopsAt (.saving path taken)
  (appendToSpeedupList tx.txid).stopsAt (.listing path taken tx.txid)
  (note fun _ => .recorded tx.txid).stopsAt .finishing

/-- `saveSpeedup` with its places. -/
def saveSpeedupAt (path : BuildPath) (taken : ℕ) (tx : Transaction) (feeInfo : FeeInfo)
    (kind : SpeedupKind) (currentHeight : BlockHeight) : Located Unit := do
  insertSpeedupAt path taken (speedupRecord tx feeInfo kind currentHeight)
  (monitorWatch (.transactions [tx.computeTxid] (ctxForKind kind) none) false).stopsAt .finishing

/-- `saveBoost` with its places. -/
def saveBoostAt (path : BuildPath) (plan : BoostPlan) (nextBump : ℚ) (built : SpeedupBuildResult)
    (currentHeight : BlockHeight) : Located Unit := do
  let cfg ← settings.stopsAt (.saving path 0)
  let context := makeSpeedupContext built.fundingInputs nextBump plan.parentEntries
  let feeInfo := feeInfoForPaidSpeedup built.tx built.fee (plan.parentEntries.map Prod.snd).sum
  let kind := plan.kind built.fundingInputs context
  saveSpeedupAt path 0 built.tx feeInfo kind currentHeight
  (reportIfCapped built.capped built.tx.computeTxid feeInfo.packageFeeRate (ctxForKind kind)).stopsAt
    .finishing
  if built.capped && plan.useRbf then
    (markPredecessorAtCap plan.last.txid cfg.fee.maxFeerateSatVb).stopsAt .finishing
  else
    pure ()

/-- `runBoost` with its places. -/
def runBoostAt (plan : BoostPlan) (allSpeedups : List CoordinatedTx) (currentHeight : BlockHeight) :
    Located Unit := do
  let cfg ← settings.stopsAt .preparing
  let (networkFeeRate, feeNews) ← getNetworkFeeRate.stopsAt .preparing
  (publishFeeNews feeNews).stopsAt .preparing
  let feeRate := boostFeeRate networkFeeRate plan.last.feeInfo.packageFeeRate
  let nextBump := plan.context.bumpFeeUsed * cfg.speedup.bumpFeePercentage
  let unconfirmed := allSpeedups.filter (isLiveInMempool allSpeedups)
  let built ← buildSpeedupAt plan.parentEntries plan.rbfInitialInputs nextBump feeRate
    (chainFeeDiff feeRate unconfirmed).1
  match built with
  | none => pure ()
  | some (built, path) => saveBoostAt path plan nextBump built currentHeight

/-- `boostIfStale` with its places. -/
def boostIfStaleAt (skipBoost : Bool) : Located Unit :=
  if skipBoost then
    pure ()
  else do
    let cfg ← settings.stopsAt .preparing
    let currentHeight ← getMonitorHeight.stopsAt .preparing
    let allSpeedups ← getSpeedupsOrdered.stopsAt .preparing
    match planBoost cfg allSpeedups currentHeight with
    | none => pure ()
    | some plan => do
      (note (.planned plan.last.txid)).stopsAt .preparing
      runBoostAt plan allSpeedups currentHeight

/-- Take the covered parents off the pending list, after so many were taken. -/
def takePendingParentsAt (path : BuildPath) : ℕ → List CoordinatedTx → Located Unit
  | _, [] => pure ()
  | taken, parent :: rest => do
    (takePendingParent parent).stopsAt (.saving path taken)
    takePendingParentsAt path (taken + 1) rest

/-- `saveCpfpBatch` with its places. -/
def saveCpfpBatchAt (path : BuildPath) (batch : List CoordinatedTx) (bumpFee : ℚ)
    (built : SpeedupBuildResult) : Located Unit := do
  takePendingParentsAt path 0 batch
  let entries := parentEntriesOf batch
  let context := makeSpeedupContext built.fundingInputs bumpFee entries
  let feeInfo := feeInfoForPaidSpeedup built.tx built.fee (entries.map Prod.snd).sum
  let kind := SpeedupKind.cpfp (batch.map CoordinatedTx.txid) context
  (reportIfCapped built.capped built.tx.computeTxid feeInfo.packageFeeRate (ctxForKind kind)).stopsAt
    (.saving path batch.length)
  let currentHeight ← getMonitorHeight.stopsAt (.saving path batch.length)
  saveSpeedupAt path batch.length built.tx feeInfo kind currentHeight

/-- `runCpfpBatch` with its places. -/
def runCpfpBatchAt (parents unconfirmed : List CoordinatedTx) : Located Unit := do
  let cfg ← settings.stopsAt .preparing
  let (feeRate, feeNews) ← getNetworkFeeRate.stopsAt .preparing
  (publishFeeNews feeNews).stopsAt .preparing
  match (cfg.dispatcher.batchByWeight parents 1).getLast? with
  | none => pure ()
  | some batch =>
    if parentEntriesOf batch = [] then
      pure ()
    else do
      let built ← buildSpeedupAt (parentEntriesOf batch) none cfg.fee.baseFeeMultiplier feeRate
        (chainFeeDiff feeRate unconfirmed).1
      match built with
      | none => pure ()
      | some (built, path) => saveCpfpBatchAt path batch cfg.fee.baseFeeMultiplier built

/-- `createCpfpBatch` with its places. -/
def createCpfpBatchAt : Located Unit := do
  let cfg ← settings.stopsAt .preparing
  let parents ← getPendingSpeedupParents.stopsAt .preparing
  let allSpeedups ← getSpeedupsOrdered.stopsAt .preparing
  let unconfirmed := allSpeedups.filter (isLiveInMempool allSpeedups)
  if parents = [] ∨ (allSpeedups.any fun tx => decide (tx.state = .toDispatch)) ∨
      cfg.speedup.maxUnconfirmedSpeedups ≤ unconfirmed.length then
    pure ()
  else
    runCpfpBatchAt parents unconfirmed

/-- Carry out a building step with its places. -/
def BuildStep.runAt : BuildStep → Located Unit
  | .boost skipBoost => boostIfStaleAt skipBoost
  | .batch => createCpfpBatchAt

/-- Where a building step stops on a world, if it does. -/
def BuildStep.stopPoint (step : BuildStep) (ctx : Ctx) (w : World) : Option StopPoint :=
  match (step.runAt ctx w).1 with
  | .ok _ => none
  | .error place => some place

/-! ### The places erased -/

variable {ctx : Ctx} {w w' : World} {s : Store}

/-- Releasing inputs. -/
theorem releaseMarksAt_locates (path : BuildPath) (freed : ℕ) (utxos : List Utxo) :
    Prog.Locates Eq (releaseMarksAt path freed utxos) (releaseMarks utxos) := by
  induction utxos generalizing freed with
  | nil => exact Prog.Locates.pure rfl
  | cons u rest ih => exact Prog.Locates.seq (Prog.Locates.stopsAt _ _) fun _ => ih (freed + 1)

/-- Giving up. -/
theorem abandonBuildAt_locates (path : BuildPath) (plan : BuildPlan) (inputs : List Utxo)
    (available required : ℕ) : Prog.Locates Eq (abandonBuildAt path plan inputs available required)
      (abandonBuild plan inputs available required) :=
  Prog.Locates.seq (releaseMarksAt_locates _ _ _) fun _ => Prog.Locates.stopsAt _ _

/-- The fee loop, up to the path that it returns. The induction is on the rounds. -/
theorem buildRoundAt_locates (plan : BuildPlan) (path : BuildPath) (rounds : ℕ) (inputs : List Utxo)
    (childVsize : ℕ) :
    Prog.Locates (fun placed built => placed.map Prod.fst = built)
      (buildRoundAt plan path rounds inputs childVsize) (buildRound plan rounds inputs childVsize) := by
  induction rounds generalizing path inputs childVsize with
  | zero => exact Prog.Locates.stop _ _
  | succ rounds ih =>
    refine Prog.Locates.seq (Prog.Locates.stopsAt _ _) fun cfg => ?_
    refine Prog.Locates.seq (Prog.Locates.stopsAt _ _) fun maxDustLimit => ?_
    refine Prog.Locates.seq (Prog.Locates.stopsAt _ _) fun dummy => ?_
    apply Prog.Locates.ite <;> intro _
    · refine Prog.Locates.seq (Prog.Locates.stopsAt _ _) fun extra => ?_
      cases extra with
      | some extra => exact ih _ _ _
      | none => exact Prog.Locates.seq (abandonBuildAt_locates _ _ _ _ _) fun _ => Prog.Locates.pure rfl
    · refine Prog.Locates.seq (Prog.Locates.stopsAt _ _) fun final => ?_
      apply Prog.Locates.ite <;> intro _
      · exact Prog.Locates.seq (Prog.Locates.stopsAt _ _) fun _ => Prog.Locates.pure rfl
      · exact ih _ _ _

/-- A build, up to the path that it returns. -/
theorem buildSpeedupAt_locates (entries : List (SpeedupData × ℕ)) (initial : Option (List Utxo))
    (bumpFee : ℚ) (feeRate chainDiffFee : ℕ) :
    Prog.Locates (fun placed built => placed.map Prod.fst = built)
      (buildSpeedupAt entries initial bumpFee feeRate chainDiffFee)
      (buildSpeedup entries initial bumpFee feeRate chainDiffFee) := by
  have hwith : ∀ plan inputs, Prog.Locates (fun placed built => placed.map Prod.fst = built)
      (buildWithAt plan inputs) (buildWith plan inputs) := fun plan inputs =>
    Prog.Locates.seq (Prog.Locates.stopsAt _ _) fun rounds => buildRoundAt_locates _ _ _ _ _
  cases initial with
  | some inputs => exact Prog.Locates.seq (Prog.Locates.stopsAt _ _) fun _ => hwith _ _
  | none =>
    refine Prog.Locates.seq (Prog.Locates.stopsAt _ _) fun all => ?_
    refine Prog.Locates.seq (Prog.Locates.stopsAt _ _) fun funding => ?_
    cases funding with
    | some primary => exact hwith _ _
    | none => exact Prog.Locates.seq (Prog.Locates.stopsAt _ _) fun _ => Prog.Locates.pure rfl

/-- Storing a speedup. -/
theorem saveSpeedupAt_locates (path : BuildPath) (taken : ℕ) (tx : Transaction) (feeInfo : FeeInfo)
    (kind : SpeedupKind) (height : BlockHeight) :
    Prog.Locates Eq (saveSpeedupAt path taken tx feeInfo kind height)
      (saveSpeedup tx feeInfo kind height) := by
  have hinsert : ∀ tx, Prog.Locates Eq (insertSpeedupAt path taken tx) (insertSpeedup tx) := fun tx =>
    Prog.Locates.seq (Prog.Locates.stopsAt _ _) fun _ =>
      Prog.Locates.seq (Prog.Locates.stopsAt _ _) fun _ => Prog.Locates.stopsAt _ _
  exact Prog.Locates.seq (hinsert _) fun _ => Prog.Locates.stopsAt _ _

/-- Boosting. -/
theorem boostIfStaleAt_locates (skipBoost : Bool) :
    Prog.Locates Eq (boostIfStaleAt skipBoost) (boostIfStale skipBoost) := by
  have hsave : ∀ path plan bump built height,
      Prog.Locates Eq (saveBoostAt path plan bump built height) (saveBoost plan bump built height) := by
    intro path plan bump built height
    refine Prog.Locates.seq (Prog.Locates.stopsAt _ _) fun cfg => ?_
    refine Prog.Locates.seq (saveSpeedupAt_locates _ _ _ _ _ _) fun _ => ?_
    refine Prog.Locates.seq (Prog.Locates.stopsAt _ _) fun _ => ?_
    exact Prog.Locates.ite (fun _ => Prog.Locates.stopsAt _ _) fun _ => Prog.Locates.pure rfl
  have hboost : ∀ plan all height,
      Prog.Locates Eq (runBoostAt plan all height) (runBoost plan all height) := by
    intro plan all height
    refine Prog.Locates.seq (Prog.Locates.stopsAt _ _) fun cfg => ?_
    refine Prog.Locates.seq (Prog.Locates.stopsAt _ _) fun fee => ?_
    refine Prog.Locates.seq (Prog.Locates.stopsAt _ _) fun _ => ?_
    apply Prog.Locates.bind (buildSpeedupAt_locates _ _ _ _ _)
    rintro placed _ rfl
    cases placed with
    | none => exact Prog.Locates.pure rfl
    | some placed => exact hsave _ _ _ _ _
  apply Prog.Locates.ite <;> intro _
  · exact Prog.Locates.pure rfl
  · refine Prog.Locates.seq (Prog.Locates.stopsAt _ _) fun cfg => ?_
    refine Prog.Locates.seq (Prog.Locates.stopsAt _ _) fun height => ?_
    refine Prog.Locates.seq (Prog.Locates.stopsAt _ _) fun all => ?_
    cases planBoost cfg all height with
    | none => exact Prog.Locates.pure rfl
    | some plan => exact Prog.Locates.seq (Prog.Locates.stopsAt _ _) fun _ => hboost _ _ _

/-- Building for a batch. -/
theorem createCpfpBatchAt_locates : Prog.Locates Eq createCpfpBatchAt createCpfpBatch := by
  have htake : ∀ path taken batch, Prog.Locates Eq (takePendingParentsAt path taken batch)
      (Prog.forEach batch takePendingParent) := by
    intro path taken batch
    induction batch generalizing taken with
    | nil => exact Prog.Locates.pure rfl
    | cons parent rest ih => exact Prog.Locates.seq (Prog.Locates.stopsAt _ _) fun _ => ih (taken + 1)
  have hsave : ∀ path batch bump built,
      Prog.Locates Eq (saveCpfpBatchAt path batch bump built) (saveCpfpBatch batch bump built) := by
    intro path batch bump built
    refine Prog.Locates.seq (htake _ _ _) fun _ => ?_
    refine Prog.Locates.seq (Prog.Locates.stopsAt _ _) fun _ => ?_
    refine Prog.Locates.seq (Prog.Locates.stopsAt _ _) fun height => ?_
    exact saveSpeedupAt_locates _ _ _ _ _ _
  have hbatch : ∀ parents unconfirmed,
      Prog.Locates Eq (runCpfpBatchAt parents unconfirmed) (runCpfpBatch parents unconfirmed) := by
    intro parents unconfirmed
    refine Prog.Locates.seq (Prog.Locates.stopsAt _ _) fun cfg => ?_
    refine Prog.Locates.seq (Prog.Locates.stopsAt _ _) fun fee => ?_
    refine Prog.Locates.seq (Prog.Locates.stopsAt _ _) fun _ => ?_
    cases (cfg.dispatcher.batchByWeight parents 1).getLast? with
    | none => exact Prog.Locates.pure rfl
    | some batch =>
      apply Prog.Locates.ite <;> intro _
      · exact Prog.Locates.pure rfl
      · apply Prog.Locates.bind (buildSpeedupAt_locates _ _ _ _ _)
        rintro placed _ rfl
        cases placed with
        | none => exact Prog.Locates.pure rfl
        | some placed => exact hsave _ _ _ _
  refine Prog.Locates.seq (Prog.Locates.stopsAt _ _) fun cfg => ?_
  refine Prog.Locates.seq (Prog.Locates.stopsAt _ _) fun parents => ?_
  refine Prog.Locates.seq (Prog.Locates.stopsAt _ _) fun all => ?_
  exact Prog.Locates.ite (fun _ => Prog.Locates.pure rfl) fun _ => hbatch _ _

/-- A building step with its places runs as the step does. -/
theorem BuildStep.runAt_locates (step : BuildStep) : Prog.Locates Eq step.runAt step.run := by
  cases step with
  | boost skipBoost => exact boostIfStaleAt_locates skipBoost
  | batch => exact createCpfpBatchAt_locates

/-! ### What is reserved at a place -/

/-- The store but for its pending list. -/
def Store.bare (s : Store) : Store := { s with pendingSpeedupParents := [] }

/-- How many inputs a build claims along a path. -/
def BuildPath.claimed (path : BuildPath) : ℕ :=
  (if path.rbf then 0 else 1) + if path.combined then 1 else 0

/-- The moments of a build that claimed some outputs and released the first of them. -/
def claimTrace (claims : List OutPoint) (freed : ℕ) : List Event :=
  (claims.take freed).reverse.map (fun op => .marked op false) ++
    claims.reverse.map fun op => .marked op true

/-- A build claimed some outputs of a store and pruned its pending list at most. -/
structure Claimed (s : Store) (ops : List OutPoint) (w : World) : Prop where
  trace : w.trace = claimTrace ops 0
  store : w.store.bare = s.bare.setAllSpent ops true

/-- A build claimed what its path says. -/
structure ClaimedAlong (s : Store) (path : BuildPath) (w : World) : Prop where
  claimed : Claimed s (s.claims path) w
  fits : (s.claims path).length = path.claimed

/-- What the history says at a place. -/
def StopPoint.Accounts (s : Store) : StopPoint → World → Prop
  | .preparing, w => w.trace = []
  | .pricing path, w => (s.claims path).length = path.claimed ∧ w.trace = claimTrace (s.claims path) 0
  | .releasing path freed, w =>
    (s.claims path).length = path.claimed ∧ w.trace = claimTrace (s.claims path) freed
  | .saving path taken, w => (s.claims path).length = path.claimed ∧
    ∃ txids : List Txid, txids.length = taken ∧
      w.trace = txids.map Event.taken ++ claimTrace (s.claims path) 0
  | .listing path taken txid, w => (s.claims path).length = path.claimed ∧
    ∃ (txids : List Txid) (tx : CoordinatedTx) (before : Store), txids.length = taken ∧ tx.txid = txid ∧
      w.trace = .inserted tx before :: (txids.map Event.taken ++ claimTrace (s.claims path) 0)
  | .finishing, w => ∃ txid, .recorded txid ∈ w.trace

/-- Nothing is claimed when a build begins. -/
theorem Claimed.start (s : Store) (news : List StoredNewsItem) (lastRetryAt : Option ℕ) :
    Claimed s [] (World.start s news lastRetryAt) := ⟨rfl, rfl⟩

/-- Questions, news and moments without a reservation change nothing in what is claimed. -/
theorem unbooked_claimed {ops : List OutPoint} : Unbooked (Claimed s ops) where
  asked := fun _ h => ⟨h.trace, h.store⟩
  published := fun _ _ h => ⟨h.trace, h.store⟩
  signed := fun _ _ _ h => ⟨h.trace, h.store⟩
  noted := fun _ _ he h => ⟨(World.trace_noted he).trans h.trace, h.store⟩

/-- They change nothing in a trace. -/
theorem unbooked_trace {P : List Event → Prop} : Unbooked fun w => P w.trace where
  asked := fun _ h => h
  published := fun _ _ h => h
  signed := fun _ _ _ h => h
  noted := by
    intro w e he h
    rwa [World.trace_noted he]

/-- A single write alone is not on the trace. -/
theorem OneWrite.trace_eq {f : Store → Store} {x : Except Stop Unit × World} (hone : OneWrite f w x) :
    x.2.trace = w.trace := by
  cases hone <;> rfl

/-- A single write and a reservation: both are there, or the write was refused. -/
theorem OneWrite.booked {f : Store → Store} {m : Coord Unit} {e : Event} (hone : OneWrite f w (m ctx w))
    (he : e.isReservation = true) :
    Prog.Ends (Prog.Settled (fun _ w' => w'.trace = e :: w.trace ∧ w'.store = f w.store)
        fun _ w' => w'.trace = w.trace)
      (m >>= fun _ => note fun _ => e) ctx w := by
  unfold Prog.Ends
  rcases hrun : m ctx w with ⟨stop | u, w'⟩
  · rw [hrun] at hone
    rw [Prog.bind_of_error hrun]
    exact hone.run.1
  · rw [hrun] at hone
    obtain ⟨htrace, hstore, -⟩ := hone.run
    rw [Prog.bind_of_ok hrun]
    refine ⟨?_, hstore rfl⟩
    rw [← htrace]
    exact List.filter_cons_of_pos he

/-- Setting a flag writes it on the trace. -/
theorem setSpent_booked (op : OutPoint) (spent : Bool) :
    Prog.Ends (Prog.Settled
        (fun _ w' => w'.trace = .marked op spent :: w.trace ∧ w'.store = w.store.setSpent op spent)
        fun _ w' => w'.trace = w.trace)
      (setSpent op spent) ctx w :=
  (writeSpent_oneWrite op spent).booked rfl

/-- Setting a flag leaves the pending list out of account. -/
theorem Store.bare_setSpent (s : Store) (op : OutPoint) (spent : Bool) :
    (s.setSpent op spent).bare = s.bare.setSpent op spent := by
  have hfunding : s.bare.funding op = s.funding op := rfl
  have htxs : s.bare.txs.get op.txid = s.txs.get op.txid := rfl
  unfold Store.setSpent
  rw [hfunding, htxs]
  cases s.funding op with
  | some record => rfl
  | none =>
    cases s.txs.get op.txid with
    | none => rfl
    | some tx =>
      dsimp only
      cases tx.kind <;> rfl

/-- Setting flags leaves the pending list out of account. -/
theorem Store.bare_setAllSpent (s : Store) (ops : List OutPoint) (spent : Bool) :
    (s.setAllSpent ops spent).bare = s.bare.setAllSpent ops spent := by
  unfold Store.setAllSpent
  induction ops generalizing s with
  | nil => rfl
  | cons op rest ih => rw [List.foldl_cons, List.foldl_cons, ih, s.bare_setSpent]

/-- Claiming one more output. -/
theorem Claimed.claim {ops : List OutPoint} (h : Claimed s ops w) (op : OutPoint) :
    Prog.Ends (Prog.Settled (fun _ w' => Claimed s (ops ++ [op]) w') fun _ w' => w'.trace = claimTrace ops 0)
      (setSpent op true) ctx w := by
  apply (setSpent_booked op true).mono
  intro x w' hends
  cases x with
  | error e => exact Eq.trans hends h.trace
  | ok u =>
    obtain ⟨htrace, hstore⟩ := hends
    constructor
    · rw [htrace, h.trace]
      simp [claimTrace]
    · rw [hstore, Store.bare_setSpent, h.store]
      unfold Store.setAllSpent
      rw [List.foldl_append]
      rfl

/-- The primary input is claimed when a CPFP starts. -/
theorem Claimed.getFunding (h : Claimed s [] w) :
    Prog.Ends (Prog.Settled
        (fun funding w' => match funding with
          | some (primary, _) => s.primaryInput? = some primary ∧ Claimed s [primary.outPoint] w'
          | none => w'.trace = [])
        fun _ w' => w'.trace = [])
      (getFunding w.store.speedupsOrdered) ctx w := by
  have hsame : w.store.primaryInput? = s.primaryInput? := by
    change w.store.bare.primaryInput? = s.bare.primaryInput?
    rw [h.store]
    rfl
  rw [← hsame]
  have hreserve : ∀ (utxo : Utxo) (isSpeedup : Bool), w.store.primaryInput? = some utxo →
      Prog.Ends (Prog.Settled
          (fun funding w' => match funding with
            | some (primary, _) => w.store.primaryInput? = some primary ∧ Claimed s [primary.outPoint] w'
            | none => w'.trace = [])
          fun _ w' => w'.trace = [])
        (do setSpent utxo.outPoint true; pure (some (utxo, isSpeedup)) : Coord _) ctx w := by
    intro utxo isSpeedup hprimary
    apply Prog.Settled.bind (h.claim utxo.outPoint)
    intro u w' hclaimed _
    exact Prog.Settled.pure ⟨hprimary, hclaimed⟩
  have hnothing : w.trace = [] := h.trace
  refine Prog.Settled.bind (Prog.Settled.ofExcept fun _ _ => hnothing) ?_
  rintro tip _ ⟨htip, rfl⟩ _
  cases tip with
  | some tx =>
    refine Prog.Settled.bind (Prog.Settled.ofExcept fun _ _ => hnothing) ?_
    rintro utxo _ ⟨hchange, rfl⟩ _
    apply hreserve
    unfold Store.primaryInput?
    rw [htip]
    simp only [hchange, Except.toOption]
  | none =>
    refine Prog.Settled.bind (Prog.Settled.read _) ?_
    rintro records _ ⟨rfl, rfl⟩ _
    have hprimary : w.store.primaryInput? =
        (w.store.fundingRecords.find? fun record => !record.spent).map FundingData.utxo := by
      unfold Store.primaryInput?
      rw [htip]
    generalize w.store.fundingRecords.find? (fun record => !record.spent) = found at hprimary ⊢
    cases found with
    | none => exact Prog.Settled.pure hnothing
    | some record => exact hreserve _ _ hprimary

/-- Along a path without a second input, the second input follows what is claimed. -/
theorem Store.claims_combined {path : BuildPath} {record : FundingData} (hsingle : path.combined = false)
    (hrecord : (s.setAllSpent (s.claims path) true).combineRecord? = some record) :
    s.claims { path with combined := true } = s.claims path ++ [record.utxo.outPoint] := by
  unfold Store.claims at hrecord ⊢
  simp only [hsingle, Bool.false_eq_true, if_false] at hrecord
  simp [hsingle, hrecord]

/-- What the fee loop keeps: the inputs behind the inherited ones are those it claimed, and a single input
stands alone. -/
structure InRound (s : Store) (plan : BuildPlan) (path : BuildPath) (inputs : List Utxo) (w : World) :
    Prop where
  along : ClaimedAlong s path w
  inherited : plan.inheritedCount ≤ inputs.length
  claims : (inputs.drop plan.inheritedCount).map Utxo.outPoint = s.claims path
  single : inputs.length = 1 → path.combined = false

/-- Questions, news and moments without a reservation do not matter to the fee loop. -/
theorem unbooked_inRound {plan : BuildPlan} {path : BuildPath} {inputs : List Utxo} :
    Unbooked (InRound s plan path inputs) where
  asked := fun w h => { h with along := ⟨unbooked_claimed.asked w h.along.claimed, h.along.fits⟩ }
  published := fun w items h =>
    { h with along := ⟨unbooked_claimed.published w items h.along.claimed, h.along.fits⟩ }
  signed := fun w pricing vsize h =>
    { h with along := ⟨unbooked_claimed.signed w pricing vsize h.along.claimed, h.along.fits⟩ }
  noted := fun w e he h => { h with along := ⟨unbooked_claimed.noted w e he h.along.claimed, h.along.fits⟩ }

/-- A second input is claimed beside a single one, or there is none. -/
theorem InRound.combineInput {plan : BuildPlan} {path : BuildPath} {inputs : List Utxo}
    (h : InRound s plan path inputs w) :
    Prog.Ends (Prog.Settled
        (fun extra w' => match extra with
          | none => InRound s plan path inputs w'
          | some extra => InRound s plan { path with combined := true } (inputs ++ [extra]) w')
        fun _ w' => w'.trace = claimTrace (s.claims path) 0)
      (combineInput plan inputs) ctx w := by
  apply Prog.Ends.ite
  · rintro ⟨hone, -⟩
    have hsingle := h.single hone
    refine Prog.Settled.bind (Prog.Settled.read _) ?_
    rintro records _ ⟨rfl, rfl⟩ _
    have hsame : (s.setAllSpent (s.claims path) true).combineRecord? =
        w.store.fundingRecords.find? fun record => !record.fromSpeedup && !record.spent := by
      change (s.setAllSpent (s.claims path) true).bare.combineRecord? = w.store.bare.combineRecord?
      rw [Store.bare_setAllSpent, h.along.claimed.store]
    generalize w.store.fundingRecords.find? (fun record => !record.fromSpeedup && !record.spent) = found
      at hsame ⊢
    cases found with
    | none => exact Prog.Settled.pure h
    | some record =>
      refine Prog.Settled.bind (h.along.claimed.claim record.utxo.outPoint) ?_
      intro u w' hclaimed _
      have hclaims := Store.claims_combined hsingle hsame
      apply Prog.Settled.pure
      constructor
      · refine ⟨by rw [hclaims]; exact hclaimed, ?_⟩
        rw [hclaims, List.length_append, h.along.fits]
        simp [BuildPath.claimed, hsingle]
      · simp only [List.length_append]
        exact h.inherited.trans (Nat.le_add_right _ _)
      · rw [List.drop_append_of_le_length h.inherited, List.map_append, h.claims, hclaims]
        rfl
      · simp [hone]
  · intro _
    exact Prog.Settled.pure h

/-- Releasing the claimed inputs one after the other. The induction is on those that are left. -/
theorem releaseMarksAt_accounts {path : BuildPath} {freed : ℕ} {utxos : List Utxo}
    (hfits : (s.claims path).length = path.claimed) (htrace : w.trace = claimTrace (s.claims path) freed)
    (hleft : (s.claims path).drop freed = utxos.map Utxo.outPoint) :
    Prog.Ends (Prog.Settled (fun _ w' => w'.trace = claimTrace (s.claims path) (freed + utxos.length))
      (StopPoint.Accounts s)) (releaseMarksAt path freed utxos) ctx w := by
  induction utxos generalizing freed w with
  | nil => exact Prog.Settled.pure htrace
  | cons u rest ih =>
    have hnext : (s.claims path).take (freed + 1) = (s.claims path).take freed ++ [u.outPoint] := by
      have hat : (s.claims path)[freed]? = some u.outPoint := by
        rw [← List.head?_drop, hleft]
        rfl
      rw [List.take_add_one, hat]
      rfl
    have hset : Prog.Ends (Prog.Settled
        (fun _ w' => w'.trace = claimTrace (s.claims path) (freed + 1))
        (StopPoint.Accounts s)) ((setSpent u.outPoint false).stopsAt (.releasing path freed)) ctx w := by
      apply Prog.Settled.stopsAt ((setSpent_booked u.outPoint false).mono ?_)
      · exact fun e w' (hsame : w'.trace = w.trace) => ⟨hfits, hsame.trans htrace⟩
      · rintro (e | v) w' hends
        · exact hends
        · change w'.trace = _
          rw [hends.1, htrace]
          simp [claimTrace, hnext]
    apply Prog.Settled.bind hset
    intro v w' hmarked _
    have hdrop : (s.claims path).drop (freed + 1) = rest.map Utxo.outPoint := by
      rw [← List.drop_drop, hleft]
      rfl
    rw [List.length_cons, Nat.add_comm rest.length 1, ← Nat.add_assoc]
    exact ih hmarked hdrop

/-- Giving up releases what was claimed. -/
theorem abandonBuildAt_accounts {path : BuildPath} {plan : BuildPlan} {inputs : List Utxo}
    (h : InRound s plan path inputs w) (available required : ℕ) :
    Prog.Ends (Prog.Settled (fun _ _ => True) (StopPoint.Accounts s))
      (abandonBuildAt path plan inputs available required) ctx w := by
  have hclaims : (s.claims path).drop 0 = (inputs.drop plan.inheritedCount).map Utxo.outPoint := h.claims.symm
  apply Prog.Settled.bind (releaseMarksAt_accounts h.along.fits h.along.claimed.trace hclaims)
  intro u w' htrace _
  rw [Nat.zero_add] at htrace
  have hreport : Prog.Keeps (fun w => w.trace = claimTrace (s.claims path)
      (inputs.drop plan.inheritedCount).length) (emitInsufficientFunds available required) ctx :=
    (unbooked_trace (P := (· = claimTrace (s.claims path) (inputs.drop plan.inheritedCount).length))).publish _
  apply (Prog.Settled.kept hreport htrace fun w' hkept => ?_).mono
  · rintro (place | v) w' hends
    · exact hends
    · exact trivial
  · exact ⟨h.along.fits, hkept⟩

/-- The fee loop returns along its path, or stops where the history says what was claimed. The induction is
on the rounds; a second input starts over on the longer path. -/
theorem buildRoundAt_accounts {path : BuildPath} {plan : BuildPlan} {inputs : List Utxo}
    {rounds childVsize : ℕ} (h : InRound s plan path inputs w) :
    Prog.Ends (Prog.Settled
        (fun placed w' => ∀ built path', placed = some (built, path') → ClaimedAlong s path' w')
        (StopPoint.Accounts s)) (buildRoundAt plan path rounds inputs childVsize) ctx w := by
  induction rounds generalizing path inputs childVsize w with
  | zero => exact Prog.Settled.stop ⟨h.along.fits, h.along.claimed.trace⟩
  | succ rounds ih =>
    have hpricing : ∀ {path inputs w'}, InRound s plan path inputs w' →
        StopPoint.Accounts s (.pricing path) w' := fun h => ⟨h.along.fits, h.along.claimed.trace⟩
    have hsigns : ∀ fee, Prog.Keeps (InRound s plan path inputs)
        (speedupTransactions (plan.parentEntries.map Prod.fst) inputs fee) ctx :=
      fun fee => unbooked_inRound.speedupTransactions _ _ _
    apply Prog.Settled.bind (Prog.Settled.kept (Prog.Keeps.ask _) h fun _ => hpricing)
    intro cfg w₁ h₁ _
    apply Prog.Settled.bind (Prog.Settled.kept (Prog.Keeps.ask _) h₁ fun _ => hpricing)
    intro maxDustLimit w₂ h₂ _
    apply Prog.Settled.bind (Prog.Settled.kept (hsigns _) h₂ fun _ => hpricing)
    intro dummy w₃ h₃ _
    apply Prog.Ends.ite <;> intro _
    · apply Prog.Settled.bind (Prog.Settled.stopsAt h₃.combineInput fun _ _ htrace => ⟨h.along.fits, htrace⟩)
      intro extra w₄ hextra _
      cases extra with
      | some extra => exact ih hextra
      | none =>
        apply Prog.Settled.bind (abandonBuildAt_accounts hextra _ _)
        intro u w₅ _ _
        apply Prog.Settled.pure
        rintro built path' ⟨⟩
    · apply Prog.Settled.bind (Prog.Settled.kept (hsigns _) h₃ fun _ => hpricing)
      intro final w₄ h₄ _
      apply Prog.Ends.ite <;> intro _
      · apply Prog.Settled.bind
          (Prog.Settled.kept (unbooked_inRound.note fun _ => rfl) h₄ fun _ => hpricing)
        intro u w₅ h₅ _
        apply Prog.Settled.pure
        rintro built path' ⟨⟩
        exact h₅.along
      · exact ih h₄

/-- A build that starts with nothing claimed returns along its path, or stops where the history says what
was claimed. -/
theorem buildSpeedupAt_accounts {entries : List (SpeedupData × ℕ)} {initial : Option (List Utxo)}
    {bumpFee : ℚ} {feeRate chainDiffFee : ℕ} (h : Claimed s [] w) :
    Prog.Ends (Prog.Settled
        (fun placed w' => ∀ built path', placed = some (built, path') → ClaimedAlong s path' w')
        (StopPoint.Accounts s)) (buildSpeedupAt entries initial bumpFee feeRate chainDiffFee) ctx w := by
  have hpreparing : ∀ w', Claimed s [] w' → StopPoint.Accounts s .preparing w' := fun _ h => h.trace
  have hwith : ∀ {plan inputs w'}, InRound s plan ⟨plan.isRbf, false⟩ inputs w' → Prog.Ends (Prog.Settled
      (fun placed w' => ∀ built path', placed = some (built, path') → ClaimedAlong s path' w')
      (StopPoint.Accounts s)) (buildWithAt plan inputs) ctx w' := by
    intro plan inputs w' hround
    have hasks : Prog.Keeps (InRound s plan ⟨plan.isRbf, false⟩ inputs)
      (Prog.ask fun ctx => ctx.answers.buildRounds : Coord ℕ) ctx := Prog.Keeps.ask _
    apply Prog.Settled.bind
      (Prog.Settled.kept hasks hround fun _ hround => ⟨hround.along.fits, hround.along.claimed.trace⟩)
    intro rounds w₁ hround _
    exact buildRoundAt_accounts hround
  cases initial with
  | some inputs =>
    apply Prog.Settled.bind (Prog.Settled.kept (Prog.Keeps.read _) h hpreparing)
    intro primaryIsSpeedup w₁ h₁ _
    have hclaims : s.claims ⟨true, false⟩ = [] := rfl
    apply hwith
    constructor
    · exact ⟨by rw [hclaims]; exact h₁, rfl⟩
    · exact Nat.le_refl _
    · simp [hclaims]
    · exact fun _ => rfl
  | none =>
    have hread : Prog.Ends (Prog.Settled
        (fun all w' => all = w.store.speedupsOrdered ∧ w = w') (StopPoint.Accounts s))
        (getSpeedupsOrdered.stopsAt .preparing) ctx w := ⟨rfl, rfl⟩
    apply Prog.Settled.bind hread
    rintro _ _ ⟨rfl, rfl⟩ _
    apply Prog.Settled.bind (Prog.Settled.stopsAt h.getFunding fun _ _ htrace => htrace)
    intro funding w₁ hfunding _
    cases funding with
    | some funding =>
      obtain ⟨primary, isSpeedup⟩ := funding
      obtain ⟨hprimary, hclaimed⟩ := hfunding
      have hclaims : s.claims ⟨false, false⟩ = [primary.outPoint] := by
        simp [Store.claims, hprimary]
      apply hwith
      constructor
      · exact ⟨by rw [hclaims]; exact hclaimed, by rw [hclaims]; rfl⟩
      · exact Nat.zero_le _
      · rw [hclaims]
        rfl
      · exact fun _ => rfl
    | none =>
      have hreport : Prog.Keeps (fun w => w.trace = []) emitFundingNotAvailable ctx :=
        (unbooked_trace (P := (· = []))).publish _
      apply Prog.Settled.bind (Prog.Settled.kept hreport hfunding fun _ htrace => htrace)
      intro u w₂ _ _
      apply Prog.Settled.pure
      rintro built path' ⟨⟩

/-- Questions, news and moments without a reservation do not matter once a speedup is recorded. -/
theorem unbooked_finishing : Unbooked (StopPoint.Accounts s .finishing) :=
  unbooked_trace (P := fun trace => ∃ txid, Event.recorded txid ∈ trace)

/-- Storing a speedup and listing it, once its inputs are claimed and so many parents were taken. -/
theorem saveSpeedupAt_accounts {path : BuildPath} {taken : ℕ} {tx : Transaction} {feeInfo : FeeInfo}
    {kind : SpeedupKind} {height : BlockHeight} (h : StopPoint.Accounts s (.saving path taken) w) :
    Prog.Ends (Prog.Settled (fun _ => StopPoint.Accounts s .finishing) (StopPoint.Accounts s))
      (saveSpeedupAt path taken tx feeInfo kind height) ctx w := by
  obtain ⟨hfits, txids, htaken, htrace⟩ := h
  have hput : ∀ record : CoordinatedTx, Prog.Ends (Prog.Settled
      (fun _ => StopPoint.Accounts s (.listing path taken record.txid)) (StopPoint.Accounts s))
      ((putTx (.inserted record) record).stopsAt (.saving path taken)) ctx w := by
    intro record
    have hbooked : Prog.Ends (Prog.Settled
        (fun _ w' => w'.trace = .inserted record w.store :: w.trace ∧ w'.store = w.store.setTx record)
        fun _ w' => w'.trace = w.trace) (putTx (.inserted record) record) ctx w := by
      change Prog.Ends _ (insertTx record >>= fun _ => note fun _ => .inserted record w.store) ctx w
      exact writeStore_oneWrite.booked rfl
    apply Prog.Settled.stopsAt (hbooked.mono ?_)
    · exact fun e w' (hsame : w'.trace = w.trace) => ⟨hfits, txids, htaken, hsame.trans htrace⟩
    · rintro (e | u) w' hends
      · exact hends
      · exact ⟨hfits, txids, record, w.store, htaken, rfl, hends.1.trans (by rw [htrace])⟩
  have hinsert : ∀ record : CoordinatedTx, Prog.Ends (Prog.Settled
      (fun _ => StopPoint.Accounts s .finishing) (StopPoint.Accounts s))
      (insertSpeedupAt path taken record) ctx w := by
    intro record
    apply Prog.Settled.bind (hput record)
    intro u w₁ hstored _
    have hlist : Prog.Keeps (StopPoint.Accounts s (.listing path taken record.txid))
        (appendToSpeedupList record.txid) ctx := by
      intro w hw
      have hsame : (appendToSpeedupList record.txid ctx w).2.trace = w.trace :=
        (appendToSpeedupList_oneWrite record.txid).trace_eq
      obtain ⟨hfits, txids, tx, before, hlength, htxid, htrace⟩ := hw
      exact ⟨hfits, txids, tx, before, hlength, htxid, hsame.trans htrace⟩
    apply Prog.Settled.bind (Prog.Settled.kept hlist hstored fun _ h => h)
    intro v w₂ _ _
    exact ⟨record.txid, (mem_trace rfl).mpr List.mem_cons_self⟩
  apply Prog.Settled.bind (hinsert _)
  intro u w₁ hrecorded _
  exact Prog.Settled.kept (unbooked_finishing.monitorWatch _ _) hrecorded fun _ h => h

/-- Boosting stops where the history says what was reserved. -/
theorem boostIfStaleAt_accounts (skipBoost : Bool) (h : Claimed s [] w) :
    Prog.Ends (Prog.Settled (fun _ _ => True) (StopPoint.Accounts s)) (boostIfStaleAt skipBoost) ctx w := by
  have hpreparing : ∀ w', Claimed s [] w' → StopPoint.Accounts s .preparing w' := fun _ h => h.trace
  have hmark : ∀ txid rate, Prog.Keeps (StopPoint.Accounts s .finishing) (markPredecessorAtCap txid rate)
      ctx := by
    intro txid rate
    apply keeps_read
    intro w hw
    cases w.store.txs.get txid with
    | none => exact hw
    | some predecessor =>
      have hsame : ∀ tx, (updateTx tx ctx w).2.trace = w.trace :=
        fun tx => writeStore_oneWrite.trace_eq
      obtain ⟨recorded, hin⟩ := hw
      exact ⟨recorded, by rw [hsame]; exact hin⟩
  have hsave : ∀ {path plan bump built height w}, ClaimedAlong s path w → Prog.Ends (Prog.Settled
      (fun _ _ => True) (StopPoint.Accounts s)) (saveBoostAt path plan bump built height) ctx w := by
    intro path plan bump built height w hclaimed
    have hsaving : StopPoint.Accounts s (.saving path 0) w :=
      ⟨hclaimed.fits, [], rfl, hclaimed.claimed.trace⟩
    apply Prog.Settled.bind (Prog.Settled.kept (Prog.Keeps.ask _) hsaving fun _ h => h)
    intro cfg w₁ h₁ _
    apply Prog.Settled.bind (saveSpeedupAt_accounts h₁)
    intro u w₂ h₂ _
    apply Prog.Settled.bind (Prog.Settled.kept unbooked_finishing.reportIfCapped h₂ fun _ h => h)
    intro v w₃ h₃ _
    apply Prog.Ends.ite <;> intro _
    · apply (Prog.Settled.kept (hmark _ _) h₃ fun _ h => h).mono
      rintro (place | u') w' hends
      · exact hends
      · exact trivial
    · exact Prog.Settled.pure trivial
  apply Prog.Ends.ite <;> intro _
  · exact Prog.Settled.pure trivial
  apply Prog.Settled.bind (Prog.Settled.kept (Prog.Keeps.ask _) h hpreparing)
  intro cfg w₁ h₁ _
  apply Prog.Settled.bind (Prog.Settled.kept unbooked_claimed.query h₁ hpreparing)
  intro height w₂ h₂ _
  apply Prog.Settled.bind (Prog.Settled.kept (Prog.Keeps.read _) h₂ hpreparing)
  intro all w₃ h₃ _
  cases planBoost cfg all height with
  | none => exact Prog.Settled.pure trivial
  | some plan =>
    apply Prog.Settled.bind (Prog.Settled.kept (unbooked_claimed.note fun _ => rfl) h₃ hpreparing)
    intro u w₄ h₄ _
    apply Prog.Settled.bind (Prog.Settled.kept (Prog.Keeps.ask _) h₄ hpreparing)
    intro cfg w₅ h₅ _
    apply Prog.Settled.bind (Prog.Settled.kept unbooked_claimed.getNetworkFeeRate h₅ hpreparing)
    rintro ⟨feeRate, feeNews⟩ w₆ h₆ _
    apply Prog.Settled.bind (Prog.Settled.kept (unbooked_claimed.publishFeeNews _) h₆ hpreparing)
    intro v w₇ h₇ _
    apply Prog.Settled.bind (buildSpeedupAt_accounts h₇)
    intro placed w₈ hplaced _
    cases placed with
    | none => exact Prog.Settled.pure trivial
    | some placed => exact hsave (hplaced _ _ rfl)

/-- Taking the covered parents one after the other. The induction is on those that are left. -/
theorem takePendingParentsAt_accounts {path : BuildPath} {taken : ℕ} {batch : List CoordinatedTx}
    (h : StopPoint.Accounts s (.saving path taken) w) :
    Prog.Ends (Prog.Settled (fun _ => StopPoint.Accounts s (.saving path (taken + batch.length)))
      (StopPoint.Accounts s)) (takePendingParentsAt path taken batch) ctx w := by
  induction batch generalizing taken w with
  | nil => exact Prog.Settled.pure h
  | cons parent rest ih =>
    have htake : Prog.Ends (Prog.Settled (fun _ => StopPoint.Accounts s (.saving path (taken + 1)))
        (StopPoint.Accounts s)) ((takePendingParent parent).stopsAt (.saving path taken)) ctx w := by
      obtain ⟨hfits, txids, htaken, htrace⟩ := h
      apply Prog.Settled.stopsAt (((removePendingSpeedupParent_oneWrite parent.txid).booked rfl).mono ?_)
      · exact fun e w' (hsame : w'.trace = w.trace) => ⟨hfits, txids, htaken, hsame.trans htrace⟩
      · rintro (e | u) w' hends
        · exact hends
        · exact ⟨hfits, parent.txid :: txids, by simp [htaken], hends.1.trans (by rw [htrace]; rfl)⟩
    apply Prog.Settled.bind htake
    intro u w' htaken _
    rw [List.length_cons, Nat.add_comm rest.length 1, ← Nat.add_assoc]
    exact ih htaken

/-- Walking the pending list claims nothing. -/
theorem collectPendingParents_claimed (txids : List Txid) :
    Prog.Keeps (Claimed s []) (collectPendingParents txids) ctx := by
  have hdrop : ∀ txid, Prog.Keeps (Claimed s []) (removePendingSpeedupParent txid) ctx := by
    intro txid
    refine OneWrite.keeps (fun _ => removePendingSpeedupParent_oneWrite txid) (fun _ hw => ⟨hw.trace, hw.store⟩) ?_
    exact fun _ hw => ⟨hw.trace, hw.store⟩
  exact fun w hw => (collectPendingParents_spec (fun txid _ _ => hdrop txid) rfl hw rfl).1

/-- Building for a batch stops where the history says what was reserved and taken. -/
theorem createCpfpBatchAt_accounts (h : Claimed s [] w) :
    Prog.Ends (Prog.Settled (fun _ _ => True) (StopPoint.Accounts s)) createCpfpBatchAt ctx w := by
  have hpreparing : ∀ w', Claimed s [] w' → StopPoint.Accounts s .preparing w' := fun _ h => h.trace
  have hsave : ∀ {path batch bump built w}, ClaimedAlong s path w → Prog.Ends (Prog.Settled
      (fun _ _ => True) (StopPoint.Accounts s)) (saveCpfpBatchAt path batch bump built) ctx w := by
    intro path batch bump built w hclaimed
    have hsaving : StopPoint.Accounts s (.saving path 0) w :=
      ⟨hclaimed.fits, [], rfl, hclaimed.claimed.trace⟩
    apply Prog.Settled.bind (takePendingParentsAt_accounts hsaving)
    intro u w₁ h₁ _
    rw [Nat.zero_add] at h₁
    have hunbooked : Unbooked (StopPoint.Accounts s (.saving path batch.length)) :=
      unbooked_trace (P := fun trace => (s.claims path).length = path.claimed ∧ ∃ txids : List Txid,
        txids.length = batch.length ∧ trace = txids.map Event.taken ++ claimTrace (s.claims path) 0)
    apply Prog.Settled.bind (Prog.Settled.kept hunbooked.reportIfCapped h₁ fun _ h => h)
    intro v w₂ h₂ _
    apply Prog.Settled.bind (Prog.Settled.kept hunbooked.query h₂ fun _ h => h)
    intro height w₃ h₃ _
    apply (saveSpeedupAt_accounts h₃).mono
    rintro (place | u') w' hends
    · exact hends
    · exact trivial
  apply Prog.Settled.bind (Prog.Settled.kept (Prog.Keeps.ask _) h hpreparing)
  intro cfg w₁ h₁ _
  have hparents : Prog.Keeps (Claimed s []) getPendingSpeedupParents ctx :=
    Prog.Keeps.seq (Prog.Keeps.read _) fun _ => collectPendingParents_claimed _
  apply Prog.Settled.bind (Prog.Settled.kept hparents h₁ hpreparing)
  intro parents w₂ h₂ _
  apply Prog.Settled.bind (Prog.Settled.kept (Prog.Keeps.read _) h₂ hpreparing)
  intro all w₃ h₃ _
  apply Prog.Ends.ite <;> intro _
  · exact Prog.Settled.pure trivial
  apply Prog.Settled.bind (Prog.Settled.kept (Prog.Keeps.ask _) h₃ hpreparing)
  intro cfg w₄ h₄ _
  apply Prog.Settled.bind (Prog.Settled.kept unbooked_claimed.getNetworkFeeRate h₄ hpreparing)
  rintro ⟨feeRate, feeNews⟩ w₅ h₅ _
  apply Prog.Settled.bind (Prog.Settled.kept (unbooked_claimed.publishFeeNews _) h₅ hpreparing)
  intro u w₆ h₆ _
  cases (cfg.dispatcher.batchByWeight parents 1).getLast? with
  | none => exact Prog.Settled.pure trivial
  | some batch =>
    apply Prog.Ends.ite <;> intro _
    · exact Prog.Settled.pure trivial
    · apply Prog.Settled.bind (buildSpeedupAt_accounts h₆)
      intro placed w₇ hplaced _
      cases placed with
      | none => exact Prog.Settled.pure trivial
      | some placed => exact hsave (hplaced _ _ rfl)

/-! ### Clean places -/

/-- The last mark among marks of one value. -/
theorem lastMark_marked (s : Store) (flag : Flag) (ops : List OutPoint) (spent : Bool)
    (older : List Event) :
    lastMark s flag (ops.map (fun op => .marked op spent) ++ older) =
      if ∃ op ∈ ops, s.flagOf op = flag then some spent else lastMark s flag older := by
  induction ops with
  | nil => simp
  | cons op rest ih =>
    rw [List.map_cons, List.cons_append, lastMark, ih]
    by_cases hop : s.flagOf op = flag
    · simp [hop]
    · simp [hop]

/-- The last mark of a build that released the first of its claims. -/
theorem lastMark_claimTrace (s : Store) (flag : Flag) (claims : List OutPoint) (freed : ℕ) :
    lastMark s flag (claimTrace claims freed) =
      if ∃ op ∈ claims.take freed, s.flagOf op = flag then some false
      else if ∃ op ∈ claims, s.flagOf op = flag then some true else none := by
  have hmarks : lastMark s flag (claims.reverse.map fun op => .marked op true) =
      if ∃ op ∈ claims, s.flagOf op = flag then some true else none := by
    have happend := lastMark_marked s flag claims.reverse true []
    rw [List.append_nil] at happend
    simp only [List.mem_reverse] at happend
    exact happend
  unfold claimTrace
  rw [lastMark_marked, hmarks]
  simp only [List.mem_reverse]

/-- Every flag that a history set has its old value again. -/
def Restored (s : Store) (trace : List Event) : Prop :=
  ∀ flag b b', s.flag flag = some b → lastMark s flag trace = some b' → b' = b

/-- After some claims and releases the flags have their old values again exactly when the released outputs
were free and the others were reserved. -/
theorem restored_claimTrace_iff {claims : List OutPoint} {freed : ℕ} :
    Restored s (claimTrace claims freed) ↔ (∀ op ∈ claims.take freed, s.StaysFree op) ∧
      ∀ op ∈ claims, (∀ op' ∈ claims.take freed, s.flagOf op' ≠ s.flagOf op) → s.StaysReserved op := by
  unfold Restored Store.StaysFree Store.StaysReserved
  constructor
  · intro h
    constructor
    · intro op hop hset
      have hlast := h _ true false hset
      rw [lastMark_claimTrace, if_pos ⟨op, hop, rfl⟩] at hlast
      cases hlast rfl
    · intro op hop hothers hclear
      have hlast := h _ false true hclear
      have hkept : ¬ ∃ op' ∈ claims.take freed, s.flagOf op' = s.flagOf op := by
        rintro ⟨op', hop', heq⟩
        exact hothers op' hop' heq
      rw [lastMark_claimTrace, if_neg hkept, if_pos ⟨op, hop, rfl⟩] at hlast
      cases hlast rfl
  · rintro ⟨hfreed, hheld⟩ flag b b' hb hb'
    rw [lastMark_claimTrace] at hb'
    split at hb'
    · next hreleased =>
      obtain ⟨op, hop, rfl⟩ := hreleased
      cases hb'
      cases b with
      | false => rfl
      | true => exact absurd hb (hfreed op hop)
    · next hkept =>
      split at hb'
      · next hclaimed =>
        obtain ⟨op, hop, rfl⟩ := hclaimed
        cases hb'
        cases b with
        | true => rfl
        | false => exact absurd hb (hheld op hop fun op' hop' heq => hkept ⟨op', hop', heq⟩)
      · cases hb'

/-- With a speedup stored above the claims, its flag must have been clear, and the other claimed outputs
reserved. -/
theorem restored_inserted_iff {claims : List OutPoint} {tx : CoordinatedTx} {before : Store} :
    Restored s ([.inserted tx before] ++ claimTrace claims 0) ↔ s.flag (.change tx.txid) ≠ some true ∧
      ∀ op ∈ claims, s.flagOf op ≠ .change tx.txid → s.StaysReserved op := by
  have hlast : ∀ flag, lastMark s flag ([.inserted tx before] ++ claimTrace claims 0) =
      if .change tx.txid = flag then some false
      else if ∃ op ∈ claims, s.flagOf op = flag then some true else none := by
    intro flag
    have hmarks := lastMark_claimTrace s flag claims 0
    simp only [List.take_zero, List.not_mem_nil, false_and, exists_false, if_false] at hmarks
    rw [← hmarks]
    rfl
  unfold Restored Store.StaysReserved
  simp only [hlast]
  constructor
  · intro h
    constructor
    · intro hset
      have hclear := h _ true false hset (if_pos rfl)
      cases hclear
    · intro op hop hother hclear
      have hreserved := h _ false true hclear (by rw [if_neg (Ne.symm hother), if_pos ⟨op, hop, rfl⟩])
      cases hreserved
  · rintro ⟨hfree, hheld⟩ flag b b' hb hb'
    split at hb'
    · next heq =>
      subst heq
      cases hb'
      cases b with
      | false => rfl
      | true => exact absurd hb hfree
    · next hother =>
      split at hb'
      · next hclaimed =>
        obtain ⟨op, hop, rfl⟩ := hclaimed
        cases hb'
        cases b with
        | true => rfl
        | false => exact absurd hb (hheld op hop (Ne.symm hother))
      · cases hb'

/-- Only marks are made when claiming and releasing. -/
theorem mem_claimTrace {claims : List OutPoint} {freed : ℕ} {e : Event} (h : e ∈ claimTrace claims freed) :
    ∃ op spent, e = .marked op spent := by
  rcases List.mem_append.mp h with hin | hin <;> obtain ⟨op, -, rfl⟩ := List.mem_map.mp hin
  · exact ⟨op, false, rfl⟩
  · exact ⟨op, true, rfl⟩

/-- A history of marks is clean when its flags are restored. -/
theorem stopsClean_claimTrace_iff {claims : List OutPoint} {freed : ℕ} :
    StopsClean s (claimTrace claims freed) ↔ Restored s (claimTrace claims freed) := by
  constructor
  · rintro (⟨txid, hin⟩ | hclean)
    · obtain ⟨op, spent, heq⟩ := mem_claimTrace hin
      cases heq
    · exact hclean.1
  · intro hrestored
    refine Or.inr ⟨hrestored, ?_⟩
    intro txid hin
    obtain ⟨op, spent, heq⟩ := mem_claimTrace hin
    cases heq

/-- A history of marks and parents taken, perhaps with a stored speedup, is clean when its flags are restored
and no parent was taken. -/
theorem stopsClean_taken_iff (s : Store) (claims : List OutPoint) (txids : List Txid) {newer : List Event}
    (hnewer : ∀ txid, .recorded txid ∉ newer ∧ .taken txid ∉ newer) :
    StopsClean s (newer ++ (txids.map Event.taken ++ claimTrace claims 0)) ↔
      txids.length = 0 ∧ Restored s (newer ++ claimTrace claims 0) := by
  constructor
  · rintro (⟨txid, hin⟩ | ⟨hrestored, hnone⟩)
    · rcases List.mem_append.mp hin with hin | hin
      · exact absurd hin (hnewer txid).1
      rcases List.mem_append.mp hin with hin | hin
      · simp at hin
      · obtain ⟨op, spent, heq⟩ := mem_claimTrace hin
        cases heq
    · have hempty : txids = [] := by
        apply List.eq_nil_iff_forall_not_mem.mpr
        intro txid hin
        apply hnone txid
        simp [hin]
      subst hempty
      exact ⟨rfl, hrestored⟩
  · rintro ⟨hempty, hrestored⟩
    rw [List.length_eq_zero_iff] at hempty
    subst hempty
    refine Or.inr ⟨hrestored, ?_⟩
    intro txid hin
    rcases List.mem_append.mp hin with hin | hin
    · exact (hnewer txid).2 hin
    · obtain ⟨op, spent, heq⟩ := mem_claimTrace hin
      cases heq

/-- What the history says at a place is clean exactly when the store before the call is as the place
demands. -/
theorem StopPoint.Accounts.clean_iff {place : StopPoint} (h : place.Accounts s w) :
    StopsClean s w.trace ↔ place.IsClean s := by
  have hclaims : ∀ claims, Restored s (claimTrace claims 0) ↔ ∀ op ∈ claims, s.StaysReserved op := by
    intro claims
    rw [restored_claimTrace_iff]
    simp
  cases place with
  | preparing =>
    have hnothing : w.trace = [] := h
    rw [hnothing]
    simp [StopsClean, StopPoint.IsClean, lastMark]
  | pricing path =>
    rw [h.2, stopsClean_claimTrace_iff, hclaims]
    rfl
  | releasing path freed =>
    rw [h.2, stopsClean_claimTrace_iff, restored_claimTrace_iff]
    rfl
  | saving path taken =>
    obtain ⟨-, txids, rfl, htrace⟩ := h
    have hclean := stopsClean_taken_iff s (s.claims path) txids fun _ => ⟨List.not_mem_nil, List.not_mem_nil⟩
    rw [htrace]
    exact hclean.trans (and_congr_right fun _ => hclaims _)
  | listing path taken txid =>
    obtain ⟨-, txids, tx, before, rfl, rfl, htrace⟩ := h
    rw [htrace]
    have hnewer : ∀ id, .recorded id ∉ [Event.inserted tx before] ∧ .taken id ∉ [Event.inserted tx before] := by
      simp
    exact (stopsClean_taken_iff s (s.claims path) txids hnewer).trans
      (and_congr_right fun _ => restored_inserted_iff)
  | finishing => exact iff_of_true (Or.inl h) trivial

/-- Where a building step stops, the history says what was reserved and taken. -/
theorem BuildStep.stopPoint_accounts (step : BuildStep) {news : List StoredNewsItem} {lastRetryAt : Option ℕ}
    {stop : Stop} (hstop : step.run ctx (World.start s news lastRetryAt) = (.error stop, w)) :
    ∃ place, step.stopPoint ctx (World.start s news lastRetryAt) = some place ∧ place.Accounts s w := by
  obtain ⟨place, hplace⟩ := step.runAt_locates.run_error hstop
  have hstart := Claimed.start s news lastRetryAt
  have haccounts : Prog.Ends (Prog.Settled (fun _ _ => True) (StopPoint.Accounts s)) step.runAt ctx
      (World.start s news lastRetryAt) := by
    cases step with
    | boost skipBoost => exact boostIfStaleAt_accounts skipBoost hstart
    | batch => exact createCpfpBatchAt_accounts hstart
  refine ⟨place, ?_, haccounts.run hplace⟩
  unfold BuildStep.stopPoint
  rw [hplace]

/-! ### Places where everything claimed was free -/

/-- Setting flags keeps the queue keyed. -/
theorem Store.FundingKeyed.setAllSpent (hkeyed : s.FundingKeyed) (ops : List OutPoint) (spent : Bool) :
    (s.setAllSpent ops spent).FundingKeyed := by
  unfold Store.setAllSpent
  induction ops generalizing s with
  | nil => exact hkeyed
  | cons op rest ih => exact ih (hkeyed.setSpent op spent)

/-- Nothing that a build claims is reserved before, when the change of the chain tip is not. -/
theorem Store.TipIsFree.claims_free (htip : s.TipIsFree) (hkeyed : s.FundingKeyed) {path : BuildPath}
    {op : OutPoint} (hop : op ∈ s.claims path) : s.flag (s.flagOf op) = some false := by
  have hprimary : ∀ op ∈ (s.primaryInput?.map Utxo.outPoint).toList, s.flag (s.flagOf op) = some false := by
    intro op hop
    obtain ⟨primary, hfound, rfl⟩ := Option.map_eq_some_iff.mp (Option.mem_toList.mp hop)
    exact htip.flag_primary hkeyed hfound
  have hextra : ∀ ops, ∀ op ∈ ((s.setAllSpent ops true).combineRecord?.map fun record =>
      record.utxo.outPoint).toList, s.flag (s.flagOf op) = some false := by
    intro ops op hop
    obtain ⟨record, hfound, rfl⟩ := Option.map_eq_some_iff.mp (Option.mem_toList.mp hop)
    have huser := List.find?_some hfound
    simp only [Bool.and_eq_true, Bool.not_eq_true'] at huser
    have hmem := Store.mem_fundingRecords_of_free (List.mem_of_find?_eq_some hfound) huser.2
    obtain ⟨hflagOf, hflag⟩ := hkeyed.flag_eq hmem
    rw [hflagOf, hflag, huser.2]
  obtain ⟨rbf, combined⟩ := path
  unfold Store.claims at hop
  cases combined with
  | false =>
    cases rbf with
    | false => exact hprimary op hop
    | true => cases hop
  | true =>
    rcases List.mem_append.mp hop with hop | hop
    · cases rbf with
      | false => exact hprimary op hop
      | true => cases hop
    · exact hextra _ op hop

/-- The outputs that a build claims have flags of their own. -/
theorem Store.FundingKeyed.claims_pairwise (hkeyed : s.FundingKeyed) (path : BuildPath) :
    (s.claims path).Pairwise fun op op' => s.flagOf op ≠ s.flagOf op' := by
  have hsingle : ∀ (x : Option OutPoint) (R : OutPoint → OutPoint → Prop), x.toList.Pairwise R := by
    intro x R
    cases x with
    | none => exact List.Pairwise.nil
    | some op => exact List.pairwise_singleton R op
  have hprimary : (if path.rbf then [] else (s.primaryInput?.map Utxo.outPoint).toList).Pairwise
      fun op op' => s.flagOf op ≠ s.flagOf op' := by
    split
    · exact List.Pairwise.nil
    · exact hsingle _ _
  unfold Store.claims
  generalize (if path.rbf then [] else (s.primaryInput?.map Utxo.outPoint).toList) = primary at hprimary ⊢
  dsimp only
  split
  · refine List.pairwise_append.mpr ⟨hprimary, hsingle _ _, ?_⟩
    intro op hop extra hextra heq
    obtain ⟨record, hfound, rfl⟩ := Option.map_eq_some_iff.mp (Option.mem_toList.mp hextra)
    have huser := List.find?_some hfound
    simp only [Bool.and_eq_true, Bool.not_eq_true'] at huser
    -- its record is free after the primary input was reserved, so it is kept elsewhere
    obtain ⟨hflagOf, hflag⟩ := (hkeyed.setAllSpent primary true).flag_eq (List.mem_of_find?_eq_some hfound)
    rw [Store.flagOf_setAllSpent] at hflagOf
    rw [s.flag_setAllSpent, if_pos ⟨op, hop, heq.trans hflagOf⟩, huser.2] at hflag
    simp at hflag
  · exact hprimary

/-- A place where nothing that was claimed is reserved any more and no parent was taken. Between its record and
its entry in the list, a speedup may have cleared the reservations that are kept with it. -/
def StopPoint.IsHarmless (s : Store) : StopPoint → Prop
  | .preparing => True
  | .pricing path => path.claimed = 0
  | .releasing path freed => path.claimed ≤ freed
  | .saving path taken => taken = 0 ∧ path.claimed = 0
  | .listing path taken txid => taken = 0 ∧ s.flag (.change txid) ≠ some true ∧
    ∀ op ∈ s.claims path, s.flagOf op = .change txid
  | .finishing => True

/-- Where free outputs with flags of their own were claimed, releasing the first of them restores every flag
exactly when it releases them all. -/
theorem released_iff {claims : List OutPoint} (hflags : claims.Pairwise fun op op' => s.flagOf op ≠ s.flagOf op')
    (hfree : ∀ op ∈ claims, s.flag (s.flagOf op) = some false) (freed : ℕ) :
    ((∀ op ∈ claims.take freed, s.StaysFree op) ∧
      ∀ op ∈ claims, (∀ op' ∈ claims.take freed, s.flagOf op' ≠ s.flagOf op) → s.StaysReserved op) ↔
        claims.length ≤ freed := by
  constructor
  · rintro ⟨-, hheld⟩
    by_contra hleft
    obtain ⟨op, hop⟩ : ∃ op, op ∈ claims.drop freed := by
      apply List.exists_mem_of_length_pos
      rw [List.length_drop]
      omega
    have hmem := List.mem_of_mem_drop hop
    rw [← List.take_append_drop freed claims, List.pairwise_append] at hflags
    exact hheld op hmem (fun op' hop' => hflags.2.2 op' hop' op hop) (hfree op hmem)
  · intro hall
    rw [List.take_of_length_le hall]
    refine ⟨fun op hop => ?_, fun op hop hothers => absurd rfl (hothers op hop)⟩
    unfold Store.StaysFree
    rw [hfree op hop]
    simp

/-- Where every claimed output was free, a place is clean exactly when it is harmless. -/
theorem StopPoint.Accounts.isClean_iff_isHarmless {place : StopPoint} (h : place.Accounts s w)
    (hkeyed : s.FundingKeyed) (htip : s.TipIsFree) : place.IsClean s ↔ place.IsHarmless s := by
  have hfree : ∀ {path op}, op ∈ s.claims path → s.flag (s.flagOf op) = some false :=
    fun hop => htip.claims_free hkeyed hop
  have hnone : ∀ {path : BuildPath}, (s.claims path).length = path.claimed →
      ((∀ op ∈ s.claims path, s.StaysReserved op) ↔ path.claimed = 0) := by
    intro path hfits
    rw [← hfits, List.length_eq_zero_iff, List.eq_nil_iff_forall_not_mem]
    exact forall_congr' fun op => ⟨fun hheld hop => hheld hop (hfree hop), fun hout hop => absurd hop hout⟩
  cases place with
  | preparing => exact Iff.rfl
  | finishing => exact Iff.rfl
  | pricing path => exact hnone h.1
  | saving path taken => exact and_congr_right fun _ => hnone h.1
  | listing path taken txid =>
    refine and_congr_right fun _ => and_congr_right fun _ => forall₂_congr fun op hop => ?_
    constructor
    · intro hheld
      by_contra hother
      exact hheld hother (hfree hop)
    · exact fun hsame hother => absurd hsame hother
  | releasing path freed =>
    refine Iff.trans (released_iff (hkeyed.claims_pairwise path) (fun _ hop => hfree hop) freed) ?_
    rw [h.1]
    rfl

/-- Where the funding queue is keyed and the change of the chain tip is not reserved, a building step that stops
leaves nothing half reserved exactly when it stops before it claims an input, after it released every input it
claimed, as an RBF that claimed none and took no parent, or with its speedup recorded. -/
theorem interrupted_build_harmless_iff (step : BuildStep) (hkeyed : s.FundingKeyed) (htip : s.TipIsFree)
    {news : List StoredNewsItem} {lastRetryAt : Option ℕ} {stop : Stop}
    (hstop : step.run ctx (World.start s news lastRetryAt) = (.error stop, w)) :
    ∃ place, step.stopPoint ctx (World.start s news lastRetryAt) = some place ∧
      (NothingHalfReserved s w.log w.store ↔ place.IsHarmless s) := by
  have hledger := buildStep_ledger step ctx s news lastRetryAt
  rw [hstop] at hledger
  obtain ⟨place, hplace, haccounts⟩ := step.stopPoint_accounts hstop
  refine ⟨place, hplace, (hledger.nothingHalfReserved_iff.trans haccounts.clean_iff).trans ?_⟩
  exact haccounts.isClean_iff_isHarmless hkeyed htip

/-! ### All places -/

/-- A building step that stops leaves nothing half reserved exactly when the place where it stops is clean
for the store before the call. -/
theorem interrupted_build_iff (step : BuildStep) (ctx : Ctx) (s : Store) (news : List StoredNewsItem)
    (lastRetryAt : Option ℕ) (stop : Stop) (w : World)
    (hstop : step.run ctx (World.start s news lastRetryAt) = (.error stop, w)) :
    ∃ place, step.stopPoint ctx (World.start s news lastRetryAt) = some place ∧
      (NothingHalfReserved s w.log w.store ↔ place.IsClean s) := by
  have hledger := buildStep_ledger step ctx s news lastRetryAt
  rw [hstop] at hledger
  obtain ⟨place, hplace, haccounts⟩ := step.stopPoint_accounts hstop
  exact ⟨place, hplace, hledger.nothingHalfReserved_iff.trans haccounts.clean_iff⟩

/-- A parent is registered and accepted, and only then a funding UTXO is registered. -/
def unbuiltCalls : List Call :=
  let builder := plainBuilder fun _ => 200
  let first := sampleView 100 [] [sampleParent]
  [first.call builder 10 0 (.dispatchWithSpeedup sampleParent sampleAnchor "parent" none none),
    first.call builder 10 0 .tick,
    first.call builder 10 0 (.addFunding sampleFunding)]

/-- The world in which the next CPFP batch is due. -/
def unbuiltWorld : World :=
  let w := runCalls defaultSettings unbuiltCalls World.init
  World.start w.store w.news w.lastRetryAt

/-- Answers under which everything works but the transaction builder. -/
def builderDownCtx : Ctx where
  settings := defaultSettings
  answers := { (sampleView 100 [sampleParent] []).answers (plainBuilder fun _ => 200) 10 0 with
    speedupTransactions := fun _ _ _ _ _ => .error "no signature" }

/-- The build of the example stops. -/
theorem batch_stops_builderDown :
    ∃ stop, (BuildStep.batch.run builderDownCtx unbuiltWorld).1 = .error stop := by
  cases hrun : (BuildStep.batch.run builderDownCtx unbuiltWorld).1 with
  | error stop => exact ⟨stop, rfl⟩
  | ok u =>
    have hstops : (BuildStep.batch.run builderDownCtx unbuiltWorld).1.isOk = false := by
      decide +kernel
    rw [hrun] at hstops
    cases hstops

/-- The builder is refused while the CPFP of the example is priced, whose primary input was free: the stop
leaves it reserved. -/
theorem interrupted_build_builderDown :
    ∃ stop w, BuildStep.batch.run builderDownCtx unbuiltWorld = (.error stop, w) ∧
      BuildStep.batch.stopPoint builderDownCtx unbuiltWorld = some (.pricing ⟨false, false⟩) ∧
      ¬ NothingHalfReserved unbuiltWorld.store w.log w.store := by
  obtain ⟨stop, hstop⟩ := batch_stops_builderDown
  have hrun : BuildStep.batch.run builderDownCtx unbuiltWorld =
      (.error stop, (BuildStep.batch.run builderDownCtx unbuiltWorld).2) := by
    rw [← hstop]
  have hpricing : BuildStep.batch.stopPoint builderDownCtx unbuiltWorld = some (.pricing ⟨false, false⟩) := by
    decide +kernel
  obtain ⟨op, hclaimed, hfree⟩ : ∃ op ∈ unbuiltWorld.store.claims ⟨false, false⟩,
      unbuiltWorld.store.flag (unbuiltWorld.store.flagOf op) = some false := by decide +kernel
  refine ⟨stop, _, hrun, hpricing, ?_⟩
  intro hnothing
  obtain ⟨place, hplace, hiff⟩ := interrupted_build_iff _ _ _ _ _ _ _ hrun
  cases hpricing.symm.trans hplace
  exact hiff.mp hnothing op hclaimed hfree

/-- A build stops with a funding record reserved for a speedup that was never stored. -/
theorem exists_half_reserved :
    ∃ (cfg : BitcoinSettings) (calls : List Call) (w : World) (ctx : Ctx) (stop : Stop) (w' : World),
      cfg.validate = .ok () ∧ ctx.settings = cfg ∧
      (∀ call ∈ calls, call.SeesOneView ∧ call.answers.SpendsRequested) ∧
      OkRun cfg calls World.init w ∧
      BuildStep.batch.run ctx (World.start w.store w.news w.lastRetryAt) = (.error stop, w') ∧
      ¬ NothingHalfReserved w.store w'.log w'.store := by
  obtain ⟨stop, hstop⟩ := batch_stops_builderDown
  have hrun : BuildStep.batch.run builderDownCtx unbuiltWorld =
      (.error stop, (BuildStep.batch.run builderDownCtx unbuiltWorld).2) := by
    rw [← hstop]
  refine ⟨defaultSettings, unbuiltCalls, runCalls defaultSettings unbuiltCalls World.init,
    builderDownCtx, stop, _, BitcoinSettings.validate_default _, rfl, ?_,
    okRun_runCalls (by decide +kernel), hrun, ?_⟩
  · intro call hcall
    simp only [unbuiltCalls, List.mem_cons, List.not_mem_nil, or_false] at hcall
    rcases hcall with rfl | rfl | rfl <;>
      exact ⟨NodeView.call_seesOneView (by decide +kernel) _ _ _ _,
        plainBuilder_spendsRequested _ _ _ _⟩
  · rintro (⟨tx, before, record, hin, -⟩ | ⟨hkept, -⟩)
    · have hnone : insertions (BuildStep.batch.run builderDownCtx unbuiltWorld).2.log = [] := by
        decide +kernel
      obtain ⟨older, hmem⟩ := exists_mem_insertions hin
      rw [hnone] at hmem
      cases hmem
    · have hflag : (runCalls defaultSettings unbuiltCalls World.init).store.flag
          (.queued sampleFunding.outPoint) = some false := by decide +kernel
      have hset : (BuildStep.batch.run builderDownCtx unbuiltWorld).2.store.flag
          (.queued sampleFunding.outPoint) = some true := by decide +kernel
      rw [hkept _ _ hflag] at hset
      cases hset

end BitcoinCoordinator
