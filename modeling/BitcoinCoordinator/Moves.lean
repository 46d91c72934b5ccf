import BitcoinCoordinator.Effects

/-!
# What a single move can do

Every function of the coordinator, whatever it is answered and wherever it stops, changes the world
by a chain of the moves listed here. A claim about every run is then a case analysis on one move.
The conditions of each move are those under which the source performs it.
-/

namespace BitcoinCoordinator

open Foundation

/-! ### Copies and records -/

/-- A property of the record of one transaction. -/
def RecordAt (txid : Txid) (J : Option CoordinatedTx → Prop) (w : World) : Prop :=
  J (w.store.txs.get txid)

/-- A record with a property, as a property of what is found under an identifier. -/
def Holds (P : CoordinatedTx → Prop) (record : Option CoordinatedTx) : Prop :=
  ∃ tx, record = some tx ∧ P tx

/-- The marks that the handling of one transaction leaves on the context of another. -/
inductive Mark where
  | spent (flag : Bool)
  | replacedBy (txid : Option Txid)

/-- Set a mark. -/
def Mark.apply (mark : Mark) (context : SpeedupContext) : SpeedupContext :=
  match mark with
  | .spent flag => { context with spent := flag }
  | .replacedBy txid => { context with replacedBy := txid }

/-- A kind without its marks. -/
def TxKind.unmarked : TxKind → TxKind
  | .speedup kind =>
    .speedup (kind.modifyContext fun c => { c with replacedBy := none, spent := false })
  | kind => kind

/-- A record without what the handling of other transactions can change of it. -/
def CoordinatedTx.core (tx : CoordinatedTx) : CoordinatedTx :=
  { tx with kind := tx.kind.unmarked, state := .toDispatch, settledBlockHeight := none }

/-- A record as it can have become, by the handling of other transactions, since a copy of it was
read: its marks changed, or it failed. -/
structure Drifted (copy record : CoordinatedTx) : Prop where
  core : record.core = copy.core
  state : (record.state = copy.state ∧ record.settledBlockHeight = copy.settledBlockHeight) ∨
    (copy.state.canTransitionTo .failed ∧ record.state = .failed ∧
      record.settledBlockHeight.isSome)

/-- The record of a copy is tracked and has at most drifted from it. -/
def StillStored (copy : CoordinatedTx) (w : World) : Prop :=
  RecordAt copy.txid (Holds (Drifted copy)) w

/-- What the replaced record of an RBF is, if it is tracked. -/
def CoordinatedTx.ReplacesSpeedup (s : Store) (tx : CoordinatedTx) : Prop :=
  ∀ replaces, tx.replaces? = some replaces → ∀ old, s.txs.get replaces = some old → old.speedup?.isSome

/-- A speedup is in the speedup list. -/
def CoordinatedTx.IsListed (tx : CoordinatedTx) (w : World) : Prop :=
  tx.speedup?.isSome → tx.txid ∈ w.store.speedupList

/-- A version of the store that the run has reached. -/
def World.HasVersion (w : World) (s : Store) : Prop :=
  s = w.store ∨ ∃ after, .wrote s after ∈ w.log

/-- The versions written over since a client transaction was last registered, newest first. -/
def recentVersions : List Event → List Store
  | [] => []
  | .registering _ _ :: _ => []
  | .wrote before _ :: older => before :: recentVersions older
  | _ :: older => recentVersions older

/-- A version of the store since a client transaction was last registered. -/
def World.HasRecent (w : World) (s : Store) : Prop := s = w.store ∨ s ∈ recentVersions w.log

/-- A copy was the stored record in some version since a client transaction was last registered. -/
def WasStored (copy : CoordinatedTx) (w : World) : Prop :=
  ∃ s, w.HasRecent s ∧ s.txs.get copy.txid = some copy

/-- The list holds each parent once, or it was taken from the parents of a speedup in their order. -/
def IsRequeue (txids : List Txid) (w : World) : Prop :=
  txids.Nodup ∨ ∃ copy kind, WasStored copy w ∧ copy.speedup? = some kind ∧ txids.Sublist kind.parents

/-! ### Writes -/

/-- The parts of a run: steps 1 to 4 of a tick, steps 5 and 6, and the other calls. -/
inductive Phase where
  | settle
  | build
  | serve

/-- The ways the source changes a tracked record in place, in a part of a run and with the history so
far. When `tidy` holds, the speedup list held no duplicates as the call began. -/
inductive Change (tidy : Prop) (log : List Event) (tx : CoordinatedTx) :
    Phase → CoordinatedTx → Prop where
  /-- A transaction in flight moves within the mempool and the chain. -/
  | advance (state : TransactionState) (hstep : tx.state.canTransitionTo state)
      (hflight : state = .inMempool ∨ state = .confirmed) (hfrom : tidy → tx.isInFlight) :
      Change tidy log tx .settle { tx with state := state }
  /-- A transaction in flight reached the finality depth. -/
  | finalize (height : BlockHeight) (hstep : tx.state.canTransitionTo .finalized)
      (hfrom : tidy → tx.isInFlight) :
      Change tidy log tx .settle { tx with settledBlockHeight := some height, state := .finalized }
  /-- A transaction failed. -/
  | fail (height : BlockHeight) (hstep : tx.state.canTransitionTo .failed) :
      Change tidy log tx .settle { tx with settledBlockHeight := some height, state := .failed }
  /-- A rejected record goes back to dispatch and counts the attempt. -/
  | retry (hstep : tx.state.canTransitionTo .toDispatch) (hfrom : tidy → tx.state = .toDispatch)
      (hcause : log.head? = some (.transient tx.txid) ∨
        ∃ height, log.head? = some (.deferred tx.txid height)) :
      Change tidy log tx .settle { tx with state := .toDispatch, retryCount := tx.retryCount + 1 }
  /-- A mark of a speedup changes. -/
  | mark (phase : Phase) (kind : SpeedupKind) (mark : Mark) (hkind : tx.kind = .speedup kind) :
      Change tidy log tx phase { tx with kind := .speedup (kind.modifyContext mark.apply) }
  /-- The rate of the predecessor of a capped RBF is raised to the maximum. -/
  | atCap (maxFeerate : ℕ) :
      Change tidy log tx .build { tx with
        feeInfo := { tx.feeInfo with packageFeeRate := maxFeerate } }

/-- The ways the source writes a record back from a copy. -/
inductive Rewrite (copy : CoordinatedTx) : CoordinatedTx → Prop where
  /-- A confirmed transaction reappeared in the mempool. -/
  | reorg (height : BlockHeight) (hstate : copy.state = .confirmed) :
      Rewrite copy { copy with state := .inMempool, broadcastBlockHeight := some height }
  /-- A transaction was accepted by the node. -/
  | accepted (height : BlockHeight) (feeInfo : FeeInfo) (hstate : copy.state = .toDispatch)
      (hfee : copy.speedup?.isSome → feeInfo = copy.feeInfo) :
      Rewrite copy { copy with
        state := .inMempool
        broadcastBlockHeight := some height
        feeInfo := feeInfo
        failGuardUntil := none }
  /-- A transaction was found on chain. -/
  | confirmed (height : BlockHeight) (hstate : copy.state = .toDispatch) :
      Rewrite copy { copy with
        broadcastBlockHeight := some (copy.broadcastBlockHeight.getD height)
        state := .confirmed
        failGuardUntil := none }

/-- A vanished record back in dispatch, its guard armed unless it was. -/
def CoordinatedTx.requeued (tx : CoordinatedTx) (deadline : BlockHeight) : CoordinatedTx :=
  { tx with state := .toDispatch, failGuardUntil := some (tx.failGuardUntil.getD deadline) }

/-- A record as it is first stored. -/
structure CoordinatedTx.IsNew (tx : CoordinatedTx) : Prop where
  state : tx.state = .toDispatch
  settled : tx.settledBlockHeight = none
  broadcast : tx.broadcastBlockHeight = none
  guard : tx.failGuardUntil = none
  retries : tx.retryCount = 0

/-- The writes that leave every record in place and every list right: a parent leaves the pending
list, or the flag of a queued output changes. -/
inductive QuietWrite (s : Store) : Store → Prop where
  | unpended (txid : Txid) : QuietWrite s (s.unpend txid)
  | flagged (op : OutPoint) (record : FundingData) (hget : s.funding op = some record)
      (spent : Bool) : QuietWrite s (s.setFunding op { record with spent := spent })

/-- The writes of the funding queue. -/
inductive QueueWrite (s : Store) : Store → Prop where
  | queued (ops : List OutPoint) : QueueWrite s { s with fundingList := ops }
  | funded (op : OutPoint) (record : FundingData) : QueueWrite s (s.setFunding op record)
  | unfunded (op : OutPoint) : QueueWrite s (s.eraseFunding op)

/-- The pricing and the size of the speedup signed last. -/
def lastSigned : List Event → Option (Pricing × ℕ)
  | [] => none
  | .signed pricing vsize :: _ => some (pricing, vsize)
  | _ :: older => lastSigned older

/-- The speedups a history stored, each with the version it was stored over and the history before
it. -/
def insertions : List Event → List (CoordinatedTx × Store × List Event)
  | [] => []
  | .inserted tx before :: older => (tx, before, older) :: insertions older
  | _ :: older => insertions older

/-- Every insertion of a history is one of its insertions. -/
theorem exists_mem_insertions {tx : CoordinatedTx} {before : Store} {log : List Event}
    (h : .inserted tx before ∈ log) : ∃ older, (tx, before, older) ∈ insertions log := by
  induction log with
  | nil => exact absurd h List.not_mem_nil
  | cons e older ih =>
    rcases List.mem_cons.mp h with rfl | hold
    · exact ⟨older, List.mem_cons_self⟩
    · obtain ⟨older', hmem⟩ := ih hold
      refine ⟨older', ?_⟩
      cases e <;> first | exact hmem | exact List.mem_cons_of_mem _ hmem

/-- An insertion of a history is an entry of it. -/
theorem mem_of_mem_insertions {log : List Event} {p : CoordinatedTx × Store × List Event}
    (h : p ∈ insertions log) : .inserted p.1 p.2.1 ∈ log := by
  induction log with
  | nil => exact absurd h List.not_mem_nil
  | cons e older ih =>
    cases e with
    | inserted tx before =>
      rcases List.mem_cons.mp h with rfl | hold
      · exact List.mem_cons_self
      · exact List.mem_cons_of_mem _ (ih hold)
    | _ => exact List.mem_cons_of_mem _ (ih h)

/-- The transaction a boost replaces or extends. -/
def CoordinatedTx.predecessor? (tx : CoordinatedTx) : Option Txid :=
  match tx.speedup? with
  | some (.rbf replaces _ _) => some replaces
  | some (.cpfp parents _) => parents.head?
  | none => none

/-- The outputs a build is asked to spend: its funding inputs and the outputs its parents name. -/
def requestedInputs (data : List SpeedupData) (inputs : List Utxo) : List OutPoint :=
  data.filterMap SpeedupData.outPoint? ++ inputs.map Utxo.outPoint

/-- The outputs a record takes: those it spends and, for a speedup, its funding inputs and the outputs
its credited parents name. -/
def CoordinatedTx.takes (tx : CoordinatedTx) : List OutPoint :=
  tx.tx.spends ++
    match tx.speedup? with
    | some kind =>
      requestedInputs (kind.context.parentData.map Prod.fst) kind.context.fundingInputs
    | none => []

/-- Where an output that a build asks to spend comes from. -/
inductive Source (s : Store) (op : OutPoint) : Prop where
  /-- It is an output of a speedup in the mempool or on chain. -/
  | change (tip : CoordinatedTx) (hget : s.txs.get op.txid = some tip)
      (hspeedup : tip.speedup?.isSome) (hstate : tip.state.isOnChainSide)
  /-- It is queued as funding. -/
  | queued (record : FundingData) (hqueued : record ∈ s.fundingRecords)
      (hop : record.utxo.outPoint = op)
  /-- A parent in the mempool or on chain names it. -/
  | parent (tx : CoordinatedTx) (data : SpeedupData) (hget : s.txs.get tx.txid = some tx)
      (hkind : tx.kind = .needsSpeedup data) (hstate : tx.state.isOnChainSide)
      (hop : data.outPoint? = some op)
  /-- A speedup in the mempool takes it. -/
  | inherited (last : CoordinatedTx) (hget : s.txs.get last.txid = some last)
      (hspeedup : last.speedup?.isSome) (hstate : last.state = .inMempool) (hop : op ∈ last.takes)

/-- What is known of a boost when it is stored: its predecessor is a speedup in the mempool, pays less
than the maximum rate, and the boost was priced above it. -/
def IsBoostOf (cfg : BitcoinSettings) (s : Store) (pricing : Pricing) (tx : CoordinatedTx) : Prop :=
  ∃ txid last, tx.predecessor? = some txid ∧ s.txs.get txid = some last ∧
    last.speedup?.isSome ∧ last.state = .inMempool ∧ last.feeInfo.packageFeeRate < cfg.fee.maxFeerateSatVb ∧
    last.feeInfo.packageFeeRate + 1 ≤ pricing.feeRate

/-- The funding input a build without initial inputs starts from: the change of the chain tip, else the
first unspent record of the queue. -/
def Store.primaryInput? (s : Store) : Option Utxo :=
  match findChainTip s.speedupsOrdered s.speedupsOrdered.reverse with
  | .ok (some tip) => tip.speedupChangeUtxo.toOption
  | .ok none => (s.fundingRecords.find? fun record => !record.spent).map FundingData.utxo
  | .error _ => none

/-- The speedup whose boost was decided on last, with the store at that moment. -/
def lastPlanned : List Event → Option (Txid × Store)
  | [] => none
  | .planned last s :: _ => some (last, s)
  | _ :: older => lastPlanned older

/-- What a boost that is a child was built for: its parent is the speedup whose boost was decided on
last, and its first funding input the primary input at that moment. -/
def IsChildOf (log : List Event) (parents : List Txid) (inputs : List Utxo) : Prop :=
  ∃ last s, lastPlanned log = some (last, s) ∧ parents = [last] ∧ inputs.head?.isSome ∧
    inputs.head? = s.primaryInput?

/-- No listed transaction waits for dispatch. -/
def Store.Idle (s : Store) : Prop :=
  ∀ txid ∈ s.speedupList, ∀ tx, s.txs.get txid = some tx → tx.state ≠ .toDispatch

/-- The transactions a speedup accelerates are tracked, in the mempool or on chain. -/
def CoordinatedTx.Covers (tx : CoordinatedTx) (s : Store) : Prop :=
  ∀ kind, tx.speedup? = some kind → ∀ txid ∈ kind.parents,
    Holds (fun parent => parent.state.isOnChainSide) (s.txs.get txid)

/-- The parents a speedup accelerates were read off the pending list, or it has one. -/
def IsBatch (parents : List Txid) (w : World) : Prop :=
  parents.Nodup ∨ ∃ s, w.HasVersion s ∧ parents.Sublist s.pendingSpeedupParents

/-- What is known of a speedup when it is stored: it is new and has funding, no listed speedup waits
for dispatch, what it accelerates is tracked, it was the last one signed, no larger than the size it
was priced at, its recorded fees are those of that pricing, and the builder was asked to spend outputs
of known origin. -/
structure Insertable (ctx : Ctx) (w : World) (tx : CoordinatedTx) : Prop where
  isNew : tx.IsNew
  funded : ∃ kind, tx.speedup? = some kind ∧ kind.context.fundingInputs ≠ [] ∧
    IsBatch kind.parents w
  idle : w.store.Idle
  covers : tx.Covers w.store
  child : tx.isBoost → ∀ parents context, tx.speedup? = some (.cpfp parents context) →
    IsChildOf w.log parents context.fundingInputs
  signed : ∃ pricing, lastSigned w.log = some (pricing, tx.tx.vsize) ∧
    tx.tx.vsize ≤ pricing.childVsize ∧
    tx.feeInfo =
      feeInfoForPaidSpeedup tx.tx (ctx.settings.fee.price pricing).1 pricing.parentVsizes.sum ∧
    (tx.isBoost → IsBoostOf ctx.settings w.store pricing tx)
  built : ∃ n data inputs key fee,
    ctx.answers.speedupTransactions n data inputs key fee = .ok tx.tx ∧
      ∀ op ∈ requestedInputs data inputs, Source w.store op

/-- What is known of a record when it is dropped as stale: it has settled, and a parent is neither
pending nor covered by a live speedup. -/
def Store.Evictable (s : Store) (txid : Txid) : Prop :=
  ∀ tx, s.txs.get txid = some tx → tx.state.isTerminal ∧
    (tx.isNeedsSpeedup → txid ∉ s.pendingSpeedupParents ∧ txid ∉ s.liveCovered)

/-- A call was told of a height as far above the one a record settled at as is configured. -/
def Ctx.Buries (ctx : Ctx) (tx : CoordinatedTx) : Prop :=
  ∃ settledHeight n height, tx.settledBlockHeight = some settledHeight ∧
    ctx.answers.monitorHeight n = .ok height ∧
      ctx.settings.storage.maxTrackingConfirmations ≤ height - settledHeight

/-- What is known of a record when it is cancelled: it waits for dispatch and is no speedup. -/
def Store.Cancellable (s : Store) (txid : Txid) : Prop :=
  ∀ tx, s.txs.get txid = some tx → tx.state = .toDispatch ∧ tx.speedup? = none

/-! ### Moves -/

/-- The moments that are noted without anything known about them. -/
def Event.IsRemark : Event → Prop
  | .wrote _ _ | .registering _ _ | .cancelling _ _ | .rewrote _ _ | .inserted _ _ => False
  | .signed _ _ | .planned _ _ | .broadcast _ => False
  | .vanished _ _ | .deferred _ _ | .condemned _ _ | .judged _ _ _ _ => False
  | .transient _ | .exhausted _ => False
  | _ => True

/-- The moves that leave every transaction record in place and every list right. -/
inductive Quiet (w : World) : World → Prop where
  | asked : Quiet w w.asked
  | stamped (now : ℕ) : Quiet w { w with lastRetryAt := some now }
  | published (items : List StoredNewsItem) : Quiet w { w.asked with news := items }
  | noted (e : Event) (hremark : e.IsRemark) : Quiet w (w.noted e)
  | wrote (s : Store) (hwrite : QuietWrite w.store s) : Quiet w (w.written s)
  | prepended (txids : List Txid) (hneeds : ∀ txid ∈ txids, w.store.isNeedsSpeedup txid)
      (hrequeue : IsRequeue txids w) : Quiet w (w.written (w.store.prepend txids))

/-- The verdict on a missing input took effect: an excused record kept its state, and any other has
failed. -/
def Judged (txid : Txid) (height : BlockHeight) (before after : Store) : Prop :=
  ∃ old cur, before.txs.get txid = some old ∧ after.txs.get txid = some cur ∧
    (cur.isGuarded height = true → cur.state = old.state) ∧
    (cur.isGuarded height = false → cur.state = .failed)

/-- A changed record keeps its fees, or its rate is raised to the maximum. -/
def KeepsInfo (ctx : Ctx) (tx tx' : CoordinatedTx) : Prop :=
  tx'.feeInfo = tx.feeInfo ∨
    tx'.feeInfo.packageFeeRate = ctx.settings.fee.maxFeerateSatVb

/-- The moves after which every list still agrees with the records. -/
inductive Plain (ctx : Ctx) (tidy : Prop) : Phase → World → World → Prop where
  | quiet {phase : Phase} {w w' : World} (hquiet : Quiet w w') : Plain ctx tidy phase w w'
  | changed {phase : Phase} {w : World} (tx tx' : CoordinatedTx)
      (hget : w.store.txs.get tx.txid = some tx) (hchange : Change tidy w.log tx phase tx')
      (hinfo : KeepsInfo ctx tx tx') : Plain ctx tidy phase w (w.written (w.store.setTx tx'))
  | vanished {w : World} (tx : CoordinatedTx) (height : BlockHeight)
      (hget : w.store.txs.get tx.txid = some tx) (hstep : tx.state.canTransitionTo .toDispatch)
      (hfrom : tidy → tx.isInFlight) (hnote : w.log.head? = some (.notFound tx.txid height)) :
      Plain ctx tidy .settle w ((w.written (w.store.setTx
        (tx.requeued (height + ctx.settings.monitor.maxMonitoringConfirmations)))).noted
          (.vanished tx.txid (height + ctx.settings.monitor.maxMonitoringConfirmations)))
  | rewrote {w : World} (copy updated : CoordinatedTx) (hrewrite : Rewrite copy updated)
      (hread : WasStored copy w) (hdrift : tidy → StillStored copy w)
      (hlisted : tidy → copy.IsListed w) :
      Plain ctx tidy .settle w ((w.written (w.store.setTx updated)).noted (.rewrote copy w.store))
  | sent {w : World} (tx : Transaction) : Plain ctx tidy .settle w (w.noted (.broadcast tx))
  | deferred {w : World} (copy : CoordinatedTx) (height : BlockHeight)
      (hguard : copy.isGuarded height = true) (hdrift : tidy → StillStored copy w) :
      Plain ctx tidy .settle w (w.noted (.deferred copy.txid height))
  | condemned {w : World} (copy : CoordinatedTx) (height : BlockHeight)
      (hguard : copy.isGuarded height = false) (hdrift : tidy → StillStored copy w) :
      Plain ctx tidy .settle w (w.noted (.condemned copy.txid height))
  | judged {w : World} (txid : Txid) (height : BlockHeight) (before : Store)
      (hjudged : tidy → Judged txid height before w.store) :
      Plain ctx tidy .settle w (w.noted (.judged txid height before w.store))
  | transient {w : World} (txid : Txid) : Plain ctx tidy .settle w (w.noted (.transient txid))
  | exhausted {w : World} (copy : CoordinatedTx)
      (hbudget : ctx.settings.coordinator.retryAttemptsSendingTx ≤ copy.retryCount + 1)
      (hnote : w.log.head? = some (.transient copy.txid)) (hdrift : tidy → StillStored copy w) :
      Plain ctx tidy .settle w (w.noted (.exhausted copy.txid))
  | signed {w : World} (pricing : Pricing) (vsize : ℕ) (hsize : vsize ≤ pricing.childVsize) :
      Plain ctx tidy .build w (w.noted (.signed pricing vsize))
  | planned {w : World} (last : Txid) : Plain ctx tidy .build w (w.noted (.planned last w.store))
  | registering {w : World} (tx : CoordinatedTx) (hfresh : w.store.txs.get tx.txid = none) :
      Plain ctx tidy .serve w (w.noted (.registering tx w.store))
  | cancelling {w : World} (txids : List Txid)
      (hcancel : ∀ txid ∈ txids, w.store.Cancellable txid) :
      Plain ctx tidy .serve w (w.noted (.cancelling txids w.store))

/-- The moves that the source makes only together with others. -/
inductive Part (ctx : Ctx) (tidy : Prop) : Phase → World → World → Prop where
  | inserted {w : World} (tx : CoordinatedTx) (htx : Insertable ctx w tx) :
      Part ctx tidy .build w ((w.written (w.store.setTx tx)).noted (.inserted tx w.store))
  | listed {w : World} (txid : Txid) : Part ctx tidy .build w (w.written (w.store.list txid))
  | unlisted {phase : Phase} {w : World} (txid : Txid) (hphase : phase ≠ .build)
      (hidle : tidy → ∀ tx, w.store.txs.get txid = some tx → tx.state.isTerminal) :
      Part ctx tidy phase w (w.written (w.store.unlist txid))
  | evicted {w : World} (tx : CoordinatedTx) (hnote : w.log.head? = some (.evicting tx))
      (hstale : w.store.Evictable tx.txid) (haged : ctx.Buries tx) :
      Part ctx tidy .settle w (w.written (w.store.eraseTx tx.txid))
  | dropped {w : World} (txid : Txid) (hcancel : w.store.Cancellable txid)
      (hpending : txid ∉ w.store.pendingSpeedupParents) :
      Part ctx tidy .serve w (w.written (w.store.eraseTx txid))
  | registered {w : World} (tx : CoordinatedTx) (hfresh : w.store.txs.get tx.txid = none)
      (hkind : tx.speedup? = none) (hnew : tx.IsNew)
      (hnote : w.log.head? = some (.registering tx w.store)) :
      Part ctx tidy .serve w (w.written (w.store.setTx tx))
  | pended {w : World} (txid : Txid) : Part ctx tidy .serve w (w.written (w.store.pend txid))
  | queue {phase : Phase} {w : World} (s : Store) (hphase : phase ≠ .build)
      (hwrite : QueueWrite w.store s) : Part ctx tidy phase w (w.written s)

/-- One move of the coordinator. -/
inductive Move (ctx : Ctx) (tidy : Prop) (phase : Phase) (w w' : World) : Prop where
  | plain (hplain : Plain ctx tidy phase w w')
  | part (hpart : Part ctx tidy phase w w')

/-! ### Steps -/

/-- A storage operation of several writes, as a run of its program with the given result. -/
inductive Whole (ctx : Ctx) (tidy : Prop) (r : Except Stop Unit) : Phase → World → World → Prop where
  | inserted {w w' : World} (tx : CoordinatedTx) (htx : Insertable ctx w tx)
      (hrun : insertSpeedup tx ctx w = (r, w')) : Whole ctx tidy r .build w w'
  | evicted {w w' : World} (tx : CoordinatedTx) (hnote : w.log.head? = some (.evicting tx))
      (hstale : w.store.Evictable tx.txid) (haged : ctx.Buries tx)
      (hrun : removeTx tx.txid ctx w = (r, w')) : Whole ctx tidy r .settle w w'
  | dropped {w w' : World} (txid : Txid) (hcancel : w.store.Cancellable txid)
      (hpending : txid ∉ w.store.pendingSpeedupParents)
      (hrun : removeTx txid ctx w = (r, w')) : Whole ctx tidy r .serve w w'
  | registered {w w' : World} (tx : CoordinatedTx) (hfresh : w.store.txs.get tx.txid = none)
      (hkind : tx.speedup? = none) (hnew : tx.IsNew)
      (hrun : storeRegistered tx ctx w = (r, w')) : Whole ctx tidy r .serve w w'
  | funded {w w' : World} (utxo : Utxo) (hrun : appendFunding utxo ctx w = (r, w')) :
      Whole ctx tidy r .serve w w'
  | swapped {w w' : World} (txid : Txid)
      (hterminal : tidy → ∀ tx, w.store.txs.get txid = some tx → tx.state.isTerminal)
      (hrun : replaceFundingOnFinalize txid ctx w = (r, w')) : Whole ctx tidy r .settle w w'

/-- One step of the coordinator: a move that stands for itself, or an operation carried out whole. -/
inductive Step (ctx : Ctx) (tidy : Prop) (phase : Phase) (w w' : World) : Prop where
  | plain (hplain : Plain ctx tidy phase w w')
  | whole (hwhole : Whole ctx tidy (.ok ()) phase w w')

/-- An operation that stopped on its way. -/
def Torn (ctx : Ctx) (tidy : Prop) (phase : Phase) (w w' : World) : Prop :=
  ∃ stop, Whole ctx tidy (.error stop) phase w w'

variable {ctx : Ctx} {tidy : Prop} {phase : Phase} {w w' : World}

/-- A changed record keeps its identifier. -/
theorem Change.txid_eq {log : List Event} {tx tx' : CoordinatedTx}
    (h : Change tidy log tx phase tx') : tx'.txid = tx.txid := by
  cases h <;> rfl

/-- A changed record made a valid lifecycle step. -/
theorem Change.canTransitionTo {log : List Event} {tx tx' : CoordinatedTx}
    (h : Change tidy log tx phase tx') : tx.state.canTransitionTo tx'.state := by
  cases h with
  | advance state hstep _ _ => exact hstep
  | finalize height hstep _ => exact hstep
  | fail height hstep => exact hstep
  | retry hstep _ _ => exact hstep
  | mark _ kind mark _ => exact TransactionState.canTransitionTo_self tx.state
  | atCap maxFeerate => exact TransactionState.canTransitionTo_self tx.state

/-- A record written back keeps its identifier. -/
theorem Rewrite.txid_eq {copy updated : CoordinatedTx} (h : Rewrite copy updated) :
    updated.txid = copy.txid := by
  cases h <;> rfl

/-- A quiet write leaves the records alone. -/
theorem QuietWrite.txs_eq {s s' : Store} (h : QuietWrite s s') : s'.txs = s.txs := by
  cases h <;> rfl

/-- A write of the queue leaves the records alone. -/
theorem QueueWrite.txs_eq {s s' : Store} (h : QueueWrite s s') : s'.txs = s.txs := by
  cases h <;> rfl

/-- Listing a transaction leaves the records alone. -/
@[simp] theorem Store.txs_list (s : Store) (txid : Txid) : (s.list txid).txs = s.txs := by
  unfold Store.list
  split <;> rfl

/-- Putting a parent on the pending list leaves the records alone. -/
@[simp] theorem Store.txs_pend (s : Store) (txid : Txid) : (s.pend txid).txs = s.txs := by
  unfold Store.pend
  split <;> rfl

/-- A quiet move leaves the records alone. -/
theorem Quiet.txs_eq (h : Quiet w w') : w'.store.txs = w.store.txs := by
  cases h with
  | asked => rfl
  | stamped now => rfl
  | published items => rfl
  | noted e hremark => rfl
  | wrote s hwrite => exact hwrite.txs_eq
  | prepended txids hneeds hrequeue => rfl

/-- A quiet move leaves the speedup list alone. -/
theorem Quiet.speedupList_eq (h : Quiet w w') : w'.store.speedupList = w.store.speedupList := by
  cases h with
  | asked => rfl
  | stamped now => rfl
  | published items => rfl
  | noted e hremark => rfl
  | wrote s hwrite => cases hwrite <;> rfl
  | prepended txids hneeds hrequeue => rfl

/-- A quiet move adds to the history a write or a remark, if anything. -/
theorem Quiet.log_eq (h : Quiet w w') :
    w'.log = w.log ∨ (∃ e, e.IsRemark ∧ w'.log = e :: w.log) ∨
      w'.log = .wrote w.store w'.store :: w.log := by
  cases h with
  | asked => exact Or.inl rfl
  | stamped now => exact Or.inl rfl
  | published items => exact Or.inl rfl
  | noted e hremark => exact Or.inr (Or.inl ⟨e, hremark, rfl⟩)
  | wrote s hwrite => exact Or.inr (Or.inr rfl)
  | prepended txids hneeds hrequeue => exact Or.inr (Or.inr rfl)

/-- A quiet move stores no speedup. -/
theorem Quiet.insertions_eq (h : Quiet w w') : insertions w'.log = insertions w.log := by
  rcases h.log_eq with hlog | ⟨e, hremark, hlog⟩ | hlog
  · rw [hlog]
  · rw [hlog]
    cases e <;> first | rfl | exact absurd hremark id
  · rw [hlog]
    rfl

/-- A plain move stores no speedup. -/
theorem Plain.insertions_eq (h : Plain ctx tidy phase w w') :
    insertions w'.log = insertions w.log := by
  cases h with
  | quiet hquiet => exact hquiet.insertions_eq
  | _ => rfl

/-- A move stores nothing, or one speedup that was just built. -/
theorem Move.insertions_cases (h : Move ctx tidy phase w w') :
    insertions w'.log = insertions w.log ∨
      phase = .build ∧ ∃ tx, Insertable ctx w tx ∧ w'.store = w.store.setTx tx ∧
        insertions w'.log =
          (tx, w.store, .wrote w.store (w.store.setTx tx) :: w.log) :: insertions w.log := by
  rcases h with hplain | hpart
  · exact Or.inl hplain.insertions_eq
  · cases hpart with
    | inserted tx htx => exact Or.inr ⟨rfl, tx, htx, rfl, rfl⟩
    | _ => exact Or.inl rfl

/-- A quiet move decides on no boost. -/
theorem Quiet.lastPlanned_eq (h : Quiet w w') : lastPlanned w'.log = lastPlanned w.log := by
  rcases h.log_eq with hlog | ⟨e, hremark, hlog⟩ | hlog
  · rw [hlog]
  · rw [hlog]
    cases e <;> first | rfl | exact absurd hremark id
  · rw [hlog]
    rfl

/-- After a quiet move still no listed transaction waits for dispatch. -/
theorem Quiet.idle (h : Quiet w w') (hidle : w.store.Idle) : w'.store.Idle := by
  unfold Store.Idle
  rw [h.speedupList_eq, h.txs_eq]
  exact hidle

/-- A quiet move signs nothing. -/
theorem Quiet.lastSigned_eq (h : Quiet w w') : lastSigned w'.log = lastSigned w.log := by
  rcases h.log_eq with hlog | ⟨e, hremark, hlog⟩ | hlog
  · rw [hlog]
  · rw [hlog]
    cases e <;> first | rfl | exact absurd hremark id
  · rw [hlog]
    rfl

end BitcoinCoordinator
