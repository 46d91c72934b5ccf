import BitcoinCoordinator.Config
import BitcoinCoordinator.Foundation.Program
import BitcoinCoordinator.Foundation.Table

/-!
# The world a coordinator call runs in

A call reads its settings and the answers of the node, the monitor, the transaction builder,
the clock and the storage backend, and updates the persisted store. The answers are numbered,
so two questions of one call may be answered differently, and every fallible answer may be an
error. A write that the backend refuses leaves the store at the last version written, which is
also where a crash between two writes leaves it. Reads of the backend succeed.

The log is a history variable. No branch reads it: it only lets statements speak about the
versions a store went through and about the moments a function was entered.
-/

namespace BitcoinCoordinator

open Foundation

/-- A stored news item and the block at which it was acknowledged. -/
structure StoredNewsItem where
  news : CoordinatorNews
  ackedAtBlock : Option BlockHeight
  deriving DecidableEq, Repr

/-- The persisted state but the news, one field for each kind of storage key. A record is stored
under its own identifier. -/
structure Store where
  txs : Table Txid CoordinatedTx
  keyed : ∀ id tx, txs.get id = some tx → tx.txid = id
  speedupList : List Txid
  pendingSpeedupParents : List Txid
  fundingList : List OutPoint
  funding : OutPoint → Option FundingData

/-- A store nothing was written to yet. -/
def Store.empty : Store where
  txs := Table.empty
  keyed := by simp
  speedupList := []
  pendingSpeedupParents := []
  fundingList := []
  funding := fun _ => none

/-- The chain status the monitor reports for a transaction, as the predicates the engines ask. -/
structure TransactionStatus where
  isInMempool : Bool
  isNotFound : Bool
  isFinalized : ℕ → Bool
  isConfirmed : Bool
  isOrphan : Bool

/-- The answers of everything outside the coordinator, numbered in the order of the questions. -/
structure Answers where
  monitorTick : ℕ → Except String Unit
  isReady : ℕ → Except String Bool
  monitorHeight : ℕ → Except String BlockHeight
  txStatus : ℕ → Txid → Bool → Except String TransactionStatus
  txConfirmations : ℕ → Txid → Except String (Option ℕ)
  isUtxoUnspent : ℕ → Txid → ℕ → Bool → Except String Bool
  estimatedFeeRate : ℕ → Except String ℕ
  monitor : ℕ → TypesToMonitor → Bool → Except String Unit
  cancel : ℕ → TypesToMonitor → Except String Unit
  sendTransaction : ℕ → Transaction → Except String Txid
  speedupTransactions :
    ℕ → List SpeedupData → List Utxo → PublicKey → ℕ → Except String Transaction
  storage : ℕ → Except String Unit
  nowSecs : ℕ → ℕ
  /-- The least change output the transaction builder accepts. -/
  maxDustLimit : ℕ
  /-- How many rounds the fee loop of a build is observed for. -/
  buildRounds : ℕ

/-- What stays fixed during one call. -/
structure Ctx where
  settings : BitcoinSettings
  answers : Answers

/-- The quantities the fee of a speedup is computed from. -/
structure Pricing where
  parentVsizes : List ℕ
  childVsize : ℕ
  bumpFee : ℚ
  feeRate : ℕ
  isRbf : Bool
  chainDiffFee : ℕ

/-- Moments of a run that statements refer to, with the store at that moment where it matters. -/
inductive Event where
  /-- The backend took a new version of the store. -/
  | wrote (before after : Store)
  /-- A client transaction is about to be stored. -/
  | registering (tx : CoordinatedTx) (s : Store)
  /-- The eligible transactions of a cancel request are about to be dropped. -/
  | cancelling (txids : List Txid) (s : Store)
  /-- A funding UTXO is about to be appended to the queue. -/
  | addingFunding (utxo : Utxo) (s : Store)
  /-- A settled record is about to be evicted. -/
  | evicting (tx : CoordinatedTx)
  /-- A whole record was written back from the caller's copy, over the given store. -/
  | rewrote (copy : CoordinatedTx) (before : Store)
  /-- A freshly built speedup was stored, over the given store. -/
  | inserted (tx : CoordinatedTx) (before : Store)
  /-- A finalized speedup is about to be swapped into the funding queue. -/
  | finalizing (txid : Txid) (s : Store)
  /-- A speedup was signed at the given size for the fee of the given pricing. -/
  | signed (pricing : Pricing) (vsize : ℕ)
  /-- A review was told that a transaction in flight is not found. -/
  | notFound (txid : Txid) (height : BlockHeight)
  /-- A transaction that was not found went back to dispatch, its guard armed until the deadline. -/
  | vanished (txid : Txid) (deadline : BlockHeight)
  /-- A missing input is about to be excused, since the guard runs. -/
  | deferred (txid : Txid) (height : BlockHeight)
  /-- A missing input is about to settle a transaction. -/
  | condemned (txid : Txid) (height : BlockHeight)
  /-- A missing input was dealt with. -/
  | judged (txid : Txid) (height : BlockHeight) (before after : Store)
  /-- A broadcast was rejected while the inputs are intact. -/
  | transient (txid : Txid)
  /-- The retry budget of a transaction ran out. -/
  | exhausted (txid : Txid)
  /-- A dispatch outcome was handled. -/
  | handled (txid : Txid) (outcome : DispatchOutcome) (before after : Store)
  /-- The spent flag of an outpoint was set or cleared. -/
  | marked (outpoint : OutPoint) (spent : Bool)
  /-- A boost of a speedup was decided on. -/
  | planned (last : Txid) (s : Store)
  /-- A parent covered by a build left the pending list. -/
  | taken (txid : Txid)
  /-- A speedup is in the transaction store and in the speedup list. -/
  | recorded (txid : Txid)
  /-- The monitor was asked to watch something. -/
  | monitored (data : TypesToMonitor) (inMempool : Bool)
  /-- The monitor was asked to stop watching something. -/
  | unmonitored (data : TypesToMonitor)
  /-- A transaction was handed to the node. -/
  | broadcast (tx : Transaction)

/-- The persisted store and news, the retry timer kept in memory, the number of questions asked so
far, and the history, newest entry first. -/
structure World where
  store : Store
  news : List StoredNewsItem
  lastRetryAt : Option ℕ
  clock : ℕ
  log : List Event

/-- A world that has just started on a persisted state. -/
def World.start (s : Store) (news : List StoredNewsItem) (lastRetryAt : Option ℕ) : World :=
  ⟨s, news, lastRetryAt, 0, []⟩

/-- The world before the first call. -/
def World.init : World := World.start Store.empty [] none

/-- The world after one more question. -/
def World.asked (w : World) : World := { w with clock := w.clock + 1 }

/-- The world after one more entry of the history. -/
def World.noted (w : World) (e : Event) : World := { w with log := e :: w.log }

/-- The world after the backend took a version. -/
def World.written (w : World) (s : Store) : World :=
  { w with store := s, clock := w.clock + 1, log := .wrote w.store s :: w.log }

/-- A coordinator computation. -/
abbrev Coord (α : Type) : Type := Prog Ctx Stop World α

/-- Stop with a coordinator error. -/
def fail {α : Type} (e : BitcoinCoordinatorError) : Coord α := Prog.stop (.error e)

/-- The settings of the call. -/
def settings : Coord BitcoinSettings := Prog.ask Ctx.settings

/-- Read the persisted store. -/
def readStore {α : Type} (f : Store → α) : Coord α := Prog.read fun w => f w.store

/-- Record a moment of the run. -/
def note (e : Store → Event) : Coord Unit :=
  Prog.modify fun w => w.noted (e w.store)

/-- Ask the environment one question; an error answer stops the call. -/
def query {α : Type} (wrap : String → BitcoinCoordinatorError)
    (question : Answers → ℕ → Except String α) : Coord α := fun ctx w =>
  match question ctx.answers w.clock with
  | .ok a => (.ok a, w.asked)
  | .error e => (.error (.error (wrap e)), w.asked)

/-- Ask a question whose error the caller handles itself. -/
def attempt {α : Type} (question : Answers → ℕ → Except String α) : Coord (Except String α) :=
  fun ctx w => (.ok (question ctx.answers w.clock), w.asked)

/-- Ask a question that is always answered. -/
def ask {α : Type} (question : Answers → ℕ → α) : Coord α := fun ctx w =>
  (.ok (question ctx.answers w.clock), w.asked)

/-- Write the persisted store: the backend takes the new version durably, or refuses it. -/
def writeStore (f : Store → Store) : Coord Unit := fun ctx w =>
  match ctx.answers.storage w.clock with
  | .ok () => (.ok (), w.written (f w.store))
  | .error e => (.error (.error (.storageBackendError e)), w.asked)

/-- Write the persisted news: the backend takes the new list durably, or refuses it. -/
def writeNews (f : List StoredNewsItem → List StoredNewsItem) : Coord Unit := fun ctx w =>
  match ctx.answers.storage w.clock with
  | .ok () => (.ok (), { w.asked with news := f w.news })
  | .error e => (.error (.error (.storageBackendError e)), w.asked)

/-- A completed store read returned the value found and changed nothing. -/
@[simp] theorem readStore_ok {α : Type} {f : Store → α} {ctx : Ctx} {w w' : World} {a : α} :
    readStore f ctx w = (.ok a, w') ↔ a = f w.store ∧ w' = w :=
  Prog.read_ok

/-- The settings are those of the call. -/
@[simp] theorem settings_ok {ctx : Ctx} {w w' : World} {a : BitcoinSettings} :
    settings ctx w = (.ok a, w') ↔ a = ctx.settings ∧ w' = w :=
  Prog.ask_ok

/-- A failed call never completes. -/
@[simp] theorem fail_ok {α : Type} {e : BitcoinCoordinatorError} {ctx : Ctx} {w w' : World}
    {a : α} : (fail e : Coord α) ctx w = (.ok a, w') ↔ False :=
  Prog.stop_ok

/-- A recorded moment is the newest entry of the log. -/
@[simp] theorem note_ok {e : Store → Event} {ctx : Ctx} {w w' : World} {u : Unit} :
    note e ctx w = (.ok u, w') ↔ w' = w.noted (e w.store) :=
  Prog.modify_ok

/-- An answered question advances only the question counter. -/
theorem query_ok {α : Type} {wrap : String → BitcoinCoordinatorError}
    {question : Answers → ℕ → Except String α} {ctx : Ctx} {w w' : World} {a : α} :
    query wrap question ctx w = (.ok a, w') ↔
      question ctx.answers w.clock = .ok a ∧ w' = w.asked := by
  unfold query
  split
  · next b hb => simp [hb, eq_comm]
  · next e he => simp [he]

/-- An asked question advances only the question counter. -/
theorem ask_ok {α : Type} {question : Answers → ℕ → α} {ctx : Ctx} {w w' : World} {a : α} :
    ask question ctx w = (.ok a, w') ↔
      a = question ctx.answers w.clock ∧ w' = w.asked := by
  simp [ask, eq_comm]

/-- A completed write leaves the new version in the store and at the head of the history. -/
theorem writeStore_ok {f : Store → Store} {ctx : Ctx} {w w' : World} {u : Unit} :
    writeStore f ctx w = (.ok u, w') ↔
      ctx.answers.storage w.clock = .ok () ∧ w' = w.written (f w.store) := by
  unfold writeStore
  split
  · next h => simp [h, eq_comm]
  · next e he => simp [he]

/-- A completed write leaves the new list. -/
theorem writeNews_ok {f : List StoredNewsItem → List StoredNewsItem} {ctx : Ctx} {w w' : World}
    {u : Unit} :
    writeNews f ctx w = (.ok u, w') ↔
      ctx.answers.storage w.clock = .ok () ∧ w' = { w.asked with news := f w.news } := by
  unfold writeNews
  split
  · next h => simp [h, eq_comm]
  · next e he => simp [he]

end BitcoinCoordinator
