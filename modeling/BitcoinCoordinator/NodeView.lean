import BitcoinCoordinator.Versions

/-!
# Answers taken from one view of the chain

A node seen during one call: the transactions on chain with their confirmations, its mempool, the
other unspent outputs, and the transactions it relays when they are broadcast. All the answers of the
call are those of this one view.
-/

namespace BitcoinCoordinator

/-- A node as it is seen during one call. -/
structure NodeView where
  height : BlockHeight
  chain : List (Transaction × ℕ)
  mempool : List Transaction
  utxos : List OutPoint
  relays : List Transaction

/-- The transactions the node knows. -/
def NodeView.known (view : NodeView) : List Transaction := view.chain.map Prod.fst ++ view.mempool

/-- The depth of a transaction: its confirmations on chain, zero in the mempool. -/
def NodeView.confirmations (view : NodeView) (txid : Txid) : Option ℕ :=
  match view.chain.find? fun p => p.1.computeTxid = txid with
  | some p => some p.2
  | none => (view.mempool.find? fun tx => tx.computeTxid = txid).map fun _ => 0

/-- True when an output exists and nothing the node knows spends it. -/
def NodeView.isUnspent (view : NodeView) (op : OutPoint) : Bool :=
  (decide (op ∈ view.utxos) || view.known.any fun tx =>
    decide (tx.computeTxid = op.txid) && decide (op.vout < tx.output.length)) &&
  view.known.all fun tx => decide (op ∉ tx.spends)

/-- The monitor's report on a transaction. -/
def NodeView.status (view : NodeView) (txid : Txid) : TransactionStatus where
  isInMempool := decide (view.confirmations txid = some 0)
  isNotFound := (view.confirmations txid).isNone
  isFinalized := fun depth => (view.confirmations txid).any fun n => decide (depth ≤ n)
  isConfirmed := (view.confirmations txid).any fun n => decide (0 < n)
  isOrphan := false

/-- No output is spent twice by what the node knows, and the node relays only transactions whose
inputs are all unspent in the view. -/
def NodeView.Consistent (view : NodeView) : Prop :=
  (view.known.flatMap Transaction.spends).Nodup ∧
    ∀ tx ∈ view.relays, ∀ op ∈ tx.spends, view.isUnspent op = true

instance (view : NodeView) : Decidable view.Consistent :=
  inferInstanceAs (Decidable (_ ∧ _))

/-- A transaction builder, with the size of its signatures left open. -/
abbrev Builder := List SpeedupData → List Utxo → PublicKey → ℕ → Transaction

/-- The answers of a call during which nothing fails and the node is seen through one view. -/
def NodeView.answers (view : NodeView) (builder : Builder) (feeRate secs : ℕ) : Answers where
  monitorTick := fun _ => .ok ()
  isReady := fun _ => .ok true
  monitorHeight := fun _ => .ok view.height
  txStatus := fun _ txid _ => .ok (view.status txid)
  txConfirmations := fun _ txid => .ok (view.confirmations txid)
  isUtxoUnspent := fun _ txid vout _ => .ok (view.isUnspent ⟨txid, vout⟩)
  estimatedFeeRate := fun _ => .ok feeRate
  monitor := fun _ _ _ => .ok ()
  cancel := fun _ _ => .ok ()
  sendTransaction := fun _ tx =>
    if tx ∈ view.relays then .ok tx.computeTxid else .error "transaction rejected"
  speedupTransactions := fun _ data inputs key fee => .ok (builder data inputs key fee)
  storage := fun _ => .ok ()
  nowSecs := fun _ => secs
  maxDustLimit := 540
  buildRounds := 4

/-- The node's answers of a call are those of one view: a broadcast succeeds only when the view
relays the transaction. -/
def Answers.TakenFrom (answers : Answers) (view : NodeView) : Prop :=
  (∀ n, answers.monitorHeight n = .ok view.height) ∧
  (∀ n txid inMempool, answers.txStatus n txid inMempool = .ok (view.status txid)) ∧
  (∀ n txid, answers.txConfirmations n txid = .ok (view.confirmations txid)) ∧
  (∀ n txid vout inMempool,
    answers.isUtxoUnspent n txid vout inMempool = .ok (view.isUnspent ⟨txid, vout⟩)) ∧
  ∀ n tx id, answers.sendTransaction n tx = .ok id → tx ∈ view.relays

/-- A call whose answers come from one consistent view. -/
def Call.SeesOneView (call : Call) : Prop :=
  ∃ view : NodeView, view.Consistent ∧ call.answers.TakenFrom view

/-- The builder spends exactly what it is asked to spend. -/
def Answers.SpendsRequested (answers : Answers) : Prop :=
  ∀ n data inputs key fee tx, answers.speedupTransactions n data inputs key fee = .ok tx →
    ∀ op, op ∈ tx.spends ↔ op ∈ requestedInputs data inputs

/-- The answers of a view are taken from it. -/
theorem NodeView.answers_takenFrom (view : NodeView) (builder : Builder) (feeRate secs : ℕ) :
    (view.answers builder feeRate secs).TakenFrom view := by
  refine ⟨fun _ => rfl, fun _ _ _ => rfl, fun _ _ => rfl, fun _ _ _ _ => rfl, ?_⟩
  intro n tx id hsend
  by_contra hrelay
  simp [NodeView.answers, hrelay] at hsend

/-- A builder that signs at a size depending on the fee, with one change output. -/
def plainBuilder (vsize : ℕ → ℕ) : Builder := fun data inputs _ fee =>
  let spends := requestedInputs data inputs
  { computeTxid := spends.foldl (fun id op => 31 * id + 7 * op.txid + op.vout) fee + 1000
    input := spends.map TxIn.mk
    output := [⟨(inputs.map Utxo.amount).sum - fee⟩]
    vsize := vsize fee
    weight := 4 * vsize fee }

/-- The plain builder spends what it is asked to spend. -/
theorem plainBuilder_spendsRequested (view : NodeView) (vsize : ℕ → ℕ) (feeRate secs : ℕ) :
    (view.answers (plainBuilder vsize) feeRate secs).SpendsRequested := by
  intro n data inputs key fee tx hbuild op
  cases hbuild
  simp [plainBuilder, Transaction.spends]

/-- A funding UTXO of the example runs. -/
def sampleFunding : Utxo := ⟨9, 0, 1000000, 7⟩

/-- A parent of the example runs. -/
def sampleParent : Transaction := ⟨1, [⟨⟨50, 0⟩⟩], [⟨1000⟩, ⟨1000⟩], 150, 600⟩

/-- The output of the parent that a speedup spends. -/
def sampleAnchor : SpeedupData := ⟨some ⟨1, 1, 1000, 7⟩, none⟩

/-- A node that holds the example outputs unspent. -/
def sampleView (height : BlockHeight) (mempool relays : List Transaction) : NodeView :=
  ⟨height, [], mempool, [⟨50, 0⟩, ⟨9, 0⟩], relays⟩

/-- The request carried out while the node is seen through one view. -/
def NodeView.call (view : NodeView) (builder : Builder) (feeRate secs : ℕ) (request : Request) :
    Call :=
  ⟨request, view.answers builder feeRate secs⟩

/-- A call carried out under a consistent view sees one view. -/
theorem NodeView.call_seesOneView {view : NodeView} (h : view.Consistent) (builder : Builder)
    (feeRate secs : ℕ) (request : Request) : (view.call builder feeRate secs request).SeesOneView :=
  ⟨view, h, view.answers_takenFrom builder feeRate secs⟩

/-- The default settings. -/
def defaultSettings : BitcoinSettings := { monitor := ⟨6⟩ }

/-- Carry out a sequence of calls and return the world only when every one of them completed. -/
def runOk (cfg : BitcoinSettings) : List Call → World → Option World
  | [], w => some w
  | call :: rest, w =>
    match exec call.request ⟨cfg, call.answers⟩ w with
    | (.ok (), w') => runOk cfg rest w'
    | (.error _, _) => none

/-- When every call completes, the calls lead where they would if some had stopped. -/
theorem runOk_eq_runCalls {cfg : BitcoinSettings} {calls : List Call} {w w' : World}
    (h : runOk cfg calls w = some w') : runCalls cfg calls w = w' := by
  induction calls generalizing w with
  | nil =>
    cases h
    rfl
  | cons call rest ih =>
    unfold runOk at h
    unfold runCalls
    split at h
    · next w₁ hcall =>
      rw [hcall]
      exact ih h
    · cases h

/-- A sequence of calls that all completed is a run of `Ok` calls. -/
theorem okRun_of_runOk {cfg : BitcoinSettings} {calls : List Call} {w w' : World}
    (h : runOk cfg calls w = some w') : OkRun cfg calls w w' := by
  induction calls generalizing w with
  | nil =>
    cases h
    exact OkRun.nil _
  | cons call rest ih =>
    unfold runOk at h
    split at h
    · next w₁ hcall => exact OkRun.cons hcall (ih h)
    · cases h

/-- When every call completes, the calls are a run of `Ok` calls. -/
theorem okRun_runCalls {cfg : BitcoinSettings} {calls : List Call} {w : World}
    (h : (runOk cfg calls w).isSome) : OkRun cfg calls w (runCalls cfg calls w) := by
  obtain ⟨w', hw'⟩ := Option.isSome_iff_exists.mp h
  rw [runOk_eq_runCalls hw']
  exact okRun_of_runOk hw'

/-! ### Moments of a run -/

/-- Moments of a run that can be compared. -/
inductive Moment where
  | notFound (txid : Txid) (height : BlockHeight)
  | vanished (txid : Txid) (deadline : BlockHeight)
  | deferred (txid : Txid) (height : BlockHeight)
  | condemned (txid : Txid) (height : BlockHeight)
  | exhausted (txid : Txid)
  deriving DecidableEq

/-- The entry of the history for a moment. -/
def Moment.event : Moment → Event
  | .notFound txid height => .notFound txid height
  | .vanished txid deadline => .vanished txid deadline
  | .deferred txid height => .deferred txid height
  | .condemned txid height => .condemned txid height
  | .exhausted txid => .exhausted txid

/-- The moment an entry is, if it can be compared. -/
def Event.moment? : Event → Option Moment
  | .notFound txid height => some (.notFound txid height)
  | .vanished txid deadline => some (.vanished txid deadline)
  | .deferred txid height => some (.deferred txid height)
  | .condemned txid height => some (.condemned txid height)
  | .exhausted txid => some (.exhausted txid)
  | _ => none

/-- An entry is the one of its moment. -/
theorem Event.eq_event {e : Event} {moment : Moment} (h : e.moment? = some moment) :
    e = moment.event := by
  cases e <;> cases h <;> rfl

/-- A history with a moment at a position, taken apart there. -/
theorem eq_take_event_drop {log : List Event} (moment : Moment) {n : ℕ}
    (h : log[n]?.bind Event.moment? = some moment) :
    log = log.take n ++ moment.event :: log.drop (n + 1) := by
  obtain ⟨e, he, hmoment⟩ := Option.bind_eq_some_iff.mp h
  obtain ⟨hn, hget⟩ := List.getElem?_eq_some_iff.mp he
  rw [← Event.eq_event hmoment, ← hget, ← List.drop_eq_getElem_cons, List.take_append_drop]

/-- A moment at a position of a history, with what came before it. -/
theorem event_suffix {log : List Event} (moment : Moment) {n : ℕ}
    (h : log[n]?.bind Event.moment? = some moment) : moment.event :: log.drop (n + 1) <:+ log :=
  ⟨log.take n, (eq_take_event_drop moment h).symm⟩

/-- A moment found in a history is an entry of it. -/
theorem event_mem {log : List Event} (moment : Moment) (h : some moment ∈ log.map Event.moment?) :
    moment.event ∈ log := by
  obtain ⟨e, he, hmoment⟩ := List.mem_map.mp h
  rw [← Event.eq_event hmoment]
  exact he

end BitcoinCoordinator
