import BitcoinCoordinator.DeadBranches

/-!
# The ledger of a build

A build first reserves its inputs, then takes the covered parents off the pending list, and only then
stores the speedup and lists it. The ledger kept here relates the flags and the pending list of every
version in between to those before the call, by what the call marked, took and stored so far.
-/

namespace BitcoinCoordinator

open Foundation

/-- The two steps of a tick that build a speedup. -/
inductive BuildStep where
  | boost (skipBoost : Bool)
  | batch

/-- Carry out a building step. -/
def BuildStep.run : BuildStep → Coord Unit
  | .boost skipBoost => boostIfStale skipBoost
  | .batch => createCpfpBatch

/-- A place where a reservation is kept: a record of the funding queue, or a tracked speedup. -/
inductive Flag where
  | queued (op : OutPoint)
  | change (txid : Txid)
  deriving DecidableEq

/-- The value of a reservation flag, if the store holds it. -/
def Store.flag (s : Store) : Flag → Option Bool
  | .queued op => (s.funding op).map FundingData.spent
  | .change txid => ((s.txs.get txid).bind CoordinatedTx.speedup?).map fun kind => kind.context.spent

/-- The flag that reserving an outpoint sets. -/
def Store.flagOf (s : Store) (op : OutPoint) : Flag :=
  if (s.funding op).isSome then .queued op else .change op.txid

/-- The moments of a build that reserve, release or record something. -/
def Event.isReservation : Event → Bool
  | .marked _ _ => true
  | .taken _ => true
  | .inserted _ _ => true
  | .recorded _ => true
  | _ => false

/-- What the newest such moment set a flag to: a mark, or a freshly stored speedup, whose flag is
clear. -/
def lastMark (s : Store) (flag : Flag) : List Event → Option Bool
  | [] => none
  | .marked op spent :: older => if s.flagOf op = flag then some spent else lastMark s flag older
  | .inserted tx _ :: older => if .change tx.txid = flag then some false else lastMark s flag older
  | _ :: older => lastMark s flag older

/-- The speedup stored by a call is in the transaction store and in the speedup list. -/
def BuildRecorded (log : List Event) (after : Store) : Prop :=
  ∃ tx before record, .inserted tx before ∈ log ∧ after.txs.get tx.txid = some record ∧
    record.tx = tx.tx ∧ tx.txid ∈ after.speedupList

/-- Every reservation flag is as it was. -/
def FlagsKept (before after : Store) : Prop :=
  ∀ flag b, before.flag flag = some b → after.flag flag = some b

/-- The pending list is as it was, up to parents that failed or are missing. -/
def PendingKept (before after : Store) : Prop :=
  after.pendingSpeedupParents.Sublist before.pendingSpeedupParents ∧
    ∀ txid ∈ before.pendingSpeedupParents, txid ∉ after.pendingSpeedupParents → before.Prunable txid

/-- A stopped build either recorded its speedup, or reserved nothing and took no parent. -/
def NothingHalfReserved (before : Store) (log : List Event) (after : Store) : Prop :=
  BuildRecorded log after ∨ FlagsKept before after ∧ PendingKept before after

/-- A history records a speedup, or every flag it set has the old value again and no covered parent was
taken. -/
def StopsClean (before : Store) (trace : List Event) : Prop :=
  (∃ txid, .recorded txid ∈ trace) ∨
    (∀ flag b b', before.flag flag = some b → lastMark before flag trace = some b' → b' = b) ∧
      ∀ txid, .taken txid ∉ trace

/-! ### The ledger of a build -/

/-- The reservations of a history, newest first. -/
def World.trace (w : World) : List Event := w.log.filter Event.isReservation

/-- How a version reached during a build relates to the version before the call. -/
structure Ledger (s : Store) (trace : List Event) (v : Store) : Prop where
  queue : ∀ op, (v.funding op).isSome = (s.funding op).isSome
  flags : ∀ flag b, s.flag flag = some b → v.flag flag = some ((lastMark s flag trace).getD b)
  kept : v.pendingSpeedupParents.Sublist s.pendingSpeedupParents
  dropped : ∀ txid ∈ s.pendingSpeedupParents, txid ∉ v.pendingSpeedupParents →
    s.Prunable txid ∨ .taken txid ∈ trace
  taken : ∀ txid, .taken txid ∈ trace →
    txid ∈ s.pendingSpeedupParents ∧ ¬ s.Prunable txid ∧ txid ∉ v.pendingSpeedupParents
  stored : ∀ tx before, .inserted tx before ∈ trace →
    .recorded tx.txid ∈ trace ∨ tx.txid ∉ v.speedupList
  recorded : ∀ txid, .recorded txid ∈ trace → BuildRecorded trace v

/-- A world is on the ledger of a build that began on a store. -/
def OnLedger (s : Store) (w : World) : Prop := Ledger s w.trace w.store

/-- The ledger begins empty. -/
theorem Ledger.start (s : Store) : Ledger s [] s where
  queue := fun _ => rfl
  flags := fun _ _ h => h
  kept := List.Sublist.refl _
  dropped := fun _ hin hout => absurd hin hout
  taken := fun _ h => absurd h List.not_mem_nil
  stored := fun _ _ h => absurd h List.not_mem_nil
  recorded := fun _ h => absurd h List.not_mem_nil

/-- Reservations are found in the history where they are found in its trace. -/
theorem mem_trace {w : World} {e : Event} (h : e.isReservation = true) : e ∈ w.trace ↔ e ∈ w.log := by
  simp [World.trace, h]

/-- On the ledger, a call left nothing half reserved exactly when its trace is clean. -/
theorem OnLedger.nothingHalfReserved_iff {s : Store} {w : World} (h : OnLedger s w) :
    NothingHalfReserved s w.log w.store ↔ StopsClean s w.trace := by
  have hbuilt : BuildRecorded w.log w.store ↔ ∃ txid, .recorded txid ∈ w.trace := by
    constructor
    · rintro ⟨tx, before, record, hin, -, -, hlisted⟩
      rcases h.stored tx before ((mem_trace rfl).mpr hin) with hdone | hout
      · exact ⟨tx.txid, hdone⟩
      · exact absurd hlisted hout
    · rintro ⟨txid, hin⟩
      obtain ⟨tx, before, record, hstored, hrest⟩ := h.recorded txid hin
      exact ⟨tx, before, record, (mem_trace rfl).mp hstored, hrest⟩
  have hflags : FlagsKept s w.store ↔
      ∀ flag b b', s.flag flag = some b → lastMark s flag w.trace = some b' → b' = b := by
    constructor
    · intro hkept flag b b' hb hb'
      have hnow := h.flags flag b hb
      rw [hkept flag b hb, hb', Option.getD_some, Option.some.injEq] at hnow
      exact hnow.symm
    · intro hlast flag b hb
      rw [h.flags flag b hb]
      cases hb' : lastMark s flag w.trace with
      | none => rfl
      | some b' => rw [hlast flag b b' hb hb', Option.getD_some]
  have hpending : PendingKept s w.store ↔ ∀ txid, .taken txid ∉ w.trace := by
    constructor
    · intro hkept txid hin
      obtain ⟨hwas, halive, hgone⟩ := h.taken txid hin
      exact halive (hkept.2 txid hwas hgone)
    · intro hnone
      refine ⟨h.kept, ?_⟩
      intro txid hin hout
      exact (h.dropped txid hin hout).resolve_right (hnone txid)
  unfold NothingHalfReserved StopsClean
  rw [hbuilt, hflags, hpending]

/-! ### What leaves the ledger alone -/

variable {ctx : Ctx} {w w' : World} {s : Store}

/-- A property that no question, no news and no moment without a reservation affects. -/
structure Unbooked (I : World → Prop) : Prop extends Steady I where
  noted : ∀ w e, e.isReservation = false → I w → I (w.noted e)

/-- A moment that reserves nothing keeps such a property. -/
theorem Unbooked.note {I : World → Prop} (hI : Unbooked I) {e : Store → Event}
    (h : ∀ v, (e v).isReservation = false) : Prog.Keeps I (note e) ctx :=
  fun w hw => hI.noted w _ (h w.store) hw

/-- Asking the monitor to watch something keeps it. -/
theorem Unbooked.monitorWatch {I : World → Prop} (hI : Unbooked I) (data : TypesToMonitor)
    (inMempool : Bool) : Prog.Keeps I (monitorWatch data inMempool) ctx :=
  Prog.Keeps.seq hI.query fun _ => hI.note fun _ => rfl

/-- A moment that reserves nothing is not in the trace. -/
theorem World.trace_noted {e : Event} (h : e.isReservation = false) : (w.noted e).trace = w.trace :=
  List.filter_cons_of_neg (by simp [h])

/-- Questions, news and moments without a reservation leave the ledger alone. -/
theorem unbooked_onLedger : Unbooked (OnLedger s) where
  asked := fun _ h => h
  published := fun _ _ h => h
  signed := fun _ _ _ h => h
  noted := by
    intro w e he hw
    unfold OnLedger
    rw [World.trace_noted he]
    exact hw

/-! ### Reserving and releasing -/

/-- What setting a spent flag changes: that flag. -/
structure FlagSet (op : OutPoint) (spent : Bool) (v v' : Store) : Prop where
  queue : ∀ op', (v'.funding op').isSome = (v.funding op').isSome
  flags : ∀ flag, v'.flag flag =
    if v.flagOf op = flag then (v.flag flag).map fun _ => spent else v.flag flag
  pending : v'.pendingSpeedupParents = v.pendingSpeedupParents
  listed : v'.speedupList = v.speedupList
  records : ∀ txid record, v.txs.get txid = some record →
    ∃ record', v'.txs.get txid = some record' ∧ record'.tx = record.tx

/-- Nothing has to change when the flag has the value already, or there is none. -/
theorem FlagSet.refl {op : OutPoint} {spent : Bool} {v : Store}
    (h : ∀ b, v.flag (v.flagOf op) = some b → b = spent) : FlagSet op spent v v where
  queue := fun _ => rfl
  flags := by
    intro flag
    split
    · next heq =>
      subst heq
      cases hflag : v.flag (v.flagOf op) with
      | none => rfl
      | some b => rw [h b hflag]; rfl
    · rfl
  pending := rfl
  listed := rfl
  records := fun _ record hget => ⟨record, hget, rfl⟩

/-- Setting the flag of a queued record. -/
theorem FlagSet.queued {op : OutPoint} {spent : Bool} {v : Store} {record : FundingData}
    (hget : v.funding op = some record) :
    FlagSet op spent v (v.setFunding op { record with spent := spent }) where
  queue := by
    intro op'
    by_cases hop : op' = op
    · simp [Store.setFunding, hop, hget]
    · simp [Store.setFunding, hop]
  flags := by
    intro flag
    cases flag with
    | queued op' =>
      by_cases hop : op' = op
      · simp [Store.flag, Store.flagOf, Store.setFunding, hop, hget]
      · simp [Store.flag, Store.flagOf, Store.setFunding, hop, hget, Ne.symm hop]
    | change txid =>
      simp only [Store.flagOf, hget, Option.isSome_some, if_true, reduceCtorEq, if_false]
      rfl
  pending := rfl
  listed := rfl
  records := fun _ record hget => ⟨record, hget, rfl⟩

/-- Setting the flag of a tracked speedup. -/
theorem FlagSet.change {op : OutPoint} {spent : Bool} {v : Store} {tx : CoordinatedTx}
    {kind : SpeedupKind} (hqueue : v.funding op = none) (hget : v.txs.get op.txid = some tx)
    (hkind : tx.kind = .speedup kind) :
    FlagSet op spent v (v.setTx { tx with
      kind := .speedup (kind.modifyContext fun c => { c with spent := spent }) }) where
  queue := fun _ => rfl
  flags := by
    have hkey := v.keyed _ _ hget
    have hflag : v.flagOf op = .change op.txid := by simp [Store.flagOf, hqueue]
    intro flag
    rw [hflag]
    cases flag with
    | queued op' => rfl
    | change txid =>
      by_cases hid : txid = op.txid
      · subst hid
        simp [Store.flag, Store.setTx, hkey, hget, CoordinatedTx.speedup?, hkind]
      · simp [Store.flag, Store.setTx, hkey, Table.get_set, hid, Ne.symm hid]
  pending := rfl
  listed := rfl
  records := by
    have hkey := v.keyed _ _ hget
    intro txid record hrecord
    change ∃ record', (v.txs.set tx.txid _).get txid = some record' ∧ _
    rw [Table.get_set]
    by_cases hid : txid = tx.txid
    · rw [hid, hkey, hget] at hrecord
      cases hrecord
      exact ⟨_, if_pos hid, rfl⟩
    · exact ⟨record, by rw [if_neg hid, hrecord], rfl⟩

/-- A mark goes on the ledger with the flag it sets. -/
theorem Ledger.marked {trace : List Event} {v v' : Store} {op : OutPoint} {spent : Bool}
    (h : Ledger s trace v) (hset : FlagSet op spent v v') :
    Ledger s (.marked op spent :: trace) v' where
  queue := fun op' => (hset.queue op').trans (h.queue op')
  flags := by
    intro flag b hb
    have hflag : v.flagOf op = s.flagOf op := by simp [Store.flagOf, h.queue op]
    rw [hset.flags, hflag, h.flags flag b hb, lastMark]
    split <;> rfl
  kept := by
    rw [hset.pending]
    exact h.kept
  dropped := by
    intro txid hin hout
    rw [hset.pending] at hout
    exact (h.dropped txid hin hout).imp_right (List.mem_cons_of_mem _)
  taken := by
    intro txid hin
    simp only [List.mem_cons, reduceCtorEq, false_or] at hin
    rw [hset.pending]
    exact h.taken txid hin
  stored := by
    intro tx before hin
    simp only [List.mem_cons, reduceCtorEq, false_or] at hin
    rw [hset.listed]
    exact (h.stored tx before hin).imp_left (List.mem_cons_of_mem _)
  recorded := by
    intro txid hin
    simp only [List.mem_cons, reduceCtorEq, false_or] at hin
    obtain ⟨tx, before, record, hstored, hget, htx, hlisted⟩ := h.recorded txid hin
    obtain ⟨record', hget', htx'⟩ := hset.records _ _ hget
    refine ⟨tx, before, record', List.mem_cons_of_mem _ hstored, hget', htx'.trans htx, ?_⟩
    rw [hset.listed]
    exact hlisted

/-- A program that writes at most once leaves no entry in the trace; its write is in the store exactly
when it completed. -/
theorem OneWrite.run {f : Store → Store} {r : Except Stop Unit} (h : OneWrite f w (r, w')) :
    w'.trace = w.trace ∧ (r = .ok () → w'.store = f w.store) ∧
      (r ≠ .ok () → w'.store = w.store) := by
  cases h with
  | same hsame => exact ⟨rfl, fun _ => hsame.symm, fun _ => rfl⟩
  | taken => exact ⟨rfl, fun _ => rfl, fun hne => absurd rfl hne⟩
  | refused stop => exact ⟨rfl, fun h => absurd h (by simp), fun _ => rfl⟩

/-- Setting the spent flag of an outpoint sets that flag and no other. -/
theorem FlagSet.setSpent (v : Store) (op : OutPoint) (spent : Bool) :
    FlagSet op spent v (v.setSpent op spent) := by
  unfold Store.setSpent
  split
  · next record hqueue => exact FlagSet.queued hqueue
  · next hqueue =>
    have hflag : v.flagOf op = .change op.txid := by simp [Store.flagOf, hqueue]
    split
    · next hget =>
      apply FlagSet.refl
      simp [hflag, Store.flag, hget]
    · next tx hget =>
      split
      · next kind hkind => exact FlagSet.change hqueue hget hkind
      · next hkind =>
        apply FlagSet.refl
        have hplain : tx.speedup? = none := by
          unfold CoordinatedTx.speedup?
          split
          · next kind hspeedup => exact absurd hspeedup (hkind kind)
          · rfl
        simp [hflag, Store.flag, hget, hplain]

/-- Setting a spent flag stays on the ledger, taken or refused. -/
theorem setSpent_ledger (op : OutPoint) (spent : Bool) :
    Prog.Keeps (OnLedger s) (setSpent op spent) ctx := by
  intro w hw
  change OnLedger s (Prog.bind (writeSpent op spent) (fun _ => note fun _ => .marked op spent)
    ctx w).2
  unfold Prog.bind
  rcases hrun : writeSpent op spent ctx w with ⟨_ | u, w'⟩
  · have hone : OneWrite _ w (writeSpent op spent ctx w) := writeSpent_oneWrite op spent
    rw [hrun] at hone
    obtain ⟨htrace, -, hstore⟩ := hone.run
    unfold OnLedger
    rw [htrace, hstore (by simp)]
    exact hw
  · have hone : OneWrite _ w (writeSpent op spent ctx w) := writeSpent_oneWrite op spent
    rw [hrun] at hone
    obtain ⟨htrace, htaken, -⟩ := hone.run
    change Ledger s (World.trace (w'.noted _)) w'.store
    have hnoted : World.trace (w'.noted (.marked op spent)) = .marked op spent :: w.trace := by
      rw [← htrace]
      rfl
    rw [hnoted]
    apply hw.marked
    rw [htaken rfl]
    exact FlagSet.setSpent w.store op spent

/-- Building stays on the ledger. -/
theorem buildSpeedup_ledger {entries : List (SpeedupData × ℕ)} {initial : Option (List Utxo)}
    {bump : ℚ} {feeRate chainDiffFee : ℕ} :
    Prog.Keeps (OnLedger s) (buildSpeedup entries initial bump feeRate chainDiffFee) ctx :=
  buildSpeedup_keeps unbooked_onLedger.toSteady setSpent_ledger

/-! ### Taking parents -/

/-- A pending parent that a build may cover: pending before the call and not to be pruned. -/
def Coverable (s : Store) (txid : Txid) : Prop :=
  txid ∈ s.pendingSpeedupParents ∧ ¬ s.Prunable txid

/-- The flags read neither the pending list nor the speedup list. -/
theorem Ledger.dropped_pending {trace : List Event} {v : Store} {txid : Txid}
    (h : Ledger s trace v) (hwhy : s.Prunable txid ∨ .taken txid ∈ trace) :
    Ledger s trace (v.unpend txid) where
  queue := h.queue
  flags := h.flags
  kept := List.filter_sublist.trans h.kept
  dropped := by
    intro id hin hout
    by_cases hid : id = txid
    · rw [hid]
      exact hwhy
    · apply h.dropped id hin
      intro hmem
      exact hout (List.mem_filter.mpr ⟨hmem, by simpa using hid⟩)
  taken := by
    intro id hin
    obtain ⟨hwas, halive, hgone⟩ := h.taken id hin
    exact ⟨hwas, halive, fun hmem => hgone (List.mem_filter.mp hmem).1⟩
  stored := h.stored
  recorded := h.recorded

/-- A parent goes on the ledger as taken once it has left the pending list. -/
theorem Ledger.taking {trace : List Event} {v : Store} {txid : Txid} (h : Ledger s trace v)
    (hcover : Coverable s txid) :
    Ledger s (.taken txid :: trace) (v.unpend txid) where
  queue := h.queue
  flags := h.flags
  kept := List.filter_sublist.trans h.kept
  dropped := by
    intro id hin hout
    by_cases hid : id = txid
    · rw [hid]
      exact Or.inr List.mem_cons_self
    · refine (h.dropped id hin ?_).imp_right (List.mem_cons_of_mem _)
      intro hmem
      exact hout (List.mem_filter.mpr ⟨hmem, by simpa using hid⟩)
  taken := by
    intro id hin
    rcases List.mem_cons.mp hin with heq | hin
    · cases heq
      exact ⟨hcover.1, hcover.2, fun hmem => by simpa using (List.mem_filter.mp hmem).2⟩
    · obtain ⟨hwas, halive, hgone⟩ := h.taken id hin
      exact ⟨hwas, halive, fun hmem => hgone (List.mem_filter.mp hmem).1⟩
  stored := by
    intro tx before hin
    simp only [List.mem_cons, reduceCtorEq, false_or] at hin
    exact (h.stored tx before hin).imp_left (List.mem_cons_of_mem _)
  recorded := by
    intro id hin
    simp only [List.mem_cons, reduceCtorEq, false_or] at hin
    obtain ⟨tx, before, record, hstored, hrest⟩ := h.recorded id hin
    exact ⟨tx, before, record, List.mem_cons_of_mem _ hstored, hrest⟩

/-- Taking a covered parent stays on the ledger. -/
theorem takePendingParent_ledger {parent : CoordinatedTx} (hcover : Coverable s parent.txid) :
    Prog.Keeps (OnLedger s) (takePendingParent parent) ctx := by
  intro w hw
  change OnLedger s (Prog.bind (removePendingSpeedupParent parent.txid)
    (fun _ => note fun _ => .taken parent.txid) ctx w).2
  unfold Prog.bind
  have hone : OneWrite _ w (removePendingSpeedupParent parent.txid ctx w) :=
    removePendingSpeedupParent_oneWrite parent.txid
  rcases hrun : removePendingSpeedupParent parent.txid ctx w with ⟨_ | u, w'⟩
  · rw [hrun] at hone
    obtain ⟨htrace, -, hstore⟩ := hone.run
    unfold OnLedger
    rw [htrace, hstore (by simp)]
    exact hw
  · rw [hrun] at hone
    obtain ⟨htrace, hstore, -⟩ := hone.run
    change Ledger s (.taken parent.txid :: w'.trace) w'.store
    rw [htrace, hstore rfl]
    exact hw.taking hcover

/-- Dropping a parent that may be pruned stays on the ledger. -/
theorem removePendingSpeedupParent_ledger {txid : Txid} (hprune : s.Prunable txid) :
    Prog.Keeps (OnLedger s) (removePendingSpeedupParent txid) ctx := by
  refine OneWrite.keeps (fun _ => removePendingSpeedupParent_oneWrite txid) (fun _ hw => hw) ?_
  intro w hw
  exact Ledger.dropped_pending hw (Or.inl hprune)

/-- Walking the pending list stays on the ledger while the records are those of before the call, and
collects coverable parents. -/
theorem collectPendingParents_ledger {txids : List Txid} {r : Except Stop (List CoordinatedTx)}
    (hpending : ∀ id ∈ txids, id ∈ s.pendingSpeedupParents) (hw : OnLedger s w)
    (htxs : w.store.txs = s.txs) (hrun : collectPendingParents txids ctx w = (r, w')) :
    OnLedger s w' ∧ ∀ live, r = .ok live → ∀ tx ∈ live, Coverable s tx.txid := by
  obtain ⟨hledger, hready⟩ :=
    collectPendingParents_spec (fun _ _ hprune => removePendingSpeedupParent_ledger hprune) htxs hw hrun
  refine ⟨hledger, ?_⟩
  rintro live hlive tx htx
  rw [hready live hlive] at htx
  obtain ⟨txid, hmem, hparent⟩ := List.mem_filterMap.mp htx
  obtain ⟨hget, hstate⟩ := Store.readyParent?_eq_some.mp hparent
  rw [s.keyed txid tx hget]
  refine ⟨hpending txid hmem, fun hprune => ?_⟩
  rw [hprune tx hget] at hstate
  cases hstate

/-! ### Recording -/

/-- Storing a speedup clears its flag and touches no other. -/
theorem flag_setTx {v : Store} {tx : CoordinatedTx} {kind : SpeedupKind}
    (hkind : tx.kind = .speedup kind) (hclear : kind.context.spent = false) (flag : Flag) :
    (v.setTx tx).flag flag = if .change tx.txid = flag then some false else v.flag flag := by
  cases flag with
  | queued op => rfl
  | change txid =>
    by_cases hid : txid = tx.txid
    · subst hid
      simp [Store.flag, Store.setTx, CoordinatedTx.speedup?, hkind, hclear]
    · simp [Store.flag, Store.setTx, Table.get_set, hid, Ne.symm hid]

/-- A stored speedup that is not listed yet goes on the ledger. -/
theorem Ledger.insertedUnlisted {trace : List Event} {v before : Store} {tx : CoordinatedTx}
    {kind : SpeedupKind} (h : Ledger s trace v) (hkind : tx.kind = .speedup kind)
    (hclear : kind.context.spent = false) (hout : tx.txid ∉ v.speedupList) :
    Ledger s (.inserted tx before :: trace) (v.setTx tx) where
  queue := h.queue
  flags := by
    intro flag b hb
    rw [flag_setTx hkind hclear, h.flags flag b hb, lastMark]
    split <;> rfl
  kept := h.kept
  dropped := fun id hin hout => (h.dropped id hin hout).imp_right (List.mem_cons_of_mem _)
  taken := by
    intro id hin
    simp only [List.mem_cons, reduceCtorEq, false_or] at hin
    exact h.taken id hin
  stored := by
    intro tx' before' hin
    rcases List.mem_cons.mp hin with heq | hin
    · cases heq
      exact Or.inr hout
    · exact (h.stored tx' before' hin).imp_left (List.mem_cons_of_mem _)
  recorded := by
    intro id hin
    simp only [List.mem_cons, reduceCtorEq, false_or] at hin
    obtain ⟨tx', before', record, hstored, hget, htx, hlisted⟩ := h.recorded id hin
    refine ⟨tx', before', record, List.mem_cons_of_mem _ hstored, ?_, htx, hlisted⟩
    have hne : tx'.txid ≠ tx.txid := fun heq => hout (by rw [← heq]; exact hlisted)
    change (v.txs.set tx.txid tx).get tx'.txid = some record
    rw [Table.get_set, if_neg hne, hget]

/-- A stored and listed speedup goes on the ledger. -/
theorem Ledger.insertedListed {trace : List Event} {v v' before : Store} {tx : CoordinatedTx}
    {kind : SpeedupKind} (h : Ledger s trace v) (hkind : tx.kind = .speedup kind)
    (hclear : kind.context.spent = false)
    (hlist : ∀ id, id ∈ v'.speedupList ↔ id ∈ v.speedupList ∨ id = tx.txid)
    (hv' : v' = { v.setTx tx with speedupList := v'.speedupList }) :
    Ledger s (.recorded tx.txid :: .inserted tx before :: trace) v' where
  queue := by
    rw [hv']
    exact h.queue
  flags := by
    intro flag b hb
    have hflag : v'.flag flag = (v.setTx tx).flag flag := by rw [hv']; rfl
    have hlast : lastMark s flag (.recorded tx.txid :: .inserted tx before :: trace) =
        lastMark s flag (.inserted tx before :: trace) := rfl
    rw [hflag, flag_setTx hkind hclear, h.flags flag b hb, hlast, lastMark]
    split <;> rfl
  kept := by
    rw [hv']
    exact h.kept
  dropped := by
    intro id hin hout
    rw [hv'] at hout
    refine (h.dropped id hin hout).imp_right fun hmem => ?_
    exact List.mem_cons_of_mem _ (List.mem_cons_of_mem _ hmem)
  taken := by
    intro id hin
    simp only [List.mem_cons, reduceCtorEq, false_or] at hin
    rw [hv']
    exact h.taken id hin
  stored := by
    intro tx' before' hin
    simp only [List.mem_cons, reduceCtorEq, false_or] at hin
    rcases hin with heq | hin
    · cases heq
      exact Or.inl List.mem_cons_self
    · by_cases hid : tx'.txid = tx.txid
      · rw [hid]
        exact Or.inl List.mem_cons_self
      · rcases h.stored tx' before' hin with hdone | hout
        · exact Or.inl (List.mem_cons_of_mem _ (List.mem_cons_of_mem _ hdone))
        · right
          rw [hlist]
          exact not_or.mpr ⟨hout, hid⟩
  recorded := by
    intro id _
    refine ⟨tx, before, tx, List.mem_cons_of_mem _ List.mem_cons_self, ?_, rfl, ?_⟩
    · rw [hv']
      exact Table.get_set_self _ _ _
    · exact (hlist _).mpr (Or.inr rfl)

/-- Persisting a new speedup stays on the ledger, wherever it stops. -/
theorem insertSpeedup_ledger {tx : CoordinatedTx} {kind : SpeedupKind}
    (hkind : tx.kind = .speedup kind) (hclear : kind.context.spent = false) :
    Prog.Keeps (OnLedger s) (insertSpeedup tx) ctx := by
  intro w hw
  cases hinsert : ctx.answers.storage w.clock with
  | error e =>
    have hput : putTx (.inserted tx) tx ctx w =
        (.error (.error (.storageBackendError e)), w.asked) := by
      change (insertTx tx >>= fun _ => note fun _ => .inserted tx w.store) ctx w = _
      apply Prog.bind_of_error
      unfold insertTx writeStore
      rw [hinsert]
    have hrun : insertSpeedup tx ctx w = (.error (.error (.storageBackendError e)), w.asked) :=
      Prog.bind_of_error hput
    rw [hrun]
    exact hw
  | ok u =>
    let w₁ := (w.written (w.store.setTx tx)).noted (.inserted tx w.store)
    have hput : putTx (.inserted tx) tx ctx w = (.ok (), w₁) := by
      have hwrite : insertTx tx ctx w = (.ok (), w.written (w.store.setTx tx)) := by
        unfold insertTx writeStore
        rw [hinsert]
      change (insertTx tx >>= fun _ => note fun _ => .inserted tx w.store) ctx w = _
      exact Prog.bind_of_ok hwrite
    have hrun : insertSpeedup tx ctx w =
        (do appendToSpeedupList tx.txid; note fun _ => .recorded tx.txid : Coord Unit) ctx w₁ :=
      Prog.bind_of_ok hput
    rw [hrun]
    by_cases hin : tx.txid ∈ w.store.speedupList
    · have happend : appendToSpeedupList tx.txid ctx w₁ = (.ok (), w₁) := by
        change (if tx.txid ∈ w.store.speedupList then pure () else _ : Coord Unit) ctx w₁ = _
        rw [if_pos hin]
        rfl
      rw [Prog.bind_of_ok happend]
      apply Ledger.insertedListed hw hkind hclear _ rfl
      intro id
      exact ⟨Or.inl, fun h => h.elim (fun h => h) fun h => by rw [h]; exact hin⟩
    · let listed : Store → Store :=
        fun v => { v with speedupList := w.store.speedupList ++ [tx.txid] }
      have happend : appendToSpeedupList tx.txid ctx w₁ = writeStore listed ctx w₁ := by
        change (if tx.txid ∈ w.store.speedupList then pure () else _ : Coord Unit) ctx w₁ = _
        rw [if_neg hin]
        rfl
      cases hlist : ctx.answers.storage w₁.clock with
      | error e =>
        have hstop : appendToSpeedupList tx.txid ctx w₁ =
            (.error (.error (.storageBackendError e)), w₁.asked) := by
          rw [happend]
          unfold writeStore
          rw [hlist]
        rw [Prog.bind_of_error hstop]
        exact Ledger.insertedUnlisted hw hkind hclear hin
      | ok u =>
        have hdone : appendToSpeedupList tx.txid ctx w₁ = (.ok (), w₁.written (listed w₁.store)) := by
          rw [happend]
          unfold writeStore
          rw [hlist]
        rw [Prog.bind_of_ok hdone]
        apply Ledger.insertedListed hw hkind hclear _ rfl
        intro id
        change id ∈ w.store.speedupList ++ [tx.txid] ↔ _
        rw [List.mem_append, List.mem_singleton]

/-- Persisting a built speedup stays on the ledger. -/
theorem saveSpeedup_ledger (tx : Transaction) (feeInfo : FeeInfo) {kind : SpeedupKind}
    (height : BlockHeight) (hclear : kind.context.spent = false) :
    Prog.Keeps (OnLedger s) (saveSpeedup tx feeInfo kind height) ctx :=
  Prog.Keeps.seq (insertSpeedup_ledger rfl hclear) fun _ => unbooked_onLedger.monitorWatch _ _

/-- Raising a recorded rate stays on the ledger. -/
theorem markPredecessorAtCap_ledger (txid : Txid) (maxFeerate : ℕ) :
    Prog.Keeps (OnLedger s) (markPredecessorAtCap txid maxFeerate) ctx := by
  apply keeps_read
  intro w hw
  cases hget : w.store.txs.get txid with
  | none => exact hw
  | some old =>
    let updated : CoordinatedTx :=
      { old with feeInfo := { old.feeInfo with packageFeeRate := maxFeerate } }
    change OnLedger s (updateTx updated ctx w).2
    have hkey := w.store.keyed txid old hget
    unfold updateTx writeStore
    split
    · constructor
      case queue => exact hw.queue
      case flags =>
        intro flag b hb
        have hsame : (w.store.setTx updated).flag flag = w.store.flag flag := by
          cases flag with
          | queued op => rfl
          | change id =>
            by_cases hid : id = txid
            · simp [Store.flag, Store.setTx, updated, hkey, hid, hget, CoordinatedTx.speedup?]
            · simp [Store.flag, Store.setTx, updated, hkey, Table.get_set, hid]
        exact hsame.trans (hw.flags flag b hb)
      case kept => exact hw.kept
      case dropped => exact hw.dropped
      case taken => exact hw.taken
      case stored => exact hw.stored
      case recorded =>
        intro id hin
        obtain ⟨tx, before, record, hstored, hrecord, htx, hlisted⟩ := hw.recorded id hin
        by_cases hid : tx.txid = txid
        · rw [hid, hget] at hrecord
          cases hrecord
          refine ⟨tx, before, updated, hstored, ?_, htx, hlisted⟩
          change (w.store.txs.set old.txid updated).get tx.txid = _
          rw [hkey, Table.get_set, if_pos hid]
        · refine ⟨tx, before, record, hstored, ?_, htx, hlisted⟩
          change (w.store.txs.set old.txid updated).get tx.txid = _
          rw [hkey, Table.get_set, if_neg hid, hrecord]
    · exact hw

/-! ### The two steps -/

/-- Boosting stays on the ledger. -/
theorem boostIfStale_ledger (skipBoost : Bool) :
    Prog.Keeps (OnLedger s) (boostIfStale skipBoost) ctx := by
  have hsave : ∀ plan bump built height,
      Prog.Keeps (OnLedger s) (saveBoost plan bump built height) ctx := by
    intro plan bump built height
    refine Prog.Keeps.seq (Prog.Keeps.ask _) fun cfg => ?_
    refine Prog.Keeps.seq (saveSpeedup_ledger _ _ _ ?_) fun _ => ?_
    · unfold BoostPlan.kind
      split <;> rfl
    refine Prog.Keeps.seq (unbooked_onLedger.reportIfCapped) fun _ => ?_
    exact Prog.Keeps.ite (fun _ => markPredecessorAtCap_ledger _ _) fun _ => Prog.Keeps.pure _
  have hboost : ∀ plan all height, Prog.Keeps (OnLedger s) (runBoost plan all height) ctx := by
    intro plan all height
    refine Prog.Keeps.seq (Prog.Keeps.ask _) fun cfg => ?_
    refine Prog.Keeps.seq unbooked_onLedger.getNetworkFeeRate fun fee => ?_
    refine Prog.Keeps.seq (unbooked_onLedger.publishFeeNews _) fun _ => ?_
    refine Prog.Keeps.seq buildSpeedup_ledger fun built => ?_
    cases built with
    | none => exact Prog.Keeps.pure _
    | some built => exact hsave _ _ _ _
  apply Prog.Keeps.ite <;> intro _
  · exact Prog.Keeps.pure _
  refine Prog.Keeps.seq (Prog.Keeps.ask _) fun cfg => ?_
  refine Prog.Keeps.seq unbooked_onLedger.query fun height => ?_
  apply keeps_read
  intro w hw
  cases planBoost cfg w.store.speedupsOrdered height with
  | none => exact hw
  | some plan => exact Prog.Keeps.seq (unbooked_onLedger.note fun _ => rfl) (fun _ => hboost _ _ _) w hw

/-- Building for a batch of coverable parents stays on the ledger. -/
theorem runCpfpBatch_ledger {parents : List CoordinatedTx} (unconfirmed : List CoordinatedTx)
    (hcover : ∀ tx ∈ parents, Coverable s tx.txid) :
    Prog.Keeps (OnLedger s) (runCpfpBatch parents unconfirmed) ctx := by
  have hsave : ∀ batch bump built, (∀ tx ∈ batch, Coverable s tx.txid) →
      Prog.Keeps (OnLedger s) (saveCpfpBatch batch bump built) ctx := by
    intro batch bump built hbatch
    refine Prog.Keeps.seq (Prog.Keeps.forEach fun tx htx =>
      takePendingParent_ledger (hbatch tx htx)) fun _ => ?_
    refine Prog.Keeps.seq (unbooked_onLedger.reportIfCapped) fun _ => ?_
    refine Prog.Keeps.seq unbooked_onLedger.query fun height => ?_
    exact saveSpeedup_ledger _ _ _ rfl
  refine Prog.Keeps.seq (Prog.Keeps.ask _) fun cfg => ?_
  refine Prog.Keeps.seq unbooked_onLedger.getNetworkFeeRate fun fee => ?_
  refine Prog.Keeps.seq (unbooked_onLedger.publishFeeNews _) fun _ => ?_
  split
  · exact Prog.Keeps.pure _
  · next batch hlast =>
    apply Prog.Keeps.ite <;> intro _
    · exact Prog.Keeps.pure _
    · refine Prog.Keeps.seq buildSpeedup_ledger fun built => ?_
      cases built with
      | none => exact Prog.Keeps.pure _
      | some built =>
        apply hsave
        intro tx htx
        exact hcover tx ((batchByWeight_sublist (List.mem_of_getLast? hlast)).subset htx)

/-- Building for the next batch stays on the ledger, from its first version. -/
theorem createCpfpBatch_ledger (hw : OnLedger w.store w) :
    OnLedger w.store (createCpfpBatch ctx w).2 := by
  change OnLedger w.store (Prog.bind (collectPendingParents w.store.pendingSpeedupParents) _ ctx w).2
  unfold Prog.bind
  rcases hrun : collectPendingParents w.store.pendingSpeedupParents ctx w with ⟨_ | parents, w'⟩
  · exact (collectPendingParents_ledger (fun _ h => h) hw rfl hrun).1
  · obtain ⟨hledger, hcover⟩ := collectPendingParents_ledger (fun _ h => h) hw rfl hrun
    refine Prog.Keeps.seq (Prog.Keeps.read _) (fun all => ?_) w' hledger
    apply Prog.Keeps.ite <;> intro _
    · exact Prog.Keeps.pure _
    · exact runCpfpBatch_ledger _ (hcover parents rfl)

/-- A building step stays on the ledger that its first version begins, wherever it stops. -/
theorem buildStep_ledger (step : BuildStep) (ctx : Ctx) (s : Store) (news : List StoredNewsItem)
    (lastRetryAt : Option ℕ) : OnLedger s (step.run ctx (World.start s news lastRetryAt)).2 := by
  have hstart : OnLedger s (World.start s news lastRetryAt) := Ledger.start s
  cases step with
  | boost skipBoost => exact boostIfStale_ledger skipBoost _ hstart
  | batch => exact createCpfpBatch_ledger (w := World.start s news lastRetryAt) hstart

end BitcoinCoordinator
