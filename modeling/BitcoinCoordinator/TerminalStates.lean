import BitcoinCoordinator.ReplacedChains

/-!
# Terminal states

A record that settled keeps its state through every write of a run but two kinds: a copy written back
after the record settled, and a speedup rebuilt under the identifier of a settled one. Lifecycle
steps consult the record, registration refuses tracked identifiers, and only eviction removes a
settled record.
-/

namespace BitcoinCoordinator

open Foundation

/-- The writes of a history, each with the version it was made over, the version it made, and the
history before it. -/
def writes : List Event → List (Store × Store × List Event)
  | [] => []
  | .wrote before after :: older => (before, after, older) :: writes older
  | _ :: older => writes older

/-- The version a history has reached from a first one. -/
def lastVersion (s : Store) : List Event → Store
  | [] => s
  | .wrote _ after :: _ => after
  | _ :: older => lastVersion s older

/-- A write keeps the state of every settled record, or evicts it. -/
def KeepsTerminal (before after : Store) (older : List Event) : Prop :=
  ∀ txid tx, before.txs.get txid = some tx → tx.state.isTerminal →
    (∃ tx', after.txs.get txid = some tx' ∧ tx'.state = tx.state) ∨
      after.txs.get txid = none ∧
        ∃ copy, copy.txid = txid ∧ older.head? = some (.evicting copy)

/-- Every write of a history keeps the state of every settled record, or evicts it. -/
def TerminalAbsorbing (log : List Event) : Prop :=
  ∀ p ∈ writes log, KeepsTerminal p.1 p.2.1 p.2.2

/-- No settled record is tracked under an identifier. -/
def Unsettled (s : Store) (txid : Txid) : Prop :=
  ∀ tx, s.txs.get txid = some tx → tx.state.isTerminal = false

/-- Every copy written back and every speedup stored found no settled record under its identifier. -/
def NoRevival (log : List Event) : Prop :=
  (∀ copy before, .rewrote copy before ∈ log → Unsettled before copy.txid) ∧
    ∀ tx before, .inserted tx before ∈ log → Unsettled before tx.txid

/-- A write that leaves the records alone keeps settled records. -/
theorem keepsTerminal_of_txs_eq {s s' : Store} {older : List Event} (h : s'.txs = s.txs) :
    KeepsTerminal s s' older := by
  intro txid tx hget _
  left
  exact ⟨tx, by rw [h, hget], rfl⟩

/-- Putting a record over its identifier keeps settled records when the state stays. -/
theorem keepsTerminal_setTx {s : Store} {tx : CoordinatedTx} {older : List Event}
    (h : ∀ old, s.txs.get tx.txid = some old → old.state.isTerminal → tx.state = old.state) :
    KeepsTerminal s (s.setTx tx) older := by
  intro txid old hget hterminal
  left
  by_cases hid : txid = tx.txid
  · subst hid
    exact ⟨tx, Table.get_set_self _ _ _, h old hget hterminal⟩
  · exact ⟨old, by rw [← hget]; exact Table.get_set_ne _ _ hid, rfl⟩

/-- A change of a record keeps settled records. -/
theorem Change.keepsTerminal {tidy : Prop} {phase : Phase} {log older : List Event} {s : Store}
    {tx tx' : CoordinatedTx} (hget : s.txs.get tx.txid = some tx)
    (h : Change tidy log tx phase tx') : KeepsTerminal s (s.setTx tx') older := by
  apply keepsTerminal_setTx
  intro old hold hterminal
  rw [h.txid_eq, hget] at hold
  cases hold
  exact (TransactionState.canTransitionTo_of_isTerminal hterminal h.canTransitionTo).symm

/-- Dropping a cancelled record keeps settled records. -/
theorem Store.Cancellable.keepsTerminal {s : Store} {txid : Txid} {older : List Event}
    (h : s.Cancellable txid) : KeepsTerminal s (s.eraseTx txid) older := by
  intro id tx hget hterminal
  left
  have hne : id ≠ txid := by
    intro heq
    subst heq
    rw [(h tx hget).1] at hterminal
    cases hterminal
  refine ⟨tx, ?_, rfl⟩
  rw [Store.get_eraseTx, if_neg hne, hget]

/-- Evicting a record keeps settled records in the sense of the source. -/
theorem keepsTerminal_evicted {s : Store} {tx : CoordinatedTx} {older : List Event}
    (h : older.head? = some (.evicting tx)) : KeepsTerminal s (s.eraseTx tx.txid) older := by
  intro id old hget _
  by_cases hid : id = tx.txid
  · right
    refine ⟨?_, tx, hid.symm, h⟩
    change (s.txs.erase tx.txid).get id = none
    rw [Table.get_erase, if_pos hid]
  · left
    refine ⟨old, ?_, rfl⟩
    change (s.txs.erase tx.txid).get id = some old
    rw [Table.get_erase, if_neg hid, hget]

/-- Putting an active record keeps settled records exactly when none is under its identifier. -/
theorem keepsTerminal_setTx_iff {s : Store} {tx : CoordinatedTx} {older : List Event}
    (hactive : tx.state.isTerminal = false) :
    KeepsTerminal s (s.setTx tx) older ↔ Unsettled s tx.txid := by
  constructor
  · intro hkeep old hold
    by_contra hterminal
    rw [Bool.not_eq_false] at hterminal
    have hself : (s.setTx tx).txs.get tx.txid = some tx := Table.get_set_self _ _ _
    rcases hkeep tx.txid old hold hterminal with ⟨tx', hget, hstate⟩ | ⟨hnone, -⟩
    · rw [hself] at hget
      cases hget
      rw [← hstate, hactive] at hterminal
      cases hterminal
    · rw [hself] at hnone
      cases hnone
  · intro hunsettled
    apply keepsTerminal_setTx
    intro old hold hterminal
    rw [hunsettled old hold] at hterminal
    cases hterminal

/-- A record written back is active and keeps its identifier. -/
theorem Rewrite.isTerminal_eq {copy updated : CoordinatedTx} (h : Rewrite copy updated) :
    updated.state.isTerminal = false := by
  cases h <;> rfl

/-- A write is judged over the version and the history it was made on. -/
@[simp] theorem terminalAbsorbing_wrote {before after : Store} {log : List Event} :
    TerminalAbsorbing (.wrote before after :: log) ↔
      KeepsTerminal before after log ∧ TerminalAbsorbing log :=
  List.forall_mem_cons

/-- A copy written back revives nothing when it found no settled record. -/
@[simp] theorem noRevival_rewrote {copy : CoordinatedTx} {before : Store} {log : List Event} :
    NoRevival (.rewrote copy before :: log) ↔ Unsettled before copy.txid ∧ NoRevival log := by
  simp only [NoRevival, List.mem_cons, reduceCtorEq, false_or, Event.rewrote.injEq]
  constructor
  · rintro ⟨hcopy, hinserted⟩
    exact ⟨hcopy copy before (Or.inl ⟨rfl, rfl⟩), fun c b h => hcopy c b (Or.inr h), hinserted⟩
  · rintro ⟨hcopy, hold, hinserted⟩
    refine ⟨?_, hinserted⟩
    rintro c b (⟨rfl, rfl⟩ | h)
    · exact hcopy
    · exact hold c b h

/-- A stored speedup revives nothing when it found no settled record. -/
@[simp] theorem noRevival_inserted {tx : CoordinatedTx} {before : Store} {log : List Event} :
    NoRevival (.inserted tx before :: log) ↔ Unsettled before tx.txid ∧ NoRevival log := by
  simp only [NoRevival, List.mem_cons, reduceCtorEq, false_or, Event.inserted.injEq]
  constructor
  · rintro ⟨hcopy, hinserted⟩
    exact ⟨hinserted tx before (Or.inl ⟨rfl, rfl⟩), hcopy, fun t b h => hinserted t b (Or.inr h)⟩
  · rintro ⟨htx, hcopy, hold⟩
    refine ⟨hcopy, ?_⟩
    rintro t b (⟨rfl, rfl⟩ | h)
    · exact htx
    · exact hold t b h

/-- A write by itself is not a revival. -/
@[simp] theorem noRevival_wrote {before after : Store} {log : List Event} :
    NoRevival (.wrote before after :: log) ↔ NoRevival log := by
  simp [NoRevival]

/-- The moments that write the store or tell what was written. -/
def Event.IsRevision : Event → Prop
  | .wrote _ _ | .rewrote _ _ | .inserted _ _ => True
  | _ => False

/-- A remark writes nothing. -/
theorem Event.IsRemark.not_isRevision {e : Event} (h : e.IsRemark) : ¬ e.IsRevision := by
  cases e <;> first | exact absurd h id | exact id

/-- Other moments are neither writes nor revivals. -/
theorem absorbing_noted {e : Event} (log : List Event) (h : ¬ e.IsRevision) :
    (TerminalAbsorbing (e :: log) ↔ TerminalAbsorbing log) ∧
      (NoRevival (e :: log) ↔ NoRevival log) := by
  cases e <;> first | exact absurd trivial h | simp [TerminalAbsorbing, writes, NoRevival]

/-- A history absorbs settled records exactly when none was revived. -/
def AbsorbingIff (w : World) : Prop := TerminalAbsorbing w.log ↔ NoRevival w.log

/-- A write that keeps settled records keeps the equivalence. -/
theorem AbsorbingIff.written {w : World} {s : Store} (h : AbsorbingIff w)
    (hkeep : KeepsTerminal w.store s w.log) : AbsorbingIff (w.written s) := by
  unfold AbsorbingIff World.written at *
  simp [hkeep, h]

/-- Other moments keep the equivalence. -/
theorem AbsorbingIff.noted {w : World} {e : Event} (h : AbsorbingIff w) (he : ¬ e.IsRevision) :
    AbsorbingIff (w.noted e) := by
  obtain ⟨habsorbing, hrevival⟩ := absorbing_noted w.log he
  exact habsorbing.trans (Iff.trans h hrevival.symm)

/-- Every move keeps the equivalence: the two kinds of write that can revive a settled record say so
in the history. -/
theorem AbsorbingIff.move {ctx : Ctx} {tidy : Prop} {phase : Phase} {w w' : World}
    (h : AbsorbingIff w) (hmove : Move ctx tidy phase w w') : AbsorbingIff w' := by
  rcases hmove with hplain | hpart
  · cases hplain with
    | quiet hquiet =>
      cases hquiet with
      | asked => exact h
      | stamped now => exact h
      | published items => exact h
      | noted e hremark => exact h.noted hremark.not_isRevision
      | wrote s hwrite => exact h.written (keepsTerminal_of_txs_eq hwrite.txs_eq)
      | prepended txids _ _ => exact h.written (keepsTerminal_of_txs_eq rfl)
    | changed tx tx' hget hchange => exact h.written (hchange.keepsTerminal hget)
    | vanished tx height hget hstep _ _ =>
      apply AbsorbingIff.noted _ id
      apply h.written
      apply keepsTerminal_setTx
      intro old hold hterminal
      change w.store.txs.get tx.txid = some old at hold
      rw [hget] at hold
      cases hold
      exact (TransactionState.canTransitionTo_of_isTerminal hterminal hstep).symm
    | rewrote copy updated hrewrite _ _ _ =>
      have hiff : KeepsTerminal w.store (w.store.setTx updated) w.log ↔
          Unsettled w.store updated.txid := keepsTerminal_setTx_iff hrewrite.isTerminal_eq
      rw [hrewrite.txid_eq] at hiff
      change TerminalAbsorbing (.wrote _ _ :: w.log) ↔
        NoRevival (.rewrote _ _ :: .wrote _ _ :: w.log)
      rw [terminalAbsorbing_wrote, noRevival_rewrote, noRevival_wrote, hiff]
      exact and_congr_right fun _ => h
    | _ => exact h.noted id
  · cases hpart with
    | inserted tx htx =>
      have hactive : tx.state.isTerminal = false := by rw [htx.isNew.state]; rfl
      have hiff : KeepsTerminal w.store (w.store.setTx tx) w.log ↔
          Unsettled w.store tx.txid := keepsTerminal_setTx_iff hactive
      change TerminalAbsorbing (.wrote _ _ :: w.log) ↔
        NoRevival (.inserted _ _ :: .wrote _ _ :: w.log)
      rw [terminalAbsorbing_wrote, noRevival_inserted, noRevival_wrote, hiff]
      exact and_congr_right fun _ => h
    | listed txid => exact h.written (keepsTerminal_of_txs_eq (w.store.txs_list txid))
    | unlisted txid _ _ => exact h.written (keepsTerminal_of_txs_eq rfl)
    | evicted tx hnote _ _ => exact h.written (keepsTerminal_evicted hnote)
    | dropped txid hcancel _ => exact h.written hcancel.keepsTerminal
    | registered tx hfresh _ _ _ =>
      apply h.written
      apply keepsTerminal_setTx
      intro old hold
      rw [hfresh] at hold
      cases hold
    | pended txid => exact h.written (keepsTerminal_of_txs_eq (w.store.txs_pend txid))
    | queue s _ hwrite => exact h.written (keepsTerminal_of_txs_eq hwrite.txs_eq)

/-- Whatever the calls are answered and wherever they stop, settled records keep their states through
a run exactly when no copy is written back over one and no speedup is stored over one. -/
theorem terminalAbsorbing_iff_noRevival (cfg : BitcoinSettings) (s : Store)
    (news : List StoredNewsItem) (lastRetryAt : Option ℕ) (calls : List Call) :
    TerminalAbsorbing (runCalls cfg calls (World.start s news lastRetryAt)).log ↔
      NoRevival (runCalls cfg calls (World.start s news lastRetryAt)).log := by
  have hstart : AbsorbingIff (World.start s news lastRetryAt) := by
    simp [AbsorbingIff, TerminalAbsorbing, NoRevival, World.start, writes]
  have hmove : ∀ call ∈ calls, ∀ phase w w', AbsorbingIff w →
      Move ⟨cfg, call.answers⟩ False phase w w' → AbsorbingIff w' :=
    fun _ _ _ _ _ h hmove => h.move hmove
  exact runCalls_induction hmove (fun h => absurd h id) hstart

/-- A CPFP is built; the node then reports its funding UTXO missing. The CPFP fails, and the same tick
builds it anew from the released UTXO. -/
def rebuildCalls : List Call :=
  let builder := plainBuilder fun _ => 200
  let first := sampleView 100 [] [sampleParent]
  let gone : NodeView := ⟨101, [], [sampleParent], [⟨50, 0⟩], []⟩
  [first.call builder 5 0 (.addFunding sampleFunding),
    first.call builder 5 0 (.dispatchWithSpeedup sampleParent sampleAnchor "parent" none none),
    first.call builder 5 0 .tick,
    gone.call builder 5 0 .tick]

/-- A record that settled as failed is stored again as waiting for dispatch. -/
theorem exists_settled_revived :
    ∃ (cfg : BitcoinSettings) (calls : List Call), cfg.validate = .ok () ∧
      OkRun cfg calls World.init (runCalls cfg calls World.init) ∧
      ¬ TerminalAbsorbing (runCalls cfg calls World.init).log := by
  refine ⟨{ monitor := ⟨6⟩ }, rebuildCalls, BitcoinSettings.validate_default _,
    okRun_runCalls (by decide +kernel), ?_⟩
  intro habsorbing
  obtain ⟨p, hp, tx, htx, hterminal, tx', hget, hstate⟩ :
      ∃ p ∈ writes (runCalls { monitor := ⟨6⟩ } rebuildCalls World.init).log,
        ∃ tx ∈ p.1.txs.values, tx.state.isTerminal = true ∧
          ∃ tx' ∈ p.2.1.txs.get tx.txid, tx'.state ≠ tx.state := by decide +kernel
  rcases habsorbing p hp tx.txid tx (Store.mem_values.mp htx) hterminal with
    ⟨other, hother, hsame⟩ | ⟨hnone, -⟩
  · rw [hget] at hother
    cases hother
    exact hstate hsame
  · rw [hget] at hnone
    cases hnone

/-- The writes of a run lead from its first version to the one it leaves. -/
def Linked (s : Store) (w : World) : Prop :=
  w.store = lastVersion s w.log ∧ ∀ p ∈ writes w.log, p.1 = lastVersion s p.2.2

/-- A recorded write is linked to the version it was made over. -/
theorem Linked.written {s s' : Store} {w : World} (h : Linked s w) : Linked s (w.written s') := by
  refine ⟨rfl, ?_⟩
  intro p hp
  rcases List.mem_cons.mp hp with rfl | hp
  · exact h.1
  · exact h.2 p hp

/-- Every move links its write, if any. -/
theorem Linked.move {s : Store} {ctx : Ctx} {tidy : Prop} {phase : Phase} {w w' : World}
    (h : Linked s w) (hmove : Move ctx tidy phase w w') : Linked s w' := by
  rcases hmove with hplain | hpart
  · cases hplain with
    | quiet hquiet =>
      cases hquiet with
      | asked => exact h
      | stamped now => exact h
      | published items => exact h
      | noted e hremark => cases e <;> first | exact absurd hremark id | exact h
      | wrote s' hwrite => exact h.written
      | prepended txids _ _ => exact h.written
    | changed | vanished | rewrote => exact h.written
    | _ => exact h
  · cases hpart with
    | _ => exact h.written

/-- Nothing but a recorded write changes the store, so the writes of a run are all its changes. -/
theorem linked_runCalls (cfg : BitcoinSettings) (s : Store) (news : List StoredNewsItem)
    (lastRetryAt : Option ℕ) (calls : List Call) :
    Linked s (runCalls cfg calls (World.start s news lastRetryAt)) := by
  have hmove : ∀ call ∈ calls, ∀ phase w w', Linked s w →
      Move ⟨cfg, call.answers⟩ False phase w w' → Linked s w' :=
    fun _ _ _ _ _ h hmove => h.move hmove
  apply runCalls_induction hmove (fun h => absurd h id)
  refine ⟨rfl, fun p hp => ?_⟩
  cases hp

end BitcoinCoordinator
