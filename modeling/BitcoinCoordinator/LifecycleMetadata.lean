import BitcoinCoordinator.InterruptedRegistrations

/-!
# The metadata of a lifecycle

Three fields of a record tell of its past: when it settled, until when a missing input is excused, and
when it was last seen in the node. They always agree with its state, also when a whole record is
written back from an older copy, since the copy was sound when it was read.
-/

namespace BitcoinCoordinator

/-- The heights a record carries agree with its state. -/
structure CoordinatedTx.MetadataSound (tx : CoordinatedTx) : Prop where
  settled : tx.settledBlockHeight.isSome ↔ tx.state = .finalized ∨ tx.state = .failed
  guarded : tx.failGuardUntil.isSome → tx.state = .toDispatch ∨ tx.state = .failed
  broadcast : tx.state = .inMempool ∨ tx.state = .confirmed ∨ tx.state = .finalized →
    tx.broadcastBlockHeight.isSome

namespace CoordinatedTx

/-- A record that is first stored. -/
theorem IsNew.metadataSound {tx : CoordinatedTx} (h : tx.IsNew) : tx.MetadataSound := by
  constructor <;> simp [h.state, h.settled, h.guard]

/-- What is in flight has no guard and was broadcast. -/
theorem MetadataSound.inFlight {tx : CoordinatedTx} (h : tx.MetadataSound) (hflight : tx.isInFlight) :
    tx.settledBlockHeight = none ∧ tx.failGuardUntil = none ∧ tx.broadcastBlockHeight.isSome := by
  obtain ⟨hsettled, hguarded, hbroadcast⟩ := h
  have hstate : tx.state = .inMempool ∨ tx.state = .confirmed := by
    simpa [isInFlight] using hflight
  rcases hstate with hstate | hstate <;> simp_all

end CoordinatedTx

variable {tidy : Prop} {phase : Phase}

/-- A record changed in place stays sound. -/
theorem Change.metadataSound {log : List Event} {tx tx' : CoordinatedTx} (h : tx.MetadataSound)
    (htidy : tidy) (hchange : Change tidy log tx phase tx') : tx'.MetadataSound := by
  cases hchange with
  | advance state hstep hflight hfrom =>
    obtain ⟨hsettled, hguard, hbroadcast⟩ := h.inFlight (hfrom htidy)
    constructor
    · rcases hflight with rfl | rfl <;> simp [hsettled]
    · simp [hguard]
    · exact fun _ => hbroadcast
  | finalize height hstep hfrom =>
    obtain ⟨-, hguard, hbroadcast⟩ := h.inFlight (hfrom htidy)
    constructor
    · simp
    · simp [hguard]
    · exact fun _ => hbroadcast
  | fail height hstep => constructor <;> simp
  | retry hstep hfrom hcause =>
    have hstate := hfrom htidy
    constructor
    · simpa [hstate] using h.settled
    · simp
    · simp
  | mark phase kind mark hkind => exact ⟨h.settled, h.guarded, h.broadcast⟩
  | atCap maxFeerate => exact ⟨h.settled, h.guarded, h.broadcast⟩

/-- A sound copy is written back as a sound record. -/
theorem Rewrite.metadataSound {copy updated : CoordinatedTx} (h : copy.MetadataSound)
    (hrewrite : Rewrite copy updated) : updated.MetadataSound := by
  obtain ⟨hsettled, hguarded, -⟩ := h
  cases hrewrite with
  | reorg height hstate => constructor <;> simp_all
  | accepted height feeInfo hstate => constructor <;> simp_all
  | confirmed height hstate => constructor <;> simp_all

/-- Every record a move puts is sound when those of the versions before are. -/
theorem Put.metadataSound {ctx : Ctx} {w : World} {log : List Event} {tx : CoordinatedTx}
    (hsound : EveryRecord CoordinatedTx.MetadataSound w) (h : Put ctx True w log phase tx) :
    tx.MetadataSound := by
  cases h with
  | changed old tx' hget hchange => exact hchange.metadataSound (hsound.current hget) trivial
  | vanished old height hget hstep hfrom =>
    obtain ⟨hsettled, -, -⟩ := (hsound.current hget).inFlight (hfrom trivial)
    constructor <;> simp [CoordinatedTx.requeued, hsettled]
  | rewrote copy updated hrewrite hread hdrift hnote => exact hrewrite.metadataSound (hsound.copy hread)
  | inserted tx htx hnote => exact htx.isNew.metadataSound
  | registered tx hfresh hkind hnew hnote => exact hnew.metadataSound

/-- In every version of every run, whatever the calls are answered and wherever they stop, a tracked
record carries a settlement height exactly when it settled, a guard only while it waits for dispatch or
once it failed, and a broadcast height whenever it is in the mempool, confirmed or finalized. -/
theorem metadataSound_runCalls (cfg : BitcoinSettings) (calls : List Call) (s : Store) (txid : Txid)
    (tx : CoordinatedTx) (hversion : (runCalls cfg calls World.init).HasVersion s)
    (hget : s.txs.get txid = some tx) : tx.MetadataSound := by
  have hput : ∀ ctx phase w log tx, EveryRecord CoordinatedTx.MetadataSound w →
      Put ctx True w log phase tx → tx.MetadataSound :=
    fun _ _ _ _ _ hsound hput => hput.metadataSound hsound
  exact everyRecord_runCalls cfg calls hput s hversion txid tx hget

/-- After a tick that sends the parent, its record is sound. -/
theorem metadataSound_rebuildCalls :
    ∃ tx, (runCalls { monitor := ⟨6⟩ } rebuildCalls World.init).store.txs.get sampleParent.computeTxid =
      some tx ∧ tx.MetadataSound := by
  obtain ⟨tx, hget⟩ : ∃ tx, (runCalls { monitor := ⟨6⟩ } rebuildCalls World.init).store.txs.get
      sampleParent.computeTxid = some tx := Option.isSome_iff_exists.mp (by decide +kernel)
  exact ⟨tx, hget, metadataSound_runCalls _ _ _ _ tx (Or.inl rfl) hget⟩

end BitcoinCoordinator
