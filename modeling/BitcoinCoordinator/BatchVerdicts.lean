import BitcoinCoordinator.MarkReleases
import BitcoinCoordinator.StaleClones

/-!
# What the outcomes of a batch do to the transactions still to be handled

An outcome is settled in one of three ways: the node took the transaction and its copy is written back, the
transaction fails with what depends on it, or it goes back to dispatch. What earlier verdicts did to a
transaction of the batch that is still to be handled is read off the store before the batch: it failed with a
transaction it depends on, an output of it was given back, or it got or lost its link to an RBF. Its copy is
as good as its record exactly when none of this shows.
-/

namespace BitcoinCoordinator

open Foundation

variable {α : Type} {ctx : Ctx} {cfg : BitcoinSettings} {height : BlockHeight} {s s' : Store} {w w' : World}

/-- How an outcome was settled. -/
inductive Verdict where
  | taken
  | failed
  | kept
  deriving DecidableEq

/-- A listed speedup waits for dispatch. -/
def Store.Waits (s : Store) (txid : Txid) : Prop :=
  txid ∈ s.speedupList ∧ ∃ tx, s.txs.get txid = some tx ∧ tx.state = .toDispatch

/-- The first funding input of a tracked speedup comes from the other transaction, or this is one of its
parents. -/
def Store.DependsOn (s : Store) (txid parent : Txid) : Prop :=
  ∃ tx, s.txs.get txid = some tx ∧ tx.dependsOn parent = true

/-- A listed speedup still waits after the given verdicts, the newest first: it was not taken, and it did not
fail with a transaction from which a chain of waiting dependants leads to it. -/
def Store.WaitsAfter (s : Store) : List (Txid × Verdict) → Txid → Prop
  | [], txid => s.Waits txid
  | (root, .taken) :: older, txid => s.WaitsAfter older txid ∧ txid ≠ root
  | (root, .failed) :: older, txid => s.WaitsAfter older txid ∧
      ¬ Relation.ReflTransGen (fun a b => s.WaitsAfter older b ∧ s.DependsOn b a) root txid
  | (_, .kept) :: older, txid => s.WaitsAfter older txid

/-- What fails with a transaction after the given verdicts. -/
def Store.FailsWith (s : Store) (verdicts : List (Txid × Verdict)) (root txid : Txid) : Prop :=
  Relation.ReflTransGen (fun a b => s.WaitsAfter verdicts b ∧ s.DependsOn b a) root txid

/-- A transaction failed with one of those the verdicts failed. -/
def Store.HasFailed (s : Store) : List (Txid × Verdict) → Txid → Prop
  | [], _ => False
  | (root, .failed) :: older, txid => s.FailsWith older root txid ∨ s.HasFailed older txid
  | (_, .taken) :: older, txid => s.HasFailed older txid
  | (_, .kept) :: older, txid => s.HasFailed older txid

/-- A transaction that failed gave back the change of the given one. -/
def Store.IsFreed (s : Store) (verdicts : List (Txid × Verdict)) (txid : Txid) : Prop :=
  ∃ failed, s.HasFailed verdicts failed ∧ s.Frees failed (.change txid)

open Classical in
/-- The link of a speedup after the given verdicts: an RBF of it that was taken sets it, and an RBF of it that
failed clears it. -/
noncomputable def Store.replacedByAfter (s : Store) (txid : Txid) : List (Txid × Verdict) → Option Txid
  | [] => s.replacedBy txid
  | (root, .taken) :: older => if s.Replaces root txid then some root else s.replacedByAfter txid older
  | (root, .failed) :: older =>
    if ∃ failed, s.FailsWith older root failed ∧ s.Replaces failed txid then none
    else s.replacedByAfter txid older
  | (_, .kept) :: older => s.replacedByAfter txid older

/-- The verdicts changed nothing of a record that its copy would write back: it did not fail, unless it
carries the height already, its change was not given back, unless it is not reserved, and its link is what it
was. -/
structure Store.Untouched (s : Store) (height : BlockHeight) (verdicts : List (Txid × Verdict))
    (tx : CoordinatedTx) : Prop where
  settled : s.HasFailed verdicts tx.txid → tx.settledBlockHeight = some height
  spent : s.IsFreed verdicts tx.txid → s.flag (.change tx.txid) ≠ some true
  linked : s.replacedByAfter tx.txid verdicts = s.replacedBy tx.txid

/-- The outputs of a transaction that are probed when its broadcast was rejected. -/
def CoordinatedTx.probed (tx : CoordinatedTx) : List OutPoint := tx.fundingOutpoints ++ tx.nonFundingInputs

/-- The verdict on a rejected transaction whose inputs are intact: it is kept while its retry budget lasts. -/
def CoordinatedTx.retryVerdict (cfg : BitcoinSettings) (tx : CoordinatedTx) : Verdict :=
  if cfg.coordinator.retryAttemptsSendingTx ≤ tx.retryCount + 1 then .failed else .kept

/-- The verdict on a rejected transaction one of whose inputs is missing: it is kept while its guard runs. -/
def CoordinatedTx.missingVerdict (height : BlockHeight) (tx : CoordinatedTx) : Verdict :=
  if tx.isGuarded height then .kept else .failed

/-- The verdicts an outcome can have, whatever the monitor and the node answer. A transaction whose broadcast
was rejected may be known to the node all the same. -/
def Store.Admits (s : Store) (cfg : BitcoinSettings) (height : BlockHeight) (tx : CoordinatedTx) :
    DispatchOutcome → Verdict → Prop
  | .success, verdict => verdict = .taken ∧ tx.ReplacesSpeedup s
  | .fatal _, verdict => verdict = .failed
  | .parentFailed _, verdict => verdict = .failed
  | .dispatchError _, verdict => verdict = .taken ∧ tx.ReplacesSpeedup s ∨ verdict = tx.retryVerdict cfg ∨
      tx.probed ≠ [] ∧ verdict = tx.missingVerdict height

/-- The outcomes of a batch can be settled in turn, by verdicts that are put before those of the outcomes
before. -/
inductive Store.CanSettle (s : Store) (cfg : BitcoinSettings) (batch : List CoordinatedTx)
    (height : BlockHeight) :
    List (Txid × Verdict) → List (Txid × DispatchOutcome) → List (Txid × Verdict) → Prop
  | done (verdicts : List (Txid × Verdict)) : CanSettle s cfg batch height verdicts [] verdicts
  | unknown {verdicts verdicts' : List (Txid × Verdict)} {result : Txid × DispatchOutcome}
      {rest : List (Txid × DispatchOutcome)}
      (hfind : batch.find? (fun tx => tx.txid = result.1) = none)
      (hrest : CanSettle s cfg batch height verdicts rest verdicts') :
      CanSettle s cfg batch height verdicts (result :: rest) verdicts'
  | settled {verdicts verdicts' : List (Txid × Verdict)} {result : Txid × DispatchOutcome}
      {rest : List (Txid × DispatchOutcome)} {tx : CoordinatedTx} {verdict : Verdict}
      (hfind : batch.find? (fun tx => tx.txid = result.1) = some tx)
      (hadmits : s.Admits cfg height tx result.2 verdict)
      (hrest : CanSettle s cfg batch height ((tx.txid, verdict) :: verdicts) rest verdicts') :
      CanSettle s cfg batch height verdicts (result :: rest) verdicts'

/-- Before an outcome that the node may answer with having taken the transaction, no outcome can have been
settled so that it touched the record of the transaction. -/
def Store.TakesUntouched (s : Store) (cfg : BitcoinSettings) (batch : List CoordinatedTx)
    (height : BlockHeight) (results : List (Txid × DispatchOutcome)) : Prop :=
  ∀ handled result rest, results = handled ++ result :: rest →
    ∀ tx, batch.find? (fun tx => tx.txid = result.1) = some tx → s.Admits cfg height tx result.2 .taken →
      ∀ verdicts, s.CanSettle cfg batch height [] handled verdicts → s.Untouched height verdicts tx

/-- Where the list and the states are the same, the same speedups wait. -/
theorem Store.waits_congr {txid : Txid} (hlisted : s'.speedupList = s.speedupList)
    (hstates : (s'.txs.get txid).map CoordinatedTx.state = (s.txs.get txid).map CoordinatedTx.state) :
    s'.Waits txid ↔ s.Waits txid := by
  unfold Store.Waits
  rw [hlisted, ← Option.map_eq_some_iff, ← Option.map_eq_some_iff, hstates]

/-! ### Kinds up to marks -/

/-- What a transaction depends on, replaces and gives back, and whether it is a speedup, does not depend on its
marks. -/
theorem CoordinatedTx.eq_of_kind {tx tx' : CoordinatedTx} (h : tx'.kind.unmarked = tx.kind.unmarked) :
    (∀ id, tx'.dependsOn id = tx.dependsOn id) ∧ tx'.replaces? = tx.replaces? ∧
      tx'.givesBack = tx.givesBack ∧ tx'.speedup?.isSome = tx.speedup?.isSome := by
  have hunmarked : { tx with kind := tx'.kind : CoordinatedTx }.unmarked = tx.unmarked := by
    unfold CoordinatedTx.unmarked
    rw [h]
  obtain ⟨hgives, hreplaces⟩ := CoordinatedTx.gives_of_unmarked hunmarked
  refine ⟨(CoordinatedTx.eq_of_unmarked hunmarked).2.2.1, hreplaces, hgives, ?_⟩
  unfold CoordinatedTx.speedup?
  unfold TxKind.unmarked at h
  cases hkind : tx.kind <;> cases hkind' : tx'.kind <;> simp_all

/-- A store as it is after the given verdicts, in all that the verdicts of the transactions not handled yet
depend on. -/
structure Store.Tracks (s : Store) (height : BlockHeight) (verdicts : List (Txid × Verdict))
    (s' : Store) : Prop where
  listed : s'.speedupList = s.speedupList
  flagOf : ∀ op, s'.flagOf op = s.flagOf op
  kinds : ∀ txid, (s'.txs.get txid).map (fun tx => tx.kind.unmarked) =
    (s.txs.get txid).map fun tx => tx.kind.unmarked
  waits : ∀ txid, s'.Waits txid ↔ s.WaitsAfter verdicts txid
  settled : ∀ txid ∉ verdicts.map Prod.fst, ∀ tx tx', s.txs.get txid = some tx →
    s'.txs.get txid = some tx' → (s.HasFailed verdicts txid → tx'.settledBlockHeight = some height) ∧
      (¬ s.HasFailed verdicts txid → tx'.settledBlockHeight = tx.settledBlockHeight)
  freed : ∀ txid ∉ verdicts.map Prod.fst, s.IsFreed verdicts txid →
    s'.flag (.change txid) = (s.flag (.change txid)).map fun _ => false
  kept : ∀ txid ∉ verdicts.map Prod.fst, ¬ s.IsFreed verdicts txid →
    s'.flag (.change txid) = s.flag (.change txid)
  links : ∀ txid ∉ verdicts.map Prod.fst, (s.txs.get txid).isSome →
    s'.replacedBy txid = s.replacedByAfter txid verdicts

/-- Before any verdict. -/
theorem Store.tracks_nil (s : Store) : s.Tracks height [] s where
  listed := rfl
  flagOf _ := rfl
  kinds _ := rfl
  waits _ := Iff.rfl
  settled := by
    intro txid _ tx tx' hget hget'
    cases hget.symm.trans hget'
    exact ⟨fun h => h.elim, fun _ => rfl⟩
  freed := by
    rintro txid - ⟨failed, hfailed, -⟩
    exact hfailed.elim
  kept _ _ _ := rfl
  links _ _ _ := rfl

/-- A record found before is found afterwards, of the same kind up to its marks. -/
theorem Store.Tracks.after {verdicts : List (Txid × Verdict)} {txid : Txid} {tx : CoordinatedTx}
    (h : s.Tracks height verdicts s') (hget : s.txs.get txid = some tx) :
    ∃ tx', s'.txs.get txid = some tx' ∧ tx'.kind.unmarked = tx.kind.unmarked := by
  have hkinds := h.kinds txid
  rw [hget] at hkinds
  exact Option.map_eq_some_iff.mp hkinds

/-- A record found afterwards was found before, of the same kind up to its marks. -/
theorem Store.Tracks.before {verdicts : List (Txid × Verdict)} {txid : Txid} {tx' : CoordinatedTx}
    (h : s.Tracks height verdicts s') (hget : s'.txs.get txid = some tx') :
    ∃ tx, s.txs.get txid = some tx ∧ tx'.kind.unmarked = tx.kind.unmarked := by
  have hkinds := h.kinds txid
  rw [hget] at hkinds
  obtain ⟨tx, hbefore, hkind⟩ := Option.map_eq_some_iff.mp hkinds.symm
  exact ⟨tx, hbefore, hkind.symm⟩

/-- What a tracked record says of other transactions, said by the store before. -/
theorem Store.Tracks.exists_iff {verdicts : List (Txid × Verdict)} {txid : Txid} {P : CoordinatedTx → Prop}
    (h : s.Tracks height verdicts s')
    (hP : ∀ tx tx' : CoordinatedTx, tx'.kind.unmarked = tx.kind.unmarked → (P tx' ↔ P tx)) :
    (∃ tx, s'.txs.get txid = some tx ∧ P tx) ↔ ∃ tx, s.txs.get txid = some tx ∧ P tx := by
  constructor
  · rintro ⟨tx', hget', hP'⟩
    obtain ⟨tx, hget, hkind⟩ := h.before hget'
    exact ⟨tx, hget, (hP tx tx' hkind).mp hP'⟩
  · rintro ⟨tx, hget, hPtx⟩
    obtain ⟨tx', hget', hkind⟩ := h.after hget
    exact ⟨tx', hget', (hP tx tx' hkind).mpr hPtx⟩

/-- The dependences are as before. -/
theorem Store.Tracks.dependsOn {verdicts : List (Txid × Verdict)} {txid parent : Txid}
    (h : s.Tracks height verdicts s') : s'.DependsOn txid parent ↔ s.DependsOn txid parent :=
  h.exists_iff fun _ _ hkind => by rw [(CoordinatedTx.eq_of_kind hkind).1]

/-- The replacements are as before. -/
theorem Store.Tracks.replaces {verdicts : List (Txid × Verdict)} {txid replaced : Txid}
    (h : s.Tracks height verdicts s') : s'.Replaces txid replaced ↔ s.Replaces txid replaced :=
  h.exists_iff fun _ _ hkind => by rw [(CoordinatedTx.eq_of_kind hkind).2.1]

/-- That what a transaction replaces is a speedup does not depend on the verdicts. -/
theorem Store.Tracks.replacesSpeedup {verdicts : List (Txid × Verdict)} {tx : CoordinatedTx}
    (h : s.Tracks height verdicts s') : tx.ReplacesSpeedup s' ↔ tx.ReplacesSpeedup s := by
  constructor
  · intro hspeedup replaced hreplaces record hrecord
    obtain ⟨record', hrecord', hkind⟩ := h.after hrecord
    rw [← (CoordinatedTx.eq_of_kind hkind).2.2.2]
    exact hspeedup replaced hreplaces record' hrecord'
  · intro hspeedup replaced hreplaces record' hrecord'
    obtain ⟨record, hrecord, hkind⟩ := h.before hrecord'
    rw [(CoordinatedTx.eq_of_kind hkind).2.2.2]
    exact hspeedup replaced hreplaces record hrecord

/-- What is given back is as before. -/
theorem Store.Tracks.frees {verdicts : List (Txid × Verdict)} {txid : Txid} {flag : Flag}
    (h : s.Tracks height verdicts s') : s'.Frees txid flag ↔ s.Frees txid flag := by
  unfold Store.Frees
  simp only [h.flagOf]
  exact h.exists_iff fun _ _ hkind => by rw [(CoordinatedTx.eq_of_kind hkind).2.2.1]

/-- A cascade reaches what fails with its root. -/
theorem Store.Tracks.failsWith {verdicts : List (Txid × Verdict)} {root txid : Txid}
    (h : s.Tracks height verdicts s') :
    Relation.ReflTransGen s'.IsListedDependant root txid ↔ s.FailsWith verdicts root txid := by
  have hstep : ∀ a b, s'.IsListedDependant a b ↔ s.WaitsAfter verdicts b ∧ s.DependsOn b a := by
    intro a b
    rw [← h.waits, ← h.dependsOn]
    constructor
    · rintro ⟨hlisted, tx, hget, hwaits, hdepends⟩
      exact ⟨⟨hlisted, tx, hget, hwaits⟩, tx, hget, hdepends⟩
    · rintro ⟨⟨hlisted, tx, hget, hwaits⟩, tx', hget', hdepends⟩
      cases hget.symm.trans hget'
      exact ⟨hlisted, tx, hget, hwaits, hdepends⟩
  unfold Store.FailsWith
  constructor
  · exact fun hreach => Relation.ReflTransGen.mono (fun a b => (hstep a b).mp) _ _ hreach
  · exact fun hreach => Relation.ReflTransGen.mono (fun a b => (hstep a b).mpr) _ _ hreach

/-! ### One verdict -/

variable {verdicts : List (Txid × Verdict)} {tx : CoordinatedTx}

/-- What a cascade fails has failed with its root. -/
theorem Store.isFreed_failed {root txid : Txid} :
    s.IsFreed ((root, .failed) :: verdicts) txid ↔
      s.IsFreed verdicts txid ∨ ∃ failed, s.FailsWith verdicts root failed ∧ s.Frees failed (.change txid) := by
  unfold Store.IsFreed
  simp only [Store.HasFailed, or_and_right, exists_or]
  exact or_comm

/-- An RBF of a speedup was taken. -/
theorem Store.replacedByAfter_taken {root txid : Txid} (h : s.Replaces root txid) :
    s.replacedByAfter txid ((root, .taken) :: verdicts) = some root := if_pos h

/-- A transaction that is no RBF of a speedup was taken. -/
theorem Store.replacedByAfter_taken_other {root txid : Txid} (h : ¬ s.Replaces root txid) :
    s.replacedByAfter txid ((root, .taken) :: verdicts) = s.replacedByAfter txid verdicts := if_neg h

/-- An RBF of a speedup failed. -/
theorem Store.replacedByAfter_failed {root txid : Txid}
    (h : ∃ failed, s.FailsWith verdicts root failed ∧ s.Replaces failed txid) :
    s.replacedByAfter txid ((root, .failed) :: verdicts) = none := if_pos h

/-- No RBF of a speedup failed. -/
theorem Store.replacedByAfter_failed_other {root txid : Txid}
    (h : ¬ ∃ failed, s.FailsWith verdicts root failed ∧ s.Replaces failed txid) :
    s.replacedByAfter txid ((root, .failed) :: verdicts) = s.replacedByAfter txid verdicts := if_neg h

/-- Verdicts without a failure touch a record only by an RBF of it that was taken. -/
theorem Store.untouched_of_not_failed (hfailed : ∀ settled ∈ verdicts, settled.2 ≠ .failed)
    (hreplaced : ∀ settled ∈ verdicts, ¬ s.Replaces settled.1 tx.txid) : s.Untouched height verdicts tx := by
  have hnone : (∀ txid, ¬ s.HasFailed verdicts txid) ∧ s.replacedByAfter tx.txid verdicts = s.replacedBy tx.txid := by
    induction verdicts with
    | nil => exact ⟨fun _ => not_false, rfl⟩
    | cons settled older ih =>
      obtain ⟨root, verdict⟩ := settled
      obtain ⟨holder, hlink⟩ := ih (fun settled h => hfailed settled (List.mem_cons_of_mem _ h))
        fun settled h => hreplaced settled (List.mem_cons_of_mem _ h)
      cases verdict with
      | taken => exact ⟨holder, (Store.replacedByAfter_taken_other (hreplaced _ List.mem_cons_self)).trans hlink⟩
      | failed => exact absurd rfl (hfailed _ List.mem_cons_self)
      | kept => exact ⟨holder, hlink⟩
  constructor
  case settled => exact fun h => absurd h (hnone.1 _)
  case spent =>
    rintro ⟨failed, h, -⟩
    exact absurd h (hnone.1 failed)
  case linked => exact hnone.2

/-- What was settled as failed waits no longer, and nothing else stopped waiting. -/
theorem Settles.waits_iff {failed : List Txid} {txid : Txid} (h : Settles height failed w w') :
    w'.store.Waits txid ↔ w.store.Waits txid ∧ txid ∉ failed := by
  unfold Store.Waits
  rw [h.speedupList]
  constructor
  · rintro ⟨hlisted, tx', hget', hwaits⟩
    obtain ⟨tx, hget, hunmarked⟩ := h.before hget'
    have hstate := (CoordinatedTx.eq_of_unmarked hunmarked).2.1
    by_cases hin : txid ∈ failed
    · rw [if_pos hin, hwaits] at hstate
      exact absurd hstate.symm tx.settleFailed_state_ne
    · rw [if_neg hin, hwaits] at hstate
      exact ⟨⟨hlisted, tx, hget, hstate.symm⟩, hin⟩
  · rintro ⟨⟨hlisted, tx, hget, hwaits⟩, hin⟩
    obtain ⟨tx', hget', hunmarked⟩ := h.after hget
    rw [if_neg hin] at hunmarked
    exact ⟨hlisted, tx', hget', (CoordinatedTx.eq_of_unmarked hunmarked).2.1.trans hwaits⟩

/-- A transaction that was waiting when it was settled as failed carries the height, and the others carry what
they did. -/
theorem Settles.settledBlockHeight {failed : List Txid} {txid : Txid} {tx tx' : CoordinatedTx}
    (h : Settles height failed w w') (hget : w.store.txs.get txid = some tx)
    (hget' : w'.store.txs.get txid = some tx') (hwaits : txid ∈ failed → tx.state = .toDispatch) :
    tx'.settledBlockHeight = if txid ∈ failed then some height else tx.settledBlockHeight := by
  obtain ⟨found, hfound, hunmarked⟩ := h.before hget'
  cases hget.symm.trans hfound
  have hsame := congrArg CoordinatedTx.settledBlockHeight hunmarked
  change tx'.settledBlockHeight = (if txid ∈ failed then tx.settleFailed height else tx).settledBlockHeight at hsame
  rw [hsame]
  by_cases hin : txid ∈ failed
  · rw [if_pos hin, if_pos hin, CoordinatedTx.settleFailed_of_waiting (hwaits hin)]
  · rw [if_neg hin, if_neg hin]

/-- A cascade follows the verdict that its root fails. -/
theorem Store.Tracks.failed {root : Txid} (h : s.Tracks height verdicts w.store)
    (hcascade : CascadesFrom height root w w') :
    s.Tracks height ((root, .failed) :: verdicts) w'.store := by
  obtain ⟨failed, ⟨hsettles, hunmarks⟩, hmem⟩ := hcascade
  have hfailed : ∀ txid, txid ∈ failed ↔ s.FailsWith verdicts root txid :=
    fun txid => (hmem txid).trans h.failsWith
  have hothers : ∀ {txid}, txid ∉ ((root, Verdict.failed) :: verdicts).map Prod.fst →
      txid ≠ root ∧ txid ∉ verdicts.map Prod.fst := by
    intro txid hnew
    simpa using hnew
  constructor
  case listed => exact hsettles.speedupList.trans h.listed
  case flagOf => exact fun op => (hunmarks.flagOf op).trans (h.flagOf op)
  case kinds =>
    intro txid
    rw [← h.kinds txid]
    have hsame := congrArg (Option.map fun tx : CoordinatedTx => tx.kind) (hsettles.txs txid)
    simp only [Option.map_map] at hsame
    refine hsame.trans (congrArg (fun f => Option.map f _) (funext fun tx => ?_))
    change (if txid ∈ failed then tx.settleFailed height else tx).unmarked.kind = tx.kind.unmarked
    split
    · unfold CoordinatedTx.settleFailed
      split <;> rfl
    · rfl
  case waits =>
    intro txid
    rw [hsettles.waits_iff, h.waits, hfailed]
    rfl
  case settled =>
    intro txid hnew tx tx' hget hget'
    obtain ⟨hroot, hold⟩ := hothers hnew
    obtain ⟨tx₁, hget₁, -⟩ := hsettles.before hget'
    have hbefore := h.settled txid hold tx tx₁ hget hget₁
    -- Reached from another root, a transaction that failed was still waiting, so settling it stamps the height.
    have hheight := hsettles.settledBlockHeight hget₁ hget' fun hin => by
      rcases (hmem txid).mp hin with _ | ⟨_, -, tx₂, hget₂, hstate, -⟩
      · exact absurd rfl hroot
      · cases hget₁.symm.trans hget₂
        exact hstate
    change (s.FailsWith verdicts root txid ∨ s.HasFailed verdicts txid → _) ∧
      (¬ (s.FailsWith verdicts root txid ∨ s.HasFailed verdicts txid) → _)
    rw [← hfailed, hheight]
    by_cases hin : txid ∈ failed
    · rw [if_pos hin]
      exact ⟨fun _ => rfl, fun hnot => absurd (Or.inl hin) hnot⟩
    · rw [if_neg hin]
      exact ⟨fun hsome => hbefore.1 (hsome.resolve_left hin),
        fun hnot => hbefore.2 fun hsome => hnot (Or.inr hsome)⟩
  case freed =>
    intro txid hnew hfreed
    obtain ⟨-, hold⟩ := hothers hnew
    by_cases hnow : ∃ id ∈ failed, w.store.Frees id (.change txid)
    · rw [hunmarks.cleared _ hnow]
      by_cases hbefore : s.IsFreed verdicts txid
      · rw [h.freed txid hold hbefore, Option.map_map]
        rfl
      · rw [h.kept txid hold hbefore]
    · rw [hunmarks.kept _ hnow]
      apply h.freed txid hold
      refine (Store.isFreed_failed.mp hfreed).resolve_right ?_
      rintro ⟨id, hid, hfrees⟩
      exact hnow ⟨id, (hfailed id).mpr hid, h.frees.mpr hfrees⟩
  case kept =>
    intro txid hnew hkept
    obtain ⟨-, hold⟩ := hothers hnew
    rw [Store.isFreed_failed, not_or] at hkept
    rw [hunmarks.kept, h.kept txid hold hkept.1]
    rintro ⟨id, hid, hfrees⟩
    exact hkept.2 ⟨id, (hfailed id).mp hid, h.frees.mp hfrees⟩
  case links =>
    intro txid hnew htracked
    obtain ⟨-, hold⟩ := hothers hnew
    have hreplaced : (∃ id ∈ failed, w.store.Replaces id txid) ↔
        ∃ id, s.FailsWith verdicts root id ∧ s.Replaces id txid := by
      simp only [hfailed, h.replaces]
    by_cases hnow : ∃ id ∈ failed, w.store.Replaces id txid
    · rw [Store.replacedByAfter_failed (hreplaced.mp hnow), hunmarks.unlinked txid hnow]
    · rw [Store.replacedByAfter_failed_other fun hsome => hnow (hreplaced.mpr hsome),
        hunmarks.linked txid hnow, h.links txid hold htracked]

/-- What a transaction replaces is linked to it, and nothing else that verdicts depend on has changed. -/
structure Store.Relinked (s : Store) (tx : CoordinatedTx) (s' : Store) : Prop where
  replacesSpeedup : tx.ReplacesSpeedup s
  listed : s'.speedupList = s.speedupList
  flagOf : ∀ op, s'.flagOf op = s.flagOf op
  flags : ∀ flag, s'.flag flag = s.flag flag
  records : ∀ txid, (s'.txs.get txid).map CoordinatedTx.unmarked =
    (s.txs.get txid).map CoordinatedTx.unmarked
  links : ∀ txid, (s.txs.get txid).isSome →
    s'.replacedBy txid = if tx.replaces? = some txid then some tx.txid else s.replacedBy txid

/-- Where nothing that a transaction replaces is tracked, nothing is to be linked. -/
theorem Store.relinked_of_untracked (hnone : ∀ txid, tx.replaces? = some txid → s.txs.get txid = none) :
    s.Relinked tx s where
  replacesSpeedup := by
    intro replaced hreplaces record hget
    rw [hnone replaced hreplaces] at hget
    cases hget
  listed := rfl
  flagOf _ := rfl
  flags _ := rfl
  records _ := rfl
  links := by
    intro txid htracked
    rw [if_neg]
    intro hreplaces
    rw [hnone txid hreplaces] at htracked
    cases htracked

/-- Marking what a transaction replaces links it. -/
theorem markReplaced_relinks {u : Unit} (hrun : markReplaced tx tx.txid ctx w = (.ok u, w')) :
    w.store.Relinked tx w'.store := by
  unfold markReplaced at hrun
  cases hreplaces : tx.replaces? with
  | none =>
    rw [hreplaces] at hrun
    obtain ⟨-, rfl⟩ := Prog.pure_ok.mp hrun
    apply Store.relinked_of_untracked
    rw [hreplaces]
    exact fun _ h => by cases h
  | some replaces =>
    rw [hreplaces] at hrun
    obtain ⟨found, w₁, hread, hbody⟩ := Prog.bind_ok.mp hrun
    obtain ⟨hfound, hw₁⟩ := readStore_ok.mp hread
    subst w₁
    cases hget : w.store.txs.get replaces with
    | none =>
      rw [hfound, hget] at hbody
      obtain ⟨-, rfl⟩ := Prog.pure_ok.mp hbody
      apply Store.relinked_of_untracked
      rw [hreplaces]
      rintro _ ⟨⟩
      exact hget
    | some replaced =>
      rw [hfound, hget] at hbody
      obtain ⟨updated, w₁, hmodify, hwrite⟩ := Prog.bind_ok.mp hbody
      obtain ⟨hupdated, rfl⟩ := Prog.ofExcept_ok.mp hmodify
      obtain ⟨kind, hkind, rfl⟩ := CoordinatedTx.modifyContext_ok (Prog.mapError_ok.mp hupdated)
      obtain ⟨-, rfl⟩ := writeStore_ok.mp hwrite
      have hkey := w₁.store.keyed _ _ hget
      have hself : w₁.store.txs.get replaced.txid = some replaced := hkey ▸ hget
      obtain ⟨hflagOf, hflags, hlinks⟩ := Store.relink_marks hself hkind rfl
      constructor
      case replacesSpeedup =>
        intro id hid record hrecord
        cases hreplaces.symm.trans hid
        cases hget.symm.trans hrecord
        simp [CoordinatedTx.speedup?, hkind]
      case listed => rfl
      case flagOf => exact hflagOf
      case flags => exact hflags
      case records =>
        intro txid
        change ((w₁.store.setTx _).txs.get txid).map _ = _
        rw [Store.get_setTx]
        split
        · next hid =>
          change txid = replaced.txid at hid
          rw [hid, hself, Option.map_some, Option.map_some,
            ← CoordinatedTx.unmarked_mark (Mark.replacedBy (some tx.txid)) hkind]
          rfl
        · rfl
      case links =>
        intro txid _
        refine (hlinks txid).trans ?_
        simp only [hreplaces, Option.some.injEq, hkey, eq_comm]

/-- A record found where a link was set was found before, with the same settled height. -/
theorem Store.Relinked.before {txid : Txid} {tx' : CoordinatedTx} (h : s.Relinked tx s')
    (hget : s'.txs.get txid = some tx') :
    ∃ tx₀, s.txs.get txid = some tx₀ ∧ tx'.settledBlockHeight = tx₀.settledBlockHeight := by
  have hrecords := h.records txid
  rw [hget] at hrecords
  obtain ⟨tx₀, hbefore, hunmarked⟩ := Option.map_eq_some_iff.mp hrecords.symm
  have hsettled := congrArg CoordinatedTx.settledBlockHeight hunmarked
  exact ⟨tx₀, hbefore, hsettled.symm⟩

/-- Setting a link makes nothing wait or stop waiting. -/
theorem Store.Relinked.waits_iff {txid : Txid} (h : s.Relinked tx s') : s'.Waits txid ↔ s.Waits txid := by
  apply Store.waits_congr h.listed
  have hstates := congrArg (Option.map CoordinatedTx.state) (h.records txid)
  simp only [Option.map_map] at hstates
  exact hstates

/-- A transaction that the node took was linked to what it replaces, and its copy was put back. -/
theorem settleTaken_ok {confirmations : ℕ} {u : Unit}
    (hrun : settleTaken tx tx.txid height confirmations ctx w = (.ok u, w')) :
    ∃ s₁, w.store.Relinked tx s₁ ∧ w'.store = s₁.setTx (tx.taken height confirmations) := by
  obtain ⟨_, w₁, hreplaced, hrest⟩ := Prog.bind_ok.mp hrun
  obtain ⟨_, w₂, hput, hwatch⟩ := Prog.bind_ok.mp hrest
  obtain ⟨before, w₃, hread, hwrite⟩ := Prog.bind_ok.mp hput
  obtain ⟨-, rfl⟩ := readStore_ok.mp hread
  obtain ⟨_, w₄, hinsert, hnote⟩ := Prog.bind_ok.mp hwrite
  obtain ⟨-, rfl⟩ := writeStore_ok.mp hinsert
  obtain rfl := note_ok.mp hnote
  refine ⟨_, markReplaced_relinks hreplaced, ?_⟩
  rw [monitorWatch_ok hwatch]
  rfl

/-- The copy of a taken transaction is stored under its identifier and waits no longer. -/
theorem CoordinatedTx.taken_txid (tx : CoordinatedTx) (height : BlockHeight) (confirmations : ℕ) :
    (tx.taken height confirmations).txid = tx.txid ∧ (tx.taken height confirmations).kind = tx.kind ∧
      (tx.taken height confirmations).state ≠ .toDispatch := by
  unfold CoordinatedTx.taken
  split <;> simp

/-- A transaction that the node took is settled as taken. -/
theorem Store.Tracks.taken {confirmations : ℕ} {u : Unit} (h : s.Tracks height verdicts w.store)
    (hget : s.txs.get tx.txid = some tx)
    (hrun : settleTaken tx tx.txid height confirmations ctx w = (.ok u, w')) :
    tx.ReplacesSpeedup s ∧ s.Tracks height ((tx.txid, .taken) :: verdicts) w'.store := by
  obtain ⟨s₁, hrelinked, hstore⟩ := settleTaken_ok hrun
  obtain ⟨htxid, hkind, hstate⟩ := tx.taken_txid height confirmations
  have hlisted : w'.store.speedupList = w.store.speedupList := by
    rw [hstore]
    exact hrelinked.listed
  have hfound : ∀ txid, w'.store.txs.get txid =
      if txid = tx.txid then some (tx.taken height confirmations) else s₁.txs.get txid := by
    intro txid
    rw [hstore, Store.get_setTx, htxid]
  have hother : ∀ {txid}, txid ≠ tx.txid → w'.store.flag (.change txid) = w.store.flag (.change txid) ∧
      w'.store.replacedBy txid = s₁.replacedBy txid := by
    intro txid hne
    constructor
    · rw [← hrelinked.flags]
      simp only [Store.flag, hfound, if_neg hne]
    · simp only [Store.replacedBy, hfound, if_neg hne]
  have hothers : ∀ {txid}, txid ∉ ((tx.txid, Verdict.taken) :: verdicts).map Prod.fst →
      txid ≠ tx.txid ∧ txid ∉ verdicts.map Prod.fst := by
    intro txid hnew
    simpa using hnew
  refine ⟨h.replacesSpeedup.mp hrelinked.replacesSpeedup, ?_⟩
  constructor
  case listed => exact hlisted.trans h.listed
  case flagOf =>
    intro op
    rw [hstore]
    exact (hrelinked.flagOf op).trans (h.flagOf op)
  case kinds =>
    intro txid
    rw [hfound]
    split
    · next hid => rw [hid, hget, Option.map_some, Option.map_some, hkind]
    · rw [← h.kinds txid]
      have hsame := congrArg (Option.map fun tx : CoordinatedTx => tx.kind) (hrelinked.records txid)
      simp only [Option.map_map] at hsame
      exact hsame
  case waits =>
    intro txid
    change _ ↔ s.WaitsAfter verdicts txid ∧ txid ≠ tx.txid
    rw [← h.waits, ← hrelinked.waits_iff]
    unfold Store.Waits
    rw [hlisted, hrelinked.listed, hfound]
    by_cases hid : txid = tx.txid
    · simp [hid, hstate]
    · rw [if_neg hid, and_iff_left hid]
  case settled =>
    intro txid hnew tx₀ tx' hget₀ hget'
    obtain ⟨hid, hold⟩ := hothers hnew
    rw [hfound, if_neg hid] at hget'
    obtain ⟨tx₁, hget₁, hheight⟩ := hrelinked.before hget'
    rw [hheight]
    exact h.settled txid hold tx₀ tx₁ hget₀ hget₁
  case freed =>
    intro txid hnew hfreed
    obtain ⟨hid, hold⟩ := hothers hnew
    rw [(hother hid).1]
    exact h.freed txid hold hfreed
  case kept =>
    intro txid hnew hkept
    obtain ⟨hid, hold⟩ := hothers hnew
    rw [(hother hid).1]
    exact h.kept txid hold hkept
  case links =>
    intro txid hnew htracked
    obtain ⟨hid, hold⟩ := hothers hnew
    have htracked' : (w.store.txs.get txid).isSome := by
      obtain ⟨tx₀, hget₀⟩ := Option.isSome_iff_exists.mp htracked
      obtain ⟨tx₁, hget₁, -⟩ := h.after hget₀
      rw [hget₁]
      rfl
    rw [(hother hid).2, hrelinked.links txid htracked', h.links txid hold htracked]
    have hreplaces : s.Replaces tx.txid txid ↔ tx.replaces? = some txid := by
      simp only [Store.Replaces, hget, Option.some.injEq, exists_eq_left']
    by_cases hnow : tx.replaces? = some txid
    · rw [if_pos hnow, Store.replacedByAfter_taken (hreplaces.mpr hnow)]
    · rw [if_neg hnow, Store.replacedByAfter_taken_other fun hsome => hnow (hreplaces.mp hsome)]

/-- Putting a record that waits or has failed back to dispatch leaves its state and its settled height alone. -/
theorem markAsRetry_standing {record : CoordinatedTx} {u : Unit} {txid : Txid}
    (hget : w.store.txs.get txid = some record) (hstate : record.state = .toDispatch ∨ record.state = .failed)
    (hrun : markAsRetry txid ctx w = (.ok u, w')) : w'.store.speedupList = w.store.speedupList ∧
      ∀ id, (w'.store.txs.get id).map (fun tx => (tx.state, tx.settledBlockHeight)) =
        (w.store.txs.get id).map fun tx => (tx.state, tx.settledBlockHeight) := by
  have hkey := w.store.keyed _ _ hget
  obtain ⟨found, w₁, hread, hbody⟩ := Prog.bind_ok.mp hrun
  obtain ⟨rfl, rfl⟩ := readStore_ok.mp hread
  rw [hget] at hbody
  rcases Prog.ite_ok.mp hbody with ⟨hstep, hwrite⟩ | ⟨-, hpublish⟩
  · have hwaits : record.state = .toDispatch := by
      rcases hstate with hwaits | hfailed
      · exact hwaits
      · rw [hfailed] at hstep
        cases hstep
    obtain ⟨-, rfl⟩ := writeStore_ok.mp hwrite
    refine ⟨rfl, fun id => ?_⟩
    change ((w₁.store.setTx _).txs.get id).map _ = _
    rw [Store.get_setTx]
    split
    · next hid =>
      change id = record.txid at hid
      rw [hid, hkey, hget, Option.map_some, Option.map_some, hwaits]
    · rfl
  · obtain ⟨_, w₂, hnews, hpure⟩ := Prog.bind_ok.mp hpublish
    obtain ⟨-, rfl⟩ := Prog.pure_ok.mp hpure
    rw [(addNews_ok hnews).1]
    exact ⟨rfl, fun _ => rfl⟩

/-- A transaction that goes back to dispatch is settled as kept. -/
theorem Store.Tracks.retried {record : CoordinatedTx} {u : Unit} {txid : Txid}
    (h : s.Tracks height verdicts w.store) (hget : w.store.txs.get txid = some record)
    (hstate : record.state = .toDispatch ∨ record.state = .failed)
    (hrun : markAsRetry txid ctx w = (.ok u, w')) :
    s.Tracks height ((txid, .kept) :: verdicts) w'.store := by
  have hkinds : SameKinds w.store w'.store :=
    (markAsRetry_keeps_kinds w.store txid).run ⟨rfl, fun _ => rfl⟩ hrun
  obtain ⟨hlisted, hstanding⟩ := markAsRetry_standing hget hstate hrun
  have hflags : ∀ flag, w'.store.flag flag = w.store.flag flag := fun flag => hkinds.unmarks.kept flag id
  have hothers : ∀ {id}, id ∉ ((txid, Verdict.kept) :: verdicts).map Prod.fst →
      id ∉ verdicts.map Prod.fst := by
    intro id hnew hold
    exact hnew (List.mem_cons_of_mem _ hold)
  constructor
  case listed => exact hlisted.trans h.listed
  case flagOf => exact fun op => (hkinds.unmarks.flagOf op).trans (h.flagOf op)
  case kinds =>
    intro id
    rw [← h.kinds id]
    have hsame := congrArg (Option.map TxKind.unmarked) (hkinds.kinds id)
    simp only [Option.map_map] at hsame
    exact hsame
  case waits =>
    intro id
    refine (Store.waits_congr hlisted ?_).trans (h.waits id)
    have hstates := congrArg (Option.map Prod.fst) (hstanding id)
    simp only [Option.map_map] at hstates
    exact hstates
  case settled =>
    intro id hnew tx tx' hbefore hget'
    have hsame := hstanding id
    rw [hget'] at hsame
    obtain ⟨tx₁, hget₁, heq⟩ := Option.map_eq_some_iff.mp hsame.symm
    have hheight : tx₁.settledBlockHeight = tx'.settledBlockHeight := congrArg Prod.snd heq
    rw [← hheight]
    exact h.settled id (hothers hnew) tx tx₁ hbefore hget₁
  case freed =>
    intro id hnew hfreed
    rw [hflags]
    exact h.freed id (hothers hnew) hfreed
  case kept =>
    intro id hnew hkept
    rw [hflags]
    exact h.kept id (hothers hnew) hkept
  case links =>
    intro id hnew htracked
    rw [hkinds.unmarks.linked id not_false]
    exact h.links id (hothers hnew) htracked

/-! ### Outcomes -/

/-- What a program did whose only errors are refused writes, when it completed. -/
theorem UnlessRefused.run {Q : α → World → Prop} {m : Coord α} {a : α}
    (h : Prog.Ends (UnlessRefused Q) m ctx w) (hrun : m ctx w = (.ok a, w')) : Q a w' := by
  rcases h.run hrun with ⟨reason, hrefused⟩ | ⟨b, hb, hQ⟩
  · cases hrefused
  · cases hb
    exact hQ

/-- A transaction whose copy is at hand fails with what depends on it. -/
theorem Store.Tracks.failAndCascade (h : s.Tracks height verdicts w.store) (hstored : StillStored tx w)
    (fundingMissing : Bool) :
    Prog.Ends (UnlessRefused fun _ w' => s.Tracks height ((tx.txid, .failed) :: verdicts) w'.store)
      (failAndCascade tx height fundingMissing) ctx w := by
  obtain ⟨record, hget, hdrift⟩ := hstored
  have htxid : record.txid = tx.txid := w.store.keyed _ _ hget
  rw [← failAndCascade_core, ← hdrift.core, failAndCascade_core, ← htxid]
  exact UnlessRefused.mono (failAndCascade_cascades (htxid ▸ hget)) fun _ _ => h.failed

/-- A doomed transaction whose copy is at hand fails with what depends on it. -/
theorem Store.Tracks.settleFailedChild (h : s.Tracks height verdicts w.store) (hstored : StillStored tx w) :
    Prog.Ends (UnlessRefused fun _ w' => s.Tracks height ((tx.txid, .failed) :: verdicts) w'.store)
      (settleFailedChild tx height) ctx w := by
  obtain ⟨record, hget, hdrift⟩ := hstored
  have htxid : record.txid = tx.txid := w.store.keyed _ _ hget
  rw [← settleFailedChild_core, ← hdrift.core, settleFailedChild_core, ← htxid]
  exact UnlessRefused.mono (settleFailedChild_cascades (htxid ▸ hget)) fun _ _ => h.failed

/-- A transaction of the batch goes back to dispatch. -/
theorem Store.Tracks.markAsRetry (h : s.Tracks height verdicts w.store) (hwaits : tx.state = .toDispatch)
    (hstored : StillStored tx w) :
    Prog.Ends (UnlessRefused fun _ w' => s.Tracks height ((tx.txid, .kept) :: verdicts) w'.store)
      (markAsRetry tx.txid) ctx w := by
  obtain ⟨record, hget, hdrift⟩ := hstored
  have hstate : record.state = .toDispatch ∨ record.state = .failed := by
    rcases hdrift.state with ⟨hstate, -⟩ | ⟨-, hstate, -⟩
    · exact Or.inl (hstate.trans hwaits)
    · exact Or.inr hstate
  have hends : Prog.Ends (UnlessRefused fun _ _ => True) (BitcoinCoordinator.markAsRetry tx.txid) ctx w := by
    have hpublish : ∀ news w, Prog.Ends (UnlessRefused fun _ _ => True)
        (do let _ ← addNews news; pure () : Coord Unit) ctx w :=
      fun news w => UnlessRefused.bind (addNews_settles height news) fun _ _ _ => UnlessRefused.pure trivial
    apply ends_read
    rw [hget]
    apply Prog.Ends.ite <;> intro _
    · exact UnlessRefused.mono writeStore_ends fun _ _ _ => trivial
    · exact hpublish _ w
  exact UnlessRefused.of_ok hends fun _ _ hrun => h.retried hget hstate hrun

/-- A rejected transaction whose inputs are intact. -/
theorem Store.Tracks.retryOrFail (h : s.Tracks height verdicts w.store) (hwaits : tx.state = .toDispatch)
    (hstored : StillStored tx w) :
    Prog.Ends (UnlessRefused fun _ w' =>
        s.Tracks height ((tx.txid, tx.retryVerdict ctx.settings) :: verdicts) w'.store)
      (retryOrFail tx tx.txid height) ctx w := by
  change Prog.Ends _ (if ctx.settings.coordinator.retryAttemptsSendingTx ≤ tx.retryCount + 1 then do
      note fun _ => .exhausted tx.txid
      BitcoinCoordinator.failAndCascade tx height false
    else BitcoinCoordinator.markAsRetry tx.txid : Coord Unit) ctx (w.noted (.transient tx.txid))
  unfold CoordinatedTx.retryVerdict
  split
  · exact Store.Tracks.failAndCascade (w := (w.noted (.transient tx.txid)).noted (.exhausted tx.txid)) h hstored false
  · exact Store.Tracks.markAsRetry (w := w.noted (.transient tx.txid)) h hwaits hstored

/-- A rejected transaction one of whose inputs is missing. -/
theorem Store.Tracks.settleMissingInput (h : s.Tracks height verdicts w.store) (hwaits : tx.state = .toDispatch)
    (hstored : StillStored tx w) (fundingMissing : Bool) :
    Prog.Ends (UnlessRefused fun _ w' =>
        s.Tracks height ((tx.txid, tx.missingVerdict height) :: verdicts) w'.store)
      (settleMissingInput tx tx.txid height fundingMissing) ctx w := by
  apply ends_read
  apply UnlessRefused.bind (Q := fun _ w' =>
    s.Tracks height ((tx.txid, tx.missingVerdict height) :: verdicts) w'.store)
  · unfold excuseOrFail CoordinatedTx.missingVerdict
    split
    · exact Store.Tracks.markAsRetry (w := w.noted (.deferred tx.txid height)) h hwaits hstored
    · change Prog.Ends _ (if fundingMissing then BitcoinCoordinator.failAndCascade tx height true
        else BitcoinCoordinator.settleFailedChild tx height) ctx (w.noted (.condemned tx.txid height))
      split
      · exact Store.Tracks.failAndCascade (w := w.noted (.condemned tx.txid height)) h hstored true
      · exact Store.Tracks.settleFailedChild (w := w.noted (.condemned tx.txid height)) h hstored
  · exact fun _ w₁ hsettled => Or.inr ⟨(), rfl, hsettled⟩

/-- Probing outputs leaves the store alone, and a missing one was probed. -/
theorem anyInputMissing_ok {ops : List OutPoint} {missing : Bool}
    (hrun : anyInputMissing ops ctx w = (.ok missing, w')) :
    w'.store = w.store ∧ (missing = true → ops ≠ []) := by
  induction ops generalizing w with
  | nil =>
    obtain ⟨rfl, rfl⟩ := Prog.pure_ok.mp hrun
    exact ⟨rfl, fun h => by cases h⟩
  | cons op rest ih =>
    obtain ⟨unspent, w₁, hquery, hbody⟩ := Prog.bind_ok.mp hrun
    obtain ⟨-, rfl⟩ := query_ok.mp hquery
    rcases Prog.ite_ok.mp hbody with ⟨-, hrest⟩ | ⟨-, hpure⟩
    · exact ⟨(ih hrest).1, fun _ => List.cons_ne_nil _ _⟩
    · obtain ⟨-, rfl⟩ := Prog.pure_ok.mp hpure
      exact ⟨rfl, fun _ => List.cons_ne_nil _ _⟩

/-- Probing the inputs leaves the store alone, and a missing one was probed. -/
theorem missingInputKind_ok {missing : Option Bool} (hrun : missingInputKind tx ctx w = (.ok missing, w')) :
    w'.store = w.store ∧ (missing.isSome → tx.probed ≠ []) := by
  have hprobed : ∀ {ops}, ops ⊆ tx.probed → ops ≠ [] → tx.probed ≠ [] := by
    intro ops hsub hne hnil
    rw [hnil] at hsub
    exact hne (List.subset_nil.mp hsub)
  obtain ⟨fundingGone, w₁, hfunding, hbody⟩ := Prog.bind_ok.mp hrun
  obtain ⟨hstore, hfirst⟩ := anyInputMissing_ok hfunding
  rcases Prog.ite_ok.mp hbody with ⟨hgone, hpure⟩ | ⟨-, hbody⟩
  · obtain ⟨rfl, rfl⟩ := Prog.pure_ok.mp hpure
    exact ⟨hstore, fun _ => hprobed (List.subset_append_left _ _) (hfirst hgone)⟩
  · obtain ⟨otherGone, w₂, hother, hbody⟩ := Prog.bind_ok.mp hbody
    obtain ⟨hstore', hsecond⟩ := anyInputMissing_ok hother
    rcases Prog.ite_ok.mp hbody with ⟨hgone, hpure⟩ | ⟨-, hpure⟩
    · obtain ⟨rfl, rfl⟩ := Prog.pure_ok.mp hpure
      exact ⟨hstore'.trans hstore, fun _ => hprobed (List.subset_append_right _ _) (hsecond hgone)⟩
    · obtain ⟨rfl, rfl⟩ := Prog.pure_ok.mp hpure
      exact ⟨hstore'.trans hstore, fun h => by cases h⟩

/-- Where the store is the same, a copy has drifted no further. -/
theorem StillStored.of_store_eq (h : StillStored tx w) (hstore : w'.store = w.store) : StillStored tx w' := by
  unfold StillStored RecordAt
  rw [hstore]
  exact h

/-- A completed outcome of a transaction of the batch was settled by a verdict it can have. -/
theorem Store.Tracks.handleOutcome {outcome : DispatchOutcome} {u : Unit}
    (h : s.Tracks height verdicts w.store) (hget : s.txs.get tx.txid = some tx)
    (hwaits : tx.state = .toDispatch) (hstored : StillStored tx w)
    (hrun : handleOutcome tx tx.txid outcome height tx.feeInfo ctx w = (.ok u, w')) :
    ∃ verdict, s.Admits ctx.settings height tx outcome verdict ∧
      s.Tracks height ((tx.txid, verdict) :: verdicts) w'.store := by
  have htaken : ∀ {confirmations v}, Taken ctx w tx.txid outcome confirmations v → v.store = w.store →
      tx.ReplacesSpeedup s ∧ s.Tracks height ((tx.txid, .taken) :: verdicts) w'.store := by
    intro confirmations v htaken hstore
    rw [htaken.handleOutcome_eq] at hrun
    rw [← hstore] at h
    exact h.taken hget hrun
  cases outcome with
  | success =>
    obtain ⟨hreplace, htracks⟩ := htaken Taken.success rfl
    exact ⟨.taken, ⟨rfl, hreplace⟩, htracks⟩
  | fatal reason => exact ⟨.failed, rfl, UnlessRefused.run (h.failAndCascade hstored false) hrun⟩
  | parentFailed parent => exact ⟨.failed, rfl, UnlessRefused.run (h.settleFailedChild hstored) hrun⟩
  | dispatchError raw =>
    obtain ⟨confirmations, w₁, hquery, hbody⟩ := Prog.bind_ok.mp hrun
    obtain ⟨hanswer, rfl⟩ := query_ok.mp hquery
    cases confirmations with
    | some confirmations =>
      obtain ⟨hreplace, htracks⟩ := htaken (Taken.known raw confirmations hanswer) rfl
      exact ⟨.taken, Or.inl ⟨rfl, hreplace⟩, htracks⟩
    | none =>
      obtain ⟨missing, w₂, hprobe, hsettle⟩ := Prog.bind_ok.mp hbody
      obtain ⟨hstore, hprobed⟩ := missingInputKind_ok hprobe
      have hstored₂ : StillStored tx w₂ := hstored.of_store_eq hstore
      have htracks : s.Tracks height verdicts w₂.store := by
        rw [hstore]
        exact h
      cases missing with
      | none =>
        exact ⟨tx.retryVerdict ctx.settings, Or.inr (Or.inl rfl),
          UnlessRefused.run (htracks.retryOrFail hwaits hstored₂) hsettle⟩
      | some fundingMissing =>
        exact ⟨tx.missingVerdict height, Or.inr (Or.inr ⟨hprobed rfl, rfl⟩),
          UnlessRefused.run (htracks.settleMissingInput hwaits hstored₂ fundingMissing) hsettle⟩

/-- An outcome of which the copy is written back can be settled as taken. -/
theorem Store.Tracks.admits_taken {outcome : DispatchOutcome} (h : s.Tracks height verdicts w.store)
    (hwrites : WritesBack ctx w tx outcome) : s.Admits ctx.settings height tx outcome .taken := by
  obtain ⟨confirmations, v, _, _, htaken, hreplaced, -⟩ := hwrites
  have hspeedup : tx.ReplacesSpeedup v.store := (markReplaced_relinks hreplaced).replacesSpeedup
  cases htaken with
  | success => exact ⟨rfl, h.replacesSpeedup.mp hspeedup⟩
  | known raw _ _ => exact Or.inl ⟨rfl, h.replacesSpeedup.mp hspeedup⟩

/-- Kinds of speedups that are the same up to marks are the same exactly when their marks are. -/
theorem SpeedupKind.eq_iff_of_unmarked {kind kind' : SpeedupKind}
    (h : (TxKind.speedup kind').unmarked = (TxKind.speedup kind).unmarked) :
    kind' = kind ↔ kind'.context.spent = kind.context.spent ∧
      kind'.context.replacedBy = kind.context.replacedBy := by
  constructor
  · rintro rfl
    exact ⟨rfl, rfl⟩
  · rintro ⟨hspent, hlink⟩
    cases kind' with
    | cpfp parents' context' =>
      cases kind with
      | rbf replaces new context => cases h
      | cpfp parents context =>
        obtain ⟨_, _, _, _, _⟩ := context'
        obtain ⟨_, _, _, _, _⟩ := context
        cases hspent
        cases hlink
        cases h
        rfl
    | rbf replaces' new' context' =>
      cases kind with
      | cpfp parents context => cases h
      | rbf replaces new context =>
        obtain ⟨_, _, _, _, _⟩ := context'
        obtain ⟨_, _, _, _, _⟩ := context
        cases hspent
        cases hlink
        cases h
        rfl

/-- Kinds that are the same up to marks are the same exactly when their marks are. -/
theorem CoordinatedTx.kind_eq_iff {tx tx' : CoordinatedTx} (h : tx'.kind.unmarked = tx.kind.unmarked) :
    tx'.kind = tx.kind ↔
      tx'.speedup?.map (fun kind => kind.context.spent) = tx.speedup?.map (fun kind => kind.context.spent) ∧
        (tx'.speedup?.bind fun kind => kind.context.replacedBy) =
          tx.speedup?.bind fun kind => kind.context.replacedBy := by
  unfold CoordinatedTx.speedup?
  revert h
  cases tx'.kind with
  | normal =>
    cases tx.kind with
    | normal => simp
    | needsSpeedup data => exact fun h => by cases h
    | speedup kind => exact fun h => by cases h
  | needsSpeedup data' =>
    cases tx.kind with
    | normal => exact fun h => by cases h
    | needsSpeedup data => exact fun h => iff_of_true h ⟨rfl, rfl⟩
    | speedup kind => exact fun h => by cases h
  | speedup kind' =>
    cases tx.kind with
    | normal => exact fun h => by cases h
    | needsSpeedup data => exact fun h => by cases h
    | speedup kind =>
      intro h
      simpa using SpeedupKind.eq_iff_of_unmarked h

/-- The copy of a transaction that is still to be handled agrees with its record exactly when the verdicts
have not touched the record. -/
theorem Store.Tracks.fresh_iff {record : CoordinatedTx} (h : s.Tracks height verdicts s')
    (hget : s.txs.get tx.txid = some tx) (hnew : tx.txid ∉ verdicts.map Prod.fst)
    (hrecord : s'.txs.get tx.txid = some record) (hkinds : record.kind.unmarked = tx.kind.unmarked) :
    record.kind = tx.kind ∧ record.settledBlockHeight = tx.settledBlockHeight ↔
      s.Untouched height verdicts tx := by
  have hflag : ∀ {s : Store} {tx' : CoordinatedTx}, s.txs.get tx.txid = some tx' →
      s.flag (.change tx.txid) = tx'.speedup?.map fun kind => kind.context.spent := by
    intro s tx' hget
    simp only [Store.flag, hget, Option.bind_some]
  have hlink : ∀ {s : Store} {tx' : CoordinatedTx}, s.txs.get tx.txid = some tx' →
      s.replacedBy tx.txid = tx'.speedup?.bind fun kind => kind.context.replacedBy := by
    intro s tx' hget
    simp only [Store.replacedBy, hget, Option.bind_some]
  obtain ⟨hfailed, hkept⟩ := h.settled tx.txid hnew tx record hget hrecord
  have hlinks := h.links tx.txid hnew (by rw [hget]; rfl)
  have hspent : s'.flag (.change tx.txid) = s.flag (.change tx.txid) ↔
      (s.IsFreed verdicts tx.txid → s.flag (.change tx.txid) ≠ some true) := by
    by_cases hfreed : s.IsFreed verdicts tx.txid
    · rw [h.freed tx.txid hnew hfreed]
      cases s.flag (.change tx.txid) with
      | none => simp
      | some spent => cases spent <;> simp [hfreed]
    · rw [h.kept tx.txid hnew hfreed]
      exact iff_of_true rfl fun hsome => absurd hsome hfreed
  have hsettled : record.settledBlockHeight = tx.settledBlockHeight ↔
      (s.HasFailed verdicts tx.txid → tx.settledBlockHeight = some height) := by
    by_cases hin : s.HasFailed verdicts tx.txid
    · rw [hfailed hin]
      exact ⟨fun heq _ => heq.symm, fun himp => (himp hin).symm⟩
    · rw [hkept hin]
      exact iff_of_true rfl fun hsome => absurd hsome hin
  rw [CoordinatedTx.kind_eq_iff hkinds, ← hflag hrecord, ← hflag hget, ← hlink hrecord, ← hlink hget, hspent,
    hsettled, hlinks]
  constructor
  · rintro ⟨⟨hspent, hlinked⟩, hsettled⟩
    exact ⟨hsettled, hspent, hlinked⟩
  · intro huntouched
    exact ⟨⟨huntouched.spent, huntouched.linked⟩, huntouched.settled⟩

/-! ### A batch -/

variable {batch : List CoordinatedTx} {results handled : List (Txid × DispatchOutcome)}
  {result : Txid × DispatchOutcome}

/-- Verdicts are given to the transactions that were handled. -/
theorem Store.CanSettle.mem {verdicts' : List (Txid × Verdict)} {txid : Txid}
    (h : s.CanSettle cfg batch height verdicts handled verdicts') (hmem : txid ∈ verdicts'.map Prod.fst) :
    txid ∈ verdicts.map Prod.fst ∨ txid ∈ handled.map Prod.fst := by
  induction h with
  | done verdicts => exact Or.inl hmem
  | unknown _ _ ih =>
    rcases ih hmem with hold | hnew
    · exact Or.inl hold
    · exact Or.inr (List.mem_cons_of_mem _ hnew)
  | settled hfind _ _ ih =>
    rcases ih hmem with hold | hnew
    · rcases List.mem_cons.mp hold with rfl | hold
      · refine Or.inr (List.mem_cons.mpr (Or.inl ?_))
        simpa using List.find?_some hfind
      · exact Or.inl hold
    · exact Or.inr (List.mem_cons_of_mem _ hnew)

/-- The transactions of a batch are those of the store, waiting for dispatch. -/
def Store.Batches (s : Store) (batch : List CoordinatedTx) : Prop :=
  ∀ tx ∈ batch, tx ∈ s.speedupsOrdered ∧ tx.state = .toDispatch

/-- Completed outcomes of a batch were settled by verdicts they can have. The induction is on the outcomes; the
copies still to be handled have drifted at most. -/
theorem Store.Tracks.handleAll {u : Unit} (hbatch : s.Batches batch) (h : s.Tracks height verdicts w.store)
    (hstored : ∀ result ∈ handled, ∀ tx ∈ batch, tx.txid = result.1 → StillStored tx w)
    (hnodup : (handled.map Prod.fst).Nodup)
    (hrun : Prog.forEach handled (handleSpeedupResult batch height) ctx w = (.ok u, w')) :
    ∃ verdicts', s.CanSettle ctx.settings batch height verdicts handled verdicts' ∧
      s.Tracks height verdicts' w'.store := by
  induction handled generalizing verdicts w with
  | nil =>
    obtain ⟨-, rfl⟩ := Prog.pure_ok.mp hrun
    exact ⟨verdicts, .done verdicts, h⟩
  | cons result rest ih =>
    obtain ⟨_, w₁, hfirst, hrest⟩ := Prog.bind_ok.mp hrun
    have hlater := stillStored_rest hstored hnodup hfirst
    obtain ⟨-, hothers⟩ := List.nodup_cons.mp hnodup
    cases hfind : batch.find? fun tx => tx.txid = result.1 with
    | none =>
      unfold handleSpeedupResult at hfirst
      rw [hfind] at hfirst
      obtain ⟨-, rfl⟩ := Prog.pure_ok.mp hfirst
      obtain ⟨verdicts', hsettle, htracks⟩ := ih h hlater hothers hrest
      exact ⟨verdicts', .unknown hfind hsettle, htracks⟩
    | some tx =>
      have hmem := List.mem_of_find?_eq_some hfind
      have htxid : tx.txid = result.1 := by simpa using List.find?_some hfind
      have hget : s.txs.get tx.txid = some tx := (mem_speedupsOrdered (hbatch tx hmem).1).2
      have hcopy := hstored result List.mem_cons_self tx hmem htxid
      obtain ⟨record, hrecord, hdrift⟩ := hcopy
      rw [(handleSpeedupResult_of_find hfind hdrift.core hrecord).1] at hfirst
      obtain ⟨_, w₂, houtcome, hnote⟩ := Prog.bind_ok.mp hfirst
      obtain rfl := note_ok.mp hnote
      obtain ⟨verdict, hadmits, htracks⟩ :=
        h.handleOutcome hget (hbatch tx hmem).2 ⟨record, hrecord, hdrift⟩ houtcome
      obtain ⟨verdicts', hsettle, htracks'⟩ := ih (w := w₂.noted _) htracks hlater hothers hrest
      exact ⟨verdicts', .settled hfind hadmits hsettle, htracks'⟩

end BitcoinCoordinator
