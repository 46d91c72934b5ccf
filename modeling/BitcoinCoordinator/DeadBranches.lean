import BitcoinCoordinator.FeeBounds

/-!
# Speedups on dead branches

A transaction that settled as failed kills the outputs that descend from it through tracked speedups.
The cascade settles only the dependants waiting for dispatch, so a replaced speedup in the mempool can
outlive its ancestor. What is saved while no live record relies on a failed transaction stands on no
dead branch.
-/

namespace BitcoinCoordinator

open Foundation

/-- An output of a failed transaction, or of a tracked speedup that spends such an output. -/
inductive OnDeadBranch (s : Store) : OutPoint → Prop where
  | failed (op : OutPoint) (hfailed : s.isTxFailed op.txid = true) : OnDeadBranch s op
  | through (op input : OutPoint) (tx : CoordinatedTx) (hget : s.txs.get op.txid = some tx)
      (hspeedup : tx.speedup?.isSome) (hinput : input ∈ tx.tx.spends)
      (hdead : OnDeadBranch s input) : OnDeadBranch s op

/-- No live record relies on an output of a failed transaction: none is taken by a speedup that has not
failed, none is queued as funding, and none is named by a parent in the mempool or on chain. -/
structure BranchesAlive (s : Store) : Prop where
  speedups : ∀ tx, s.txs.get tx.txid = some tx → tx.speedup?.isSome → tx.state ≠ .failed →
    ∀ op ∈ tx.takes, s.isTxFailed op.txid = false
  queue : ∀ record ∈ s.fundingRecords, s.isTxFailed record.utxo.txid = false
  parents : ∀ tx data op, s.txs.get tx.txid = some tx → tx.kind = .needsSpeedup data →
    tx.state.isOnChainSide → data.outPoint? = some op → s.isTxFailed op.txid = false

/-- A saved speedup stands on no dead branch, and neither does the speedup a boost replaces or
extends. -/
def SavedAlive (tx : CoordinatedTx) (s : Store) : Prop :=
  (∀ op ∈ tx.tx.spends, ¬ OnDeadBranch s op) ∧
    (tx.isBoost → ∃ txid last, tx.predecessor? = some txid ∧ s.txs.get txid = some last ∧
      last.state ≠ .failed ∧ ∀ op ∈ last.tx.spends, ¬ OnDeadBranch s op)

/-- A tracked transaction that has not failed. -/
theorem Store.isTxFailed_eq_false {s : Store} {txid : Txid} {tx : CoordinatedTx}
    (hget : s.txs.get txid = some tx) : s.isTxFailed txid = false ↔ tx.state ≠ .failed := by
  simp [Store.isTxFailed, hget]

/-- What a transaction spends it takes. -/
theorem CoordinatedTx.mem_takes_of_mem_spends {tx : CoordinatedTx} {op : OutPoint}
    (h : op ∈ tx.tx.spends) : op ∈ tx.takes :=
  List.mem_append_left _ h

/-- While branches are alive, a dead branch is no longer than the failed transaction it starts at. -/
theorem BranchesAlive.isTxFailed {s : Store} (halive : BranchesAlive s) {op : OutPoint}
    (hdead : OnDeadBranch s op) : s.isTxFailed op.txid = true := by
  induction hdead with
  | failed op hfailed => exact hfailed
  | through op input tx hget hspeedup hinput hdead ih =>
    by_contra hlive
    have hstate : tx.state ≠ .failed :=
      (Store.isTxFailed_eq_false hget).mp (by simpa using hlive)
    have hid : tx.txid = op.txid := s.keyed _ _ hget
    rw [← hid] at hget
    have hsound := halive.speedups tx hget hspeedup hstate input
      (CoordinatedTx.mem_takes_of_mem_spends hinput)
    rw [hsound] at ih
    cases ih

/-- While branches are alive, what a live speedup takes is on no dead branch. -/
theorem BranchesAlive.takes {s : Store} (halive : BranchesAlive s) {tx : CoordinatedTx}
    (hget : s.txs.get tx.txid = some tx) (hspeedup : tx.speedup?.isSome)
    (hstate : tx.state ≠ .failed) {op : OutPoint} (hop : op ∈ tx.takes) : ¬ OnDeadBranch s op := by
  intro hdead
  have hfailed := halive.isTxFailed hdead
  rw [halive.speedups tx hget hspeedup hstate op hop] at hfailed
  cases hfailed

/-- While branches are alive, no output of known origin is on a dead one. -/
theorem BranchesAlive.source {s : Store} (halive : BranchesAlive s) {op : OutPoint}
    (hsource : Source s op) : ¬ OnDeadBranch s op := by
  cases hsource with
  | change tip hget hspeedup hstate =>
    intro hdead
    have hlive : tip.state ≠ .failed := by
      intro hfailed
      rw [hfailed] at hstate
      cases hstate
    have hfailed := halive.isTxFailed hdead
    rw [(Store.isTxFailed_eq_false hget).mpr hlive] at hfailed
    cases hfailed
  | queued record hqueued hop =>
    intro hdead
    have hfailed := halive.isTxFailed hdead
    rw [← hop] at hfailed
    have hlive : s.isTxFailed record.utxo.outPoint.txid = false := halive.queue record hqueued
    rw [hlive] at hfailed
    cases hfailed
  | parent tx data hget hkind hstate hop =>
    intro hdead
    have hfailed := halive.isTxFailed hdead
    rw [halive.parents tx data op hget hkind hstate hop] at hfailed
    cases hfailed
  | inherited last hget hspeedup hstate hop =>
    exact halive.takes hget hspeedup (by simp [hstate]) hop

/-- Whatever the calls are answered and wherever they stop, a speedup saved while no live record relies
on a failed transaction stands on no dead branch. -/
theorem saved_alive (cfg : BitcoinSettings) (s : Store) (news : List StoredNewsItem)
    (lastRetryAt : Option ℕ) (calls : List Call)
    (hbuilder : ∀ call ∈ calls, call.answers.SpendsRequested) (tx : CoordinatedTx) (before : Store)
    (older : List Event)
    (hsaved : (tx, before, older) ∈
      insertions (runCalls cfg calls (World.start s news lastRetryAt)).log)
    (halive : BranchesAlive before) : SavedAlive tx before := by
  obtain ⟨call, hcall, w₀, hinsertable, rfl, -⟩ :=
    insertionsSound_runCalls cfg s news lastRetryAt calls _ _ _ hsaved
  constructor
  · intro op hop
    obtain ⟨n, data, inputs, key, fee, hanswer, hsources⟩ := hinsertable.built
    have hrequested := (hbuilder call hcall n data inputs key fee _ hanswer op).mp hop
    exact halive.source (hsources op hrequested)
  · intro hboost
    obtain ⟨pricing, -, -, -, hboosts⟩ := hinsertable.signed
    obtain ⟨txid, last, hid, hget, hspeedup, hstate, -⟩ := hboosts hboost
    have hlive : last.state ≠ .failed := by simp [hstate]
    refine ⟨txid, last, hid, hget, hlive, fun op hop => ?_⟩
    have hkey : last.txid = txid := w₀.store.keyed _ _ hget
    rw [← hkey] at hget
    exact halive.takes hget hspeedup hlive (CoordinatedTx.mem_takes_of_mem_spends hop)

/-- Branches are alive while no tracked transaction has failed. -/
theorem branchesAlive_of_none_failed {s : Store}
    (h : ∀ tx ∈ s.txs.values, tx.state ≠ .failed) : BranchesAlive s := by
  have hnone : ∀ txid, s.isTxFailed txid = false := by
    intro txid
    cases hget : s.txs.get txid with
    | none => simp [Store.isTxFailed, hget]
    | some tx =>
      have hid : tx.txid = txid := s.keyed _ _ hget
      rw [← hid] at hget ⊢
      exact (Store.isTxFailed_eq_false hget).mpr (h tx (Store.mem_values.mpr hget))
  exact ⟨fun _ _ _ _ op _ => hnone op.txid, fun record _ => hnone record.utxo.txid,
    fun _ _ op _ _ _ _ => hnone op.txid⟩

/-- The boost saved in an example run. -/
theorem saved_alive_halvingCalls :
    ∃ p ∈ insertions (runCalls halvingSettings halvingCalls World.init).log,
      p.1.isBoost ∧ SavedAlive p.1 p.2.1 := by
  obtain ⟨p, hp, hboost, hnone⟩ :
      ∃ p ∈ insertions (runCalls halvingSettings halvingCalls World.init).log,
        p.1.isBoost ∧ ∀ tx ∈ p.2.1.txs.values, tx.state ≠ .failed := by decide +kernel
  refine ⟨p, hp, hboost, saved_alive halvingSettings Store.empty [] none halvingCalls ?_ p.1 p.2.1
    p.2.2 hp (branchesAlive_of_none_failed hnone)⟩
  intro call hcall
  simp only [halvingCalls, List.mem_cons, List.not_mem_nil, or_false] at hcall
  rcases hcall with rfl | rfl | rfl | rfl | rfl <;> exact plainBuilder_spendsRequested _ _ _ _

/-- Settings under which one unexplained rejection is final and two speedups fill the mempool. -/
def strictSettings : BitcoinSettings :=
  { coordinator := { retryAttemptsSendingTx := 1 }
    speedup := { maxUnconfirmedSpeedups := 2 }
    monitor := ⟨6⟩ }

/-- A parent gets a CPFP and the CPFP a boost; an RBF of the boost is built; then the whole branch drops
out of the mempool. The parent's rejection settles it, the CPFP and the RBF as failed, and the boost, in
the mempool for the coordinator, is boosted once more. -/
def droppedBranchCalls : List Call :=
  let builder := plainBuilder fun _ => 200
  let cpfp := builder [sampleAnchor] [sampleFunding] 7 3350
  let boost := builder [] [⟨cpfp.computeTxid, 0, 996650, 7⟩] 7 3600
  let first := sampleView 100 [] [sampleParent]
  [first.call builder 10 0 (.addFunding sampleFunding),
    first.call builder 10 0 (.dispatchWithSpeedup sampleParent sampleAnchor "parent" none none),
    first.call builder 10 0 .tick,
    (sampleView 100 [sampleParent] [cpfp]).call builder 10 0 .tick,
    (sampleView 101 [sampleParent, cpfp] []).call builder 10 0 .tick,
    (sampleView 101 [sampleParent, cpfp] [boost]).call builder 10 0 .tick,
    (sampleView 102 [sampleParent, cpfp, boost] []).call builder 10 0 .tick,
    (sampleView 103 [] []).call builder 10 10 .tick]

/-- A boost is saved on the change of a speedup whose own funding failed. -/
theorem exists_saved_on_dead_branch :
    ∃ (cfg : BitcoinSettings) (calls : List Call), cfg.validate = .ok () ∧
      (∀ call ∈ calls, call.SeesOneView ∧ call.answers.SpendsRequested) ∧
      OkRun cfg calls World.init (runCalls cfg calls World.init) ∧
      ∃ p ∈ insertions (runCalls cfg calls World.init).log, ¬ SavedAlive p.1 p.2.1 := by
  obtain ⟨p, hp, op, hop, tip, hget, hspeedup, input, hinput, hfailed⟩ :
      ∃ p ∈ insertions (runCalls strictSettings droppedBranchCalls World.init).log,
        ∃ op ∈ p.1.tx.spends, ∃ tip ∈ p.2.1.txs.get op.txid, tip.speedup?.isSome ∧
          ∃ input ∈ tip.tx.spends, p.2.1.isTxFailed input.txid = true := by decide +kernel
  refine ⟨strictSettings, droppedBranchCalls, by decide +kernel, ?_, okRun_runCalls (by decide +kernel),
    p, hp, fun hsaved => hsaved.1 op hop ?_⟩
  · intro call hcall
    simp only [droppedBranchCalls, List.mem_cons, List.not_mem_nil, or_false] at hcall
    rcases hcall with rfl | rfl | rfl | rfl | rfl | rfl | rfl | rfl <;>
      exact ⟨NodeView.call_seesOneView (by decide +kernel) _ _ _ _,
        plainBuilder_spendsRequested _ _ _ _⟩
  · exact OnDeadBranch.through op input tip hget hspeedup hinput (OnDeadBranch.failed input hfailed)

end BitcoinCoordinator
