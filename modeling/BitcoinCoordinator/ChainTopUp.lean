import BitcoinCoordinator.FeeMonotonicity
import Mathlib.Algebra.Order.BigOperators.Group.List

/-!
# The chain top-up

The top-up charges every unconfirmed speedup at the last one's recorded rate. What that overcharges
for the members recorded above the last one offsets what it misses on the members below it.
-/

namespace BitcoinCoordinator

/-- What it takes to bring every speedup of a chain up to a rate. -/
def liftCost (newFeeRate : ℕ) (unconfirmedSpeedups : List CoordinatedTx) : ℕ :=
  (unconfirmedSpeedups.map fun tx =>
    tx.tx.vsize * (newFeeRate - tx.feeInfo.packageFeeRate)).sum

/-- What is left out for the members recorded below a rate, when they are charged from that rate. -/
def topUpDeficit (newFeeRate lastRate : ℕ) (unconfirmedSpeedups : List CoordinatedTx) : ℕ :=
  (unconfirmedSpeedups.map fun tx =>
    tx.tx.vsize * (min newFeeRate lastRate - tx.feeInfo.packageFeeRate)).sum

/-- What is charged in excess for the members recorded above a rate. -/
def topUpSurplus (newFeeRate lastRate : ℕ) (unconfirmedSpeedups : List CoordinatedTx) : ℕ :=
  (unconfirmedSpeedups.map fun tx =>
    tx.tx.vsize * (min newFeeRate tx.feeInfo.packageFeeRate - lastRate)).sum

/-- The unconfirmed speedups a boost or a batch tops up. -/
def Store.unconfirmedSpeedups (s : Store) : List CoordinatedTx :=
  s.speedupsOrdered.filter (isLiveInMempool s.speedupsOrdered)

/-- Charging a chain from one rate costs its lift, less the deficit and with the surplus. -/
theorem liftCost_add_topUpSurplus (newFeeRate lastRate : ℕ)
    (unconfirmedSpeedups : List CoordinatedTx) :
    liftCost newFeeRate unconfirmedSpeedups +
        topUpSurplus newFeeRate lastRate unconfirmedSpeedups =
      (unconfirmedSpeedups.map fun tx => tx.tx.vsize * (newFeeRate - lastRate)).sum +
        topUpDeficit newFeeRate lastRate unconfirmedSpeedups := by
  unfold liftCost topUpSurplus topUpDeficit
  induction unconfirmedSpeedups with
  | nil => rfl
  | cons tx rest ih =>
    simp only [List.map_cons, List.sum_cons]
    have hmember : tx.tx.vsize * (newFeeRate - tx.feeInfo.packageFeeRate) +
          tx.tx.vsize * (min newFeeRate tx.feeInfo.packageFeeRate - lastRate) =
        tx.tx.vsize * (newFeeRate - lastRate) +
          tx.tx.vsize * (min newFeeRate lastRate - tx.feeInfo.packageFeeRate) := by
      rw [← Nat.mul_add, ← Nat.mul_add]
      congr 1
      omega
    omega

/-- The top-up of a chain charges it from the last member's rate. -/
theorem chainFeeDiff_fst {unconfirmedSpeedups : List CoordinatedTx} {last : CoordinatedTx}
    (newFeeRate : ℕ) (hlast : unconfirmedSpeedups.getLast? = some last) :
    (chainFeeDiff newFeeRate unconfirmedSpeedups).1 =
      (unconfirmedSpeedups.map fun tx =>
        tx.tx.vsize * (newFeeRate - last.feeInfo.packageFeeRate)).sum := by
  unfold chainFeeDiff
  rw [hlast]

/-- The top-up covers the lift to a rate exactly when the surplus offsets the deficit. -/
theorem liftCost_le_chainFeeDiff_iff {unconfirmedSpeedups : List CoordinatedTx}
    {last : CoordinatedTx} (newFeeRate : ℕ) (hlast : unconfirmedSpeedups.getLast? = some last) :
    liftCost newFeeRate unconfirmedSpeedups ≤ (chainFeeDiff newFeeRate unconfirmedSpeedups).1 ↔
      topUpDeficit newFeeRate last.feeInfo.packageFeeRate unconfirmedSpeedups ≤
        topUpSurplus newFeeRate last.feeInfo.packageFeeRate unconfirmedSpeedups := by
  have hsum := liftCost_add_topUpSurplus newFeeRate last.feeInfo.packageFeeRate unconfirmedSpeedups
  rw [chainFeeDiff_fst newFeeRate hlast]
  omega

/-- No rate leaves a deficit when every member is recorded at least at the last rate. -/
theorem topUpDeficit_eq_zero {unconfirmedSpeedups : List CoordinatedTx} {lastRate : ℕ}
    (newFeeRate : ℕ)
    (h : ∀ tx ∈ unconfirmedSpeedups, 0 < tx.tx.vsize → lastRate ≤ tx.feeInfo.packageFeeRate) :
    topUpDeficit newFeeRate lastRate unconfirmedSpeedups = 0 := by
  unfold topUpDeficit
  induction unconfirmedSpeedups with
  | nil => rfl
  | cons tx rest ih =>
    rw [List.forall_mem_cons] at h
    simp only [List.map_cons, List.sum_cons, ih h.2, Nat.add_zero]
    rcases Nat.eq_zero_or_pos tx.tx.vsize with hzero | hpos
    · rw [hzero, Nat.zero_mul]
    · have hrate := h.1 hpos
      have hdiff : min newFeeRate lastRate - tx.feeInfo.packageFeeRate = 0 := by omega
      rw [hdiff, Nat.mul_zero]

/-- At the last rate nothing is charged in excess. -/
theorem topUpSurplus_eq_zero (rate : ℕ) (unconfirmedSpeedups : List CoordinatedTx) :
    topUpSurplus rate rate unconfirmedSpeedups = 0 := by
  unfold topUpSurplus
  induction unconfirmedSpeedups with
  | nil => rfl
  | cons tx rest ih =>
    simp only [List.map_cons, List.sum_cons, ih, Nat.add_zero]
    have hdiff : min rate tx.feeInfo.packageFeeRate - rate = 0 := by omega
    rw [hdiff, Nat.mul_zero]

/-- A chain is topped up to every rate exactly when no member of positive size is recorded below the
last one; at one rate, exactly when what the members above the last one are overcharged offsets what
is left out for those below. -/
theorem chainFeeDiff_covers_iff (unconfirmedSpeedups : List CoordinatedTx) :
    ((∀ newFeeRate, liftCost newFeeRate unconfirmedSpeedups ≤
        (chainFeeDiff newFeeRate unconfirmedSpeedups).1) ↔
      ∀ last ∈ unconfirmedSpeedups.getLast?, ∀ tx ∈ unconfirmedSpeedups, 0 < tx.tx.vsize →
        last.feeInfo.packageFeeRate ≤ tx.feeInfo.packageFeeRate) ∧
    ∀ newFeeRate, liftCost newFeeRate unconfirmedSpeedups ≤
        (chainFeeDiff newFeeRate unconfirmedSpeedups).1 ↔
      ∀ last ∈ unconfirmedSpeedups.getLast?,
        topUpDeficit newFeeRate last.feeInfo.packageFeeRate unconfirmedSpeedups ≤
          topUpSurplus newFeeRate last.feeInfo.packageFeeRate unconfirmedSpeedups := by
  cases hlast : unconfirmedSpeedups.getLast? with
  | none =>
    rw [List.getLast?_eq_none_iff] at hlast
    subst hlast
    simp [liftCost]
  | some last =>
    simp only [Option.mem_some_iff, forall_eq', liftCost_le_chainFeeDiff_iff _ hlast,
      implies_true, and_true]
    constructor
    · intro hcovers tx htx hpos
      by_contra hbelow
      -- at the last rate itself nothing is in excess, and this member is left short
      have hshort := hcovers last.feeInfo.packageFeeRate
      rw [topUpSurplus_eq_zero] at hshort
      have hmember : tx.tx.vsize *
          (min last.feeInfo.packageFeeRate last.feeInfo.packageFeeRate -
            tx.feeInfo.packageFeeRate) ≤
          topUpDeficit last.feeInfo.packageFeeRate last.feeInfo.packageFeeRate
            unconfirmedSpeedups :=
        List.single_le_sum (fun _ _ => Nat.zero_le _) _ (List.mem_map_of_mem htx)
      have hproduct := Nat.mul_pos hpos
        (show 0 < min last.feeInfo.packageFeeRate last.feeInfo.packageFeeRate -
          tx.feeInfo.packageFeeRate by omega)
      omega
    · intro hrates newFeeRate
      rw [topUpDeficit_eq_zero newFeeRate hrates]
      exact Nat.zero_le _

/-- The CPFP of the example run. -/
def firstOfChain : Transaction := fixedBuilder [sampleAnchor] [sampleFunding] 7 3350

/-- The boost of the example run, a child of the CPFP. -/
def secondOfChain : Transaction :=
  fixedBuilder [] [⟨firstOfChain.computeTxid, 0, 996650, 7⟩] 7 3600

/-- A CPFP is built and accepted; a block later a child of it is built and accepted. -/
def growingChainCalls : List Call :=
  let first := sampleView 100 [] [sampleParent]
  [first.call fixedBuilder 10 0 (.addFunding sampleFunding),
    first.call fixedBuilder 10 0
      (.dispatchWithSpeedup sampleParent sampleAnchor "parent" none none),
    first.call fixedBuilder 10 0 .tick,
    (sampleView 100 [sampleParent] [firstOfChain]).call fixedBuilder 10 0 .tick,
    (sampleView 101 [sampleParent, firstOfChain] []).call fixedBuilder 10 0 .tick,
    (sampleView 101 [sampleParent, firstOfChain] [secondOfChain]).call fixedBuilder 10 0 .tick]

/-- The chain of a run is not brought up to the rate of the next boost. -/
theorem exists_chain_not_topped_up :
    ∃ (cfg : BitcoinSettings) (calls : List Call), cfg.validate = .ok () ∧
      (∀ call ∈ calls, call.SeesOneView ∧ call.answers.SpendsRequested) ∧
      OkRun cfg calls World.init (runCalls cfg calls World.init) ∧
      ∃ newFeeRate,
        ¬ liftCost newFeeRate (runCalls cfg calls World.init).store.unconfirmedSpeedups ≤
          (chainFeeDiff newFeeRate
            (runCalls cfg calls World.init).store.unconfirmedSpeedups).1 := by
  refine ⟨defaultSettings, growingChainCalls, BitcoinSettings.validate_default _, ?_,
    okRun_runCalls (by decide +kernel), ⟨19, by decide +kernel⟩⟩
  intro call hcall
  simp only [growingChainCalls, List.mem_cons, List.not_mem_nil, or_false] at hcall
  rcases hcall with rfl | rfl | rfl | rfl | rfl | rfl <;>
    exact ⟨NodeView.call_seesOneView (by decide +kernel) _ _ _ _,
      plainBuilder_spendsRequested _ _ _ _⟩

end BitcoinCoordinator
