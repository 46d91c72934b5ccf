import BitcoinCoordinator.Storage
import Mathlib.Data.Rat.Floor

/-!
# The fee manager

The functions of `fee.rs`. Multipliers are exact rationals and sums are unbounded: an accepted
configuration keeps rates at most 1000 sat/vB, far from the width of the source's integers.
-/

namespace BitcoinCoordinator

open Foundation

/-- Bitcoin's default minimum relay fee rate in sat/vB. -/
def minRelayFeeRate : ℕ := 1

/-- Fees of a standalone transaction at a rate. -/
def computeFeeForTx (tx : Transaction) (feeRate : ℕ) : FeeInfo where
  fee := tx.vsize * feeRate
  feeRate := feeRate
  packageFeeRate := feeRate
  weight := tx.weight

/-- Fees of a built speedup whose parents are credited at the relay floor. A division by zero
yields zero, as in the source. -/
def feeInfoForPaidSpeedup (tx : Transaction) (feePaid parentVbytes : ℕ) : FeeInfo where
  fee := feePaid
  feeRate := feePaid / tx.vsize
  packageFeeRate := (parentVbytes * minRelayFeeRate + feePaid) / (parentVbytes + tx.vsize)
  weight := tx.weight

/-- The network estimate raised to the safety floor and clamped to the maximum, with the news
published when the clamp applied. An unavailable estimate counts as the floor. -/
def FeeSettings.clampRate (cfg : FeeSettings) (estimate : Except String ℕ) :
    ℕ × Option CoordinatorNews :=
  let rate := match estimate with
    | .ok rate => if cfg.minSafeFeeRate ≤ rate then rate else cfg.minSafeFeeRate
    | .error _ => cfg.minSafeFeeRate
  if cfg.maxFeerateSatVb < rate then
    (cfg.maxFeerateSatVb, some (.estimateFeerateTooHigh rate cfg.maxFeerateSatVb))
  else
    (rate, none)

/-- The current network rate within the configured bounds. -/
def getNetworkFeeRate : Coord (ℕ × Option CoordinatorNews) := do
  let cfg ← settings
  let estimate ← attempt fun answers n => answers.estimatedFeeRate n
  pure (cfg.fee.clampRate estimate)

/-- The rate of a boost: at least one above its predecessor's. -/
def boostFeeRate (networkRate predecessorRate : ℕ) : ℕ := max networkRate (predecessorRate + 1)

/-- Extra fee that lifts every unconfirmed speedup to the new rate, and their total size. The last
speedup's rate stands for all of them. -/
def chainFeeDiff (newFeeRate : ℕ) (unconfirmedSpeedups : List CoordinatedTx) : ℕ × ℕ :=
  match unconfirmedSpeedups.getLast? with
  | none => (0, 0)
  | some last =>
    ((unconfirmedSpeedups.map fun tx =>
        tx.tx.vsize * (newFeeRate - last.feeInfo.packageFeeRate)).sum,
      (unconfirmedSpeedups.map fun tx => tx.tx.vsize).sum)

/-- The fee before the bump multiplier and the cap: the package at the rate less the parents'
relay credit, at least twice the child's own cost for an RBF, plus the chain top-up. -/
def totalSpeedupFee (parentVbytes childVsize feeRate : ℕ) (isRbf : Bool) (chainDiffFee : ℕ) : ℕ :=
  let base := (parentVbytes + childVsize) * feeRate - parentVbytes * minRelayFeeRate
  (if isRbf ∧ base < childVsize * feeRate * 2 then childVsize * feeRate * 2 else base) +
    chainDiffFee

/-- The fee a speedup asks for before the cap, rounded up. -/
def bumpedSpeedupFee (parentVbytes childVsize : ℕ) (bumpFee : ℚ) (feeRate : ℕ) (isRbf : Bool)
    (chainDiffFee : ℕ) : ℕ :=
  ⌈(totalSpeedupFee parentVbytes childVsize feeRate isRbf chainDiffFee : ℚ) * bumpFee⌉.toNat

/-- The largest fee that keeps the package at the maximum rate. -/
def speedupFeeCap (maxFeerate parentVbytes childVsize : ℕ) : ℕ :=
  maxFeerate * (parentVbytes + childVsize) - parentVbytes * minRelayFeeRate

/-- The fee of a speedup and whether the cap lowered it. -/
def FeeSettings.computeSpeedupFee (cfg : FeeSettings) (parentVsizes : List ℕ) (childVsize : ℕ)
    (bumpFee : ℚ) (feeRate : ℕ) (isRbf : Bool) (chainDiffFee : ℕ) : ℕ × Bool :=
  let finalFee :=
    bumpedSpeedupFee parentVsizes.sum childVsize bumpFee feeRate isRbf chainDiffFee
  let cap := speedupFeeCap cfg.maxFeerateSatVb parentVsizes.sum childVsize
  if cap < finalFee then (cap, true) else (finalFee, false)

/-- The fee of a pricing and whether the cap lowered it. -/
def FeeSettings.price (cfg : FeeSettings) (pricing : Pricing) : ℕ × Bool :=
  cfg.computeSpeedupFee pricing.parentVsizes pricing.childVsize pricing.bumpFee pricing.feeRate
    pricing.isRbf pricing.chainDiffFee

end BitcoinCoordinator
