import BitcoinCoordinator.Types
import Mathlib.Tactic.NormNum

/-!
# Settings and their validation

The defaults and limits of `settings.rs` and the check of `configs.rs` that every accepted
configuration has passed.
-/

namespace BitcoinCoordinator

/-- Context string of CPFP transactions. -/
def cpfpTransactionContext : String := "CPFP_TRANSACTION"

/-- Context string of RBF transactions. -/
def rbfTransactionContext : String := "RBF_TRANSACTION"

def defaultMaxUnconfirmedSpeedups : ℕ := 10
def maxLimitUnconfirmedParents : ℕ := 25
def defaultMaxTxWeight : ℕ := 400000
def maxLimitTxWeight : ℕ := 400000
def defaultMinFundingAmountSats : ℕ := 10000
def minLimitFundingAmountSats : ℕ := 10000
def defaultMinBlocksBeforeResendSpeedup : ℕ := 1
def maxMinBlocksBeforeResendSpeedup : ℕ := 3
def defaultMaxFeerateSatVb : ℕ := 1000
def maxLimitFeerateSatVb : ℕ := 1000
def defaultBaseFeeMultiplier : ℚ := 1
def maxBaseFeeMultiplier : ℚ := 100
def defaultBumpFeePercentage : ℚ := 3 / 2
def maxBumpFeePercentage : ℚ := 100
def defaultRetryIntervalSeconds : ℕ := 5
def maxRetryIntervalSeconds : ℕ := 300
def defaultRetryAttemptsSendingTx : ℕ := 3
def defaultMinSafeFeeRate : ℕ := 1
def defaultMaxTrackingConfirmations : ℕ := 10

/-- Retry pacing of both engines. -/
structure CoordinatorSettings where
  retryIntervalSeconds : ℕ := defaultRetryIntervalSeconds
  retryAttemptsSendingTx : ℕ := defaultRetryAttemptsSendingTx

/-- Pre-send limits. -/
structure DispatcherSettings where
  maxTxWeight : ℕ := defaultMaxTxWeight

/-- Fee-rate bounds and the first bump multiplier. -/
structure FeeSettings where
  maxFeerateSatVb : ℕ := defaultMaxFeerateSatVb
  baseFeeMultiplier : ℚ := defaultBaseFeeMultiplier
  minSafeFeeRate : ℕ := defaultMinSafeFeeRate

/-- When and how often speedups are built. -/
structure SpeedupSettings where
  maxUnconfirmedSpeedups : ℕ := defaultMaxUnconfirmedSpeedups
  minBlocksBeforeResendSpeedup : ℕ := defaultMinBlocksBeforeResendSpeedup
  bumpFeePercentage : ℚ := defaultBumpFeePercentage

/-- The least funding UTXO accepted. -/
structure FundingSettings where
  minFundingAmountSats : ℕ := defaultMinFundingAmountSats

/-- How long settled records are kept. -/
structure CoordinatorStorageSettings where
  maxTrackingConfirmations : ℕ := defaultMaxTrackingConfirmations

/-- The monitor's depth of finality; the monitor supplies its own default. -/
structure MonitorSettings where
  maxMonitoringConfirmations : ℕ

/-- All settings of a coordinator. -/
structure BitcoinSettings where
  coordinator : CoordinatorSettings := {}
  dispatcher : DispatcherSettings := {}
  fee : FeeSettings := {}
  speedup : SpeedupSettings := {}
  funding : FundingSettings := {}
  storage : CoordinatorStorageSettings := {}
  monitor : MonitorSettings

/-- Refuse a configuration with the given message unless the condition holds. -/
def ensure (cond : Prop) [Decidable cond] (msg : String) : Except BitcoinCoordinatorError Unit :=
  if cond then .ok () else .error (.invalidConfiguration msg)

/-- The bounds every accepted configuration satisfies. -/
def BitcoinSettings.validate (s : BitcoinSettings) : Except BitcoinCoordinatorError Unit := do
  ensure (0 < s.speedup.maxUnconfirmedSpeedups ∧
    s.speedup.maxUnconfirmedSpeedups ≤ maxLimitUnconfirmedParents)
    "invalid max_unconfirmed_speedups"
  ensure (0 < s.dispatcher.maxTxWeight ∧ s.dispatcher.maxTxWeight ≤ maxLimitTxWeight)
    "invalid max_tx_weight"
  ensure (minLimitFundingAmountSats ≤ s.funding.minFundingAmountSats)
    "funding below dust threshold"
  ensure (0 < s.speedup.minBlocksBeforeResendSpeedup ∧
    s.speedup.minBlocksBeforeResendSpeedup ≤ maxMinBlocksBeforeResendSpeedup)
    "invalid min_blocks_before_resend_speedup"
  ensure (0 < s.fee.maxFeerateSatVb ∧ s.fee.maxFeerateSatVb ≤ maxLimitFeerateSatVb)
    "invalid max_feerate_sat_vb"
  ensure (0 < s.fee.baseFeeMultiplier ∧ s.fee.baseFeeMultiplier ≤ maxBaseFeeMultiplier)
    "invalid base_fee_multiplier"
  ensure (1 ≤ s.speedup.bumpFeePercentage ∧ s.speedup.bumpFeePercentage ≤ maxBumpFeePercentage)
    "invalid bump_fee_percentage"
  ensure (0 < s.coordinator.retryIntervalSeconds ∧
    s.coordinator.retryIntervalSeconds ≤ maxRetryIntervalSeconds)
    "invalid retry_interval_seconds"
  ensure (1 ≤ s.fee.minSafeFeeRate) "min_safe_fee_rate must be at least 1 sat/vB"
  ensure (s.fee.minSafeFeeRate ≤ s.fee.maxFeerateSatVb)
    "min_safe_fee_rate cannot exceed max_feerate_sat_vb"

/-- A passed check means its condition holds. -/
theorem ensure_ok {cond : Prop} [Decidable cond] {msg : String} {u : Unit} :
    ensure cond msg = .ok u ↔ cond := by
  unfold ensure
  split <;> simp [*]

/-- The bounds of an accepted configuration that the fee arithmetic relies on. -/
theorem BitcoinSettings.validate_fee_bounds {s : BitcoinSettings} (h : s.validate = .ok ()) :
    0 < s.fee.maxFeerateSatVb ∧ 0 < s.fee.baseFeeMultiplier ∧
      1 ≤ s.speedup.bumpFeePercentage ∧ 1 ≤ s.fee.minSafeFeeRate ∧
      s.fee.minSafeFeeRate ≤ s.fee.maxFeerateSatVb := by
  simp only [validate, bind, Except.bind] at h
  repeat' split at h
  all_goals first | contradiction | skip
  simp_all [ensure_ok]

/-- The defaults are an accepted configuration. -/
theorem BitcoinSettings.validate_default (monitor : MonitorSettings) :
    BitcoinSettings.validate { monitor := monitor } = .ok () := by
  simp [validate, ensure, maxLimitUnconfirmedParents, defaultMaxUnconfirmedSpeedups,
    defaultMaxTxWeight, maxLimitTxWeight, minLimitFundingAmountSats, defaultMinFundingAmountSats,
    defaultMinBlocksBeforeResendSpeedup, maxMinBlocksBeforeResendSpeedup, defaultMaxFeerateSatVb,
    maxLimitFeerateSatVb, defaultBaseFeeMultiplier, maxBaseFeeMultiplier, defaultBumpFeePercentage,
    maxBumpFeePercentage, defaultRetryIntervalSeconds, maxRetryIntervalSeconds,
    defaultMinSafeFeeRate, bind, Except.bind]
  norm_num

end BitcoinCoordinator
