import BitcoinCoordinator.BoostTraces
import BitcoinCoordinator.Broadcasts
import BitcoinCoordinator.BuildSplit
import BitcoinCoordinator.CancelRequests
import BitcoinCoordinator.CancelledTransactions
import BitcoinCoordinator.CappedTips
import BitcoinCoordinator.ChainTopUp
import BitcoinCoordinator.DeadBranches
import BitcoinCoordinator.Departures
import BitcoinCoordinator.DueBuilds
import BitcoinCoordinator.DueDispatches
import BitcoinCoordinator.EntrustedInputs
import BitcoinCoordinator.FailGuard
import BitcoinCoordinator.FailureCascade
import BitcoinCoordinator.FeeMonotonicity
import BitcoinCoordinator.InterruptedBuilds
import BitcoinCoordinator.InterruptedRegistrations
import BitcoinCoordinator.KeyValueRefinement
import BitcoinCoordinator.LifecycleMetadata
import BitcoinCoordinator.MonitorNews
import BitcoinCoordinator.RbfIncrement
import BitcoinCoordinator.ReplacedChains
import BitcoinCoordinator.Representation
import BitcoinCoordinator.Reregistrations
import BitcoinCoordinator.RetryBudget
import BitcoinCoordinator.RetryPace
import BitcoinCoordinator.StopReasons
import BitcoinCoordinator.TerminalStates
import BitcoinCoordinator.TickBroadcasts
import BitcoinCoordinator.TrackedDocket
import BitcoinCoordinator.UnconfirmedLimit
import BitcoinCoordinator.WeightBatching
