import Relay.Rehearsal
import Relay.Rehearsal.Workers
import Relay.Registry
import Relay.Metrics.Exposition
import Relay.Metrics.Requests
import Relay.Report.Settings
import Relay.Report.Topics
import Relay.Service
import Relay.Topics.Fleet
import Relay.Proofs.SettledRun
import Relay.Proofs.Complement
import Relay.Proofs.News
import Relay.Proofs.WorkRules
import Relay.Proofs.Acknowledging
import Relay.Proofs.Commits
import Relay.Proofs.Accounts
import Relay.Proofs.StrictRun
import Relay.Proofs.Marks
import Relay.Proofs.Script
import Relay.Proofs.Foretelling
import Relay.Proofs.OrderFree
import Relay.Proofs.History
import Relay.Proofs.Failing
import Relay.Proofs.Chronicle
import Relay.Proofs.Releasing
import Relay.Proofs.Attempts
import Relay.Proofs.Reckoning
import Relay.Proofs.Shards
import Relay.Proofs.Moves
import Relay.Proofs.SourceOrder
import Relay.Proofs.Producers
import Relay.Proofs.Permits
import Relay.Proofs.PoolSteps
import Relay.Proofs.PoolRuns
import Relay.Proofs.PoolResults
import Relay.Proofs.PoolPromises
import Relay.Proofs.Masks
import Relay.Proofs.Headers
import Relay.Proofs.Convergence
import Relay.Proofs.Homes
import Relay.Proofs.Wiring
import Relay.Proofs.Lockstep
import Relay.Proofs.Unpublished
import Relay.Proofs.Flushing
import Relay.Proofs.ValidSettings
import Relay.Proofs.Idempotence
import Relay.Proofs.SharedTopics
import Relay.Proofs.Findings
import Relay.Proofs.Reports
import Relay.Proofs.AlterPaths
import Relay.Proofs.PoolCalls
import Relay.Proofs.PoolCache
import Relay.Proofs.Fates
import Relay.Proofs.Redelivery
import Relay.Proofs.EvenShards
import Relay.Proofs.RetryChains
import Relay.Proofs.FaultyPipelines
import Relay.Proofs.SubscriberCodec
import Relay.Proofs.RetryWindow
import Relay.Proofs.ExactWaits
import Relay.Proofs.Refreshing
import Relay.Proofs.MaskSets
import Relay.Proofs.ReportSets
import Relay.Proofs.TrackerHistory
import Relay.Proofs.StablePartition
import Relay.Proofs.Counters
import Relay.Proofs.PointerAgreement
import Relay.Proofs.PartitionLists
