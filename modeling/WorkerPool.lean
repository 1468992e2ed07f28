import WorkerPool.Config
import WorkerPool.Error
import WorkerPool.Event
import WorkerPool.Latency.Bucket
import WorkerPool.Latency.Histogram
import WorkerPool.Latency.Library
import WorkerPool.Latency.Rank
import WorkerPool.Metrics
import WorkerPool.Observation
import WorkerPool.Pair
import WorkerPool.Panic.Handler
import WorkerPool.Panic.Payload
import WorkerPool.Pool.Basic
import WorkerPool.Pool.Call
import WorkerPool.Pool.Happening
import WorkerPool.Pool.Stage
import WorkerPool.Pool.Worker
import WorkerPool.Program
import WorkerPool.Proofs.Abandonment
import WorkerPool.Proofs.Account
import WorkerPool.Proofs.Aftermath
import WorkerPool.Proofs.Appearance
import WorkerPool.Proofs.Assertion
import WorkerPool.Proofs.CallTermination
import WorkerPool.Proofs.Change
import WorkerPool.Proofs.Conservation
import WorkerPool.Proofs.Creation
import WorkerPool.Proofs.Custody
import WorkerPool.Proofs.Disposal
import WorkerPool.Proofs.Effort
import WorkerPool.Proofs.Fate
import WorkerPool.Proofs.Flags
import WorkerPool.Proofs.Following
import WorkerPool.Proofs.Formed
import WorkerPool.Proofs.Fraction
import WorkerPool.Proofs.Halting
import WorkerPool.Proofs.Headcount
import WorkerPool.Proofs.HistogramLaws
import WorkerPool.Proofs.LateCalls
import WorkerPool.Proofs.Later
import WorkerPool.Proofs.Ledger
import WorkerPool.Proofs.Obedience
import WorkerPool.Proofs.Order
import WorkerPool.Proofs.PairShutdown
import WorkerPool.Proofs.PanicRate
import WorkerPool.Proofs.Passage
import WorkerPool.Proofs.PoolSimulation
import WorkerPool.Proofs.Progress
import WorkerPool.Proofs.Quantile
import WorkerPool.Proofs.Reports
import WorkerPool.Proofs.Return
import WorkerPool.Proofs.Roster
import WorkerPool.Proofs.Rounding
import WorkerPool.Proofs.Samples
import WorkerPool.Proofs.Sequence
import WorkerPool.Proofs.Settings
import WorkerPool.Proofs.Sharding
import WorkerPool.Proofs.Shutdown
import WorkerPool.Proofs.Sighting
import WorkerPool.Proofs.Staff
import WorkerPool.Proofs.Submission
import WorkerPool.Proofs.Survival
import WorkerPool.Proofs.Telemetry
import WorkerPool.Proofs.Threads
import WorkerPool.Proofs.Unwinding
import WorkerPool.Proofs.View
import WorkerPool.Proofs.Wakeup
import WorkerPool.Proofs.WorkerHandles
import WorkerPool.Proofs.WorldSimulation
import WorkerPool.Queue
import WorkerPool.Schedule
import WorkerPool.Script.Metrics
import WorkerPool.Script.Panics
import WorkerPool.Script.Plan
import WorkerPool.Script.Pool
import WorkerPool.Script.Queue
import WorkerPool.Script.Session
import WorkerPool.Script.Stress
import WorkerPool.Script.Tasks
import WorkerPool.Script.Timing
import WorkerPool.Text.Description
import WorkerPool.Text.Printable
import WorkerPool.Text.Quoted
import WorkerPool.World
