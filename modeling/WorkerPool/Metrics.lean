import WorkerPool.Latency.Histogram

/-!
# Metrics of a pool

Counters and latencies of the tasks of a pool. Counters are 64-bit words and wrap. Latencies go to
one histogram a worker, its shard, and the shards are merged when the metrics are read. The
histograms are those of a library.

* `Metrics.recordSubmitted` and its kin -- one event each;
* `Metrics.recordPart` -- one of the four separate writes that an executed task leaves, and
  `Metrics.recordExecution`, all four in order;
* `Metrics.snapshot` -- what the metrics say, and `Snapshot.panicRate`, `Snapshot.tasksPerSecond`.
-/

namespace WorkerPool

open HistogramLibrary

/-! ## 1. Counters and shards -/

/-- The metrics of a pool, with histograms of type `H`. -/
structure Metrics (H : Type := Histogram) where
  submitted : UInt64 := 0
  rejected : UInt64 := 0
  executed : UInt64 := 0
  panicked : UInt64 := 0
  abandoned : UInt64 := 0
  /-- Nanoseconds spent in tasks. -/
  busy : UInt64 := 0
  /-- Nanoseconds that executed tasks waited for their start. -/
  waited : UInt64 := 0
  firstShard : H
  otherShards : List H
  deriving DecidableEq, Repr

/-- The writes that an executed task leaves in the metrics, one after the other. -/
inductive Metrics.Part where
  | executed
  | busy
  | waited
  | latency
  deriving DecidableEq, Repr

/-- The write that follows this one. -/
def Metrics.Part.next? : Metrics.Part → Option Metrics.Part
  | .executed => some .busy
  | .busy => some .waited
  | .waited => some .latency
  | .latency => none

/-- A counter of the metrics. -/
inductive Metrics.Counter where
  | submitted
  | rejected
  | executed
  | panicked
  | abandoned
  | busy
  | waited
  deriving DecidableEq, Repr

namespace Metrics

variable {H : Type}

/-- The value of a counter. -/
def get (m : Metrics H) : Counter → UInt64
  | .submitted => m.submitted
  | .rejected => m.rejected
  | .executed => m.executed
  | .panicked => m.panicked
  | .abandoned => m.abandoned
  | .busy => m.busy
  | .waited => m.waited

/-- Metrics with so many shards, at least one. -/
def withShards [HistogramLibrary H] (shards : Nat) : Metrics H :=
  { firstShard := empty, otherShards := List.replicate (shards - 1) empty }

/-- The number of shards. -/
def shardCount (m : Metrics H) : Nat := m.otherShards.length + 1

/-- No latency counts as longer than an hour. -/
def maxTracked : Nat := 3600000000000

/-- Nanoseconds as a word: what does not fit is the largest word. -/
def saturated (nanos : Nat) : UInt64 := UInt64.ofNat (min nanos (UInt64.size - 1))

/-- The sample in the shard of this number, which is below the number of shards. -/
def recordIn [HistogramLibrary H] (m : Metrics H) (shard sample : Nat) : Metrics H :=
  match shard with
  | 0 => { m with firstShard := record m.firstShard sample }
  | i + 1 => { m with otherShards := m.otherShards.modify i (record · sample) }

/-- One more task submitted. -/
def recordSubmitted (m : Metrics H) : Metrics H := { m with submitted := m.submitted + 1 }

/-- One more task rejected. -/
def recordRejected (m : Metrics H) : Metrics H := { m with rejected := m.rejected + 1 }

/-- One more task that panicked. -/
def recordPanicked (m : Metrics H) : Metrics H := { m with panicked := m.panicked + 1 }

/-- So many more tasks abandoned. -/
def recordAbandoned (m : Metrics H) (count : Nat) : Metrics H :=
  { m with abandoned := m.abandoned + UInt64.ofNat count }

/-- One of the writes for a task that `worker` ran for `ran` nanoseconds after it had waited for
    `waited`. A worker beyond the shards writes to one of them. -/
def recordPart [HistogramLibrary H] (m : Metrics H) (worker waited ran : Nat) : Part → Metrics H
  | .executed => { m with executed := m.executed + 1 }
  | .busy => { m with busy := m.busy + saturated ran }
  | .waited => { m with waited := m.waited + saturated waited }
  | .latency => m.recordIn (worker % m.shardCount) (min (saturated ran).toNat maxTracked)

/-- Everything that an executed task leaves. -/
def recordExecution [HistogramLibrary H] (m : Metrics H) (worker waited ran : Nat) : Metrics H :=
  [Part.executed, .busy, .waited, .latency].foldl (·.recordPart worker waited ran ·) m

/-- The samples of all shards. -/
def latency [HistogramLibrary H] (m : Metrics H) : H := mergeAll m.firstShard m.otherShards

section Get

variable (m : Metrics H) (counter : Counter)

theorem get_recordSubmitted : m.recordSubmitted.get counter =
    m.get counter + if counter = .submitted then 1 else 0 := by
  cases counter <;> simp [get, recordSubmitted]

theorem get_recordRejected : m.recordRejected.get counter =
    m.get counter + if counter = .rejected then 1 else 0 := by
  cases counter <;> simp [get, recordRejected]

theorem get_recordPanicked : m.recordPanicked.get counter =
    m.get counter + if counter = .panicked then 1 else 0 := by
  cases counter <;> simp [get, recordPanicked]

theorem get_recordAbandoned (count : Nat) : (m.recordAbandoned count).get counter =
    m.get counter + if counter = .abandoned then UInt64.ofNat count else 0 := by
  cases counter <;> simp [get, recordAbandoned]

/-- A latency goes to no counter. -/
theorem get_recordIn [HistogramLibrary H] (shard sample : Nat) :
    (m.recordIn shard sample).get counter = m.get counter := by
  cases shard <;> cases counter <;> rfl

theorem get_recordPart [HistogramLibrary H] (worker waited ran : Nat) (part : Part) :
    (m.recordPart worker waited ran part).get counter = m.get counter +
      match part, counter with
      | .executed, .executed => 1
      | .busy, .busy => saturated ran
      | .waited, .waited => saturated waited
      | _, _ => 0 := by
  cases part with
  | latency => simp [recordPart, get_recordIn]
  | _ => cases counter <;> simp [get, recordPart]

end Get

end Metrics

/-! ## 2. What the metrics say -/

/-- The metrics as they are read at one time. -/
structure Snapshot where
  /-- Nanoseconds since the metrics were made. -/
  uptime : Nat := 0
  submitted : UInt64 := 0
  rejected : UInt64 := 0
  executed : UInt64 := 0
  panicked : UInt64 := 0
  abandoned : UInt64 := 0
  busy : UInt64 := 0
  averageWait : UInt64 := 0
  averageLatency : UInt64 := 0
  p50 : Nat := 0
  p95 : Nat := 0
  p99 : Nat := 0
  maxLatency : Nat := 0
  deriving DecidableEq, Repr

namespace Snapshot

/-- The snapshot with the figures of a histogram. -/
def withLatency {H : Type} [HistogramLibrary H] (s : Snapshot) (h : H) : Snapshot :=
  { s with
    averageLatency := if total h = 0 then 0 else (mean h).toUInt64
    p50 := quantile h .p50
    p95 := quantile h .p95
    p99 := quantile h .p99
    maxLatency := maxFigure h }

/-- Nanoseconds as seconds, in floating-point arithmetic. -/
def seconds (nanos : Nat) : Float :=
  Float.ofNat (nanos / 1000000000) + Float.ofNat (nanos % 1000000000) / 1000000000.0

/-- The share of the executed tasks that panicked. -/
def panicRate (s : Snapshot) : Float :=
  if s.executed = 0 then 0 else s.panicked.toFloat / s.executed.toFloat

/-- Executed tasks a second. -/
def tasksPerSecond (s : Snapshot) : Float :=
  if s.uptime = 0 then 0 else s.executed.toFloat / seconds s.uptime

end Snapshot

/-- A total divided among so many, zero among none. -/
def average (total count : UInt64) : UInt64 := if count = 0 then 0 else total / count

/-- What the metrics say after so many nanoseconds. -/
def Metrics.snapshot {H : Type} [HistogramLibrary H] (m : Metrics H) (uptime : Nat) : Snapshot :=
  { uptime := uptime, submitted := m.submitted, rejected := m.rejected, executed := m.executed,
    panicked := m.panicked, abandoned := m.abandoned, busy := m.busy,
    averageWait := average m.waited m.executed : Snapshot }.withLatency m.latency

end WorkerPool
