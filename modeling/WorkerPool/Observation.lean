import WorkerPool.Program

/-!
# Observing a pool from outside

Whoever asks a pool for its figures reads them one after the other; other threads may move between
two reads. The figures of one observation therefore need not belong to one moment.

* `Program.readAll` -- reads gauges in order and hands on what it has read;
* `Gauge.stats`, `Gauge.ofWorkers`, `Gauge.counters` -- the orders in which figures are read.
-/

namespace WorkerPool

/-- What was read, gauge by gauge. -/
abbrev Observation := List (Gauge × Reply)

namespace Observation

/-- The number read for a gauge; zero if none was. -/
def number (o : Observation) (g : Gauge) : Nat :=
  match o.lookup g with
  | some (.number n) => n
  | _ => 0

/-- The flag read for a gauge. -/
def flag (o : Observation) (g : Gauge) : Bool :=
  match o.lookup g with
  | some (.flag b) => b
  | _ => false

end Observation

namespace Gauge

/-- The figures of a pool, in the order in which they are read. -/
def stats : List Gauge := [.threads, .pending, .active, .abandoned, .panicked, .isShutdown]

/-- The figures of one worker. -/
def ofWorker (i : Nat) : List Gauge := [.workerExecuted i, .workerPanicked i]

/-- The figures of so many workers. -/
def ofWorkers (n : Nat) : List Gauge := (List.range n).flatMap ofWorker

/-- The counters of the metrics. -/
def counters : List Gauge :=
  [.metric .executed, .metric .waited, .metric .submitted, .metric .rejected, .metric .panicked,
    .metric .abandoned, .metric .busy]

end Gauge

/-- Reads these gauges of a pool and goes on with what was read. -/
def Program.readAll (id : PoolId) : List Gauge → (Observation → Program) → Program
  | [], next => next []
  | g :: rest, next =>
    .call (.read id g) fun r => readAll id rest fun o => next ((g, r) :: o)

end WorkerPool
