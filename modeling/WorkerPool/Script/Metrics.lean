import WorkerPool.Metrics

/-!
# Scripts on metrics

A script records what happens to tasks and takes snapshots, without any pool. The metrics may be
off, and then every snapshot is empty.

* `MetricsScript.run` -- the snapshots of a script.
-/

namespace WorkerPool

namespace MetricsScript

/-- A step of a script on metrics. -/
inductive Step where
  | submitted (times : Nat)
  | rejected (times : Nat)
  | panicked (times : Nat)
  /-- So many tasks abandoned at once. -/
  | abandoned (count : Nat)
  /-- The same execution again and again. -/
  | executed (worker waited ran times : Nat)
  /-- Executions that take `step` nanoseconds longer each time. -/
  | ramp (worker start step times : Nat)
  | snapshot

/-- The snapshot is read as if the metrics were a second and a half old. -/
def age : Nat := 1500000000

/-- Metrics that may be off. -/
def snapshotOf : Option Metrics → Snapshot
  | none => {}
  | some m => m.snapshot age

/-- The metrics after a step that takes no snapshot. -/
def record (m : Metrics) : Step → Metrics
  | .submitted times => times.repeat Metrics.recordSubmitted m
  | .rejected times => times.repeat Metrics.recordRejected m
  | .panicked times => times.repeat Metrics.recordPanicked m
  | .abandoned count => m.recordAbandoned count
  | .executed worker waited ran times => times.repeat (·.recordExecution worker waited ran) m
  | .ramp worker start step times =>
    (List.range times).foldl (fun m i => m.recordExecution worker 0 (start + i * step)) m
  | .snapshot => m

/-- The snapshots that the script takes, and one in the end. -/
def run (m : Option Metrics) : List Step → List Snapshot
  | [] => [snapshotOf m]
  | .snapshot :: rest => snapshotOf m :: run m rest
  | step :: rest => run (m.map (record · step)) rest

end MetricsScript

end WorkerPool
