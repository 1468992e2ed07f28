import WorkerPool.Panic.Handler
import WorkerPool.Pool.Happening
import WorkerPool.Pool.Stage
import WorkerPool.Queue

/-!
# A pool

A pool is a fixed number of workers over one queue of tasks. This file holds its state and what can
be read off it; `Pool/Worker.lean` and `Pool/Call.lean` say how workers and callers move it.

* `Pool` -- the state: the values that threads share, every worker at its stage, every call in
  progress at its stage, and the `trace` of all that has happened, newest first;
* `Pool.read`, `Pool.stats`, `Pool.snapshot` -- what can be asked of it;
* `Pool.ofConfig`, `Pool.reclaim` -- how it begins, and what becomes of its queue in the end.

Counters that threads share are 64-bit words and wrap.
-/

namespace WorkerPool

open Text

/-! ## 1. The pool -/

/-- Where a pool is in its life. -/
inductive Life where
  /-- Its workers are being started. -/
  | building
  /-- It takes calls. -/
  | serving
  /-- It is being given up. -/
  | ending
  /-- Nobody holds it. -/
  | released
  deriving DecidableEq, Repr

/-- A pool. -/
structure Pool where
  id : PoolId
  /-- How many workers it is made with. -/
  size : Nat
  namePrefix : String
  life : Life := .building
  queue : Queue Task := {}
  active : UInt64 := 0
  draining : Bool := false
  halt : Bool := false
  abandoned : UInt64 := 0
  handler : Handler
  /-- Absent, nothing is measured. -/
  metrics : Option Metrics
  /-- When measuring began. -/
  madeAt : Nat
  /-- How many workers have exited. -/
  exited : Nat := 0
  workers : List Worker := []
  /-- The workers whose threads can still be joined. -/
  handles : List Nat := []
  calls : List (ThreadId × CallStage) := []
  trace : List Happening := []

namespace Pool

/-- The pool with one happening more. -/
def log (p : Pool) (h : Happening) : Pool := { p with trace := h :: p.trace }

/-- The pool with one event more. -/
def emit (p : Pool) (e : Event) : Pool := p.log (.event e)

/-- The pool after this task was thrown away. -/
def throwAway (p : Pool) (task : Task) : Pool := p.log (.dropped task.id task.label)

/-- The pool with this done to its metrics, if it has any. -/
def measure (p : Pool) (f : Metrics → Metrics) : Pool := { p with metrics := p.metrics.map f }

/-- The pool with worker `i` at this stage. -/
def setStage (p : Pool) (i : Nat) (stage : WorkerStage) : Pool :=
  { p with workers := p.workers.modify i fun w => { w with stage := stage } }

/-- The pool with this thread inside a call. -/
def enter (p : Pool) (thread : ThreadId) (stage : CallStage) : Pool :=
  { p with calls := (thread, stage) :: p.calls }

/-- The pool with the thread's call at this stage. -/
def setCall (p : Pool) (thread : ThreadId) (stage : CallStage) : Pool :=
  { p with calls := p.calls.map fun c => if c.1 = thread then (thread, stage) else c }

/-- The pool without the thread's call. -/
def leave (p : Pool) (thread : ThreadId) : Pool :=
  { p with calls := p.calls.filter fun c => c.1 ≠ thread }

/-- The thread is one of the pool's own workers. -/
def owns (p : Pool) : ThreadId → Bool
  | .caller _ => false
  | .worker pool index => decide (pool = p.id ∧ index < p.workers.length)

/-- The name of a worker's thread. -/
def workerName (p : Pool) (i : Nat) : String := p.namePrefix ++ "-" ++ toString i

/-! ## 2. What can be read off a pool -/

/-- The counter in the metrics; zero if nothing is measured. -/
def metric (p : Pool) (counter : Metrics.Counter) : UInt64 :=
  (p.metrics.map (·.get counter)).getD 0

/-- A value at this moment. -/
def read (p : Pool) : Gauge → Reply
  | .threads => .number p.size
  | .active => .number p.active.toNat
  | .pending => .number p.queue.length
  | .isShutdown => .flag p.draining
  | .abandoned => .number p.abandoned.toNat
  | .panicked => .number p.handler.count.toNat
  | .workerExecuted i => .number ((p.workers[i]?.map (·.executed.toNat)).getD 0)
  | .workerPanicked i => .number ((p.workers[i]?.map (·.panicked.toNat)).getD 0)
  | .metric counter => .number (p.metric counter).toNat

/-- A view of a pool. -/
structure Stats where
  threads : Nat
  pending : Nat
  active : Nat
  abandoned : Nat
  panicked : Nat
  isShutdown : Bool
  deriving DecidableEq, Repr

/-- The pool at this moment. -/
def stats (p : Pool) : Stats where
  threads := p.size
  pending := p.queue.length
  active := p.active.toNat
  abandoned := p.abandoned.toNat
  panicked := p.handler.count.toNat
  isShutdown := p.draining

/-- What the metrics say at this time. -/
def snapshot (p : Pool) (now : Nat) : Snapshot :=
  match p.metrics with
  | none => {}
  | some m => m.snapshot (now - p.madeAt)

/-- What the pool shows of itself. -/
def description (p : Pool) : Description :=
  .ofFields "ThreadPool"
    [("num_threads", .number p.size), ("pending_tasks", .number p.queue.length),
     ("active_workers", .number p.active.toNat), ("is_shutdown", .flag p.draining)]

/-- What a view shows of itself. -/
def Stats.description (s : Stats) : Description :=
  .ofFields "PoolStats"
    [("num_threads", .number s.threads), ("pending_tasks", .number s.pending),
     ("active_workers", .number s.active), ("abandoned_tasks", .number s.abandoned),
     ("panicked_tasks", .number s.panicked), ("is_shutdown", .flag s.isShutdown)]

/-! ## 3. Beginning and end -/

/-- A pool made at this time, of which no worker is there yet. -/
def ofConfig (id : PoolId) (config : Config) (cpus : UInt64) (telemetry : Bool) (now : Nat) :
    Pool :=
  let asked := (config.workerThreads cpus).toNat
  let size := max 1 asked
  let fresh : Pool :=
    { id := id, size := size, namePrefix := config.namePrefix, handler := .new config.strategy,
      metrics := if telemetry then some (.withShards size) else none, madeAt := now }
  (if asked = 0 then fresh.emit .noThreadsAsked else fresh).emit
    (.initializing size config.namePrefix)

/-- The pool after the last thread that knew its queue is gone: what is still queued goes too. -/
def reclaim (p : Pool) : Option Pool :=
  if p.life = .released ∧ p.workers.all (·.stage.isFinished) ∧ p.queue.items ≠ [] then
    some (p.queue.items.foldl throwAway { p with queue := p.queue.drain.1 })
  else none

end Pool

end WorkerPool
