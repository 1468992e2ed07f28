import WorkerPool.Pair

/-!
# Plans of tasks

A plan is what a scripted task does, as data: notes, gates, readings, submissions and shutdowns one
after the other, and perhaps a panic. The task belongs to a pool, its home, and acts on that pool
unless the plan names another.

* `Plan.program` -- the program of a plan;
* `Plan.gates`, `Plan.weight` -- the gates it can wait at, and how much it can do at most.
-/

namespace WorkerPool

/-- What a plan can read off a pool. -/
inductive Plan.Reading where
  | active
  | pending
  | isShutdown
  | panicked
  deriving DecidableEq, Repr

/-- The gauge behind a reading. -/
def Plan.Reading.gauge : Plan.Reading → Gauge
  | .active => .active
  | .pending => .pending
  | .isShutdown => .isShutdown
  | .panicked => .panicked

/-- What a reading is called in notes. -/
def Plan.Reading.name : Plan.Reading → String
  | .active => "active"
  | .pending => "pending"
  | .isShutdown => "is_shutdown"
  | .panicked => "panicked"

/-- What a mode of shutdown is called in notes. -/
def Mode.name : Mode → String
  | .graceful => "shutdown"
  | .immediate => "shutdown_now"

/-- What a scripted task does. -/
inductive Plan where
  | finish
  | panic (payload : Payload)
  /-- Notes a value. -/
  | log (value : String) (rest : Plan)
  | gate (name : String) (rest : Plan)
  /-- Notes the name of the thread. -/
  | threadName (rest : Plan)
  | read (on : Option PoolId) (what : Plan.Reading) (rest : Plan)
  | submit (on : Option PoolId) (label : String) (task : Plan) (rest : Plan)
  | shutdown (on : Option PoolId) (mode : Mode) (rest : Plan)

namespace Plan

/-- The program of a task with this plan, called `label`, at home in this pool. -/
def program (label : String) (home : PoolId) : Plan → Program
  | .finish => .finish []
  | .panic payload => .panic payload
  | .log value rest =>
    .call (.note ⟨label, "log", some (.data value)⟩) fun _ => rest.program label home
  | .gate g rest => .call (.gate g) fun _ => rest.program label home
  | .threadName rest =>
    .call .threadName fun r =>
      .call (.note ⟨label, "name", some r⟩) fun _ => rest.program label home
  | .read on what rest =>
    .call (.read (on.getD home) what.gauge) fun r =>
      .call (.note ⟨label, what.name, some r⟩) fun _ => rest.program label home
  | .submit on other task rest =>
    .submit (on.getD home) other (task.program other (on.getD home)) fun r =>
      .call (.note ⟨label, "submit", some r⟩) fun _ => rest.program label home
  | .shutdown on mode rest =>
    .call (.shutdown (on.getD home) mode) (.uncaught fun r =>
      .call (.note ⟨label, mode.name, some r⟩) fun _ => rest.program label home)

/-- The gates at which the task, or one that it submits, can wait. -/
def gates : Plan → List String
  | .finish | .panic _ => []
  | .gate g rest => g :: rest.gates
  | .log _ rest | .threadName rest | .read _ _ rest | .shutdown _ _ rest => rest.gates
  | .submit _ _ task rest => task.gates ++ rest.gates

/-- How many actions the task and those that it submits have, each task counted as one more. -/
def weight : Plan → Nat
  | .finish | .panic _ => 1
  | .log _ rest | .gate _ rest | .threadName rest | .read _ _ rest | .shutdown _ _ rest =>
    rest.weight + 1
  | .submit _ _ task rest => task.weight + rest.weight + 1

end Plan

end WorkerPool
