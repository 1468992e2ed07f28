import WorkerPool.Panic.Payload

/-!
# What a pool reports while it runs

* `TaskId` -- the number of a task, written with a number sign;
* `Event` -- everything a pool or a pair of pools reports, one constructor per message;
* `Event.level`, `Event.message`, `Event.fields` -- how each is reported.
-/

namespace WorkerPool

/-! ## 1. Tasks by number -/

/-- The number of a task. Numbers are given out in order and never twice. -/
structure TaskId where
  number : Nat
  deriving DecidableEq, Repr, Inhabited

/-- The task's number as it is written in reports. -/
def TaskId.text (id : TaskId) : String := "#" ++ toString id.number

/-! ## 2. The reports -/

/-- How much a report matters. -/
inductive Level where
  | error
  | warn
  | info
  | debug
  | trace
  deriving DecidableEq, Repr

/-- The level's name. -/
def Level.name : Level → String
  | .error => "error"
  | .warn => "warn"
  | .info => "info"
  | .debug => "debug"
  | .trace => "trace"

/-- The value of a field of a report. -/
inductive FieldValue where
  | number (n : Nat)
  | text (s : String)
  deriving DecidableEq, Repr

/-- What a pool reports. -/
inductive Event where
  /-- A pool of no workers was asked for and gets one. -/
  | noThreadsAsked
  | initializing (threads : Nat) (namePrefix : String)
  | spawnFailed (worker : Nat) (cause : String)
  | poolStarted (threads : Nat)
  | submitRefused (task : TaskId)
  | alreadyShutDown
  | gracefulInitiated (pending : Nat)
  | gracefulComplete (joined pending : Nat)
  | immediateInitiated
  | immediateComplete (joined : Nat)
  /-- An immediate shutdown is over in a pool that has abandoned tasks. -/
  | immediateAbandoned (joined abandoned : Nat)
  /-- A worker that shuts its own pool down does not wait for itself. -/
  | selfDetached (worker : Nat)
  /-- A worker found dead by the thread that joined it. -/
  | workerCrashed (worker : Nat)
  | droppedUnshut
  | workerStarted (worker : Nat)
  | workerStopped (worker executed : Nat)
  | droppedAfterHalt (worker : Nat) (task : TaskId)
  | taskPanicked (strategy : Strategy) (task : TaskId) (message : String)
  | pairStarted (cpuThreads dbThreads : Nat)
  deriving DecidableEq, Repr

/-- The level at which a strategy reports panics. -/
def Strategy.level : Strategy → Level
  | .logAndContinue => .error
  | .isolate => .debug

namespace Event

/-- The level of the report. -/
def level : Event → Level
  | .noThreadsAsked | .submitRefused _ | .alreadyShutDown | .immediateAbandoned _ _
  | .selfDetached _ => .warn
  | .spawnFailed _ _ | .workerCrashed _ => .error
  | .initializing _ _ | .poolStarted _ | .gracefulInitiated _ | .gracefulComplete _ _
  | .immediateInitiated | .immediateComplete _ | .droppedUnshut | .pairStarted _ _ => .info
  | .workerStarted _ | .workerStopped _ _ => .debug
  | .droppedAfterHalt _ _ => .trace
  | .taskPanicked strategy _ _ => strategy.level

/-- The sentence of the report. -/
def message : Event → String
  | .noThreadsAsked => "num_threads was 0, using 1 thread instead"
  | .initializing _ _ => "initializing thread pool"
  | .spawnFailed _ _ => "failed to spawn worker thread"
  | .poolStarted _ => "thread pool started"
  | .submitRefused _ => "cannot submit task after shutdown"
  | .alreadyShutDown => "shutdown() called but pool is already shut down"
  | .gracefulInitiated _ => "initiating graceful shutdown"
  | .gracefulComplete _ _ => "graceful shutdown complete"
  | .immediateInitiated => "initiating immediate shutdown"
  | .immediateComplete _ => "immediate shutdown complete"
  | .immediateAbandoned _ _ => "immediate shutdown complete, queued tasks were not executed"
  | .selfDetached _ => "shutdown called from a pool worker, detaching it instead of joining"
  | .workerCrashed _ => "worker thread panicked outside a task"
  | .droppedUnshut => "thread pool dropped without explicit shutdown, performing graceful shutdown"
  | .workerStarted _ => "worker started"
  | .workerStopped _ _ => "worker stopped"
  | .droppedAfterHalt _ _ => "dropping task popped after halt"
  | .taskPanicked _ _ text => "task panicked: " ++ text
  | .pairStarted _ _ => "runtime started"

/-- The named values of the report. -/
def fields : Event → List (String × FieldValue)
  | .noThreadsAsked | .alreadyShutDown | .immediateInitiated | .droppedUnshut => []
  | .initializing threads namePrefix =>
    [("num_threads", .number threads), ("prefix", .text namePrefix)]
  | .spawnFailed worker cause => [("worker", .number worker), ("error", .text cause)]
  | .poolStarted threads => [("num_threads", .number threads)]
  | .submitRefused task => [("task", .text task.text)]
  | .gracefulInitiated pending => [("pending", .number pending)]
  | .gracefulComplete joined pending => [("workers", .number joined), ("pending", .number pending)]
  | .immediateComplete joined => [("workers", .number joined)]
  | .immediateAbandoned joined abandoned =>
    [("workers", .number joined), ("abandoned", .number abandoned)]
  | .selfDetached worker | .workerCrashed worker | .workerStarted worker =>
    [("worker", .number worker)]
  | .workerStopped worker executed =>
    [("worker", .number worker), ("tasks_executed", .number executed)]
  | .droppedAfterHalt worker task => [("worker", .number worker), ("task", .text task.text)]
  | .taskPanicked _ task _ => [("task", .text task.text)]
  | .pairStarted cpuThreads dbThreads =>
    [("cpu_threads", .number cpuThreads), ("db_threads", .number dbThreads)]

end Event

end WorkerPool
