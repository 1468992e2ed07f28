import WorkerPool.Program

/-!
# What happens to a pool

* `Happening` -- the entries of a pool's trace: what it reports, what tasks note, and what becomes
  of tasks, of workers' handles and of shutdowns.
-/

namespace WorkerPool

/-- Something that has happened to a pool. -/
inductive Happening where
  | event (e : Event)
  | note (n : Note)
  /-- The thread of this worker was asked for. -/
  | spawnTried (worker : Nat)
  /-- A thread has come with this task. -/
  | offered (task : TaskId)
  /-- The queue has taken the task. -/
  | accepted (task : TaskId)
  /-- The task will not be run. -/
  | refused (task : TaskId)
  /-- A worker has taken the task out of the queue. -/
  | popped (task : TaskId) (worker : Nat)
  | started (task : TaskId) (label : String) (worker : Nat)
  | ended (task : TaskId) (panicked : Bool)
  /-- A shutdown has taken these tasks out of the queue. -/
  | removed (tasks : List TaskId)
  /-- The task was thrown away and had not begun. -/
  | dropped (task : TaskId) (label : String)
  /-- The halt flag was set. -/
  | halted
  /-- A shutdown has begun. -/
  | called (thread : ThreadId) (mode : Mode)
  /-- It has taken these workers' handles. -/
  | handlesTaken (thread : ThreadId) (workers : List Nat)
  | joined (thread : ThreadId) (worker : Nat) (crashed : Bool)
  /-- The handle of the thread's own worker was let go. -/
  | detached (thread : ThreadId) (worker : Nat)
  /-- The handle of a worker was let go because a panic ended the shutdown. -/
  | forsaken (thread : ThreadId) (worker : Nat)
  /-- A panic has ended the shutdown, which had joined so many workers. -/
  | brokenOff (thread : ThreadId) (joined : Nat)
  /-- The shutdown is over and has joined so many workers. -/
  | returned (thread : ThreadId) (mode : Mode) (joined : Nat)
  deriving DecidableEq, Repr

end WorkerPool
