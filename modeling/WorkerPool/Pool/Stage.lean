import WorkerPool.Program

/-!
# Places in the code of a pool

Whatever is done to a pool is done in steps, each one access to one shared value; between two steps
of one thread any other thread may move. So a thread in the pool's code is always at one of finitely
many places.

* `WorkerStage` -- the place of a worker in its loop;
* `CallStage` -- the place of any thread inside a call on the pool.

Each constructor is named for what the thread has come to; its comment says what it does next where
the name does not.
-/

namespace WorkerPool

/-! ## 1. Workers -/

/-- A task that a worker has begun. -/
structure Job where
  id : TaskId
  label : String
  /-- Nanoseconds between submission and start. -/
  waited : Nat
  /-- When it began. -/
  since : Nat
  deriving DecidableEq, Repr

/-- A worker's place in its loop. -/
inductive WorkerStage where
  | starting
  /-- About to look whether the pool is halted. -/
  | checkingHalt
  /-- About to look for a task, or asleep on the queue. -/
  | popping
  /-- With a task, about to look again whether the pool is halted. -/
  | rechecking (task : Task)
  /-- The pool is halted: about to count the task as abandoned. -/
  | abandoning (task : Task)
  /-- About to put the abandoned task into the metrics and to throw it away. -/
  | discarding (task : Task)
  /-- About to raise the active count and begin. -/
  | ready (task : Task)
  /-- Inside the task. -/
  | running (job : Job) (activity : Activity)
  /-- A panic has come out of the task. -/
  | caught (job : Job) (payload : Payload)
  | reporting (job : Job) (message : String)
  /-- About to lower the active count. -/
  | lowering (job : Job) (panicked : Bool)
  /-- About to count the panic for this worker. -/
  | countingPanic (job : Job) (ran : Nat)
  /-- About to count the panic in the metrics. -/
  | recordingPanic (job : Job) (ran : Nat)
  /-- About to make this write to the metrics. -/
  | recording (part : Metrics.Part) (job : Job) (ran : Nat)
  /-- About to count the task for this worker. -/
  | countingExecuted
  /-- Out of the loop. -/
  | stopping
  /-- About to count this worker as exited. `crashed` if a panic drove it out. -/
  | leaving (crashed : Bool)
  | finished (crashed : Bool)

/-- A worker. -/
structure Worker where
  stage : WorkerStage := .starting
  executed : UInt64 := 0
  panicked : UInt64 := 0
  /-- The payload of the panic that drove the worker out. It is left to whoever joins the thread. -/
  remains : Option Payload := none

/-- The worker's thread has ended. -/
def WorkerStage.isFinished : WorkerStage → Bool
  | .finished _ => true
  | _ => false

/-! ## 2. Calls in progress -/

/-- Why a shutdown is run, and so what follows it. -/
inductive Purpose where
  | asked
  /-- The pool is being given up. -/
  | givingUp
  /-- The thread of this worker was refused while the pool was made. -/
  | startFailed (worker : Nat) (cause : SystemError)
  deriving DecidableEq, Repr

/-- The place of a thread inside a call. -/
inductive CallStage where
  /-- Making the pool, about to ask for the thread of worker `next`. -/
  | spawning (next : Nat) (refusal : Nat → Option SystemError)
  /-- All workers are there. -/
  | opening
  /-- Submitting, about to look whether the pool is draining. -/
  | checking (task : Task)
  | pushing (task : Task)
  /-- The queue has taken the task. -/
  | admitted
  /-- The task is refused and not reported yet. -/
  | refusing (id : TaskId) (kept : Option Task)
  /-- The refusal is reported and not counted yet. -/
  | rejecting (id : TaskId) (kept : Option Task)
  /-- Graceful: about to set the draining flag and see what it was. -/
  | swapping (why : Purpose)
  /-- Immediate: about to set the draining flag. -/
  | raising (why : Purpose)
  /-- Immediate: about to set the halt flag. -/
  | halting (why : Purpose)
  | announcing (mode : Mode) (why : Purpose)
  /-- About to close the queue. -/
  | closing (mode : Mode) (why : Purpose)
  /-- About to take the workers' handles. -/
  | taking (mode : Mode) (why : Purpose)
  /-- Joining the workers whose handles are left; with none left, waiting for every exit. -/
  | joining (mode : Mode) (why : Purpose) (left : List Nat) (joined : Nat)
  /-- What a worker left behind has exploded in the hands of the thread that joined it: letting go of
      the handles that are left, on the way out of the shutdown with this panic. -/
  | unwinding (why : Purpose) (left : List Nat) (joined : Nat) (payload : Payload)
  /-- Graceful: every worker is gone. -/
  | concluding (why : Purpose) (joined : Nat)
  /-- Immediate: about to empty the queue. -/
  | emptying (why : Purpose) (joined : Nat)
  /-- About to count what was in the queue as abandoned. -/
  | tallying (why : Purpose) (joined : Nat) (removed : List Task)
  /-- About to put it into the metrics. -/
  | recording (why : Purpose) (joined : Nat) (removed : List Task)
  /-- Throwing it away, one task after the other. -/
  | discarding (why : Purpose) (joined : Nat) (removed : List Task)
  | reporting (why : Purpose) (joined : Nat)
  /-- Giving the pool up: about to look whether it is shut down. -/
  | dropping (outcome : Reply)
  | releasing (outcome : Reply)

end WorkerPool
