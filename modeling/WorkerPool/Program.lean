import WorkerPool.Config
import WorkerPool.Event
import WorkerPool.Metrics

/-!
# Programs that use pools

A program is what a thread does: it makes pools, submits tasks, shuts pools down, waits at gates,
reads what a pool counts, and ends with answers or by a panic. Tasks are programs too. A program
asks for one thing at a time and goes on with the reply, so every program is a finite tree and
every run of one a finite path.

* `Program` -- what a thread does, `Task` -- a program under a number;
* `Call` -- what a program may ask for, `Reply` -- what it is told;
* `Gauge` -- the values a program can read off a pool, one atomic read each;
* `Activity` -- how far a thread has got with its program.
-/

namespace WorkerPool

/-- Pools by number, in the order in which they are made. -/
abbrev PoolId := Nat

/-- Threads. A caller is any thread that is not a worker. -/
inductive ThreadId where
  | caller (index : Nat)
  | worker (pool : PoolId) (index : Nat)
  deriving DecidableEq, Repr

/-! ## 1. What a program may ask for -/

/-- A value that can be read off a pool at one moment. -/
inductive Gauge where
  /-- How many workers the pool was made with. -/
  | threads
  | active
  | pending
  | isShutdown
  | abandoned
  | panicked
  | workerExecuted (worker : Nat)
  | workerPanicked (worker : Nat)
  | metric (counter : Metrics.Counter)
  deriving DecidableEq, Repr

/-- What the system offers to those who make pools. -/
structure Host where
  /-- The number of processors. -/
  cpus : UInt64 := 1
  /-- The refusal that meets whoever asks for the thread of this worker of the pool of that number,
      so made. Nobody asks for a thread twice, so this is all that the system can do. -/
  refusal : PoolId → Config → Nat → Option SystemError := fun _ _ _ => none

/-- What a program is told. -/
inductive Reply where
  | done
  /-- There is no such pool any more, or no such task. -/
  | gone
  | flag (b : Bool)
  | number (n : Nat)
  | text (s : String)
  /-- A value that only the program understands. -/
  | data (s : String)
  | task (id : TaskId)
  | pool (id : PoolId)
  | failed (e : Error)
  /-- The call has not returned: it has ended by a panic with this payload. A program that does not
      catch panics goes on by panicking with it. -/
  | unwound (payload : Payload)
  deriving DecidableEq, Repr

/-- A line that a program writes: under its label, about something, with the value it has. -/
structure Note where
  label : String
  about : String
  value : Option Reply
  deriving DecidableEq, Repr

/-- The two ways to shut a pool down. -/
inductive Mode where
  /-- What is queued is run first. -/
  | graceful
  /-- What is queued is thrown away. -/
  | immediate
  deriving DecidableEq, Repr

/-- What a program may ask for, submitting and making tasks apart. -/
inductive Call where
  /-- Makes a pool. -/
  | start (config : Config)
  /-- Submits a task made before. -/
  | submitHeld (pool : PoolId) (task : TaskId)
  /-- Throws a task away that was made before. -/
  | dropHeld (task : TaskId)
  | shutdown (pool : PoolId) (mode : Mode)
  /-- Gives the pool up. -/
  | drop (pool : PoolId)
  | read (pool : PoolId) (gauge : Gauge)
  /-- Reports that a pair of pools is there. -/
  | announcePair (cpu db : PoolId)
  /-- Waits until the gate is open. -/
  | gate (name : String)
  | note (n : Note)
  /-- Asks for the name of the thread. -/
  | threadName
  /-- Waits for so many nanoseconds. -/
  | sleep (nanos : Nat)

/-! ## 2. Programs -/

/-- What a thread does. -/
inductive Program where
  | finish (answers : List Reply)
  | panic (payload : Payload)
  /-- Makes a task of `work` and submits it. -/
  | submit (pool : PoolId) (label : String) (work : Program) (next : Reply → Program)
  /-- Makes a task of `work` and keeps it. -/
  | make (label : String) (work : Program) (next : Reply → Program)
  | call (c : Call) (next : Reply → Program)

/-- How a program that catches no panics goes on after a call: with `next`, or with the panic that
    the call has ended by. -/
def Program.uncaught (next : Reply → Program) : Reply → Program
  | .unwound payload => .panic payload
  | r => next r

/-- A program under a number. -/
structure Task where
  id : TaskId
  /-- What the task is called in the notes of a run. -/
  label : String
  work : Program
  /-- When the task was submitted, or made if it never was. -/
  enqueuedAt : Nat

/-- How far a thread has got. -/
inductive Activity where
  /-- The program goes on from here. -/
  | going (rest : Program)
  /-- The thread is inside a call on a pool. -/
  | inside (pool : PoolId) (next : Reply → Program)
  /-- The thread sleeps until this time. -/
  | asleep (wakeAt : Nat) (next : Reply → Program)

/-- What the program of a thread ended with, if it has ended. -/
def Activity.answers? : Activity → Option (List Reply)
  | .going (.finish answers) => some answers
  | _ => none

/-- The program has ended, with answers or by a panic. -/
def Activity.isOver : Activity → Bool
  | .going (.finish _) | .going (.panic _) => true
  | _ => false

end WorkerPool
