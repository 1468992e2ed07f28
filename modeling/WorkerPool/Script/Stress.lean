import WorkerPool.Observation
import WorkerPool.Schedule

/-!
# Many submitters against a shutdown

In each round several threads submit tasks to one pool, some of which panic, and the pool is shut
down while they do or when they are done. Each round gives the threads other turns. What is said of
a round is what must hold in whatever order threads move.

* `Stress.run` -- what is said of the rounds, equal accounts once.
-/

namespace WorkerPool.Stress

/-- How a run is set up. -/
structure Setup where
  threads : UInt64
  producers : Nat
  /-- How many tasks each producer submits. -/
  tasks : Nat
  /-- Every so many tasks of a producer one panics, beginning with the first. -/
  panicEvery : Option Nat
  /-- The shutdown comes while the producers submit. -/
  race : Bool
  mode : Mode
  telemetry : Bool

/-- What is said of a round. -/
structure Account where
  atMostOnce : Bool
  /-- Runs, abandoned and pending tasks make up the accepted ones. -/
  accounted : Bool
  /-- The workers together have executed what ran. -/
  workerSum : Bool
  active : Nat
  isShutdown : Bool
  threads : Nat
  metricsAgree : Bool
  /-- Whether a task is taken after the shutdown. -/
  lateSubmit : Bool
  /-- Accepted and pending tasks, if the shutdown comes after them. -/
  settled : Option (Nat × Nat)
  /-- Runs, panics and abandoned tasks, if the shutdown runs everything. -/
  drained : Option (Nat × Nat × Nat)
  deriving DecidableEq, Repr

/-- What task `i` of a producer does. -/
def work (panicEvery : Option Nat) (i : Nat) : Program :=
  match panicEvery with
  | some k => if k ≠ 0 ∧ i % k = 0 then .panic (.literal "stress") else .finish []
  | none => .finish []

/-- Submits tasks from the last to none left and ends with the replies. -/
def produce (setup : Setup) (replies : List Reply) : Nat → Program
  | 0 => .finish replies
  | left + 1 =>
    .submit 0 "task" (work setup.panicEvery (setup.tasks - (left + 1))) fun r =>
      produce setup (r :: replies) left

/-- The turns of round `n`. -/
def schedule (n : Nat) : Schedule := { quantum := 1 + n * 7 % 23, shift := n, choice := n }

/-- More rounds of turns than a run can need. -/
def fuel (setup : Setup) : Nat :=
  64 * (setup.producers * setup.tasks + setup.threads.toNat + setup.producers + 4)

/-- The world after a new thread with this program. -/
def fork (w : World) (p : Program) : World := (w.step (.fork p)).getD w

/-- The tasks that began, as often as they did. -/
def started (p : Pool) : List TaskId :=
  p.trace.filterMap fun
    | .started id _ _ => some id
    | _ => none

/-- No task is there twice. -/
def allDistinct (ids : List TaskId) : Bool := decide ids.Nodup

/-- How many of the replies of all callers say so. -/
def countReplies (w : World) (r : Reply) : Nat :=
  (w.callers.flatMap fun a => (a.answers?).getD []).count r

/-- The account of a pool after its round. -/
def account (setup : Setup) (w : World) (p : Pool) (lateSubmit : Bool) : Account :=
  let runs := started p
  let accepted := countReplies w (.flag true)
  let rejected := countReplies w (.flag false)
  let abandoned := p.abandoned.toNat
  let panicked := p.handler.count.toNat
  let pending := p.queue.length
  let measured := [Metrics.Counter.submitted, .rejected, .executed, .panicked, .abandoned].map
    fun c => (p.metric c).toNat
  let expected :=
    if setup.telemetry then [accepted, rejected, runs.length, panicked, abandoned]
    else [0, 0, 0, 0, 0]
  { atMostOnce := allDistinct runs
    accounted := runs.length + abandoned + pending == accepted
    workerSum := p.workers.foldl (· + ·.executed.toNat) 0 == runs.length
    active := p.active.toNat
    isShutdown := p.draining
    threads := p.size
    metricsAgree := measured == expected
    lateSubmit := lateSubmit
    settled := if setup.race then none else some (accepted, pending)
    drained :=
      if setup.race || setup.mode = Mode.immediate then none
      else some (runs.length, panicked, abandoned) }

/-- One round. -/
def runRound (setup : Setup) (n : Nat) : Option Account :=
  let config : Config := { Config.withThreads setup.threads with strategy := .isolate }
  let settle := World.settle (schedule n) (fuel setup)
  let w := settle (fork (.initial setup.telemetry {}) (.call (.start config) fun _ => .finish []))
  let w := (List.range setup.producers).foldl (fun w _ => fork w (produce setup [] setup.tasks)) w
  let w := if setup.race then w else settle w
  let w := settle (fork w (.call (.shutdown 0 setup.mode) (.uncaught fun _ => .finish [])))
  let late := w.callers.length
  let after := settle (fork w (.submit 0 "late" (.finish []) fun r => .finish [r]))
  (w.pools[0]?).map fun p =>
    account setup w p
      (((after.callers[late]?).bind Activity.answers?).getD [] == [Reply.flag true])

/-- The accounts of so many rounds, equal ones once. -/
def run (setup : Setup) (rounds : Nat) : List Account :=
  ((List.range rounds).filterMap (runRound setup)).eraseDups

end WorkerPool.Stress
