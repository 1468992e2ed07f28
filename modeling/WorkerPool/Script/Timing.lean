import WorkerPool.Schedule

/-!
# Facts about time

One worker gets tasks that sleep. They are made, some time passes, they are submitted, and the pool
is shut down. What is said is what holds however fast the machine is: a task waits from its making,
or from its submission once it is submitted; the time in tasks is at least the time they sleep, and
at most the time that passes.

* `World.settleInTime` -- runs a world until nothing is left to wait for, letting time pass;
* `Timing.run` -- the facts.
-/

namespace WorkerPool

/-- When the thread wakes, if it sleeps. -/
def Activity.wakeAt? : Activity → Option Nat
  | .asleep wakeAt _ => some wakeAt
  | _ => none

/-- When the worker's task wakes, if it sleeps. -/
def Worker.wakeAt? (w : Worker) : Option Nat :=
  match w.stage with
  | .running _ activity => activity.wakeAt?
  | _ => none

namespace World

/-- The next time at which a sleeping thread wakes. -/
def nextWake? (w : World) : Option Nat :=
  (w.callers.filterMap Activity.wakeAt? ++
    w.pools.flatMap fun p => p.workers.filterMap Worker.wakeAt?).min?

/-- Settles the world, lets time pass until the next thread wakes, and begins anew. -/
def settleInTime (s : Schedule) (fuel : Nat) : Nat → World → World
  | 0, w => w
  | n + 1, w =>
    let w := settle s fuel w
    match w.nextWake? with
    | none => w
    | some time =>
      if time ≤ w.now then w
      else settleInTime s fuel n ((w.step (.tick (time - w.now))).getD w)

end World

namespace Timing

/-- How a run is set up; times in nanoseconds. -/
structure Setup where
  tasks : Nat
  /-- How long each task sleeps. -/
  sleep : Nat
  /-- How long the tasks lie made before they are submitted. -/
  before : Nat
  telemetry : Bool

/-- What is said of a run. -/
structure Account where
  waitedSinceMade : Bool
  accepted : Nat
  executed : Nat
  waitCountsFromSubmit : Bool
  busyAtLeast : Bool
  busyAtMost : Bool
  medianAtLeast : Bool
  ordered : Bool
  uptimeAtLeast : Bool
  deriving DecidableEq, Repr

/-- Makes tasks that sleep, then sleeps itself. -/
def prepare (setup : Setup) : Nat → Program
  | 0 => .call (.sleep setup.before) fun _ => .finish []
  | n + 1 =>
    .make "sleeper" (.call (.sleep setup.sleep) fun _ => .finish []) fun _ => prepare setup n

/-- Submits these tasks, shuts the pool down, and ends with the replies. -/
def submitAll (replies : List Reply) : List TaskId → Program
  | [] => .call (.shutdown 0 .graceful) (.uncaught fun _ => .finish replies)
  | id :: rest => .call (.submitHeld 0 id) fun r => submitAll (r :: replies) rest

/-- Runs the tasks and says what holds. -/
def run (setup : Setup) : Option Account :=
  let fuel := 64 * (setup.tasks + 4)
  let settle := World.settleInTime { quantum := fuel } fuel fuel
  let fork (w : World) (p : Program) : World := (w.step (.fork p)).getD w
  let w := settle (fork (.initial setup.telemetry {})
    (.call (.start (.withThreads 1)) fun _ => .finish []))
  let w := settle (fork w (prepare setup setup.tasks))
  let waited := w.held.all fun t => setup.before ≤ w.now - t.enqueuedAt
  let begun := w.now
  let caller := w.callers.length
  let w := settle (fork w (submitAll [] (w.held.map Task.id)))
  let took := w.now - begun
  let replies := ((w.callers[caller]?).bind Activity.answers?).getD []
  (w.pools[0]?).map fun p =>
    let s := p.snapshot w.now
    let asleep := setup.tasks * setup.sleep
    { waitedSinceMade := waited
      accepted := replies.count (.flag true)
      executed := s.executed.toNat
      waitCountsFromSubmit := s.averageWait.toNat ≤ took
      busyAtLeast := asleep ≤ s.busy.toNat
      busyAtMost := s.busy.toNat ≤ took
      medianAtLeast := setup.sleep * 999 ≤ s.p50 * 1000
      ordered := s.p50 ≤ s.p95 && s.p95 ≤ s.p99 && s.p99 ≤ s.maxLatency
      uptimeAtLeast := asleep ≤ s.uptime }

end Timing

end WorkerPool
