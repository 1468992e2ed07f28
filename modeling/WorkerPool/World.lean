import WorkerPool.Pool.Call
import WorkerPool.Pool.Worker

/-!
# Threads and pools together

A world holds every pool, every thread and what threads share besides pools: the tasks made and not
yet submitted, the gates that are open, the clock. It moves in steps, and a step belongs to one
thread or comes from outside: a new thread begins, a sleeper is woken for no reason, a gate is
opened, time passes, memory nobody can reach is given back.

* `World.act` -- the next step of a thread, if it has one; its result is all that the thread does;
* `World.step` -- a step under its label;
* `World.Reachable` -- the worlds that some order of steps leads to, from one in which nothing
  has happened.

Every statement about what pools do, whoever calls them and in whatever order threads move, is a
statement about reachable worlds.
-/

namespace WorkerPool

/-- Pools, threads, and what threads share besides. -/
structure World where
  /-- Pools measure what they do. -/
  telemetry : Bool
  host : Host
  pools : List Pool := []
  /-- The threads that are no workers. -/
  callers : List Activity := []
  /-- The tasks made and not yet submitted. -/
  held : List Task := []
  /-- The number of the next task. -/
  nextTask : Nat := 1
  /-- The time, in nanoseconds. -/
  now : Nat := 0
  /-- The gates that are open. -/
  opened : List String := []
  /-- What has happened outside every pool, newest first. -/
  trace : List Happening := []

/-- The steps of a world. -/
inductive Label where
  /-- A new thread begins with this program. -/
  | fork (program : Program)
  /-- A thread moves. `choice` is the sleeper that it wakes if it pushes a task. -/
  | act (thread : ThreadId) (choice : Nat)
  /-- A worker asleep on its queue is woken for no reason. -/
  | wake (pool : PoolId) (worker : Nat)
  /-- A gate is opened. -/
  | openGate (name : String)
  /-- Time passes. -/
  | tick (nanos : Nat)
  /-- What a released pool still held is given back. -/
  | reclaim (pool : PoolId)

namespace World

/-- A world in which nothing has happened. -/
def initial (telemetry : Bool) (host : Host) : World := { telemetry := telemetry, host := host }

/-- The world with this pool in the place of the pool of that number. -/
def setPool (w : World) (id : PoolId) (p : Pool) : World := { w with pools := w.pools.set id p }

/-- The pool of this number, while it takes calls. -/
def serving? (w : World) (id : PoolId) : Option Pool :=
  (w.pools[id]?).filter fun p => p.life = .serving

/-- A task of this program, made now under the next number. -/
def fresh (w : World) (label : String) (work : Program) : Task :=
  { id := ⟨w.nextTask⟩, label := label, work := work, enqueuedAt := w.now }

/-- The task held under this number. -/
def held? (w : World) (id : TaskId) : Option Task := w.held.find? fun t => t.id = id

/-- The world without the held task of this number. -/
def release (w : World) (id : TaskId) : World :=
  { w with held := w.held.filter fun t => t.id ≠ id }

/-! ## 1. Beginning a call -/

/-- The world after `thread` has come to this pool with a task, submitted now. -/
def offer (w : World) (thread : ThreadId) (p : Pool) (id : PoolId) (task : Task) : World :=
  w.setPool id ((p.log (.offered task.id)).enter thread
    (.checking { task with enqueuedAt := w.now }))

/-- Writes a note: a worker to the trace of its pool, any other thread to the world's. -/
def write (w : World) (n : Note) : ThreadId → World
  | .caller _ => { w with trace := .note n :: w.trace }
  | .worker pool _ => { w with pools := w.pools.modify pool (·.log (.note n)) }

/-- The name of a thread; only workers have one. -/
def nameOf (w : World) : ThreadId → Reply
  | .caller _ => .gone
  | .worker pool index =>
    match w.pools[pool]? with
    | none => .gone
    | some p => .text (p.workerName index)

/-- The first step of `thread` for a call. A call on a pool that takes none is told so. A pool is
    given up only when no thread is inside a call on it. -/
def begin (w : World) (thread : ThreadId) (next : Reply → Program) :
    Call → Option (World × Activity)
  | .start config =>
    match config.validate with
    | .error e => some (w, .going (next (.failed e)))
    | .ok () =>
      let id := w.pools.length
      let p := Pool.ofConfig id config w.host.cpus w.telemetry w.now
      some
        ({ w with pools := w.pools ++ [p.enter thread (.spawning 0 (w.host.refusal id config))] },
          .inside id next)
  | .submitHeld id taskId =>
    match w.serving? id, w.held? taskId with
    | some p, some task => some ((w.release taskId).offer thread p id task, .inside id next)
    | _, _ => some (w, .going (next .gone))
  | .dropHeld taskId =>
    match w.held? taskId with
    | none => some (w, .going (next .gone))
    | some task =>
      some ({ w.release taskId with trace := .dropped task.id task.label :: w.trace },
        .going (next .done))
  | .shutdown id mode =>
    match w.serving? id with
    | none => some (w, .going (next .gone))
    | some p =>
      some (w.setPool id (p.enter thread (match mode with
        | .graceful => .swapping .asked
        | .immediate => .raising .asked)), .inside id next)
  | .drop id =>
    match w.serving? id with
    | none => some (w, .going (next .gone))
    | some p =>
      if p.calls.isEmpty then
        some (w.setPool id ({ p with life := .ending }.enter thread (.dropping .done)),
          .inside id next)
      else none
  | .read id gauge =>
    match w.serving? id with
    | none => some (w, .going (next .gone))
    | some p => some (w, .going (next (p.read gauge)))
  | .announcePair cpu db =>
    match w.pools[cpu]?, w.pools[db]? with
    | some c, some d =>
      some ({ w with trace := .event (.pairStarted c.size d.size) :: w.trace },
        .going (next .done))
    | _, _ => some (w, .going (next .gone))
  | .gate name => if name ∈ w.opened then some (w, .going (next .done)) else none
  | .note n => some (w.write n thread, .going (next .done))
  | .threadName => some (w, .going (next (w.nameOf thread)))
  | .sleep nanos => some (w, .asleep (w.now + nanos) next)

/-! ## 2. Moving a thread -/

/-- The step of `thread` inside a call on a pool. -/
def proceed (w : World) (thread : ThreadId) (choice : Nat) (id : PoolId)
    (next : Reply → Program) : Option (World × Activity) :=
  (w.pools[id]?).bind fun p =>
    (p.calls.lookup thread).bind fun stage =>
      (p.callStep thread choice stage).map fun
        | (p, .stage s) => (w.setPool id (p.setCall thread s), .inside id next)
        | (p, .reply r) => (w.setPool id (p.leave thread), .going (next r))

/-- The step of `thread` from how far it has got. A thread whose program has ended has none, and
    neither has one that waits. -/
def advance (w : World) (thread : ThreadId) (choice : Nat) : Activity → Option (World × Activity)
  | .going (.finish _) => none
  | .going (.panic _) => none
  | .going (.submit id label work next) =>
    match w.serving? id with
    | none => some (w, .going (next .gone))
    | some p =>
      some ({ w.offer thread p id (w.fresh label work) with nextTask := w.nextTask + 1 },
        .inside id next)
  | .going (.make label work next) =>
    let task := w.fresh label work
    some ({ w with held := w.held ++ [task], nextTask := w.nextTask + 1 },
      .going (next (.task task.id)))
  | .going (.call c next) => w.begin thread next c
  | .inside id next => w.proceed thread choice id next
  | .asleep wakeAt next => if wakeAt ≤ w.now then some (w, .going (next .done)) else none

/-- The world after worker `i` of this pool has made a step: the pool after it, and its stage. -/
def moveWorker (w : World) (id : PoolId) (i : Nat) (moved : Pool × WorkerStage) : World :=
  w.setPool id (moved.1.setStage i moved.2)

/-- The step of worker `i` of this pool inside its task. -/
def actInTask (w : World) (id : PoolId) (p : Pool) (i : Nat) (choice : Nat) (job : Job) :
    Activity → Option World
  | .going (.finish _) => some (w.moveWorker id i (p.workEnds job none))
  | .going (.panic payload) => some (w.moveWorker id i (p.workEnds job (some payload)))
  | activity =>
    (w.advance (.worker id i) choice activity).map fun (w, activity) =>
      { w with pools := w.pools.modify id (·.setStage i (.running job activity)) }

/-- The next step of a thread, if it has one. -/
def act (w : World) (thread : ThreadId) (choice : Nat) : Option World :=
  match thread with
  | .caller i =>
    (w.callers[i]?).bind fun activity =>
      (w.advance thread choice activity).map fun (w, activity) =>
        { w with callers := w.callers.set i activity }
  | .worker id i =>
    (w.pools[id]?).bind fun p =>
      (p.workers[i]?).bind fun worker =>
        match worker.stage with
        | .running job activity => w.actInTask id p i choice job activity
        | stage => (p.workerStep i w.now stage).map (w.moveWorker id i)

/-! ## 3. Steps and reachable worlds -/

/-- The world after a step, if the step can be taken. -/
def step (w : World) : Label → Option World
  | .fork program => some { w with callers := w.callers ++ [.going program] }
  | .act thread choice => w.act thread choice
  | .wake id worker =>
    (w.pools[id]?).bind fun p =>
      if worker ∈ p.queue.sleeping then
        some (w.setPool id { p with queue := p.queue.wake worker })
      else none
  | .openGate name => some { w with opened := name :: w.opened }
  | .tick nanos => some { w with now := w.now + nanos }
  | .reclaim id => (w.pools[id]?).bind fun p => p.reclaim.map (w.setPool id)

/-- The worlds that some order of steps leads to, on any system, measuring or not. -/
inductive Reachable : World → Prop where
  | initial (telemetry : Bool) (host : Host) : Reachable (World.initial telemetry host)
  | step {w w' : World} (l : Label) (h : Reachable w) (hs : w.step l = some w') : Reachable w'

/-- The world after these steps, if all of them can be taken. -/
def run (w : World) : List Label → Option World
  | [] => some w
  | l :: rest => (w.step l).bind fun w => w.run rest

/-- What a run reaches from a reachable world is reachable. -/
theorem Reachable.run {w w' : World} (h : Reachable w) {ls : List Label}
    (hr : w.run ls = some w') : Reachable w' := by
  induction ls generalizing w with
  | nil =>
    cases hr
    exact h
  | cons l rest ih =>
    obtain ⟨v, hv, hr⟩ := Option.bind_eq_some_iff.1 hr
    exact ih (h.step l hv) hr

end World

end WorkerPool
