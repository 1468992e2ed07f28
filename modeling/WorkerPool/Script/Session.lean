import WorkerPool.Observation
import WorkerPool.Script.Plan
import WorkerPool.Schedule

/-!
# Sessions with a pool or a pair of pools

A session is a world in which a script makes a pool or a pair and acts on it from outside. After
each act everything moves until nothing can; then the session can tell what has been noted and
reported since it last told, and what the pools' figures are.

* `Subject`, `Step`, `Report` -- what a script works on, does, and is told;
* `Session.call` -- one program run by a thread of its own until nothing moves;
* `Session.notes`, `Session.events`, `Session.figures` -- what is told.

With several workers neither notes nor events have an order of their own, and a report does not tell
which worker it was.
-/

namespace WorkerPool.PoolScript

/-! ## 1. Scripts -/

/-- A task of a script. -/
structure TaskSpec where
  label : String
  plan : Plan

/-- What a script works on. -/
inductive Subject where
  | pool (config : Config)
  | pair (config : PairConfig)

/-- A step of a script. -/
inductive Step where
  | submit (on : PoolId) (task : TaskSpec)
  | batch (on : PoolId) (tasks : List TaskSpec)
  /-- Submits the same task so many times. -/
  | repeated (on : PoolId) (count : Nat) (task : TaskSpec)
  /-- Makes a task in the next slot. -/
  | make (on : PoolId) (task : TaskSpec)
  | submitMade (slot : Nat)
  | openGates (names : List String)
  | shutdown (on : PoolId) (mode : Mode)
  | shutdownAll (mode : Mode)
  | isShutdown
  | describe
  | showConfig

/-- What a step returns. -/
inductive Answer where
  | nothing
  | reply (r : Reply)
  | replies (rs : List Reply)
  | number (n : Nat)
  /-- The call goes on by itself. -/
  | waiting
  | texts (ts : List String)
  | configs (cs : List Config)

/-- The figures of a pool. -/
structure Figures where
  threads : Nat
  pending : Nat
  active : Nat
  abandoned : Nat
  panicked : Nat
  isShutdown : Bool
  /-- What all workers together have executed, and how much of that panicked. -/
  executedByWorkers : Nat
  panickedByWorkers : Nat
  counters : List Nat

/-- What a script is told of an event. -/
structure EventLine where
  level : Level
  message : String
  fields : List (String × FieldValue)

/-- What is known after a step. -/
structure Report where
  answer : Answer
  notes : List Note
  events : List EventLine
  figures : List Figures

/-- What is known after the pools are given up. -/
structure Ending where
  figures : List Figures
  notes : List Note
  events : List EventLine
  /-- How many workers left their loop by themselves. -/
  stopped : Nat
  /-- How many dead workers were found; absent if that depends on the order of threads. -/
  crashed : Option Nat

/-- The report of a script. -/
inductive Outcome where
  /-- There is no pool. -/
  | refused (e : Error) (events : List EventLine)
  /-- The script did not come to rest. -/
  | stuck
  | ran (figures : List Figures) (events : List EventLine) (steps : List Report) (ending : Ending)

/-! ## 2. The system that scripts run on -/

/-- No stack of so many bytes can be had. -/
def hugeStack : UInt64 := 1125899906842624

/-- A system that refuses every thread whose stack would be huge. -/
def host : Host where
  refusal := fun _ config _ =>
    match config.stackSize with
    | none => none
    | some bytes => if hugeStack ≤ bytes then some .unavailable else none

/-- The number of workers asked for. -/
def workersOf (c : Config) : Nat := max 1 (c.workerThreads 1).toNat

/-- The number of workers asked for. -/
def Subject.workers : Subject → Nat
  | .pool c => workersOf c
  | .pair c => workersOf c.cpu + workersOf c.db

/-- There are several workers, so notes and events come in no order of their own. -/
def Subject.unordered (s : Subject) : Bool := 1 < s.workers

/-! ## 3. Sessions -/

/-- A script under way. -/
structure Session where
  subject : Subject
  world : World
  /-- An upper bound for the rounds of a schedule and for the steps of a turn. -/
  fuel : Nat
  /-- Every gate of the script. -/
  gates : List String
  /-- The tasks made and not submitted, each with its pool. -/
  slots : List (PoolId × Option TaskId) := []
  /-- The callers whose shutdown waits. -/
  waiting : List Nat := []
  /-- Shutdowns have overlapped. -/
  overlapped : Bool := false
  /-- Nothing could move and yet a worker was inside a call. -/
  stuck : Bool := false
  /-- How much of each pool's trace, and of the world's, has been told. -/
  told : List Nat := []
  worldTold : Nat := 0

namespace Session

/-- What has happened to each pool of a world after its first so many happenings, oldest first. -/
def happenedSince (lengths : List Nat) (w : World) : List (Pool × List Happening) :=
  w.pools.mapIdx fun i p =>
    (p, (p.trace.take (p.trace.length - (lengths[i]?).getD 0)).reverse)

/-- A task has asked for a shutdown: one has begun on a worker, or a task notes that one is over. -/
def taskStops : Happening → Bool
  | .called (.worker _ _) _ => true
  | .note ⟨_, about, some .done⟩ => about = Mode.graceful.name || about = Mode.immediate.name
  | _ => false

/-- The worker's task is inside a call. -/
def isInsideCall (w : Worker) : Bool := w.stage matches .running _ (.inside ..)

/-- Everything moves until nothing can. Shutdowns overlap if a task asks for one while one of the
    script's waits; those that are over by then wait no more. At rest a worker is idle, at a gate
    or gone: a script whose worker waits inside a call is stuck. -/
def settle (s : Session) : Session :=
  let world := s.world.settle { quantum := s.fuel } s.fuel
  let news := happenedSince (s.world.pools.map (·.trace.length)) world
  let asked := news.any fun (_, hs) => hs.any taskStops
  { s with
    world := world
    overlapped := s.overlapped || (asked && !s.waiting.isEmpty)
    stuck := s.stuck || world.pools.any (·.workers.any isInsideCall)
    waiting := s.waiting.filter fun c =>
      ((world.callers[c]?).bind Activity.answers?).isNone }

/-- The session after one step from outside, if the step can be taken. -/
def step (s : Session) (l : Label) : Session := { s with world := (s.world.step l).getD s.world }

/-- A new thread runs this program; then everything moves until nothing can. The thread's number
    comes with the session. -/
def call (s : Session) (p : Program) : Session × Nat :=
  ((s.step (.fork p)).settle, s.world.callers.length)

/-- The answers of a thread that has finished. -/
def answers? (s : Session) (caller : Nat) : Option (List Reply) :=
  (s.world.callers[caller]?).bind Activity.answers?

/-- The first answer of a thread. -/
def answer (s : Session) (caller : Nat) : Reply :=
  (((s.answers? caller).getD []).head?).getD .gone

/-! ## 4. Reports -/

/-- The events that no script is told of: they tell the order of threads, or are counted apart. -/
def isHidden : Event → Bool
  | .workerStarted _ | .workerStopped _ _ | .droppedAfterHalt _ _ | .workerCrashed _ => true
  | _ => false

/-- The events that tell which of several shutdowns joined the workers. -/
def tellsWhoJoined : Event → Bool
  | .gracefulComplete _ _ | .immediateComplete _ | .immediateAbandoned _ _ | .selfDetached _ => true
  | _ => false

/-- The fields that a script is told: with several workers not which of them it was. -/
def fieldsOf (unordered : Bool) (e : Event) : List (String × FieldValue) :=
  match e with
  | .spawnFailed _ _ => e.fields
  | _ => if unordered then e.fields.filter fun f => f.1 ≠ "worker" else e.fields

/-- The line for an event, if the script is told of it. -/
def eventLine? (s : Session) (e : Event) : Option EventLine :=
  if isHidden e || (s.overlapped && tellsWhoJoined e) then none
  else some ⟨e.level, e.message, fieldsOf s.subject.unordered e⟩

/-- The note of a happening, if it leaves one. -/
def noteOf? : Happening → Option Note
  | .note n => some n
  | .started _ label _ => some ⟨label, "run", none⟩
  | .dropped _ label => some ⟨label, "dropped", none⟩
  | _ => none

/-- The event of a happening, if it is one. -/
def eventOf? : Happening → Option Event
  | .event e => some e
  | _ => none

/-- With several workers in the pool, a thread's name does not tell which of them it was. -/
def maskName (p : Pool) (n : Note) : Note :=
  if n.about = "name" && 1 < p.size then { n with value := some (.text (p.namePrefix ++ "-*")) }
  else n

/-- What has happened to each pool since it was last told, oldest first. -/
def news (s : Session) : List (Pool × List Happening) := happenedSince s.told s.world

/-- What has happened outside every pool since it was last told. -/
def worldNews (s : Session) : List Happening :=
  (s.world.trace.take (s.world.trace.length - s.worldTold)).reverse

/-- The notes since it was last told. -/
def notes (s : Session) : List Note :=
  let inPools := s.news.flatMap fun (p, hs) => hs.filterMap fun h => (noteOf? h).map (maskName p)
  inPools ++ s.worldNews.filterMap noteOf?

/-- The events since it was last told. -/
def events (s : Session) : List EventLine :=
  let inPools := s.news.flatMap fun (_, hs) => hs.filterMap eventOf?
  (inPools ++ s.worldNews.filterMap eventOf?).filterMap s.eventLine?

/-- Everything is told. -/
def tell (s : Session) : Session :=
  { s with told := s.world.pools.map (·.trace.length), worldTold := s.world.trace.length }

/-- The figures of a pool, read gauge by gauge by a thread of its own. -/
def figuresOf (s : Session) (p : Pool) : Session × Figures :=
  let gauges := Gauge.stats ++ Gauge.ofWorkers p.workers.length ++ Gauge.counters
  let (s, caller) := s.call (.readAll p.id gauges fun o => .finish (o.map (·.2)))
  let o : Observation := gauges.zip ((s.answers? caller).getD [])
  let sum (gauge : Nat → Gauge) : Nat :=
    (List.range p.workers.length).foldl (fun n i => n + o.number (gauge i)) 0
  (s,
    { threads := o.number .threads, pending := o.number .pending, active := o.number .active,
      abandoned := o.number .abandoned, panicked := o.number .panicked,
      isShutdown := o.flag .isShutdown, executedByWorkers := sum .workerExecuted,
      panickedByWorkers := sum .workerPanicked,
      counters := [Metrics.Counter.submitted, .rejected, .executed, .panicked, .abandoned].map
        fun c => o.number (.metric c) })

/-- The figures of every pool. -/
def figures (s : Session) : Session × List Figures :=
  s.world.pools.foldl
    (fun (s, fs) p =>
      let (s, f) := s.figuresOf p
      (s, fs ++ [f]))
    (s, [])

end Session

end WorkerPool.PoolScript
