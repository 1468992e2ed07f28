import WorkerPool.Script.Session

/-!
# Scripts on a pool or a pair of pools

A script makes a pool or a pair, acts on it step by step, and gives it up in the end.

* `PoolScript.run` -- the report of a whole script;
* `Session.take` -- one step of it;
* `Session.finish` -- opening the gates and giving the pools up.

A shutdown that waits for a task at a gate goes on by itself once the gate is open. Where several
shutdowns overlap, it depends on the order of threads which of them joins the workers, so from then
on the reports leave out what tells them apart.
-/

namespace WorkerPool.PoolScript

namespace Session

/-! ## 1. Steps -/

/-- Submits these programs one after the other and ends with the replies. -/
def submitAll (on : PoolId) (replies : List Reply) : List TaskSpec → Program
  | [] => .finish replies
  | t :: rest =>
    .submit on t.label (t.plan.program t.label on) fun r => submitAll on (replies ++ [r]) rest

/-- Runs a shutdown on a thread of its own: it is done, or it waits. -/
def shutDown (s : Session) (mode : Mode) (p : Program) : Session × Answer :=
  let others := !s.waiting.isEmpty
  let s := { s with overlapped := s.overlapped || (others && decide (mode = Mode.immediate)) }
  let (s, caller) := s.call p
  match s.answers? caller with
  | some _ => (s, .reply .done)
  | none =>
    ({ s with waiting := s.waiting ++ [caller], overlapped := s.overlapped || others }, .waiting)

/-- What the subject shows of itself. -/
def describe (s : Session) : List String :=
  match s.subject, s.world.pools with
  | .pair config, cpu :: db :: _ =>
    [(PoolPair.describe cpu.description db.description config).inline, config.description.inline]
  | _, p :: _ => [p.description.inline, p.description.indented, p.stats.description.inline]
  | _, [] => []

/-- One step of the script; what it returns comes with the session. -/
def take (s : Session) : Step → Session × Answer
  | .submit on t =>
    let (s, caller) := s.call (submitAll on [] [t])
    (s, .reply (s.answer caller))
  | .batch on ts =>
    let (s, caller) := s.call (submitAll on [] ts)
    (s, .replies ((s.answers? caller).getD []))
  | .repeated on count t =>
    let (s, caller) := s.call (submitAll on [] (List.replicate count t))
    (s, .number (((s.answers? caller).getD []).count (.flag true)))
  | .make on t =>
    let (s, caller) := s.call (.make t.label (t.plan.program t.label on) fun r => .finish [r])
    let r := s.answer caller
    let slot := match r with
      | .task id => some id
      | _ => none
    ({ s with slots := s.slots ++ [(on, slot)] }, .reply r)
  | .submitMade i =>
    match s.slots[i]? with
    | some (on, some id) =>
      let s := { s with slots := s.slots.set i (on, none) }
      let (s, caller) := s.call (.call (.submitHeld on id) fun r => .finish [r])
      (s, .reply (s.answer caller))
    | _ => (s, .reply .gone)
  | .openGates names => ((names.foldl (fun s g => s.step (.openGate g)) s).settle, .nothing)
  | .shutdown on mode => s.shutDown mode (.call (.shutdown on mode) (.uncaught fun _ => .finish []))
  | .shutdownAll mode => s.shutDown mode (PoolPair.shutdown ⟨0, 1⟩ mode (.finish []))
  | .isShutdown =>
    let (s, caller) := s.call (match s.subject with
      | .pool _ => .call (.read 0 .isShutdown) fun r => .finish [r]
      | .pair _ => PoolPair.isShutdown ⟨0, 1⟩ fun r => .finish [r])
    (s, .reply (s.answer caller))
  | .describe => (s, .texts s.describe)
  | .showConfig =>
    (s, match s.subject with
      | .pool c => .configs [c]
      | .pair c => .configs [c.cpu, c.db])

/-- The report of one step. -/
def report (s : Session) (step : Step) : Session × Report :=
  let (s, answer) := s.take step
  let notes := s.notes
  let events := s.events
  let (s, figures) := s.tell.figures
  (s.tell, { answer, notes, events, figures })

/-- The reports of these steps. -/
def reports (s : Session) : List Step → Session × List Report
  | [] => (s, [])
  | step :: rest =>
    let (s, r) := s.report step
    let (s, rs) := s.reports rest
    (s, r :: rs)

/-! ## 2. The end -/

/-- The gate at which a worker's task waits. -/
def gateOf? (w : Worker) : Option String :=
  match w.stage with
  | .running _ (.going (.call (.gate name) _)) => some name
  | _ => none

/-- The gates at which tasks of a pool wait. -/
def heldBy (s : Session) (id : PoolId) : List String :=
  ((s.world.pools[id]?).map fun p => p.workers.filterMap gateOf?).getD []

/-- Opens these gates. -/
def openAll (s : Session) (names : List String) : Session :=
  names.foldl (fun s g => s.step (.openGate g)) s

/-- Opens the gates at which tasks of a pool wait until none does. -/
def openFor (id : PoolId) : Nat → Session → Session
  | 0, s => s
  | n + 1, s =>
    match s.heldBy id with
    | [] => s
    | names => openFor id n (s.openAll names).settle

/-- The program that gives everything up. -/
def giveUp (s : Session) : Program :=
  match s.subject with
  | .pool _ => .call (.drop 0) (.uncaught fun _ => .finish [])
  | .pair _ => PoolPair.giveUp ⟨0, 1⟩ (.finish [])

/-- A single pool that takes tasks and has one waiting at a gate. -/
def isHeldOpen (s : Session) : Bool :=
  match s.subject, s.world.pools with
  | .pool _, p :: _ => !p.draining && !(s.heldBy p.id).isEmpty
  | _, _ => false

/-- Gives the pools up. A single pool that a task at a gate still holds up is given up first, and
    the gates are opened when that has begun; otherwise the gates come first. The figures are those
    from just before. -/
def abandonPools (s : Session) : Session × List Figures :=
  if s.isHeldOpen then
    let (s, figures) := s.figures
    let caller := s.world.callers.length
    let s := s.step (.fork s.giveUp)
    let s := { s with world := (s.world.turn (.caller caller) 0 s.fuel).1 }
    ((s.openAll s.gates).settle, figures)
  else
    let s :=
      match s.subject with
      | .pool _ => s
      | .pair _ => openFor 1 s.fuel (openFor 0 s.fuel s)
    let s := (s.openAll s.gates).settle
    let (s, figures) := s.figures
    ((s.call s.giveUp).1, figures)

/-- Throws the tasks away that were made and never submitted. -/
def discardSlots (s : Session) : Session :=
  s.slots.foldl
    (fun s slot =>
      match slot.2 with
      | none => s
      | some id => (s.call (.call (.dropHeld id) fun _ => .finish [])).1)
    s

/-- How many workers left their loop by themselves. -/
def stopped (s : Session) : Nat :=
  (s.world.pools.flatMap (·.workers)).countP fun w => w.stage matches .finished false

/-- How many dead workers were found. -/
def crashed (s : Session) : Nat :=
  (s.world.pools.flatMap (·.trace)).countP fun h => h matches .event (.workerCrashed _)

/-- The end of the script. -/
def finish (s : Session) : Session × Ending :=
  let (s, figures) := s.abandonPools
  let s := s.discardSlots
  (s,
    { figures := figures, notes := s.notes, events := s.events, stopped := s.stopped,
      crashed := if s.overlapped then none else some s.crashed })

/-- The program that makes the subject. -/
def create : Subject → Program
  | .pool c => .call (.start c) fun r => .finish [r]
  | .pair c =>
    PoolPair.new c fun
      | .ok pair => .finish [.pool pair.cpu, .pool pair.db]
      | .error e => .finish [.failed e]

end Session

/-! ## 3. Whole scripts -/

/-- The gates of a step. -/
def Step.gates : Step → List String
  | .submit _ t | .repeated _ _ t | .make _ t => t.plan.gates
  | .batch _ ts => ts.flatMap (·.plan.gates)
  | .openGates names => names
  | _ => []

/-- How much a step can set going at most. -/
def Step.weight : Step → Nat
  | .submit _ t | .make _ t => t.plan.weight
  | .repeated _ count t => count * t.plan.weight
  | .batch _ ts => ts.foldl (· + ·.plan.weight) 0
  | _ => 1

/-- More steps than the script can take: each action of a plan takes a few dozen at most, and so
    does each worker apart from its tasks. -/
def fuelFor (subject : Subject) (steps : List Step) : Nat :=
  64 * (steps.foldl (· + ·.weight + 1) 0 + subject.workers + 4)

/-- Runs a script. -/
def run (subject : Subject) (telemetry : Bool) (steps : List Step) : Outcome :=
  let s : Session :=
    { subject := subject, world := .initial telemetry host, fuel := fuelFor subject steps,
      gates := steps.flatMap Step.gates }
  let (s, caller) := s.call (Session.create subject)
  match s.answer caller with
  | .failed e => .refused e s.events
  | _ =>
    let events := s.events
    let (s, figures) := s.tell.figures
    let (s, reports) := s.tell.reports steps
    let (s, ending) := s.finish
    if s.stuck then .stuck else .ran figures events reports ending

end WorkerPool.PoolScript
