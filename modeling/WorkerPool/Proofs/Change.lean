import Mathlib.Logic.Relation
import WorkerPool.World

/-!
# What one step changes in a pool

A step of the world touches a pool in few ways: a worker moves, a thread inside a call moves, a
thread begins a call, a worker writes a note, a sleeper is woken, or the pool's memory is given
back. This file says so once; what holds of a pool in every reachable world is then proved change
by change.

* `Pool.WorkerMove` -- the moves of a worker, one by one, inside a task or outside;
* `Pool.CallMove` -- the moves of a thread inside a call, `Pool.Entry` -- how a call begins;
* `Pool.Change` -- all of it, seen from the pool;
* `workerStep_move`, `callStep_move` -- the steps of the machine are these moves;
* `WorkerMove.untouched`, `CallMove.frame` -- what the moves leave as it was;
* `reclaim_cases` -- when memory is given back, and what that does.
-/

namespace WorkerPool

/-- The stage at which a shutdown begins. -/
@[simp]
def Mode.entry : Mode → CallStage
  | .graceful => .swapping .asked
  | .immediate => .raising .asked

/-- Only the thread that makes the pool is at this stage, while it starts the workers. -/
def CallStage.isFounding : CallStage → Bool
  | .spawning _ _ | .opening => true
  | _ => false

attribute [simp] Purpose.afterwards Purpose.afterPanic WorkerStage.isFinished

theorem WorkerStage.isFinished_iff {s : WorkerStage} :
    s.isFinished = true ↔ ∃ crashed, s = .finished crashed := by
  cases s <;> simp

namespace Pool

-- what a step leaves in the trace or in the metrics is read off the pool that it leads to
attribute [simp] log emit throwAway measure countFor

/-! ## 1. Workers -/

/-- The stages of the workers, worker by worker. -/
def stages (p : Pool) : List WorkerStage := p.workers.map (·.stage)

theorem stages_getElem? {p : Pool} {i : Nat} {s : WorkerStage} :
    p.stages[i]? = some s ↔ ∃ worker, p.workers[i]? = some worker ∧ worker.stage = s := by
  simp [stages]

theorem stageOf?_eq (p : Pool) (i : Nat) : p.stageOf? i = p.stages[i]? := by
  simp [stageOf?, stages]

/-- The moves of worker `i` from a stage to a pool and a stage. -/
inductive WorkerMove (p : Pool) (i : Nat) : WorkerStage → Pool → WorkerStage → Prop where
  | starts : WorkerMove p i .starting (p.emit (.workerStarted i)) .checkingHalt
  | seesHalt (h : p.halt = true) : WorkerMove p i .checkingHalt p .stopping
  | seesNoHalt (h : p.halt = false) : WorkerMove p i .checkingHalt p .popping
  | pops (task : Task) (queue : Queue Task) (hs : i ∉ p.queue.sleeping)
      (hq : p.queue.attempt i = (queue, .item task)) :
      WorkerMove p i .popping ({ p with queue := queue }.log (.popped task.id i)) (.rechecking task)
  | findsNothing (queue : Queue Task) (hs : i ∉ p.queue.sleeping)
      (hq : p.queue.attempt i = (queue, .nothingMore)) :
      WorkerMove p i .popping { p with queue := queue } .stopping
  | sleeps (queue : Queue Task) (hs : i ∉ p.queue.sleeping)
      (hq : p.queue.attempt i = (queue, .sleep)) :
      WorkerMove p i .popping { p with queue := queue } .popping
  | popsTooLate (task : Task) (h : p.halt = true) :
      WorkerMove p i (.rechecking task) (p.emit (.droppedAfterHalt i task.id)) (.abandoning task)
  | popsInTime (task : Task) (h : p.halt = false) :
      WorkerMove p i (.rechecking task) p (.ready task)
  | abandons (task : Task) :
      WorkerMove p i (.abandoning task) { p with abandoned := p.abandoned + 1 } (.discarding task)
  | discards (task : Task) :
      WorkerMove p i (.discarding task) ((p.measure (·.recordAbandoned 1)).throwAway task)
        .stopping
  | begins (task : Task) (waited since : Nat) :
      WorkerMove p i (.ready task)
        ({ p with active := p.active + 1 }.log (.started task.id task.label i))
        (.running ⟨task.id, task.label, waited, since⟩ (.going task.work))
  | returns (job : Job) (answers : List Reply) :
      WorkerMove p i (.running job (.going (.finish answers))) (p.log (.ended job.id false))
        (.lowering job false)
  | panics (job : Job) (payload : Payload) :
      WorkerMove p i (.running job (.going (.panic payload))) (p.log (.ended job.id true))
        (.caught job payload)
  /-- The task goes on; what it does to pools is a change of its own. -/
  | goesOn (job : Job) (activity activity' : Activity) (h : activity.isOver = false) :
      WorkerMove p i (.running job activity) p (.running job activity')
  | crashes (job : Job) (payload inner : Payload) (h : payload.burst? = some inner) :
      WorkerMove p i (.caught job payload)
        ({ p with handler := p.handler.note }.countFor i fun w => { w with remains := some inner })
        (.leaving true)
  | catches (job : Job) (payload : Payload) (h : payload.burst? = none) :
      WorkerMove p i (.caught job payload) { p with handler := p.handler.note }
        (.reporting job payload.message)
  | reports (job : Job) (message : String) :
      WorkerMove p i (.reporting job message) (p.emit (p.handler.report job.id message))
        (.lowering job true)
  | lowersReturned (job : Job) (ran : Nat) :
      WorkerMove p i (.lowering job false) { p with active := p.active - 1 }
        (.recording .executed job ran)
  | lowersPanicked (job : Job) (ran : Nat) :
      WorkerMove p i (.lowering job true) { p with active := p.active - 1 }
        (.countingPanic job ran)
  | countsPanic (job : Job) (ran : Nat) :
      WorkerMove p i (.countingPanic job ran)
        (p.countFor i fun w => { w with panicked := w.panicked + 1 }) (.recordingPanic job ran)
  | recordsPanic (job : Job) (ran : Nat) :
      WorkerMove p i (.recordingPanic job ran) (p.measure (·.recordPanicked))
        (.recording .executed job ran)
  | records (part next : Metrics.Part) (job : Job) (ran : Nat) (h : part.next? = some next) :
      WorkerMove p i (.recording part job ran) (p.measure (·.recordPart i job.waited ran part))
        (.recording next job ran)
  | recordsLast (part : Metrics.Part) (job : Job) (ran : Nat) (h : part.next? = none) :
      WorkerMove p i (.recording part job ran) (p.measure (·.recordPart i job.waited ran part))
        .countingExecuted
  | countsExecuted :
      WorkerMove p i .countingExecuted
        (p.countFor i fun w => { w with executed := w.executed + 1 }) .checkingHalt
  | stops (executed : Nat) :
      WorkerMove p i .stopping (p.emit (.workerStopped i executed)) (.leaving false)
  | exits (crashed : Bool) :
      WorkerMove p i (.leaving crashed) { p with exited := p.exited + 1 } (.finished crashed)

/-- **Every step of a worker outside a task is one of the moves.** -/
theorem workerStep_move {p q : Pool} {i now : Nat} {s s' : WorkerStage}
    (h : p.workerStep i now s = some (q, s')) : WorkerMove p i s q s' := by
  cases s <;> simp only [workerStep] at h
  case checkingHalt =>
    cases hh : p.halt <;> rw [hh] at h <;> cases h
    · exact .seesNoHalt hh
    · exact .seesHalt hh
  case popping =>
    split at h
    · cases h
    · next hs =>
      split at h <;> cases h
      · next queue task hq => exact .pops task queue hs hq
      · next queue hq => exact .findsNothing queue hs hq
      · next queue hq => exact .sleeps queue hs hq
  case rechecking task =>
    split at h <;> cases h
    · next hh => exact .popsTooLate task hh
    · next hh => exact .popsInTime task (by simpa using hh)
  case caught job payload =>
    cases he : payload.burst? <;> rw [he] at h <;> cases h
    · exact .catches job payload he
    · next inner => exact .crashes job payload inner he
  case lowering job panicked =>
    cases panicked <;> cases h
    · exact .lowersReturned job _
    · exact .lowersPanicked job _
  case recording part job ran =>
    cases hn : part.next? <;> rw [hn] at h <;> cases h
    · exact .recordsLast part job ran hn
    · exact .records part _ job ran hn
  all_goals cases h
  all_goals constructor

/-- Two pools that differ at most in what workers share with callers. -/
structure Untouched (p q : Pool) : Prop where
  id : q.id = p.id
  life : q.life = p.life
  draining : q.draining = p.draining
  halt : q.halt = p.halt
  handles : q.handles = p.handles
  calls : q.calls = p.calls
  stages : q.stages = p.stages

theorem map_modify {α β : Type} {f : α → β} {g : α → α} (h : ∀ a, f (g a) = f a) (l : List α)
    (i : Nat) : (l.modify i g).map f = l.map f := by
  refine List.ext_getElem? fun j => ?_
  simp only [List.getElem?_map, List.getElem?_modify]
  by_cases hij : i = j
  · cases l[j]? <;> simp [hij, h]
  · simp [hij]

theorem stages_countFor (p : Pool) (i : Nat) {f : Worker → Worker}
    (hf : ∀ w, (f w).stage = w.stage) : (p.countFor i f).stages = p.stages :=
  map_modify hf p.workers i

theorem burst?_setStage (p : Pool) (i : Nat) (s : WorkerStage) (j : Nat) :
    (p.setStage i s).burst? j = p.burst? j := by
  by_cases hj : i = j
  · subst hj
    cases hw : p.workers[i]? <;> simp [burst?, setStage, hw]
  · simp [burst?, setStage, hj]

/-- **A worker's move touches no flag, no call and no other worker's stage.** -/
theorem WorkerMove.untouched {p q : Pool} {i : Nat} {s s' : WorkerStage}
    (h : WorkerMove p i s q s') : Untouched p q := by
  cases h with
  | crashes | countsPanic | countsExecuted =>
      exact ⟨rfl, rfl, rfl, rfl, rfl, rfl, stages_countFor _ i fun _ => rfl⟩
  | _ => exact ⟨rfl, rfl, rfl, rfl, rfl, rfl, rfl⟩

/-! ## 2. Calls -/

/-- The moves of `thread` inside a call from a stage to a pool and to what the call comes to. -/
inductive CallMove (p : Pool) (thread : ThreadId) : CallStage → Pool → CallStep → Prop where
  | spawns (next : Nat) (refusal : Nat → Option SystemError) (hn : next < p.size)
      (hr : refusal next = none) :
      CallMove p thread (.spawning next refusal)
        { p.log (.spawnTried next) with
          workers := p.workers ++ [{}], handles := p.handles ++ [next] }
        (.stage (.spawning (next + 1) refusal))
  | spawnFails (next : Nat) (refusal : Nat → Option SystemError) (cause : SystemError)
      (hn : next < p.size) (hr : refusal next = some cause) :
      CallMove p thread (.spawning next refusal)
        ((p.log (.spawnTried next)).emit (.spawnFailed next cause.message))
        (.stage (.raising (.startFailed next cause)))
  | spawned (next : Nat) (refusal : Nat → Option SystemError) (hn : p.size ≤ next) :
      CallMove p thread (.spawning next refusal) p (.stage .opening)
  | opens :
      CallMove p thread .opening { p.emit (.poolStarted p.size) with life := .serving }
        (.reply (.pool p.id))
  | mayPush (task : Task) (h : p.draining = false) :
      CallMove p thread (.checking task) p (.stage (.pushing task))
  | mayNotPush (task : Task) (h : p.draining = true) :
      CallMove p thread (.checking task) p (.stage (.refusing task.id (some task)))
  | pushes (task : Task) (choice : Nat) (h : p.queue.accepting = true) :
      CallMove p thread (.pushing task)
        ({ p with queue := (p.queue.push task choice).1 }.log (.accepted task.id))
        (.stage .admitted)
  | pushesTooLate (task : Task) (h : p.queue.accepting = false) :
      CallMove p thread (.pushing task) (p.throwAway task) (.stage (.refusing task.id none))
  | countsSubmitted :
      CallMove p thread .admitted (p.measure (·.recordSubmitted)) (.reply (.flag true))
  | refuses (id : TaskId) (kept : Option Task) :
      CallMove p thread (.refusing id kept) (p.emit (.submitRefused id))
        (.stage (.rejecting id kept))
  | countsRejected (id : TaskId) :
      CallMove p thread (.rejecting id none) ((p.measure (·.recordRejected)).log (.refused id))
        (.reply (.flag false))
  | countsRejectedKept (id : TaskId) (task : Task) :
      CallMove p thread (.rejecting id (some task))
        (((p.measure (·.recordRejected)).log (.refused id)).throwAway task) (.reply (.flag false))
  | findsDraining (why : Purpose) (h : p.draining = true) :
      CallMove p thread (.swapping why) (p.emit .alreadyShutDown) why.afterwards
  | swaps (why : Purpose) (h : p.draining = false) :
      CallMove p thread (.swapping why)
        ({ p with draining := true }.log (.called thread .graceful))
        (.stage (.announcing .graceful why))
  | raises (why : Purpose) :
      CallMove p thread (.raising why)
        ({ p with draining := true }.log (.called thread .immediate)) (.stage (.halting why))
  | halts (why : Purpose) :
      CallMove p thread (.halting why) ({ p with halt := true }.log .halted)
        (.stage (.announcing .immediate why))
  | announces (mode : Mode) (why : Purpose) (e : Event) :
      CallMove p thread (.announcing mode why) (p.emit e) (.stage (.closing mode why))
  | closes (mode : Mode) (why : Purpose) :
      CallMove p thread (.closing mode why) { p with queue := p.queue.close }
        (.stage (.taking mode why))
  | takes (mode : Mode) (why : Purpose) :
      CallMove p thread (.taking mode why)
        ({ p with handles := [] }.log (.handlesTaken thread p.handles))
        (.stage (.joining mode why p.handles 0))
  | detaches (mode : Mode) (why : Purpose) (first : Nat) (left : List Nat) (joined : Nat)
      (h : thread = .worker p.id first) :
      CallMove p thread (.joining mode why (first :: left) joined)
        ((p.emit (.selfDetached first)).log (.detached thread first))
        (.stage (.joining mode why left joined))
  | joins (mode : Mode) (why : Purpose) (first : Nat) (left : List Nat) (joined : Nat)
      (ht : thread ≠ .worker p.id first) (hs : p.stageOf? first = some (.finished false)) :
      CallMove p thread (.joining mode why (first :: left) joined)
        (p.log (.joined thread first false)) (.stage (.joining mode why left (joined + 1)))
  | joinsCrashed (mode : Mode) (why : Purpose) (first : Nat) (left : List Nat) (joined : Nat)
      (ht : thread ≠ .worker p.id first) (hs : p.stageOf? first = some (.finished true))
      (hb : p.burst? first = none) :
      CallMove p thread (.joining mode why (first :: left) joined)
        ((p.emit (.workerCrashed first)).log (.joined thread first true))
        (.stage (.joining mode why left joined))
  /-- What the dead worker has left behind explodes. -/
  | joinsBurst (mode : Mode) (why : Purpose) (first : Nat) (left : List Nat) (joined : Nat)
      (payload : Payload) (ht : thread ≠ .worker p.id first)
      (hs : p.stageOf? first = some (.finished true)) (hb : p.burst? first = some payload) :
      CallMove p thread (.joining mode why (first :: left) joined)
        ((p.emit (.workerCrashed first)).log (.joined thread first true))
        (.stage (.unwinding why left joined payload))
  | forsakes (why : Purpose) (first : Nat) (left : List Nat) (joined : Nat) (payload : Payload) :
      CallMove p thread (.unwinding why (first :: left) joined payload)
        (p.log (.forsaken thread first)) (.stage (.unwinding why left joined payload))
  | breaksOff (why : Purpose) (joined : Nat) (payload : Payload) :
      CallMove p thread (.unwinding why [] joined payload) (p.log (.brokenOff thread joined))
        (why.afterPanic payload)
  | waits (why : Purpose) (joined : Nat)
      (h : p.owns thread = true ∨ p.workers.length ≤ p.exited) :
      CallMove p thread (.joining .graceful why [] joined) p (.stage (.concluding why joined))
  | waitsToEmpty (why : Purpose) (joined : Nat)
      (h : p.owns thread = true ∨ p.workers.length ≤ p.exited) :
      CallMove p thread (.joining .immediate why [] joined) p (.stage (.emptying why joined))
  | concludes (why : Purpose) (joined : Nat) :
      CallMove p thread (.concluding why joined)
        ((p.emit (.gracefulComplete joined p.queue.length)).log (.returned thread .graceful joined))
        why.afterwards
  | findsEmpty (why : Purpose) (joined : Nat) (h : p.queue.items = []) :
      CallMove p thread (.emptying why joined)
        ({ p with queue := p.queue.drain.1 }.log (.removed [])) (.stage (.reporting why joined))
  | empties (why : Purpose) (joined : Nat) (h : p.queue.items ≠ []) :
      CallMove p thread (.emptying why joined)
        ({ p with queue := p.queue.drain.1 }.log (.removed (p.queue.items.map Task.id)))
        (.stage (.tallying why joined p.queue.items))
  | tallies (why : Purpose) (joined : Nat) (removed : List Task) :
      CallMove p thread (.tallying why joined removed)
        { p with abandoned := p.abandoned + UInt64.ofNat removed.length }
        (.stage (.recording why joined removed))
  | records (why : Purpose) (joined : Nat) (removed : List Task) :
      CallMove p thread (.recording why joined removed)
        (p.measure (·.recordAbandoned removed.length)) (.stage (.discarding why joined removed))
  | discards (why : Purpose) (joined : Nat) (task : Task) (rest : List Task) :
      CallMove p thread (.discarding why joined (task :: rest)) (p.throwAway task)
        (.stage (.discarding why joined rest))
  | discardsLast (why : Purpose) (joined : Nat) :
      CallMove p thread (.discarding why joined []) p (.stage (.reporting why joined))
  | reports (why : Purpose) (joined : Nat) (e : Event) :
      CallMove p thread (.reporting why joined)
        ((p.emit e).log (.returned thread .immediate joined)) why.afterwards
  | findsShut (outcome : Reply) (h : p.draining = true) :
      CallMove p thread (.dropping outcome) p (.stage (.releasing outcome))
  | shutsFirst (outcome : Reply) (h : p.draining = false) :
      CallMove p thread (.dropping outcome) (p.emit .droppedUnshut) (.stage (.swapping .givingUp))
  | releases (outcome : Reply) :
      CallMove p thread (.releasing outcome) { p with life := .released } (.reply outcome)

/-- **Every step of a call is one of the moves.** -/
theorem callStep_move {p q : Pool} {thread : ThreadId} {choice : Nat} {s : CallStage}
    {next : CallStep} (h : p.callStep thread choice s = some (q, next)) :
    CallMove p thread s q next := by
  cases s
  case spawning n refusal =>
    simp only [callStep] at h
    split at h
    · next hn =>
      split at h <;> cases h
      · next hr => exact .spawns n refusal hn hr
      · next cause hr => exact .spawnFails n refusal cause hn hr
    · next hn =>
      cases h
      exact .spawned n refusal (Nat.le_of_not_lt hn)
  case checking task =>
    cases hd : p.draining <;> simp only [callStep, hd] at h <;> cases h
    · exact .mayPush task hd
    · exact .mayNotPush task hd
  case pushing task =>
    simp only [callStep] at h
    cases ha : p.queue.accepting with
    | false =>
        rw [Queue.push_of_closed ha] at h
        cases h
        exact .pushesTooLate task ha
    | true =>
        have hp := (Queue.push_of_accepting ha task choice).2
        split at h
        · next q' hq =>
          cases h
          rw [show q' = (p.queue.push task choice).1 by rw [hq]]
          exact .pushes task choice ha
        · next q' hq =>
          rw [hq] at hp
          cases hp
  case rejecting id kept =>
    cases kept <;> cases h
    · exact .countsRejected id
    · next task => exact .countsRejectedKept id task
  case swapping why =>
    simp only [callStep] at h
    split at h <;> cases h
    · next hd => exact .findsDraining why hd
    · next hd => exact .swaps why (by simpa using hd)
  case joining mode why left joined =>
    cases left with
    | nil =>
        simp only [callStep] at h
        split at h
        · next hw =>
          have hw' : p.owns thread = true ∨ p.workers.length ≤ p.exited := by simpa using hw
          cases mode <;> cases h
          · exact .waits why joined hw'
          · exact .waitsToEmpty why joined hw'
        · cases h
    | cons first left =>
        simp only [callStep, joinStep] at h
        split at h
        · next ht =>
          cases h
          exact .detaches mode why first left joined ht
        · next ht =>
          split at h <;> cases h
          · next hs => exact .joins mode why first left joined ht hs
          · next hs =>
            cases hb : p.burst? first with
            | none => exact .joinsCrashed mode why first left joined ht hs hb
            | some payload => exact .joinsBurst mode why first left joined payload ht hs hb
  case unwinding why left joined payload =>
    cases left <;> cases h
    · exact .breaksOff why joined payload
    · next first left => exact .forsakes why first left joined payload
  case emptying why joined =>
    cases hi : p.queue.items with
    | nil =>
        simp only [callStep, hi] at h
        cases h
        exact .findsEmpty why joined hi
    | cons task rest =>
        have hne : p.queue.items ≠ [] := by simp [hi]
        have : CallMove p thread (.emptying why joined) _ _ := .empties why joined hne
        simp only [callStep, hi] at h
        cases h
        rwa [hi] at this
  case discarding why joined removed =>
    cases removed <;> cases h
    · exact .discardsLast why joined
    · next task rest => exact .discards why joined task rest
  case dropping outcome =>
    simp only [callStep] at h
    split at h <;> cases h
    · next hd => exact .findsShut outcome hd
    · next hd => exact .shutsFirst outcome (by simpa using hd)
  all_goals cases h
  all_goals constructor

/-- **A call's move touches no other call and no worker's stage**; only while the workers are
    being started it may add one. -/
theorem CallMove.frame {p q : Pool} {thread : ThreadId} {s : CallStage} {next : CallStep}
    (h : CallMove p thread s q next) :
    q.id = p.id ∧ q.calls = p.calls ∧
      (q.stages = p.stages ∨ s.isFounding = true ∧ q.stages = p.stages ++ [.starting]) := by
  cases h with
  | spawns => exact ⟨rfl, rfl, .inr ⟨rfl, by simp [stages]⟩⟩
  | _ => exact ⟨rfl, rfl, .inl rfl⟩

/-! ## 3. Changes -/

/-- How a call on a pool that takes calls begins: the pool and the first stage. -/
inductive Entry (p : Pool) : Pool → CallStage → Prop where
  /-- A thread comes with a task that nobody has brought before. -/
  | offers (task : Task) (hf : .offered task.id ∉ p.trace) :
      Entry p (p.log (.offered task.id)) (.checking task)
  | asks (mode : Mode) : Entry p p mode.entry
  | givesUp (hc : p.calls = []) : Entry p { p with life := .ending } (.dropping .done)

/-- The threads inside a call on the pool. -/
def callers (p : Pool) : List ThreadId := p.calls.map Prod.fst

/-- The pool after a move of the call of `thread` has led to this. -/
def follow (p : Pool) (thread : ThreadId) : CallStep → Pool
  | .stage s => p.setCall thread s
  | .reply _ => p.leave thread

/-- What a step of the world can do to a pool. A step of a task on its own pool is two changes,
    one of the call and one of the worker. -/
inductive Change (p : Pool) : Pool → Prop where
  | work {i : Nat} {worker : Worker} {q : Pool} {s : WorkerStage}
      (hw : p.workers[i]? = some worker) (h : WorkerMove p i worker.stage q s) :
      Change p (q.setStage i s)
  | call {thread : ThreadId} {s : CallStage} {q : Pool} {next : CallStep}
      (hl : p.calls.lookup thread = some s) (h : CallMove p thread s q next) :
      Change p (q.follow thread next)
  | enter {thread : ThreadId} {q : Pool} {s : CallStage} (hs : p.life = .serving)
      (ht : thread ∉ p.callers) (h : Entry p q s) : Change p (q.enter thread s)
  | note (n : Note) : Change p (p.log (.note n))
  | wake (i : Nat) : Change p { p with queue := p.queue.wake i }
  | reclaim {q : Pool} (h : p.reclaim = some q) : Change p q

/-- A pool that has just been made, with the thread that makes it about to start its workers. -/
def Fresh (p : Pool) : Prop :=
  ∃ (id : PoolId) (config : Config) (cpus : UInt64) (telemetry : Bool) (now : Nat)
    (thread : ThreadId) (refusal : Nat → Option SystemError),
    p = (ofConfig id config cpus telemetry now).enter thread (.spawning 0 refusal)

@[simp] theorem callers_setCall (p : Pool) (thread : ThreadId) (s : CallStage) :
    (p.setCall thread s).callers = p.callers := by
  simp only [callers, setCall, List.map_map]
  refine List.map_congr_left fun c _ => ?_
  by_cases hc : c.1 = thread <;> simp [hc]

@[simp] theorem callers_leave (p : Pool) (thread : ThreadId) :
    (p.leave thread).callers = p.callers.filter (· ≠ thread) := by
  simp only [callers, leave, List.filter_map]
  rfl

@[simp] theorem callers_enter (p : Pool) (thread : ThreadId) (s : CallStage) :
    (p.enter thread s).callers = thread :: p.callers := rfl

theorem callers_follow_sublist (p : Pool) (thread : ThreadId) (next : CallStep) :
    (p.follow thread next).callers.Sublist p.callers := by
  cases next with
  | stage s => simp [follow]
  | reply r => simp [follow]

section Follow

/-! A call that goes on or leaves changes the list of the calls alone. -/

variable (p : Pool) (thread : ThreadId) (next : CallStep)

@[simp] theorem id_follow : (p.follow thread next).id = p.id := by cases next <;> rfl

@[simp] theorem size_follow : (p.follow thread next).size = p.size := by cases next <;> rfl

@[simp] theorem life_follow : (p.follow thread next).life = p.life := by cases next <;> rfl

@[simp] theorem queue_follow : (p.follow thread next).queue = p.queue := by cases next <;> rfl

@[simp] theorem workers_follow : (p.follow thread next).workers = p.workers := by
  cases next <;> rfl

@[simp] theorem stages_follow : (p.follow thread next).stages = p.stages := by
  cases next <;> rfl

@[simp] theorem handles_follow : (p.follow thread next).handles = p.handles := by
  cases next <;> rfl

@[simp] theorem trace_follow : (p.follow thread next).trace = p.trace := by cases next <;> rfl

end Follow

/-! ## 4. Giving memory back -/

theorem foldl_throwAway (p : Pool) (tasks : List Task) :
    tasks.foldl throwAway p =
      { p with trace := (tasks.map fun t => .dropped t.id t.label).reverse ++ p.trace } := by
  induction tasks generalizing p with
  | nil => rfl
  | cons task rest ih =>
      rw [List.foldl_cons, ih]
      simp

/-- Memory is given back when nobody holds the pool and every worker's thread has ended; what the
    queue still held is thrown away. -/
theorem reclaim_cases {p q : Pool} (h : p.reclaim = some q) :
    p.life = .released ∧ (∀ worker ∈ p.workers, worker.stage.isFinished = true) ∧
      q = { p with
        queue := p.queue.drain.1
        trace := (p.queue.items.map fun t => .dropped t.id t.label).reverse ++ p.trace } := by
  unfold reclaim at h
  split at h
  · next hc =>
    cases h
    exact ⟨hc.1, List.all_eq_true.mp hc.2.1, foldl_throwAway _ _⟩
  · cases h

/-! ## 5. Offered tasks -/

theorem WorkerMove.offered_iff {p q : Pool} {i : Nat} {s s' : WorkerStage}
    (h : WorkerMove p i s q s') (t : TaskId) : .offered t ∈ q.trace ↔ .offered t ∈ p.trace := by
  cases h <;> simp

theorem CallMove.offered_iff {p q : Pool} {thread : ThreadId} {s : CallStage} {next : CallStep}
    (h : CallMove p thread s q next) (t : TaskId) :
    .offered t ∈ q.trace ↔ .offered t ∈ p.trace := by
  cases h <;> simp

end Pool

end WorkerPool
