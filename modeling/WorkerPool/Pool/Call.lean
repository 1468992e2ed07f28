import WorkerPool.Pool.Basic

/-!
# The steps of a call

Submitting a task looks at the draining flag first and at the queue second; the queue has the last
word. Both shutdowns raise the draining flag, close the queue, take the handles of the workers,
join them, and wait until every worker has exited; a worker of the pool waits for nobody but those
it joins. What a dead worker has left behind is thrown away when it is joined; if that panics, the
shutdown ends there and then, and the handles that are left are let go. The immediate one raises the
halt flag before and throws away afterwards what is still queued. Making a pool asks for one thread
after the other; the first refusal shuts the half-made pool down at once.

* `Pool.callStep` -- the next step of a thread inside a call on the pool.
-/

namespace WorkerPool

/-- What a step of a call leads to. -/
inductive CallStep where
  | stage (s : CallStage)
  /-- The call is over. -/
  | reply (r : Reply)

/-- What follows a shutdown. -/
def Purpose.afterwards : Purpose → CallStep
  | .asked => .reply .done
  | .givingUp => .stage (.releasing .done)
  | .startFailed worker cause => .stage (.dropping (.failed (.spawn worker cause)))

/-- What follows a shutdown that a panic has ended. -/
def Purpose.afterPanic (payload : Payload) : Purpose → CallStep
  | .asked => .reply (.unwound payload)
  | .givingUp => .stage (.releasing (.unwound payload))
  | .startFailed _ _ => .stage (.dropping (.unwound payload))

namespace Pool

/-- The stage of a worker's thread. -/
def stageOf? (p : Pool) (i : Nat) : Option WorkerStage := (p.workers[i]?).map (·.stage)

/-- What throwing away what worker `i` has left behind panics with, if it does. -/
def burst? (p : Pool) (i : Nat) : Option Payload :=
  (p.workers[i]?).bind fun w => w.remains.bind Payload.burst?

/-- The step of `thread` that joins the worker of the first handle left: its own worker it lets go,
    any other it waits for. What a dead worker has left behind is thrown away after the report. -/
def joinStep (p : Pool) (thread : ThreadId) (mode : Mode) (why : Purpose) (first : Nat)
    (left : List Nat) (joined : Nat) : Option (Pool × CallStep) :=
  if thread = .worker p.id first then
    some ((p.emit (.selfDetached first)).log (.detached thread first),
      .stage (.joining mode why left joined))
  else
    match p.stageOf? first with
    | some (.finished false) =>
      some (p.log (.joined thread first false), .stage (.joining mode why left (joined + 1)))
    | some (.finished true) =>
      some ((p.emit (.workerCrashed first)).log (.joined thread first true),
        .stage (match p.burst? first with
          | none => .joining mode why left joined
          | some payload => .unwinding why left joined payload))
    | _ => none

/-- The next step of `thread` inside a call, from this stage. `choice` is the sleeper that a push
    wakes, if it sleeps. A thread that has to wait has no step. -/
def callStep (p : Pool) (thread : ThreadId) (choice : Nat) : CallStage → Option (Pool × CallStep)
  | .spawning next refusal =>
    if next < p.size then
      match refusal next with
      | none =>
        some ({ p.log (.spawnTried next) with
            workers := p.workers ++ [{}], handles := p.handles ++ [next] },
          .stage (.spawning (next + 1) refusal))
      | some cause =>
        some ((p.log (.spawnTried next)).emit (.spawnFailed next cause.message),
          .stage (.raising (.startFailed next cause)))
    else some (p, .stage .opening)
  | .opening => some ({ p.emit (.poolStarted p.size) with life := .serving }, .reply (.pool p.id))
  | .checking task =>
    some (p, .stage (if p.draining then .refusing task.id (some task) else .pushing task))
  | .pushing task =>
    match p.queue.push task choice with
    | (q, true) => some ({ p with queue := q }.log (.accepted task.id), .stage .admitted)
    | (q, false) =>
      some ({ p with queue := q }.throwAway task, .stage (.refusing task.id none))
  | .admitted => some (p.measure (·.recordSubmitted), .reply (.flag true))
  | .refusing id kept => some (p.emit (.submitRefused id), .stage (.rejecting id kept))
  | .rejecting id kept =>
    let counted := (p.measure (·.recordRejected)).log (.refused id)
    some (match kept with
      | none => counted
      | some task => counted.throwAway task, .reply (.flag false))
  | .swapping why =>
    if p.draining then some (p.emit .alreadyShutDown, why.afterwards)
    else
      some ({ p with draining := true }.log (.called thread .graceful),
        .stage (.announcing .graceful why))
  | .raising why =>
    some ({ p with draining := true }.log (.called thread .immediate), .stage (.halting why))
  | .halting why =>
    some ({ p with halt := true }.log .halted, .stage (.announcing .immediate why))
  | .announcing mode why =>
    some (p.emit (match mode with
      | .graceful => .gracefulInitiated p.queue.length
      | .immediate => .immediateInitiated), .stage (.closing mode why))
  | .closing mode why => some ({ p with queue := p.queue.close }, .stage (.taking mode why))
  | .taking mode why =>
    some ({ p with handles := [] }.log (.handlesTaken thread p.handles),
      .stage (.joining mode why p.handles 0))
  | .joining mode why (first :: left) joined => p.joinStep thread mode why first left joined
  | .joining mode why [] joined =>
    if p.owns thread || decide (p.workers.length ≤ p.exited) then
      some (p, .stage (match mode with
        | .graceful => .concluding why joined
        | .immediate => .emptying why joined))
    else none
  | .unwinding why (first :: left) joined payload =>
    some (p.log (.forsaken thread first), .stage (.unwinding why left joined payload))
  | .unwinding why [] joined payload =>
    some (p.log (.brokenOff thread joined), why.afterPanic payload)
  | .concluding why joined =>
    some
      ((p.emit (.gracefulComplete joined p.queue.length)).log (.returned thread .graceful joined),
        why.afterwards)
  | .emptying why joined =>
    some ({ p with queue := p.queue.drain.1 }.log (.removed (p.queue.items.map Task.id)),
      .stage (match p.queue.items with
        | [] => .reporting why joined
        | _ => .tallying why joined p.queue.items))
  | .tallying why joined removed =>
    some ({ p with abandoned := p.abandoned + UInt64.ofNat removed.length },
      .stage (.recording why joined removed))
  | .recording why joined removed =>
    some (p.measure (·.recordAbandoned removed.length), .stage (.discarding why joined removed))
  | .discarding why joined (task :: rest) =>
    some (p.throwAway task, .stage (.discarding why joined rest))
  | .discarding why joined [] => some (p, .stage (.reporting why joined))
  | .reporting why joined =>
    let report : Event :=
      if p.abandoned = 0 then .immediateComplete joined
      else .immediateAbandoned joined p.abandoned.toNat
    some ((p.emit report).log (.returned thread .immediate joined), why.afterwards)
  | .dropping outcome =>
    if p.draining then some (p, .stage (.releasing outcome))
    else some (p.emit .droppedUnshut, .stage (.swapping .givingUp))
  | .releasing outcome => some ({ p with life := .released }, .reply outcome)

end Pool

end WorkerPool
