import WorkerPool.Pool.Basic

/-!
# The steps of a worker

A worker looks whether the pool is halted, waits for a task, looks again, runs the task and counts
it, and begins anew. A panic inside a task is caught, counted and reported, and the worker goes on
as after any other task; only a payload that explodes drives the worker out of its loop, and what it
explodes with is what the thread ends with. Whatever drives it out, the worker is counted as exited.

* `Pool.workerStep` -- the next step of a worker outside a task;
* `Pool.workEnds` -- the step in which a task ends.
-/

namespace WorkerPool

namespace Pool

/-- The pool with this done to the record of worker `i`. -/
def countFor (p : Pool) (i : Nat) (f : Worker → Worker) : Pool :=
  { p with workers := p.workers.modify i f }

/-- The next step of worker `i` from this stage: the pool after it, and the stage it leads to. A
    worker inside a task has its step from the task; one that sleeps on the queue, and one whose
    thread has ended, have none. -/
def workerStep (p : Pool) (i : Nat) (now : Nat) : WorkerStage → Option (Pool × WorkerStage)
  | .starting => some (p.emit (.workerStarted i), .checkingHalt)
  | .checkingHalt => some (p, if p.halt then .stopping else .popping)
  | .popping =>
    if i ∈ p.queue.sleeping then none
    else
      match p.queue.attempt i with
      | (q, .item task) => some ({ p with queue := q }.log (.popped task.id i), .rechecking task)
      | (q, .nothingMore) => some ({ p with queue := q }, .stopping)
      | (q, .sleep) => some ({ p with queue := q }, .popping)
  | .rechecking task =>
    if p.halt then some (p.emit (.droppedAfterHalt i task.id), .abandoning task)
    else some (p, .ready task)
  | .abandoning task => some ({ p with abandoned := p.abandoned + 1 }, .discarding task)
  | .discarding task => some ((p.measure (·.recordAbandoned 1)).throwAway task, .stopping)
  | .ready task =>
    let job : Job :=
      { id := task.id, label := task.label, waited := now - task.enqueuedAt, since := now }
    some ({ p with active := p.active + 1 }.log (.started task.id task.label i),
      .running job (.going task.work))
  | .running _ _ => none
  | .caught job payload =>
    let noted : Pool := { p with handler := p.handler.note }
    match payload.burst? with
    | some inner => some (noted.countFor i fun w => { w with remains := some inner }, .leaving true)
    | none => some (noted, .reporting job payload.message)
  | .reporting job message => some (p.emit (p.handler.report job.id message), .lowering job true)
  | .lowering job panicked =>
    let ran := now - job.since
    some ({ p with active := p.active - 1 },
      if panicked then .countingPanic job ran else .recording .executed job ran)
  | .countingPanic job ran =>
    some (p.countFor i fun w => { w with panicked := w.panicked + 1 }, .recordingPanic job ran)
  | .recordingPanic job ran => some (p.measure (·.recordPanicked), .recording .executed job ran)
  | .recording part job ran =>
    some (p.measure (·.recordPart i job.waited ran part),
      match part.next? with
      | some next => .recording next job ran
      | none => .countingExecuted)
  | .countingExecuted =>
    some (p.countFor i fun w => { w with executed := w.executed + 1 }, .checkingHalt)
  | .stopping =>
    some (p.emit (.workerStopped i ((p.workers[i]?.map (·.executed.toNat)).getD 0)), .leaving false)
  | .leaving crashed => some ({ p with exited := p.exited + 1 }, .finished crashed)
  | .finished _ => none

/-- A task of a worker ends: it has returned, or a panic with this payload comes out of it. -/
def workEnds (p : Pool) (job : Job) : Option Payload → Pool × WorkerStage
  | none => (p.log (.ended job.id false), .lowering job false)
  | some payload => (p.log (.ended job.id true), .caught job payload)

end Pool

end WorkerPool
