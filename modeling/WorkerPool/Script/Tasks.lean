import WorkerPool.Program
import WorkerPool.Queue

/-!
# Scripts on a queue of tasks

A script makes tasks, puts them into a queue, takes them out, and runs them or throws them away,
without any pool. A task that runs writes a note, and so does one that is thrown away.

* `TaskScript.run` -- the reports of all steps, and the notes of the tasks that go with the queue in
  the end.
-/

namespace WorkerPool

open Text

/-- What a task shows of itself. -/
def Task.description (t : Task) : Description :=
  .ofFields "Task"
    [("id", .wrapped "TaskId" (.number t.id.number)), ("enqueued_at", .number t.enqueuedAt)]

/-- What a program notes when it runs with nobody around, and how it ends: nothing that it asks of
    others is there. -/
def Program.alone : Program → List Note × Outcome (List Reply)
  | .finish answers => ([], .returned answers)
  | .panic payload => ([], .panicked payload)
  | .submit _ _ _ next => (next .gone).alone
  | .make _ _ next => (next .gone).alone
  | .call c next =>
    match c with
    | .note n =>
      let (notes, outcome) := (next .done).alone
      (n :: notes, outcome)
    | _ => (next .gone).alone

namespace TaskScript

/-- A step of a script. -/
inductive Step where
  /-- Makes a task in the next slot. -/
  | make (label : String) (panics : Bool)
  | push (slot : Nat)
  | runMade (slot : Nat)
  | dropMade (slot : Nat)
  | tryPopRun
  | waitPopRun
  | tryPopDrop
  | drainDrop
  | drainRun
  | close

/-- How a task that ran ended. -/
structure Ran where
  id : TaskId
  panicked : Bool

/-- The result of a step. -/
inductive Result where
  | nothing
  /-- A task was made: its number, whether its text is the number after a number sign, whether the
      number is above those of all tasks in slots, whether it shows its number first. -/
  | made (id : TaskId) (asText isGreatest showsId : Bool)
  | flag (b : Bool)
  /-- There is no task in the slot. -/
  | gone
  | ran (r : Option Ran)
  | wouldBlock
  | dropped (id : Option TaskId)
  | droppedAll (ids : List TaskId)
  | ranAll (rs : List Ran)

/-- What is known after a step. -/
structure Report where
  result : Result
  notes : List Note
  length : Nat
  closed : Bool

/-- A queue of tasks, and the tasks in slots. -/
structure State where
  queue : Queue Task := {}
  slots : List (Option Task) := []
  nextTask : Nat := 1

/-- The note of a task thrown away. -/
def droppedNote (t : Task) : Note := ⟨t.label, "dropped", none⟩

/-- A task that notes that it ran and then ends as asked. -/
def work (label : String) (panics : Bool) : Program :=
  .call (.note ⟨label, "ran", none⟩) fun _ =>
    if panics then .panic (.literal "task") else .finish []

/-- Runs a task: how it ended, and its notes. -/
def runTask (t : Task) : Ran × List Note :=
  match t.work.alone with
  | (notes, .returned _) => (⟨t.id, false⟩, notes)
  | (notes, .panicked _) => (⟨t.id, true⟩, notes)

namespace State

/-- The task in a slot. -/
def slot? (s : State) (i : Nat) : Option Task := (s.slots[i]?).bind fun t => t

/-- The state with the slot empty. -/
def clear (s : State) (i : Nat) : State := { s with slots := s.slots.set i none }

/-- One step: the state after it, its result, and the notes it leaves. -/
def take (s : State) : Step → State × Result × List Note
  | .make label panics =>
    let task : Task :=
      { id := ⟨s.nextTask⟩, label := label, work := work label panics, enqueuedAt := 0 }
    let shown := "Task \x7b id: TaskId(" ++ toString task.id.number ++ "), enqueued_at: "
    ({ s with slots := s.slots ++ [some task], nextTask := s.nextTask + 1 },
      .made task.id (task.id.text == "#" ++ toString task.id.number)
        (s.slots.all fun t => (t.map fun t => decide (t.id.number < task.id.number)).getD true)
        (task.description.inline.startsWith shown), [])
  | .push i =>
    match s.slot? i with
    | none => (s, .gone, [])
    | some t =>
      match s.queue.push t 0 with
      | (q, true) => ({ s.clear i with queue := q }, .flag true, [])
      | (q, false) => ({ s.clear i with queue := q }, .flag false, [droppedNote t])
  | .runMade i =>
    match s.slot? i with
    | none => (s, .ran none, [])
    | some t => (s.clear i, .ran (some (runTask t).1), (runTask t).2)
  | .dropMade i =>
    match s.slot? i with
    | none => (s, .nothing, [])
    | some t => (s.clear i, .nothing, [droppedNote t])
  | .tryPopRun =>
    match s.queue.tryPop with
    | (q, none) => ({ s with queue := q }, .ran none, [])
    | (q, some t) => ({ s with queue := q }, .ran (some (runTask t).1), (runTask t).2)
  | .waitPopRun =>
    match s.queue.attempt 0 with
    | (q, .item t) => ({ s with queue := q }, .ran (some (runTask t).1), (runTask t).2)
    | (q, .nothingMore) => ({ s with queue := q }, .ran none, [])
    | (_, .sleep) => (s, .wouldBlock, [])
  | .tryPopDrop =>
    match s.queue.tryPop with
    | (q, none) => ({ s with queue := q }, .dropped none, [])
    | (q, some t) => ({ s with queue := q }, .dropped (some t.id), [droppedNote t])
  | .drainDrop =>
    let (q, ts) := s.queue.drain
    ({ s with queue := q }, .droppedAll (ts.map Task.id), ts.map droppedNote)
  | .drainRun =>
    let (q, ts) := s.queue.drain
    let rans := ts.map runTask
    ({ s with queue := q }, .ranAll (rans.map (·.1)), rans.flatMap (·.2))
  | .close => ({ s with queue := s.queue.close }, .nothing, [])

end State

/-- The reports of these steps and the state after them. -/
def runSteps (s : State) : List Step → State × List Report
  | [] => (s, [])
  | step :: rest =>
    let (s, result, notes) := s.take step
    let report : Report :=
      { result := result, notes := notes, length := s.queue.length, closed := !s.queue.accepting }
    let (s, reports) := runSteps s rest
    (s, report :: reports)

/-- The reports of a script, and the notes of the tasks left in the queue. -/
def run (steps : List Step) : List Report × List Note :=
  let (s, reports) := runSteps {} steps
  (reports, s.queue.items.map droppedNote)

end TaskScript

end WorkerPool
