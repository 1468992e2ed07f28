import WorkerPool.Queue

/-!
# Scripts on a queue

A script works on one queue step by step. Besides the script, consumers may wait on the queue; after
each step they move until none can, and what they got is part of the step's report.

* `QueueScript.run` -- the reports of all steps, and what the last waiting consumers get when the
  queue is closed in the end.
-/

namespace WorkerPool.QueueScript

open Text

variable {α : Type u}

/-- A step of a script. -/
inductive Step (α : Type u) where
  | push (a : α)
  | pushAll (as : List α)
  /-- Pushes all of these and asks only how many were taken. -/
  | pushMany (as : List α)
  | tryPop
  /-- Takes items, at most so many, until there is none. -/
  | popMany (n : Nat)
  | waitAndPop
  | drain
  | close
  | length
  | isEmpty
  | isClosed
  | describe
  /-- So many consumers begin to wait. -/
  | consumers (n : Nat)

/-- The result of a step. -/
inductive Result (α : Type u) where
  | nothing
  | flag (b : Bool)
  | flags (bs : List Bool)
  | number (n : Nat)
  | found (a : Option α)
  | values (as : List α)
  /-- The step would have waited and was not taken. -/
  | wouldBlock
  | texts (ts : List String)

/-- What is known after a step. -/
structure Report (α : Type u) where
  result : Result α
  /-- What waiting consumers got: items first, then those that got none. -/
  delivered : List (Option α)
  length : Nat
  closed : Bool

/-- A queue with consumers waiting on it. -/
structure State (α : Type u) where
  queue : Queue α := {}
  /-- The consumers that still wait, by number. -/
  waiting : List Nat := []
  /-- The number of the next consumer. -/
  nextConsumer : Nat := 0

namespace State

/-- Pushes these in order and says of each whether it was taken. -/
def pushAll (s : State α) : List α → State α × List Bool
  | [] => (s, [])
  | a :: rest =>
    let (q, taken) := s.queue.push a s.nextConsumer
    let (s, later) := pushAll { s with queue := q } rest
    (s, taken :: later)

/-- Takes at most so many items. -/
def popMany (q : Queue α) : Nat → Queue α × List α
  | 0 => (q, [])
  | n + 1 =>
    match q.tryPop with
    | (q, none) => (q, [])
    | (q, some a) =>
      let (q, rest) := popMany q n
      (q, a :: rest)

/-- The step itself, before any waiting consumer moves. -/
def take (s : State α) : Step α → State α × Result α
  | .push a =>
    let (q, taken) := s.queue.push a s.nextConsumer
    ({ s with queue := q }, .flag taken)
  | .pushAll as =>
    let (s, taken) := s.pushAll as
    (s, .flags taken)
  | .pushMany as =>
    let (s, taken) := s.pushAll as
    (s, .number (taken.count true))
  | .tryPop =>
    let (q, a) := s.queue.tryPop
    ({ s with queue := q }, .found a)
  | .popMany n =>
    let (q, as) := popMany s.queue n
    ({ s with queue := q }, .values as)
  | .waitAndPop =>
    match s.queue.attempt s.nextConsumer with
    | (q, .item a) => ({ s with queue := q }, .found (some a))
    | (q, .nothingMore) => ({ s with queue := q }, .found none)
    | (_, .sleep) => (s, .wouldBlock)
  | .drain =>
    let (q, as) := s.queue.drain
    ({ s with queue := q }, .values as)
  | .close => ({ s with queue := s.queue.close }, .nothing)
  | .length => (s, .number s.queue.length)
  | .isEmpty => (s, .flag s.queue.items.isEmpty)
  | .isClosed => (s, .flag (!s.queue.accepting))
  | .describe => (s, .texts [s.queue.description.inline, s.queue.description.indented])
  | .consumers n =>
    ({ s with waiting := s.waiting ++ List.range' s.nextConsumer n,
              nextConsumer := s.nextConsumer + n }, .nothing)

/-- Lets each of these consumers look that does not sleep. Left are those that wait on. -/
def look (q : Queue α) : List Nat → Queue α × List Nat × List (Option α)
  | [] => (q, [], [])
  | c :: rest =>
    if c ∈ q.sleeping then
      let (q, waiting, got) := look q rest
      (q, c :: waiting, got)
    else
      match q.attempt c with
      | (q, .item a) =>
        let (q, waiting, got) := look q rest
        (q, waiting, some a :: got)
      | (q, .nothingMore) =>
        let (q, waiting, got) := look q rest
        (q, waiting, none :: got)
      | (q, .sleep) =>
        let (q, waiting, got) := look q rest
        (q, c :: waiting, got)

/-- Moves the waiting consumers until none can: each looks once, then it has gone or sleeps. -/
def settle (s : State α) : State α × List (Option α) :=
  let (q, waiting, got) := look s.queue s.waiting
  ({ s with queue := q, waiting := waiting }, got.filter (·.isSome) ++ got.filter (·.isNone))

end State

/-- The reports of these steps and the state after them. -/
def runSteps (s : State α) : List (Step α) → State α × List (Report α)
  | [] => (s, [])
  | step :: rest =>
    let (s, result) := s.take step
    let (s, delivered) := s.settle
    let report : Report α :=
      { result := result, delivered := delivered, length := s.queue.length,
        closed := !s.queue.accepting }
    let (s, reports) := runSteps s rest
    (s, report :: reports)

/-- The reports of a script, and what the last consumers get when the queue is closed. -/
def run (steps : List (Step α)) : List (Report α) × List (Option α) :=
  let (s, reports) := runSteps {} steps
  (reports, { s with queue := s.queue.close }.settle.2)

end WorkerPool.QueueScript
