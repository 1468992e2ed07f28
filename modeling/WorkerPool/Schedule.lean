import WorkerPool.World

/-!
# Running a world until nothing moves

A schedule gives the threads turns in a fixed order, callers before workers, each turn at most so
many steps long, until a whole round brings no step. What is reached is one of the worlds that the
steps of `World` allow (`Reachable.settle`); nothing here decides what a step does.

* `World.turn`, `World.round`, `World.settle` -- one thread's turn, every thread's turn, all rounds.
-/

namespace WorkerPool

/-- How turns are given. -/
structure Schedule where
  /-- The most steps of one turn. -/
  quantum : Nat
  /-- How many threads at the head of the order go to its end. -/
  shift : Nat := 0
  /-- The sleeper woken by a push, if it sleeps. -/
  choice : Nat := 0

namespace World

/-- Every thread: callers in the order in which they began, then workers pool by pool. -/
def threads (w : World) : List ThreadId :=
  (List.range w.callers.length).map .caller ++
    w.pools.flatMap fun p => (List.range p.workers.length).map (.worker p.id)

/-- At most so many steps of one thread; whether there was one. -/
def turn (thread : ThreadId) (choice : Nat) : Nat → World → World × Bool
  | 0, w => (w, false)
  | n + 1, w =>
    match w.act thread choice with
    | none => (w, false)
    | some w' => ((turn thread choice n w').1, true)

/-- A turn for each of these threads. -/
def turns (s : Schedule) : List ThreadId → World → World × Bool
  | [], w => (w, false)
  | t :: rest, w =>
    let (w, moved) := turn t s.choice s.quantum w
    let (w, movedLater) := turns s rest w
    (w, moved || movedLater)

/-- What these released pools still held is given back. -/
def reclaimAll : List PoolId → World → World
  | [], w => w
  | id :: rest, w => reclaimAll rest ((w.step (.reclaim id)).getD w)

/-- A turn for every thread. -/
def round (s : Schedule) (w : World) : World × Bool := turns s (w.threads.rotateLeft s.shift) w

/-- Rounds until one brings no step, at most so many; then unreachable memory is given back. -/
def settle (s : Schedule) : Nat → World → World
  | 0, w => w
  | n + 1, w =>
    match round s w with
    | (w, true) => settle s n w
    | (w, false) => reclaimAll (List.range w.pools.length) w

/-! ## A schedule only takes steps -/

theorem Reachable.turn {w : World} (h : Reachable w) (t : ThreadId) (choice n : Nat) :
    Reachable (World.turn t choice n w).1 := by
  induction n generalizing w with
  | zero => exact h
  | succ n ih =>
    unfold World.turn
    split
    · exact h
    · next w' hw => exact ih (h.step (.act t choice) hw)

theorem Reachable.turns {w : World} (h : Reachable w) (s : Schedule) (ts : List ThreadId) :
    Reachable (World.turns s ts w).1 := by
  induction ts generalizing w with
  | nil => exact h
  | cons t rest ih => exact ih (h.turn t s.choice s.quantum)

theorem Reachable.reclaimAll {w : World} (h : Reachable w) (ids : List PoolId) :
    Reachable (World.reclaimAll ids w) := by
  induction ids generalizing w with
  | nil => exact h
  | cons id rest ih =>
    unfold World.reclaimAll
    cases hs : w.step (.reclaim id) with
    | none => exact ih h
    | some w' => exact ih (h.step _ hs)

/-- A schedule only takes steps: **settling a reachable world reaches a reachable world**. -/
theorem Reachable.settle {w : World} (h : Reachable w) (s : Schedule) (n : Nat) :
    Reachable (World.settle s n w) := by
  induction n generalizing w with
  | zero => exact h
  | succ n ih =>
    have hr : Reachable (World.round s w).1 := h.turns s _
    unfold World.settle
    split
    · next w' hw => exact ih (by rwa [hw] at hr)
    · next w' hw => exact Reachable.reclaimAll (by rwa [hw] at hr) _

end World

end WorkerPool
