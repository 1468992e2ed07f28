import WorkerPool.Program

/-!
# A pair of pools

One pool for computing and one for a database, made together, shut down together and given up
together, each time the computing pool first: its tasks may still submit to the other.

* `PoolPair.new` -- the program that makes a pair: both pools or none;
* `PoolPair.shutdown`, `PoolPair.giveUp`, `PoolPair.isShutdown` -- what is done to both.
-/

namespace WorkerPool

open Text

/-- A pool for computing and one for a database. -/
structure PoolPair where
  cpu : PoolId
  db : PoolId
  deriving DecidableEq, Repr

namespace PoolPair

/-- Makes a pair and goes on with it, or with the first error. If the second pool cannot be had,
    the first is shut down at once and given up. No task has come near it, so that shutdown cannot
    end by a panic. -/
def new (config : PairConfig) (next : Except Error PoolPair → Program) : Program :=
  match config.validate with
  | .error e => next (.error e)
  | .ok () =>
    .call (.start config.cpu) fun
      | .pool cpu =>
        .call (.start config.db) fun
          | .pool db => .call (.announcePair cpu db) fun _ => next (.ok ⟨cpu, db⟩)
          | .failed e =>
            .call (.shutdown cpu .immediate) fun _ => .call (.drop cpu) fun _ => next (.error e)
          | _ => .finish []
      | .failed e => next (.error e)
      | _ => .finish []

/-- Shuts both pools down, one after the other. -/
def shutdown (pair : PoolPair) (mode : Mode) (next : Program) : Program :=
  .call (.shutdown pair.cpu mode) (.uncaught fun _ =>
    .call (.shutdown pair.db mode) (.uncaught fun _ => next))

/-- Gives both pools up, one after the other, the second also when a panic comes out of the first. -/
def giveUp (pair : PoolPair) (next : Program) : Program :=
  .call (.drop pair.cpu) fun cpu => .call (.drop pair.db) fun db =>
    Program.uncaught (fun _ => Program.uncaught (fun _ => next) db) cpu

/-- Asks whether both pools are shut down. The second is asked only if the first is. -/
def isShutdown (pair : PoolPair) (next : Reply → Program) : Program :=
  .call (.read pair.cpu .isShutdown) fun
    | .flag true => .call (.read pair.db .isShutdown) next
    | r => next r

/-- What a pair shows of itself, from what its parts show. -/
def describe (cpu db : Description) (config : PairConfig) : Description :=
  .ofFields "Runtime" [("cpu", cpu), ("db", db), ("config", config.description)]

end PoolPair

end WorkerPool
