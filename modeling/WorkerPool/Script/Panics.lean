import WorkerPool.Panic.Handler

/-!
# Scripts on a panic handler

A script gives one handler one piece of work after the other, each under a new task number.

* `PanicScript.run` -- the handler in the end, and what is known after each piece.
-/

namespace WorkerPool

namespace PanicScript

/-- What is known after one piece of work. -/
structure Report (α : Type u) where
  task : TaskId
  result : Handler.Result α
  count : UInt64
  events : List Event

/-- Gives the handler these pieces of work, the first under the number `next`. -/
def run (h : Handler) (next : Nat) : List (Outcome α) → Handler × List (Report α)
  | [] => (h, [])
  | work :: rest =>
    let (h, result, events) := h.execute ⟨next⟩ work
    let report : Report α :=
      { task := ⟨next⟩, result := result, count := h.count, events := events }
    let (h, reports) := run h (next + 1) rest
    (h, report :: reports)

end PanicScript

end WorkerPool
