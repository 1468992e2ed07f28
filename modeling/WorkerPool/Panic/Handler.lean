import WorkerPool.Event
import WorkerPool.Text.Description

/-!
# The panic handler

A handler runs pieces of work so that a panic ends the piece and not the thread. It counts every
panic, then reports it. Between the two it throws the payload away, and that is the one place where
a panic gets past it: a payload that explodes leaves through the handler, counted but unreported.

* `Handler.note` -- the panic is counted;
* `Handler.report` -- the event it leaves;
* `Handler.execute` -- the whole treatment of one piece of work.

A worker of a pool goes through the same two parts one after the other, with the steps of other
threads between them.
-/

namespace WorkerPool

open Text

/-- Counts panics and reports them as its strategy says. -/
structure Handler where
  strategy : Strategy
  /-- The panics counted, modulo 2^64. -/
  count : UInt64
  deriving DecidableEq, Repr

/-- What the caller of a handler gets of one piece of work. -/
inductive Handler.Result (α : Type u) where
  | returned (value : α)
  /-- The work panicked, with this text. -/
  | panicked (task : TaskId) (message : String)
  /-- The payload exploded, and the panic with this one came out through the handler. -/
  | escaped (payload : Payload)
  deriving Repr

namespace Handler

/-- A handler that has seen nothing. -/
def new (strategy : Strategy) : Handler := ⟨strategy, 0⟩

/-- The handler after one more panic. -/
def note (h : Handler) : Handler := { h with count := h.count + 1 }

/-- The report of a panic. -/
def report (h : Handler) (task : TaskId) (message : String) : Event :=
  .taskPanicked h.strategy task message

/-- Treats one piece of work by how it ends: the handler afterwards, what the caller gets, and what
    is reported. -/
def execute (h : Handler) (task : TaskId) : Outcome α → Handler × Result α × List Event
  | .returned value => (h, .returned value, [])
  | .panicked payload =>
    match payload.burst? with
    | some inner => (h.note, .escaped inner, [])
    | none => (h.note, .panicked task payload.message, [h.report task payload.message])

/-- What the handler shows of itself. -/
def description (h : Handler) : Description :=
  .ofFields "PanicHandler"
    [("strategy", .word h.strategy.name), ("panic_count", .number h.count.toNat)]

end Handler

end WorkerPool
