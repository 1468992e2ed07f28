/-!
# Panics and what they carry

A panic carries a payload. All that a pool can learn of a payload is whether it is a text, and what
happens when it is thrown away: that may panic once more, with a payload of its own.

* `Payload` -- the payloads, told apart as far as anyone can tell them apart;
* `Payload.message` -- the text of a panic, one fixed text for a payload that is none;
* `Payload.burst?` -- what throwing the payload away panics with, if it does;
* `Outcome` -- how a piece of work ends: with a value or by a panic;
* `Strategy` -- how loudly a panic is reported.
-/

namespace WorkerPool

/-- What a panic carries. -/
inductive Payload where
  /-- A text that is part of the program. -/
  | literal (text : String)
  /-- A text built at run time. -/
  | built (text : String)
  /-- A value of any other type that can be thrown away. -/
  | foreign
  /-- A value of any other type; throwing it away panics in its turn, with `inner`. -/
  | bomb (inner : Payload)
  deriving DecidableEq, Repr

namespace Payload

/-- The text of a panic: the payload itself if it is a text. -/
def message : Payload → String
  | .literal text => text
  | .built text => text
  | .foreign | .bomb _ => "Unknown panic"

/-- What throwing the payload away panics with, if it does. -/
def burst? : Payload → Option Payload
  | .bomb inner => some inner
  | _ => none

/-- Throwing the payload away panics. -/
def explodes (payload : Payload) : Bool := payload.burst?.isSome

end Payload

/-- How a piece of work ends. -/
inductive Outcome (α : Type u) where
  | returned (value : α)
  | panicked (payload : Payload)
  deriving Repr

/-- How a panic of a task is reported. That makes no difference to the worker, which goes on unless
    the payload explodes. -/
inductive Strategy where
  /-- As an error. -/
  | logAndContinue
  /-- As a detail for debugging. -/
  | isolate
  deriving DecidableEq, Repr, Inhabited

/-- The name of the strategy. -/
def Strategy.name : Strategy → String
  | .logAndContinue => "LogAndContinue"
  | .isolate => "Isolate"

end WorkerPool
