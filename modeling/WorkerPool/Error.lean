import WorkerPool.Text.Description

/-!
# What can go wrong when a pool is made

Two things: the configuration is refused, or the system refuses a thread.

* `SystemError` -- the system's own account of a refusal, in words of its own or by a number;
* `Error` -- why there is no pool;
* `Error.message`, `Error.description`, `Error.source` -- how an error is told and shown, and the
  refusal behind it.
-/

namespace WorkerPool

open Text

/-! ## 1. The system's refusals -/

/-- The kinds of refusal that the system tells apart. -/
inductive SystemError.Kind where
  | other
  | notFound
  | wouldBlock
  | permissionDenied
  | outOfMemory
  deriving DecidableEq, Repr

/-- The name of the kind. -/
def SystemError.Kind.name : SystemError.Kind → String
  | .other => "Other"
  | .notFound => "NotFound"
  | .wouldBlock => "WouldBlock"
  | .permissionDenied => "PermissionDenied"
  | .outOfMemory => "OutOfMemory"

/-- A refusal by the system. -/
inductive SystemError where
  /-- A refusal told in words. -/
  | told (kind : SystemError.Kind) (text : String)
  /-- A refusal by number, with the system's text for that number. -/
  | numbered (code : Nat) (kind : SystemError.Kind) (text : String)
  deriving DecidableEq, Repr

namespace SystemError

/-- The sentence for a reader. -/
def message : SystemError → String
  | .told _ text => text
  | .numbered code _ text => text ++ " (os error " ++ toString code ++ ")"

/-- The refusal with its parts named. -/
def description : SystemError → Description
  | .told kind text => .ofFields "Custom" [("kind", .word kind.name), ("error", .text text)]
  | .numbered code kind text =>
    .ofFields "Os" [("code", .number code), ("kind", .word kind.name), ("message", .text text)]

/-- No thread can be had now: the memory for its stack is not there. -/
def unavailable : SystemError := .numbered 11 .wouldBlock "Resource temporarily unavailable"

end SystemError

/-! ## 2. Why there is no pool -/

/-- Why a pool could not be made. -/
inductive Error where
  /-- The configuration is refused. -/
  | config (reason : String)
  /-- The thread of this worker was refused. -/
  | spawn (worker : Nat) (cause : SystemError)
  deriving DecidableEq, Repr

namespace Error

/-- The sentence for a reader. -/
def message : Error → String
  | .config reason => "config error: " ++ reason
  | .spawn worker cause => "failed to spawn worker " ++ toString worker ++ ": " ++ cause.message

/-- The error with its parts named. -/
def description : Error → Description
  | .config reason => .wrapped "Config" (.text reason)
  | .spawn worker cause =>
    .ofFields "Spawn" [("worker", .number worker), ("source", cause.description)]

/-- The system's refusal behind the error, if there is one. -/
def source : Error → Option SystemError
  | .config _ => none
  | .spawn _ cause => some cause

end Error

end WorkerPool
