import WorkerPool.Error
import WorkerPool.Panic.Payload

/-!
# Configurations

* `Config` -- what a pool is made from, and `Config.fault?`, the first thing wrong with it;
* `Builder` -- a configuration put together by settings, checked when it is built;
* `PairConfig` -- the configurations of a pair of pools, one for computing and one for a database.

Main statements: a configuration passes exactly if it has no fault (`validate_eq_ok_iff`), and the
error of any other is the account of its first fault (`validate_eq_error_iff`).
-/

namespace WorkerPool

open Text

/-! ## 1. One pool -/

/-- What a pool is made from. -/
structure Config where
  /-- How many workers; absent, as many as the machine has processors. -/
  numThreads : Option UInt64
  /-- What the names of the workers' threads begin with. -/
  namePrefix : String
  /-- The bytes of a worker's stack; absent, the system's choice. -/
  stackSize : Option UInt64
  strategy : Strategy
  deriving DecidableEq, Repr

/-- No stack may be smaller than this. -/
def minStackSize : UInt64 := 16384

namespace Config

/-- What can be wrong with a configuration, in the order in which it is looked for. -/
inductive Fault where
  | emptyPrefix
  | nulInPrefix
  | smallStack
  deriving DecidableEq, Repr

/-- The fault in words. -/
def Fault.reason : Fault → String
  | .emptyPrefix => "thread_name_prefix must not be empty"
  | .nulInPrefix => "thread_name_prefix must not contain NUL bytes"
  | .smallStack => "stack_size must be at least " ++ toString minStackSize.toNat ++ " bytes"

/-- The stack size is too small. -/
def stackTooSmall : Option UInt64 → Bool
  | none => false
  | some size => size < minStackSize

/-- The first fault, if there is one. -/
def fault? (c : Config) : Option Fault :=
  if c.namePrefix.toList = [] then some .emptyPrefix
  else if '\x00' ∈ c.namePrefix.toList then some .nulInPrefix
  else if stackTooSmall c.stackSize then some .smallStack
  else none

/-- Passes a configuration without fault, and tells the first fault of any other. -/
def validate (c : Config) : Except Error Unit :=
  match c.fault? with
  | none => .ok ()
  | some fault => .error (.config fault.reason)

/-- How many workers are asked for, on a machine with so many processors. -/
def workerThreads (c : Config) (cpus : UInt64) : UInt64 := c.numThreads.getD cpus

/-- The configuration nobody has changed. -/
def standard : Config where
  numThreads := none
  namePrefix := "taskpool-worker"
  stackSize := some 2097152
  strategy := .logAndContinue

/-- The standard configuration with so many workers. -/
def withThreads (n : UInt64) : Config := { standard with numThreads := some n }

/-- What the configuration shows of itself. -/
def description (c : Config) : Description :=
  .ofFields "Config"
    [("num_threads", .optional (fun n => .number n.toNat) c.numThreads),
     ("thread_name_prefix", .text c.namePrefix),
     ("stack_size", .optional (fun n => .number n.toNat) c.stackSize),
     ("panic_strategy", .word c.strategy.name)]

/-- Passing means having no fault: **a configuration passes exactly if there is none**. -/
theorem validate_eq_ok_iff {c : Config} : c.validate = .ok () ↔ c.fault? = none := by
  cases h : c.fault? <;> simp [validate, h]

/-- An error is always the account of the first fault. -/
theorem validate_eq_error_iff {c : Config} {e : Error} :
    c.validate = .error e ↔ ∃ fault, c.fault? = some fault ∧ e = .config fault.reason := by
  cases h : c.fault? with
  | none => simp [validate, h]
  | some fault => simp [validate, h, eq_comm]

end Config

/-! ## 2. Settings -/

/-- A write to one field of a configuration. -/
inductive Setting where
  | numThreads (n : UInt64)
  | stackSize (bytes : UInt64)
  /-- The stack size is left to the system. -/
  | defaultStackSize
  | namePrefix (text : String)
  | strategy (s : Strategy)
  deriving DecidableEq, Repr

/-- A configuration in the making. -/
structure Builder where
  config : Config
  deriving DecidableEq, Repr

namespace Builder

/-- A builder nobody has set anything on. -/
def new : Builder := ⟨.standard⟩

/-- The builder after one setting. -/
def set (b : Builder) : Setting → Builder
  | .numThreads n => ⟨{ b.config with numThreads := some n }⟩
  | .stackSize bytes => ⟨{ b.config with stackSize := some bytes }⟩
  | .defaultStackSize => ⟨{ b.config with stackSize := none }⟩
  | .namePrefix text => ⟨{ b.config with namePrefix := text }⟩
  | .strategy s => ⟨{ b.config with strategy := s }⟩

/-- The builder after these settings, in order. -/
def setAll (b : Builder) (settings : List Setting) : Builder := settings.foldl set b

/-- The configuration, if it passes. -/
def build (b : Builder) : Except Error Config :=
  match b.config.validate with
  | .ok () => .ok b.config
  | .error e => .error e

/-- What the builder shows of itself. -/
def description (b : Builder) : Description :=
  .ofFields "ConfigBuilder" [("config", b.config.description)]

end Builder

/-! ## 3. A pair of pools -/

/-- What a pair of pools is made from. -/
structure PairConfig where
  cpu : Config
  db : Config
  deriving DecidableEq, Repr

namespace PairConfig

/-- The pair nobody has changed: the database has four workers. -/
def standard : PairConfig where
  cpu := { Config.standard with namePrefix := "taskpool-cpu" }
  db := { Config.standard with numThreads := some 4, namePrefix := "taskpool-db" }

/-- Passes if both halves pass. The fault of the computing half is told first. -/
def validate (c : PairConfig) : Except Error Unit :=
  match c.cpu.validate with
  | .error e => .error e
  | .ok () => c.db.validate

/-- What the pair shows of itself. -/
def description (c : PairConfig) : Description :=
  .ofFields "RuntimeConfig" [("cpu", c.cpu.description), ("db", c.db.description)]

end PairConfig

end WorkerPool
