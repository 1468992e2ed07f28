import WorkerPool.Proofs.Survival

/-!
# Every panic is counted and reported once

A handler treats one piece of work after the other. What it answers depends on its strategy, on the
task and on how the work ends, and on nothing else; all that a piece of work leaves behind in the
handler is one panic more in its count. So what is true of one piece is true of each in a sequence,
in whatever order panics and values come.

* `Event.Tells` -- an event that reports a panic, field by field;
* `Handler.Answers` -- what a handler is to answer, payload by payload;
* `Handler.executeAll` -- a sequence of pieces of work; `execute_answers`, `executeAll_answers` --
  what one piece and a sequence of pieces get, `executeAll_fst` -- what they leave behind;
* `panics_counted_and_reported_once` -- at every point of every sequence;
* `Pool.workerStep_executes`, `panics_of_pool_counted` -- what the workers of a pool, which share
  one handler, do with it.
-/

namespace WorkerPool

/-! ## 1. One piece of work -/

/-- The event reports, as this strategy has it, that a panic with this text came out of the task. -/
structure Event.Tells (e : Event) (strategy : Strategy) (task : TaskId) (text : String) : Prop where
  level : e.level = match strategy with
    | .logAndContinue => .error
    | .isolate => .debug
  message : e.message = "task panicked: " ++ text
  fields : e.fields = [("task", .text task.text)]

/-- The work ends by a panic. -/
def Outcome.isPanic {α : Type u} : Outcome α → Bool
  | .returned _ => false
  | .panicked _ => true

namespace Handler

variable {α : Type u}

/-- What a handler of this strategy is to answer: the value, without a report; the text of the
    panic and one report of it; or nothing, if the panic leaves through the handler. -/
inductive Answers (strategy : Strategy) (task : TaskId) :
    Outcome α → Result α × List Event → Prop where
  | value (v : α) : Answers strategy task (.returned v) (.returned v, [])
  | literal (text : String) (e : Event) (he : e.Tells strategy task text) :
      Answers strategy task (.panicked (.literal text)) (.panicked task text, [e])
  | built (text : String) (e : Event) (he : e.Tells strategy task text) :
      Answers strategy task (.panicked (.built text)) (.panicked task text, [e])
  /-- A payload that is no text, and can be thrown away. -/
  | foreign (e : Event) (he : e.Tells strategy task "Unknown panic") :
      Answers strategy task (.panicked .foreign) (.panicked task "Unknown panic", [e])
  /-- A payload that panics when it is thrown away. -/
  | escapes (inner : Payload) :
      Answers strategy task (.panicked (.bomb inner)) (.escaped inner, [])

theorem report_tells (h : Handler) (task : TaskId) (text : String) :
    (h.report task text).Tells h.strategy task text where
  level := by
    obtain ⟨strategy, count⟩ := h
    cases strategy <;> rfl
  message := rfl
  fields := rfl

/-- **One piece of work is answered as it is to be.** -/
theorem execute_answers (h : Handler) (task : TaskId) (work : Outcome α) :
    Answers h.strategy task work (h.execute task work).2 := by
  cases work with
  | returned v => exact .value v
  | panicked payload =>
      cases payload with
      | literal text => exact .literal text _ (h.report_tells task text)
      | built text => exact .built text _ (h.report_tells task text)
      | foreign => exact .foreign _ (h.report_tells task _)
      | bomb inner => exact .escapes inner

/-- **A piece of work leaves behind a panic more in the count**, or nothing. -/
theorem execute_fst (h : Handler) (task : TaskId) (work : Outcome α) :
    (h.execute task work).1 =
      ⟨h.strategy, h.count + if work.isPanic then 1 else 0⟩ := by
  cases work with
  | returned v => simp [execute, Outcome.isPanic]
  | panicked payload =>
      cases he : payload.burst? <;> simp [execute, Outcome.isPanic, note, he]

/-- The answer does not depend on what was counted before. -/
theorem execute_snd_congr {h h' : Handler} (hs : h'.strategy = h.strategy) (task : TaskId)
    (work : Outcome α) : (h'.execute task work).2 = (h.execute task work).2 := by
  obtain ⟨strategy, count⟩ := h
  obtain ⟨strategy', count'⟩ := h'
  obtain rfl : strategy' = strategy := hs
  cases work with
  | returned v => rfl
  | panicked payload =>
      cases he : payload.burst? <;> simp [execute, he, report]

/-! ## 2. A sequence of pieces of work -/

/-- The handler after these pieces of work, one after the other, and what each was answered. -/
def executeAll (h : Handler) : List (TaskId × Outcome α) → Handler × List (Result α × List Event)
  | [] => (h, [])
  | (task, work) :: rest =>
    let (h, answer) := h.execute task work
    let (h, answers) := executeAll h rest
    (h, answer :: answers)

/-- How many of these pieces of work end by a panic. -/
def panics (calls : List (TaskId × Outcome α)) : Nat := calls.countP fun c => c.2.isPanic

theorem executeAll_cons (h : Handler) (task : TaskId) (work : Outcome α)
    (rest : List (TaskId × Outcome α)) :
    h.executeAll ((task, work) :: rest) =
      (((h.execute task work).1.executeAll rest).1,
        (h.execute task work).2 :: ((h.execute task work).1.executeAll rest).2) := rfl

/-- **A sequence leaves behind its panics in the count, and nothing else.** -/
theorem executeAll_fst (h : Handler) (calls : List (TaskId × Outcome α)) :
    (h.executeAll calls).1 = ⟨h.strategy, h.count + UInt64.ofNat (panics calls)⟩ := by
  induction calls generalizing h with
  | nil => simp [executeAll, panics]
  | cons call rest ih =>
      obtain ⟨task, work⟩ := call
      rw [executeAll_cons, ih, execute_fst, panics, panics, List.countP_cons]
      cases work.isPanic with
      | false => simp
      | true =>
          rw [if_pos rfl, if_pos rfl, UInt64.ofNat_add, add_assoc,
            add_comm (UInt64.ofNat _) (UInt64.ofNat 1)]
          rfl

/-- **Each piece of a sequence is answered as it is to be**, one answer to each. -/
theorem executeAll_answers (h : Handler) (calls : List (TaskId × Outcome α)) :
    List.Forall₂ (fun call answer => Answers h.strategy call.1 call.2 answer) calls
      (h.executeAll calls).2 := by
  induction calls generalizing h with
  | nil => exact .nil
  | cons call rest ih =>
      obtain ⟨task, work⟩ := call
      have hs : (h.execute task work).1.strategy = h.strategy := by rw [execute_fst]
      have hrest := ih (h.execute task work).1
      rw [hs] at hrest
      exact .cons (h.execute_answers task work) hrest

/-- What is counted before a sequence does not change its answers. -/
theorem executeAll_snd_congr {h h' : Handler} (hs : h'.strategy = h.strategy)
    (calls : List (TaskId × Outcome α)) : (h'.executeAll calls).2 = (h.executeAll calls).2 := by
  induction calls generalizing h h' with
  | nil => rfl
  | cons call rest ih =>
      obtain ⟨task, work⟩ := call
      have hs' : (h'.execute task work).1.strategy = (h.execute task work).1.strategy := by
        rw [execute_fst, execute_fst, hs]
      rw [executeAll_cons, executeAll_cons, execute_snd_congr hs, ih hs']

theorem executeAll_append (h : Handler) (before after : List (TaskId × Outcome α)) :
    h.executeAll (before ++ after) =
      (((h.executeAll before).1.executeAll after).1,
        (h.executeAll before).2 ++ ((h.executeAll before).1.executeAll after).2) := by
  induction before generalizing h with
  | nil => rfl
  | cons call rest ih =>
      obtain ⟨task, work⟩ := call
      rw [List.cons_append, executeAll_cons, ih, executeAll_cons]
      rfl

end Handler

open Handler

/-- **A handler counts and reports every panic once.** After any sequence of pieces of work, which
    return values or panic with payloads of every kind, its strategy is what it was and its count is
    the number of the panics so far, modulo 2^64, those included whose payload panicked in its turn.
    Every piece got its one answer: a value without a report; the text of the panic with one report
    of it, under the task's number and at the strategy's level; or, if the payload panicked when it
    was thrown away, nothing but that panic with what it carries. And whatever pieces come next,
    they get the answers that a handler with any other count would give, and raise that count by as
    much. -/
theorem panics_counted_and_reported_once {α : Type u} (strategy : Strategy)
    (before after : List (TaskId × Outcome α)) :
    ∃ h : Handler, ((Handler.new strategy).executeAll before).1 = h ∧
      h.strategy = strategy ∧ h.count.toNat = panics before % 2 ^ 64 ∧
      List.Forall₂ (fun call answer => Answers strategy call.1 call.2 answer) before
        ((Handler.new strategy).executeAll before).2 ∧
      (Handler.new strategy).executeAll (before ++ after) = ((h.executeAll after).1,
        ((Handler.new strategy).executeAll before).2 ++ (h.executeAll after).2) ∧
      ∀ count, (⟨strategy, count⟩ : Handler).executeAll after =
        (⟨strategy, count + UInt64.ofNat (panics after)⟩, (h.executeAll after).2) := by
  have hfst := (Handler.new strategy).executeAll_fst before
  refine ⟨_, rfl, congrArg Handler.strategy hfst, ?_,
    executeAll_answers (Handler.new strategy) before, executeAll_append _ before after,
    fun count => ?_⟩
  · rw [hfst]
    simp [Handler.new]
  · have hs : strategy = (((Handler.new strategy).executeAll before).1).strategy :=
      (congrArg Handler.strategy hfst).symm
    exact Prod.ext (executeAll_fst _ after) (executeAll_snd_congr hs after)

/-- A text, a value, a payload that explodes, and a value that is no text. -/
example : ((Handler.new .isolate).executeAll
    [(⟨1⟩, .panicked (.literal "boom")), (⟨2⟩, .returned 7), (⟨3⟩, .panicked (.bomb .foreign)),
      (⟨4⟩, .panicked .foreign)]).1 = ⟨.isolate, 3⟩ := rfl

/-! ## 3. The handler of a pool -/

namespace Pool

/-- **A worker does with a panic what the handler does**: in two steps, or in one if the panic
    leaves through the handler and drives the worker out. Then its payload is what the worker's
    thread ends with. -/
theorem workerStep_executes (p : Pool) (i now : Nat) (job : Job) (payload : Payload) :
    ∃ h result events, p.handler.execute (α := Unit) job.id (.panicked payload) =
        (h, result, events) ∧
      ((∃ q message, p.workerStep i now (.caught job payload) = some (q, .reporting job message) ∧
          q.workerStep i now (.reporting job message) = some
            ({ p with handler := h, trace := events.map .event ++ p.trace }, .lowering job true) ∧
          result = .panicked job.id message) ∨
        ∃ inner, p.workerStep i now (.caught job payload) = some
            (({ p with handler := h }).countFor i fun w => { w with remains := some inner },
              .leaving true) ∧
          result = .escaped inner ∧ events = []) := by
  refine ⟨_, _, _, rfl, ?_⟩
  cases payload with
  | literal text | built text => exact .inl ⟨_, _, rfl, rfl, rfl⟩
  | foreign => exact .inl ⟨_, _, rfl, rfl, rfl⟩
  | bomb inner => exact .inr ⟨inner, rfl, rfl, rfl⟩

end Pool

/-- A task has ended by a panic. -/
def Happening.isPanic : Happening → Bool
  | .ended _ panicked => panicked
  | _ => false

/-- The worker has caught a panic that is not counted yet. -/
def WorkerStage.isCaught : WorkerStage → Bool
  | .caught _ _ => true
  | _ => false

namespace Pool

/-- The tasks that have ended by a panic, less the panics counted; a worker that has caught a panic
    is about to count it. -/
def panicTally : Account UInt64 where
  shared p := UInt64.ofNat (p.trace.countP Happening.isPanic) - p.handler.count
  worker s := if s.isCaught then -1 else 0
  call _ := 0

theorem panicTally_balanced : panicTally.Balanced fun _ => True where
  work _ _ h := by
    cases h with
    | panics job payload =>
        simp [panicTally, Happening.isPanic, WorkerStage.isCaught, List.countP_cons]
        grind
    | crashes | catches =>
        simp [panicTally, WorkerStage.isCaught, Handler.note]
        grind
    | _ => simp [panicTally, Happening.isPanic, WorkerStage.isCaught]
  call _ h := by
    cases h with
    | findsDraining why | concludes why | reports why | breaksOff why =>
        cases why <;> simp [panicTally, Happening.isPanic]
    | _ => simp [panicTally, Happening.isPanic]
  enter _ h := by cases h <;> simp [panicTally, Happening.isPanic]
  reclaim _ h := by
    have ho := countP_reclaim h (f := Happening.isPanic) fun _ _ => rfl
    obtain ⟨-, -, rfl⟩ := reclaim_cases h
    simp only [panicTally, ho]
  wake _ _ := rfl
  starting := rfl

/-- **The panics counted are those that have come out of tasks**, in every pool of every reachable
    world, less the workers that have caught one and are about to count it. -/
theorem panics_of_pool_counted {w : World} (h : w.Reachable) {p : Pool} (hp : p ∈ w.pools) :
    p.handler.count + UInt64.ofNat (p.stages.countP WorkerStage.isCaught) =
      UInt64.ofNat (p.trace.countP Happening.isPanic) := by
  have hinv : Invariant fun p => Formed p ∧ panicTally.total p = 0 :=
    panicTally_balanced.invariant_always fun _ hb => Account.total_blank hb
      (by simp [panicTally, hb.count, hb.countP_trace Happening.isPanic fun _ => rfl]) fun _ => rfl
  have ht := (hinv.reachable h p hp).2
  have hw : panicTally.ofWorkers p = -UInt64.ofNat (p.stages.countP WorkerStage.isCaught) := by
    rw [Account.ofWorkers, panicTally, sum_map_ite, nsmul_eq_neg_ofNat]
  have hc : panicTally.ofCalls p = 0 := by simp [Account.ofCalls, panicTally]
  rw [Account.total, hw, hc] at ht
  simp only [panicTally] at ht
  grind

end Pool

end WorkerPool
