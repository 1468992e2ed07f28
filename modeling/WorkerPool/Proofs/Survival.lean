import WorkerPool.Proofs.Ledger
import WorkerPool.Proofs.Progress
import WorkerPool.Proofs.Return

/-!
# Workers survive panics

A worker that has caught a panic counts it, reports it, and comes back to its loop like after any
other task, unless throwing the payload away panics once more: that second panic is not caught.

* `Rule.tame` -- tasks whose panics can be thrown away;
* `WorkerStage.tail`, `Worker.Recovering`, `Worker.Resumed` -- the way back to the loop, step by
  step;
* `run_recovers` -- a worker on that way arrives, whatever the other threads do;
* `Pool.liveness` -- the count of active workers is right;
* `panics_take_no_worker_down` -- of tame tasks; `bomb_takes_worker_down` -- of one that is not.
-/

namespace WorkerPool

/-- What comes out of a task can be thrown away without a panic. -/
def Rule.tame : Rule where
  call _ _ := True
  panic
    | some _, payload => payload.explodes = false
    | none, _ => True

/-! ## 1. The way back to the loop -/

/-- How many steps of its own the worker has left from a panic to its next look at the halt flag. -/
def WorkerStage.tail : WorkerStage → Nat
  | .caught _ _ => 10
  | .reporting _ _ => 9
  | .lowering _ true => 8
  | .countingPanic _ _ => 7
  | .recordingPanic _ _ => 6
  | .recording .executed _ _ => 5
  | .recording .busy _ _ => 4
  | .recording .waited _ _ => 3
  | .recording .latency _ _ => 2
  | .countingExecuted => 1
  | _ => 0

/-- On that way, the worker has counted the panic as its own. -/
def WorkerStage.panicCounted : WorkerStage → Bool
  | .recordingPanic _ _ | .recording _ _ _ | .countingExecuted => true
  | _ => false

/-- A worker on its way back, and the same worker when it caught the panic. -/
structure Worker.Recovering (before now : Worker) : Prop where
  way : 0 < now.stage.tail
  harmless : ∀ {job payload}, now.stage = .caught job payload → payload.explodes = false
  executed : now.executed = before.executed
  panicked : now.panicked = before.panicked + if now.stage.panicCounted then 1 else 0

/-- The worker is about to begin its next iteration, and has counted one task and one panic more. -/
structure Worker.Resumed (before now : Worker) : Prop where
  stage : now.stage = .checkingHalt
  executed : now.executed = before.executed + 1
  panicked : now.panicked = before.panicked + 1

namespace Pool

theorem getElem?_setStage {p : Pool} {i : Nat} {worker : Worker} (hw : p.workers[i]? = some worker)
    (s : WorkerStage) : (p.setStage i s).workers[i]? = some { worker with stage := s } := by
  simp [setStage, hw]

/-- **Every step brings the worker one step nearer.** -/
theorem WorkerMove.recovers {p q : Pool} {i : Nat} {before now : Worker} {s : WorkerStage}
    (hR : before.Recovering now) (hw : p.workers[i]? = some now)
    (h : WorkerMove p i now.stage q s) :
    ∃ now', (q.setStage i s).workers[i]? = some now' ∧ now'.stage.tail + 1 = now.stage.tail ∧
      (before.Recovering now' ∨ before.Resumed now') := by
  obtain ⟨hway, hharmless, hexecuted, hpanicked⟩ := hR
  obtain ⟨stage, executed, panicked, remains⟩ := now
  have hcount {f : Worker → Worker}
      (hw : p.workers[i]? = some ⟨stage, executed, panicked, remains⟩) :
      (p.countFor i f).workers[i]? = some (f ⟨stage, executed, panicked, remains⟩) := by
    simp [countFor, hw]
  dsimp only at *
  cases h with
  | catches job payload he =>
      exact ⟨_, getElem?_setStage hw _, rfl, .inl ⟨Nat.succ_pos _, nofun, hexecuted, hpanicked⟩⟩
  | crashes job payload inner he =>
      have hkept : payload.burst?.isSome = false := hharmless rfl
      rw [he] at hkept
      cases hkept
  | reports job message =>
      exact ⟨_, getElem?_setStage hw _, rfl, .inl ⟨Nat.succ_pos _, nofun, hexecuted, hpanicked⟩⟩
  | lowersPanicked job ran =>
      exact ⟨_, getElem?_setStage hw _, rfl, .inl ⟨Nat.succ_pos _, nofun, hexecuted, hpanicked⟩⟩
  | countsPanic job ran =>
      refine ⟨_, getElem?_setStage (hcount hw) _, rfl, .inl ⟨Nat.succ_pos _, nofun, hexecuted, ?_⟩⟩
      simpa [WorkerStage.panicCounted] using hpanicked
  | recordsPanic job ran =>
      exact ⟨_, getElem?_setStage hw _, rfl, .inl ⟨Nat.succ_pos _, nofun, hexecuted, hpanicked⟩⟩
  | records part next job ran hn =>
      cases part <;> cases hn
      all_goals
        exact ⟨_, getElem?_setStage hw _, rfl, .inl ⟨Nat.succ_pos _, nofun, hexecuted, hpanicked⟩⟩
  | recordsLast part job ran hn =>
      cases part <;> cases hn
      exact ⟨_, getElem?_setStage hw _, rfl, .inl ⟨Nat.succ_pos _, nofun, hexecuted, hpanicked⟩⟩
  | countsExecuted =>
      refine ⟨_, getElem?_setStage (hcount hw) _, rfl, .inr ⟨rfl, ?_, ?_⟩⟩
      · exact congrArg (· + 1) hexecuted
      · simpa [WorkerStage.panicCounted] using hpanicked
  | _ => exact absurd hway (Nat.lt_irrefl 0)

end Pool

namespace World

/-- The worker's record. -/
def workerAt (w : World) (id : PoolId) (i : Nat) : Option Worker :=
  (w.pools[id]?).bind (·.workers[i]?)

/-- At some moment of the run the worker is about to begin its next iteration. -/
def Resumes (w : World) (ls : List Label) (id : PoolId) (i : Nat) (before : Worker) : Prop :=
  ∃ first v now, first <+: ls ∧ w.run first = some v ∧ v.workerAt id i = some now ∧
    before.Resumed now

theorem Resumes.cons {w v : World} {l : Label} {ls : List Label} {id : PoolId} {i : Nat}
    {before : Worker} (hs : w.step l = some v) (h : v.Resumes ls id i before) :
    w.Resumes (l :: ls) id i before := by
  obtain ⟨first, u, now, hpre, hr, hu⟩ := h
  exact ⟨l :: first, u, now, List.cons_prefix_cons.mpr ⟨rfl, hpre⟩, by simp [run, hs, hr], hu⟩

/-- A worker on its way has a step. -/
theorem canMove_of_tail {w : World} {id : PoolId} {i : Nat} {now : Worker}
    (hw : w.workerAt id i = some now) (ht : 0 < now.stage.tail) : w.CanMove (.worker id i) := by
  obtain ⟨p, hp, hw⟩ := Option.bind_eq_some_iff.mp hw
  have hs : p.stages[i]? = some now.stage := Pool.stages_getElem?.mpr ⟨now, hw, rfl⟩
  refine canMove_of_stage hp hs ?_ ?_ fun e => ?_
  · cases hst : now.stage with
    | finished crashed => rw [hst] at ht; cases ht
    | _ => rfl
  · cases hst : now.stage with
    | running job activity => rw [hst] at ht; cases ht
    | _ => rfl
  · rw [e] at ht
    cases ht

/-- **A worker on its way back to the loop arrives**, unless it has not yet made as many moves as
    are left. -/
theorem run_recovers {w w' : World} (h : Reachable w) {ls : List Label} (hr : w.run ls = some w')
    {id : PoolId} {i : Nat} {before now : Worker} (hw : w.workerAt id i = some now)
    (hR : before.Recovering now) :
    w.Resumes ls id i before ∨ ∃ later, w'.workerAt id i = some later ∧ before.Recovering later ∧
      ls.countP (Label.isOf (.worker id i)) + later.stage.tail = now.stage.tail := by
  induction ls generalizing w now with
  | nil =>
      cases hr
      exact .inr ⟨now, hw, hR, Nat.zero_add _⟩
  | cons l rest ih =>
      obtain ⟨v, hv, hr⟩ := Option.bind_eq_some_iff.mp hr
      obtain ⟨p, hp, hpw⟩ := Option.bind_eq_some_iff.mp hw
      have hout : now.stage.activity? = none := by
        cases hst : now.stage with
        | running job activity =>
            have := hR.way
            rw [hst] at this
            cases this
        | _ => rfl
      rcases step_worker (sound_reachable h) hv hp hpw hout with
        ⟨hl, q, s, hm, hq⟩ | ⟨hl, q, hq, hqw⟩
      · obtain ⟨now', hnow', htail, hR' | hres⟩ := hm.recovers hR hpw
        · have hw' : v.workerAt id i = some now' := by simp [workerAt, hq, hnow']
          rcases ih (h.step l hv) hr hw' hR' with hres | ⟨later, hlater, hRl, hcount⟩
          · exact .inl (hres.cons hv)
          · refine .inr ⟨later, hlater, hRl, ?_⟩
            rw [List.countP_cons_of_pos hl]
            omega
        · have hw' : v.workerAt id i = some now' := by simp [workerAt, hq, hnow']
          exact .inl ⟨[l], v, now', ⟨rest, rfl⟩, by simp [run, hv], hw', hres⟩
      · have hw' : v.workerAt id i = some now := by simp [workerAt, hq, hqw]
        rcases ih (h.step l hv) hr hw' hR with hres | ⟨later, hlater, hRl, hcount⟩
        · exact .inl (hres.cons hv)
        · refine .inr ⟨later, hlater, hRl, ?_⟩
          rwa [List.countP_cons_of_neg (by simp [hl])]

end World

/-! ## 2. The active workers -/

/-- The worker counts as active: it is inside a task, or has not lowered the count again. -/
def WorkerStage.isActive : WorkerStage → Bool
  | .running _ _ | .caught _ _ | .reporting _ _ | .lowering _ _ => true
  | _ => false

namespace Pool

/-- The active count, less the workers that have raised it and not lowered it again; those that a
    panic has driven out never will. -/
def liveness : Account UInt64 where
  shared p := p.active
  worker s := if s.isActive || s.isKilled then -1 else 0
  call _ := 0

theorem liveness_balanced : liveness.Balanced fun _ => True where
  work _ _ h := by
    cases h with
    | exits crashed => cases crashed <;> simp [liveness, WorkerStage.isActive, WorkerStage.isKilled]
    | lowersReturned | lowersPanicked =>
        simp [liveness, WorkerStage.isActive, WorkerStage.isKilled, sub_eq_add_neg]
    | _ => simp [liveness, WorkerStage.isActive, WorkerStage.isKilled]
  call _ h := by
    cases h with
    | findsDraining why | concludes why | reports why | breaksOff why =>
        cases why <;> simp [liveness]
    | _ => simp [liveness]
  enter _ h := by
    cases h with
    | asks mode => cases mode <;> simp [liveness]
    | _ => simp [liveness]
  reclaim _ h := by
    obtain ⟨-, -, rfl⟩ := reclaim_cases h
    rfl
  wake _ _ := rfl
  starting := rfl

theorem liveness_invariant : Invariant fun p => Formed p ∧ liveness.total p = 0 :=
  liveness_balanced.invariant_always fun _ hb =>
    Account.total_blank hb (by simp [liveness, hb.active]) fun _ => rfl

/-- **The active count is that of the active workers**, and of those driven out. -/
theorem active_eq {w : World} (h : w.Reachable) {p : Pool} (hp : p ∈ w.pools) :
    p.active = UInt64.ofNat (p.stages.countP fun s => s.isActive || s.isKilled) := by
  have ht := (liveness_invariant.reachable h p hp).2
  have hw : liveness.ofWorkers p =
      -UInt64.ofNat (p.stages.countP fun s => s.isActive || s.isKilled) := by
    rw [Account.ofWorkers, liveness, sum_map_ite, nsmul_eq_neg_ofNat]
  have hc : liveness.ofCalls p = 0 := by simp [Account.ofCalls, liveness]
  rw [Account.total, hw, hc, add_zero] at ht
  exact eq_of_sub_eq_zero ((sub_eq_add_neg _ _).trans ht)

/-! ## 3. Pools that no panic has driven a worker out of -/

/-- A pool that has accepted a task has workers. -/
theorem Staffed.stages_ne_nil {p : Pool} (hp : Staffed p) (ha : Accounted p) {t : TaskId}
    (h : .accepted t ∈ p.trace) : p.stages ≠ [] := by
  have hacc : 0 < p.trace.count (.accepted t) := List.count_pos_iff.mpr h
  have := ha.answer_eq t
  exact hp.manned (.inr (.inr ⟨t, List.count_pos_iff.mp (by omega)⟩))

/-- **When every worker has exited by itself, every accepted task was run.** -/
theorem run_of_allExited {p : Pool} (hp : Staffed p) (ha : Accounted p) (ht : traced.Holds p)
    (hk : ∀ s ∈ p.stages, s.isKilled = false) (hh : p.halt = false) (he : p.AllExited) :
    p.queue.items = [] ∧ ∀ t, .accepted t ∈ p.trace → p.starts t = 1 ∧ p.ends t = 1 := by
  -- a pool that had a task has a worker, and that one was not driven out
  have hne {t : TaskId} (hacc : .accepted t ∈ p.trace) : ¬ ∀ s ∈ p.stages, s = .finished true := by
    intro hall
    obtain ⟨s, hs⟩ := List.exists_mem_of_ne_nil _ (hp.stages_ne_nil ha hacc)
    have hs' := hk s hs
    rw [hall s hs] at hs'
    cases hs'
  refine ⟨?_, fun t hacc => (he.settled ha ht hh (hne hacc)).2 t hacc⟩
  by_contra hitems
  obtain ⟨task, htask⟩ := List.exists_mem_of_ne_nil _ hitems
  exact hitems (he.settled ha ht hh (hne (ht.shared.queued task htask))).1

end Pool

namespace World

/-- Tame tasks drive no worker out. -/
theorem Obeys.not_killed {w : World} (hw : w.Obeys .tame) {p : Pool} (hp : p ∈ w.pools) :
    ∀ s ∈ p.stages, s.isKilled = false := by
  intro s hs
  have hobeys := (hw.pools p hp).workers s hs
  cases s with
  | leaving crashed | finished crashed =>
      cases crashed with
      | false => rfl
      | true =>
          obtain ⟨payload, htame, he⟩ := hobeys
          have htame : payload.explodes = false := htame
          rw [htame] at he
          cases he
  | _ => rfl

end World

open World Pool

/-- **No panic takes a worker down**, if what comes out of tasks can be thrown away without another
    panic. In every pool, no worker is driven out of its loop, and one that leaves it has seen that
    the pool is halted or that the queue is closed and empty; the active count is that of the
    workers that have raised it and not lowered it again. A worker that has caught a panic can move
    until it is about to begin its next iteration, with one task and one panic more in its counters,
    and ten moves bring it there, whatever the other threads do. So when every worker has exited and
    the pool is not halted, the queue is empty and every accepted task was run, once; and every
    worker has exited when a graceful shutdown returns to a thread that is no worker of the pool. -/
theorem panics_take_no_worker_down {telemetry : Bool} {host : Host} {ls : List Label} {w : World}
    (hr : (World.initial telemetry host).run ls = some w)
    (htame : ∀ program, .fork program ∈ ls → program.Obeys .tame none) {id : PoolId} {p : Pool}
    (hp : w.pools[id]? = some p) :
    (∀ s ∈ p.stages, s.isKilled = false ∧ (s.hasLeft = true → p.halt = true ∨ p.Spent)) ∧
    p.active = UInt64.ofNat (p.stages.countP WorkerStage.isActive) ∧
    (∀ i worker job payload, p.workers[i]? = some worker → worker.stage = .caught job payload →
      ∀ ls' w', w.run ls' = some w' → w.Resumes ls' id i worker ∨
        w'.CanMove (.worker id i) ∧ ls'.countP (Label.isOf (.worker id i)) < 10) ∧
    (p.halt = false → p.AllExited →
      p.queue.items = [] ∧ ∀ t, .accepted t ∈ p.trace → p.starts t = 1 ∧ p.ends t = 1) ∧
    ∀ thread joined, .returned thread .graceful joined ∈ p.trace → p.owns thread = false →
      p.AllExited := by
  have h : w.Reachable := (World.Reachable.initial telemetry host).run hr
  have hobeys := obeys_run (.initial telemetry host) (obeys_initial telemetry host) hr htame
  have hmem := List.mem_of_getElem? hp
  have hkilled := hobeys.not_killed hmem
  obtain ⟨ha, ht⟩ := tasks_reachable h p hmem
  refine ⟨fun s hs => ⟨hkilled s hs, fun hl => ?_⟩, ?_, ?_, ?_, ?_⟩
  · cases hh : p.halt with
    | true => exact .inl rfl
    | false => exact .inr (spent_of_hasLeft ha.orderly hh hs hl)
  · rw [active_eq h hmem]
    refine congrArg UInt64.ofNat (List.countP_congr fun s hs => ?_)
    simp [hkilled s hs]
  · intro i worker job payload hw hst ls' w' hr'
    have hat : w.workerAt id i = some worker := by simp [workerAt, hp, hw]
    have htame' : payload.explodes = false := by
      have hs : p.stages[i]? = some (.caught job payload) := stages_getElem?.mpr ⟨worker, hw, hst⟩
      exact (hobeys.pools p hmem).workers _ (List.mem_of_getElem? hs)
    have hR : worker.Recovering worker := by
      refine ⟨by simp [hst, WorkerStage.tail], fun e => ?_, rfl, ?_⟩
      · rw [hst] at e
        cases e
        exact htame'
      · simp [hst, WorkerStage.panicCounted]
    refine (run_recovers h hr' hat hR).imp_right fun ⟨later, hlater, hRl, hcount⟩ => ?_
    have hway := hRl.way
    have hten : worker.stage.tail = 10 := by rw [hst]; rfl
    exact ⟨canMove_of_tail hlater hway, by omega⟩
  · exact run_of_allExited (staffed_reachable h p hmem) ha ht hkilled
  · exact fun thread joined hret hout => (ha.orderly.shared.returned hret).exited hout

/-- A thread makes a pool of one worker, submits a task that panics and another one, and shuts the
    pool down. -/
def panicking (payload : Payload) : Program :=
  .call (.start (Config.withThreads 1)) fun _ => .submit 0 "panics" (.panic payload) fun _ =>
    .submit 0 "next" (.finish []) fun _ => .call (.shutdown 0 .graceful) fun _ => .finish []

/-- The run until the worker has caught the panic. -/
def panickingSteps (payload : Payload) : List Label :=
  .fork (panicking payload) :: (moves (.caller 0) 12 ++ moves (.worker 0 0) 6)

/-- The worker goes on, the thread shuts the pool down, and the worker exits. -/
def survivingSteps : List Label :=
  moves (.worker 0 0) 10 ++ moves (.caller 0) 5 ++ moves (.worker 0 0) 15 ++ moves (.caller 0) 3

/-- The worker comes back, runs the other task and exits at the end of the queue. -/
theorem panics_take_no_worker_down_in_lifetime : ∃ (w w' : World) (p : Pool) (worker : Worker),
    w.workerAt 0 0 = some worker ∧ w.run survivingSteps = some w' ∧
    w.Resumes survivingSteps 0 0 worker ∧ w'.pools[0]? = some p ∧ p.AllExited ∧
    p.queue.items = [] ∧ p.starts ⟨2⟩ = 1 ∧ p.ends ⟨2⟩ = 1 := by
  have hrun : (((World.initial true {}).run (panickingSteps .foreign)).any fun w =>
      (w.pools[0]?.any fun p => p.workers[0]?.any fun worker => match worker.stage with
        | .caught _ payload => decide (payload = .foreign)
        | _ => false) &&
      (w.run survivingSteps).any fun w' => w'.pools[0]?.any fun p =>
        decide (p.halt = false ∧ .accepted ⟨2⟩ ∈ p.trace ∧
          .returned (.caller 0) .graceful 1 ∈ p.trace)) = true := by decide
  obtain ⟨w, hr, hrun⟩ := (Option.any_eq_true ..).mp hrun
  obtain ⟨hcaught, hrest⟩ := Bool.and_eq_true_iff.mp hrun
  obtain ⟨p₀, hp₀, hcaught⟩ := (Option.any_eq_true ..).mp hcaught
  obtain ⟨worker, hw, hcaught⟩ := (Option.any_eq_true ..).mp hcaught
  obtain ⟨w', hr', hrest⟩ := (Option.any_eq_true ..).mp hrest
  obtain ⟨p, hp, hrest⟩ := (Option.any_eq_true ..).mp hrest
  obtain ⟨hh, hacc, hret⟩ := of_decide_eq_true hrest
  have hrule : (panicking .foreign).Obeys .tame none :=
    ⟨trivial, fun _ _ => ⟨rfl, fun _ _ => ⟨trivial, fun _ _ => ⟨trivial, fun _ _ => trivial⟩⟩⟩⟩
  have hfork (rest : List Label) (hno : ∀ program, .fork program ∉ rest) :
      ∀ program, .fork program ∈ panickingSteps .foreign ++ rest →
        program.Obeys .tame none := by
    intro program hm
    obtain rfl : program = panicking .foreign := by
      simpa [panickingSteps, moves, hno program] using hm
    exact hrule
  have hall : (World.initial true {}).run (panickingSteps .foreign ++ survivingSteps) =
      some w' := by rw [run_append, hr, Option.bind_some, hr']
  obtain ⟨-, -, hback, -, -⟩ := panics_take_no_worker_down hr
    (by simpa using hfork [] (by simp)) hp₀
  obtain ⟨-, -, -, hdone, hexit⟩ := panics_take_no_worker_down hall
    (hfork survivingSteps (by simp [survivingSteps, moves])) hp
  have he := hexit (.caller 0) 1 hret rfl
  obtain ⟨hitems, htasks⟩ := hdone hh he
  obtain ⟨hstart, hend⟩ := htasks ⟨2⟩ hacc
  refine ⟨w, w', p, worker, by simp [workerAt, hp₀, hw], hr', ?_, hp, he, hitems, hstart, hend⟩
  cases hst : worker.stage with
  | caught job payload =>
      exact (hback 0 worker job payload hw hst survivingSteps w' hr').resolve_right
        fun h => absurd h.2 (by decide)
  | _ =>
      rw [hst] at hcaught
      cases hcaught

/-- **A panic can take a worker down** if its payload panics when it is thrown away: the worker is
    gone though the pool is not halted and the queue is open, the active count stays raised, neither
    the task nor the panic is in the worker's counters, and a task accepted before the shutdown is
    still not run when a graceful shutdown has returned. -/
theorem bomb_takes_worker_down : ∃ (w w' : World) (p p' : Pool),
    (World.initial true {}).run (panickingSteps (.bomb .foreign) ++ moves (.worker 0 0) 2) = some w ∧
    w.run (moves (.caller 0) 8) = some w' ∧ w.pools[0]? = some p ∧ w'.pools[0]? = some p' ∧
    ((p.stages.map fun s => (s.isFinished, s.isKilled)) = [(true, true)] ∧ p.halt = false ∧
      p.queue.accepting = true ∧ p.active = 1 ∧ p.ends ⟨1⟩ = 1 ∧
      (p.workers.map fun worker => (worker.executed, worker.panicked)) = [(0, 0)] ∧
      .accepted ⟨2⟩ ∈ p.trace) ∧
    .returned (.caller 0) .graceful 0 ∈ p'.trace ∧ p'.halt = false ∧ p'.starts ⟨2⟩ = 0 := by
  have hrun : (((World.initial true {}).run
      (panickingSteps (.bomb .foreign) ++ moves (.worker 0 0) 2)).any fun w =>
        (w.pools[0]?.any fun p => decide
          ((p.stages.map fun s => (s.isFinished, s.isKilled)) = [(true, true)] ∧ p.halt = false ∧
            p.queue.accepting = true ∧ p.active = 1 ∧ p.ends ⟨1⟩ = 1 ∧
            (p.workers.map fun worker => (worker.executed, worker.panicked)) = [(0, 0)] ∧
            .accepted ⟨2⟩ ∈ p.trace)) &&
        (w.run (moves (.caller 0) 8)).any fun w' => w'.pools[0]?.any fun p' => decide
          (.returned (.caller 0) .graceful 0 ∈ p'.trace ∧ p'.halt = false ∧ p'.starts ⟨2⟩ = 0)) =
      true := by decide
  obtain ⟨w, hr, hrun⟩ := (Option.any_eq_true ..).mp hrun
  obtain ⟨hdown, hrest⟩ := Bool.and_eq_true_iff.mp hrun
  obtain ⟨p, hp, hdown⟩ := (Option.any_eq_true ..).mp hdown
  obtain ⟨w', hr', hrest⟩ := (Option.any_eq_true ..).mp hrest
  obtain ⟨p', hp', hrest⟩ := (Option.any_eq_true ..).mp hrest
  exact ⟨w, w', p, p', hr, hr', hp, hp', of_decide_eq_true hdown, of_decide_eq_true hrest⟩

end WorkerPool
