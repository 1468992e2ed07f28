import Mathlib.Data.Finset.Max
import WorkerPool.Pair
import WorkerPool.Proofs.Obedience
import WorkerPool.Proofs.Staff
import WorkerPool.Proofs.Wakeup

/-!
# Shutdowns come forward

A shutdown waits for workers, and workers may be inside shutdowns themselves. Within one pool that
is harmless: who has the handles waits for workers that have none, and a worker without handles
waits for nobody. Across pools it is harmless as long as the pools can be ranked, so that tasks shut
down pools of a higher rank only, beside their own; two pools whose tasks shut down each other can
wait for each other for ever.

* `World.CanMove` -- the thread has a step; `Pool.Awaits` -- it waits for this worker, and so has
  none;
* `Rule.prompt`, `Rule.ascending` -- tasks that never wait by themselves, and tasks that shut down
  upwards;
* `worker_moves_or`, `holder_moves_or`, `call_moves_or` -- who waits for whom;
* `own_shutdown_never_deadlocks` -- in pools whose tasks shut down their own pool only;
* `ascending_shutdown_never_deadlocks` -- in pools that are ranked;
* `pair_can_deadlock` -- in pairs of pools that shut down each other.
-/

namespace WorkerPool

/-! ## 1. Moving and waiting -/

/-- The thread has a next step. -/
def World.CanMove (w : World) (thread : ThreadId) : Prop :=
  ∃ choice w', w.act thread choice = some w'

/-- At this place of a shutdown, `thread` waits for worker `i` of the pool unless that has ended: it
    is the worker to join next, or there is none left to join and every worker is waited for. -/
def CallStage.waitsFor (p : Pool) (thread : ThreadId) (i : Nat) : CallStage → Bool
  | .joining _ _ (first :: _) _ => first = i ∧ thread ≠ .worker p.id i
  | .joining _ _ [] _ => !p.owns thread
  | _ => false

/-- The thread of worker `i` has not ended. -/
def Pool.Remains (p : Pool) (i : Nat) : Prop :=
  ∃ s ∈ p.stages[i]?, WorkerStage.isFinished s = false

/-- The thread waits in a shutdown of the pool for worker `i`, whose thread has not ended. -/
def Pool.Awaits (p : Pool) (thread : ThreadId) (i : Nat) : Prop :=
  p.Remains i ∧ ∃ c ∈ p.calls, c.1 = thread ∧ c.2.waitsFor p thread i = true

instance (p : Pool) (i : Nat) : Decidable (p.Remains i) :=
  inferInstanceAs (Decidable (∃ s ∈ p.stages[i]?, WorkerStage.isFinished s = false))

instance (p : Pool) (thread : ThreadId) (i : Nat) : Decidable (p.Awaits thread i) :=
  inferInstanceAs (Decidable (_ ∧ _))

namespace Pool

theorem lookup_of_mem {p : Pool} {thread : ThreadId} {s : CallStage} (hn : p.callers.Nodup)
    (hm : (thread, s) ∈ p.calls) : p.calls.lookup thread = some s := by
  obtain ⟨before, after, e⟩ := List.append_of_mem hm
  refine List.lookup_eq_some_iff.mpr ⟨before, after, e, fun c hc => ?_⟩
  rw [callers, e, List.map_append, List.map_cons] at hn
  have hne : c.1 ≠ thread := fun h =>
    (List.nodup_append.mp hn).2.2 _ (List.mem_map_of_mem hc) _ (List.mem_cons_self ..) h
  simpa using hne.symm

/-- While the count of exits is short of the workers, a worker is there. -/
theorem exists_remains {p : Pool} (hx : exits.total p = 0) (hlt : p.exited < p.workers.length) :
    ∃ i, p.Remains i := by
  have hne : ¬ p.AllExited := fun he => by
    have hcount : p.stages.countP WorkerStage.isFinished = p.workers.length := by
      rw [List.countP_eq_length.mpr he, stages, List.length_map]
    rw [exited_eq hx, hcount] at hlt
    exact Nat.lt_irrefl _ hlt
  obtain ⟨s, hs⟩ := Classical.not_forall.mp hne
  obtain ⟨hm, hf⟩ := Classical.not_imp.mp hs
  obtain ⟨i, hi⟩ := List.mem_iff_getElem?.mp hm
  exact ⟨i, s, hi, by simpa using hf⟩

/-- **A call has a step, or it waits for a worker.** -/
theorem callStep_or_awaits {p : Pool} (hp : Staffed p) (hx : exits.total p = 0)
    {thread : ThreadId} {s : CallStage} (hm : (thread, s) ∈ p.calls) :
    (p.callStep thread 0 s).isSome = true ∨ ∃ i, p.Awaits thread i := by
  cases s with
  | joining mode why left joined =>
      cases left with
      | nil =>
          cases ho : p.owns thread with
          | true => exact .inl (by simp [callStep, ho])
          | false =>
              by_cases hle : p.workers.length ≤ p.exited
              · exact .inl (by simp [callStep, hle])
              · obtain ⟨i, hi⟩ := exists_remains hx (Nat.lt_of_not_le hle)
                exact .inr ⟨i, hi, _, hm, rfl, by simp [CallStage.waitsFor, ho]⟩
      | cons first left =>
          by_cases ht : thread = .worker p.id first
          · exact .inl (by simp [callStep, joinStep, ht])
          · have hlt : first < p.stages.length := hp.joinees _ hm first (List.mem_cons_self ..)
            have hs : p.stages[first]? = some p.stages[first] := List.getElem?_eq_getElem hlt
            cases hf : p.stages[first].isFinished with
            | false => exact .inr ⟨first, ⟨_, hs, hf⟩, _, hm, rfl, by simp [CallStage.waitsFor, ht]⟩
            | true =>
                obtain ⟨crashed, hc⟩ := WorkerStage.isFinished_iff.mp hf
                refine .inl ?_
                rw [callStep, joinStep, if_neg ht, stageOf?_eq, hs, hc]
                cases crashed <;> rfl
  | spawning next refusal =>
      refine .inl ?_
      simp only [callStep]
      split
      · split <;> rfl
      · rfl
  | pushing task =>
      refine .inl ?_
      simp only [callStep]
      split <;> rfl
  | swapping why | dropping outcome =>
      refine .inl ?_
      simp only [callStep]
      split <;> rfl
  | rejecting id kept => cases kept <;> exact .inl rfl
  | discarding why joined removed => cases removed <;> exact .inl rfl
  | unwinding why left joined payload => cases left <;> exact .inl rfl
  | _ => exact .inl rfl

/-- Who waits for a worker has no step. -/
theorem callStep_of_awaits {p : Pool} (hx : exits.total p = 0) {thread : ThreadId} {i : Nat}
    {s : CallStage} (hs : p.Remains i)
    (hw : s.waitsFor p thread i = true) (choice : Nat) : p.callStep thread choice s = none := by
  obtain ⟨s₀, hs₀, hf⟩ := hs
  cases s with
  | joining mode why left joined =>
      cases left with
      | nil =>
          have ho : p.owns thread = false := by simpa [CallStage.waitsFor] using hw
          have hlt : ¬ p.workers.length ≤ p.exited := fun hle => by
            have := allExited_of_exited hx hle s₀ (List.mem_of_getElem? hs₀)
            rw [hf] at this
            cases this
          simp [callStep, ho, hlt]
      | cons first left =>
          obtain ⟨rfl, ht⟩ : first = i ∧ thread ≠ .worker p.id i := by
            simpa [CallStage.waitsFor] using hw
          have hof : p.stageOf? first = some s₀ := (p.stageOf?_eq first).trans hs₀
          simp only [callStep, joinStep, if_neg ht, hof]
          cases s₀ with
          | finished crashed => cases hf
          | _ => rfl
  | _ => cases hw

end Pool

namespace World

/-! ## 2. Threads that can move -/

section Moving

variable {w : World} {thread : ThreadId}

theorem canMove_of_advance {a : Activity} (choice : Nat) (ha : w.activity? thread = some a)
    (h : (w.advance thread choice a).isSome = true) : w.CanMove thread := by
  obtain ⟨⟨v, a'⟩, hv⟩ := Option.isSome_iff_exists.mp h
  refine ⟨choice, ?_⟩
  cases thread with
  | caller i =>
      have hi : w.callers[i]? = some a := ha
      exact ⟨{ v with callers := v.callers.set i a' }, by simp [act, hi, hv]⟩
  | worker id i =>
      obtain ⟨job, hat⟩ := stageAt_of_activity? ha
      obtain ⟨p, hact⟩ := act_running hat choice
      rw [hact]
      unfold actInTask
      split
      · exact ⟨_, rfl⟩
      · exact ⟨_, rfl⟩
      · rw [hv]
        exact ⟨_, rfl⟩

/-- A worker whose task is over can move. -/
theorem canMove_of_isOver {id : PoolId} {i : Nat} {job : Job} {a : Activity}
    (hat : w.stageAt id i = some (.running job a)) (ho : a.isOver = true) :
    w.CanMove (.worker id i) := by
  obtain ⟨p, hact⟩ := act_running hat 0
  refine ⟨0, ?_⟩
  rw [hact]
  cases a with
  | going rest =>
      cases rest with
      | finish answers => exact ⟨_, rfl⟩
      | panic payload => exact ⟨_, rfl⟩
      | submit | make | call => cases ho
  | inside | asleep => cases ho

/-- A worker outside its task can move unless it sleeps on the queue or has ended. -/
theorem canMove_of_stage {id : PoolId} {p : Pool} {i : Nat} {s : WorkerStage}
    (hp : w.pools[id]? = some p) (hs : p.stages[i]? = some s) (hf : s.isFinished = false)
    (hr : s.activity? = none) (hq : s = .popping → i ∉ p.queue.sleeping) :
    w.CanMove (.worker id i) := by
  obtain ⟨worker, hw, rfl⟩ := Pool.stages_getElem?.mp hs
  have hstep : (p.workerStep i w.now worker.stage).isSome = true := by
    cases hst : worker.stage with
    | finished crashed =>
        rw [hst] at hf
        cases hf
    | running job activity =>
        rw [hst] at hr
        cases hr
    | popping =>
        simp only [Pool.workerStep, if_neg (hq hst)]
        split <;> rfl
    | rechecking task | caught job payload =>
        simp only [Pool.workerStep]
        split <;> rfl
    | _ => rfl
  obtain ⟨⟨q, s'⟩, hq⟩ := Option.isSome_iff_exists.mp hstep
  have hact : w.act (.worker id i) 0 =
      (p.workerStep i w.now worker.stage).map (w.moveWorker id i) := by
    simp only [act, hp, hw, Option.bind_some]
    cases hst : worker.stage with
    | running job activity =>
        rw [hst] at hr
        cases hr
    | _ => rfl
  exact ⟨0, w.moveWorker id i (q, s'), by rw [hact, hq]; rfl⟩

/-- A thread whose call has a step can move. -/
theorem canMove_of_callStep (hS : Sound w w.inside) {id : PoolId} {p : Pool} {s : CallStage}
    {choice : Nat} (hp : w.pools[id]? = some p) (hm : (thread, s) ∈ p.calls)
    (h : (p.callStep thread choice s).isSome = true) : w.CanMove thread := by
  have hin := hS.linked hp (List.mem_map_of_mem hm)
  obtain ⟨a, ha, hid⟩ := Option.bind_eq_some_iff.mp hin
  cases a with
  | inside j next =>
      cases hid
      obtain ⟨⟨q, step⟩, hq⟩ := Option.isSome_iff_exists.mp h
      have hl := Pool.lookup_of_mem (hS.single hp) hm
      refine canMove_of_advance choice ha ?_
      simp [advance, proceed, hp, hl, hq]
  | going rest => cases hid
  | asleep wakeAt next => cases hid

/-- A thread inside a call has no other steps than those of the call. -/
theorem act_of_inside {id : PoolId} {next : Reply → Program} {choice : Nat}
    (ha : w.activity? thread = some (.inside id next))
    (h : w.advance thread choice (.inside id next) = none) : w.act thread choice = none := by
  cases thread with
  | caller i =>
      have hi : w.callers[i]? = some (.inside id next) := ha
      simp [act, hi, h]
  | worker j i =>
      obtain ⟨job, hat⟩ := stageAt_of_activity? ha
      obtain ⟨p, hact⟩ := act_running hat choice
      rw [hact]
      simp [actInTask, h]

/-- **A thread that waits for a worker cannot move.** -/
theorem not_canMove_of_awaits (h : Reachable w) {id : PoolId} {p : Pool} {i : Nat}
    (hp : w.pools[id]? = some p) (ha : p.Awaits thread i) : ¬ w.CanMove thread := by
  obtain ⟨hs, ⟨t, s⟩, hm, rfl, hw⟩ := ha
  have hS := sound_reachable h
  have hx := (Pool.tasks_reachable h p (List.mem_of_getElem? hp)).1.exited
  obtain ⟨a, ha, hid⟩ := Option.bind_eq_some_iff.mp (hS.linked hp (List.mem_map_of_mem hm))
  cases a with
  | inside j next =>
      cases hid
      rintro ⟨choice, w', hact⟩
      have hnone := Pool.callStep_of_awaits hx hs hw choice
      have hadv : w.advance t choice (.inside id next) = none := by
        simp [advance, proceed, hp, Pool.lookup_of_mem (hS.single hp) hm, hnone]
      rw [act_of_inside ha hadv] at hact
      cases hact
  | going rest => cases hid
  | asleep wakeAt next => cases hid

end Moving

/-! ## 3. Who waits for whom -/

end World

/-- Tasks that never wait by themselves: not at a gate, not for a time, and not for a pool to be
    free of calls. -/
def Rule.prompt : Rule where
  call
    | some _, .gate _ | some _, .sleep _ | some _, .drop _ => False
    | _, _ => True
  panic _ _ := True

/-- Tasks that shut down their own pool and pools of a higher rank only, and neither make nor give
    up any. -/
def Rule.ascending (rank : PoolId → Nat) : Rule where
  call
    | some pool, .shutdown id _ => id = pool ∨ rank pool < rank id
    | some _, .drop _ | some _, .start _ => False
    | _, _ => True
  panic _ _ := True

namespace World

section Waiting

variable {w : World} {thread : ThreadId} {id : PoolId} {p : Pool} {i : Nat}

theorem begin_isSome {next : Reply → Program} {c : Call} (hc : Rule.prompt.call (some id) c) :
    (w.begin thread next c).isSome = true := by
  cases c with
  | drop | gate | sleep => exact hc.elim
  | note | threadName => rfl
  | start | submitHeld | dropHeld | shutdown | read | announcePair =>
      simp only [begin]
      split <;> rfl

/-- A worker inside a prompt task can move, unless it is inside a call on a pool. -/
theorem task_moves_or {job : Job} {a : Activity} (hat : w.stageAt id i = some (.running job a))
    (hb : a.Obeys .prompt (some id)) :
    w.CanMove (.worker id i) ∨ ∃ j next, a = .inside j next := by
  have ha : w.activity? (.worker id i) = some a := by simp [activity?, hat, WorkerStage.activity?]
  cases a with
  | inside j next => exact .inr ⟨j, next, rfl⟩
  | asleep wakeAt next => exact hb.1.choose_spec.elim
  | going rest =>
      refine .inl ?_
      cases rest with
      | finish | panic => exact canMove_of_isOver hat rfl
      | make label work next => exact canMove_of_advance 0 ha rfl
      | call c next => exact canMove_of_advance 0 ha (begin_isSome hb.1)
      | submit j label work next =>
          refine canMove_of_advance 0 ha ?_
          simp only [advance]
          split <;> rfl

/-- A call can move, or it waits for a worker. -/
theorem call_moves_or_awaits (h : Reachable w) (hp : w.pools[id]? = some p) {s : CallStage}
    (hm : (thread, s) ∈ p.calls) : w.CanMove thread ∨ ∃ k, p.Awaits thread k := by
  have hmem := List.mem_of_getElem? hp
  have hx := (Pool.tasks_reachable h p hmem).1.exited
  exact (Pool.callStep_or_awaits (Pool.staffed_reachable h p hmem) hx hm).imp_left
    (canMove_of_callStep (sound_reachable h) hp hm)

/-- Who waits for a worker has closed the queue. -/
theorem closed_of_awaits (h : Reachable w) (hp : w.pools[id]? = some p)
    (ha : p.Awaits thread i) : p.queue.accepting = false := by
  obtain ⟨-, ⟨t, s⟩, hm, -, hw⟩ := ha
  have hfits := (Pool.orderly_reachable h p (List.mem_of_getElem? hp)).calls _ hm
  cases s with
  | joining mode why left joined =>
      have hc : p.Closed mode := hfits
      exact hc.closed
  | _ => cases hw

/-- **A worker of a closed pool can move**, unless it has ended or waits for a worker itself. -/
theorem worker_moves_or (h : Reachable w) (hw : w.Obeys .prompt) (hp : w.pools[id]? = some p)
    (hr : p.Remains i) (hc : p.queue.accepting = false) :
    w.CanMove (.worker id i) ∨
      ∃ (j : PoolId) (q : Pool) (k : Nat), w.pools[j]? = some q ∧ q.Awaits (.worker id i) k := by
  obtain ⟨s, hs, hf⟩ := hr
  have hs : p.stages[i]? = some s := hs
  cases ha : s.activity? with
  | none =>
      refine .inl (canMove_of_stage hp hs hf ha fun _ => ?_)
      rw [(Pool.queue_reachable h p (List.mem_of_getElem? hp)).attended.sleeping_of_closed hc]
      exact List.not_mem_nil
  | some a =>
      cases s with
      | running job a₀ =>
          cases ha
          have hat : w.stageAt id i = some (.running job a) := by simp [stageAt, hp, hs]
          have hb : a.Obeys .prompt (some p.id) :=
            (hw.pools p (List.mem_of_getElem? hp)).workers _ (List.mem_of_getElem? hs)
          rw [(sound_reachable h).numbered hp] at hb
          rcases task_moves_or hat hb with hm | ⟨j, next, rfl⟩
          · exact .inl hm
          · -- inside a pool it has a call there
            have hin : w.inside (.worker id i) = some j := by
              simp [inside, activity?, hat, WorkerStage.activity?, Activity.pool?]
            obtain ⟨q, hq, hcall⟩ := inside_listed h _ _ hin
            obtain ⟨⟨t, s'⟩, hm, rfl⟩ := List.mem_map.mp hcall
            rcases call_moves_or_awaits h hq hm with hmv | ⟨k, hk⟩
            · exact .inl hmv
            · exact .inr ⟨j, q, k, hq, hk⟩
      | _ => cases ha

/-- A worker that waits for another one of its pool has handles. -/
theorem joinees_of_awaits {k : Nat} (hi : p.Remains i) (ha : p.Awaits (.worker p.id i) k) :
    i ≠ k ∧ ∃ s, (.worker p.id i, s) ∈ p.calls ∧ s.joinees ≠ [] := by
  obtain ⟨-, ⟨t, s⟩, hm, rfl, hw⟩ := ha
  obtain ⟨s₀, hs₀, -⟩ := hi
  have hlt : i < p.workers.length := by
    simpa [Pool.stages] using (List.getElem?_eq_some_iff.mp hs₀).1
  cases s with
  | joining mode why left joined =>
      cases left with
      | nil => simp [CallStage.waitsFor, Pool.owns, hlt] at hw
      | cons first left =>
          obtain ⟨rfl, hne⟩ : first = k ∧ ThreadId.worker p.id i ≠ .worker p.id k := by
            simpa [CallStage.waitsFor] using hw
          exact ⟨fun e => hne (by rw [e]), _, hm, by simp⟩
  | _ => cases hw

/-- The worker waits for a worker of another pool. -/
def WaitsElsewhere (w : World) (id : PoolId) (i : Nat) : Prop :=
  ∃ (j : PoolId) (q : Pool) (k : Nat),
    j ≠ id ∧ w.pools[j]? = some q ∧ q.Awaits (.worker id i) k

/-- **Who has the handles waits for workers that have none**: they can move, unless they wait for
    another pool. -/
theorem holder_moves_or (h : Reachable w) (hw : w.Obeys .prompt) (hp : w.pools[id]? = some p)
    {s : CallStage} (hm : (thread, s) ∈ p.calls) (hj : s.joinees ≠ []) (ha : p.Awaits thread i) :
    w.CanMove (.worker id i) ∨ w.WaitsElsewhere id i := by
  have hst := Pool.staffed_reachable h p (List.mem_of_getElem? hp)
  obtain rfl := (sound_reachable h).numbered hp
  rcases worker_moves_or h hw hp ha.1 (closed_of_awaits h hp ha) with hmv | ⟨j, q, k, hq, hk⟩
  · exact .inl hmv
  by_cases hjid : j = p.id
  · exfalso
    subst hjid
    obtain rfl : q = p := Option.some.inj (hq.symm.trans hp)
    obtain ⟨-, s', hm', hj'⟩ := joinees_of_awaits ha.1 hk
    have ht : thread = .worker q.id i := hst.one _ hm _ hm' hj hj'
    -- a thread does not wait for itself
    obtain ⟨-, ⟨t, s₁⟩, hm₁, rfl, hw₁⟩ := ha
    obtain rfl := Pool.eq_of_mem_calls hst.nodup hm₁ hm
    cases s₁ with
    | joining mode why left joined =>
        cases left with
        | nil => exact hj rfl
        | cons first left =>
            obtain ⟨-, hne⟩ : first = i ∧ t ≠ .worker q.id i := by
              simpa [CallStage.waitsFor] using hw₁
            exact hne ht
    | _ => cases hw₁
  · exact .inr ⟨j, q, k, hjid, hq, hk⟩

/-- Who waits for every exit waits for each worker that is left. -/
theorem awaits_of_joined {s : CallStage} (hm : (thread, s) ∈ p.calls) (hj : s.joinees = [])
    (hn : p.callers.Nodup) (ha : p.Awaits thread i) {k : Nat} (hk : p.Remains k) :
    p.Awaits thread k := by
  obtain ⟨-, ⟨t, s₁⟩, hm₁, rfl, hw₁⟩ := ha
  obtain rfl := Pool.eq_of_mem_calls hn hm₁ hm
  cases s₁ with
  | joining mode why left joined =>
      cases left with
      | nil => exact ⟨hk, _, hm, rfl, hw₁⟩
      | cons first left => cases hj
  | _ => cases hw₁

/-- **A call can move, or it waits for a worker that can move or waits for another pool.** -/
theorem call_moves_or (h : Reachable w) (hw : w.Obeys .prompt) (hp : w.pools[id]? = some p)
    {s : CallStage} (hm : (thread, s) ∈ p.calls) :
    w.CanMove thread ∨
      ∃ i, p.Awaits thread i ∧ (w.CanMove (.worker id i) ∨ w.WaitsElsewhere id i) := by
  have hst := Pool.staffed_reachable h p (List.mem_of_getElem? hp)
  rcases call_moves_or_awaits h hp hm with hmv | ⟨i, hi⟩
  · exact .inl hmv
  refine .inr ?_
  by_cases hj : s.joinees = []
  · obtain rfl := (sound_reachable h).numbered hp
    rcases worker_moves_or h hw hp hi.1 (closed_of_awaits h hp hi) with hmv | ⟨j, q, k, hq, hk⟩
    · exact ⟨i, hi, .inl hmv⟩
    by_cases hjid : j = p.id
    · -- the worker it waits for has the handles, and waits for another one
      subst hjid
      obtain rfl : q = p := Option.some.inj (hq.symm.trans hp)
      obtain ⟨-, s', hm', hj'⟩ := joinees_of_awaits hi.1 hk
      exact ⟨k, awaits_of_joined hm hj hst.nodup hi hk.1, holder_moves_or h hw hp hm' hj' hk⟩
    · exact ⟨i, hi, .inr ⟨j, q, k, hjid, hq, hk⟩⟩
  · exact ⟨i, hi, holder_moves_or h hw hp hm hj hi⟩

/-- A worker waits only for its own pool and for pools of a higher rank. -/
theorem rank_of_awaits (h : Reachable w) {rank : PoolId → Nat} (hw : w.Obeys (.ascending rank))
    {j : PoolId} {q : Pool} {k : Nat} (hq : w.pools[j]? = some q)
    (ha : q.Awaits (.worker id i) k) : j = id ∨ rank id < rank j := by
  obtain ⟨-, ⟨t, s⟩, hm, rfl, hwait⟩ := ha
  have hobeys := (hw.pools q (List.mem_of_getElem? hq)).calls _ hm
  obtain rfl := (sound_reachable h).numbered hq
  cases s with
  | joining mode why left joined =>
      have hwaits : (Rule.ascending rank).Waits (some id) q.id := hobeys
      rcases hwaits with ⟨_, hc⟩ | hc | ⟨_, hc⟩
      · exact hc
      · exact hc.elim
      · exact hc.elim
  | _ => cases hwait

end Waiting

end World

/-! ## 4. One pool -/

open World

/-- **The shutdowns of a pool never deadlock** when tasks shut down their own pool only and do not
    wait by themselves; other threads do what they like. Every call in progress can move or waits
    for a worker that can; who is about to join a worker waits for one that can move, if it has not
    ended; a worker that waits for tasks can move once the queue is closed. So as long as a call has
    not returned, some thread has a step. -/
theorem own_shutdown_never_deadlocks {telemetry : Bool} {host : Host} {ls : List Label} {w : World}
    (hr : (World.initial telemetry host).run ls = some w)
    (hrule : ∀ program, .fork program ∈ ls →
      program.Obeys (.ascending fun _ => 0) none ∧ program.Obeys .prompt none)
    {id : PoolId} {p : Pool} (hp : w.pools[id]? = some p) :
    (∀ c ∈ p.calls, w.CanMove c.1 ∨ ∃ i, p.Awaits c.1 i ∧ w.CanMove (.worker id i)) ∧
    (∀ thread mode why first left joined,
      (thread, .joining mode why (first :: left) joined) ∈ p.calls → thread ≠ .worker id first →
        p.Remains first → w.CanMove (.worker id first)) ∧
    (p.queue.accepting = false → ∀ i, p.stages[i]? = some .popping → w.CanMove (.worker id i)) ∧
    (p.calls ≠ [] → ∃ thread, w.CanMove thread) := by
  have h : w.Reachable := (World.Reachable.initial telemetry host).run hr
  have hown := obeys_run (.initial telemetry host) (obeys_initial telemetry host) hr
    fun program hf => (hrule program hf).1
  have hprompt := obeys_run (.initial telemetry host) (obeys_initial telemetry host) hr
    fun program hf => (hrule program hf).2
  have hhere {i : Nat} (he : w.CanMove (.worker id i) ∨ w.WaitsElsewhere id i) :
      w.CanMove (.worker id i) := by
    refine he.resolve_right ?_
    rintro ⟨j, q, k, hne, hq, hk⟩
    rcases rank_of_awaits h hown hq hk with e | hlt
    · exact hne e
    · exact Nat.lt_irrefl _ hlt
  have hcall : ∀ c ∈ p.calls,
      w.CanMove c.1 ∨ ∃ i, p.Awaits c.1 i ∧ w.CanMove (.worker id i) := fun c hc =>
    (call_moves_or h hprompt hp hc).imp_right fun ⟨i, hi, he⟩ => ⟨i, hi, hhere he⟩
  refine ⟨hcall, ?_, fun hc i hs => ?_, fun hne => ?_⟩
  · intro thread mode why first left joined hm hne hrem
    obtain rfl := (sound_reachable h).numbered hp
    have ha : p.Awaits thread first := ⟨hrem, _, hm, rfl, by simp [CallStage.waitsFor, hne]⟩
    exact hhere (holder_moves_or h hprompt hp hm (List.cons_ne_nil _ _) ha)
  · refine canMove_of_stage hp hs rfl rfl fun _ => ?_
    rw [(Pool.queue_reachable h p (List.mem_of_getElem? hp)).attended.sleeping_of_closed hc]
    exact List.not_mem_nil
  · obtain ⟨c, hc⟩ := List.exists_mem_of_ne_nil _ hne
    rcases hcall c hc with hmv | ⟨i, -, hmv⟩
    · exact ⟨_, hmv⟩
    · exact ⟨_, hmv⟩

/-- A thread makes a pool of two workers, submits a task that shuts the pool down and one that
    submits to the pool and panics, and shuts the pool down itself. -/
def closers : Program :=
  .call (.start (Config.withThreads 2)) fun _ =>
    .submit 0 "closer" (.call (.shutdown 0 .graceful) fun _ => .finish []) fun _ =>
      .submit 0 "busy" (.submit 0 "more" (.finish []) fun _ => .panic (.bomb .foreign)) fun _ =>
        .call (.shutdown 0 .immediate) fun _ => .finish []

/-- The run until both shutdowns wait: the first worker's for the second worker, the thread's for
    every exit. -/
def closersSteps : List Label :=
  .fork closers :: (moves (.caller 0) 13 ++ moves (.worker 0 0) 11 ++ moves (.worker 0 1) 5 ++
    moves (.caller 0) 6)

/-- Two shutdowns of one pool wait, and what both wait for can move. -/
theorem own_shutdown_never_deadlocks_while_closing : ∃ (w : World) (p : Pool),
    w.pools[0]? = some p ∧ p.Awaits (.worker 0 0) 1 ∧ p.Awaits (.caller 0) 0 ∧
    ¬ w.CanMove (.worker 0 0) ∧ ∃ i, p.Awaits (.caller 0) i ∧ w.CanMove (.worker 0 i) := by
  have hrun : (((World.initial true {}).run closersSteps).any fun w => w.pools[0]?.any fun p =>
      decide (p.Awaits (.worker 0 0) 1 ∧ p.Awaits (.caller 0) 0)) = true := by decide
  obtain ⟨w, hr, hrun⟩ := (Option.any_eq_true ..).mp hrun
  obtain ⟨p, hp, hrun⟩ := (Option.any_eq_true ..).mp hrun
  obtain ⟨hworker, hcaller⟩ := of_decide_eq_true hrun
  have hrule : ∀ program, .fork program ∈ closersSteps →
      program.Obeys (.ascending fun _ => 0) none ∧ program.Obeys .prompt none := by
    intro program hm
    obtain rfl : program = closers := by simpa [closersSteps, moves] using hm
    simp [closers, Program.Obeys, Rule.ascending, Rule.prompt]
  have h : w.Reachable := (World.Reachable.initial true {}).run hr
  obtain ⟨hcalls, -⟩ := own_shutdown_never_deadlocks hr hrule hp
  obtain ⟨-, c, hc, he, -⟩ := id hcaller
  refine ⟨w, p, hp, hworker, hcaller, not_canMove_of_awaits h hp hworker, ?_⟩
  exact he ▸ (hcalls c hc).resolve_left (he ▸ not_canMove_of_awaits h hp hcaller)

/-! ## 5. Pools that shut down each other -/

/-- **Shutdowns across pools never deadlock** when the pools can be ranked so that tasks shut down
    their own pool and pools of a higher rank only; of a pair of pools, the tasks of one may then
    shut down both and those of the other their own. No two workers of different pools wait for each
    other, whatever else tasks wait for; and if tasks do not wait by themselves, some thread has a
    step as long as a call on any pool has not returned. -/
theorem ascending_shutdown_never_deadlocks {w₀ w : World} (h₀ : w₀.Reachable) {ls : List Label}
    (hr : w₀.run ls = some w) {rank : PoolId → Nat} (hup₀ : w₀.Obeys (.ascending rank))
    (hup : ∀ program, .fork program ∈ ls → program.Obeys (.ascending rank) none) :
    (∀ {a b : PoolId} {p q : Pool} {i j : Nat}, w.pools[a]? = some p → w.pools[b]? = some q →
      a ≠ b → ¬ (q.Awaits (.worker a i) j ∧ p.Awaits (.worker b j) i)) ∧
    (w₀.Obeys .prompt → (∀ program, .fork program ∈ ls → program.Obeys .prompt none) →
      ∀ {id : PoolId} {p : Pool}, w.pools[id]? = some p → p.calls ≠ [] →
        ∃ thread, w.CanMove thread) := by
  have h := h₀.run hr
  have hup := obeys_run h₀ hup₀ hr hup
  constructor
  · rintro a b p q i j hp hq hne ⟨hij, hji⟩
    rcases rank_of_awaits h hup hq hij with e | hab
    · exact hne e.symm
    · rcases rank_of_awaits h hup hp hji with e | hba
      · exact hne e
      · exact Nat.lt_asymm hab hba
  · intro hprompt₀ hprompt id p hp hcalls
    have hprompt := obeys_run h₀ hprompt₀ hr hprompt
    by_contra hstuck
    have hno (thread : ThreadId) : ¬ w.CanMove thread := fun hmv => hstuck ⟨thread, hmv⟩
    -- a pool of the highest rank among those with calls in progress
    let busy := (Finset.range w.pools.length).filter fun j =>
      ∃ q ∈ w.pools[j]?, Pool.calls q ≠ []
    have hmem {j : PoolId} {q : Pool} (hq : w.pools[j]? = some q) (hne : q.calls ≠ []) :
        j ∈ busy :=
      Finset.mem_filter.mpr
        ⟨Finset.mem_range.mpr (List.getElem?_eq_some_iff.mp hq).1, q, hq, hne⟩
    obtain ⟨top, htop, hmax⟩ := busy.exists_max_image rank ⟨id, hmem hp hcalls⟩
    obtain ⟨-, q, hq, hne⟩ := Finset.mem_filter.mp htop
    obtain ⟨c, hc⟩ := List.exists_mem_of_ne_nil _ hne
    rcases call_moves_or h hprompt hq hc with hmv | ⟨i, -, hmv | ⟨j, r, k, hjne, hr', hk⟩⟩
    · exact hno _ hmv
    · exact hno _ hmv
    · rcases rank_of_awaits h hup hr' hk with e | hlt
      · exact hjne e
      · obtain ⟨-, c', hc', -⟩ := hk
        have hle := hmax j (hmem hr' (List.ne_nil_of_mem hc'))
        exact Nat.not_lt_of_le hle hlt

/-- A thread makes a pair of pools of one worker each. A task on the first shuts the second down,
    one on the second asks for this, and then the thread shuts both down. -/
def paired (onSecond : Call) : Program :=
  PoolPair.new ⟨Config.withThreads 1, Config.withThreads 1⟩ fun _ =>
    .submit 0 "first" (.call (.shutdown 1 .graceful) fun _ => .finish []) fun _ =>
      .submit 1 "second" (.call onSecond fun _ => .finish []) fun _ =>
        PoolPair.shutdown ⟨0, 1⟩ .graceful (.finish [])

/-- The run until the first task waits in its shutdown and the second is about to ask. -/
def pairedSteps (onSecond : Call) : List Label :=
  .fork (paired onSecond) ::
    (moves (.caller 0) 17 ++ moves (.worker 0 0) 10 ++ moves (.worker 1 0) 5)

/-- Under a rule for tasks only, the thread may make its pair; its tasks have to keep to it. -/
theorem paired_obeys {rule : Rule} (hfree : ∀ c, rule.call none c)
    (hpanic : ∀ payload, rule.panic none payload) {onSecond : Call}
    (hfirst : rule.call (some 0) (.shutdown 1 .graceful)) (hsecond : rule.call (some 1) onSecond) :
    (paired onSecond).Obeys rule none := by
  have hrest : Program.Obeys rule (.submit 0 "first" (.call (.shutdown 1 .graceful) fun _ =>
      .finish []) fun _ => .submit 1 "second" (.call onSecond fun _ => .finish []) fun _ =>
        PoolPair.shutdown ⟨0, 1⟩ .graceful (.finish [])) none :=
    ⟨⟨hfirst, fun _ _ => trivial⟩, fun _ _ => ⟨⟨hsecond, fun _ _ => trivial⟩, fun _ _ =>
      ⟨hfree _, fun _ hr => Program.Obeys.uncaught ⟨hfree _, fun _ hr =>
        Program.Obeys.uncaught trivial (fun payload _ => hpanic payload) hr⟩
          (fun payload _ => hpanic payload) hr⟩⟩⟩
  unfold paired PoolPair.new
  split
  · exact hrest
  · refine ⟨hfree _, fun r _ => ?_⟩
    cases r with
    | pool cpu =>
        refine ⟨hfree _, fun r _ => ?_⟩
        cases r with
        | pool db => exact ⟨hfree _, fun _ _ => hrest⟩
        | failed e => exact ⟨hfree _, fun _ _ => ⟨hfree _, fun _ _ => hrest⟩⟩
        | _ => trivial
    | failed e => exact hrest
    | _ => trivial

/-- The second task shuts its own pool down: the thread waits for the first worker and this one for
    the second, which can move. -/
theorem ascending_shutdown_never_deadlocks_in_pair : ∃ (w : World) (c d : Pool),
    w.pools[0]? = some c ∧ w.pools[1]? = some d ∧ c.Awaits (.caller 0) 0 ∧
    d.Awaits (.worker 0 0) 0 ∧ ¬ c.Awaits (.worker 1 0) 0 ∧ ∃ thread, w.CanMove thread := by
  have hrun : (((World.initial true {}).run
      (pairedSteps (.shutdown 1 .immediate) ++ moves (.caller 0) 5)).any fun w =>
        w.pools[0]?.any fun c => w.pools[1]?.any fun d =>
          decide (c.Awaits (.caller 0) 0 ∧ d.Awaits (.worker 0 0) 0)) = true := by decide
  obtain ⟨w, hr, hrun⟩ := (Option.any_eq_true ..).mp hrun
  obtain ⟨c, hc, hrun⟩ := (Option.any_eq_true ..).mp hrun
  obtain ⟨d, hd, hrun⟩ := (Option.any_eq_true ..).mp hrun
  obtain ⟨hcaller, hworker⟩ := of_decide_eq_true hrun
  have hrules (rule : Rule) (hrule : (paired (.shutdown 1 .immediate)).Obeys rule none) :
      ∀ program, .fork program ∈ pairedSteps (.shutdown 1 .immediate) ++ moves (.caller 0) 5 →
        program.Obeys rule none := by
    intro program hm
    obtain rfl : program = paired (.shutdown 1 .immediate) := by
      simpa [pairedSteps, moves] using hm
    exact hrule
  have hup : (paired (.shutdown 1 .immediate)).Obeys (.ascending id) none :=
    paired_obeys (fun _ => trivial) (fun _ => trivial) (.inr Nat.zero_lt_one) (.inl rfl)
  have hprompt : (paired (.shutdown 1 .immediate)).Obeys .prompt none :=
    paired_obeys (fun _ => trivial) (fun _ => trivial) trivial trivial
  obtain ⟨hno, hgo⟩ := ascending_shutdown_never_deadlocks (.initial true {}) hr
    (obeys_initial true {}) (hrules _ hup)
  obtain ⟨-, call, hcall, -⟩ := id hcaller
  exact ⟨w, c, d, hc, hd, hcaller, hworker, fun hw => hno hc hd (by decide) ⟨hworker, hw⟩,
    hgo (obeys_initial true {}) (hrules _ hprompt) hc (List.ne_nil_of_mem hcall)⟩

/-- **The pools of a pair can deadlock** if tasks of each shut the other one down: the worker of the
    first is about to join that of the second, which is about to join that of the first, and neither
    can move. -/
theorem pair_can_deadlock : ∃ (w : World) (c d : Pool),
    (World.initial true {}).run (pairedSteps (.shutdown 0 .graceful) ++ moves (.worker 1 0) 5) =
      some w ∧
    w.pools[0]? = some c ∧ w.pools[1]? = some d ∧ d.Awaits (.worker 0 0) 0 ∧
    c.Awaits (.worker 1 0) 0 ∧ ¬ w.CanMove (.worker 0 0) ∧ ¬ w.CanMove (.worker 1 0) := by
  have hrun : (((World.initial true {}).run
      (pairedSteps (.shutdown 0 .graceful) ++ moves (.worker 1 0) 5)).any fun w =>
        w.pools[0]?.any fun c => w.pools[1]?.any fun d =>
          decide (d.Awaits (.worker 0 0) 0 ∧ c.Awaits (.worker 1 0) 0)) = true := by decide
  obtain ⟨w, hr, hrun⟩ := (Option.any_eq_true ..).mp hrun
  obtain ⟨c, hc, hrun⟩ := (Option.any_eq_true ..).mp hrun
  obtain ⟨d, hd, hrun⟩ := (Option.any_eq_true ..).mp hrun
  obtain ⟨hfirst, hsecond⟩ := of_decide_eq_true hrun
  have h : w.Reachable := (World.Reachable.initial true {}).run hr
  exact ⟨w, c, d, hr, hc, hd, hfirst, hsecond, not_canMove_of_awaits h hd hfirst,
    not_canMove_of_awaits h hc hsecond⟩

end WorkerPool
