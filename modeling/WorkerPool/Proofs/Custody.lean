import WorkerPool.Proofs.Following
import WorkerPool.Proofs.Order
import WorkerPool.Proofs.Staff

/-!
# Pools in the hands of one thread

While a pool is made, and as long as its maker has told nobody of it, one thread alone calls on the
pool. No task comes near it then, and the others can do little to it: its workers go round with
nothing in their hands, and a sleeper is woken for no reason. So what becomes of the pool is what
its thread does.

* `Pool.tries`, `Pool.shutdowns`, `Pool.returns` -- which threads were asked for, and which
  shutdowns have begun and returned, in order;
* `Pool.Custody` -- the pool is in the hands of one thread;
* `Pool.Aside`, `step_aside` -- what a step does to the pool that is not the thread's;
* `own_call`, `own_start`, `own_shutdown`, `own_drop` -- what a step of the thread does.
-/

namespace WorkerPool

/-- The worker has no task in its hands, and no panic has driven it out. -/
def WorkerStage.idle : WorkerStage → Bool
  | .starting | .checkingHalt | .popping | .stopping | .leaving false | .finished false => true
  | _ => false

/-- The refusal of a worker's thread. -/
def Purpose.isStartFailed : Purpose → Bool
  | .startFailed _ _ => true
  | _ => false

/-- The call neither brings a task nor has found any in the queue, and no panic ends it. -/
def CallStage.isErrand : CallStage → Bool
  | .checking _ | .pushing _ | .admitted | .refusing _ _ | .rejecting _ _ | .tallying _ _ _
  | .recording _ _ _ | .discarding _ _ _ | .unwinding _ _ _ _ => false
  | _ => true

/-- Only the thread that makes the pool is at this stage, until it is told the pool or the error. -/
def CallStage.ofMaker : CallStage → Bool
  | .spawning _ _ | .opening => true
  | .swapping why | .raising why | .halting why | .announcing _ why | .closing _ why
  | .taking _ why | .joining _ why _ _ | .unwinding why _ _ _ | .concluding why _ | .emptying why _
  | .tallying why _ _ | .recording why _ _ | .discarding why _ _ | .reporting why _ =>
    why.isStartFailed
  | .dropping (.failed _) | .releasing (.failed _) => true
  | _ => false

/-- The worker whose thread is asked for. -/
@[simp]
def Happening.tries? : Happening → Option Nat
  | .spawnTried i => some i
  | _ => none

/-- The thread that begins a shutdown, and the mode. -/
@[simp]
def Happening.shuts? : Happening → Option (ThreadId × Mode)
  | .called t mode => some (t, mode)
  | _ => none

/-- The thread whose shutdown returns, the mode, and the number of workers joined. -/
@[simp]
def Happening.returns? : Happening → Option (ThreadId × Mode × Nat)
  | .returned t mode n => some (t, mode, n)
  | _ => none

/-- A task comes to the pool, is turned away, is run or thrown away. -/
@[simp]
def Happening.ofTask : Happening → Bool
  | .offered _ | .accepted _ | .refused _ | .popped _ _ | .started _ _ _ | .ended _ _
  | .dropped _ _ => true
  | .removed tasks => !tasks.isEmpty
  | _ => false

/-- The label is a move of a worker of this pool. -/
def Label.isWork (id : PoolId) : Label → Bool
  | .act (.worker j _) _ => j = id
  | _ => false

/-- A worker of this pool is woken for no reason. -/
def Label.isWake (id : PoolId) : Label → Bool
  | .wake j _ => j = id
  | _ => false

namespace Pool

/-! ## 1. Custody -/

/-- The workers whose threads were asked for, in order. -/
def tries (p : Pool) : List Nat := inOrder Happening.tries? p.trace

/-- The shutdowns that have begun, in order. -/
def shutdowns (p : Pool) : List (ThreadId × Mode) := inOrder Happening.shuts? p.trace

/-- The shutdowns that have returned, in order. -/
def returns (p : Pool) : List (ThreadId × Mode × Nat) := inOrder Happening.returns? p.trace

/-- No thread but this one is inside a call on the pool, and it is no worker of the pool. No task
    has ever come near the pool. -/
structure Custody (p : Pool) (thread : ThreadId) : Prop where
  alone : ∀ t ∈ p.callers, t = thread
  outside : ∀ i, thread ≠ .worker p.id i
  items : p.queue.items = []
  idle : ∀ s ∈ p.stages, s.idle = true
  untouched : ∀ e ∈ p.trace, e.ofTask = false
  handles : p.handles.length ≤ p.stages.length

/-- No panic has driven a worker out of a pool that no task has come near. -/
theorem Custody.not_crashed {p : Pool} {thread : ThreadId} (hc : p.Custody thread) (i : Nat) :
    p.stageOf? i ≠ some (.finished true) := by
  intro hs
  cases hc.idle _ (List.mem_of_getElem? (p.stageOf?_eq i ▸ hs))

/-- What a step with this label does to the pool if it is not a step of the thread that has the pool
    in its hands. -/
inductive Aside (p : Pool) : Label → Pool → Prop where
  | same {l : Label} (hl : l.isWork p.id = false) : Aside p l p
  | note {l : Label} (hl : l.isWork p.id = false) (n : Note) : Aside p l (p.log (.note n))
  | work {i choice : Nat} {s s' : WorkerStage} {q : Pool} (hs : p.stages[i]? = some s)
      (h : WorkerMove p i s q s') : Aside p (.act (.worker p.id i) choice) (q.setStage i s')
  | wake (i : Nat) : Aside p (.wake p.id i) { p with queue := p.queue.wake i }

/-- Two pools that differ at most in the places of threads and in who sleeps. -/
structure Unmoved (p q : Pool) : Prop where
  id : q.id = p.id
  size : q.size = p.size
  life : q.life = p.life
  handles : q.handles = p.handles
  stages : q.stages.length = p.stages.length
  tries : q.tries = p.tries
  shutdowns : q.shutdowns = p.shutdowns
  returns : q.returns = p.returns

section Aside

variable {p q : Pool} {thread : ThreadId} {l : Label}

theorem Unmoved.refl (p : Pool) : Unmoved p p := ⟨rfl, rfl, rfl, rfl, rfl, rfl, rfl, rfl⟩

theorem Unmoved.trans {r : Pool} (h : Unmoved p q) (h' : Unmoved q r) : Unmoved p r where
  id := h'.id.trans h.id
  size := h'.size.trans h.size
  life := h'.life.trans h.life
  handles := h'.handles.trans h.handles
  stages := h'.stages.trans h.stages
  tries := h'.tries.trans h.tries
  shutdowns := h'.shutdowns.trans h.shutdowns
  returns := h'.returns.trans h.returns

theorem unmoved_follow (p : Pool) (thread : ThreadId) (next : CallStep) :
    Unmoved p (p.follow thread next) := by
  cases next <;> exact ⟨rfl, rfl, rfl, rfl, rfl, rfl, rfl, rfl⟩

/-- **A step that is not the thread's moves little.** -/
theorem Aside.unmoved (h : p.Aside l q) : p.Unmoved q := by
  cases h with
  | same hl => exact .refl p
  | note hl n =>
      exact ⟨rfl, rfl, rfl, rfl, rfl, by simp [tries], by simp [shutdowns], by simp [returns]⟩
  | wake i => exact ⟨rfl, rfl, rfl, rfl, rfl, rfl, rfl, rfl⟩
  | @work i choice s s' q hs h =>
      have hu := h.untouched
      have hst : (q.setStage i s').stages.length = p.stages.length := by
        rw [World.stages_setStage, List.length_set, hu.stages]
      have htrace : (q.setStage i s').tries = p.tries ∧ (q.setStage i s').shutdowns = p.shutdowns ∧
          (q.setStage i s').returns = p.returns := by
        cases h <;> simp [tries, shutdowns, returns, setStage]
      exact ⟨hu.id, h.size, hu.life, hu.handles, hst, htrace.1, htrace.2.1, htrace.2.2⟩

theorem Aside.calls (h : p.Aside l q) : q.calls = p.calls := by
  cases h with
  | work hs h => exact h.untouched.calls
  | _ => rfl

/-- A worker with nothing in its hands goes on so while the queue is empty. -/
theorem WorkerMove.idle {i : Nat} {s s' : WorkerStage} (h : WorkerMove p i s q s')
    (hs : s.idle = true) (hq : p.queue.items = []) :
    s'.idle = true ∧ q.queue.items = [] ∧
      ∀ e ∈ q.trace, e ∈ p.trace ∨ e.ofTask = false := by
  cases h with
  | pops task queue hsl hat =>
      rw [(Queue.attempt_item hat).1] at hq
      cases hq
  | findsNothing queue hsl hat =>
      obtain ⟨-, -, hi, -⟩ := Queue.attempt_nothingMore hat
      exact ⟨rfl, hi.trans hq, fun e he => .inl he⟩
  | sleeps queue hsl hat =>
      obtain ⟨-, -, hi, -⟩ := Queue.attempt_sleep hat
      exact ⟨rfl, hi.trans hq, fun e he => .inl he⟩
  | starts | stops =>
      refine ⟨rfl, hq, fun e he => ?_⟩
      rcases List.mem_cons.mp he with rfl | he
      · exact .inr rfl
      · exact .inl he
  | seesHalt | seesNoHalt => exact ⟨rfl, hq, fun e he => .inl he⟩
  | exits crashed =>
      cases crashed with
      | false => exact ⟨rfl, hq, fun e he => .inl he⟩
      | true => cases hs
  | _ => cases hs

/-- **What the others do leaves the pool in the thread's hands.** -/
theorem Aside.custody (h : p.Aside l q) (hc : p.Custody thread) : q.Custody thread := by
  have hu := h.unmoved
  have halone : ∀ t ∈ q.callers, t = thread := by
    rw [callers, h.calls]
    exact hc.alone
  have hout : ∀ i, thread ≠ .worker q.id i := hu.id ▸ hc.outside
  have hhandles : q.handles.length ≤ q.stages.length := by
    rw [hu.handles, hu.stages]
    exact hc.handles
  cases h with
  | same hl => exact hc
  | note hl n =>
      refine ⟨halone, hout, hc.items, hc.idle, fun e he => ?_, hhandles⟩
      rcases List.mem_cons.mp he with rfl | he
      · rfl
      · exact hc.untouched e he
  | wake i => exact ⟨halone, hout, by simpa using hc.items, hc.idle, hc.untouched, hhandles⟩
  | @work i choice s s' q hs h =>
      obtain ⟨hs', hi, ht⟩ := h.idle (hc.idle s (List.mem_of_getElem? hs)) hc.items
      refine ⟨halone, hout, hi, fun s₁ hm => ?_, fun e he => ?_, hhandles⟩
      · rw [World.stages_setStage, h.untouched.stages] at hm
        rcases List.mem_or_eq_of_mem_set hm with hm | rfl
        · exact hc.idle s₁ hm
        · exact hs'
      · exact (ht e he).elim (hc.untouched e) fun h => h

end Aside

/-! ## 2. Moves of the thread -/

section Own

variable {p q : Pool} {thread : ThreadId} {s : CallStage} {next : CallStep}

/-- **What the thread does leaves the pool in its hands**, as long as it brings no task: nothing is
    in the queue, so it finds none. -/
theorem CallMove.custody (h : CallMove p thread s q next) (hc : p.Custody thread)
    (hs : s.isErrand = true) : (q.follow thread next).Custody thread := by
  obtain ⟨hid, hcalls, -⟩ := h.frame
  have halone : ∀ t ∈ (q.follow thread next).callers, t = thread := fun t ht => by
    have ht := (callers_follow_sublist q thread next).subset ht
    rw [callers, hcalls] at ht
    exact hc.alone t ht
  have hout : ∀ i, thread ≠ .worker (q.follow thread next).id i := by
    rw [id_follow, hid]
    exact hc.outside
  suffices hq : q.queue.items = [] ∧ (∀ s ∈ q.stages, s.idle = true) ∧
      (∀ e ∈ q.trace, e.ofTask = false) ∧ q.handles.length ≤ q.stages.length by
    obtain ⟨hi, hidle, ht, hh⟩ := hq
    exact ⟨halone, hout, (queue_follow q thread next).symm ▸ hi,
      (stages_follow q thread next).symm ▸ hidle, (trace_follow q thread next).symm ▸ ht,
      by rwa [handles_follow, stages_follow]⟩
  have hfresh (new : List Happening) (hnew : ∀ e ∈ new, e.ofTask = false) :
      ∀ e ∈ new ++ p.trace, e.ofTask = false := fun e he =>
    (List.mem_append.mp he).elim (hnew e) (hc.untouched e)
  cases h with
  | spawns n refusal =>
      refine ⟨hc.items, fun s hm => ?_, hfresh [_] (by simp), ?_⟩
      · rcases List.mem_append.mp (by simpa [stages] using hm : s ∈ p.stages ++ [.starting])
          with hm | hm
        · exact hc.idle s hm
        · rw [List.mem_singleton.mp hm]
          rfl
      · simpa [stages] using hc.handles
  | takes => exact ⟨hc.items, hc.idle, hfresh [_] (by simp), Nat.zero_le _⟩
  | findsEmpty => exact ⟨rfl, hc.idle, hfresh [_] (by simp), hc.handles⟩
  | empties why joined hne => exact absurd hc.items hne
  | spawnFails | concludes | reports | detaches | joinsCrashed =>
      exact ⟨hc.items, hc.idle, hfresh [_, _] (by simp), hc.handles⟩
  | joinsBurst mode why first left joined payload ht hst => exact absurd hst (hc.not_crashed first)
  | opens | swaps | raises | halts | announces | shutsFirst | findsDraining | joins =>
      exact ⟨hc.items, hc.idle, hfresh [_] (by simp), hc.handles⟩
  | spawned | waits | waitsToEmpty | findsShut | releases | closes =>
      exact ⟨hc.items, hc.idle, hc.untouched, hc.handles⟩
  | _ => cases hs

end Own

/-! ## 3. Pools that are made -/

/-- While a pool is made, and while one that could not be made is shut down and given up, its maker
    alone is inside a call on it. -/
def Making (p : Pool) : Prop :=
  ∀ c ∈ p.calls, c.2.ofMaker = true → p.calls = [c] ∧ p.life = .building

theorem CallMove.making {p q : Pool} {thread : ThreadId} {s s' : CallStage}
    (h : CallMove p thread s q (.stage s')) (hs : s'.ofMaker = true) :
    s.ofMaker = true ∧ q.life = p.life := by
  generalize hn : CallStep.stage s' = next at h
  cases h with
  | breaksOff why =>
      cases why <;> cases hn
      all_goals cases hs
  | findsDraining why | concludes why | reports why =>
      cases why with
      | startFailed => exact ⟨rfl, rfl⟩
      | asked => cases hn
      | givingUp =>
          cases hn
          cases hs
  | findsShut outcome =>
      cases hn
      cases outcome with
      | failed e => exact ⟨rfl, rfl⟩
      | _ => cases hs
  | spawns | spawnFails | spawned => exact ⟨rfl, rfl⟩
  | _ =>
      cases hn
      all_goals first | exact ⟨hs, rfl⟩ | cases hs

theorem Making.change {p q : Pool} (hp : Making p) (h : Change p q) :
    Making q := by
  cases h with
  | work hw h =>
      intro c hc hm
      have hu := h.untouched
      obtain ⟨hcalls, hlife⟩ := hp c (hu.calls ▸ hc) hm
      exact ⟨hu.calls.trans hcalls, hu.life.trans hlife⟩
  | @call thread s r next hl h =>
      obtain ⟨-, hcalls, -⟩ := h.frame
      intro c hc hm
      rcases mem_follow hc with ⟨rfl, rfl⟩ | ⟨hne, hc⟩
      · obtain ⟨hs, hlife⟩ := h.making hm
        obtain ⟨he, hl'⟩ := hp _ (mem_of_lookup hl) hs
        refine ⟨?_, hlife.trans hl'⟩
        simp [follow, setCall, hcalls, he]
      · -- another thread cannot be inside a call while the pool is made
        have he := (hp c (hcalls ▸ hc) hm).1
        have hl' := mem_of_lookup hl
        rw [he] at hl'
        exact absurd (congrArg Prod.fst (List.mem_singleton.mp hl')).symm hne
  | @enter thread r s hs ht h =>
      have hcalls : r.calls = p.calls := by cases h <;> rfl
      have hnew : s.ofMaker = false := by
        cases h with
        | asks mode => cases mode <;> rfl
        | _ => rfl
      intro c hc hm
      rcases List.mem_cons.mp hc with rfl | hc
      · exact absurd (hnew.symm.trans hm) Bool.false_ne_true
      · have hl' := (hp c (hcalls ▸ hc) hm).2
        rw [hs] at hl'
        cases hl'
  | note n => exact hp
  | wake i => exact hp
  | reclaim h =>
      obtain ⟨-, -, rfl⟩ := reclaim_cases h
      exact hp

theorem Fresh.making {p : Pool} (h : Fresh p) : Making p := by
  obtain ⟨thread, refusal, hc⟩ := h.blank.calls
  intro c hm _
  rw [hc] at hm
  rw [hc, List.mem_singleton.mp hm]
  exact ⟨rfl, h.blank.life⟩

theorem making_reachable {w : World} (h : w.Reachable) : ∀ p ∈ w.pools, Making p :=
  Invariant.reachable ⟨Fresh.making, Making.change⟩ h

end Pool

namespace World

open Pool (Custody Aside CallMove)

/-! ## 4. Steps of the others -/

section Others

variable {w w' : World} {thread t : ThreadId} {id : PoolId} {p : Pool}

/-- On its way through its program a thread that is not inside a call on the pool, and does not
    begin one, writes at most a note. -/
theorem Touches.aside {before after : Activity} {ps : List Pool}
    (h : Touches w t before ps after) (hp : w.pools[id]? = some p) (hout : t ∉ p.callers)
    (hin : ∀ q, ps[id]? = some q → t ∉ q.callers) :
    ∃ q, ps[id]? = some q ∧ (q = p ∨ ∃ n, q = p.log (.note n)) := by
  cases h with
  | nothing ha => exact ⟨p, hp, .inl rfl⟩
  | notes n hr ha =>
      exact related_set (R := fun p q => q = p ∨ ∃ n, q = p.log (.note n)) (fun _ => .inl rfl) hp hr
        (.inr ⟨n, rfl⟩)
  | founds config refusal hb =>
      have hlt := (List.getElem?_eq_some_iff.mp hp).1
      exact ⟨p, (List.getElem?_append_left hlt).trans hp, .inl rfl⟩
  | @enters j r q s next hr hb =>
      by_cases hj : j = id
      · subst hj
        exact absurd (List.mem_cons_self ..) (hin _ (set_of_getElem? hr _))
      · exact ⟨p, (List.getElem?_set_ne hj).trans hp, .inl rfl⟩
  | @moves j r q s step next hb hr hl h =>
      by_cases hj : j = id
      · subst hj
        obtain rfl : r = p := Option.some.inj (hr.symm.trans hp)
        exact absurd (List.mem_map_of_mem (Pool.mem_of_lookup hl)) hout
      · exact ⟨p, (List.getElem?_set_ne hj).trans hp, .inl rfl⟩

/-- **What a step does to a pool in the hands of a thread** if the thread does nothing to it: the
    step is another's, or the thread is elsewhere before and after. The pool stays in its hands. -/
theorem step_aside (h : w.Reachable) {l : Label} (hs : w.step l = some w')
    (hp : w.pools[id]? = some p) (hc : p.Custody thread)
    (hq : ∀ q, w'.pools[id]? = some q → ∀ t ∈ q.callers, t = thread)
    (hl : l.isOf thread = true →
      thread ∉ p.callers ∧ ∀ q, w'.pools[id]? = some q → thread ∉ q.callers) :
    ∃ q, w'.pools[id]? = some q ∧ p.Aside l q := by
  have hS := sound_reachable h
  obtain rfl : p.id = id := hS.numbered hp
  cases l with
  | fork program | openGate name | tick nanos =>
      cases hs
      exact ⟨p, hp, .same rfl⟩
  | wake j k =>
      obtain ⟨r, hr, hs⟩ := Option.bind_eq_some_iff.mp hs
      split at hs <;> cases hs
      obtain rfl := hS.numbered hr
      exact related_set (R := fun p q => p.Aside _ q) (fun _ => .same rfl) hp hr (.wake k)
  | reclaim j =>
      obtain ⟨r, hr, hs⟩ := Option.bind_eq_some_iff.mp hs
      obtain ⟨r', hr', rfl⟩ := Option.map_eq_some_iff.mp hs
      by_cases hj : j = p.id
      · subst hj
        obtain rfl : r = p := Option.some.inj (hr.symm.trans hp)
        simp [Pool.reclaim, hc.items] at hr'
      · exact ⟨p, (List.getElem?_set_ne hj).trans hp, .same rfl⟩
  | act t choice =>
      have hout : t ∉ p.callers := fun hm => by
        obtain rfl := hc.alone t hm
        exact (hl (by simp [Label.isOf])).1 hm
      have hin (q : Pool) (hq' : w'.pools[p.id]? = some q) : t ∉ q.callers := fun hm => by
        obtain rfl := hq q hq' t hm
        exact (hl (by simp [Label.isOf])).2 q hq' hm
      have hidle {k : Nat} {s : WorkerStage} (hat : w.stageAt p.id k = some s) :
          s.idle = true := by
        rw [stageAt, hp] at hat
        exact hc.idle s (List.mem_of_getElem? hat)
      cases act_acts hS hs with
      | caller hi hpass hv =>
          obtain ⟨q, hq', he⟩ := hpass.touches.aside hp hout hin
          refine ⟨q, hq', ?_⟩
          rcases he with rfl | ⟨n, rfl⟩
          · exact .same rfl
          · exact .note rfl n
      | @task j k r job before after v hat hpass hv hr hid hst =>
          by_cases hj : j = p.id
          · subst hj
            cases hidle hat
          · have hset : (v.pools.set j (r.setStage k (.running job after)))[p.id]? =
                v.pools[p.id]? := List.getElem?_set_ne hj
            obtain ⟨q, hq', he⟩ := hpass.touches.aside hp hout fun q hq' =>
              hin q (hset.trans hq')
            have hno : (Label.act (.worker j k) choice).isWork p.id = false := by
              simpa [Label.isWork] using hj
            refine ⟨q, hset.trans hq', ?_⟩
            rcases he with rfl | ⟨n, rfl⟩
            · exact .same hno
            · exact .note hno n
      | @work j k r q s s' hr hst hm hend =>
          by_cases hj : j = p.id
          · subst hj
            obtain rfl : r = p := Option.some.inj (hr.symm.trans hp)
            exact ⟨_, set_of_getElem? hr _, .work hst hm⟩
          · exact ⟨p, (List.getElem?_set_ne hj).trans hp,
              .same (by simpa [Label.isWork] using hj)⟩

/-- **While a pool is made nobody else comes to it.** -/
theorem step_making (h : w.Reachable) {l : Label} (hs : w.step l = some w')
    (hp : w.pools[id]? = some p) {s : CallStage} (hm : (thread, s) ∈ p.calls)
    (hmake : s.ofMaker = true) (hl : l.isOf thread = false) {q : Pool}
    (hq : w'.pools[id]? = some q) : ∀ t ∈ q.callers, t = thread := by
  obtain ⟨r, hr, hsp⟩ := step_spares (sound_reachable h) hs thread hp
  obtain rfl : q = r := Option.some.inj (hq.symm.trans hr)
  have hm' := hsp.calls (by simp [hl]) s hm
  have hcalls := (Pool.making_reachable (h.step l hs) q (List.mem_of_getElem? hq) _ hm' hmake).1
  intro t ht
  rw [Pool.callers, hcalls] at ht
  exact List.mem_singleton.mp ht

end Others

/-! ## 5. Steps of the thread -/

section Own

variable {w w' : World} {thread : ThreadId} {id : PoolId} {p : Pool} {l : Label}
  {next : Reply → Program}

/-- The thread is no worker of this pool. -/
def Outside (thread : ThreadId) (id : PoolId) : Prop := ∀ i, thread ≠ .worker id i

/-- A thread is outside a pool that is not there yet. -/
theorem outside_of_activity {a : Activity} (ha : w.activity? thread = some a)
    (hid : w.pools.length ≤ id) : Outside thread id := by
  rintro i rfl
  obtain ⟨job, hat⟩ := stageAt_of_activity? ha
  obtain ⟨p, hp, -⟩ := Option.bind_eq_some_iff.mp hat
  exact absurd (List.getElem?_eq_some_iff.mp hp).1 (Nat.not_lt_of_le hid)

/-- A step of the thread through its program, as the pools see it of which it is no worker. -/
theorem own_step (h : w.Reachable) (hs : w.step l = some w') {a : Activity}
    (ha : w.activity? thread = some a) (hl : l.isOf thread = true) (hgo : a.isOver = false) :
    ∃ choice v a', w.advance thread choice a = some (v, a') ∧ w'.activity? thread = some a' ∧
      ∀ j, Outside thread j → w'.pools[j]? = v.pools[j]? := by
  obtain ⟨choice, v, a', hadv, ha', hpools⟩ := step_own (sound_reachable h) hs ha hl hgo
  refine ⟨choice, v, a', hadv, ha', fun j hj => ?_⟩
  rcases hpools with e | ⟨k, i, job, rfl, e⟩
  · rw [e]
  · have hk : k ≠ j := fun e => hj i (e ▸ rfl)
    rw [e, List.getElem?_modify]
    simp [hk]

/-- Inside a call, a step of the thread is the next step of the call. -/
theorem own_callStep (h : w.Reachable) (hs : w.step l = some w')
    (ha : w.activity? thread = some (.inside id next)) (hl : l.isOf thread = true)
    (hp : w.pools[id]? = some p) {s : CallStage} (hm : (thread, s) ∈ p.calls)
    (hout : Outside thread id) :
    ∃ choice q step, p.callStep thread choice s = some (q, step) ∧
      w'.pools[id]? = some (q.follow thread step) ∧
      w'.activity? thread = some (step.activity id next) := by
  obtain ⟨choice, q, step, q', hq, ha', hq', -, hall⟩ :=
    step_callStep (sound_reachable h) hs ha hl hp hm
  exact ⟨choice, q, step, hq, hall hout ▸ hq', ha'⟩

/-- Inside a call, a step of the thread is a move of the call. -/
theorem own_call (h : w.Reachable) (hs : w.step l = some w')
    (ha : w.activity? thread = some (.inside id next)) (hl : l.isOf thread = true)
    (hp : w.pools[id]? = some p) {s : CallStage} (hm : (thread, s) ∈ p.calls)
    (hout : Outside thread id) :
    ∃ q step, CallMove p thread s q step ∧ w'.pools[id]? = some (q.follow thread step) ∧
      w'.activity? thread = some (step.activity id next) := by
  obtain ⟨choice, q, step, hq, hpool, hact⟩ := own_callStep h hs ha hl hp hm hout
  exact ⟨q, step, Pool.callStep_move hq, hpool, hact⟩

/-- The first step of making a pool. -/
theorem own_start (h : w.Reachable) (hs : w.step l = some w') {config : Config}
    (ha : w.activity? thread = some (.going (.call (.start config) next)))
    (hl : l.isOf thread = true) (hv : config.validate = .ok ()) :
    w'.activity? thread = some (.inside w.pools.length next) ∧
    w'.pools[w.pools.length]? = some ((Pool.ofConfig w.pools.length config w.host.cpus w.telemetry
      w.now).enter thread (.spawning 0 (w.host.refusal w.pools.length config))) := by
  obtain ⟨choice, v, a', hadv, ha', hpools⟩ := own_step h hs ha hl rfl
  simp only [advance, begin, hv, Option.some.injEq, Prod.mk.injEq] at hadv
  obtain ⟨rfl, rfl⟩ := hadv
  refine ⟨ha', ?_⟩
  rw [hpools _ (outside_of_activity ha (Nat.le_refl _))]
  exact List.getElem?_concat_length

/-- The first step of an immediate shutdown. -/
theorem own_shutdown (h : w.Reachable) (hs : w.step l = some w')
    (ha : w.activity? thread = some (.going (.call (.shutdown id .immediate) next)))
    (hl : l.isOf thread = true) (hp : w.pools[id]? = some p) (hlife : p.life = .serving)
    (hout : Outside thread id) :
    w'.activity? thread = some (.inside id next) ∧
    w'.pools[id]? = some (p.enter thread (.raising .asked)) := by
  obtain ⟨choice, v, a', hadv, ha', hpools⟩ := own_step h hs ha hl rfl
  simp only [advance, begin, serving_iff.mpr ⟨hp, hlife⟩, Option.some.injEq,
    Prod.mk.injEq] at hadv
  obtain ⟨rfl, rfl⟩ := hadv
  exact ⟨ha', (hpools id hout).trans (set_of_getElem? hp _)⟩

/-- The first step of giving a pool up. -/
theorem own_drop (h : w.Reachable) (hs : w.step l = some w')
    (ha : w.activity? thread = some (.going (.call (.drop id) next)))
    (hl : l.isOf thread = true) (hp : w.pools[id]? = some p) (hlife : p.life = .serving)
    (hc : p.calls = []) (hout : Outside thread id) :
    w'.activity? thread = some (.inside id next) ∧
    w'.pools[id]? = some ({ p with life := .ending }.enter thread (.dropping .done)) := by
  obtain ⟨choice, v, a', hadv, ha', hpools⟩ := own_step h hs ha hl rfl
  have hfree : p.calls.isEmpty = true := List.isEmpty_iff.mpr hc
  simp only [advance, begin, serving_iff.mpr ⟨hp, hlife⟩, hfree, if_true, Option.some.injEq,
    Prod.mk.injEq] at hadv
  obtain ⟨rfl, rfl⟩ := hadv
  exact ⟨ha', (hpools id hout).trans (set_of_getElem? hp _)⟩

end Own

end World

end WorkerPool
