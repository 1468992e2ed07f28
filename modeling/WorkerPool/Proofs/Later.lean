import WorkerPool.Proofs.Formed

/-!
# What lasts in a pool

A shutdown's work is never undone: flags are not lowered, the queue is not opened again, a worker
whose thread has ended does not come back, and no worker is added once the pool drains.

* `Pool.Later` -- a pool and what has become of it;
* `WorkerMove.later`, `CallMove.later`, `Change.later` -- by one move, by one change;
* `run_later` -- by a run; `serving_between` -- a pool that takes calls has never ceased to.
-/

namespace WorkerPool

/-- How far a pool is in its life. -/
def Life.rank : Life → Nat
  | .building => 0
  | .serving => 1
  | .ending => 2
  | .released => 3

theorem Life.rank_le_released (l : Life) : l.rank ≤ Life.released.rank := by
  cases l <;> decide

namespace Pool

/-! ## 1. Later pools -/

/-- Every worker's thread has ended. -/
def AllExited (p : Pool) : Prop := ∀ s ∈ p.stages, s.isFinished = true

/-- The queue is closed and empty. -/
def Spent (p : Pool) : Prop := p.queue.accepting = false ∧ p.queue.items = []

/-- `q` is what has become of `p`: what was released, raised, closed, emptied or ended is so still,
    and the trace has grown. -/
structure Later (p q : Pool) : Prop where
  id : q.id = p.id
  measured : q.metrics.isSome = p.metrics.isSome
  released : p.life = .released → q.life = .released
  draining : p.draining = true → q.draining = true
  halt : p.halt = true → q.halt = true
  closed : p.queue.accepting = false → q.queue.accepting = false
  spent : p.Spent → q.queue.items = []
  workers : p.draining = true → q.stages.length = p.stages.length
  finished : ∀ {i : Nat} {c : Bool}, p.stages[i]? = some (.finished c) →
    q.stages[i]? = some (.finished c)
  burst : ∀ {i : Nat} {c : Bool}, p.stages[i]? = some (.finished c) → q.burst? i = p.burst? i
  trace : ∃ new, q.trace = new ++ p.trace ∧
    (p.queue.accepting = false → ∀ t, .accepted t ∉ new) ∧
    (p.draining = true → p.AllExited → ∀ t label i, .started t label i ∉ new)

theorem Later.refl (p : Pool) : Later p p :=
  ⟨rfl, rfl, fun h => h, fun h => h, fun h => h, fun h => h, And.right, fun _ => rfl, fun h => h,
    fun _ => rfl, [], rfl, fun _ _ h => List.not_mem_nil h, fun _ _ _ _ _ h => List.not_mem_nil h⟩

/-- When everybody is gone, everybody stays gone and nobody comes. -/
theorem Later.stages_eq {p q : Pool} (h : Later p q) (hd : p.draining = true)
    (he : p.AllExited) : q.stages = p.stages := by
  refine List.ext_getElem (h.workers hd) fun i hq hp => ?_
  obtain ⟨crashed, hc⟩ := WorkerStage.isFinished_iff.mp (he _ (List.getElem_mem hp))
  have hlater := h.finished (List.getElem?_eq_some_iff.mpr ⟨hp, hc⟩)
  rw [hc]
  exact (List.getElem?_eq_some_iff.mp hlater).2

theorem Later.allExited {p q : Pool} (h : Later p q) (hd : p.draining = true)
    (he : p.AllExited) : q.AllExited := by
  intro s hs
  rw [h.stages_eq hd he] at hs
  exact he s hs

theorem Later.trans {p q r : Pool} (h : Later p q) (h' : Later q r) : Later p r where
  id := h'.id.trans h.id
  measured := h'.measured.trans h.measured
  released hl := h'.released (h.released hl)
  draining hd := h'.draining (h.draining hd)
  halt hh := h'.halt (h.halt hh)
  closed hc := h'.closed (h.closed hc)
  spent hs := h'.spent ⟨h.closed hs.1, h.spent hs⟩
  workers hd := (h'.workers (h.draining hd)).trans (h.workers hd)
  finished hf := h'.finished (h.finished hf)
  burst hf := (h'.burst (h.finished hf)).trans (h.burst hf)
  trace := by
    obtain ⟨new, e, ha, hs⟩ := h.trace
    obtain ⟨new', e', ha', hs'⟩ := h'.trace
    refine ⟨new' ++ new, by rw [e', e, List.append_assoc], fun hc t ht => ?_, ?_⟩
    · rcases List.mem_append.mp ht with ht | ht
      · exact ha' (h.closed hc) t ht
      · exact ha hc t ht
    · intro hd he t label i ht
      rcases List.mem_append.mp ht with ht | ht
      · exact hs' (h.draining hd) (h.allExited hd he) t label i ht
      · exact hs hd he t label i ht

/-- A trace loses nothing. -/
theorem Later.mem_trace {p q : Pool} (h : Later p q) {e : Happening} (he : e ∈ p.trace) :
    e ∈ q.trace := by
  obtain ⟨new, hq, -⟩ := h.trace
  rw [hq]
  exact List.mem_append_right new he

/-- The workers of a pool that drains are the workers of the pool ever after. -/
theorem Later.owns {p q : Pool} (h : Later p q) (hd : p.draining = true) (thread : ThreadId) :
    q.owns thread = p.owns thread := by
  have hlen : q.workers.length = p.workers.length := by
    simpa [stages] using h.workers hd
  cases thread with
  | caller i => rfl
  | worker pool i => rw [Pool.owns, h.id, hlen, Pool.owns]

/-! ## 2. One change -/

/-- Where flags and workers are as they were, nothing is put into the queue, and nothing new in the
    trace is an acceptance or a start. -/
theorem Later.of_frame {p q : Pool} {new : List Happening} (hid : q.id = p.id)
    (hm : q.metrics = p.metrics) (hd : q.draining = p.draining) (hh : q.halt = p.halt)
    (ha : q.queue.accepting = p.queue.accepting)
    (hi : p.queue.items = [] → q.queue.items = []) (hw : q.workers = p.workers)
    (hl : p.life = .released → q.life = .released) (ht : q.trace = new ++ p.trace)
    (hnew : ∀ e ∈ new, (∀ t, e ≠ .accepted t) ∧ ∀ t label i, e ≠ .started t label i) :
    Later p q where
  id := hid
  measured := congrArg Option.isSome hm
  released := hl
  draining := hd.trans
  halt := hh.trans
  closed := ha.trans
  spent h := hi h.2
  workers _ := by rw [stages, hw, stages]
  finished hf := by rwa [stages, hw, ← stages]
  burst _ := by rw [burst?, hw, burst?]
  trace := ⟨new, ht, fun _ t h => (hnew _ h).1 t rfl, fun _ _ t label i h =>
    (hnew _ h).2 t label i rfl⟩

theorem later_setStage {p : Pool} {i : Nat} {s : WorkerStage} (hs : p.stages[i]? = some s)
    (hf : s.isFinished = false) (s' : WorkerStage) : Later p (p.setStage i s') := by
  refine ⟨rfl, rfl, fun h => h, fun h => h, fun h => h, fun h => h, And.right, fun _ => ?_,
    fun {j c} hj => ?_, fun {j c} _ => burst?_setStage p i s' j, [], rfl, by simp, by simp⟩
  · rw [World.stages_setStage, List.length_set]
  · have hij : i ≠ j := by
      rintro rfl
      rw [← Option.some.inj (hj.symm.trans hs)] at hf
      cases hf
    rw [World.stages_setStage, List.getElem?_set_ne hij, hj]

theorem later_calls (p : Pool) (calls : List (ThreadId × CallStage)) :
    Later p { p with calls := calls } :=
  .of_frame rfl rfl rfl rfl rfl (fun h => h) rfl (fun h => h) (List.nil_append _).symm (by simp)

theorem later_note (p : Pool) (n : Note) : Later p (p.log (.note n)) :=
  .of_frame rfl rfl rfl rfl rfl (fun h => h) rfl (fun h => h) (List.singleton_append ..).symm
    (by simp)

theorem later_wake (p : Pool) (i : Nat) : Later p { p with queue := p.queue.wake i } :=
  .of_frame rfl rfl rfl rfl (by simp) (fun h => by simpa using h) rfl (fun h => h)
    (List.nil_append _).symm (by simp)

theorem later_follow (p : Pool) (thread : ThreadId) (next : CallStep) :
    Later p (p.follow thread next) := by
  cases next <;> exact later_calls p _

/-- Who moves has not ended. -/
theorem WorkerMove.not_finished {p q : Pool} {i : Nat} {s s' : WorkerStage}
    (h : WorkerMove p i s q s') : s.isFinished = false := by
  cases h <;> rfl

/-- A worker fills no queue and closes none. -/
theorem WorkerMove.queue {p q : Pool} {i : Nat} {s s' : WorkerStage} (h : WorkerMove p i s q s') :
    q.queue.accepting = p.queue.accepting ∧ (p.queue.items = [] → q.queue.items = []) := by
  cases h with
  | pops task queue hs hq =>
      obtain ⟨hi, ha⟩ := Queue.attempt_item hq
      exact ⟨ha, fun he => by simp [he] at hi⟩
  | findsNothing queue hs hq =>
      obtain ⟨-, -, hi, ha⟩ := Queue.attempt_nothingMore hq
      exact ⟨ha, fun he => hi.trans he⟩
  | sleeps queue hs hq =>
      obtain ⟨-, -, hi, ha⟩ := Queue.attempt_sleep hq
      exact ⟨ha, fun he => hi.trans he⟩
  | _ => exact ⟨rfl, fun he => he⟩

theorem WorkerMove.trace {p q : Pool} {i : Nat} {s s' : WorkerStage} (h : WorkerMove p i s q s') :
    ∃ new, q.trace = new ++ p.trace ∧ ∀ t, .accepted t ∉ new := by
  cases h with
  | pops | starts | popsTooLate | discards | begins | returns | panics | reports | stops =>
      exact ⟨[_], rfl, by simp⟩
  | _ => exact ⟨[], rfl, by simp⟩

/-- A worker touches nothing of what another has left behind. -/
theorem WorkerMove.burst {p q : Pool} {i : Nat} {s s' : WorkerStage} (h : WorkerMove p i s q s')
    {j : Nat} (hj : i ≠ j) : q.burst? j = p.burst? j := by
  cases h with
  | crashes | countsPanic | countsExecuted => simp [burst?, countFor, hj]
  | _ => rfl

theorem WorkerMove.measured {p q : Pool} {i : Nat} {s s' : WorkerStage}
    (h : WorkerMove p i s q s') : q.metrics.isSome = p.metrics.isSome := by
  cases h <;> simp

theorem WorkerMove.later {p q : Pool} {i : Nat} {s s' : WorkerStage} (h : WorkerMove p i s q s')
    (hs : p.stages[i]? = some s) : Later p q := by
  have hu := h.untouched
  obtain ⟨ha, hi⟩ := h.queue
  obtain ⟨new, e, hacc⟩ := h.trace
  have hgoing := h.not_finished
  refine ⟨hu.id, h.measured, hu.life.trans, hu.draining.trans, hu.halt.trans, ha.trans,
    fun hs => hi hs.2, fun _ => congrArg List.length hu.stages, fun hj => hu.stages ▸ hj,
    fun {j c} hj => h.burst ?_, new, e, fun _ => hacc, fun _ he => ?_⟩
  · rintro rfl
    rw [Option.some.inj (hs.symm.trans hj)] at hgoing
    cases hgoing
  · rw [he _ (List.mem_of_getElem? hs)] at hgoing
    cases hgoing

/-- A call lowers no flag and opens no queue. -/
theorem CallMove.flags {p q : Pool} {thread : ThreadId} {s : CallStage} {next : CallStep}
    (h : CallMove p thread s q next) :
    (p.draining = true → q.draining = true) ∧ (p.halt = true → q.halt = true) ∧
      (p.queue.accepting = false → q.queue.accepting = false) ∧
      (p.Spent → q.queue.items = []) := by
  cases h with
  | pushes task choice ha =>
      refine ⟨fun hd => hd, fun hh => hh, fun hc => ?_, fun hs => ?_⟩
      · rw [ha] at hc
        cases hc
      · rw [Spent, ha] at hs
        cases hs.1
  | closes => exact ⟨fun hd => hd, fun hh => hh, fun _ => rfl, And.right⟩
  | swaps | raises => exact ⟨fun _ => rfl, fun hh => hh, fun hc => hc, And.right⟩
  | halts => exact ⟨fun hd => hd, fun _ => rfl, fun hc => hc, And.right⟩
  | findsEmpty | empties => exact ⟨fun hd => hd, fun hh => hh, fun hc => hc, fun _ => rfl⟩
  | _ => exact ⟨fun hd => hd, fun hh => hh, fun hc => hc, And.right⟩

/-- A call starts no task, and accepts none after the queue is closed. -/
theorem CallMove.trace {p q : Pool} {thread : ThreadId} {s : CallStage} {next : CallStep}
    (h : CallMove p thread s q next) :
    ∃ new, q.trace = new ++ p.trace ∧ (p.queue.accepting = false → ∀ t, .accepted t ∉ new) ∧
      ∀ t label i, .started t label i ∉ new := by
  cases h with
  | pushes task choice ha => exact ⟨[_], rfl, by simp [ha], by simp⟩
  | spawned | mayPush | mayNotPush | countsSubmitted | closes | waits | waitsToEmpty | tallies
  | records | discardsLast | findsShut | releases => exact ⟨[], rfl, by simp, by simp⟩
  | spawnFails | countsRejectedKept | detaches | joinsCrashed | joinsBurst | concludes | reports =>
      exact ⟨[_, _], rfl, by simp, by simp⟩
  | _ => exact ⟨[_], rfl, by simp, by simp⟩

/-- A call touches nothing of what workers have left behind. -/
theorem CallMove.burst {p q : Pool} {thread : ThreadId} {s : CallStage} {next : CallStep}
    (h : CallMove p thread s q next) {i : Nat} (hi : i < p.stages.length) :
    q.burst? i = p.burst? i := by
  cases h with
  | spawns =>
      have hi : i < p.workers.length := by simpa [stages] using hi
      simp [burst?, List.getElem?_append_left hi]
  | _ => rfl

theorem CallMove.measured {p q : Pool} {thread : ThreadId} {s : CallStage} {next : CallStep}
    (h : CallMove p thread s q next) : q.metrics.isSome = p.metrics.isSome := by
  cases h <;> simp

theorem CallMove.released {p q : Pool} {thread : ThreadId} {s : CallStage} {next : CallStep}
    (h : CallMove p thread s q next) (hp : Formed p) (hs : (thread, s) ∈ p.calls)
    (hl : p.life = .released) : q.life = .released := by
  cases h with
  | opens =>
      have := (hp.founding _ hs rfl).2.1
      rw [hl] at this
      cases this
  | releases => rfl
  | _ => exact hl

theorem CallMove.later {p q : Pool} {thread : ThreadId} {s : CallStage} {next : CallStep}
    (h : CallMove p thread s q next) (hp : Formed p) (hs : (thread, s) ∈ p.calls) : Later p q := by
  obtain ⟨hid, -, hst⟩ := h.frame
  obtain ⟨hd, hh, hc, he⟩ := h.flags
  obtain ⟨new, e, ha, hstart⟩ := h.trace
  refine ⟨hid, h.measured, h.released hp hs, hd, hh, hc, he, fun hdr => congrArg List.length ?_,
    fun {i c} hi => ?_, fun {i c} hi => h.burst (List.getElem?_eq_some_iff.mp hi).1, new, e, ha,
    fun _ _ => hstart⟩
  · refine hst.resolve_right fun ⟨hf, _⟩ => ?_
    -- nobody starts workers in a pool that drains
    have := (hp.founding _ hs hf).2.2.1
    rw [hdr] at this
    cases this
  · rcases hst with e | ⟨-, e⟩
    · rw [e, hi]
    · rw [e, List.getElem?_append_left (List.getElem?_eq_some_iff.mp hi).1, hi]

theorem Entry.later {p q : Pool} {s : CallStage} (h : Entry p q s) (hs : p.life = .serving) :
    Later p q := by
  cases h with
  | offers task hf =>
      exact .of_frame rfl rfl rfl rfl rfl (fun h => h) rfl (fun h => h)
        (List.singleton_append ..).symm (by simp)
  | asks mode => exact .refl p
  | givesUp hc =>
      refine .of_frame rfl rfl rfl rfl rfl (fun h => h) rfl (fun hl => ?_)
        (List.nil_append _).symm (by simp)
      rw [hs] at hl
      cases hl

/-- **What a change of the pool leads to is later.** -/
theorem Change.later {p q : Pool} (hp : Formed p) (h : Change p q) : Later p q := by
  cases h with
  | @work i worker q s hw h =>
      have hs : p.stages[i]? = some worker.stage := stages_getElem?.mpr ⟨worker, hw, rfl⟩
      refine (h.later hs).trans (later_setStage ?_ h.not_finished s)
      rw [h.untouched.stages, hs]
  | call hl h => exact (h.later hp (mem_of_lookup hl)).trans (later_follow _ _ _)
  | enter hs ht h => exact (h.later hs).trans (later_calls _ _)
  | note n => exact later_note p n
  | wake i => exact later_wake p i
  | reclaim h =>
      obtain ⟨-, -, rfl⟩ := reclaim_cases h
      exact .of_frame rfl rfl rfl rfl rfl (fun _ => rfl) rfl (fun h => h) rfl (by simp)

/-- The life of a pool goes on only. -/
theorem Change.life {p q : Pool} (hp : Formed p) (h : Change p q) :
    p.life.rank ≤ q.life.rank := by
  cases h with
  | work hw h => exact Nat.le_of_eq (congrArg Life.rank h.untouched.life.symm)
  | @call thread s r next hl h =>
      rw [life_follow]
      cases h with
      | opens =>
          rw [(hp.founding _ (mem_of_lookup hl) rfl).2.1]
          exact Nat.zero_le _
      | releases => exact p.life.rank_le_released
      | _ => exact Nat.le_refl _
  | enter hs ht h =>
      cases h with
      | givesUp hc =>
          rw [hs]
          exact Nat.le_succ 1
      | _ => exact Nat.le_refl _
  | note n => exact Nat.le_refl _
  | wake i => exact Nat.le_refl _
  | reclaim h =>
      obtain ⟨-, -, rfl⟩ := reclaim_cases h
      exact Nat.le_refl _

/-! ## 3. Runs -/

/-- **Along every run a pool becomes later.** -/
theorem run_later {w w' : World} (h : w.Reachable) {ls : List Label} (hr : w.run ls = some w')
    {id : PoolId} {p q : Pool} (hp : w.pools[id]? = some p) (hq : w'.pools[id]? = some q) :
    Later p q :=
  run_induction (fun hf hl hc => hl.trans (hc.later hf)) h hr hp hq (.refl p)

/-- A pool that takes calls now and then takes them all the time between. -/
theorem serving_between {w v w' : World} (h : w.Reachable) {ls ls' : List Label}
    (hr : w.run ls = some v) (hr' : v.run ls' = some w') {id : PoolId} {p q : Pool}
    (hp : w.serving? id = some p) (hq : w'.serving? id = some q) :
    ∃ r, v.serving? id = some r := by
  obtain ⟨hp, hlp⟩ := World.serving_iff.mp hp
  obtain ⟨hq, hlq⟩ := World.serving_iff.mp hq
  obtain ⟨r, hv, -⟩ := h.run_change hr hp
  refine ⟨r, World.serving_iff.mpr ⟨hv, ?_⟩⟩
  have hup {w v : World} {ls : List Label} {p r : Pool} (h : w.Reachable)
      (hr : w.run ls = some v) (hp : w.pools[id]? = some p) (hv : v.pools[id]? = some r) :
      p.life.rank ≤ r.life.rank :=
    run_induction (fun hf hle hc => Nat.le_trans hle (hc.life hf)) h hr hp hv (Nat.le_refl _)
  have hfrom := hup h hr hp hv
  have hto := hup (h.run hr) hr' hv hq
  rw [hlp] at hfrom
  rw [hlq] at hto
  revert hfrom hto
  cases r.life <;> simp [Life.rank]

end Pool

/-! ## 4. A run to look at -/

/-- A thread makes a pool of one worker, submits a task, shuts the pool down and submits another. -/
def lifetime (mode : Mode) : Program :=
  .call (.start (Config.withThreads 1)) fun _ => .submit 0 "first" (.finish []) fun _ =>
    .call (.shutdown 0 mode) fun _ => .submit 0 "late" (.finish []) fun _ => .finish []

/-- So many moves of this thread. -/
def moves (thread : ThreadId) (n : Nat) : List Label := List.replicate n (.act thread 0)

/-- The run until the first task is accepted. -/
def firstSteps (mode : Mode) : List Label := .fork (lifetime mode) :: moves (.caller 0) 8

/-- What can be computed of the first pool of two worlds on one run holds of pools in them. -/
theorem exists_pools (ls ls' : List Label) (f g : Pool → Bool)
    (h : (((World.initial true {}).run ls).any fun w => w.pools[0]?.any f &&
      (w.run ls').any fun w' => w'.pools[0]?.any g) = true) :
    ∃ (w w' : World) (p p' : Pool), w.Reachable ∧ w.run ls' = some w' ∧ w.pools[0]? = some p ∧
      w'.pools[0]? = some p' ∧ f p = true ∧ g p' = true := by
  obtain ⟨w, hw, h⟩ := (Option.any_eq_true ..).mp h
  obtain ⟨hf, hg⟩ := Bool.and_eq_true_iff.mp h
  obtain ⟨p, hp, hf⟩ := (Option.any_eq_true ..).mp hf
  obtain ⟨w', hw', hg⟩ := (Option.any_eq_true ..).mp hg
  obtain ⟨p', hp', hg⟩ := (Option.any_eq_true ..).mp hg
  exact ⟨w, w', p, p', (World.Reachable.initial true {}).run hw, hw', hp, hp', hf, hg⟩

end WorkerPool
