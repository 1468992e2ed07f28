import WorkerPool.Proofs.Formed

/-!
# The passage of a thread through its program

What a step of a thread does to the pools is told by what its program asks for, and what the program
goes on with is told by the answer. This file says so once, request by request, so that what is
known of a program can be followed through its run.

* `World.Passage` -- a step of a thread through its program; `advance_passage`;
* `World.Acts` -- a step of a thread: of a caller, of a worker inside its task, of a worker outside;
  `act_acts`;
* `inside_listed` -- a thread that is inside a pool has a call there;
* `step_worker` -- what a step of the world does to a worker outside its task.
-/

namespace WorkerPool

/-- What the program goes on with, told the answer to what it asks for now. -/
@[simp]
def Activity.next? : Activity → Option (Reply → Program)
  | .going (.finish _) | .going (.panic _) => none
  | .going (.submit _ _ _ next) | .going (.make _ _ next) | .going (.call _ next)
  | .inside _ next | .asleep _ next => some next

/-- The reply is no panic. Only a call on a pool, once it is inside, can end by one. -/
def Reply.isPlain : Reply → Bool
  | .unwound _ => false
  | _ => true

/-- After a step that does not lead into a pool: the program was answered, or it sleeps. -/
inductive Activity.Answered (before : Activity) : Activity → Prop where
  | told {next : Reply → Program} (r : Reply) (hr : r.isPlain = true)
      (h : before.next? = some next) : Answered before (.going (next r))
  | sleeps {nanos : Nat} {next : Reply → Program} (wakeAt : Nat)
      (h : before = .going (.call (.sleep nanos) next)) : Answered before (.asleep wakeAt next)

theorem Activity.Answered.pool? {before after : Activity} (h : before.Answered after) :
    after.pool? = none := by
  cases h <;> rfl

/-- Where the program is after a step of its call on this pool. -/
def CallStep.activity (id : PoolId) (next : Reply → Program) : CallStep → Activity
  | .stage _ => .inside id next
  | .reply r => .going (next r)

theorem Pool.isPlain_read (p : Pool) (gauge : Gauge) : (p.read gauge).isPlain = true := by
  cases gauge <;> rfl

namespace World

open Pool (CallMove WorkerMove)

theorem isPlain_nameOf (w : World) (thread : ThreadId) : (w.nameOf thread).isPlain = true := by
  cases thread with
  | caller i => rfl
  | worker pool i =>
      rw [nameOf]
      split <;> rfl

/-! ## 1. Through the program -/

/-- A call that a program begins on a pool, with the pool and the first stage of the call. -/
inductive Begins (w : World) (id : PoolId) (p : Pool) (next : Reply → Program) :
    Activity → Pool → CallStage → Prop where
  | submits (label : String) (work : Program) (task : Task) (hw : task.work = work) :
      Begins w id p next (.going (.submit id label work next)) (p.log (.offered task.id))
        (.checking task)
  | brings (held task : Task) (hh : held ∈ w.held) (hw : task.work = held.work) :
      Begins w id p next (.going (.call (.submitHeld id held.id) next)) (p.log (.offered task.id))
        (.checking task)
  | shutsDown (mode : Mode) :
      Begins w id p next (.going (.call (.shutdown id mode) next)) p mode.entry
  | givesUp : Begins w id p next (.going (.call (.drop id) next)) { p with life := .ending }
      (.dropping .done)

/-- What a step of `thread` does to the pools, from `before` on: the pools after it, and how far
    the thread has got then. -/
inductive Touches (w : World) (thread : ThreadId) (before : Activity) :
    List Pool → Activity → Prop where
  | nothing {after : Activity} (ha : before.Answered after) : Touches w thread before w.pools after
  | notes {id : PoolId} {p : Pool} {after : Activity} (n : Note) (hp : w.pools[id]? = some p)
      (ha : before.Answered after) :
      Touches w thread before (w.pools.set id (p.log (.note n))) after
  | founds (config : Config) (refusal : Nat → Option SystemError) {next : Reply → Program}
      (hb : before = .going (.call (.start config) next)) :
      Touches w thread before
        (w.pools ++ [(Pool.ofConfig w.pools.length config w.host.cpus w.telemetry w.now).enter
          thread (.spawning 0 refusal)]) (.inside w.pools.length next)
  | enters {id : PoolId} {p q : Pool} {s : CallStage} {next : Reply → Program}
      (hp : w.pools[id]? = some p) (hb : Begins w id p next before q s) :
      Touches w thread before (w.pools.set id (q.enter thread s)) (.inside id next)
  | moves {id : PoolId} {p q : Pool} {s : CallStage} {step : CallStep} {next : Reply → Program}
      (hb : before = .inside id next) (hp : w.pools[id]? = some p)
      (hl : p.calls.lookup thread = some s) (h : CallMove p thread s q step) :
      Touches w thread before (w.pools.set id (q.follow thread step)) (step.activity id next)

/-- A step of `thread` through its program, from `before` to `after`. -/
structure Passage (w : World) (thread : ThreadId) (before : Activity) (w' : World)
    (after : Activity) : Prop where
  touches : Touches w thread before w'.pools after
  callers : w'.callers = w.callers
  held : ∀ task ∈ w'.held, task ∈ w.held ∨
    ∃ label next, before = .going (.make label task.work next)

section Passing

variable {w w' : World} {thread : ThreadId} {before after : Activity}

theorem Passage.aside (hp : w'.pools = w.pools) (hc : w'.callers = w.callers)
    (hh : ∀ task ∈ w'.held, task ∈ w.held) (ha : before.Answered after) :
    Passage w thread before w' after :=
  ⟨hp ▸ .nothing ha, hc, fun task ht => .inl (hh task ht)⟩

theorem begin_passage {next : Reply → Program} {c : Call}
    (h : w.begin thread next c = some (w', after)) :
    Passage w thread (.going (.call c next)) w' after := by
  have told {v : World} (r : Reply) (hr : r.isPlain = true) (hp : v.pools = w.pools)
      (hc : v.callers = w.callers) (hh : ∀ task ∈ v.held, task ∈ w.held) :
      Passage w thread (.going (.call c next)) v (.going (next r)) :=
    .aside hp hc hh (.told r hr rfl)
  have hself (r : Reply) (hr : r.isPlain = true) :
      Passage w thread (.going (.call c next)) w (.going (next r)) :=
    told r hr rfl rfl fun _ ht => ht
  cases c <;> simp only [begin] at h
  case start config =>
    split at h <;> cases h
    · exact hself _ rfl
    · exact ⟨.founds config _ rfl, rfl, fun _ ht => .inl ht⟩
  case submitHeld id tid =>
    split at h <;> cases h
    · next p task hs ht =>
      obtain rfl : task.id = tid := by simpa using List.find?_some ht
      exact ⟨.enters (serving_iff.mp hs).1
        (.brings task { task with enqueuedAt := w.now } (List.mem_of_find?_eq_some ht) rfl), rfl,
        fun _ ht => .inl (List.mem_filter.mp ht).1⟩
    · exact hself _ rfl
  case dropHeld tid =>
    split at h <;> cases h
    · exact hself _ rfl
    · exact told _ rfl rfl rfl fun _ ht => (List.mem_filter.mp ht).1
  case shutdown id mode =>
    split at h <;> cases h
    · exact hself _ rfl
    · next p hs =>
      have hp := (serving_iff.mp hs).1
      cases mode
      · exact ⟨.enters hp (.shutsDown .graceful), rfl, fun _ ht => .inl ht⟩
      · exact ⟨.enters hp (.shutsDown .immediate), rfl, fun _ ht => .inl ht⟩
  case drop id =>
    split at h
    · cases h
      exact hself _ rfl
    · next p hs =>
      split at h <;> cases h
      exact ⟨.enters (serving_iff.mp hs).1 .givesUp, rfl, fun _ ht => .inl ht⟩
  case note n =>
    cases h
    cases thread with
    | caller i => exact told _ rfl rfl rfl fun _ ht => ht
    | worker id i =>
        cases hp : w.pools[id]? with
        | none =>
            exact told _ rfl (List.modify_eq_self (List.getElem?_eq_none_iff.mp hp)) rfl
              fun _ ht => ht
        | some p =>
            have hpools : (w.write n (.worker id i)).pools = w.pools.set id (p.log (.note n)) :=
              modify_of_getElem? hp _
            exact ⟨hpools ▸ .notes n hp (.told _ rfl rfl), rfl, fun _ ht => .inl ht⟩
  case read id gauge =>
    split at h <;> cases h
    · exact hself _ rfl
    · exact hself _ (Pool.isPlain_read ..)
  case announcePair cpu db =>
    split at h <;> cases h
    · exact told _ rfl rfl rfl fun _ ht => ht
    · exact hself _ rfl
  case gate name =>
    split at h <;> cases h
    exact hself _ rfl
  case threadName =>
    cases h
    exact hself _ (isPlain_nameOf ..)
  case sleep nanos =>
    cases h
    exact .aside rfl rfl (fun _ ht => ht) (.sleeps _ rfl)

/-- **Every step of a thread through its program is such a passage.** -/
theorem advance_passage {choice : Nat} (h : w.advance thread choice before = some (w', after)) :
    Passage w thread before w' after := by
  cases before with
  | inside id next =>
      obtain ⟨p, hp, h⟩ := Option.bind_eq_some_iff.mp h
      obtain ⟨s, hl, h⟩ := Option.bind_eq_some_iff.mp h
      obtain ⟨⟨q, step⟩, hq, h⟩ := Option.map_eq_some_iff.mp h
      have hm := Pool.callStep_move hq
      cases step <;> cases h
      all_goals exact ⟨.moves rfl hp hl hm, rfl, fun _ ht => .inl ht⟩
  | asleep wakeAt next =>
      simp only [advance] at h
      split at h <;> cases h
      exact .aside rfl rfl (fun _ ht => ht) (.told _ rfl rfl)
  | going program =>
      cases program with
      | finish answers => cases h
      | panic payload => cases h
      | call c next => exact begin_passage h
      | make label work next =>
          cases h
          refine ⟨.nothing (.told _ rfl rfl), rfl, fun task ht => ?_⟩
          rcases List.mem_append.mp ht with ht | ht
          · exact .inl ht
          · rw [List.mem_singleton.mp ht]
            exact .inr ⟨label, next, rfl⟩
      | submit id label work next =>
          simp only [advance] at h
          split at h <;> cases h
          · exact .aside rfl rfl (fun _ ht => ht) (.told _ rfl rfl)
          · next p hs =>
            exact ⟨.enters (serving_iff.mp hs).1
              (.submits label work { w.fresh label work with enqueuedAt := w.now } rfl), rfl,
              fun _ ht => .inl ht⟩

end Passing

/-! ## 2. Steps of threads -/

/-- A step of a thread: along its program, or of a worker outside its task or at the task's end. -/
inductive Acts (w : World) : ThreadId → World → Prop where
  | caller {i : Nat} {before after : Activity} {v : World} (hi : w.callers[i]? = some before)
      (h : Passage w (.caller i) before v after) (hv : v.inside = w.inside) :
      Acts w (.caller i) { v with callers := v.callers.set i after }
  | task {id : PoolId} {i : Nat} {p : Pool} {job : Job} {before after : Activity} {v : World}
      (hi : w.stageAt id i = some (.running job before))
      (h : Passage w (.worker id i) before v after) (hv : v.inside = w.inside)
      (hp : v.pools[id]? = some p) (hid : p.id = id)
      (hs : p.stages[i]? = some (.running job before)) :
      Acts w (.worker id i)
        { v with pools := v.pools.set id (p.setStage i (.running job after)) }
  | work {id : PoolId} {i : Nat} {p q : Pool} {s s' : WorkerStage} (hp : w.pools[id]? = some p)
      (hs : p.stages[i]? = some s) (h : WorkerMove p i s q s')
      (hout : ∀ job activity, s = .running job activity → s'.activity? = none) :
      Acts w (.worker id i) { w with pools := w.pools.set id (q.setStage i s') }

theorem stageAt_of_activity? {w : World} {id : PoolId} {i : Nat} {a : Activity}
    (ha : w.activity? (.worker id i) = some a) : ∃ job, w.stageAt id i = some (.running job a) := by
  obtain ⟨s, hs, he⟩ := Option.bind_eq_some_iff.mp ha
  cases s with
  | running job a₀ =>
      cases he
      exact ⟨job, hs⟩
  | _ => cases he

/-- The step of a worker inside its task is that of the task. -/
theorem act_running {w : World} {id : PoolId} {i : Nat} {job : Job} {a : Activity}
    (hat : w.stageAt id i = some (.running job a)) (choice : Nat) :
    ∃ p, w.act (.worker id i) choice = w.actInTask id p i choice job a := by
  obtain ⟨p, hp, hs⟩ := Option.bind_eq_some_iff.mp hat
  obtain ⟨worker, hw, hst⟩ := Pool.stages_getElem?.mp hs
  exact ⟨p, by simp [act, hp, hw, hst]⟩

/-- A task that has ended has no more steps. -/
theorem actInTask_acts {w w' : World} (hS : Sound w w.inside) {id : PoolId} {p : Pool} {i : Nat}
    {choice : Nat} {job : Job} {activity : Activity} (hp : w.pools[id]? = some p)
    (hs : p.stages[i]? = some (.running job activity))
    (h : w.actInTask id p i choice job activity = some w') : Acts w (.worker id i) w' := by
  unfold actInTask at h
  split at h
  · next answers =>
    cases h
    exact .work hp hs (.returns job answers) fun _ _ _ => rfl
  · next payload =>
    cases h
    exact .work hp hs (.panics job payload) fun _ _ _ => rfl
  · obtain ⟨⟨v, activity'⟩, ha, rfl⟩ := Option.map_eq_some_iff.mp h
    have hat : w.stageAt id i = some (.running job activity) := by simp [stageAt, hp, hs]
    have hin : w.inside (.worker id i) = activity.pool? := by
      simp [inside, activity?, hat, WorkerStage.activity?]
    -- the worker is still in its task, in a pool that the task may have changed
    have hadv := advance_advanced hS hin ha
    obtain ⟨p', hp', hs'⟩ := Option.bind_eq_some_iff.mp (hadv.stages id i _ hat)
    have hacts : Acts w (.worker id i) _ :=
      .task hat (advance_passage ha) hadv.inside_eq hp' (hadv.sound.numbered hp') hs'
    dsimp only
    rwa [modify_of_getElem? hp']

/-- **Every step of a thread is one of these.** -/
theorem act_acts {w w' : World} (hS : Sound w w.inside) {thread : ThreadId} {choice : Nat}
    (h : w.act thread choice = some w') : Acts w thread w' := by
  cases thread with
  | caller i =>
      obtain ⟨activity, hi, h⟩ := Option.bind_eq_some_iff.mp h
      obtain ⟨⟨v, activity'⟩, ha, rfl⟩ := Option.map_eq_some_iff.mp h
      have hin : w.inside (.caller i) = activity.pool? := by simp [inside, activity?, hi]
      exact .caller hi (advance_passage ha) (advance_advanced hS hin ha).inside_eq
  | worker id i =>
      obtain ⟨p, hp, h⟩ := Option.bind_eq_some_iff.mp h
      obtain ⟨worker, hw, h⟩ := Option.bind_eq_some_iff.mp h
      have hs : p.stages[i]? = some worker.stage := Pool.stages_getElem?.mpr ⟨worker, hw, rfl⟩
      split at h
      · next job activity he => exact actInTask_acts hS hp (he ▸ hs) h
      · next hne =>
        obtain ⟨⟨q, s⟩, hq, rfl⟩ := Option.map_eq_some_iff.mp h
        exact .work hp hs (Pool.workerStep_move hq) fun job activity he =>
          absurd he (hne job activity)

/-! ## 3. Threads inside pools -/

/-- The thread has a call on the pool of this number. -/
def Lists (ps : List Pool) (thread : ThreadId) (id : PoolId) : Prop :=
  ∃ p, ps[id]? = some p ∧ thread ∈ p.callers

theorem Lists.set {ps : List Pool} {t : ThreadId} {id j : PoolId} {p q : Pool} (h : Lists ps t id)
    (hp : ps[j]? = some p) (hq : t ∈ p.callers → t ∈ q.callers) : Lists (ps.set j q) t id := by
  obtain ⟨r, hr, ht⟩ := h
  by_cases hj : j = id
  · subst hj
    obtain rfl : r = p := Option.some.inj (hr.symm.trans hp)
    exact ⟨q, set_of_getElem? hp _, hq ht⟩
  · exact ⟨r, by rw [List.getElem?_set_ne hj, hr], ht⟩

theorem Begins.calls {w : World} {id : PoolId} {p q : Pool} {next : Reply → Program}
    {before : Activity} {s : CallStage} (h : Begins w id p next before q s) :
    q.calls = p.calls := by
  cases h <;> rfl

section Listing

variable {w : World} {thread : ThreadId} {before after : Activity} {ps : List Pool}

/-- A step takes no other thread out of a call. -/
theorem Touches.lists_of_ne (h : Touches w thread before ps after) {t : ThreadId} {id : PoolId}
    (hne : t ≠ thread) (ht : Lists w.pools t id) : Lists ps t id := by
  cases h with
  | nothing ha => exact ht
  | notes n hp ha => exact ht.set hp fun h => h
  | founds config refusal hb =>
      obtain ⟨p, hp, ht⟩ := ht
      exact ⟨p, by rw [List.getElem?_append_left (List.getElem?_eq_some_iff.mp hp).1, hp], ht⟩
  | @enters j p q s next hp hb =>
      refine ht.set hp fun h => List.mem_cons_of_mem _ ?_
      rwa [show q.calls = p.calls from hb.calls]
  | @moves j p q s step next hb hp hl h =>
      refine ht.set hp fun htp => ?_
      obtain ⟨c, hc, rfl⟩ := List.mem_map.mp htp
      obtain ⟨-, hcalls, -⟩ := h.frame
      exact List.mem_map_of_mem (Pool.mem_follow_of_ne (hcalls ▸ hc) hne)

/-- A thread that has come into a pool has a call there. -/
theorem Touches.lists_self (h : Touches w thread before ps after) {id : PoolId}
    (ha : after.pool? = some id) : Lists ps thread id := by
  cases h with
  | nothing hans =>
      rw [hans.pool?] at ha
      cases ha
  | notes n hp hans =>
      rw [hans.pool?] at ha
      cases ha
  | founds config refusal hb =>
      cases ha
      exact ⟨_, List.getElem?_concat_length, List.mem_cons_self ..⟩
  | enters hp hb =>
      cases ha
      exact ⟨_, set_of_getElem? hp _, List.mem_cons_self ..⟩
  | @moves j p q s step next hb hp hl h =>
      cases step with
      | reply r => cases ha
      | stage s' =>
          cases ha
          obtain ⟨-, hcalls, -⟩ := h.frame
          have hm : (thread, s) ∈ q.calls := hcalls ▸ Pool.mem_of_lookup hl
          exact ⟨_, set_of_getElem? hp _, List.mem_map_of_mem (Pool.mem_follow_self hm)⟩

end Listing

theorem inside_setCaller {w : World} {i : Nat} (a : Activity) (hi : i < w.callers.length) :
    World.inside { w with callers := w.callers.set i a } =
      Function.update w.inside (.caller i) a.pool? := by
  funext t
  cases t with
  | worker id k => rw [Function.update_of_ne (by simp)]; rfl
  | caller k =>
      by_cases hk : i = k
      · subst hk
        simp [inside, activity?, hi]
      · rw [Function.update_of_ne fun e => hk (by cases e; rfl)]
        simp [inside, activity?, hk]

/-- Every thread that is inside a pool has a call there. -/
def Listed (w : World) : Prop :=
  ∀ thread id, w.inside thread = some id → Lists w.pools thread id

theorem Acts.listed {w w' : World} {thread : ThreadId} (hL : w.Listed) (h : Acts w thread w') :
    w'.Listed := by
  intro t id hin
  cases h with
  | @caller i before after v hi hp hv =>
      have hlt : i < v.callers.length := hp.callers ▸ (List.getElem?_eq_some_iff.mp hi).1
      rw [inside_setCaller after hlt, hv] at hin
      by_cases ht : t = .caller i
      · rw [ht, Function.update_self] at hin
        exact ht ▸ hp.touches.lists_self hin
      · rw [Function.update_of_ne ht] at hin
        exact hp.touches.lists_of_ne ht (hL t id hin)
  | @task j i p job before after v hi hpass hv hp hid hs =>
      have hins : World.inside
          { v with pools := v.pools.set j (p.setStage i (.running job after)) } =
            Function.update v.inside (.worker j i) after.pool? :=
        inside_setStage (s := .running job after) hp hs rfl rfl rfl
      rw [hins, hv] at hin
      by_cases ht : t = .worker j i
      · rw [ht, Function.update_self] at hin
        exact ht ▸ (hpass.touches.lists_self hin).set hp fun h => h
      · rw [Function.update_of_ne ht] at hin
        exact (hpass.touches.lists_of_ne ht (hL t id hin)).set hp fun h => h
  | @work j i p q s s' hp hs h hout =>
      have hu := h.untouched
      have hcallers : q.callers = p.callers := congrArg (List.map Prod.fst) hu.calls
      have hins : World.inside { w with pools := w.pools.set j (q.setStage i s') } =
          Function.update w.inside (.worker j i) (s'.activity?.bind (·.pool?)) :=
        inside_setStage hp hs hu.stages rfl rfl
      rw [hins] at hin
      by_cases ht : t = .worker j i
      · rw [ht, Function.update_self] at hin
        -- a worker comes to a task outside every pool
        exfalso
        cases h with
        | goesOn job activity activity' => cases hout job activity rfl
        | _ => cases hin
      · rw [Function.update_of_ne ht] at hin
        exact (hL t id hin).set hp fun h => hcallers ▸ h

theorem Listed.setPool {w : World} (hL : w.Listed) {id : PoolId} {p q : Pool}
    (hp : w.pools[id]? = some p) (hst : q.stages = p.stages) (hc : q.calls = p.calls) :
    (w.setPool id q).Listed := by
  intro t j hin
  rw [inside_setPool hp hst] at hin
  exact (hL t j hin).set hp fun h => by rwa [Pool.callers, hc]

/-- **A thread of a reachable world that is inside a pool has a call there.** -/
theorem inside_listed {w : World} (h : Reachable w) : w.Listed := by
  induction h with
  | initial telemetry host =>
      intro t id hin
      cases t <;> simp [inside, activity?, stageAt, initial] at hin
  | @step w w' l h hs ih =>
      have hS := sound_reachable h
      cases l with
      | act thread choice => exact (act_acts hS hs).listed ih
      | fork program =>
          cases hs
          intro t id hin
          refine ih t id ?_
          cases t with
          | worker j i => exact hin
          | caller i =>
              simp only [inside, activity?, List.getElem?_append] at hin ⊢
              split at hin
              · exact hin
              · cases hk : i - w.callers.length <;> simp [hk, Activity.pool?] at hin
      | openGate name => cases hs; exact ih
      | tick nanos => cases hs; exact ih
      | wake id i =>
          obtain ⟨p, hp, hs⟩ := Option.bind_eq_some_iff.mp hs
          split at hs <;> cases hs
          exact ih.setPool hp rfl rfl
      | reclaim id =>
          obtain ⟨p, hp, hs⟩ := Option.bind_eq_some_iff.mp hs
          obtain ⟨q, hq, rfl⟩ := Option.map_eq_some_iff.mp hs
          obtain ⟨-, -, rfl⟩ := Pool.reclaim_cases hq
          exact ih.setPool hp rfl rfl

/-! ## 4. Workers outside their tasks -/

end World

/-- The label is a move of this thread. -/
def Label.isOf (thread : ThreadId) : Label → Bool
  | .act t _ => t = thread
  | _ => false

namespace Pool

/-- Every worker of `p` is in `q` as it was. -/
def Retains (p q : Pool) : Prop :=
  ∀ (i : Nat) (worker : Worker), p.workers[i]? = some worker → q.workers[i]? = some worker

theorem Retains.refl (p : Pool) : Retains p p := fun _ _ h => h

theorem CallMove.retains {p q : Pool} {thread : ThreadId} {s : CallStage} {next : CallStep}
    (h : CallMove p thread s q next) : Retains p q := by
  intro i worker hw
  cases h with
  | spawns =>
      exact (List.getElem?_append_left (List.getElem?_eq_some_iff.mp hw).1).trans hw
  | _ => exact hw

/-- A worker's move leaves the other workers as they were. -/
theorem WorkerMove.others {p q : Pool} {i : Nat} {s s' : WorkerStage} (h : WorkerMove p i s q s')
    {j : Nat} (hj : i ≠ j) : q.workers[j]? = p.workers[j]? := by
  cases h <;> simp [hj]

theorem getElem?_setStage_of_ne (p : Pool) {i j : Nat} (hj : i ≠ j) (s : WorkerStage) :
    (p.setStage i s).workers[j]? = p.workers[j]? := by
  simp [setStage, hj]

end Pool

namespace World

/-- When one pool is put in the place of another, every pool is as it was or that one. -/
theorem related_set {R : Pool → Pool → Prop} (hR : ∀ p, R p p) {ps : List Pool} {id j : PoolId}
    {p r r' : Pool} (hp : ps[id]? = some p) (hr : ps[j]? = some r) (h : R r r') :
    ∃ q, (ps.set j r')[id]? = some q ∧ R p q := by
  by_cases hj : j = id
  · subst hj
    obtain rfl : r = p := Option.some.inj (hr.symm.trans hp)
    exact ⟨r', set_of_getElem? hp _, h⟩
  · exact ⟨p, by rw [List.getElem?_set_ne hj, hp], hR p⟩

/-- On its way through its program a thread does nothing to workers. -/
theorem Touches.retains {w : World} {thread : ThreadId} {before after : Activity} {ps : List Pool}
    (h : Touches w thread before ps after) {id : PoolId} {p : Pool} (hp : w.pools[id]? = some p) :
    ∃ q, ps[id]? = some q ∧ p.Retains q := by
  cases h with
  | nothing ha => exact ⟨p, hp, Pool.Retains.refl p⟩
  | notes n hr ha => exact related_set Pool.Retains.refl hp hr (Pool.Retains.refl _)
  | founds config refusal hb =>
      exact ⟨p, by rw [List.getElem?_append_left (List.getElem?_eq_some_iff.mp hp).1, hp],
        Pool.Retains.refl p⟩
  | @enters j r q s next hr hb =>
      have hw : q.workers = r.workers := by cases hb <;> rfl
      exact related_set Pool.Retains.refl hp hr fun _ _ hi => hw ▸ hi
  | @moves j r q s step next hb hr hl h =>
      exact related_set Pool.Retains.refl hp hr fun i worker hi =>
        q.workers_follow thread step ▸ h.retains i worker hi

/-- A worker changes only by moves of its own. -/
theorem step_retains {w w' : World} (hS : Sound w w.inside) {l : Label} (h : w.step l = some w')
    {id : PoolId} {p : Pool} {i : Nat} {worker : Worker} (hp : w.pools[id]? = some p)
    (hw : p.workers[i]? = some worker) (hl : l.isOf (.worker id i) = false) :
    ∃ q, w'.pools[id]? = some q ∧ q.workers[i]? = some worker := by
  cases l with
  | fork program | openGate name | tick nanos =>
      cases h
      exact ⟨p, hp, hw⟩
  | wake j k =>
      obtain ⟨r, hr, h⟩ := Option.bind_eq_some_iff.mp h
      split at h <;> cases h
      have hret : r.Retains { r with queue := r.queue.wake k } := fun _ _ hi => hi
      obtain ⟨q, hq, hret⟩ := related_set Pool.Retains.refl hp hr hret
      exact ⟨q, hq, hret i worker hw⟩
  | reclaim j =>
      obtain ⟨r, hr, h⟩ := Option.bind_eq_some_iff.mp h
      obtain ⟨r', hr', rfl⟩ := Option.map_eq_some_iff.mp h
      have hret : r.Retains r' := by
        obtain ⟨-, -, rfl⟩ := Pool.reclaim_cases hr'
        exact fun _ _ hi => hi
      obtain ⟨q, hq, hret⟩ := related_set Pool.Retains.refl hp hr hret
      exact ⟨q, hq, hret i worker hw⟩
  | act thread choice =>
      have hother : thread ≠ .worker id i := of_decide_eq_false hl
      cases act_acts hS h with
      | caller hi hpass hv =>
          obtain ⟨q, hq, hret⟩ := hpass.touches.retains hp
          exact ⟨q, hq, hret i worker hw⟩
      | @task j k r job before after v hat hpass hv hr hid hst =>
          obtain ⟨q, hq, hret⟩ := hpass.touches.retains hp
          by_cases hj : j = id
          · subst hj
            obtain rfl : r = q := Option.some.inj (hr.symm.trans hq)
            refine ⟨_, set_of_getElem? hr _, ?_⟩
            have hk : k ≠ i := fun e => hother (e ▸ rfl)
            rw [Pool.getElem?_setStage_of_ne _ hk]
            exact hret i worker hw
          · exact ⟨q, (List.getElem?_set_ne hj).trans hq, hret i worker hw⟩
      | @work j k r q s s' hr hst hm hend =>
          by_cases hj : j = id
          · subst hj
            obtain rfl : r = p := Option.some.inj (hr.symm.trans hp)
            have hk : k ≠ i := fun e => hother (e ▸ rfl)
            refine ⟨_, set_of_getElem? hr _, ?_⟩
            rw [Pool.getElem?_setStage_of_ne _ hk, hm.others hk, hw]
          · exact ⟨p, (List.getElem?_set_ne hj).trans hp, hw⟩

/-- **A worker outside its task changes only by moves of its own.** -/
theorem step_worker {w w' : World} (hS : Sound w w.inside) {l : Label} (h : w.step l = some w')
    {id : PoolId} {p : Pool} {i : Nat} {worker : Worker} (hp : w.pools[id]? = some p)
    (hw : p.workers[i]? = some worker) (hout : worker.stage.activity? = none) :
    (l.isOf (.worker id i) = true ∧ ∃ q s, Pool.WorkerMove p i worker.stage q s ∧
      w'.pools[id]? = some (q.setStage i s)) ∨
    (l.isOf (.worker id i) = false ∧ ∃ q, w'.pools[id]? = some q ∧
      q.workers[i]? = some worker) := by
  have hs : p.stages[i]? = some worker.stage := Pool.stages_getElem?.mpr ⟨worker, hw, rfl⟩
  cases hl : l.isOf (.worker id i) with
  | false => exact .inr ⟨rfl, step_retains hS h hp hw hl⟩
  | true =>
      refine .inl ⟨rfl, ?_⟩
      cases l with
      | act thread choice =>
          obtain rfl : thread = .worker id i := of_decide_eq_true hl
          have hacts : Acts w (.worker id i) w' := act_acts hS h
          cases hacts with
          | @task _ _ r job before after v hat hpass hv hr hid hst =>
              have hat' : w.stageAt id i = some worker.stage := by simp [stageAt, hp, hs]
              rw [Option.some.inj (hat'.symm.trans hat)] at hout
              cases hout
          | @work _ _ r q s s' hr hst hm hend =>
              obtain rfl : r = p := Option.some.inj (hr.symm.trans hp)
              obtain rfl : s = worker.stage := Option.some.inj (hst.symm.trans hs)
              exact ⟨q, s', hm, set_of_getElem? hr _⟩
      | _ => cases hl

end World

end WorkerPool
