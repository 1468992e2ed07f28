import WorkerPool.Proofs.PoolSimulation
import WorkerPool.Proofs.Staff

/-!
# Worlds under other names and strategies step alike

A step of a world in a guise is the step of the world, seen in that guise: the steps of pools are,
and a thread that begins a call looks at nothing that the guise changes, but for what it is told of
metrics and of its own name, and for the configuration of a pool that it makes.

* `World.guised` -- a world in a guise;
* `Guise.Suits` -- what a configuration is replaced by makes the same pool, dressed otherwise;
* `Activity.Apt`, `World.Apt` -- what a thread is about to do comes to the same in the guise;
* `step_guised` -- **the step is then the same step**.
-/

namespace WorkerPool

/-- In this guise the pool of that number is made from the other configuration as the pool in this
    guise is made from this one. -/
structure Guise.Suits (g : Guise) (host : Host) (id : PoolId) (config : Config) : Prop where
  validate : (g.config config).validate = config.validate
  threads : (g.config config).workerThreads host.cpus = config.workerThreads host.cpus
  namePrefix : (g.config config).namePrefix = (g.dress id).namePrefix config.namePrefix
  strategy : (g.config config).strategy = (g.dress id).strategy config.strategy
  refusal : host.refusal id (g.config config) =
    (g.dress id).refusal (max 1 (config.workerThreads host.cpus).toNat) (host.refusal id config)

namespace World

/-- The world in a guise. -/
def guised (g : Guise) (w : World) : World :=
  { w with
    telemetry := w.telemetry && g.keep
    pools := w.pools.map (·.guised g)
    callers := w.callers.map (·.recast g.toCasting)
    held := w.held.map (·.recast g.toCasting) }

end World

/-- What the thread is about to do comes to the same in the guise. -/
structure Activity.Apt (g : Guise) (w : World) (thread : ThreadId) (a : Activity) : Prop where
  /-- What it is about to hear of a metric makes no difference to what is seen of it. -/
  hears : ∀ id counter next p, a = .going (.call (.read id (.metric counter)) next) →
    w.pools[id]? = some p →
    (next (.number (p.metric counter).toNat)).recast g.toCasting =
      (next (.number (g.hear ((p.guised g).metric counter).toNat))).recast g.toCasting
  named : ∀ next, a = .going (.call .threadName next) →
    (w.guised g).nameOf thread = w.nameOf thread
  starts : ∀ config next, a = .going (.call (.start config) next) →
    g.Suits w.host w.pools.length config

namespace World

section Guised

variable (g : Guise) (w : World)

@[simp] theorem getElem?_pools_guised (id : PoolId) :
    (w.guised g).pools[id]? = (w.pools[id]?).map (·.guised g) := List.getElem?_map ..

@[simp] theorem guised_setPool (id : PoolId) (p : Pool) :
    (w.setPool id p).guised g = (w.guised g).setPool id (p.guised g) := by
  simp [guised, setPool, List.map_set]

@[simp] theorem serving?_guised (id : PoolId) :
    (w.guised g).serving? id = (w.serving? id).map (·.guised g) := by
  unfold serving?
  rw [getElem?_pools_guised]
  cases w.pools[id]? with
  | none => rfl
  | some p => simp [Option.filter, Pool.guised]

@[simp] theorem held?_guised (id : TaskId) :
    (w.guised g).held? id = (w.held? id).map (·.recast g.toCasting) := by
  simp only [held?, guised, List.find?_map, Function.comp_def, Task.id_recast]
  rfl

@[simp] theorem guised_release (id : TaskId) :
    (w.release id).guised g = (w.guised g).release id := by
  simp only [release, guised, List.filter_map, Function.comp_def, Task.id_recast]
  rfl

@[simp] theorem fresh_guised (label : String) (work : Program) :
    (w.guised g).fresh label (work.recast g.toCasting) =
      (w.fresh label work).recast g.toCasting := rfl

@[simp] theorem guised_offer (thread : ThreadId) (p : Pool) (id : PoolId) (task : Task) :
    (w.offer thread p id task).guised g =
      (w.guised g).offer thread (p.guised g) id (task.recast g.toCasting) := by
  unfold offer
  rw [guised_setPool]
  rfl

@[simp] theorem guised_write (n : Note) (thread : ThreadId) :
    (w.write n thread).guised g = (w.guised g).write n thread := by
  cases thread with
  | caller i => rfl
  | worker id i =>
      have hp := map_modify_comm (f := Pool.guised g) (g := (·.log (.note n)))
        (k := (·.log (.note n))) (fun _ => rfl) w.pools id
      exact congrArg (fun ps => { w.guised g with pools := ps }) hp

/-- A pool is made in the guise from the other configuration. -/
theorem begin_start_guised (thread : ThreadId) (next : Reply → Program) {config : Config}
    (hs : g.Suits w.host w.pools.length config) :
    (w.guised g).begin thread (fun r => (next r).recast g.toCasting) (.start (g.config config)) =
      (w.begin thread next (.start config)).map fun m => (m.1.guised g, m.2.recast g.toCasting) := by
  simp only [begin]
  rw [hs.validate]
  cases config.validate with
  | error e => rfl
  | ok _ =>
      have hn : (w.guised g).pools.length = w.pools.length := List.length_map _
      have hp := Pool.ofConfig_guised g w.pools.length w.host.cpus w.telemetry w.now
        hs.threads hs.namePrefix hs.strategy
      have hsize : (Pool.ofConfig w.pools.length config w.host.cpus w.telemetry w.now).size =
          max 1 (config.workerThreads w.host.cpus).toNat := by
        simp only [Pool.ofConfig]
        split <;> rfl
      have hid := (made_empty w.pools.length config w.host.cpus w.telemetry w.now).1
      simp only [hn, show (w.guised g).telemetry = (w.telemetry && g.keep) from rfl,
        show (w.guised g).host = w.host from rfl, show (w.guised g).now = w.now from rfl, ← hp,
        hs.refusal]
      simp only [guised, List.map_append, List.map_cons, List.map_nil, Option.map_some,
        Activity.recast]
      refine congrArg (fun q => some
        ({ w.guised g with pools := w.pools.map (Pool.guised g) ++ [q] }, _)) ?_
      show _ = Pool.guised g (Pool.enter _ _ _)
      simp only [Pool.enter, Pool.guised, List.map_cons, CallStage.guised, hsize, hid]

/-- A read is told the same, or what comes to the same. -/
theorem begin_read_guised (thread : ThreadId) (next : Reply → Program) (id : PoolId)
    (gauge : Gauge) (ha : (Activity.going (.call (.read id gauge) next)).Apt g w thread) :
    (w.guised g).begin thread
        (fun r => (next ((Call.read id gauge).hear g.hear r)).recast g.toCasting)
        (.read id gauge) =
      (w.begin thread next (.read id gauge)).map fun m =>
        (m.1.guised g, m.2.recast g.toCasting) := by
  simp only [begin, serving?_guised]
  cases hp : w.serving? id with
  | none => simp [Call.hear_gone, Activity.recast]
  | some p =>
      by_cases hg : ∃ counter, gauge = .metric counter
      · obtain ⟨counter, rfl⟩ := hg
        have heard := ha.hears id counter next p rfl (Option.filter_eq_some_iff.mp hp).1
        simp only [Option.map_some, Pool.read, Call.hear, Activity.recast]
        rw [heard]
      · have hne (i : PoolId) (counter) : Call.read id gauge ≠ .read i (.metric counter) :=
          fun e => hg ⟨counter, by injection e⟩
        simp [Pool.read_guised g p (fun counter e => hg ⟨counter, e⟩), Call.hear_of_ne hne,
          Activity.recast]

/-- **A call begins in every guise with the same step**, if that comes to the same. -/
theorem begin_guised (thread : ThreadId) (next : Reply → Program) (c : Call)
    (ha : (Activity.going (.call c next)).Apt g w thread) :
    (w.guised g).begin thread (fun r => (next (c.hear g.hear r)).recast g.toCasting)
        (c.recast g.toCasting) =
      (w.begin thread next c).map fun m => (m.1.guised g, m.2.recast g.toCasting) := by
  cases c with
  | start config => exact begin_start_guised g w thread next (ha.starts config next rfl)
  | submitHeld id taskId =>
      simp only [begin, serving?_guised, held?_guised, Call.hear, Call.recast]
      cases w.serving? id with
      | none => rfl
      | some p =>
          cases w.held? taskId with
          | none => rfl
          | some task => simp [Activity.recast]
  | dropHeld taskId =>
      simp only [begin, held?_guised, Call.hear, Call.recast]
      cases w.held? taskId with
      | none => rfl
      | some task =>
          simp only [Option.map_some, ← guised_release, Task.id_recast, Task.label_recast]
          rfl
  | shutdown id mode =>
      simp only [begin, serving?_guised, Call.hear, Call.recast]
      cases w.serving? id with
      | none => rfl
      | some p =>
          refine congrArg some (Prod.ext ?_ rfl)
          simp only [guised_setPool]
          cases mode <;> rfl
  | drop id =>
      simp only [begin, serving?_guised, Call.hear, Call.recast]
      cases w.serving? id with
      | none => rfl
      | some p =>
          have hc : (p.guised g).calls.isEmpty = p.calls.isEmpty := by simp [Pool.guised]
          simp only [Option.map_some, hc]
          split
          · refine congrArg some (Prod.ext ?_ rfl)
            simp only [guised_setPool]
            rfl
          · rfl
  | read id gauge => exact begin_read_guised g w thread next id gauge ha
  | announcePair cpu db =>
      simp only [begin, getElem?_pools_guised, Call.hear, Call.recast]
      cases w.pools[cpu]? with
      | none => rfl
      | some c => cases w.pools[db]? <;> rfl
  | gate name =>
      simp only [begin, Call.hear, Call.recast, show (w.guised g).opened = w.opened from rfl]
      split <;> rfl
  | note n => simp [begin, Call.hear, Call.recast, Activity.recast]
  | threadName =>
      simp [begin, Call.hear, Call.recast, Activity.recast, ha.named next rfl]
  | sleep nanos => rfl

theorem proceed_guised (thread : ThreadId) (choice : Nat) (id : PoolId)
    (next : Reply → Program) :
    (w.guised g).proceed thread choice id (fun r => (next r).recast g.toCasting) =
      (w.proceed thread choice id next).map fun m =>
        (m.1.guised g, m.2.recast g.toCasting) := by
  unfold proceed
  rw [getElem?_pools_guised]
  cases w.pools[id]? with
  | none => rfl
  | some p =>
      simp only [Option.map_some, Option.bind_some, Pool.lookup_guised]
      cases p.calls.lookup thread with
      | none => rfl
      | some stage =>
          simp only [Option.map_some, Option.bind_some, Pool.callStep_guised]
          cases hm : p.callStep thread choice stage with
          | none => rfl
          | some m =>
              -- a call's step keeps the number and the size, and so the dress
              have hmove := Pool.callStep_move hm
              have hid : m.1.id = p.id := hmove.frame.1
              have hsize : m.1.size = p.size := hmove.size
              obtain ⟨q, s | r⟩ := m
              · simp only [Option.map_some, CallStep.guised, guised_setPool, Pool.guised_setCall,
                  Activity.recast]
                rw [show q.id = p.id from hid, show q.size = p.size from hsize]
              · simp [CallStep.guised, Activity.recast]

theorem advance_guised (thread : ThreadId) (choice : Nat) (a : Activity)
    (ha : a.Apt g w thread) :
    (w.guised g).advance thread choice (a.recast g.toCasting) =
      (w.advance thread choice a).map fun m => (m.1.guised g, m.2.recast g.toCasting) := by
  cases a with
  | going program =>
      cases program with
      | finish | panic => rfl
      | submit id label work next =>
          simp only [advance, Activity.recast, Program.recast, serving?_guised]
          cases w.serving? id with
          | none => rfl
          | some p =>
            refine congrArg some (Prod.ext ?_ rfl)
            simp only [fresh_guised, ← guised_offer]
            rfl
      | make label work next =>
          refine congrArg some (Prod.ext ?_ rfl)
          simp [guised, fresh, Task.recast]
      | call c next => exact begin_guised g w thread next c ha
  | inside id next => exact proceed_guised g w thread choice id next
  | asleep wakeAt next =>
      simp only [advance, Activity.recast, show (w.guised g).now = w.now from rfl]
      split <;> rfl

theorem activity?_guised (thread : ThreadId) :
    (w.guised g).activity? thread = (w.activity? thread).map (·.recast g.toCasting) := by
  cases thread with
  | caller i => exact List.getElem?_map ..
  | worker id i =>
      have hst (p : Pool) :
          (p.guised g).stages[i]? = (p.stages[i]?).map (·.recast g.toCasting) := by
        simp [Pool.stages, Pool.guised, Function.comp_def, Worker.recast]
      have hac (s : WorkerStage) :
          (s.recast g.toCasting).activity? = s.activity?.map (·.recast g.toCasting) := by
        cases s <;> rfl
      simp only [activity?, stageAt, getElem?_pools_guised]
      cases w.pools[id]? with
      | none => rfl
      | some p =>
          simp only [Option.map_some, Option.bind_some, hst]
          cases p.stages[i]? with
          | none => rfl
          | some s => exact hac s

@[simp] theorem guised_modify_running (id : PoolId) (i : Nat) (job : Job) (a : Activity) :
    ({ w with pools := w.pools.modify id (·.setStage i (.running job a)) } : World).guised g =
      { w.guised g with
        pools := (w.guised g).pools.modify id fun p =>
          p.setStage i (.running job (a.recast g.toCasting)) } :=
  congrArg (fun ps => { w.guised g with pools := ps })
    (map_modify_comm (fun p => Pool.guised_setStage g p i (.running job a)) w.pools id)

@[simp] theorem guised_moveWorker (id : PoolId) (i : Nat) (m : Pool × WorkerStage) :
    (w.moveWorker id i m).guised g =
      (w.guised g).moveWorker id i (m.1.guised g, m.2.recast g.toCasting) := by
  simp [moveWorker]

/-- **A task makes the same step in every guise.** -/
theorem actInTask_guised (id : PoolId) (p : Pool) (i choice : Nat) (job : Job) (a : Activity)
    (ha : a.Apt g w (.worker id i)) :
    (w.guised g).actInTask id (p.guised g) i choice job (a.recast g.toCasting) =
      (w.actInTask id p i choice job a).map (·.guised g) := by
  have hgo :
      (((w.guised g).advance (.worker id i) choice (a.recast g.toCasting)).map fun m =>
        { m.1 with pools := m.1.pools.modify id (·.setStage i (.running job m.2)) }) =
      ((w.advance (.worker id i) choice a).map fun m =>
        { m.1 with pools := m.1.pools.modify id (·.setStage i (.running job m.2)) }).map
        (·.guised g) := by
    rw [advance_guised g w _ _ _ ha, Option.map_map, Option.map_map]
    refine congrArg (Option.map · _) (funext fun m => ?_)
    exact (guised_modify_running g m.1 id i job m.2).symm
  cases a with
  | going program =>
      cases program with
      | finish answers =>
          simp [actInTask, Activity.recast, Program.recast, Pool.workEnds_guised]
      | panic payload =>
          simp [actInTask, Activity.recast, Program.recast, Pool.workEnds_guised]
      | _ => exact hgo
  | _ => exact hgo

theorem act_guised (thread : ThreadId) (choice : Nat)
    (ha : ∀ a, w.activity? thread = some a → a.Apt g w thread) :
    (w.guised g).act thread choice = (w.act thread choice).map (·.guised g) := by
  cases thread with
  | caller i =>
      have hc : (w.guised g).callers[i]? = (w.callers[i]?).map (·.recast g.toCasting) :=
        List.getElem?_map ..
      simp only [act, hc]
      cases hi : w.callers[i]? with
      | none => rfl
      | some a =>
        have hstep := advance_guised g w (.caller i) choice a (ha a hi)
        simp only [Option.map_some, Option.bind_some, hstep, Option.map_map]
        congr 1
        funext m
        simp [guised, List.map_set]
  | worker id i =>
      simp only [act, getElem?_pools_guised]
      cases hp : w.pools[id]? with
      | none => rfl
      | some p =>
          have hw : (p.guised g).workers[i]? = (p.workers[i]?).map (·.recast g.toCasting) :=
            List.getElem?_map ..
          simp only [Option.map_some, Option.bind_some, hw]
          cases hi : p.workers[i]? with
          | none => rfl
          | some worker =>
              obtain ⟨stage, executed, panicked⟩ := worker
              have hstage : w.stageAt id i = some stage := by
                simp [stageAt, hp, Pool.stages, hi]
              have hwork :
                  ((p.guised g).workerStep i w.now (stage.recast g.toCasting)).map
                    ((w.guised g).moveWorker id i) =
                  ((p.workerStep i w.now stage).map (w.moveWorker id i)).map (·.guised g) := by
                simp only [Pool.workerStep_guised, Option.map_map, Function.comp_def,
                  guised_moveWorker]
              simp only [Option.map_some, Option.bind_some]
              cases stage with
              | running job a =>
                  have ha' : w.activity? (.worker id i) = some a := by
                    simp [activity?, hstage, WorkerStage.activity?]
                  exact actInTask_guised g w id p i choice job a (ha a ha')
              | _ => exact hwork

end Guised

/-- The thread that makes this step is about to do what comes to the same in the guise. -/
def Apt (g : Guise) (w : World) (l : Label) : Prop :=
  ∀ thread choice a, l = .act thread choice → w.activity? thread = some a → a.Apt g w thread

/-- **A step of a world is the same step in the guise.** -/
theorem step_guised (g : Guise) {w : World} {l : Label} (ha : w.Apt g l) :
    (w.guised g).step (l.recast g.toCasting) = (w.step l).map (·.guised g) := by
  cases l with
  | fork program => simp [step, Label.recast, guised, Activity.recast]
  | act thread choice => exact act_guised g w thread choice fun a => ha thread choice a rfl
  | wake id i =>
      simp only [step, Label.recast, getElem?_pools_guised]
      cases w.pools[id]? with
      | none => rfl
      | some p =>
          simp only [Option.map_some, Option.bind_some,
            show (p.guised g).queue = p.queue.map (·.recast g.toCasting) from rfl,
            Queue.wake_map,
            show (p.queue.map (·.recast g.toCasting)).sleeping = p.queue.sleeping from rfl]
          split
          · rw [Option.map_some, guised_setPool]
            rfl
          · rfl
  | openGate name => rfl
  | tick nanos => rfl
  | reclaim id =>
      simp only [step, Label.recast, getElem?_pools_guised]
      cases w.pools[id]? with
      | none => rfl
      | some p =>
          simp only [Option.map_some, Option.bind_some, Pool.reclaim_guised, Option.map_map,
            Function.comp_def, guised_setPool]

end World

end WorkerPool
