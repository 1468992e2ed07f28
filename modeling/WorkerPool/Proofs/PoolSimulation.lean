import WorkerPool.Proofs.View

/-!
# Pools under another name and strategy step alike

The name prefix of a pool and the strategy of its panic handler are looked at in two places only:
where the pool announces itself and where a panic is reported. So a pool may be dressed otherwise
and its programs recast -- other configurations in the place of theirs, other numbers heard for
metrics -- and every step of it is still the same step.

* `Casting`, `Program.recast` -- what programs start and hear in place of what they do;
* `Dress`, `Event.dressed` -- how a pool is named and how it reports panics;
* `Guise`, `Pool.guised` -- a pool in a guise: recast, dressed, and perhaps without its metrics;
* `Pool.workerStep_guised`, `Pool.callStep_guised`, `Pool.reclaim_guised` -- the steps of a pool.
-/

namespace WorkerPool

/-! ## 1. Programs -/

/-- What programs start pools from, and what they hear for metrics, in place of what they do. -/
structure Casting where
  config : Config → Config
  hear : Nat → Nat

/-- The call with the other configuration. -/
def Call.recast (k : Casting) : Call → Call
  | .start config => .start (k.config config)
  | c => c

/-- The program with the other configurations, hearing the other numbers; its tasks too. -/
def Program.recast (k : Casting) : Program → Program
  | .finish answers => .finish answers
  | .panic payload => .panic payload
  | .submit pool label work next =>
    .submit pool label (work.recast k) fun r => (next r).recast k
  | .make label work next => .make label (work.recast k) fun r => (next r).recast k
  | .call c next => .call (c.recast k) fun r => (next (c.hear k.hear r)).recast k

def Task.recast (k : Casting) (t : Task) : Task := { t with work := t.work.recast k }

def Activity.recast (k : Casting) : Activity → Activity
  | .going rest => .going (rest.recast k)
  | .inside id next => .inside id fun r => (next r).recast k
  | .asleep wakeAt next => .asleep wakeAt fun r => (next r).recast k

def WorkerStage.recast (k : Casting) : WorkerStage → WorkerStage
  | .rechecking task => .rechecking (task.recast k)
  | .abandoning task => .abandoning (task.recast k)
  | .discarding task => .discarding (task.recast k)
  | .ready task => .ready (task.recast k)
  | .running job activity => .running job (activity.recast k)
  | stage => stage

def Worker.recast (k : Casting) (w : Worker) : Worker := { w with stage := w.stage.recast k }

/-- The step with the program of a thread that begins recast. -/
def Label.recast (k : Casting) : Label → Label
  | .fork program => .fork (program.recast k)
  | l => l

@[simp] theorem Task.id_recast (k : Casting) (t : Task) : (t.recast k).id = t.id := rfl

@[simp] theorem Task.label_recast (k : Casting) (t : Task) : (t.recast k).label = t.label := rfl

theorem WorkerStage.isFinished_recast (k : Casting) (s : WorkerStage) :
    (s.recast k).isFinished = s.isFinished := by
  cases s <;> rfl

/-! ## 2. Dress -/

/-- How a pool is named and how it reports panics, and the refusals for workers beyond its size,
    which nobody asks for. -/
structure Dress where
  namePrefix : String → String
  strategy : Strategy → Strategy
  beyond : (Nat → Option SystemError) → Nat → Option SystemError

/-- The refusals that meet whoever starts so many workers, in this dress. -/
def Dress.refusal (d : Dress) (size : Nat) (refusal : Nat → Option SystemError) :
    Nat → Option SystemError :=
  fun worker => if worker < size then refusal worker else d.beyond refusal worker

/-- The event as a pool in this dress reports it. -/
def Event.dressed (d : Dress) : Event → Event
  | .initializing threads namePrefix => .initializing threads (d.namePrefix namePrefix)
  | .taskPanicked strategy task message => .taskPanicked (d.strategy strategy) task message
  | e => e

def Happening.dressed (d : Dress) : Happening → Happening
  | .event e => .event (e.dressed d)
  | h => h

/-- The stage of a call on a pool of this size. -/
def CallStage.guised (k : Casting) (d : Dress) (size : Nat) : CallStage → CallStage
  | .spawning next refusal => .spawning next (d.refusal size refusal)
  | .checking task => .checking (task.recast k)
  | .pushing task => .pushing (task.recast k)
  | .refusing id kept => .refusing id (kept.map (·.recast k))
  | .rejecting id kept => .rejecting id (kept.map (·.recast k))
  | .tallying why joined removed => .tallying why joined (removed.map (·.recast k))
  | .recording why joined removed => .recording why joined (removed.map (·.recast k))
  | .discarding why joined removed => .discarding why joined (removed.map (·.recast k))
  | stage => stage

def CallStep.guised (k : Casting) (d : Dress) (size : Nat) : CallStep → CallStep
  | .stage s => .stage (s.guised k d size)
  | .reply r => .reply r

theorem Purpose.guised_afterPanic (k : Casting) (d : Dress) (size : Nat) (payload : Payload)
    (why : Purpose) : (why.afterPanic payload).guised k d size = why.afterPanic payload := by
  cases why <;> rfl

theorem Purpose.guised_afterwards (k : Casting) (d : Dress) (size : Nat) (why : Purpose) :
    why.afterwards.guised k d size = why.afterwards := by
  cases why <;> rfl

/-! ## 3. Pools -/

/-- How a world may look otherwise: programs recast, pools dressed, metrics seen or not. -/
structure Guise extends Casting where
  dress : PoolId → Dress
  keep : Bool

namespace Pool

/-- The pool in a guise. -/
def guised (g : Guise) (p : Pool) : Pool :=
  { p with
    namePrefix := (g.dress p.id).namePrefix p.namePrefix
    queue := p.queue.map (·.recast g.toCasting)
    handler := { p.handler with strategy := (g.dress p.id).strategy p.handler.strategy }
    metrics := if g.keep then p.metrics else none
    workers := p.workers.map (·.recast g.toCasting)
    calls := p.calls.map fun c => (c.1, c.2.guised g.toCasting (g.dress p.id) p.size)
    trace := p.trace.map (·.dressed (g.dress p.id)) }

variable (g : Guise) (p : Pool)

@[simp] theorem queue_length_guised : (p.guised g).queue.length = p.queue.length :=
  Queue.length_map _ p.queue

theorem guised_measure (f : Metrics → Metrics) :
    (p.measure f).guised g = (p.guised g).measure f := by
  unfold guised measure
  cases g.keep <;> rfl

@[simp] theorem guised_setStage (i : Nat) (s : WorkerStage) :
    (p.setStage i s).guised g = (p.guised g).setStage i (s.recast g.toCasting) := by
  have hw := map_modify_comm (f := Worker.recast g.toCasting)
    (g := fun w => { w with stage := s })
    (k := fun w => { w with stage := s.recast g.toCasting }) (fun _ => rfl) p.workers i
  exact congrArg (fun ws => { p.guised g with workers := ws }) hw

/-- The counters of a worker are the same in every guise. -/
theorem guised_countFor (i : Nat) {f : Worker → Worker}
    (hf : ∀ w, (f w).recast g.toCasting = f (w.recast g.toCasting)) :
    (p.countFor i f).guised g = (p.guised g).countFor i f := by
  unfold guised countFor
  simp only [map_modify_comm hf]

@[simp] theorem guised_setCall (thread : ThreadId) (s : CallStage) :
    (p.setCall thread s).guised g =
      (p.guised g).setCall thread (s.guised g.toCasting (g.dress p.id) p.size) := by
  have hc (c : ThreadId × CallStage) :
      (fun c : ThreadId × CallStage => (c.1, c.2.guised g.toCasting (g.dress p.id) p.size))
        (if c.1 = thread then (thread, s) else c) =
      if c.1 = thread then (thread, s.guised g.toCasting (g.dress p.id) p.size)
      else (c.1, c.2.guised g.toCasting (g.dress p.id) p.size) := by
    split <;> rfl
  unfold guised setCall
  simp only [List.map_map, Function.comp_def, hc]

@[simp] theorem guised_leave (thread : ThreadId) :
    (p.leave thread).guised g = (p.guised g).leave thread := by
  unfold guised leave
  simp only [List.filter_map, Function.comp_def]

/-- **What can be read off a pool, metrics apart, is the same in every guise.** -/
theorem read_guised {gauge : Gauge} (hg : ∀ counter, gauge ≠ .metric counter) :
    (p.guised g).read gauge = p.read gauge := by
  cases gauge with
  | metric counter => exact absurd rfl (hg counter)
  | workerExecuted i | workerPanicked i =>
      simp [read, guised, Function.comp_def, Worker.recast]
  | pending => simp only [read, queue_length_guised]
  | _ => rfl

theorem stats_guised : (p.guised g).stats = p.stats := by
  simp only [stats, queue_length_guised]
  rfl

theorem description_guised : (p.guised g).description = p.description := by
  simp only [description, queue_length_guised]
  rfl

/-- A pool begins in a guise as a pool of another configuration, with as many workers. -/
theorem ofConfig_guised (id : PoolId) {config config' : Config} (cpus : UInt64)
    (telemetry : Bool) (now : Nat)
    (ht : config'.workerThreads cpus = config.workerThreads cpus)
    (hn : config'.namePrefix = (g.dress id).namePrefix config.namePrefix)
    (hs : config'.strategy = (g.dress id).strategy config.strategy) :
    (ofConfig id config cpus telemetry now).guised g =
      ofConfig id config' cpus (telemetry && g.keep) now := by
  unfold ofConfig
  dsimp only
  rw [ht, hn, hs, apply_ite (emit · _), apply_ite (guised g), apply_ite (emit · _)]
  cases telemetry <;> cases hk : g.keep <;>
    simp [guised, emit, log, Queue.map, Happening.dressed, Event.dressed, Handler.new, hk]

theorem lookup_guised (thread : ThreadId) :
    (p.guised g).calls.lookup thread =
      (p.calls.lookup thread).map (·.guised g.toCasting (g.dress p.id) p.size) := by
  show (p.calls.map fun c => (c.1, c.2.guised g.toCasting (g.dress p.id) p.size)).lookup thread = _
  induction p.calls with
  | nil => rfl
  | cons c rest ih =>
      obtain ⟨caller, stage⟩ := c
      simp only [List.map_cons, List.lookup_cons, ih]
      cases thread == caller <;> rfl

/-- **A worker makes the same step in every guise.** -/
theorem workerStep_guised (i now : Nat) (s : WorkerStage) :
    (p.guised g).workerStep i now (s.recast g.toCasting) =
      (p.workerStep i now s).map fun m => (m.1.guised g, m.2.recast g.toCasting) := by
  cases s with
  | popping =>
      have hq := Queue.attempt_map (·.recast g.toCasting) p.queue i
      by_cases hi : i ∈ p.queue.sleeping
      · simp [workerStep, WorkerStage.recast, guised, Queue.map, hi]
      · simp only [workerStep, WorkerStage.recast, guised, hq]
        rw [if_neg hi, if_neg (by exact hi)]
        rcases p.queue.attempt i with ⟨q, found⟩
        cases found <;> rfl
  | checkingHalt =>
      show some (p.guised g, if p.halt then WorkerStage.stopping else .popping) = _
      simp only [workerStep, Option.map_some]
      split <;> rfl
  | rechecking task =>
      show (if p.halt then _ else _) = _
      simp only [workerStep]
      split <;> rfl
  | discarding task =>
      simp only [workerStep, WorkerStage.recast, Option.map_some]
      rw [← guised_measure]
      rfl
  | caught job payload =>
      simp only [workerStep, WorkerStage.recast]
      cases payload.burst? with
      | none => rfl
      | some inner =>
          simp only [Option.map_some]
          rw [guised_countFor]
          · rfl
          · exact fun _ => rfl
  | lowering job panicked =>
      simp only [workerStep, WorkerStage.recast, Option.map_some]
      split <;> rfl
  | countingPanic job ran =>
      simp only [workerStep, WorkerStage.recast, Option.map_some]
      rw [guised_countFor]
      exact fun _ => rfl
  | recordingPanic job ran =>
      simp only [workerStep, WorkerStage.recast, Option.map_some, guised_measure]
  | recording part job ran =>
      simp only [workerStep, Option.map_some, guised_measure]
      cases part <;> rfl
  | countingExecuted =>
      simp only [workerStep, WorkerStage.recast, Option.map_some]
      rw [guised_countFor]
      exact fun _ => rfl
  | stopping =>
      have hw : ((p.guised g).workers[i]?.map (·.executed.toNat)) =
          p.workers[i]?.map (·.executed.toNat) := by
        rw [show (p.guised g).workers = p.workers.map (·.recast g.toCasting) from rfl,
          List.getElem?_map, Option.map_map]
        rfl
      simp only [workerStep, WorkerStage.recast, Option.map_some, hw]
      rfl
  | _ => rfl

/-- A task ends in the same way in every guise. -/
theorem workEnds_guised (job : Job) (payload : Option Payload) :
    (p.guised g).workEnds job payload =
      ((p.workEnds job payload).1.guised g, (p.workEnds job payload).2.recast g.toCasting) := by
  cases payload <;> rfl

@[simp] theorem stageOf?_guised (i : Nat) :
    (p.guised g).stageOf? i = (p.stageOf? i).map (·.recast g.toCasting) := by
  simp [stageOf?, guised, Function.comp_def, Worker.recast]

/-- What a dead worker has left behind is the same in every guise. -/
@[simp] theorem burst?_guised (i : Nat) : (p.guised g).burst? i = p.burst? i := by
  have hw : (p.guised g).workers[i]? = (p.workers[i]?).map (·.recast g.toCasting) :=
    List.getElem?_map ..
  rw [burst?, hw, burst?]
  cases p.workers[i]? <;> rfl

theorem joinStep_guised (thread : ThreadId) (mode : Mode) (why : Purpose) (first : Nat)
    (left : List Nat) (joined : Nat) :
    (p.guised g).joinStep thread mode why first left joined =
      (p.joinStep thread mode why first left joined).map fun m =>
        (m.1.guised g, m.2.guised g.toCasting (g.dress p.id) p.size) := by
  unfold joinStep
  rw [show (p.guised g).id = p.id from rfl, stageOf?_guised, burst?_guised]
  by_cases ht : thread = .worker p.id first
  · rw [if_pos ht, if_pos ht]
    rfl
  · rw [if_neg ht, if_neg ht]
    cases p.stageOf? first with
    | none => rfl
    | some s =>
        cases s with
        | finished crashed =>
            cases crashed with
            | false => rfl
            | true => cases hb : p.burst? first <;> simp [WorkerStage.recast, CallStep.guised,
                CallStage.guised, guised, emit, log, Happening.dressed, Event.dressed]
        | _ => rfl

/-- **A call makes the same step in every guise.** -/
theorem callStep_guised (thread : ThreadId) (choice : Nat) (s : CallStage) :
    (p.guised g).callStep thread choice (s.guised g.toCasting (g.dress p.id) p.size) =
      (p.callStep thread choice s).map fun m =>
        (m.1.guised g, m.2.guised g.toCasting (g.dress p.id) p.size) := by
  cases s with
  | spawning next refusal =>
      simp only [callStep, CallStage.guised, show (p.guised g).size = p.size from rfl]
      split
      · next hn =>
        rw [Dress.refusal, if_pos hn]
        cases refusal next with
        | none =>
            simp [guised, log, CallStep.guised, CallStage.guised, Worker.recast,
              WorkerStage.recast, Happening.dressed]
        | some cause => rfl
      · rfl
  | checking task =>
      simp only [callStep, CallStage.guised, show (p.guised g).draining = p.draining from rfl]
      split <;> rfl
  | pushing task =>
      have hq := Queue.push_map (·.recast g.toCasting) p.queue task choice
      simp only [callStep, CallStage.guised,
        show (p.guised g).queue = p.queue.map (·.recast g.toCasting) from rfl, hq]
      rcases p.queue.push task choice with ⟨q, _ | _⟩ <;> rfl
  | admitted =>
      simp only [callStep, CallStage.guised, CallStep.guised, Option.map_some, guised_measure]
  | rejecting id kept =>
      cases kept <;>
        simp only [callStep, CallStage.guised, Option.map_some, Option.map_none] <;>
        rw [← guised_measure] <;> rfl
  | swapping why =>
      simp only [callStep, CallStage.guised, show (p.guised g).draining = p.draining from rfl]
      split
      · rw [Option.map_some, Purpose.guised_afterwards]
        rfl
      · rfl
  | joining mode why left joined =>
      cases left with
      | cons first left => exact joinStep_guised g p thread mode why first left joined
      | nil =>
          have hw : (p.guised g).workers.length = p.workers.length := List.length_map _
          have ho : (p.guised g).owns thread = p.owns thread := by
            cases thread with
            | caller => rfl
            | worker pool index => simp only [owns, hw]; rfl
          simp only [callStep, CallStage.guised, hw, ho,
            show (p.guised g).exited = p.exited from rfl]
          split
          · cases mode <;> rfl
          · rfl
  | unwinding why left joined payload =>
      cases left with
      | cons first left => rfl
      | nil =>
          simp only [callStep, CallStage.guised, Option.map_some, Purpose.guised_afterPanic]
          rfl
  | concluding why joined =>
      simp only [callStep, CallStage.guised, Option.map_some, Purpose.guised_afterwards,
        queue_length_guised]
      rfl
  | emptying why joined =>
      have hitems : (p.guised g).queue.items = p.queue.items.map (·.recast g.toCasting) := rfl
      simp only [callStep, CallStage.guised, Option.map_some, hitems, List.map_map,
        Function.comp_def, Task.id_recast]
      cases p.queue.items <;> rfl
  | tallying why joined removed =>
      simp only [callStep, CallStage.guised, Option.map_some, List.length_map]
      rfl
  | recording why joined removed =>
      simp only [callStep, CallStage.guised, CallStep.guised, Option.map_some, List.length_map,
        guised_measure]
  | discarding why joined removed => cases removed <;> rfl
  | reporting why joined =>
      simp only [callStep, CallStage.guised, Option.map_some, Purpose.guised_afterwards,
        show (p.guised g).abandoned = p.abandoned from rfl]
      split <;> rfl
  | dropping outcome =>
      simp only [callStep, CallStage.guised, show (p.guised g).draining = p.draining from rfl]
      split <;> rfl
  | announcing mode why =>
      cases mode
      · simp only [callStep, CallStage.guised, Option.map_some, queue_length_guised]
        rfl
      · rfl
  | _ => rfl

theorem foldl_throwAway_guised (ts : List Task) :
    (ts.map (·.recast g.toCasting)).foldl throwAway (p.guised g) =
      (ts.foldl throwAway p).guised g := by
  induction ts generalizing p with
  | nil => rfl
  | cons t rest ih => exact ih (p.throwAway t)

/-- What is given back of a pool that nobody holds is the same in every guise. -/
theorem reclaim_guised : (p.guised g).reclaim = p.reclaim.map (·.guised g) := by
  have hi : (p.guised g).queue.items = p.queue.items.map (·.recast g.toCasting) := rfl
  have hw : (p.guised g).workers.all (·.stage.isFinished) =
      p.workers.all (·.stage.isFinished) := by
    rw [show (p.guised g).workers = p.workers.map (·.recast g.toCasting) from rfl, List.all_map]
    simp only [Function.comp_def, Worker.recast, WorkerStage.isFinished_recast]
  unfold reclaim
  rw [hw, hi, show (p.guised g).life = p.life from rfl]
  simp only [ne_eq, List.map_eq_nil_iff]
  split
  · exact congrArg some
      (foldl_throwAway_guised g { p with queue := p.queue.drain.1 } p.queue.items)
  · rfl

end Pool

end WorkerPool
