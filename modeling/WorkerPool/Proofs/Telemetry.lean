import WorkerPool.Proofs.Later
import WorkerPool.Proofs.WorldSimulation

/-!
# Measuring changes nothing

A world that measures and one that does not make the same steps in the same order and show the same:
what happens, what threads are told, what figures say. They differ in the metrics alone. For two
runs to stay together no program may act on what a metric says; on all other figures it may act.

The argument is one simulation. A view is a guise in which pools are named and report as ever, so a
step of a world in a view is the view of its step (`step_seen`), as long as what a program is about
to hear of a metric does not matter in that view (`Deaf`). It is used twice: measuring worlds
without their metrics, and worlds without metrics whose programs hear zero in their place, which is
what they hear there anyway.

* `World.seen` -- a world in a view; `View.guise` -- the view as a guise;
* `Program.Heedless` -- programs that make nothing of what metrics say;
* `World.LikeUnmeasured` -- two worlds that show the same, metrics apart;
* `telemetry_unobservable` -- **measuring changes nothing but the metrics**.
-/

namespace WorkerPool

namespace World

/-! ## 1. Worlds in a view -/

/-- The world in a view. -/
def seen (v : View) (w : World) : World :=
  { w with
    telemetry := w.telemetry && v.keep
    pools := w.pools.map (·.seen v)
    callers := w.callers.map (·.hearing v.hear)
    held := w.held.map (·.hearing v.hear) }

end World

/-- What the thread is about to hear of a metric makes no difference to what is seen of it. -/
def Activity.Deaf (v : View) (w : World) (a : Activity) : Prop :=
  ∀ id counter next p, a = .going (.call (.read id (.metric counter)) next) →
    w.pools[id]? = some p →
    (next (.number (p.metric counter).toNat)).hearing v.hear =
      (next (.number (v.hear ((p.seen v).metric counter).toNat))).hearing v.hear

namespace World

/-- Whatever any thread is about to hear of a metric makes no difference to what is seen. -/
def Deaf (v : View) (w : World) : Prop :=
  ∀ thread a, w.activity? thread = some a → a.Deaf v w

end World

/-! ## 2. A view is a guise -/

/-- Programs on their own configurations that hear metrics through `f`. -/
def Casting.hearing (f : Nat → Nat) : Casting := ⟨fun config => config, f⟩

/-- Pools as they are. -/
def Dress.plain : Dress := ⟨id, id, id⟩

/-- The guise in which a world is as in this view. -/
def View.guise (v : View) : Guise := ⟨.hearing v.hear, fun _ => .plain, v.keep⟩

@[simp] theorem View.toCasting_guise (v : View) : v.guise.toCasting = .hearing v.hear := rfl

@[simp] theorem Casting.hear_hearing (f : Nat → Nat) : (Casting.hearing f).hear = f := rfl

@[simp] theorem Dress.refusal_plain (size : Nat) (refusal : Nat → Option SystemError) :
    Dress.plain.refusal size refusal = refusal := by
  funext worker
  exact ite_self _

@[simp] theorem Program.recast_hearing (f : Nat → Nat) (p : Program) :
    p.recast (.hearing f) = p.hearing f := by
  induction p with
  | finish | panic => rfl
  | submit pool label work next hw hn | make label work next hw hn =>
      simp only [recast, hearing, hw, hn]
  | call c next hn =>
      have hc : c.recast (.hearing f) = c := by cases c <;> rfl
      simp only [recast, hearing, hc, hn]
      rfl

@[simp] theorem Task.recast_hearing (f : Nat → Nat) (t : Task) :
    t.recast (.hearing f) = t.hearing f := by
  simp [recast, hearing]

@[simp] theorem Activity.recast_hearing (f : Nat → Nat) (a : Activity) :
    a.recast (.hearing f) = a.hearing f := by
  cases a <;> simp [recast, hearing]

@[simp] theorem WorkerStage.recast_hearing (f : Nat → Nat) (s : WorkerStage) :
    s.recast (.hearing f) = s.hearing f := by
  cases s <;> simp [recast, hearing]

@[simp] theorem Worker.recast_hearing (f : Nat → Nat) (w : Worker) :
    w.recast (.hearing f) = w.hearing f := by
  simp [recast, hearing]

@[simp] theorem CallStage.guised_plain (f : Nat → Nat) (size : Nat) (s : CallStage) :
    s.guised (.hearing f) .plain size = s.hearing f := by
  cases s <;> simp [guised, hearing]

@[simp] theorem Label.recast_hearing (f : Nat → Nat) (l : Label) :
    l.recast (.hearing f) = l.hearing f := by
  cases l <;> simp [recast, hearing]

@[simp] theorem Happening.dressed_plain (h : Happening) : h.dressed .plain = h := by
  cases h with
  | event e => cases e <;> rfl
  | _ => rfl

theorem Pool.guised_view (v : View) (p : Pool) : p.guised v.guise = p.seen v := by
  simp only [guised, seen, View.guise, Worker.recast_hearing, CallStage.guised_plain,
    Happening.dressed_plain, Task.recast_hearing, List.map_id']
  rfl

theorem World.guised_view (v : View) (w : World) : w.guised v.guise = w.seen v := by
  simp only [guised, seen, Pool.guised_view, View.toCasting_guise, Activity.recast_hearing,
    Task.recast_hearing]
  rfl

namespace Pool

variable (v : View) (p : Pool)

/-- What can be read off a pool, metrics apart, is the same in every view. -/
theorem read_seen {gauge : Gauge} (hg : ∀ counter, gauge ≠ .metric counter) :
    (p.seen v).read gauge = p.read gauge := by
  rw [← guised_view, read_guised _ _ hg]

theorem stats_seen : (p.seen v).stats = p.stats := by
  rw [← guised_view, stats_guised]

theorem description_seen : (p.seen v).description = p.description := by
  rw [← guised_view, description_guised]

end Pool

/-- In a view nobody's name and no configuration is changed. -/
theorem Activity.Deaf.apt {v : View} {w : World} {a : Activity} (hd : a.Deaf v w)
    (thread : ThreadId) : a.Apt v.guise w thread where
  hears id counter next p he hp := by
    simpa [Pool.guised_view] using hd id counter next p he hp
  named next _ := by
    cases thread with
    | caller i => rfl
    | worker id i =>
        simp only [World.nameOf, World.getElem?_pools_guised]
        cases w.pools[id]? <;> rfl
  starts config next _ :=
    ⟨rfl, rfl, rfl, rfl, (Dress.refusal_plain _ (w.host.refusal _ config)).symm⟩

namespace World

theorem getElem?_pools_seen (v : View) (w : World) (id : PoolId) :
    (w.seen v).pools[id]? = (w.pools[id]?).map (·.seen v) := List.getElem?_map ..

theorem activity?_seen (v : View) (w : World) (thread : ThreadId) :
    (w.seen v).activity? thread = (w.activity? thread).map (·.hearing v.hear) := by
  simp [← guised_view, activity?_guised]

/-- **A step is seen as the same step in every view**, where no thread is told a metric that is heard
    otherwise. -/
theorem step_seen (v : View) {w : World} (hd : w.Deaf v) (l : Label) :
    (w.seen v).step (l.hearing v.hear) = (w.step l).map (·.seen v) := by
  have hapt : w.Apt v.guise l := fun thread choice a _ ha => (hd thread a ha).apt thread
  have hstep := step_guised v.guise hapt
  simpa [guised_view] using hstep

end World

/-! ## 3. Two runs -/

namespace View

/-- Programs as they are, and no metrics. -/
def unmeasured : View := ⟨fun n => n, false⟩

/-- Programs that hear zero wherever they read a metric. -/
def silent : View := ⟨fun _ => 0, true⟩

end View

/-- The pool without its metrics. -/
def Pool.unmeasured (p : Pool) : Pool := { p with metrics := none }

namespace World

/-- The world without any metrics. -/
def unmeasured (w : World) : World :=
  { w with telemetry := false, pools := w.pools.map (·.unmeasured) }

theorem seen_unmeasured (w : World) : w.seen .unmeasured = w.unmeasured := by
  have hp (p : Pool) : p.seen .unmeasured = p.unmeasured := by
    simp [Pool.seen, Pool.unmeasured, View.unmeasured, Queue.map]
  simp [seen, unmeasured, hp]
  simp [View.unmeasured]

theorem metrics_of_unmeasured {w : World} (h : w.unmeasured = w) {id : PoolId} {p : Pool}
    (hp : w.pools[id]? = some p) : p.metrics = none := by
  rw [← h] at hp
  obtain ⟨q, -, rfl⟩ := List.mem_map.mp (List.mem_of_getElem? hp)
  rfl

/-- Where nothing is measured, programs hear zero anyway. -/
theorem deaf_of_unmeasured {w : World} (h : w.unmeasured = w) {v : View} (h0 : v.hear 0 = 0) :
    w.Deaf v := by
  intro thread a ha id counter next p he hp
  have hm := metrics_of_unmeasured h hp
  have hv : (p.seen v).metrics = none := by simp [Pool.seen, hm]
  simp [Pool.metric, hm, hv, h0]

/-- What hears zero goes on in the same way, whatever number it was to hear. -/
theorem hears_zero {b : Activity} {id : PoolId} {counter : Metrics.Counter}
    {next : Reply → Program}
    (h : b.hearing (fun _ => 0) =
      (Activity.going (.call (.read id (.metric counter)) next)).hearing fun n => n)
    (m n : Nat) :
    (next (.number m)).hearing (fun n => n) = (next (.number n)).hearing fun n => n := by
  cases b with
  | inside | asleep => cases h
  | going program =>
      cases program with
      | finish | panic | submit | make => cases h
      | call c next' =>
          simp only [Activity.hearing, Program.hearing, Activity.going.injEq,
            Program.call.injEq] at h
          obtain ⟨rfl, hnext⟩ := h
          exact (congrFun hnext (.number m)).symm.trans (congrFun hnext (.number n))

/-- A program that hears zero wherever it reads a metric does not hear what it reads. -/
theorem deaf_of_silent {u w : World} (h : u.unmeasured = w.seen .silent) :
    u.Deaf .unmeasured := by
  intro thread a ha id counter next p he hp
  subst he
  have hseen := activity?_seen .silent w thread
  rw [← h, ← seen_unmeasured, activity?_seen, ha] at hseen
  obtain ⟨b, -, he⟩ := Option.map_eq_some_iff.mp hseen.symm
  exact hears_zero he _ _

theorem unmeasured_step {w w' : World} (h : w.unmeasured = w) {l : Label}
    (hs : w.step l = some w') : w'.unmeasured = w' := by
  have hstep := step_seen .unmeasured (deaf_of_unmeasured h rfl) l
  rw [seen_unmeasured, h, View.unmeasured, Label.hearing_id, hs] at hstep
  rw [← seen_unmeasured]
  exact (Option.some.inj hstep).symm

theorem unmeasured_run {w w' : World} (h : w.unmeasured = w) {ls : List Label}
    (hr : w.run ls = some w') : w'.unmeasured = w' := by
  induction ls generalizing w with
  | nil =>
      cases hr
      exact h
  | cons l rest ih =>
      obtain ⟨v, hv, hr⟩ := Option.bind_eq_some_iff.mp hr
      exact ih (unmeasured_step h hv) hr

/-- **The step of a measuring world and that of one that measures nothing are the same step.** -/
theorem silent_step {u w : World} (hw : w.unmeasured = w) (h : u.unmeasured = w.seen .silent)
    (l : Label) :
    (u.step (l.hearing fun _ => 0)).map unmeasured = (w.step l).map (·.seen .silent) := by
  calc (u.step (l.hearing fun _ => 0)).map unmeasured
    _ = (u.step (l.hearing fun _ => 0)).map (·.seen .unmeasured) := by
        simp only [seen_unmeasured]
    _ = (u.seen .unmeasured).step ((l.hearing fun _ => 0).hearing fun n => n) :=
        (step_seen .unmeasured (deaf_of_silent h) _).symm
    _ = (w.seen .silent).step (l.hearing fun _ => 0) := by
        rw [seen_unmeasured, h, Label.hearing_id]
    _ = (w.step l).map (·.seen .silent) := step_seen .silent (deaf_of_unmeasured hw rfl) l

theorem silent_run {u w : World} (hw : w.unmeasured = w) (h : u.unmeasured = w.seen .silent)
    (ls : List Label) :
    (u.run (ls.map (·.hearing fun _ => 0))).map unmeasured =
      (w.run ls).map (·.seen .silent) := by
  induction ls generalizing u w with
  | nil => exact congrArg some h
  | cons l rest ih =>
      have hstep := silent_step hw h l
      simp only [List.map_cons, run]
      cases hs : w.step l with
      | none =>
          rw [hs, Option.map_none, Option.map_eq_none_iff] at hstep
          rw [hstep]
          rfl
      | some w' =>
          rw [hs] at hstep
          obtain ⟨u', hu, h'⟩ := Option.map_eq_some_iff.mp hstep
          rw [hu]
          exact ih (unmeasured_step hw hs) h'

end World

/-! ## 4. What is seen from outside -/

/-- The program may read metrics but makes nothing of what they say. -/
def Program.Heedless : Program → Prop
  | .finish _ | .panic _ => True
  | .submit _ _ work next | .make _ work next => work.Heedless ∧ ∀ r, (next r).Heedless
  | .call c next =>
    (∀ id counter, c = .read id (.metric counter) →
      ∀ m n, next (.number m) = next (.number n)) ∧ ∀ r, (next r).Heedless

/-- A heedless program is the same whatever it hears. -/
theorem Program.hearing_of_heedless {p : Program} (h : p.Heedless) (f : Nat → Nat) :
    p.hearing f = p := by
  induction p with
  | finish | panic => rfl
  | submit pool label work next hw hn | make label work next hw hn =>
      simp only [hearing, hw h.1, hn _ (h.2 _)]
  | call c next hn =>
      have hnext (r : Reply) : next (c.hear f r) = next r := by
        unfold Call.hear
        split
        · exact h.1 _ _ rfl _ _
        · rfl
      simp only [hearing, hnext, hn _ (h.2 _)]

/-- The second pool measures nothing and shows what the first one shows, metrics apart. -/
structure Pool.LikeUnmeasured (p q : Pool) : Prop where
  trace : q.trace = p.trace
  stats : q.stats = p.stats
  description : q.description = p.description
  read : ∀ gauge, (∀ counter, gauge ≠ .metric counter) → q.read gauge = p.read gauge
  metric : ∀ counter, q.metric counter = 0
  snapshot : ∀ now, q.snapshot now = {}

/-- The second world measures nothing and shows what the first one shows, metrics apart. -/
structure World.LikeUnmeasured (u v : World) : Prop where
  trace : v.trace = u.trace
  answers : v.callers.map (·.answers?) = u.callers.map (·.answers?)
  pools : ∀ id : PoolId, Option.Rel Pool.LikeUnmeasured u.pools[id]? v.pools[id]?

namespace Pool

theorem likeUnmeasured {p q : Pool} (h : p.seen .unmeasured = q.seen .silent)
    (hq : q.metrics = none) : p.LikeUnmeasured q where
  trace := (congrArg Pool.trace h).symm
  stats := by rw [← stats_seen .silent, ← h, stats_seen]
  description := by rw [← description_seen .silent, ← h, description_seen]
  read gauge hg := by rw [← read_seen .silent q hg, ← h, read_seen _ _ hg]
  metric counter := by simp [metric, hq]
  snapshot now := by simp [snapshot, hq]

end Pool

namespace World

theorem likeUnmeasured {u v : World} (hv : v.unmeasured = v)
    (h : u.unmeasured = v.seen .silent) : u.LikeUnmeasured v where
  trace := (congrArg World.trace h).symm
  answers := by
    have hc : u.callers = v.callers.map (·.hearing fun _ => 0) := congrArg World.callers h
    have ha (a : Activity) : (a.hearing fun _ => 0).answers? = a.answers? := by
      cases a with
      | going program => cases program <;> rfl
      | _ => rfl
    simp [hc, Function.comp_def, ha]
  pools id := by
    have hp : (u.pools[id]?).map (·.seen .unmeasured) = (v.pools[id]?).map (·.seen .silent) := by
      rw [← getElem?_pools_seen, ← getElem?_pools_seen, seen_unmeasured, h]
    cases hu : u.pools[id]? with
    | none =>
        rw [hu] at hp
        rw [Option.map_eq_none_iff.mp hp.symm]
        exact .none
    | some p =>
        rw [hu] at hp
        obtain ⟨q, hq, he⟩ := Option.map_eq_some_iff.mp hp.symm
        rw [hq]
        exact .some (Pool.likeUnmeasured he.symm (metrics_of_unmeasured hv hq))

/-- Two runs that stay together show the same. -/
theorem likeUnmeasured_of_map {u v : Option World}
    (hv : ∀ w, v = some w → w.unmeasured = w)
    (h : u.map unmeasured = v.map (·.seen .silent)) : Option.Rel LikeUnmeasured u v := by
  cases v with
  | none =>
      rw [Option.map_eq_none_iff.mp h]
      exact .none
  | some w =>
      obtain ⟨u, rfl, he⟩ := Option.map_eq_some_iff.mp h
      exact .some (likeUnmeasured (hv w rfl) he)

/-- **Telemetry never influences what pools do.** On whatever steps, a measuring world and one that
    measures nothing stay together, step by step, and show the same: of programs that hear zero
    wherever they read a metric nothing else is changed, and heedless programs are not changed at
    all. -/
theorem telemetry_unobservable (host : Host) (ls : List Label) :
    ((initial true host).run (ls.map (·.hearing fun _ => 0))).map unmeasured =
        ((initial false host).run ls).map (·.seen .silent) ∧
      Option.Rel LikeUnmeasured ((initial true host).run (ls.map (·.hearing fun _ => 0)))
        ((initial false host).run ls) ∧
      ((∀ program, .fork program ∈ ls → program.Heedless) →
        ((initial true host).run ls).map unmeasured = (initial false host).run ls ∧
        Option.Rel LikeUnmeasured ((initial true host).run ls) ((initial false host).run ls)) := by
  have hmute : (initial false host).unmeasured = initial false host := rfl
  have hend (w : World) (hr : (initial false host).run ls = some w) : w.unmeasured = w :=
    unmeasured_run hmute hr
  have hrun := silent_run hmute (u := initial true host) rfl ls
  refine ⟨hrun, likeUnmeasured_of_map hend hrun, fun hf => ?_⟩
  have hls : ls.map (·.hearing fun _ => 0) = ls := by
    refine (List.map_congr_left fun l hl => ?_).trans (List.map_id' ls)
    cases l with
    | fork program => exact congrArg _ (Program.hearing_of_heedless (hf program hl) _)
    | _ => rfl
  rw [hls] at hrun
  refine ⟨?_, likeUnmeasured_of_map hend hrun⟩
  -- what measures nothing is silent already: the same argument, with that world on both sides
  have hself := silent_run hmute (u := initial false host) rfl ls
  rw [hls] at hself
  rw [hrun, ← hself]
  cases hr : (initial false host).run ls with
  | none => rfl
  | some w => exact congrArg some (hend w hr)

/-- A thread that looks at everything: it submits a task that acts on how many workers are active,
    reads a metric, and goes by how many tasks are pending. -/
def watchful : Program :=
  .call (.start (Config.withThreads 1)) fun _ =>
    .submit 0 "looks" (.call (.read 0 .active) fun r =>
      if r = .number 1 then .call (.note ⟨"looks", "active", some r⟩) fun _ => .finish []
      else .finish []) fun _ =>
    .call (.read 0 (.metric .submitted)) fun _ => .call (.read 0 .pending) fun r =>
      if r = .number 1 then .call (.shutdown 0 .graceful) fun _ => .finish [r] else .finish []

theorem watchful_heedless : watchful.Heedless := by
  refine ⟨fun _ _ e => (nomatch e), fun _ => ⟨⟨fun _ _ e => (nomatch e), fun r => ?_⟩, fun _ =>
    ⟨fun _ _ _ _ _ => rfl, fun _ => ⟨fun _ _ e => (nomatch e), fun r => ?_⟩⟩⟩⟩
  · show (if r = .number 1 then _ else _ : Program).Heedless
    split
    · exact ⟨fun _ _ e => (nomatch e), fun _ => trivial⟩
    · trivial
  · show (if r = .number 1 then _ else _ : Program).Heedless
    split
    · exact ⟨fun _ _ e => (nomatch e), fun _ => trivial⟩
    · trivial

/-- The run of the thread and its worker until both have ended. -/
def watchfulSteps : List Label :=
  .fork watchful :: moves (.caller 0) 15 ++ moves (.worker 0 0) 18 ++ moves (.caller 0) 3

/-- The task has seen itself active, the shutdown has joined its worker, and only the metrics tell
    the two runs apart. -/
theorem telemetry_unobservable_when_watchful : ∃ (u v : World) (p q : Pool),
    (initial true {}).run watchfulSteps = some u ∧ (initial false {}).run watchfulSteps = some v ∧
    u.unmeasured = v ∧ u.pools[0]? = some p ∧ v.pools[0]? = some q ∧ q.trace = p.trace ∧
    .note ⟨"looks", "active", some (.number 1)⟩ ∈ p.trace ∧
    .returned (.caller 0) .graceful 1 ∈ p.trace ∧
    p.metric .executed = 1 ∧ q.metric .executed = 0 := by
  have hrun : ((initial true {}).run watchfulSteps).any (fun u => (u.pools[0]?).any fun p =>
      decide (.note ⟨"looks", "active", some (.number 1)⟩ ∈ p.trace ∧
        .returned (.caller 0) .graceful 1 ∈ p.trace ∧ p.metric .executed = 1)) = true := by decide
  obtain ⟨u, hu, hrun⟩ := (Option.any_eq_true ..).mp hrun
  obtain ⟨p, hp, hrun⟩ := (Option.any_eq_true ..).mp hrun
  obtain ⟨hnote, hback, hmetric⟩ := of_decide_eq_true hrun
  have hf (program : Program) (hm : .fork program ∈ watchfulSteps) : program.Heedless := by
    have he : program = watchful := by
      simpa [watchfulSteps, moves] using hm
    exact he ▸ watchful_heedless
  obtain ⟨-, -, hboth⟩ := telemetry_unobservable {} watchfulSteps
  obtain ⟨he, hlike⟩ := hboth hf
  rw [hu] at he hlike
  rw [Option.map_some] at he
  generalize hv : (initial false {}).run watchfulSteps = v' at he hlike
  cases hlike with
  | @some _ v hlike =>
      have hpool := hlike.pools 0
      rw [hp] at hpool
      generalize hq : v.pools[0]? = q' at hpool
      cases hpool with
      | @some _ q hpool =>
          exact ⟨u, v, p, q, hu, rfl, Option.some.inj he, hp, hq, hpool.trace, hnote, hback, hmetric,
            hpool.metric _⟩

end World

end WorkerPool
