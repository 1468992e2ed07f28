import WorkerPool.Proofs.CallTermination
import WorkerPool.Proofs.WorldSimulation
import WorkerPool.Proofs.Obedience

/-!
# Appearance changes nothing but reports

The name prefix, the stack size and the panic strategy of a configuration do not steer a pool. Put
another configuration in the place of each one that programs start pools from, with as many workers
that the system grants or refuses alike: on the same steps the two worlds stay together. Threads are
told the same, tasks begin, end and are dropped at the same steps, figures and metrics are the same,
and so are the reports, but for how loudly panics are reported and for the prefix announced.

The first world in a guise is the second one (`Exchanged`). The dress of a pool in the guise is that
of the configuration it is made from in the second world; which one that is only turns out when the
pool is started, so the guise is not known beforehand and grows with the run.

* `Config.Interchangeable` -- configurations that differ in appearance only;
* `Rule.impersonal` -- programs that do not ask for the names of their threads;
* `step_exchanged`, `run_exchanged` -- the two worlds stay together;
* `World.Redressed` -- what that means for all that can be seen;
* `appearance_changes_reports_only` -- **nothing but reports depends on appearance**.
-/

namespace WorkerPool

/-! ## 1. Configurations and programs -/

/-- On this machine the two configurations come to the same: both pass or have the same fault, they
    ask for as many workers, and each of these is granted or refused alike. -/
structure Config.Interchangeable (host : Host) (c c' : Config) : Prop where
  validate : c'.validate = c.validate
  threads : c'.workerThreads host.cpus = c.workerThreads host.cpus
  refusal : ∀ id, ∀ worker < max 1 (c.workerThreads host.cpus).toNat,
    host.refusal id c' worker = host.refusal id c worker

/-- Configurations that pass and ask for as many workers are interchangeable where all of these are
    granted, **whatever they say of names, stacks and panics**. -/
theorem Config.Interchangeable.of_granted {host : Host} {c c' : Config}
    (hc : c.validate = .ok ()) (hc' : c'.validate = .ok ())
    (ht : c'.workerThreads host.cpus = c.workerThreads host.cpus)
    (hg : ∀ id, ∀ worker < max 1 (c.workerThreads host.cpus).toNat,
      host.refusal id c worker = none)
    (hg' : ∀ id, ∀ worker < max 1 (c'.workerThreads host.cpus).toNat,
      host.refusal id c' worker = none) :
    c.Interchangeable host c' where
  validate := hc'.trans hc.symm
  threads := ht
  refusal id worker h := (hg' id worker (ht ▸ h)).trans (hg id worker h).symm

/-- Threads may ask for anything but their names, and start pools only from configurations that may
    be exchanged for their replacements. -/
def Rule.impersonal (host : Host) (f : Config → Config) : Rule where
  call _ c := c ≠ .threadName ∧ ∀ config, c = .start config → config.Interchangeable host (f config)
  panic _ _ := True

/-- The same programs on other configurations. -/
def Casting.configs (f : Config → Config) : Casting := ⟨f, fun n => n⟩

/-- The guise in which programs are on other configurations and the pool of each number looks as if
    it were made from this one. -/
def Guise.of (host : Host) (f : Config → Config) (made : PoolId → Config) : Guise where
  toCasting := .configs f
  dress id :=
    ⟨fun _ => (made id).namePrefix, fun _ => (made id).strategy,
      fun _ => host.refusal id (made id)⟩
  keep := true

theorem Guise.suits_of {host : Host} {f : Config → Config} {made : PoolId → Config} {id : PoolId}
    {config : Config} (h : config.Interchangeable host (f config)) (hm : made id = f config) :
    (Guise.of host f made).Suits host id config where
  validate := h.validate
  threads := h.threads
  namePrefix := (congrArg Config.namePrefix hm).symm
  strategy := (congrArg Config.strategy hm).symm
  refusal := by
    funext worker
    show host.refusal id (f config) worker = if _ then _ else host.refusal id (made id) worker
    rw [hm]
    split
    · next hlt => exact h.refusal id worker hlt
    · rfl

namespace World

variable {f : Config → Config} {made made' : PoolId → Config} {u v w : World}

/-! ## 2. Two runs -/

/-- The thread that makes this step is about to start a pool from this configuration. -/
def Founds (w : World) (l : Label) (config : Config) : Prop :=
  ∃ thread choice next, l = .act thread choice ∧
    w.activity? thread = some (.going (.call (.start config) next))

theorem Founds.unique {l : Label} {c c' : Config} (h : w.Founds l c) (h' : w.Founds l c') :
    c = c' := by
  obtain ⟨thread, choice, next, rfl, ha⟩ := h
  obtain ⟨thread', choice', next', e, ha'⟩ := h'
  obtain ⟨rfl, rfl⟩ : thread = thread' ∧ choice = choice' := by injection e; exact ⟨‹_›, ‹_›⟩
  rw [ha] at ha'
  injection ha' with e
  injection e with e
  injection e with e
  injection e

/-- What an obedient world's thread is doing keeps to the rule. -/
theorem Obeys.activity {rule : Rule} (hw : w.Obeys rule) {thread : ThreadId} {a : Activity}
    (ha : w.activity? thread = some a) : ∃ home, a.Obeys rule home := by
  cases thread with
  | caller i => exact ⟨none, hw.callers a (List.mem_of_getElem? ha)⟩
  | worker id i =>
      obtain ⟨s, hs, ha⟩ := Option.bind_eq_some_iff.mp ha
      obtain ⟨p, hp, hs⟩ := Option.bind_eq_some_iff.mp hs
      have hobeys := (hw.pools p (List.mem_of_getElem? hp)).workers s (List.mem_of_getElem? hs)
      cases s with
      | running job b =>
          cases ha
          exact ⟨some p.id, hobeys⟩
      | _ => cases ha

/-- What an impersonal thread does comes to the same in the guise, if the pool that it starts is
    made there from the replacement. -/
theorem apt_of (hw : w.Obeys (.impersonal w.host f)) {l : Label}
    (hm : ∀ config, w.Founds l config → made w.pools.length = f config) :
    w.Apt (.of w.host f made) l := by
  intro thread choice a hl ha
  obtain ⟨home, hobeys⟩ := hw.activity ha
  refine ⟨fun id counter next p _ _ => rfl, fun next he => ?_, fun config next he => ?_⟩
  · subst he
    exact absurd rfl hobeys.1.1
  · subst he
    exact Guise.suits_of (hobeys.1.2 config rfl) (hm config ⟨thread, choice, next, hl, ha⟩)

/-- The guise of a world only depends on the dress of the pools that are there. -/
theorem guised_congr (host : Host) (hm : ∀ p ∈ w.pools, made p.id = made' p.id) :
    w.guised (.of host f made) = w.guised (.of host f made') := by
  have hp : w.pools.map (·.guised (.of host f made)) = w.pools.map (·.guised (.of host f made')) :=
    List.map_congr_left fun p hp => by simp only [Pool.guised, Guise.of, hm p hp]
  simp only [guised, hp]
  rfl

/-- For every step there is a choice of the next pool's configuration that suits it. -/
theorem exists_made (made : PoolId → Config) (f : Config → Config) (w : World) (l : Label) :
    ∃ made' : PoolId → Config, (∀ id < w.pools.length, made id = made' id) ∧
      ∀ config, w.Founds l config → made' w.pools.length = f config := by
  by_cases hc : ∃ config, w.Founds l config
  · obtain ⟨config, hc⟩ := hc
    refine ⟨Function.update made w.pools.length (f config), fun id hid => ?_, fun c h => ?_⟩
    · rw [Function.update_of_ne (Nat.ne_of_lt hid)]
    · rw [Function.update_self, hc.unique h]
  · exact ⟨made, fun _ _ => rfl, fun config h => absurd ⟨config, h⟩ hc⟩

/-- The second world is the first one on other configurations. -/
def Exchanged (f : Config → Config) (u v : World) : Prop :=
  ∃ made, v = u.guised (.of u.host f made)

/-- **The steps of the two worlds are the same step**, or neither of them can be taken. -/
theorem step_exchanged (hr : Reachable u) (hu : u.Obeys (.impersonal u.host f))
    (h : Exchanged f u v) (l : Label) :
    Option.Rel (Exchanged f) (u.step l) (v.step (l.recast (.configs f))) := by
  obtain ⟨made, rfl⟩ := h
  obtain ⟨made', hold, hnew⟩ := exists_made made f u l
  have hsame (p : Pool) (hp : p ∈ u.pools) : made p.id = made' p.id := by
    obtain ⟨id, hid⟩ := List.mem_iff_getElem?.mp hp
    rw [(sound_reachable hr).numbered hid]
    exact hold id (List.getElem?_eq_some_iff.mp hid).1
  rw [guised_congr u.host hsame]
  have hstep := step_guised (.of u.host f made') (apt_of hu hnew)
  rw [show (Guise.of u.host f made').toCasting = .configs f from rfl] at hstep
  rw [hstep]
  cases hs : u.step l with
  | none => exact .none
  | some u' => exact .some ⟨made', by rw [step_host hs]⟩

/-- **The two worlds stay together on every run.** -/
theorem run_exchanged (hr : Reachable u) (hu : u.Obeys (.impersonal u.host f))
    (h : Exchanged f u v) {ls : List Label}
    (hf : ∀ program, .fork program ∈ ls → program.Obeys (.impersonal u.host f) none) :
    Option.Rel (Exchanged f) (u.run ls) (v.run (ls.map (·.recast (.configs f)))) := by
  induction ls generalizing u v with
  | nil => exact .some h
  | cons l rest ih =>
      have hstep := step_exchanged hr hu h l
      simp only [List.map_cons, run]
      generalize v.step (l.recast (.configs f)) = v' at hstep
      cases hs : u.step l with
      | none =>
          rw [hs] at hstep
          cases hstep
          exact .none
      | some u' =>
          rw [hs] at hstep
          cases hstep with
          | some h' =>
              have hhost := step_host hs
              have hobeys := hu.step (sound_reachable hr) hs fun program e =>
                hf program (e ▸ List.mem_cons_self ..)
              refine ih (hr.step l hs) (hhost ▸ hobeys) h' fun program hm => ?_
              rw [hhost]
              exact hf program (List.mem_cons_of_mem _ hm)

end World

/-! ## 3. What is seen from outside -/

/-- The level of the report where panics are reported as this strategy says. -/
def Event.levelUnder (strategy : Strategy) : Event → Level
  | .taskPanicked _ _ _ => strategy.level
  | e => e.level

/-- The named values of the report where pools announce this prefix. -/
def Event.fieldsUnder (namePrefix : String) : Event → List (String × FieldValue)
  | .initializing threads _ => fields (.initializing threads namePrefix)
  | e => e.fields

/-- The second event is the first one as this pool reports it: the same sentence with the same
    values, at the same level, but for the level of a panic and the prefix announced. -/
structure Event.Redressed (q : Pool) (e e' : Event) : Prop where
  message : e'.message = e.message
  level : e'.level = e.levelUnder q.handler.strategy
  fields : e'.fields = e.fieldsUnder q.namePrefix

/-- What happens in the one pool and in the other at the same step: the same, or the same event as
    the other pool reports it. -/
inductive Happening.Redressed (q : Pool) : Happening → Happening → Prop where
  | event {e e' : Event} (h : e.Redressed q e') : Redressed q (.event e) (.event e')
  | same (h : Happening) (hn : ∀ e, h ≠ .event e) : Redressed q h h

/-- The second pool shows what the first one shows and does what it does, and only reports
    otherwise. -/
structure Pool.Redressed (f : Config → Config) (p q : Pool) : Prop where
  trace : List.Forall₂ (Happening.Redressed q) p.trace q.trace
  stats : q.stats = p.stats
  description : q.description = p.description
  read : ∀ gauge, q.read gauge = p.read gauge
  snapshot : ∀ now, q.snapshot now = p.snapshot now
  queue : q.queue = p.queue.map (·.recast (.configs f))
  workers : q.workers = p.workers.map (·.recast (.configs f))

/-- The second world shows what the first one shows, and only its pools report otherwise: threads
    are at the same places of their programs, on other configurations. -/
structure World.Redressed (f : Config → Config) (u v : World) : Prop where
  trace : v.trace = u.trace
  callers : v.callers = u.callers.map (·.recast (.configs f))
  answers : v.callers.map (·.answers?) = u.callers.map (·.answers?)
  pools : ∀ id : PoolId, Option.Rel (Pool.Redressed f) u.pools[id]? v.pools[id]?

theorem Event.dressed_redressed {d : Dress} {q : Pool}
    (hn : ∀ text, d.namePrefix text = q.namePrefix) (hs : ∀ s, d.strategy s = q.handler.strategy)
    (e : Event) : e.Redressed q (e.dressed d) := by
  cases e with
  | initializing => exact ⟨rfl, rfl, by rw [dressed, hn]; rfl⟩
  | taskPanicked => exact ⟨rfl, by rw [dressed, hs]; rfl, rfl⟩
  | _ => exact ⟨rfl, rfl, rfl⟩

namespace Pool

theorem redressed (host : Host) (f : Config → Config) (made : PoolId → Config) (p : Pool) :
    p.Redressed f (p.guised (.of host f made)) where
  trace := by
    refine List.forall₂_map_right_iff.mpr (List.forall₂_same.mpr fun h _ => ?_)
    cases h with
    | event e => exact .event (e.dressed_redressed (fun _ => rfl) fun _ => rfl)
    | _ => exact .same _ nofun
  stats := stats_guised _ p
  description := description_guised _ p
  read gauge := by
    by_cases hg : ∃ counter, gauge = .metric counter
    · obtain ⟨counter, rfl⟩ := hg
      rfl
    · exact read_guised _ p fun counter e => hg ⟨counter, e⟩
  snapshot _ := rfl
  queue := rfl
  workers := rfl

end Pool

namespace World

variable {f : Config → Config} {u v : World}

theorem Exchanged.redressed (h : Exchanged f u v) : u.Redressed f v := by
  obtain ⟨made, rfl⟩ := h
  refine ⟨rfl, rfl, ?_, fun id => ?_⟩
  · have ha (a : Activity) : (a.recast (.configs f)).answers? = a.answers? := by
      cases a with
      | going program => cases program <;> rfl
      | _ => rfl
    show (u.callers.map (·.recast (.configs f))).map (·.answers?) = _
    simp only [List.map_map, Function.comp_def, ha]
  · rw [getElem?_pools_guised]
    cases u.pools[id]? with
    | none => exact .none
    | some p => exact .some (p.redressed u.host f made)

/-- **Nothing but reports depends on the panic strategy, the name prefix and the stack size.** Let
    programs ask for anything but the names of their threads, and put other configurations in the
    place of those that they start pools from, interchangeable with them. Then every sequence of
    steps can be taken in both worlds or in neither, and what is seen is the same after it: the
    replies, and so where every thread has got to, the traces but for the level of panics and the
    prefix announced, and every figure of every pool, worker and metric. -/
theorem appearance_changes_reports_only (telemetry : Bool) (host : Host) (f : Config → Config)
    (ls : List Label)
    (hf : ∀ program, .fork program ∈ ls → program.Obeys (.impersonal host f) none) :
    Option.Rel (Redressed f) ((initial telemetry host).run ls)
      ((initial telemetry host).run (ls.map (·.recast (.configs f)))) := by
  have hstart : Exchanged f (initial telemetry host) (initial telemetry host) :=
    ⟨fun _ => .standard, by simp [guised, initial, Guise.of]⟩
  have hruns := run_exchanged (.initial telemetry host) (obeys_initial telemetry host) hstart hf
  generalize (initial telemetry host).run ls = u,
    (initial telemetry host).run (ls.map _) = v at hruns ⊢
  cases hruns with
  | none => exact .none
  | some h => exact .some h.redressed

/-- A thread whose first task panics and whose second one looks how many panics there were. -/
def shaken : Program :=
  .call (.start (Config.withThreads 1)) fun _ =>
    .submit 0 "breaks" (.panic (.literal "boom")) fun _ =>
      .submit 0 "looks" (.call (.read 0 .panicked) fun r => .finish [r]) fun _ =>
        .call (.shutdown 0 .graceful) fun _ => .call (.read 0 (.workerPanicked 0)) fun r =>
          .finish [r]

/-- Another configuration for it, in which all is different but the number of workers. -/
def discreet : Config := ⟨some 1, "quiet", none, .isolate⟩

theorem shaken_impersonal : shaken.Obeys (.impersonal {} fun _ => discreet) none := by
  have hc : (Config.withThreads 1).Interchangeable {} discreet :=
    .of_granted (by decide) (by decide) rfl (fun _ _ _ => rfl) fun _ _ _ => rfl
  have hstart (config : Config) (e : Call.start (Config.withThreads 1) = .start config) :
      config.Interchangeable {} discreet := by
    injection e with e
    exact e ▸ hc
  have hlooks : Program.Obeys (.impersonal {} fun _ => discreet)
      (.call (.read 0 .panicked) fun r => .finish [r]) (some 0) :=
    ⟨⟨nofun, nofun⟩, fun _ _ => trivial⟩
  exact ⟨⟨nofun, hstart⟩, fun _ _ => ⟨trivial, fun _ _ => ⟨hlooks, fun _ _ => ⟨⟨nofun, nofun⟩,
    fun _ _ => ⟨⟨nofun, nofun⟩, fun _ _ => trivial⟩⟩⟩⟩⟩

/-- The run of the thread and its worker until both have ended. -/
def shakenSteps : List Label :=
  .fork shaken :: moves (.caller 0) 17 ++ moves (.worker 0 0) 32 ++ moves (.caller 0) 4

/-- Both threads have been told of one panic. The one pool has reported it as an error, the other
    one for debugging only. -/
theorem appearance_changes_reports_only_when_shaken : ∃ (u v : World) (p q : Pool),
    (initial true {}).run shakenSteps = some u ∧
    (initial true {}).run (shakenSteps.map (·.recast (.configs fun _ => discreet))) = some v ∧
    u.Redressed (fun _ => discreet) v ∧ u.pools[0]? = some p ∧ v.pools[0]? = some q ∧
    p.Redressed (fun _ => discreet) q ∧
    u.callers.map (·.answers?) = [some [.number 1]] ∧
    v.callers.map (·.answers?) = [some [.number 1]] ∧
    .event (.taskPanicked .logAndContinue ⟨1⟩ "boom") ∈ p.trace ∧
    .event (.taskPanicked .isolate ⟨1⟩ "boom") ∈ q.trace := by
  have hrun (strategy : Strategy) (ls : List Label)
      (hd : ((initial true {}).run ls).any (fun u =>
        decide (u.callers.map (·.answers?) = [some [.number 1]]) &&
        (u.pools[0]?).any fun p => decide (.event (.taskPanicked strategy ⟨1⟩ "boom") ∈ p.trace)) =
          true) :
      ∃ u p, (initial true {}).run ls = some u ∧ u.pools[0]? = some p ∧
        u.callers.map (·.answers?) = [some [.number 1]] ∧
        .event (.taskPanicked strategy ⟨1⟩ "boom") ∈ p.trace := by
    obtain ⟨u, hu, hd⟩ := (Option.any_eq_true ..).mp hd
    obtain ⟨hanswers, hd⟩ := Bool.and_eq_true_iff.mp hd
    obtain ⟨p, hp, hd⟩ := (Option.any_eq_true ..).mp hd
    exact ⟨u, p, hu, hp, of_decide_eq_true hanswers, of_decide_eq_true hd⟩
  obtain ⟨u, p, hu, hp, hanswers, htrace⟩ := hrun .logAndContinue shakenSteps (by decide)
  obtain ⟨v, q, hv, hq, hanswers', htrace'⟩ := hrun .isolate
    (shakenSteps.map (·.recast (.configs fun _ => discreet))) (by decide)
  have hf (program : Program) (hm : .fork program ∈ shakenSteps) :
      program.Obeys (.impersonal {} fun _ => discreet) none := by
    have he : program = shaken := by simpa [shakenSteps, moves] using hm
    exact he ▸ shaken_impersonal
  have hlike := appearance_changes_reports_only true {} (fun _ => discreet) shakenSteps hf
  rw [hu, hv] at hlike
  cases hlike with
  | some hlike =>
      have hpools := hlike.pools 0
      rw [hp, hq] at hpools
      cases hpools with
      | some hpool =>
          exact ⟨u, v, p, q, hu, hv, hlike, hp, hq, hpool, hanswers, hanswers', htrace, htrace'⟩

end World

end WorkerPool
