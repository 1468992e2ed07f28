import WorkerPool.Proofs.Fate
import WorkerPool.Proofs.Passage

/-!
# Programs that keep to a rule

Whether pools come to rest depends on what their tasks do. A rule says what the threads of a pool,
and the others, may ask for and what they may panic with; a program keeps to it if all that it may
ever ask for is allowed, whatever it is told, and its tasks keep to it on the pools that they are
submitted to. If every thread begins with such a program, the rule is kept in all that follows.

* `Rule`, `Program.Obeys` -- rules, and programs that keep to them;
* `World.Obeys` -- every program, task and call of a world keeps to the rule;
* `obeys_run` -- every run of such programs leads to such worlds.
-/

namespace WorkerPool

/-- What threads may ask for, and what their programs may panic with: the workers of each pool, and,
    under `none`, all other threads. -/
structure Rule where
  call : Option PoolId → Call → Prop
  panic : Option PoolId → Payload → Prop

/-- The pool of which the thread is a worker. -/
@[simp]
def ThreadId.home : ThreadId → Option PoolId
  | .caller _ => none
  | .worker pool _ => some pool

/-- The thread may be told this under the rule. A call ends by a panic only when a task's panic has
    had a payload that explodes twice: the first time it drives its worker out, and the second time
    it meets whoever joins that worker. -/
def Reply.Fits (rule : Rule) : Reply → Prop
  | .unwound payload => ∃ id first second, rule.panic (some id) first ∧
      first.burst? = some second ∧ second.burst? = some payload
  | _ => True

theorem Reply.fits_of_isPlain {rule : Rule} {r : Reply} (h : r.isPlain = true) : r.Fits rule := by
  cases r with
  | unwound payload => cases h
  | _ => trivial

/-! ## 1. What keeps to a rule -/

/-- The program keeps to the rule in the threads of `home`. A task that is made to be submitted
    later may be submitted to any pool. -/
def Program.Obeys (rule : Rule) : Program → Option PoolId → Prop
  | .finish _, _ => True
  | .panic payload, home => rule.panic home payload
  | .submit pool _ work next, home =>
    work.Obeys rule (some pool) ∧ ∀ r, r.Fits rule → (next r).Obeys rule home
  | .make _ work next, home =>
    (∀ pool, work.Obeys rule (some pool)) ∧ ∀ r, r.Fits rule → (next r).Obeys rule home
  | .call c next, home => rule.call home c ∧ ∀ r, r.Fits rule → (next r).Obeys rule home

/-- What is left of the thread's program keeps to the rule. -/
def Activity.Obeys (rule : Rule) (home : Option PoolId) : Activity → Prop
  | .going rest => rest.Obeys rule home
  | .inside _ next => ∀ r, r.Fits rule → (next r).Obeys rule home
  | .asleep _ next =>
    (∃ nanos, rule.call home (.sleep nanos)) ∧ ∀ r, r.Fits rule → (next r).Obeys rule home

/-- What a worker of this pool has in its hands keeps to the rule; the panic that drove it out did
    so too. -/
def WorkerStage.Obeys (rule : Rule) (id : PoolId) : WorkerStage → Prop
  | .rechecking task | .abandoning task | .discarding task | .ready task =>
    task.work.Obeys rule (some id)
  | .running _ activity => activity.Obeys rule (some id)
  | .caught _ payload => rule.panic (some id) payload
  | .leaving true | .finished true =>
    ∃ payload, rule.panic (some id) payload ∧ payload.explodes = true
  | _ => True

/-- The rule allows a call in which a thread may have to wait for workers of this pool. -/
def Rule.Waits (rule : Rule) (home : Option PoolId) (id : PoolId) : Prop :=
  (∃ mode, rule.call home (.shutdown id mode)) ∨ rule.call home (.drop id) ∨
    ∃ config, rule.call home (.start config)

/-- The call of `thread` on this pool keeps to the rule: what it submits does, it is allowed, and so
    is what it will be answered with. -/
def CallStage.Obeys (rule : Rule) (id : PoolId) (thread : ThreadId) : CallStage → Prop
  | .checking task | .pushing task => task.work.Obeys rule (some id)
  | .admitted | .refusing _ _ | .rejecting _ _ => True
  | .unwinding _ _ _ payload => rule.Waits thread.home id ∧ (Reply.unwound payload).Fits rule
  | .dropping outcome | .releasing outcome => rule.Waits thread.home id ∧ outcome.Fits rule
  | _ => rule.Waits thread.home id

/-- What the workers have left behind, worker by worker. -/
def Pool.remnants (p : Pool) : List (Option Payload) := p.workers.map (·.remains)

/-- What is queued in the pool, its workers and the calls on it keep to the rule. -/
structure Pool.Obeys (rule : Rule) (p : Pool) : Prop where
  queued : ∀ task ∈ p.queue.items, task.work.Obeys rule (some p.id)
  workers : ∀ s ∈ p.stages, s.Obeys rule p.id
  remnants : ∀ {inner}, some inner ∈ p.remnants →
    ∃ payload, rule.panic (some p.id) payload ∧ payload.burst? = some inner
  calls : ∀ c ∈ p.calls, c.2.Obeys rule p.id c.1

/-- All that is done in the world keeps to the rule. -/
structure World.Obeys (rule : Rule) (w : World) : Prop where
  callers : ∀ activity ∈ w.callers, activity.Obeys rule none
  held : ∀ task ∈ w.held, ∀ pool, task.work.Obeys rule (some pool)
  pools : ∀ p ∈ w.pools, p.Obeys rule

variable {rule : Rule}

/-- A program that catches no panics keeps to the rule if those that it may meet are allowed. -/
theorem Program.Obeys.uncaught {home : Option PoolId} {next : Reply → Program} {r : Reply}
    (h : (next r).Obeys rule home)
    (hp : ∀ payload, (Reply.unwound payload).Fits rule → rule.panic home payload)
    (hr : r.Fits rule) : (Program.uncaught next r).Obeys rule home := by
  cases r with
  | unwound payload => exact hp payload hr
  | _ => exact h

/-- What the program goes on with keeps to the rule too. -/
theorem Activity.Obeys.next {a : Activity} {home : Option PoolId} (h : a.Obeys rule home)
    {next : Reply → Program} (hn : a.next? = some next) {r : Reply} (hr : r.Fits rule) :
    (next r).Obeys rule home := by
  cases a with
  | going program =>
      cases program with
      | finish answers | panic payload => cases hn
      | submit pool label work next => cases hn; exact h.2 r hr
      | make label work next => cases hn; exact h.2 r hr
      | call c next => cases hn; exact h.2 r hr
  | inside id next => cases hn; exact h r hr
  | asleep wakeAt next => cases hn; exact h.2 r hr

theorem Activity.Answered.obeys {before after : Activity} (h : before.Answered after)
    {home : Option PoolId} (hb : before.Obeys rule home) : after.Obeys rule home := by
  cases h with
  | told r hr hn => exact hb.next hn (Reply.fits_of_isPlain hr)
  | sleeps wakeAt he =>
      subst he
      exact ⟨⟨_, hb.1⟩, hb.2⟩

namespace Pool

/-! ## 2. Pools -/

/-- **A worker's move keeps to the rule** if its task has none of its own. -/
theorem WorkerMove.obeys {p q : Pool} {i : Nat} {s s' : WorkerStage} (h : WorkerMove p i s q s')
    (hout : ∀ job activity, s = .running job activity → s'.activity? = none)
    (hq : ∀ task ∈ p.queue.items, task.work.Obeys rule (some p.id)) (hs : s.Obeys rule p.id) :
    s'.Obeys rule p.id := by
  cases h with
  | pops task queue hsl hat =>
      exact hq task (by rw [(Queue.attempt_item hat).1]; exact List.mem_cons_self ..)
  | goesOn job activity activity' => cases hout job activity rfl
  | popsTooLate | popsInTime | abandons | begins | panics => exact hs
  | crashes job payload inner he =>
      exact ⟨payload, hs, by rw [Payload.explodes, he, Option.isSome_some]⟩
  | exits crashed => cases crashed <;> exact hs
  | _ => trivial

theorem remnants_setStage (p : Pool) (i : Nat) (s : WorkerStage) :
    (p.setStage i s).remnants = p.remnants := by
  simp [remnants, setStage, map_modify]

/-- **What a worker leaves behind came out of its task.** -/
theorem WorkerMove.remnants {p q : Pool} {i : Nat} {s s' : WorkerStage}
    (h : WorkerMove p i s q s') {inner : Payload} (hr : some inner ∈ q.remnants) :
    some inner ∈ p.remnants ∨ ∃ job payload, s = .caught job payload ∧
      payload.burst? = some inner := by
  cases h with
  | crashes job payload new he =>
      obtain ⟨j, hj⟩ := List.mem_iff_getElem?.mp hr
      simp only [Pool.remnants, countFor, List.getElem?_map, List.getElem?_modify] at hj
      by_cases hij : i = j
      · cases hw : p.workers[j]? <;> simp [hij, hw] at hj
        exact .inr ⟨job, payload, rfl, hj ▸ he⟩
      · refine .inl (List.mem_of_getElem? (i := j) ?_)
        simpa [Pool.remnants, hij] using hj
  | countsPanic | countsExecuted =>
      exact .inl (by simpa [Pool.remnants, map_modify] using hr)
  | _ => exact .inl hr

/-- A call's move leaves what the workers left behind. -/
theorem CallMove.remnants {p q : Pool} {thread : ThreadId} {s : CallStage} {next : CallStep}
    (h : CallMove p thread s q next) {inner : Payload} (hr : some inner ∈ q.remnants) :
    some inner ∈ p.remnants := by
  cases h with
  | spawns => simpa [Pool.remnants] using hr
  | _ => exact hr

theorem Obeys.work {p q : Pool} {i : Nat} {s s' : WorkerStage} (hp : p.Obeys rule)
    (hs : p.stages[i]? = some s) (h : WorkerMove p i s q s')
    (hout : ∀ job activity, s = .running job activity → s'.activity? = none) :
    (q.setStage i s').Obeys rule := by
  have hu := h.untouched
  have hself := h.obeys hout hp.queued (hp.workers s (List.mem_of_getElem? hs))
  refine ⟨fun task ht => ?_, fun s₁ hm => ?_, fun {inner} hr => ?_, fun c hc => ?_⟩
  · rw [show (q.setStage i s').id = p.id from hu.id]
    exact hp.queued task (h.items task ht)
  · rw [World.stages_setStage, hu.stages] at hm
    rw [show (q.setStage i s').id = p.id from hu.id]
    rcases List.mem_or_eq_of_mem_set hm with hm | rfl
    · exact hp.workers s₁ hm
    · exact hself
  · rw [show (q.setStage i s').id = p.id from hu.id]
    rw [remnants_setStage] at hr
    rcases h.remnants hr with hr | ⟨job, payload, rfl, he⟩
    · exact hp.remnants hr
    · exact ⟨payload, hp.workers _ (List.mem_of_getElem? hs), he⟩
  · rw [show (q.setStage i s').calls = p.calls from hu.calls] at hc
    rw [show (q.setStage i s').id = p.id from hu.id]
    exact hp.calls c hc

/-- A pool with the stage of a task that has gone on. -/
theorem Obeys.setStage {p : Pool} (hp : p.Obeys rule) (i : Nat) {s : WorkerStage}
    (hs : s.Obeys rule p.id) : (p.setStage i s).Obeys rule := by
  refine ⟨hp.queued, fun s₁ hm => ?_, fun {inner} hr => ?_, hp.calls⟩
  · rw [World.stages_setStage] at hm
    rcases List.mem_or_eq_of_mem_set hm with hm | rfl
    · exact hp.workers s₁ hm
    · exact hs
  · rw [remnants_setStage] at hr
    exact hp.remnants hr

/-- What a dead worker has left behind may explode under the rule. -/
theorem Obeys.fits {p : Pool} (hp : p.Obeys rule) {i : Nat} {payload : Payload}
    (h : p.burst? i = some payload) : (Reply.unwound payload).Fits rule := by
  obtain ⟨worker, hw, h⟩ := Option.bind_eq_some_iff.mp h
  obtain ⟨second, hr, hb⟩ := Option.bind_eq_some_iff.mp h
  obtain ⟨first, hrule, hf⟩ :=
    hp.remnants (List.mem_map.mpr ⟨worker, List.mem_of_getElem? hw, hr⟩)
  exact ⟨p.id, first, second, hrule, hf, hb⟩

/-- **A call's move keeps to the rule.** -/
theorem CallMove.obeys {p q : Pool} {thread : ThreadId} {s s' : CallStage}
    (h : CallMove p thread s q (.stage s')) (hp : p.Obeys rule) (hs : s.Obeys rule p.id thread) :
    s'.Obeys rule p.id thread := by
  generalize hn : CallStep.stage s' = next at h
  cases h with
  | findsDraining why | concludes why | reports why =>
      cases why <;> cases hn
      all_goals exact ⟨hs, trivial⟩
  | joinsBurst mode why first left joined payload ht hst hb => cases hn; exact ⟨hs, hp.fits hb⟩
  | breaksOff why => cases why <;> cases hn <;> exact hs
  | shutsFirst => cases hn; exact hs.1
  | mayPush => cases hn; exact hs
  | mayNotPush | pushes | pushesTooLate | refuses => cases hn; trivial
  | countsSubmitted | countsRejected | countsRejectedKept | opens | releases => cases hn
  | _ => cases hn; exact hs

/-- What a call is answered with may be told under the rule. -/
theorem CallMove.fits_reply {p q : Pool} {thread : ThreadId} {s : CallStage} {r : Reply}
    (h : CallMove p thread s q (.reply r)) (hs : s.Obeys rule p.id thread) : r.Fits rule := by
  generalize hn : CallStep.reply r = next at h
  cases h with
  | findsDraining why | concludes why | reports why =>
      cases why <;> cases hn
      trivial
  | breaksOff why =>
      cases why <;> cases hn
      exact hs.2
  | releases => cases hn; exact hs.2
  | _ => cases hn <;> trivial

/-- Nothing comes into the queue but what a call pushes. -/
theorem CallMove.queued {p q : Pool} {thread : ThreadId} {s : CallStage} {next : CallStep}
    (h : CallMove p thread s q next) (hs : s.Obeys rule p.id thread)
    (hp : ∀ task ∈ p.queue.items, task.work.Obeys rule (some p.id)) :
    ∀ task ∈ q.queue.items, task.work.Obeys rule (some p.id) := by
  intro task ht
  cases h with
  | pushes pushed choice ha =>
      replace ht : task ∈ p.queue.items ++ [pushed] :=
        (Queue.push_of_accepting ha pushed choice).1 ▸ ht
      rcases List.mem_append.mp ht with ht | ht
      · exact hp task ht
      · rw [List.mem_singleton.mp ht]
        exact hs
  | findsEmpty | empties => exact absurd ht List.not_mem_nil
  | _ => exact hp task ht

theorem Obeys.call {p q : Pool} {thread : ThreadId} {s : CallStage} {next : CallStep}
    (hp : p.Obeys rule) (hl : p.calls.lookup thread = some s) (h : CallMove p thread s q next) :
    (q.follow thread next).Obeys rule := by
  obtain ⟨hid, hcalls, hst⟩ := h.frame
  have hs := hp.calls _ (mem_of_lookup hl)
  have hid' : (q.follow thread next).id = p.id := (q.id_follow thread next).trans hid
  refine ⟨?_, fun s₁ hm => ?_, fun {inner} hr => ?_, fun c hc => ?_⟩
  · rw [queue_follow, hid']
    exact h.queued hs hp.queued
  · rw [stages_follow] at hm
    rw [hid']
    rcases hst with e | ⟨-, e⟩
    · exact hp.workers s₁ (e ▸ hm)
    · rcases List.mem_append.mp (e ▸ hm) with hm | hm
      · exact hp.workers s₁ hm
      · rw [List.mem_singleton.mp hm]
        trivial
  · rw [hid']
    rw [Pool.remnants, workers_follow] at hr
    exact hp.remnants (h.remnants hr)
  · rw [hid']
    rcases mem_follow hc with ⟨rfl, rfl⟩ | ⟨-, hc⟩
    · exact h.obeys hp hs
    · exact hp.calls c (hcalls ▸ hc)

/-- A pool with nothing more in its queue, and with the same workers and calls. -/
theorem Obeys.of_frame {p q : Pool} (hp : p.Obeys rule) (hid : q.id = p.id)
    (hq : ∀ task ∈ q.queue.items, task ∈ p.queue.items) (hw : q.workers = p.workers)
    (hc : q.calls = p.calls) : q.Obeys rule where
  queued task ht := hid ▸ hp.queued task (hq task ht)
  workers s hs := hid ▸ hp.workers s (by rwa [stages, hw] at hs)
  remnants hr := hid ▸ hp.remnants (by rwa [Pool.remnants, hw] at hr)
  calls c hm := hid ▸ hp.calls c (hc ▸ hm)

theorem Obeys.enter {p : Pool} (hp : p.Obeys rule) {thread : ThreadId} {s : CallStage}
    (hs : s.Obeys rule p.id thread) : (p.enter thread s).Obeys rule := by
  refine ⟨hp.queued, hp.workers, hp.remnants, fun c hc => ?_⟩
  rcases List.mem_cons.mp hc with rfl | hc
  · exact hs
  · exact hp.calls c hc

end Pool

namespace World

/-! ## 3. Worlds -/

section Acting

variable {w w' : World}

/-- A call that an obedient program begins is allowed. -/
theorem Begins.obeys (hw : w.Obeys rule) {thread : ThreadId} {id : PoolId} {p q : Pool}
    {next : Reply → Program} {before : Activity} {s : CallStage}
    (h : Begins w id p next before q s) (hid : p.id = id)
    (hb : before.Obeys rule thread.home) : s.Obeys rule p.id thread := by
  subst hid
  cases h with
  | submits label work task hwork =>
      show task.work.Obeys rule (some p.id)
      rw [hwork]
      exact hb.1
  | brings held task hh hwork =>
      show task.work.Obeys rule (some p.id)
      rw [hwork]
      exact hw.held held hh p.id
  | shutsDown mode =>
      have hc : rule.Waits thread.home p.id := .inl ⟨mode, hb.1⟩
      cases mode <;> exact hc
  | givesUp => exact ⟨.inr (.inl hb.1), trivial⟩

theorem forall_mem_set {α : Type*} {l : List α} {a : α} {P : α → Prop} (hl : ∀ x ∈ l, P x)
    (ha : P a) (i : Nat) : ∀ x ∈ l.set i a, P x := by
  intro x hx
  rcases List.mem_or_eq_of_mem_set hx with hx | rfl
  · exact hl x hx
  · exact ha

/-- **What a thread does on its way through its program keeps to the rule.** -/
theorem Passage.obeys (hS : Sound w w.inside) (hw : w.Obeys rule) {thread : ThreadId}
    {before after : Activity} (h : Passage w thread before w' after)
    (hb : before.Obeys rule thread.home) : w'.Obeys rule ∧ after.Obeys rule thread.home := by
  have hheld : ∀ task ∈ w'.held, ∀ pool, task.work.Obeys rule (some pool) := by
    intro task ht pool
    rcases h.held task ht with ht | ⟨label, next, rfl⟩
    · exact hw.held task ht pool
    · exact hb.1 pool
  suffices hp : (∀ p ∈ w'.pools, p.Obeys rule) ∧ after.Obeys rule thread.home from
    ⟨⟨h.callers ▸ hw.callers, hheld, hp.1⟩, hp.2⟩
  obtain ⟨ht, -, -⟩ := h
  generalize w'.pools = ps at ht
  have hpool {id : PoolId} {p : Pool} (hp : w.pools[id]? = some p) : p.Obeys rule :=
    hw.pools p (List.mem_of_getElem? hp)
  cases ht with
  | nothing ha => exact ⟨hw.pools, ha.obeys hb⟩
  | @notes id p after n hp ha =>
      have hq : (p.log (.note n)).Obeys rule := (hpool hp).of_frame rfl (fun _ ht => ht) rfl rfl
      exact ⟨forall_mem_set hw.pools hq _, ha.obeys hb⟩
  | founds config refusal he =>
      subst he
      refine ⟨fun r hr => ?_, hb.2⟩
      rcases List.mem_append.mp hr with hr | hr
      · exact hw.pools r hr
      · rw [List.mem_singleton.mp hr]
        have hblank := Pool.Fresh.blank
          ⟨w.pools.length, config, w.host.cpus, w.telemetry, w.now, thread, refusal, rfl⟩
        obtain ⟨-, hcalls, -⟩ :=
          made_empty w.pools.length config w.host.cpus w.telemetry w.now
        refine ⟨fun task ht => ?_, fun s hs => ?_, fun {inner} hr => ?_, fun c hc => ?_⟩
        · rw [hblank.queue] at ht
          exact absurd ht List.not_mem_nil
        · rw [hblank.stages] at hs
          exact absurd hs List.not_mem_nil
        · rw [Pool.remnants, hblank.workers] at hr
          exact absurd hr List.not_mem_nil
        · rw [Pool.enter, hcalls] at hc
          rw [List.mem_singleton.mp hc]
          exact .inr (.inr ⟨config, hb.1⟩)
  | @enters id p q s next hp hbegin =>
      have hs := hbegin.obeys hw (hS.numbered hp) hb
      have hsame : q.id = p.id ∧ q.queue = p.queue ∧ q.workers = p.workers ∧ q.calls = p.calls ∧
          before.next? = some next := by
        cases hbegin <;> exact ⟨rfl, rfl, rfl, rfl, rfl⟩
      obtain ⟨hid, hq, hworkers, hc, hn⟩ := hsame
      have hq := (hpool hp).of_frame hid (fun _ ht => hq ▸ ht) hworkers hc
      exact ⟨forall_mem_set hw.pools (hq.enter (hid.symm ▸ hs)) _, fun r hr => hb.next hn hr⟩
  | @moves id p q s step next he hp hl h =>
      subst he
      refine ⟨forall_mem_set hw.pools ((hpool hp).call hl h) _, ?_⟩
      cases step with
      | stage s' => exact hb
      | reply r =>
          exact hb r (h.fits_reply ((hpool hp).calls _ (Pool.mem_of_lookup hl)))

theorem Acts.obeys (hS : Sound w w.inside) (hw : w.Obeys rule) {thread : ThreadId}
    (h : Acts w thread w') : w'.Obeys rule := by
  cases h with
  | caller hi hp hv =>
      obtain ⟨hv, ha⟩ := hp.obeys hS hw (hw.callers _ (List.mem_of_getElem? hi))
      exact ⟨forall_mem_set hv.callers ha _, hv.held, hv.pools⟩
  | @task id i p job before after v hi hpass hv hp hid hs =>
      obtain ⟨p₀, hp₀, hs₀⟩ := Option.bind_eq_some_iff.mp hi
      have hb : before.Obeys rule (some p₀.id) :=
        (hw.pools p₀ (List.mem_of_getElem? hp₀)).workers _ (List.mem_of_getElem? hs₀)
      rw [hS.numbered hp₀] at hb
      obtain ⟨hv', ha⟩ := hpass.obeys hS hw hb
      have hq := (hv'.pools p (List.mem_of_getElem? hp)).setStage i (s := .running job after)
        (hid.symm ▸ ha)
      exact ⟨hv'.callers, hv'.held, forall_mem_set hv'.pools hq _⟩
  | @work id i p q s s' hp hs h hout =>
      have hq := (hw.pools p (List.mem_of_getElem? hp)).work hs h hout
      exact ⟨hw.callers, hw.held, forall_mem_set hw.pools hq _⟩

end Acting

/-- **Every step of an obedient world leads to one**, if a thread that begins keeps to the rule. -/
theorem Obeys.step {w w' : World} {l : Label} (hS : Sound w w.inside) (hw : w.Obeys rule)
    (h : w.step l = some w') (hf : ∀ program, l = .fork program → program.Obeys rule none) :
    w'.Obeys rule := by
  cases l with
  | act thread choice => exact (act_acts hS h).obeys hS hw
  | fork program =>
      cases h
      refine ⟨fun a ha => ?_, hw.held, hw.pools⟩
      rcases List.mem_append.mp ha with ha | ha
      · exact hw.callers a ha
      · rw [List.mem_singleton.mp ha]
        exact hf program rfl
  | openGate name => cases h; exact ⟨hw.callers, hw.held, hw.pools⟩
  | tick nanos => cases h; exact ⟨hw.callers, hw.held, hw.pools⟩
  | wake id i =>
      obtain ⟨p, hp, h⟩ := Option.bind_eq_some_iff.mp h
      split at h <;> cases h
      have hq := (hw.pools p (List.mem_of_getElem? hp)).of_frame
        (q := { p with queue := p.queue.wake i }) rfl (by simp) rfl rfl
      exact ⟨hw.callers, hw.held, forall_mem_set hw.pools hq _⟩
  | reclaim id =>
      obtain ⟨p, hp, h⟩ := Option.bind_eq_some_iff.mp h
      obtain ⟨q, hq, rfl⟩ := Option.map_eq_some_iff.mp h
      have hq' : q.Obeys rule := by
        obtain ⟨-, -, rfl⟩ := Pool.reclaim_cases hq
        exact (hw.pools p (List.mem_of_getElem? hp)).of_frame rfl (by simp) rfl rfl
      exact ⟨hw.callers, hw.held, forall_mem_set hw.pools hq' _⟩

theorem obeys_initial (telemetry : Bool) (host : Host) : (initial telemetry host).Obeys rule :=
  ⟨by simp [initial], by simp [initial], by simp [initial]⟩

/-- **Every run of programs that keep to a rule leads to worlds that keep to it.** -/
theorem obeys_run {w w' : World} (h : Reachable w) (hw : w.Obeys rule) {ls : List Label}
    (hr : w.run ls = some w') (hf : ∀ program, .fork program ∈ ls → program.Obeys rule none) :
    w'.Obeys rule := by
  induction ls generalizing w with
  | nil =>
      cases hr
      exact hw
  | cons l rest ih =>
      obtain ⟨v, hv, hr⟩ := Option.bind_eq_some_iff.mp hr
      have hv' := hw.step (sound_reachable h) hv fun program e =>
        hf program (e ▸ List.mem_cons_self ..)
      exact ih (h.step l hv) hv' hr fun program hm => hf program (List.mem_cons_of_mem _ hm)

end World

end WorkerPool
