import WorkerPool.Proofs.Account
import WorkerPool.Proofs.Assertion

/-!
# The order of a shutdown

A shutdown raises the flags first, closes the queue then, and waits for the workers at last. A
worker leaves its loop only when the pool is halted or the queue is closed and empty.

* `WorkerStage.Fits`, `CallStage.Fits` -- what the place of a thread says about the pool;
* `Pool.Returned` -- what a shutdown leaves behind when it returns;
* `Pool.exits` -- the count of exits is right;
* `Pool.orderly` -- every place fits, and what a shutdown left behind is still so;
  `orderly_reachable` -- in every reachable world.
-/

namespace WorkerPool

namespace Pool

/-! ## 1. What a place says -/

/-- A shutdown of this mode has begun, and closed the queue. -/
structure Closed (p : Pool) (mode : Mode) : Prop where
  draining : p.draining = true
  halt : mode = .immediate → p.halt = true
  closed : p.queue.accepting = false

/-- A shutdown of this mode by `thread` has waited: no worker is left, unless `thread` is one. -/
structure Awaited (p : Pool) (thread : ThreadId) (mode : Mode) : Prop extends Closed p mode where
  exited : p.owns thread = false → p.AllExited

theorem Closed.later {p q : Pool} {mode : Mode} (h : Closed p mode) (hl : Later p q) :
    Closed q mode :=
  ⟨hl.draining h.draining, fun hm => hl.halt (h.halt hm), hl.closed h.closed⟩

theorem Awaited.later {p q : Pool} {thread : ThreadId} {mode : Mode} (h : Awaited p thread mode)
    (hl : Later p q) : Awaited q thread mode where
  toClosed := h.toClosed.later hl
  exited ho := hl.allExited h.draining (h.exited ((hl.owns h.draining thread).symm.trans ho))

/-- What a shutdown of this mode by `thread` leaves behind when it returns. -/
structure Returned (p : Pool) (thread : ThreadId) (mode : Mode) : Prop
    extends Awaited p thread mode where
  emptied : mode = .immediate → p.queue.items = []

theorem Returned.later {p q : Pool} {thread : ThreadId} {mode : Mode} (h : Returned p thread mode)
    (hl : Later p q) : Returned q thread mode where
  toAwaited := h.toAwaited.later hl
  emptied hm := hl.spent ⟨h.closed, h.emptied hm⟩

/-- What a dead worker left behind has exploded with this payload in the hands of `thread`, who had
    joined it. -/
def Exploded (p : Pool) (thread : ThreadId) (payload : Payload) : Prop :=
  ∃ i, .joined thread i true ∈ p.trace ∧ p.stages[i]? = some (.finished true) ∧
    p.burst? i = some payload

theorem Exploded.later {p q : Pool} {thread : ThreadId} {payload : Payload}
    (h : Exploded p thread payload) (hl : Later p q) : Exploded q thread payload := by
  obtain ⟨i, hj, hf, hb⟩ := h
  exact ⟨i, hl.mem_trace hj, hl.finished hf, (hl.burst hf).trans hb⟩

end Pool

/-- A panic has driven the worker out. -/
def WorkerStage.isKilled : WorkerStage → Bool
  | .leaving true | .finished true => true
  | _ => false

/-- What the place of a worker says about its pool: it abandons a task only when the pool is halted,
    and leaves its loop only then or when nothing can come any more. -/
def WorkerStage.Fits (p : Pool) : WorkerStage → Prop
  | .abandoning _ | .discarding _ => p.halt = true
  | .stopping | .leaving false | .finished false => p.halt = true ∨ p.Spent
  | _ => True

/-- What the place of `thread` inside a call says about the pool. -/
def CallStage.Fits (p : Pool) (thread : ThreadId) : CallStage → Prop
  | .halting _ => p.draining = true
  | .announcing mode _ | .closing mode _ => p.draining = true ∧ (mode = .immediate → p.halt = true)
  | .taking mode _ | .joining mode _ _ _ => p.Closed mode
  | .unwinding _ _ _ payload => (∃ mode, p.Closed mode) ∧ p.Exploded thread payload
  | .concluding _ _ => p.Awaited thread .graceful
  | .emptying _ _ => p.Awaited thread .immediate
  | .tallying _ _ _ | .recording _ _ _ | .discarding _ _ _ | .reporting _ _ =>
    p.Returned thread .immediate
  | .releasing _ => p.draining = true
  | _ => True

namespace Pool

theorem Later.worker_fits {p q : Pool} (hl : Later p q) {s : WorkerStage} (h : s.Fits p) :
    s.Fits q := by
  have hout (ho : p.halt = true ∨ p.Spent) : q.halt = true ∨ q.Spent :=
    ho.imp hl.halt fun hs => ⟨hl.closed hs.1, hl.spent hs⟩
  cases s with
  | abandoning task | discarding task => exact hl.halt h
  | stopping => exact hout h
  | leaving crashed | finished crashed =>
      cases crashed with
      | false => exact hout h
      | true => exact h
  | _ => exact h

theorem Later.call_fits {p q : Pool} (hl : Later p q) {thread : ThreadId} {s : CallStage}
    (h : s.Fits p thread) : s.Fits q thread := by
  cases s with
  | halting why | releasing outcome => exact hl.draining h
  | announcing mode why | closing mode why => exact ⟨hl.draining h.1, fun hm => hl.halt (h.2 hm)⟩
  | taking mode why | joining mode why left joined => exact Closed.later h hl
  | unwinding why left joined payload =>
      obtain ⟨⟨mode, hc⟩, he⟩ := h
      exact ⟨⟨mode, hc.later hl⟩, he.later hl⟩
  | concluding why joined | emptying why joined => exact Awaited.later h hl
  | tallying why joined removed | recording why joined removed | discarding why joined removed
  | reporting why joined => exact Returned.later h hl
  | _ => exact h

/-- **A worker comes to a place that fits.** -/
theorem WorkerMove.fits {p q : Pool} {i : Nat} {s s' : WorkerStage} (h : WorkerMove p i s q s')
    (hs : s.Fits p) : s'.Fits q := by
  cases h with
  | seesHalt hh => exact .inl hh
  | findsNothing queue hsl hq =>
      obtain ⟨hi, ha, hi', ha'⟩ := Queue.attempt_nothingMore hq
      exact .inr ⟨ha'.trans ha, hi'.trans hi⟩
  | popsTooLate task hh => exact hh
  | abandons task => exact hs
  | discards task => exact .inl hs
  | stops executed => exact hs
  | exits crashed => cases crashed <;> exact hs
  | _ => trivial

/-- **A thread inside a call comes to a place that fits**, if the count of exits is right. -/
theorem CallMove.fits {p q : Pool} {thread : ThreadId} {s s' : CallStage}
    (h : CallMove p thread s q (.stage s')) (hs : s.Fits p thread)
    (hx : p.workers.length ≤ p.exited → p.AllExited) : s'.Fits q thread := by
  have hwait (ho : p.owns thread = true ∨ p.workers.length ≤ p.exited)
      (hn : p.owns thread = false) : p.AllExited := by
    rcases ho with ho | ho
    · rw [hn] at ho
      cases ho
    · exact hx ho
  generalize hn : CallStep.stage s' = next at h
  cases h with
  | swaps => cases hn; exact ⟨rfl, fun hm => by cases hm⟩
  | raises => cases hn; exact rfl
  | halts => cases hn; exact ⟨hs, fun _ => rfl⟩
  | announces => cases hn; exact hs
  | closes => cases hn; exact ⟨hs.1, hs.2, rfl⟩
  | takes => cases hn; exact ⟨hs.draining, hs.halt, hs.closed⟩
  | detaches | joins | joinsCrashed => cases hn; exact ⟨hs.draining, hs.halt, hs.closed⟩
  | joinsBurst mode why first left joined payload ht hst hb =>
      cases hn
      exact ⟨⟨mode, hs.draining, hs.halt, hs.closed⟩, first, List.mem_cons_self,
        p.stageOf?_eq first ▸ hst, hb⟩
  | forsakes =>
      cases hn
      obtain ⟨⟨mode, hc⟩, i, hj, hf, hb⟩ := hs
      exact ⟨⟨mode, hc.draining, hc.halt, hc.closed⟩, i, List.mem_cons_of_mem _ hj, hf, hb⟩
  | waits why joined ho => cases hn; exact ⟨⟨hs.draining, hs.halt, hs.closed⟩, hwait ho⟩
  | waitsToEmpty why joined ho => cases hn; exact ⟨⟨hs.draining, hs.halt, hs.closed⟩, hwait ho⟩
  | findsEmpty | empties =>
      cases hn
      exact ⟨⟨⟨hs.draining, hs.halt, hs.closed⟩, hs.exited⟩, fun _ => rfl⟩
  | tallies | records | discards | discardsLast =>
      cases hn
      exact ⟨⟨⟨hs.draining, hs.halt, hs.closed⟩, hs.exited⟩, hs.emptied⟩
  | findsDraining why hd =>
      cases why <;> cases hn
      · exact hd
      · trivial
  | concludes why | reports why =>
      cases why <;> cases hn
      · exact hs.draining
      · trivial
  | breaksOff why =>
      obtain ⟨⟨mode, hc⟩, -⟩ := hs
      cases why <;> cases hn
      · exact hc.draining
      · trivial
  | findsShut outcome hd => cases hn; exact hd
  | _ =>
      cases hn
      all_goals trivial

/-! ## 2. The count of exits -/

/-- Exits counted, less the workers whose threads have ended. -/
def exits : Account ℤ where
  shared p := p.exited
  worker s := if s.isFinished then -1 else 0
  call _ := 0

theorem exits_balanced : exits.Balanced fun _ => True where
  work _ _ h := by
    cases h <;> simp [exits]
  call _ h := by
    cases h with
    | findsDraining why | concludes why | reports why | breaksOff why => cases why <;> rfl
    | _ => simp [exits]
  enter _ h := by cases h <;> rfl
  reclaim _ h := by
    obtain ⟨-, -, rfl⟩ := reclaim_cases h
    rfl
  wake _ _ := rfl
  starting := rfl

theorem exited_eq {p : Pool} (h : exits.total p = 0) :
    p.exited = p.stages.countP WorkerStage.isFinished := by
  have hw : exits.ofWorkers p = -(p.stages.countP WorkerStage.isFinished : ℤ) := by
    rw [Account.ofWorkers, exits, sum_map_ite]
    simp
  have hc : exits.ofCalls p = 0 := by simp [Account.ofCalls, exits]
  rw [Account.total, hw, hc, show exits.shared p = (p.exited : ℤ) from rfl] at h
  omega

/-- When the count says that everybody is gone, everybody is. -/
theorem allExited_of_exited {p : Pool} (h : exits.total p = 0)
    (hle : p.workers.length ≤ p.exited) : p.AllExited := by
  have hlen : p.stages.length = p.workers.length := by simp [stages]
  have hcount := List.countP_le_length (p := WorkerStage.isFinished) (l := p.stages)
  rw [exited_eq h] at hle
  exact List.countP_eq_length.mp (by omega)

/-! ## 3. Orderly pools -/

/-- What shutdowns that have returned promised is so, and a released pool was shut down. -/
structure Promised (p : Pool) : Prop where
  returned : ∀ {thread : ThreadId} {mode : Mode} {joined : Nat},
    .returned thread mode joined ∈ p.trace → p.Returned thread mode
  released : p.life = .released → p.draining = true

/-- Every thread is at a place that fits. -/
def orderly : Assertion where
  shared := Promised
  worker p s := s.Fits p
  call p thread s := s.Fits p thread

theorem WorkerMove.returned {p q : Pool} {i : Nat} {s s' : WorkerStage}
    (h : WorkerMove p i s q s') {thread : ThreadId} {mode : Mode} {joined : Nat}
    (hm : .returned thread mode joined ∈ q.trace) : .returned thread mode joined ∈ p.trace := by
  cases h <;> simpa using hm

/-- A shutdown that returns keeps its promise. -/
theorem CallMove.returned {p q : Pool} {thread t : ThreadId} {s : CallStage} {next : CallStep}
    (h : CallMove p thread s q next) (hs : s.Fits p thread) {mode : Mode} {joined : Nat}
    (hm : .returned t mode joined ∈ q.trace) :
    .returned t mode joined ∈ p.trace ∨ p.Returned t mode := by
  cases h with
  | concludes why j =>
      have : Awaited p thread .graceful := hs
      rcases List.mem_cons.mp hm with e | hm
      · cases e
        exact .inr ⟨this, fun hm => by cases hm⟩
      · exact .inl (by simpa using hm)
  | reports why j e =>
      rcases List.mem_cons.mp hm with e | hm
      · cases e
        exact .inr hs
      · exact .inl (by simpa using hm)
  | _ => exact .inl (by simpa using hm)

theorem CallMove.released_cases {p q : Pool} {thread : ThreadId} {s : CallStage} {next : CallStep}
    (h : CallMove p thread s q next) (hl : q.life = .released) :
    p.life = .released ∨ ∃ outcome, s = .releasing outcome := by
  cases h with
  | releases outcome => exact .inr ⟨outcome, rfl⟩
  | opens => cases hl
  | _ => exact .inl hl

/-- The promises last as long as nothing is promised anew. -/
theorem Promised.later {p q : Pool} (h : Promised p) (hl : Later p q)
    (ht : ∀ {thread mode joined}, .returned thread mode joined ∈ q.trace →
      .returned thread mode joined ∈ p.trace)
    (hr : q.life = .released → p.life = .released) : Promised q where
  returned hm := (h.returned (ht hm)).later hl
  released hq := hl.draining (h.released (hr hq))

theorem orderly_kept : orderly.Kept fun p => Formed p ∧ exits.total p = 0 where
  blank hb := by
    refine ⟨fun hm => absurd hm (hb.not_mem fun _ e => by cases e), fun hl => ?_⟩
    rw [hb.life] at hl
    cases hl
  founding _ _ _ := trivial
  starting _ := trivial
  worker_later hl h := hl.worker_fits h
  call_later hl h := hl.call_fits h
  work _ hp hs h hl := by
    have hfits := h.fits (hp.workers _ (List.mem_of_getElem? hs))
    refine ⟨hfits, hp.shared.later hl h.returned ?_⟩
    rw [h.untouched.life]
    exact fun hr => hr
  call {p q thread s next} hI hp hm h hl := by
    have hs : s.Fits p thread := hp.calls _ hm
    refine ⟨?_, ?_, ?_⟩
    · intro s' hn
      subst hn
      exact h.fits hs (allExited_of_exited hI.2)
    · intro t mode joined hm
      rcases h.returned hs hm with hm | hm
      · exact (hp.shared.returned hm).later hl
      · exact hm.later hl
    · intro hr
      rcases h.released_cases hr with hr | ⟨outcome, rfl⟩
      · exact hl.draining (hp.shared.released hr)
      · exact hl.draining hs
  enter _ hp hlife h := by
    have hl := h.later hlife
    cases h with
    | offers task hf =>
        refine ⟨fun _ => trivial, hp.shared.later hl ?_ fun h => h⟩
        intro thread mode joined hm
        simpa using hm
    | asks mode => exact ⟨fun _ => by cases mode <;> trivial, hp.shared⟩
    | givesUp hc =>
        -- giving up only begins here
        exact ⟨fun _ => trivial, hp.shared.later hl (fun hm => hm) fun h => by cases h⟩
  note n h := ⟨fun hm => (h.returned (by simpa using hm)).later (later_note _ n), h.released⟩
  wake i h := ⟨fun hm => (h.returned hm).later (later_wake _ i), h.released⟩
  reclaim _ hp h := by
    have hl := (Change.reclaim h).later hp.toFormed
    obtain ⟨-, -, rfl⟩ := reclaim_cases h
    exact hp.shared.later hl (fun hm => by simpa using hm) fun h => h
  staged s' hs hf h :=
    h.later (later_setStage hs hf s') (fun hm => hm) fun h => h
  called calls h := h.later (later_calls _ calls) (fun hm => hm) fun h => h

theorem exits_invariant : Invariant fun p => Formed p ∧ exits.total p = 0 :=
  exits_balanced.invariant_always fun _ hb =>
    Account.total_blank hb (by simp [exits, hb.exited]) fun _ => rfl

/-- **Every pool of a reachable world is orderly.** -/
theorem orderly_reachable {w : World} (h : w.Reachable) : ∀ p ∈ w.pools, orderly.Holds p :=
  fun p hp => ((orderly_kept.invariant exits_invariant).reachable h p hp).2

end Pool

end WorkerPool
