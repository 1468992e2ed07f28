import Mathlib.Algebra.Order.BigOperators.Group.Finset
import WorkerPool.Proofs.Conservation
import WorkerPool.Proofs.Fraction
import WorkerPool.Proofs.Sighting

/-!
# Panics and executions

A worker counts a panic before it counts the task as executed, and whoever reads the counters one
after the other reads the executions first. So what is read may have more panics than executions:
those of tasks that have panicked and are not counted as executed yet, and those of tasks that panic
between the two reads. There are no others.

* `Worker.Booked` -- a worker has counted all that it has begun but the task at hand;
* `Pool.Booked` -- and what the metrics have is what the workers have brought there;
* `Pool.owes`, `Pool.owing` -- workers whose last task has panicked and is not counted as executed;
* `panicRate_le_one_of_quiet` -- when the share of panics is at most one;
* `panics_exceed_executions` -- what is read has more panics than executions;
* `panics_le_executions_add` -- **by how many at most**.
-/

namespace WorkerPool

/-! ## 1. What workers have still to count -/

/-- The task that has ended by a panic. -/
@[simp]
def Happening.fails? : Happening → Option TaskId
  | .ended t true => some t
  | _ => none

namespace WorkerStage

/-- The worker has begun a task that it has not counted as executed. One that a panic has driven out
    never will. -/
def isUncounted : WorkerStage → Bool
  | .running _ _ | .caught _ _ | .reporting _ _ | .lowering _ _ | .countingPanic _ _
  | .recordingPanic _ _ | .recording _ _ _ | .countingExecuted => true
  | .leaving crashed | .finished crashed => crashed
  | _ => false

/-- The worker has begun a task that the metrics do not have as executed. -/
def isUnrecorded : WorkerStage → Bool
  | .recording .executed _ _ => true
  | .recording _ _ _ | .countingExecuted => false
  | s => s.isUncounted

/-- What the metrics do not have the worker has not counted either. -/
theorem isUncounted_of_isUnrecorded {s : WorkerStage} (h : s.isUnrecorded = true) :
    s.isUncounted = true := by
  cases s with
  | recording part job ran => rfl
  | countingExecuted => cases h
  | _ => exact h

/-- The worker has counted a panic that the metrics do not have. -/
def isRecordingPanic : WorkerStage → Bool
  | .recordingPanic _ _ => true
  | _ => false

/-- The worker's task has ended by a panic that the metrics do not have. -/
def isPanicUnrecorded : WorkerStage → Bool
  | .caught _ _ | .reporting _ _ | .countingPanic _ _ | .recordingPanic _ _ => true
  | .lowering _ panicked => panicked
  | .leaving crashed | .finished crashed => crashed
  | _ => false

theorem isPanicUnrecorded_of_isKilled {s : WorkerStage} (h : s.isKilled = true) :
    s.isPanicUnrecorded = true := by
  cases s with
  | leaving crashed | finished crashed => cases crashed <;> exact h
  | _ => cases h

theorem isRecordingPanic_add_isKilled_le (s : WorkerStage) :
    s.isRecordingPanic.toNat + s.isKilled.toNat ≤ s.isPanicUnrecorded.toNat := by
  cases s with
  | recordingPanic => exact Nat.le_refl _
  | leaving crashed | finished crashed => cases crashed <;> decide
  | _ => exact Nat.zero_le _

end WorkerStage

/-- What a worker has counted that has begun so many tasks, of which so many have ended by a panic:
    all of them but the one at hand. Its panics are counted a second time in the metrics. -/
structure Worker.Booked (begun panics : Nat) (w : Worker) : Prop where
  executed : ∃ n, w.executed = UInt64.ofNat n ∧ n + w.stage.isUncounted.toNat = begun
  panicked : ∃ n, w.panicked = UInt64.ofNat (n + w.stage.isRecordingPanic.toNat) ∧
    n + w.stage.isPanicUnrecorded.toNat = panics

/-- A worker that comes to another place and counts nothing there. -/
theorem Worker.Booked.carry {begun panics : Nat} {w : Worker} (hb : w.Booked begun panics)
    {s : WorkerStage} (hu : s.isUncounted = w.stage.isUncounted)
    (hr : s.isRecordingPanic = w.stage.isRecordingPanic)
    (hp : s.isPanicUnrecorded = w.stage.isPanicUnrecorded) :
    ({ w with stage := s } : Worker).Booked begun panics :=
  ⟨by rw [hu]; exact hb.executed, by rw [hr, hp]; exact hb.panicked⟩

namespace Pool

/-- The tasks that have ended by a panic, in order. -/
def failures (p : Pool) : List TaskId := inOrder Happening.fails? p.trace

/-- How many of the tasks that this worker has begun have ended by a panic. -/
def failuresBy (p : Pool) (i : Nat) : Nat := (p.begunBy i).countP (· ∈ p.failures)

/-! ## 2. Tasks that are begun and end -/

section Tasks

variable {p : Pool} {t : TaskId}

theorem ends_pos_of_failed (h : t ∈ p.failures) : 0 < p.ends t := by
  obtain ⟨e, he, hc⟩ := mem_inOrder.mp h
  refine List.countP_pos_iff.mpr ⟨e, he, ?_⟩
  cases e with
  | ended u panicked => cases panicked <;> simp_all
  | _ => cases hc

theorem nodup_begunBy (ha : Accounted p) (ht : traced.Holds p) (i : Nat) : (p.begunBy i).Nodup :=
  (nodup_begun ha ht).sublist (List.filter_sublist.map Prod.fst)

/-- No two workers begin one task. -/
theorem eq_of_mem_begunBy (ha : Accounted p) (ht : traced.Holds p) {i j : Nat}
    (hi : t ∈ p.begunBy i) (hj : t ∈ p.begunBy j) : i = j :=
  congrArg Prod.snd (List.inj_on_of_nodup_map (nodup_begun ha ht) (mem_begunBy.mp hi)
    (mem_begunBy.mp hj) rfl)

/-- Who is not there has begun nothing. -/
theorem begunBy_eq_nil (hr : Recorded p) {i : Nat} (hi : p.workers.length ≤ i) :
    p.begunBy i = [] := by
  rw [begunBy, filter_eq_nil hr.beginner (by simpa [stages] using hi), List.map_nil]

/-- A task that a worker is about to begin has not panicked. -/
theorem not_failed_of_ready (ha : Accounted p) (ht : traced.Holds p) {task : Task}
    (hs : .ready task ∈ p.stages) : task.id ∉ p.failures := by
  intro hc
  have hholds : 0 < p.holders task.id := List.countP_pos_iff.mpr ⟨_, hs, by simp⟩
  have hplaces := places_of_accepted ha ht (ht.workers _ hs task.id (by simp))
  have hrun := ha.run_eq task.id
  have hends := ends_pos_of_failed hc
  omega

/-- Neither has one that a worker is inside of. -/
theorem not_failed_of_running (ha : Accounted p) (ht : traced.Holds p) {job : Job}
    {activity : Activity} (hs : .running job activity ∈ p.stages) : job.id ∉ p.failures := by
  intro hc
  have hruns : 0 < p.runners job.id := List.countP_pos_iff.mpr ⟨_, hs, by simp⟩
  have hstarts := starts_le_one ha ht (t := job.id)
  have hrun := ha.run_eq job.id
  have hends := ends_pos_of_failed hc
  omega

end Tasks

/-! ## 3. What workers have counted -/

/-- Every worker has counted what it has begun, but the task at hand. -/
structure Counted (p : Pool) : Prop where
  worker : ∀ {i : Nat} {w : Worker}, p.workers[i]? = some w →
    w.Booked (p.begunBy i).length (p.failuresBy i)

/-- One crash more among these tasks. -/
theorem countP_mem_snoc {l failed : List TaskId} {t : TaskId} (h : t ∉ failed) :
    l.countP (· ∈ failed ++ [t]) = l.countP (· ∈ failed) + l.count t := by
  have hor (u : TaskId) :
      decide (u ∈ failed ++ [t]) = (decide (u ∈ failed) || u == t) := by
    by_cases hu : u = t <;> simp [hu]
  simp only [hor, List.count]
  refine countP_or fun u _ hu => ?_
  have hne : u ≠ t := fun e => h (e ▸ of_decide_eq_true hu)
  simpa using hne

/-- A task that has just been begun is no failure. -/
theorem countP_snoc_mem {l failed : List TaskId} {t : TaskId} (h : t ∉ failed) :
    (l ++ [t]).countP (· ∈ failed) = l.countP (· ∈ failed) := by
  simp [h]

theorem booked_of_same {p q : Pool} {i : Nat} {w : Worker}
    (hbegun : q.beginnings = p.beginnings) (hfailures : q.failures = p.failures)
    (hb : w.Booked (p.begunBy i).length (p.failuresBy i)) :
    w.Booked (q.begunBy i).length (q.failuresBy i) := by
  rwa [failuresBy, begunBy, hbegun, hfailures]

/-- **What a worker counts in its moves is what it has begun and what has panicked.** -/
theorem WorkerMove.booked {p q : Pool} {i : Nat} {w : Worker} {s : WorkerStage}
    (ha : Accounted p) (ht : traced.Holds p) (hr : Recorded p) (hw : p.workers[i]? = some w)
    (h : WorkerMove p i w.stage q s) (hb : w.Booked (p.begunBy i).length (p.failuresBy i)) :
    ∃ w', (q.setStage i s).workers[i]? = some w' ∧
      w'.Booked (q.begunBy i).length (q.failuresBy i) := by
  obtain ⟨stage, executed, panicked, remains⟩ := w
  have hs : p.stages[i]? = some stage := stages_getElem?.mpr ⟨_, hw, rfl⟩
  have hmem : stage ∈ p.stages := List.mem_of_getElem? hs
  have hcount {f : Worker → Worker} {handler : Handler} :
      (({ p with handler := handler } : Pool).countFor i f).workers[i]? =
        some (f ⟨stage, executed, panicked, remains⟩) := by
    simp [countFor, hw]
  dsimp only at h
  cases h with
  | begins task waited since =>
      obtain ⟨n, hn, hbegun⟩ := hb.executed
      have hfresh := not_failed_of_ready ha ht hmem
      have hbeg (q : Pool) (he : q = ({ p with active := p.active + 1 } : Pool).log
          (.started task.id task.label i)) :
          q.begunBy i = p.begunBy i ++ [task.id] ∧ q.failures = p.failures := by
        subst he
        exact ⟨by simp [begunBy, beginnings], by simp [failures]⟩
      obtain ⟨hmore, hfailures⟩ := hbeg _ rfl
      rw [failuresBy, hmore, hfailures, countP_snoc_mem hfresh, List.length_append]
      exact ⟨_, getElem?_setStage hw _, ⟨n, hn, congrArg (· + 1) hbegun⟩, hb.panicked⟩
  | panics job payload =>
      obtain ⟨n, hn, hpanics⟩ := hb.panicked
      have hfresh := not_failed_of_running ha ht hmem
      have hlast : job.id ∈ p.begunBy i := List.mem_of_getLast? (hr.worker hs).2
      have hone := List.count_eq_one_of_mem (nodup_begunBy ha ht i) hlast
      have hbeg (q : Pool) (he : q = p.log (.ended job.id true)) :
          q.begunBy i = p.begunBy i ∧ q.failures = p.failures ++ [job.id] := by
        subst he
        exact ⟨by simp [begunBy, beginnings], by simp [failures]⟩
      obtain ⟨hsame, hfailures⟩ := hbeg _ rfl
      rw [failuresBy, hsame, hfailures, countP_mem_snoc hfresh, hone]
      exact ⟨_, getElem?_setStage hw _, hb.executed, ⟨n, hn, congrArg (· + 1) hpanics⟩⟩
  | crashes job payload inner =>
      exact ⟨_, getElem?_setStage hcount _,
        booked_of_same (p := p) rfl rfl ⟨hb.executed, hb.panicked⟩⟩
  | countsPanic job ran =>
      obtain ⟨n, hn, hpanics⟩ := hb.panicked
      refine ⟨_, getElem?_setStage hcount _, booked_of_same rfl rfl ⟨hb.executed, n, ?_, hpanics⟩⟩
      rw [show panicked = UInt64.ofNat n from hn]
      exact (UInt64.ofNat_add n 1).symm
  | recordsPanic job ran =>
      obtain ⟨n, hn, hpanics⟩ := hb.panicked
      exact ⟨_, getElem?_setStage hw _, booked_of_same rfl rfl ⟨hb.executed, n + 1, hn, hpanics⟩⟩
  | countsExecuted =>
      obtain ⟨n, hn, hbegun⟩ := hb.executed
      refine ⟨_, getElem?_setStage hcount _, booked_of_same rfl rfl ⟨⟨n + 1, ?_, hbegun⟩,
        hb.panicked⟩⟩
      rw [show executed = UInt64.ofNat n from hn]
      exact (UInt64.ofNat_add n 1).symm
  | _ =>
      exact ⟨_, getElem?_setStage hw _, booked_of_same (by simp [beginnings]) (by simp [failures])
        (hb.carry rfl rfl rfl)⟩

/-- A worker's move leaves the counters of all others as they are. -/
theorem WorkerMove.other_worker {p q : Pool} {i j : Nat} {s s' : WorkerStage}
    (h : WorkerMove p i s q s') (hij : j ≠ i) :
    (q.setStage i s').workers[j]? = p.workers[j]? := by
  have hset : (q.setStage i s').workers[j]? = q.workers[j]? := by
    simp [setStage, Ne.symm hij]
  rw [hset]
  cases h with
  | crashes | countsPanic | countsExecuted => simp [Ne.symm hij]
  | _ => rfl

/-- Of all moves only a panic makes a task fail: that of the worker that moves. -/
theorem WorkerMove.failures_cases {p q : Pool} {i : Nat} {s s' : WorkerStage}
    (h : WorkerMove p i s q s') : q.failures = p.failures ∨
      ∃ job activity, s = .running job activity ∧ q.failures = p.failures ++ [job.id] := by
  cases h with
  | panics job payload => exact .inr ⟨job, _, rfl, by simp [failures]⟩
  | _ => exact .inl (by simp [failures])

/-- It is the task of nobody else. -/
theorem WorkerMove.failuresBy_of_ne {p q : Pool} {i j : Nat} {s s' : WorkerStage}
    (ha : Accounted p) (ht : traced.Holds p) (hr : Recorded p) (hs : p.stages[i]? = some s)
    (h : WorkerMove p i s q s') (hij : j ≠ i) :
    q.begunBy j = p.begunBy j ∧ q.failuresBy j = p.failuresBy j := by
  have hbegun : q.begunBy j = p.begunBy j :=
    congrArg (List.map Prod.fst) (filter_of_ne hij h.readings.2)
  refine ⟨hbegun, ?_⟩
  rw [failuresBy, hbegun]
  rcases h.failures_cases with he | ⟨job, activity, rfl, he⟩
  · rw [he, failuresBy]
  · have hlast : job.id ∈ p.begunBy i := List.mem_of_getLast? (hr.worker hs).2
    have hnot : job.id ∉ p.begunBy j := fun hj => hij (eq_of_mem_begunBy ha ht hj hlast)
    have hfresh := not_failed_of_running ha ht (List.mem_of_getElem? hs)
    rw [he, countP_mem_snoc hfresh, List.count_eq_zero.mpr hnot, failuresBy, Nat.add_zero]

/-- A call counts for no worker; it may start one. -/
theorem CallMove.workers {p q : Pool} {thread : ThreadId} {s : CallStage} {next : CallStep}
    (h : CallMove p thread s q next) :
    q.failures = p.failures ∧
      (q.workers = p.workers ∨ q.workers = p.workers ++ [({} : Worker)]) := by
  cases h with
  | spawns => exact ⟨by simp [failures], .inr rfl⟩
  | _ => exact ⟨by simp [failures], .inl rfl⟩

theorem Counted.of_same {p q : Pool} (hp : Counted p) (hw : q.workers = p.workers)
    (hbegun : q.beginnings = p.beginnings) (hfailures : q.failures = p.failures) : Counted q where
  worker hi := booked_of_same hbegun hfailures (hp.worker (hw ▸ hi))

theorem Counted.call {p q : Pool} {thread : ThreadId} {s : CallStage} {next : CallStep}
    (hr : Recorded p) (hp : Counted p) (h : CallMove p thread s q next) : Counted q := by
  obtain ⟨hfailures, hworkers⟩ := h.workers
  have hbegun := h.readings.2
  rcases hworkers with he | he
  · exact hp.of_same he hbegun hfailures
  · refine ⟨fun {j w} hw => booked_of_same hbegun hfailures ?_⟩
    rw [he] at hw
    rcases Nat.lt_or_ge j p.workers.length with hlt | hge
    · rw [List.getElem?_append_left hlt] at hw
      exact hp.worker hw
    · -- a worker that has just been started
      rw [List.getElem?_append_right hge] at hw
      obtain rfl := List.mem_singleton.mp (List.mem_of_getElem? hw)
      rw [failuresBy, begunBy_eq_nil hr hge]
      exact ⟨⟨0, rfl, rfl⟩, ⟨0, rfl, rfl⟩⟩

theorem Counted.change {p q : Pool} (ha : Accounted p) (ht : traced.Holds p) (hr : Recorded p)
    (hp : Counted p) (h : Change p q) : Counted q := by
  cases h with
  | @work i w r s hw h =>
      refine ⟨fun {j w'} hw' => ?_⟩
      by_cases hij : j = i
      · subst hij
        obtain ⟨w'', hw'', hb⟩ := h.booked ha ht hr hw (hp.worker hw)
        obtain rfl : w'' = w' := Option.some.inj (hw''.symm.trans hw')
        exact hb
      · obtain ⟨hbegun, hfailures⟩ :=
          h.failuresBy_of_ne ha ht hr (stages_getElem?.mpr ⟨w, hw, rfl⟩) hij
        rw [h.other_worker hij] at hw'
        show w'.Booked (r.begunBy j).length (r.failuresBy j)
        rw [hbegun, hfailures]
        exact hp.worker hw'
  | @call thread s r next hl h =>
      exact (hp.call hr h).of_same (by simp) (by simp [beginnings]) (by simp [failures])
  | enter hs hn h =>
      cases h with
      | offers task hf =>
          exact hp.of_same rfl (by simp [beginnings, enter]) (by simp [failures, enter])
      | asks mode => exact hp.of_same rfl rfl rfl
      | givesUp hc => exact hp.of_same rfl rfl rfl
  | note n => exact hp.of_same rfl (by simp [beginnings]) (by simp [failures])
  | wake i => exact hp.of_same rfl rfl rfl
  | reclaim h =>
      have hb : q.beginnings = p.beginnings := inOrder_reclaim h fun _ _ => rfl
      have hf : q.failures = p.failures := inOrder_reclaim h fun _ _ => rfl
      obtain ⟨-, -, rfl⟩ := reclaim_cases h
      exact hp.of_same rfl hb hf

/-- **Every worker of a reachable world has counted what it has to.** -/
theorem counted_reachable {w : World} (h : w.Reachable) : ∀ p ∈ w.pools, Counted p := by
  have hrecord : Invariant Recorded := ⟨Recorded.fresh, Recorded.change⟩
  have hinv : Invariant fun p => ((Accounted p ∧ traced.Holds p) ∧ Recorded p) ∧ Counted p :=
    ((traced_kept.invariant accounted_invariant).and hrecord).beside
      (fun hf => ⟨fun hw => by simp [hf.blank.workers] at hw⟩)
      fun hI hp hc => hp.change hI.1.1 hI.1.2 hI.2 hc
  exact fun p hp => (hinv.reachable h p hp).2

/-! ## 4. Sums over workers -/

/-- One for a worker at a place that `f` marks, and nothing for a number that no worker has. -/
def mark (p : Pool) (f : WorkerStage → Bool) (i : Nat) : Nat := ((p.stages[i]?).any f).toNat

theorem sum_any {α : Type} (f : α → Bool) {l : List α} {n : Nat} (hn : l.length ≤ n) :
    ∑ i ∈ Finset.range n, ((l[i]?).any f).toNat = l.countP f := by
  induction l generalizing n with
  | nil => simp
  | cons x rest ih =>
      obtain ⟨m, rfl⟩ : ∃ m, n = m + 1 := ⟨n - 1, by simp at hn; omega⟩
      rw [Finset.sum_range_succ', List.countP_cons]
      simp only [List.getElem?_cons_succ, List.getElem?_cons_zero, Option.any_some]
      rw [ih (by simpa using hn)]
      cases f x <;> rfl

theorem sum_mark (p : Pool) (f : WorkerStage → Bool) {n : Nat} (hn : p.stages.length ≤ n) :
    ∑ i ∈ Finset.range n, p.mark f i = p.stages.countP f := sum_any f hn

/-- What is true of some of the tasks is true of some tasks of each worker. -/
theorem sum_countP_filter {l : List (TaskId × Nat)} {n : Nat} (hl : ∀ x ∈ l, x.2 < n)
    (f : TaskId → Bool) :
    ∑ i ∈ Finset.range n, ((l.filter (·.2 = i)).map Prod.fst).countP f =
      (l.map Prod.fst).countP f := by
  induction l with
  | nil => simp
  | cons x rest ih =>
      have hx : x.2 ∈ Finset.range n := Finset.mem_range.mpr (hl x (List.mem_cons_self ..))
      have hone (i : Nat) : (((x :: rest).filter (·.2 = i)).map Prod.fst).countP f =
          ((rest.filter (·.2 = i)).map Prod.fst).countP f +
            if x.2 = i then (f x.1).toNat else 0 := by
        by_cases hi : x.2 = i
        · cases hf : f x.1 <;> simp [hi, hf]
        · simp [hi]
      simp only [hone, Finset.sum_add_distrib, Finset.sum_ite_eq, if_pos hx, List.map_cons,
        List.countP_cons]
      rw [ih fun y hy => hl y (List.mem_cons_of_mem _ hy)]
      cases f x.1 <;> rfl

theorem sum_toNat {α : Type} (f : α → Bool) (l : List α) :
    (l.map fun x => (f x).toNat).sum = l.countP f := by
  induction l with
  | nil => rfl
  | cons x rest ih =>
      rw [List.map_cons, List.sum_cons, ih, List.countP_cons]
      cases f x <;> simp [Nat.add_comm]

/-- Words that are numbers, worker by worker, sum up to a word that is their sum. -/
theorem exists_sum_eq {f : Worker → UInt64} {g : Worker → Nat} {b : Nat → Nat} (ws : List Worker)
    (h : ∀ {i : Nat} {w : Worker}, ws[i]? = some w → ∃ n, f w = UInt64.ofNat n ∧ n + g w = b i) :
    ∃ n, (ws.map f).sum = UInt64.ofNat n ∧
      n + (ws.map g).sum = ∑ i ∈ Finset.range ws.length, b i := by
  induction ws using List.reverseRecOn with
  | nil => exact ⟨0, rfl, rfl⟩
  | append_singleton rest w ih =>
      obtain ⟨n, hn, hsum⟩ := ih fun {i v} hi => h (by
        rw [List.getElem?_append_left (List.getElem?_eq_some_iff.mp hi).1, hi])
      obtain ⟨m, hm, hb⟩ := h (i := rest.length) (w := w) (by simp)
      refine ⟨n + m, ?_, ?_⟩
      · simp [hn, hm, UInt64.ofNat_add]
      · simp only [List.map_append, List.map_cons, List.map_nil, List.sum_append, List.sum_cons,
          List.sum_nil, List.length_append, List.length_singleton, Finset.sum_range_succ]
        omega

section Sums

variable {p : Pool}

theorem sum_begunBy (hr : Recorded p) :
    ∑ i ∈ Finset.range p.workers.length, (p.begunBy i).length = p.begun.length := by
  have hsum := sum_countP_filter (n := p.workers.length)
    (by simpa [stages] using hr.beginner) fun _ => true
  simpa [begunBy, begun] using hsum

/-- The tasks that have failed are the failures of the workers. -/
theorem sum_failuresBy (ha : Accounted p) (ht : traced.Holds p) (hr : Recorded p) :
    ∑ i ∈ Finset.range p.workers.length, p.failuresBy i = p.failures.length := by
  have hnodup : p.failures.Nodup := List.nodup_iff_count_le_one.mpr fun t => by
    have hends : p.failures.count t ≤ p.ends t := by
      rw [failures, count_inOrder, ends]
      refine List.countP_mono_left fun e _ he => ?_
      cases e with
      | ended u panicked => cases panicked <;> simp_all
      | _ => cases he
    have hrun := ha.run_eq t
    have hone := starts_le_one ha ht (t := t)
    omega
  have hbegun (t : TaskId) (hf : t ∈ p.failures) : t ∈ p.begun := by
    have hends := ends_pos_of_failed hf
    have hrun := ha.run_eq t
    exact mem_begun.mpr (by omega)
  have hperm : (p.begun.filter (· ∈ p.failures)).Perm p.failures := by
    refine (List.perm_ext_iff_of_nodup ((nodup_begun ha ht).filter _) hnodup).mpr fun t => ?_
    simpa using hbegun t
  calc ∑ i ∈ Finset.range p.workers.length, p.failuresBy i
    _ = p.begun.countP (· ∈ p.failures) :=
        sum_countP_filter (by simpa [stages] using hr.beginner) _
    _ = (p.begun.filter (· ∈ p.failures)).length := List.countP_eq_length_filter
    _ = p.failures.length := hperm.length_eq

end Sums

/-! ## 5. What the metrics have -/

theorem executedLedger_worker (s : WorkerStage) : executedLedger.worker s =
    UInt64.ofNat (s.isUncounted.toNat - s.isUnrecorded.toNat) := by
  cases s with
  | recording part job ran => cases part <;> rfl
  | leaving crashed | finished crashed => cases crashed <;> rfl
  | _ => rfl

theorem panickedLedger_worker (s : WorkerStage) :
    panickedLedger.worker s = -UInt64.ofNat s.isRecordingPanic.toNat := by
  cases s <;> simp [panickedLedger, WorkerStage.isRecordingPanic]

/-- What a ledger has of the workers and what their counters have, together. -/
theorem sum_map_add_worker (a : Account UInt64) (hc : ∀ s, a.call s = 0) {p : Pool}
    {f : Worker → UInt64} {n : UInt64} (hs : a.shared p = (p.workers.map f).sum - n)
    (ht : a.total p = 0) : (p.workers.map fun w => f w + a.worker w.stage).sum = n := by
  have hcalls : a.ofCalls p = 0 := by simp [Account.ofCalls, hc]
  have hworkers : a.ofWorkers p = (p.workers.map fun w => a.worker w.stage).sum := by
    simp [Account.ofWorkers, stages, Function.comp_def]
  rw [Account.total, hcalls, hworkers, hs, add_zero] at ht
  rw [List.sum_map_add]
  grind

theorem sum_stage (p : Pool) (f : WorkerStage → Bool) :
    (p.workers.map fun w => (f w.stage).toNat).sum = p.stages.countP f := by
  rw [stages, List.countP_map]
  exact sum_toNat (fun w : Worker => f w.stage) p.workers

section Metrics

variable {w : World} {p : Pool}

/-- **The metrics have every task that was begun as executed**, but those at hand. -/
theorem metric_executed_eq (h : w.Reachable) (hp : p ∈ w.pools) (hm : Measured p) :
    ∃ n, p.metric .executed = UInt64.ofNat n ∧
      n + p.stages.countP WorkerStage.isUnrecorded = p.begun.length := by
  have hcounted := counted_reachable h p hp
  have hsum := sum_map_add_worker executedLedger (fun _ => rfl) rfl
    (reconciled_reachable h hp hm).executed
  obtain ⟨n, hn, he⟩ := exists_sum_eq (f := fun w => w.executed + executedLedger.worker w.stage)
    (g := fun w => w.stage.isUnrecorded.toNat) (b := fun i => (p.begunBy i).length) p.workers
    fun {i v} hi => by
      obtain ⟨n, hn, he⟩ := (hcounted.worker hi).executed
      have hle : v.stage.isUnrecorded.toNat ≤ v.stage.isUncounted.toNat := by
        cases hu : v.stage.isUnrecorded with
        | false => exact Nat.zero_le _
        | true => rw [WorkerStage.isUncounted_of_isUnrecorded hu]
      refine ⟨n + (v.stage.isUncounted.toNat - v.stage.isUnrecorded.toNat), ?_, ?_⟩
      · rw [hn, executedLedger_worker, UInt64.ofNat_add]
      · omega
  rw [sum_begunBy (ordered_reachable h p hp).toRecorded, sum_stage] at he
  exact ⟨n, hsum.symm.trans hn, he⟩

/-- **The metrics have every panic**, but those of tasks at hand and of workers driven out. -/
theorem metric_panicked_eq (h : w.Reachable) (hp : p ∈ w.pools) (hm : Measured p) :
    ∃ n, p.metric .panicked = UInt64.ofNat n ∧
      n + p.stages.countP WorkerStage.isPanicUnrecorded = p.failures.length := by
  have hcounted := counted_reachable h p hp
  have ho := ordered_reachable h p hp
  have hsum := sum_map_add_worker panickedLedger (fun _ => rfl) rfl
    (reconciled_reachable h hp hm).panicked
  obtain ⟨n, hn, he⟩ := exists_sum_eq (f := fun w => w.panicked + panickedLedger.worker w.stage)
    (g := fun w => w.stage.isPanicUnrecorded.toNat) (b := p.failuresBy) p.workers fun {i v} hi => by
      obtain ⟨n, hn, he⟩ := (hcounted.worker hi).panicked
      refine ⟨n, ?_, he⟩
      rw [hn, panickedLedger_worker, UInt64.ofNat_add]
      grind
  rw [sum_failuresBy ho.accounted ho.traced ho.toRecorded, sum_stage] at he
  exact ⟨n, hsum.symm.trans hn, he⟩

end Metrics

/-! ## 6. Panics that are not counted as executions yet -/

/-- The worker is at a place that `f` marks, no panic has driven it out, and the last task that it
    has begun has ended by a panic. -/
def owes (p : Pool) (f : WorkerStage → Bool) (i : Nat) : Bool :=
  ((p.stages[i]?).any fun s => f s && !s.isKilled) &&
    ((p.begunBy i).getLast?).any (· ∈ p.failures)

/-- How many workers are at such a place with such a task. -/
def owing (p : Pool) (f : WorkerStage → Bool) : Nat :=
  (List.range p.workers.length).countP (p.owes f)

/-- All but the last task of a worker at such a place are counted. -/
theorem Counted.failuresBy_add_le {p : Pool} (hc : Counted p) {f : WorkerStage → Bool}
    (hf : ∀ s : WorkerStage, f s = true → s.isUncounted = true) (i : Nat) :
    p.failuresBy i + p.mark f i ≤
      (p.begunBy i).length + (p.owes f i).toNat + p.mark WorkerStage.isKilled i := by
  have hle : p.failuresBy i ≤ (p.begunBy i).length := List.countP_le_length
  cases hs : p.stages[i]? with
  | none =>
      simp only [mark, hs, Option.any_none, Bool.toNat_false]
      omega
  | some s =>
      cases hfs : f s with
      | false =>
          simp only [mark, hs, Option.any_some, hfs, Bool.toNat_false]
          omega
      | true =>
          obtain ⟨w, hw, rfl⟩ := stages_getElem?.mp hs
          obtain ⟨n, -, hn⟩ := (hc.worker hw).executed
          rw [hf _ hfs] at hn
          have hne : p.begunBy i ≠ [] := fun e => by simp [e] at hn
          obtain ⟨before, t, he⟩ := List.eq_nil_or_concat' (p.begunBy i) |>.resolve_left hne
          have hbefore := List.countP_le_length (p := (· ∈ p.failures)) (l := before)
          simp only [failuresBy, mark, owes, hs, he, Option.any_some, hfs,
            List.countP_append, List.length_append, List.getLast?_concat]
          cases w.stage.isKilled <;> by_cases ht : t ∈ p.failures <;> simp [ht] <;> omega

/-- In all of a pool, fewer tasks have failed than are counted but for those that workers owe. -/
theorem failures_add_le {w : World} (h : w.Reachable) {p : Pool} (hp : p ∈ w.pools) :
    p.failures.length + p.stages.countP WorkerStage.isUnrecorded ≤
      p.begun.length + p.owing WorkerStage.isUnrecorded + p.killed := by
  have ho := ordered_reachable h p hp
  have hlen : p.stages.length ≤ p.workers.length := by simp [stages]
  have howing : ∑ i ∈ Finset.range p.workers.length, (p.owes WorkerStage.isUnrecorded i).toNat =
      p.owing WorkerStage.isUnrecorded := by
    rw [owing, ← sum_toNat]
    rfl
  have hsum := Finset.sum_le_sum fun i (_ : i ∈ Finset.range p.workers.length) =>
    (counted_reachable h p hp).failuresBy_add_le
      (fun _ => WorkerStage.isUncounted_of_isUnrecorded) i
  simp only [Finset.sum_add_distrib, sum_failuresBy ho.accounted ho.traced ho.toRecorded,
    sum_begunBy ho.toRecorded, sum_mark _ _ hlen, howing] at hsum
  exact hsum

/-! ## 7. Workers that panics have driven out -/

theorem WorkerMove.isKilled {p q : Pool} {i : Nat} {s s' : WorkerStage}
    (h : WorkerMove p i s q s') (hk : s.isKilled = true) : s'.isKilled = true := by
  cases h with
  | exits crashed => cases crashed <;> exact hk
  | _ => cases hk

/-- A panic has driven this worker out. -/
def drivenOut (i : Nat) : Roll := fun _ j o => j = i → ∃ s, o = some s ∧ s.isKilled = true

/-- **Who is driven out stays out.** -/
theorem drivenOut_kept (i : Nat) : (drivenOut i).Kept fun _ => True where
  own _ hp h hj := by
    obtain ⟨s, e, hk⟩ := hp hj
    cases e
    exact ⟨_, rfl, h.isKilled hk⟩
  other _ _ _ hp := hp
  recruit hp hj := by
    obtain ⟨s, e, -⟩ := hp hj
    cases e
  call _ _ hp := hp
  enter _ hp := hp
  note _ hp := hp
  wake _ hp := hp
  reclaim _ hp := hp
  placed _ _ hp := hp

section Later

variable {u v : World} {ls : List Label} {id : PoolId} {p q : Pool}

theorem mark_isKilled_le (h : u.Reachable) (hr : u.run ls = some v) (hp : u.pools[id]? = some p)
    (hq : v.pools[id]? = some q) (i : Nat) :
    p.mark WorkerStage.isKilled i ≤ q.mark WorkerStage.isKilled i := by
  cases hk : (p.stages[i]?).any WorkerStage.isKilled with
  | false => simp [mark, hk]
  | true =>
      obtain ⟨s, hs, hk⟩ := (Option.any_eq_true ..).mp hk
      have hout : (drivenOut i).Reads q :=
        run_induction (fun _ hI hc => (drivenOut_kept i).change trivial hI hc) h hr hp hq
          fun j hj => ⟨s, by rw [hj, hs], hk⟩
      obtain ⟨s', hs', hk'⟩ := hout i rfl
      simp [mark, hs, hs', hk, hk']

theorem killed_le (h : u.Reachable) (hr : u.run ls = some v) (hp : u.pools[id]? = some p)
    (hq : v.pools[id]? = some q) : p.killed ≤ q.killed := by
  rw [killed, killed, ← sum_mark p _ (Nat.le_max_left _ q.stages.length),
    ← sum_mark q _ (Nat.le_max_right p.stages.length _)]
  exact Finset.sum_le_sum fun i _ => mark_isKilled_le h hr hp hq i

end Later

/-! ## 8. What is read -/

theorem toNat_ofNat_le (n : Nat) : (UInt64.ofNat n).toNat ≤ n := by
  rw [UInt64.toNat_ofNat']
  exact Nat.mod_le ..

/-- What the metrics have of panics is no more than the tasks that have failed, but for those that
    drove a worker out. -/
theorem metric_panicked_le {w : World} (h : w.Reachable) {p : Pool} (hp : p ∈ w.pools)
    (hm : Measured p) : (p.metric .panicked).toNat + p.killed ≤ p.failures.length := by
  obtain ⟨n, hn, he⟩ := metric_panicked_eq h hp hm
  have hle := toNat_ofNat_le n
  have hkilled : p.killed ≤ p.stages.countP WorkerStage.isPanicUnrecorded :=
    List.countP_mono_left fun _ _ => WorkerStage.isPanicUnrecorded_of_isKilled
  rw [hn]
  omega

/-- What a worker has counted as executed; nothing if there is no such worker. -/
def executedBy (p : Pool) (i : Nat) : Nat := (p.workers[i]?.map (·.executed.toNat)).getD 0

/-- The panics that a worker has counted. -/
def panickedBy (p : Pool) (i : Nat) : Nat := (p.workers[i]?.map (·.panicked.toNat)).getD 0

/-- One worker has counted no more panics than it has failed tasks. -/
theorem Counted.panickedBy_le {p : Pool} (hc : Counted p) (i : Nat) :
    p.panickedBy i + p.mark WorkerStage.isKilled i ≤ p.failuresBy i := by
  cases hw : p.workers[i]? with
  | none => simp [panickedBy, mark, stages, hw]
  | some w =>
      obtain ⟨n, hn, he⟩ := (hc.worker hw).panicked
      have hle := toNat_ofNat_le (n + w.stage.isRecordingPanic.toNat)
      have hs : p.stages[i]? = some w.stage := stages_getElem?.mpr ⟨w, hw, rfl⟩
      have hplace := w.stage.isRecordingPanic_add_isKilled_le
      simp only [panickedBy, mark, hw, hs, hn, Option.map_some, Option.getD_some, Option.any_some]
      omega

/-- What a worker has begun it has counted, but the task at hand, as long as its counter has not
    wrapped. -/
theorem Counted.begunBy_le {p : Pool} (hc : Counted p) (hr : Recorded p)
    (hlt : p.begun.length < UInt64.size) (i : Nat) :
    (p.begunBy i).length ≤ p.executedBy i + p.mark WorkerStage.isUncounted i := by
  cases hw : p.workers[i]? with
  | none =>
      rw [begunBy_eq_nil hr (List.getElem?_eq_none_iff.mp hw)]
      exact Nat.zero_le _
  | some w =>
      obtain ⟨k, hk, he⟩ := (hc.worker hw).executed
      have hs : p.stages[i]? = some w.stage := stages_getElem?.mpr ⟨w, hw, rfl⟩
      have hle : (p.begunBy i).length ≤ p.begun.length :=
        (List.filter_sublist.map Prod.fst).length_le
      have hk' : w.executed.toNat = k := by
        rw [hk, UInt64.toNat_ofNat_of_lt' (by omega)]
      simp only [executedBy, mark, hw, hs, hk', Option.map_some, Option.getD_some, Option.any_some]
      omega

section Reads

variable {u v : World} {ls : List Label} {id : PoolId} {p q : Pool}

/-- **Executions that are read first and panics that are read later**, with any steps between. -/
theorem metric_panicked_le_add (h : u.Reachable) (hr : u.run ls = some v)
    (hp : u.pools[id]? = some p) (hq : v.pools[id]? = some q)
    (hlt : p.begun.length < UInt64.size) :
    (q.metric .panicked).toNat ≤ (p.metric .executed).toNat + p.owing WorkerStage.isUnrecorded +
      (q.failures.length - p.failures.length) := by
  have hpm := List.mem_of_getElem? hp
  by_cases hmeasured : Measured q
  · have hpmeasured : Measured p := by
      rw [Measured, ← (run_later h hr hp hq).measured]
      exact hmeasured
    obtain ⟨n, hn, he⟩ := metric_executed_eq h hpm hpmeasured
    have hn' : (p.metric .executed).toNat = n := by
      rw [hn, UInt64.toNat_ofNat_of_lt' (by omega)]
    have hafter := metric_panicked_le (h.run hr) (List.mem_of_getElem? hq) hmeasured
    have hbefore := failures_add_le h hpm
    have hkilled := killed_le h hr hp hq
    omega
  · have hnone : q.metrics = none := by simpa [Measured] using hmeasured
    simp [metric, hnone]

/-- **The share of panics is at most one** in a snapshot of these two figures, if no worker owed an
    execution that has panicked when the executions were read and no task has panicked since. -/
theorem panicRate_le_one_of_quiet (h : u.Reachable) (hr : u.run ls = some v)
    (hp : u.pools[id]? = some p) (hq : v.pools[id]? = some q)
    (hlt : p.begun.length < UInt64.size) (howing : p.owing WorkerStage.isUnrecorded = 0)
    (hquiet : q.failures.length ≤ p.failures.length) {s : Snapshot}
    (hexecuted : s.executed = p.metric .executed) (hpanicked : s.panicked = q.metric .panicked) :
    s.panicRate ≤ 1 := by
  refine Snapshot.panicRate_le_one (UInt64.le_iff_toNat_le.mpr ?_)
  have hle := metric_panicked_le_add h hr hp hq hlt
  rw [hexecuted, hpanicked]
  omega

/-- **The same of one worker.** -/
theorem worker_panicked_le_add (h : u.Reachable) (hr : u.run ls = some v)
    (hp : u.pools[id]? = some p) (hq : v.pools[id]? = some q)
    (hlt : p.begun.length < UInt64.size) (i : Nat) :
    q.panickedBy i ≤ p.executedBy i + (p.owes WorkerStage.isUncounted i).toNat +
      (q.failuresBy i - p.failuresBy i) := by
  have hpm := List.mem_of_getElem? hp
  have hcounted := counted_reachable h p hpm
  have hafter := (counted_reachable (h.run hr) q (List.mem_of_getElem? hq)).panickedBy_le i
  have hbefore := hcounted.failuresBy_add_le (fun _ hs => hs) i
  have hkilled := mark_isKilled_le h hr hp hq i
  have hexecuted := hcounted.begunBy_le (ordered_reachable h p hpm).toRecorded hlt i
  omega

end Reads

end Pool

open Pool

/-- **Counters that are read one after the other.** A thread reads the counters of the metrics, or
    those of the workers, of a pool of which fewer than 2^64 tasks have been begun. Then it goes on
    with an observation that has at most so many panics more than executions: as many as there were
    workers, when the executions were read, whose last task had ended by a panic and was not counted
    as executed yet, and as many as tasks have ended by a panic between the two reads. For a worker
    these are its own tasks. -/
theorem panics_le_executions_add {u v : World} (h : u.Reachable) {ls : List Label}
    (hr : u.run ls = some v) {thread : ThreadId} {id : PoolId} {first last : Pool}
    (hfirst : u.serving? id = some first) (hlast : v.serving? id = some last)
    (hlt : last.begun.length < UInt64.size) :
    (∀ next, u.activity? thread = some (.going (.readAll id Gauge.counters next)) →
      ls.countP (·.isOf thread) = Gauge.counters.length →
      ∃ (o : Observation) (p q : Pool), v.activity? thread = some (.going (next o)) ∧
        o.Saw u ls id (.metric .executed) (.metric .panicked) p q ∧
        o.number (.metric .panicked) ≤ o.number (.metric .executed) +
          p.owing WorkerStage.isUnrecorded + (q.failures.length - p.failures.length)) ∧
    ∀ (n : Nat) (next), u.activity? thread = some (.going (.readAll id (Gauge.ofWorkers n) next)) →
      ls.countP (·.isOf thread) = (Gauge.ofWorkers n).length →
      ∃ o : Observation, v.activity? thread = some (.going (next o)) ∧
        ∀ i < n, ∃ p q : Pool, o.Saw u ls id (.workerExecuted i) (.workerPanicked i) p q ∧
          o.number (.workerPanicked i) ≤ o.number (.workerExecuted i) +
            (p.owes WorkerStage.isUncounted i).toNat + (q.failuresBy i - p.failuresBy i) := by
  have hbegun {p q : Pool} {o : Observation} {g g' : Gauge} (hs : o.Saw u ls id g g' p q) :
      p.begun.length < UInt64.size := by
    have hlater := hs.later h hr (World.serving_iff.mp hlast).1
    exact Nat.lt_of_le_of_lt hlater.begun_prefix.length_le hlt
  refine ⟨fun next ha hn => ?_, fun n next ha hn => ?_⟩
  · obtain ⟨o, hgo, hgs, hmade⟩ := World.readAll_run h hr ha hn
    obtain ⟨p, q, hsaw⟩ := hmade.saw h hr (hgs ▸ Gauge.counters_nodup)
      (hgs ▸ Gauge.counters_inOrder) hfirst hlast
    refine ⟨o, p, q, hgo, hsaw, ?_⟩
    obtain ⟨_, _, _, w, w', -, hw, hw', hp, hq⟩ := hsaw.moments
    rw [Observation.number_of_lookup hsaw.first, Observation.number_of_lookup hsaw.second]
    exact metric_panicked_le_add (h.run hw) hw' hp hq (hbegun hsaw)
  · obtain ⟨o, hgo, hgs, hmade⟩ := World.readAll_run h hr ha hn
    refine ⟨o, hgo, fun i hi => ?_⟩
    obtain ⟨p, q, hsaw⟩ := hmade.saw h hr (hgs ▸ Gauge.ofWorkers_nodup n)
      (hgs ▸ Gauge.ofWorkers_inOrder hi) hfirst hlast
    refine ⟨p, q, hsaw, ?_⟩
    obtain ⟨_, _, _, w, w', -, hw, hw', hp, hq⟩ := hsaw.moments
    rw [Observation.number_of_lookup hsaw.first, Observation.number_of_lookup hsaw.second]
    exact worker_panicked_le_add (h.run hw) hw' hp hq (hbegun hsaw) i

/-- A thread that makes a pool of one worker and submits two tasks that panic. -/
def doomed : Program :=
  .call (.start (Config.withThreads 1)) fun _ =>
    .submit 0 "first" (.panic (.literal "one")) fun _ =>
      .submit 0 "second" (.panic (.literal "two")) fun _ => .finish []

/-- A thread that reads these figures of the pool and answers with them. -/
def onlooker (gs : List Gauge) : Program := .readAll 0 gs fun o => .finish (o.map Prod.snd)

/-- The run in which the worker has executed the first task and counted the panic of the second; two
    threads are there to read. -/
def doomedSteps : List Label :=
  .fork doomed :: moves (.caller 0) 12 ++ moves (.worker 0 0) 26 ++
    [.fork (onlooker Gauge.counters), .fork (onlooker (Gauge.ofWorkers 1))]

/-- One execution and two panics, in the metrics and of the worker: it had not counted the second
    execution when the executions were read. -/
theorem panics_exceed_executions : ∃ w : World,
    (World.initial true {}).run (doomedSteps ++ moves (.caller 1) 7 ++ moves (.caller 2) 2) =
      some w ∧
    (w.callers[1]?).bind (·.answers?) = some [.number 1, .number 0, .number 2, .number 0, .number 2,
      .number 0, .number 0] ∧
    (w.callers[2]?).bind (·.answers?) = some [.number 1, .number 2] := by
  have hrun : (((World.initial true {}).run
      (doomedSteps ++ moves (.caller 1) 7 ++ moves (.caller 2) 2)).any fun w =>
        decide ((w.callers[1]?).bind (·.answers?) = some [.number 1, .number 0, .number 2,
            .number 0, .number 2, .number 0, .number 0] ∧
          (w.callers[2]?).bind (·.answers?) = some [.number 1, .number 2])) = true := by decide
  obtain ⟨w, hw, hrun⟩ := (Option.any_eq_true ..).mp hrun
  exact ⟨w, hw, of_decide_eq_true hrun⟩

/-- The second panic is that of the one worker whose last task is not counted as executed. -/
theorem panics_le_executions_add_when_doomed : ∃ u : World, u.Reachable ∧
    (∃ (v : World) (o : Observation) (p q : Pool), u.run (moves (.caller 1) 7) = some v ∧
      v.activity? (.caller 1) = some (.going (.finish (o.map Prod.snd))) ∧
      o.Saw u (moves (.caller 1) 7) 0 (.metric .executed) (.metric .panicked) p q ∧
      o.number (.metric .panicked) ≤ o.number (.metric .executed) +
        p.owing WorkerStage.isUnrecorded + (q.failures.length - p.failures.length)) ∧
    ∃ (v : World) (o : Observation) (p q : Pool), u.run (moves (.caller 2) 2) = some v ∧
      v.activity? (.caller 2) = some (.going (.finish (o.map Prod.snd))) ∧
      o.Saw u (moves (.caller 2) 2) 0 (.workerExecuted 0) (.workerPanicked 0) p q ∧
      o.number (.workerPanicked 0) ≤ o.number (.workerExecuted 0) +
        (p.owes WorkerStage.isUncounted 0).toNat + (q.failuresBy 0 - p.failuresBy 0) := by
  obtain ⟨u, hu⟩ : ∃ u, (World.initial true {}).run doomedSteps = some u :=
    Option.isSome_iff_exists.mp (by decide)
  have h : u.Reachable := (World.Reachable.initial true {}).run hu
  have hready (ls : List Label) (hc : ((World.initial true {}).run doomedSteps).any (fun u =>
      (u.serving? 0).isSome && (u.run ls).any fun v =>
        (v.serving? 0).any fun p => p.begun.length = 2) = true) :
      ∃ first v last, u.serving? 0 = some first ∧ u.run ls = some v ∧
        v.serving? 0 = some last ∧ last.begun.length < UInt64.size := by
    rw [hu, Option.any_some, Bool.and_eq_true] at hc
    obtain ⟨first, hfirst⟩ := Option.isSome_iff_exists.mp hc.1
    obtain ⟨v, hv, hc⟩ := (Option.any_eq_true ..).mp hc.2
    obtain ⟨last, hlast, hc⟩ := (Option.any_eq_true ..).mp hc
    refine ⟨first, v, last, hfirst, hv, hlast, ?_⟩
    rw [of_decide_eq_true hc]
    decide
  have hone : ((World.initial true {}).run doomedSteps).bind (·.activity? (.caller 1)) =
      some (.going (onlooker Gauge.counters)) := rfl
  have htwo : ((World.initial true {}).run doomedSteps).bind (·.activity? (.caller 2)) =
      some (.going (onlooker (Gauge.ofWorkers 1))) := rfl
  rw [hu, Option.bind_some] at hone htwo
  refine ⟨u, h, ?_, ?_⟩
  · obtain ⟨first, v, last, hfirst, hr, hlast, hlt⟩ := hready (moves (.caller 1) 7) (by decide)
    obtain ⟨hmetrics, -⟩ := panics_le_executions_add h hr hfirst hlast hlt
    obtain ⟨o, p, q, hgo, hsaw, hle⟩ := hmetrics _ hone (by decide)
    exact ⟨v, o, p, q, hr, hgo, hsaw, hle⟩
  · obtain ⟨first, v, last, hfirst, hr, hlast, hlt⟩ := hready (moves (.caller 2) 2) (by decide)
    obtain ⟨-, hworkers⟩ := panics_le_executions_add h hr hfirst hlast hlt
    obtain ⟨o, hgo, hall⟩ := hworkers 1 _ htwo (by decide)
    obtain ⟨p, q, hsaw, hle⟩ := hall 0 (by decide)
    exact ⟨v, o, p, q, hr, hgo, hsaw, hle⟩

end WorkerPool
