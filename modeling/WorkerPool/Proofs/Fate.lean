import Mathlib.Algebra.BigOperators.Ring.Finset
import WorkerPool.Proofs.Shutdown

/-!
# The fate of a task

A task that a queue has taken is at one place: in the queue, in the hands of one worker that has
not begun it, begun once, or thrown away once. Two accounts say so, one of where every task is that
a thread came with, one of the answers that the threads get.

* `Pool.waiting`, `Pool.holders`, `Pool.starts`, `Pool.losses` -- the places, counted;
* `Pool.whereabouts`, `Pool.answers`, `Pool.runs` -- the accounts;
* `Pool.traced` -- nothing is in the pool that was not accepted, and nothing accepted is thrown away
  before the pool is halted;
* `one_fate` -- every accepted task is at exactly one place, and no refused task at any.
-/

namespace WorkerPool

/-! ## 1. Places -/

/-- The start of this task. -/
@[simp]
def Happening.starts (t : TaskId) : Happening → Bool
  | .started u _ _ => u = t
  | _ => false

/-- The end of this task. -/
@[simp]
def Happening.ends (t : TaskId) : Happening → Bool
  | .ended u _ => u = t
  | _ => false

/-- The end of this task before its start. -/
@[simp]
def Happening.drops (t : TaskId) : Happening → Bool
  | .dropped u _ => u = t
  | _ => false

/-- The worker has taken this task and not begun it. -/
@[simp]
def WorkerStage.holds (t : TaskId) : WorkerStage → Bool
  | .rechecking task | .abandoning task | .discarding task | .ready task => task.id = t
  | _ => false

/-- The worker is inside this task. -/
@[simp]
def WorkerStage.runs (t : TaskId) : WorkerStage → Bool
  | .running job _ => job.id = t
  | _ => false

/-- The call is about this task and has no answer yet. -/
@[simp]
def CallStage.submits (t : TaskId) : CallStage → Bool
  | .checking task | .pushing task => task.id = t
  | .refusing id _ | .rejecting id _ => id = t
  | _ => false

/-- The answer to the call will be that this task is refused. -/
@[simp]
def CallStage.denies (t : TaskId) : CallStage → Bool
  | .refusing id _ | .rejecting id _ => id = t
  | _ => false

/-- The call still has this task. -/
@[simp]
def CallStage.carries (t : TaskId) : CallStage → Bool
  | .checking task | .pushing task => task.id = t
  | .refusing _ kept | .rejecting _ kept => kept.any fun task => task.id = t
  | _ => false

/-- The tasks that the call has taken out of the queue and not thrown away yet. -/
@[simp]
def CallStage.removed : CallStage → List Task
  | .tallying _ _ tasks | .recording _ _ tasks | .discarding _ _ tasks => tasks
  | _ => []

/-- How often this task is among these. -/
def Task.among (t : TaskId) (tasks : List Task) : Nat := tasks.countP fun task => task.id = t

namespace Pool

/-- How often the task is in the queue. -/
def waiting (p : Pool) (t : TaskId) : Nat := Task.among t p.queue.items

/-- How many workers hold the task and have not begun it. -/
def holders (p : Pool) (t : TaskId) : Nat := p.stages.countP (WorkerStage.holds t)

/-- How many workers are inside the task. -/
def runners (p : Pool) (t : TaskId) : Nat := p.stages.countP (WorkerStage.runs t)

/-- How often the task has been started. -/
def starts (p : Pool) (t : TaskId) : Nat := p.trace.countP (Happening.starts t)

/-- How often the task has ended. -/
def ends (p : Pool) (t : TaskId) : Nat := p.trace.countP (Happening.ends t)

/-- How often the task has been thrown away. -/
def drops (p : Pool) (t : TaskId) : Nat := p.trace.countP (Happening.drops t)

/-- How often shutdowns have the task in their hands, to throw it away. -/
def removals (p : Pool) (t : TaskId) : Nat := (p.calls.map fun c => Task.among t c.2.removed).sum

/-- How often the task has been thrown away or is about to be. -/
def losses (p : Pool) (t : TaskId) : Nat := p.removals t + p.drops t

/-- The task was refused, or the answer to its submission will be that it is. -/
def Denies (p : Pool) (t : TaskId) : Prop :=
  .refused t ∈ p.trace ∨ ∃ c ∈ p.calls, c.2.denies t = true

/-- Nobody holds the pool any more, and a panic drove every worker of it out. -/
def Forsaken (p : Pool) : Prop :=
  p.life = .released ∧ ∀ s ∈ p.stages, s = .finished true

/-! ## 2. Accounts -/

/-- Where a task is, less how often a thread came with it. -/
def whereabouts (t : TaskId) : Account ℤ where
  shared p := p.waiting t + p.starts t + p.drops t - p.trace.count (.offered t)
  worker s := if s.holds t then 1 else 0
  call s := (if s.carries t then 1 else 0) + Task.among t s.removed

/-- The answers about a task, less how often a thread came with it. -/
def answers (t : TaskId) : Account ℤ where
  shared p := p.trace.count (.accepted t) + p.trace.count (.refused t) -
    p.trace.count (.offered t)
  worker _ := 0
  call s := if s.submits t then 1 else 0

/-- Starts of a task, less its ends. -/
def runs (t : TaskId) : Account ℤ where
  shared p := p.starts t - p.ends t
  worker s := if s.runs t then -1 else 0
  call _ := 0

/-- What is thrown away with the queue is the only thing that the end of a pool leaves. -/
theorem countP_reclaim {p q : Pool} (h : p.reclaim = some q) {f : Happening → Bool}
    (hf : ∀ t label, f (.dropped t label) = false) : q.trace.countP f = p.trace.countP f := by
  obtain ⟨-, -, rfl⟩ := reclaim_cases h
  rw [List.countP_append, List.countP_eq_zero.mpr fun e he => ?_, Nat.zero_add]
  obtain ⟨task, -, rfl⟩ := List.mem_map.mp (List.mem_reverse.mp he)
  simp [hf]

theorem runs_balanced (t : TaskId) : (runs t).Balanced fun _ => True where
  work _ _ h := by
    cases h with
    | begins | returns | panics =>
        simp [runs, starts, ends, List.countP_cons]
        split <;> omega
    | _ => simp [runs, starts, ends]
  call _ h := by
    cases h with
    | findsDraining why | concludes why | reports why | breaksOff why =>
        cases why <;> simp [runs, starts, ends]
    | _ => simp [runs, starts, ends]
  enter _ h := by cases h <;> simp [runs, starts, ends]
  reclaim _ h := by
    simp only [runs, starts, ends]
    rw [countP_reclaim h fun _ _ => rfl, countP_reclaim h fun _ _ => rfl]
  wake _ _ := rfl
  starting := rfl

theorem answers_balanced (t : TaskId) : (answers t).Balanced fun _ => True where
  work _ _ h := by cases h <;> simp [answers]
  call _ h := by
    cases h with
    | pushes | countsRejected | countsRejectedKept =>
        -- the answer is there, and the call that waited for it is not
        simp [answers, List.count_cons]
        split <;> omega
    | findsDraining why | concludes why | reports why | breaksOff why =>
        cases why <;> simp [answers]
    | _ => simp [answers]
  enter _ h := by
    cases h with
    | offers task hf =>
        simp [answers, List.count_cons]
        split <;> omega
    | asks mode => cases mode <;> simp [answers]
    | givesUp => simp [answers]
  reclaim _ h := by
    simp only [answers, List.count]
    rw [countP_reclaim h fun _ _ => rfl, countP_reclaim h fun _ _ => rfl,
      countP_reclaim h fun _ _ => rfl]
  wake _ _ := rfl
  starting := rfl

theorem whereabouts_balanced (t : TaskId) : (whereabouts t).Balanced fun _ => True where
  work _ _ h := by
    cases h with
    | pops task queue hs hq =>
        have hi := (Queue.attempt_item hq).1
        simp [whereabouts, waiting, starts, drops, Task.among, hi, List.countP_cons]
        split <;> omega
    | findsNothing queue hs hq =>
        have hi := (Queue.attempt_nothingMore hq).2.2.1
        simp [whereabouts, waiting, starts, drops, hi]
    | sleeps queue hs hq =>
        have hi := (Queue.attempt_sleep hq).2.2.1
        simp [whereabouts, waiting, starts, drops, hi]
    | begins | discards =>
        simp [whereabouts, waiting, starts, drops, List.countP_cons]
        split <;> omega
    | _ => simp [whereabouts, waiting, starts, drops]
  call _ h := by
    cases h with
    | pushes task choice ha =>
        have hi := (Queue.push_of_accepting ha task choice).1
        simp [whereabouts, waiting, starts, drops, Task.among, hi, List.countP_append,
          List.countP_cons]
        split <;> omega
    | pushesTooLate | countsRejectedKept =>
        -- the caller's last hold on the task is given up
        simp [whereabouts, waiting, starts, drops, Task.among, List.countP_cons]
        split <;> omega
    | refuses id kept => cases kept <;> simp [whereabouts, waiting, starts, drops, Task.among]
    | findsEmpty why joined hi => simp [whereabouts, waiting, starts, drops, Task.among, hi]
    | empties =>
        simp [whereabouts, waiting, starts, drops, Task.among]
        omega
    | discards =>
        simp [whereabouts, waiting, starts, drops, Task.among, List.countP_cons]
        omega
    | findsDraining why | concludes why | reports why | breaksOff why =>
        cases why <;> simp [whereabouts, waiting, starts, drops, Task.among]
    | _ => simp [whereabouts, waiting, starts, drops, Task.among]
  enter _ h := by
    cases h with
    | offers task hf =>
        simp [whereabouts, waiting, starts, drops, Task.among, List.count_cons]
        split <;> omega
    | asks mode => cases mode <;> simp [whereabouts, Task.among]
    | givesUp => simp [whereabouts, waiting, starts, drops, Task.among]
  reclaim _ h := by
    have hs := countP_reclaim h (f := Happening.starts t) fun _ _ => rfl
    have ho := countP_reclaim h (f := (· == .offered t)) fun _ _ => rfl
    obtain ⟨-, -, rfl⟩ := reclaim_cases h
    simp only [whereabouts, waiting, starts, drops, List.count, hs, ho]
    -- what was in the queue has been thrown away
    simp [Task.among, List.countP_map, Function.comp_def]
    omega
  wake p i := by simp [whereabouts, waiting, starts, drops]
  starting := rfl

/-! ## 3. The accounts in reachable worlds -/

/-- The accounts of every task come to zero, and every place fits. -/
structure Accounted (p : Pool) : Prop where
  place : ∀ t, (whereabouts t).total p = 0
  answer : ∀ t, (answers t).total p = 0
  run : ∀ t, (runs t).total p = 0
  exited : exits.total p = 0
  orderly : orderly.Holds p

theorem Blank.countP_trace {p : Pool} (hb : Blank p) (f : Happening → Bool)
    (hf : ∀ e, f (.event e) = false) : p.trace.countP f = 0 := by
  refine List.countP_eq_zero.mpr fun h hm => ?_
  obtain ⟨e, rfl⟩ := hb.trace h hm
  simp [hf]

theorem whereabouts_blank (t : TaskId) {p : Pool} (hb : Blank p) : (whereabouts t).total p = 0 := by
  refine Account.total_blank hb ?_ fun _ => rfl
  have hs : p.starts t = 0 := hb.countP_trace _ fun _ => rfl
  have hd : p.drops t = 0 := hb.countP_trace _ fun _ => rfl
  have ho : p.trace.count (.offered t) = 0 := hb.countP_trace _ fun _ => rfl
  have hw : p.waiting t = 0 := by rw [waiting, hb.queue]; rfl
  simp [whereabouts, hs, hd, ho, hw]

theorem answers_blank (t : TaskId) {p : Pool} (hb : Blank p) : (answers t).total p = 0 := by
  refine Account.total_blank hb ?_ fun _ => rfl
  have ha : p.trace.count (.accepted t) = 0 := hb.countP_trace _ fun _ => rfl
  have hr : p.trace.count (.refused t) = 0 := hb.countP_trace _ fun _ => rfl
  have ho : p.trace.count (.offered t) = 0 := hb.countP_trace _ fun _ => rfl
  simp [answers, ha, hr, ho]

theorem runs_blank (t : TaskId) {p : Pool} (hb : Blank p) : (runs t).total p = 0 := by
  refine Account.total_blank hb ?_ fun _ => rfl
  have hs : p.starts t = 0 := hb.countP_trace _ fun _ => rfl
  have he : p.ends t = 0 := hb.countP_trace _ fun _ => rfl
  simp [runs, hs, he]

theorem accounted_invariant : Invariant Accounted := by
  have hplace := Invariant.forall fun t =>
    (whereabouts_balanced t).invariant_always fun _ => whereabouts_blank t
  have hanswer := Invariant.forall fun t =>
    (answers_balanced t).invariant_always fun _ => answers_blank t
  have hrun := Invariant.forall fun t => (runs_balanced t).invariant_always fun _ => runs_blank t
  refine ((hplace.and hanswer).and (hrun.and (orderly_kept.invariant exits_invariant))).congr
    fun p => ⟨?_, fun h => ?_⟩
  · rintro ⟨⟨hp, ha⟩, hr, ⟨-, hx⟩, ho⟩
    exact ⟨fun t => (hp t).2, fun t => (ha t).2, fun t => (hr t).2, hx, ho⟩
  · have hf := h.orderly.toFormed
    exact ⟨⟨fun t => ⟨hf, h.place t⟩, fun t => ⟨hf, h.answer t⟩⟩, fun t => ⟨hf, h.run t⟩,
      ⟨hf, h.exited⟩, h.orderly⟩

/-- The accounts written out. -/
theorem Accounted.place_eq {p : Pool} (h : Accounted p) (t : TaskId) :
    (p.waiting t + p.holders t + p.starts t + p.losses t +
      (p.calls.countP fun c => c.2.carries t) : Nat) = p.trace.count (.offered t) := by
  have ht := h.place t
  have hw : (whereabouts t).ofWorkers p = p.holders t := by
    rw [Account.ofWorkers, whereabouts, sum_map_ite, nsmul_one, holders]
  have hc : (whereabouts t).ofCalls p =
      (p.calls.countP fun c => c.2.carries t : ℕ) + (p.removals t : ℕ) := by
    rw [Account.ofCalls, whereabouts, List.sum_map_add, sum_map_ite, nsmul_one, removals,
      Nat.cast_list_sum, List.map_map]
    rfl
  have hs : (whereabouts t).shared p =
    p.waiting t + p.starts t + p.drops t - p.trace.count (.offered t) := rfl
  rw [Account.total, hs, hw, hc] at ht
  rw [losses]
  omega

theorem Accounted.answer_eq {p : Pool} (h : Accounted p) (t : TaskId) :
    p.trace.count (.accepted t) + p.trace.count (.refused t) +
      (p.calls.countP fun c => c.2.submits t) = p.trace.count (.offered t) := by
  have ht := h.answer t
  have hw : (answers t).ofWorkers p = 0 := by simp [Account.ofWorkers, answers]
  have hc : (answers t).ofCalls p = (p.calls.countP fun c => c.2.submits t : ℕ) := by
    rw [Account.ofCalls, answers, sum_map_ite, nsmul_one]
  have hs : (answers t).shared p = p.trace.count (.accepted t) + p.trace.count (.refused t) -
    p.trace.count (.offered t) := rfl
  rw [Account.total, hs, hw, hc] at ht
  omega

theorem Accounted.run_eq {p : Pool} (h : Accounted p) (t : TaskId) :
    p.starts t = p.ends t + p.runners t := by
  have ht := h.run t
  have hw : (runs t).ofWorkers p = -(p.runners t : ℤ) := by
    rw [Account.ofWorkers, runs, sum_map_ite, runners, nsmul_eq_mul, mul_neg_one]
  have hc : (runs t).ofCalls p = 0 := by simp [Account.ofCalls, runs]
  have hs : (runs t).shared p = p.starts t - p.ends t := rfl
  rw [Account.total, hs, hw, hc] at ht
  omega

/-! ## 4. Nothing comes from nowhere -/

/-- What is in the queue or was started was accepted, no task comes twice, and an accepted task is
    thrown away only when the pool is halted or nobody is left who could run it. -/
structure Traced (p : Pool) : Prop where
  queued : ∀ task ∈ p.queue.items, .accepted task.id ∈ p.trace
  started : ∀ {t : TaskId} {label : String} {i : Nat}, .started t label i ∈ p.trace →
    .accepted t ∈ p.trace
  offered : ∀ t, p.trace.count (.offered t) ≤ 1
  dropped : ∀ {t : TaskId} {label : String}, .dropped t label ∈ p.trace → .accepted t ∈ p.trace →
    p.halt = true ∨ p.Forsaken

/-- Workers hold accepted tasks, and a task that is kept is the one that is refused. -/
def traced : Assertion where
  shared := Traced
  worker p s := ∀ t, s.holds t = true → .accepted t ∈ p.trace
  call _ _
    | .refusing id kept | .rejecting id kept => ∀ task, kept = some task → task.id = id
    | _ => True

/-- A call that still has a task is asking about it. -/
theorem submits_of_carries {p : Pool} (hp : traced.Holds p) {c : ThreadId × CallStage}
    (hc : c ∈ p.calls) {t : TaskId} (h : c.2.carries t = true) : c.2.submits t = true := by
  have hkept := hp.calls c hc
  obtain ⟨thread, s⟩ := c
  cases s with
  | refusing id kept | rejecting id kept =>
      obtain ⟨task, hk, he⟩ := (Option.any_eq_true ..).mp h
      have := hkept task hk
      simpa [← this] using he
  | checking | pushing => exact h
  | _ => cases h

/-- Who is still asking has no answer: the task was not accepted, and nobody else has it. -/
theorem Accounted.submitting {p : Pool} (h : Accounted p) (ho : ∀ t, p.trace.count (.offered t) ≤ 1)
    {t : TaskId} {c : ThreadId × CallStage} (hc : c ∈ p.calls) (hs : c.2.submits t = true) :
    .accepted t ∉ p.trace ∧ .refused t ∉ p.trace := by
  have hpos : 0 < p.calls.countP fun c => c.2.submits t := List.countP_pos_iff.mpr ⟨c, hc, hs⟩
  have := h.answer_eq t
  have := ho t
  exact ⟨List.count_eq_zero.mp (by omega), List.count_eq_zero.mp (by omega)⟩

theorem Accounted.carrying {p : Pool} (h : Accounted p) (ho : ∀ t, p.trace.count (.offered t) ≤ 1)
    {t : TaskId} {c : ThreadId × CallStage} (hc : c ∈ p.calls) (hs : c.2.carries t = true)
    (label : String) : .dropped t label ∉ p.trace := by
  intro hd
  have hpos : 0 < p.calls.countP fun c => c.2.carries t := List.countP_pos_iff.mpr ⟨c, hc, hs⟩
  have hdrop : 0 < p.drops t :=
    List.countP_pos_iff.mpr ⟨_, hd, by simp⟩
  have hplace := h.place_eq t
  have := ho t
  rw [losses] at hplace
  omega

theorem Forsaken.later {p q : Pool} (h : Forsaken p) (hp : p.draining = true) (hl : Later p q) :
    Forsaken q := by
  have he : p.AllExited := fun s hs => by rw [h.2 s hs]; rfl
  refine ⟨hl.released h.1, ?_⟩
  rw [hl.stages_eq hp he]
  exact h.2

/-- A worker takes its tasks from the queue. -/
theorem WorkerMove.holds {p q : Pool} {i : Nat} {s s' : WorkerStage} (h : WorkerMove p i s q s')
    {t : TaskId} (ht : s'.holds t = true) :
    s.holds t = true ∨ ∃ task ∈ p.queue.items, task.id = t := by
  cases h with
  | pops task queue hs hq =>
      obtain ⟨hi, -⟩ := Queue.attempt_item hq
      exact .inr ⟨task, by simp [hi], by simpa using ht⟩
  | popsTooLate | popsInTime | abandons => exact .inl ht
  | _ => cases ht

theorem WorkerMove.items {p q : Pool} {i : Nat} {s s' : WorkerStage} (h : WorkerMove p i s q s') :
    ∀ task ∈ q.queue.items, task ∈ p.queue.items := by
  intro task ht
  cases h with
  | pops task' queue hs hq =>
      obtain ⟨hi, -⟩ := Queue.attempt_item hq
      rw [hi]
      exact List.mem_cons_of_mem _ ht
  | findsNothing queue hs hq =>
      obtain ⟨-, -, hi, -⟩ := Queue.attempt_nothingMore hq
      exact hi ▸ ht
  | sleeps queue hs hq =>
      obtain ⟨-, -, hi, -⟩ := Queue.attempt_sleep hq
      exact hi ▸ ht
  | _ => exact ht

theorem WorkerMove.started {p q : Pool} {i : Nat} {s s' : WorkerStage} (h : WorkerMove p i s q s')
    {t : TaskId} {label : String} {j : Nat} (hm : .started t label j ∈ q.trace) :
    .started t label j ∈ p.trace ∨ s.holds t = true := by
  cases h with
  | begins task waited since =>
      rcases List.mem_cons.mp hm with e | hm
      · cases e
        exact .inr (by simp)
      · exact .inl hm
  | _ => exact .inl (by simpa using hm)

theorem WorkerMove.dropped {p q : Pool} {i : Nat} {s s' : WorkerStage} (h : WorkerMove p i s q s')
    {t : TaskId} {label : String} (hm : .dropped t label ∈ q.trace) :
    .dropped t label ∈ p.trace ∨ ∃ task, s = .discarding task := by
  cases h with
  | discards task => exact .inr ⟨task, rfl⟩
  | _ => exact .inl (by simpa using hm)

theorem WorkerMove.asked {p q : Pool} {i : Nat} {s s' : WorkerStage} (h : WorkerMove p i s q s')
    (t : TaskId) : q.trace.count (.offered t) = p.trace.count (.offered t) := by
  cases h <;> simp

theorem CallMove.asked {p q : Pool} {thread : ThreadId} {s : CallStage} {next : CallStep}
    (h : CallMove p thread s q next) (t : TaskId) :
    q.trace.count (.offered t) = p.trace.count (.offered t) := by
  cases h <;> simp

/-- What a call throws away it had, or it had taken it out of the queue. -/
theorem CallMove.dropped {p q : Pool} {thread : ThreadId} {s : CallStage} {next : CallStep}
    (h : CallMove p thread s q next) {t : TaskId} {label : String}
    (hm : .dropped t label ∈ q.trace) :
    .dropped t label ∈ p.trace ∨ s.carries t = true ∨
      ∃ why joined removed, s = .discarding why joined removed := by
  cases h with
  | pushesTooLate | countsRejectedKept =>
      rcases List.mem_cons.mp hm with e | hm
      · cases e
        exact .inr (.inl (by simp))
      · exact .inl (by simpa using hm)
  | discards why joined task rest => exact .inr (.inr ⟨why, joined, _, rfl⟩)
  | _ => exact .inl (by simpa using hm)

/-- A task that is kept is the one that is refused. -/
theorem CallMove.kept {p q : Pool} {thread : ThreadId} {s s' : CallStage}
    (h : CallMove p thread s q (.stage s')) (hs : traced.call p thread s) :
    traced.call q thread s' := by
  generalize hn : CallStep.stage s' = next at h
  cases h with
  | mayNotPush task =>
      cases hn
      intro _ h
      cases h
      rfl
  | pushesTooLate => cases hn; exact fun _ h => by cases h
  | refuses => cases hn; exact hs
  | findsDraining why | concludes why | reports why | breaksOff why =>
      cases why <;> cases hn
      all_goals trivial
  | _ =>
      cases hn
      all_goals trivial

/-- The queue takes what is pushed, and that is then accepted. -/
theorem CallMove.items {p q : Pool} {thread : ThreadId} {s : CallStage} {next : CallStep}
    (h : CallMove p thread s q next) :
    ∀ task ∈ q.queue.items, task ∈ p.queue.items ∨ .accepted task.id ∈ q.trace := by
  intro task ht
  cases h with
  | pushes task' choice ha =>
      have hi := (Queue.push_of_accepting ha task' choice).1
      rcases List.mem_append.mp (hi ▸ ht) with ht | ht
      · exact .inl ht
      · rw [List.mem_singleton.mp ht]
        exact .inr List.mem_cons_self
  | findsEmpty | empties => exact absurd ht List.not_mem_nil
  | _ => exact .inl ht

theorem CallMove.accepted {p q : Pool} {thread : ThreadId} {s : CallStage} {next : CallStep}
    (h : CallMove p thread s q next) {t : TaskId} (hm : .accepted t ∈ q.trace) :
    .accepted t ∈ p.trace ∨
      s.carries t = true ∧ ∀ label, .dropped t label ∈ q.trace → .dropped t label ∈ p.trace := by
  cases h with
  | pushes task choice ha =>
      rcases List.mem_cons.mp hm with e | hm
      · cases e
        exact .inr ⟨by simp, fun label hd => by simpa using hd⟩
      · exact .inl hm
  | _ => exact .inl (by simpa using hm)

/-- What is traced stays so if the queue gets only accepted tasks, every start is of an accepted
    task, and nothing is thrown away without excuse. -/
theorem Traced.later {p q : Pool} (h : Traced p) (hp : orderly.Holds p) (hl : Later p q)
    (hq : ∀ task ∈ q.queue.items, task ∈ p.queue.items ∨ .accepted task.id ∈ q.trace)
    (hs : ∀ {t label i}, .started t label i ∈ q.trace →
      .started t label i ∈ p.trace ∨ .accepted t ∈ q.trace)
    (ho : ∀ t, q.trace.count (.offered t) ≤ 1)
    (hd : ∀ {t label}, .dropped t label ∈ q.trace → .accepted t ∈ q.trace →
      .dropped t label ∈ p.trace ∧ .accepted t ∈ p.trace ∨ q.halt = true ∨ q.Forsaken) :
    Traced q where
  queued task ht := (hq task ht).elim (fun ht => hl.mem_trace (h.queued task ht)) fun h => h
  started hm := (hs hm).elim (fun hm => hl.mem_trace (h.started hm)) fun h => h
  offered := ho
  dropped hm ha := by
    rcases hd hm ha with ⟨hm, ha⟩ | hx
    · rcases h.dropped hm ha with hh | hf
      · exact .inl (hl.halt hh)
      · exact .inr (hf.later (hp.shared.released hf.1) hl)
    · exact hx

theorem traced_blank {p : Pool} (hb : Blank p) : Traced p where
  queued task ht := by
    rw [hb.queue] at ht
    exact absurd ht List.not_mem_nil
  started hm := absurd hm (hb.not_mem fun _ e => by cases e)
  offered t := by
    have hzero : p.trace.count (.offered t) = 0 := hb.countP_trace _ fun _ => rfl
    rw [hzero]
    exact Nat.zero_le 1
  dropped hm := absurd hm (hb.not_mem fun _ e => by cases e)

/-- A worker takes accepted tasks only, and throws a task away only when the pool is halted. -/
theorem traced_work {p q : Pool} {i : Nat} {s s' : WorkerStage} (hI : Accounted p)
    (hp : traced.Holds p) (hs : p.stages[i]? = some s) (h : WorkerMove p i s q s')
    (hl : Later p q) : traced.worker q s' ∧ Traced q := by
  have hheld : ∀ t, s.holds t = true → .accepted t ∈ p.trace :=
    hp.workers s (List.mem_of_getElem? hs)
  have hfits : s.Fits p := hI.orderly.workers s (List.mem_of_getElem? hs)
  refine ⟨?_, hp.shared.later hI.orderly hl ?_ ?_ ?_ ?_⟩
  · intro t ht
    rcases h.holds ht with ht | ⟨task, hmem, rfl⟩
    · exact hl.mem_trace (hheld t ht)
    · exact hl.mem_trace (hp.shared.queued task hmem)
  · intro task ht
    exact .inl (h.items task ht)
  · intro t label j hm
    rcases h.started hm with hm | ht
    · exact .inl hm
    · exact .inr (hl.mem_trace (hheld t ht))
  · intro t
    rw [h.asked t]
    exact hp.shared.offered t
  · intro t label hm ha
    rcases h.dropped hm with hm | ⟨task, rfl⟩
    · obtain ⟨new, e, hnew⟩ := h.trace
      rw [e] at ha
      exact .inl ⟨hm, (List.mem_append.mp ha).resolve_left (hnew t)⟩
    · -- a worker gives a task up only after it has seen the halt flag
      exact .inr (.inl (hl.halt hfits))

/-- A call starts nothing. What it throws away was refused, or an immediate shutdown had it. -/
theorem traced_call {p q : Pool} {thread : ThreadId} {s : CallStage} {next : CallStep}
    (hI : Accounted p) (hp : traced.Holds p) (hm : (thread, s) ∈ p.calls)
    (h : CallMove p thread s q next) (hl : Later p q) :
    (∀ s', next = .stage s' → traced.call q thread s') ∧ Traced q := by
  have hfits : s.Fits p thread := hI.orderly.calls _ hm
  have hone := hp.shared.offered
  refine ⟨?_, hp.shared.later hI.orderly hl h.items ?_ ?_ ?_⟩
  · intro s' hn
    subst hn
    exact h.kept (hp.calls _ hm)
  · intro t label i hs
    obtain ⟨new, e, -, hnew⟩ := h.trace
    rw [e] at hs
    exact .inl ((List.mem_append.mp hs).resolve_left (hnew t label i))
  · intro t
    rw [h.asked t]
    exact hone t
  · intro t label hd ha
    rcases h.accepted ha with ha | ⟨hc, hsame⟩
    · rcases h.dropped hd with hd | hc | ⟨why, joined, removed, rfl⟩
      · exact .inl ⟨hd, ha⟩
      · -- what the call has brought was not accepted
        have hno := (hI.submitting hone hm (submits_of_carries hp hm hc)).1
        exact absurd ha hno
      · exact .inr (.inl (hl.halt (hfits.halt rfl)))
    · -- what is accepted now was not thrown away before
      have hno := hI.carrying hone hm hc label
      exact absurd (hsame label hd) hno

theorem traced_enter {p q : Pool} {s : CallStage} (hI : Accounted p) (hp : traced.Holds p)
    (hlife : p.life = .serving) (h : Entry p q s) :
    (∀ thread, traced.call q thread s) ∧ Traced q := by
  have hl := h.later hlife
  cases h with
  | offers task hf =>
      refine ⟨fun _ => trivial, hp.shared.later hI.orderly hl ?_ ?_ ?_ ?_⟩
      · intro task' ht
        exact .inl ht
      · intro t label i hs
        exact .inl (by simpa using hs)
      · -- nobody has come with this task before
        intro t
        rw [log, List.count_cons]
        split
        · next he =>
          obtain rfl : task.id = t := by simpa using he
          rw [List.count_eq_zero.mpr hf]
        · exact hp.shared.offered t
      · intro t label hd ha
        exact .inl ⟨by simpa using hd, by simpa using ha⟩
  | asks mode => exact ⟨fun _ => by cases mode <;> trivial, hp.shared⟩
  | givesUp hc =>
      exact ⟨fun _ => trivial, hp.shared.later hI.orderly hl (fun _ ht => .inl ht) .inl
        hp.shared.offered fun hd ha => .inl ⟨hd, ha⟩⟩

/-- Of a pool that is not halted only the panics of all its workers leave a task in the queue. -/
theorem crashed_of_left {p : Pool} (ho : orderly.Holds p) (hh : ¬ p.halt = true)
    (he : p.AllExited) (hne : p.queue.items ≠ []) : ∀ s ∈ p.stages, s = .finished true := by
  intro s hs
  have hfits : s.Fits p := ho.workers s hs
  obtain ⟨crashed, rfl⟩ := WorkerStage.isFinished_iff.mp (he s hs)
  cases crashed with
  | true => rfl
  | false =>
      -- a worker that goes on its own leaves an empty queue
      have hspent : p.Spent := hfits.resolve_left hh
      exact absurd hspent.2 hne

theorem traced_reclaim {p q : Pool} (hI : Accounted p) (hp : traced.Holds p)
    (h : p.reclaim = some q) : Traced q := by
  have hl := (Change.reclaim h).later hp.toFormed
  have ho (t : TaskId) : q.trace.count (.offered t) = p.trace.count (.offered t) :=
    countP_reclaim h fun _ _ => rfl
  obtain ⟨hlife, hfin, rfl⟩ := reclaim_cases h
  have he : p.AllExited := List.forall_mem_map.mpr hfin
  refine hp.shared.later hI.orderly hl ?_ ?_ ?_ ?_
  · intro task ht
    exact absurd ht List.not_mem_nil
  · intro t label i hs
    exact .inl (by simpa using hs)
  · intro t
    rw [ho t]
    exact hp.shared.offered t
  · intro t label hd ha
    rcases List.mem_append.mp hd with hd | hd
    · have hne : p.queue.items ≠ [] := by
        intro he
        rw [he] at hd
        exact absurd hd List.not_mem_nil
      by_cases hh : p.halt = true
      · exact .inr (.inl hh)
      · have hcrash : ∀ s ∈ p.stages, s = .finished true := crashed_of_left hI.orderly hh he hne
        exact .inr (.inr ⟨hlife, hcrash⟩)
    · exact .inl ⟨hd, by simpa using ha⟩

theorem traced_kept : traced.Kept Accounted where
  blank := traced_blank
  founding _ _ _ := trivial
  starting _ _ h := by cases h
  worker_later hl h t ht := hl.mem_trace (h t ht)
  call_later {p q thread s} _ h := h
  work := traced_work
  call := traced_call
  enter := traced_enter
  note n h := by
    refine ⟨?_, ?_, ?_, ?_⟩
    · intro task ht
      exact List.mem_cons_of_mem _ (h.queued task ht)
    · intro t label i hm
      exact List.mem_cons_of_mem _ (h.started (by simpa using hm))
    · intro t
      simpa using h.offered t
    · intro t label hm ha
      exact h.dropped (by simpa using hm) (by simpa using ha)
  wake i h := ⟨fun task ht => h.queued task (by simpa using ht), h.started, h.offered, h.dropped⟩
  reclaim := traced_reclaim
  staged s' hs hf h := by
    refine ⟨h.queued, h.started, h.offered, ?_⟩
    intro t label hm ha
    rcases h.dropped hm ha with hh | hx
    · exact .inl hh
    · -- a worker that moves has not ended
      rw [hx.2 _ (List.mem_of_getElem? hs)] at hf
      cases hf
  called calls h := ⟨h.queued, h.started, h.offered, h.dropped⟩

/-- What is said of the tasks of every pool of a reachable world. -/
theorem tasks_reachable {w : World} (h : w.Reachable) :
    ∀ p ∈ w.pools, Accounted p ∧ traced.Holds p :=
  (traced_kept.invariant accounted_invariant).reachable h

/-! ## 5. One fate -/

/-- **An accepted task is at exactly one place.** -/
theorem places_of_accepted {p : Pool} (ha : Accounted p) (ht : traced.Holds p) {t : TaskId}
    (h : .accepted t ∈ p.trace) :
    p.waiting t + p.holders t + p.starts t + p.losses t = 1 := by
  have hacc : 0 < p.trace.count (.accepted t) := List.count_pos_iff.mpr h
  have hanswer := ha.answer_eq t
  have hplace := ha.place_eq t
  have hone := ht.shared.offered t
  have hcarry : (p.calls.countP fun c => c.2.carries t) = 0 := by
    refine List.countP_eq_zero.mpr fun c hc hcar => ?_
    exact (ha.submitting ht.shared.offered hc (submits_of_carries ht hc hcar)).1 h
  omega

/-- A task that is anywhere in the pool was accepted. -/
theorem accepted_of_places {p : Pool} (ht : traced.Holds p) {t : TaskId}
    (h : 0 < p.waiting t + p.holders t + p.starts t) : .accepted t ∈ p.trace := by
  by_cases hw : 0 < p.waiting t
  · obtain ⟨task, hm, he⟩ := List.countP_pos_iff.mp hw
    obtain rfl : task.id = t := by simpa using he
    exact ht.shared.queued task hm
  · by_cases hh : 0 < p.holders t
    · obtain ⟨s, hm, he⟩ := List.countP_pos_iff.mp hh
      exact ht.workers s hm t he
    · obtain ⟨e, hm, he⟩ := List.countP_pos_iff.mp (show 0 < p.starts t by omega)
      cases e with
      | started u label i =>
          obtain rfl : u = t := by simpa using he
          exact ht.shared.started hm
      | _ => cases he

/-- An accepted task is lost only when the pool is halted, or with a pool that nobody is left in. -/
theorem excuse_of_loss {p : Pool} (ha : Accounted p) (ht : traced.Holds p) {t : TaskId}
    (h : .accepted t ∈ p.trace) (hl : 0 < p.losses t) : p.halt = true ∨ p.Forsaken := by
  by_cases hd : 0 < p.drops t
  · obtain ⟨e, hm, he⟩ := List.countP_pos_iff.mp hd
    cases e with
    | dropped u label =>
        obtain rfl : u = t := by simpa using he
        exact ht.shared.dropped hm h
    | _ => cases he
  · -- a shutdown has it in its hands, and only the immediate one takes tasks out of the queue
    by_cases hr : ∃ c ∈ p.calls, 0 < Task.among t c.2.removed
    · obtain ⟨⟨thread, s⟩, hm, hpos⟩ := hr
      have hfits := ha.orderly.calls _ hm
      cases s with
      | tallying | recording | discarding => exact .inl (hfits.halt rfl)
      | _ => cases hpos
    · have hzero : p.removals t = 0 := by
        refine List.sum_eq_zero fun n hn => ?_
        obtain ⟨c, hm, rfl⟩ := List.mem_map.mp hn
        exact Nat.eq_zero_of_not_pos fun hpos => hr ⟨c, hm, hpos⟩
      rw [losses] at hl
      omega

/-- What will be refused is refused in the end, and what was refused stays so. -/
theorem Denies.change {p q : Pool} (hp : Formed p) {t : TaskId} (h : p.Denies t)
    (hc : Change p q) : q.Denies t := by
  rcases h with h | ⟨⟨thread, s⟩, hm, hd⟩
  · exact .inl ((hc.later hp).mem_trace h)
  rcases hc.call_cases hp hm with hm' | ⟨r, next, h, rfl⟩
  · exact .inr ⟨_, hm', hd⟩
  · obtain ⟨-, hcalls, -⟩ := h.frame
    cases h with
    | refuses id kept => exact .inr ⟨_, mem_follow_self hm, hd⟩
    | countsRejected id =>
        obtain rfl : id = t := by simpa using hd
        exact .inl (List.mem_cons_self ..)
    | countsRejectedKept id task =>
        obtain rfl : id = t := by simpa using hd
        exact .inl (List.mem_cons_of_mem _ (List.mem_cons_self ..))
    | _ => cases hd

theorem Denies.not_accepted {p : Pool} (ha : Accounted p) (ht : traced.Holds p) {t : TaskId}
    (h : p.Denies t) : .accepted t ∉ p.trace := by
  rcases h with h | ⟨c, hm, hd⟩
  · have hpos : 0 < p.trace.count (.refused t) := List.count_pos_iff.mpr h
    have hanswer := ha.answer_eq t
    have hone := ht.shared.offered t
    exact List.count_eq_zero.mp (by omega)
  · refine (ha.submitting ht.shared.offered hm ?_).1
    obtain ⟨thread, s⟩ := c
    cases s with
    | refusing | rejecting => exact hd
    | _ => cases hd

/-- The task is nowhere in the pool and was not started. -/
def Absent (p : Pool) (t : TaskId) : Prop := p.waiting t = 0 ∧ p.holders t = 0 ∧ p.starts t = 0

theorem absent_of_not_accepted {p : Pool} (ht : traced.Holds p) {t : TaskId}
    (h : .accepted t ∉ p.trace) : p.Absent t := by
  have hzero : ¬ 0 < p.waiting t + p.holders t + p.starts t := fun hpos =>
    h (accepted_of_places ht hpos)
  refine ⟨?_, ?_, ?_⟩ <;> omega

end Pool

open Pool

/-- **One fate**: in every reachable world, whatever threads and tasks do and in whatever order, an
    accepted task is in the queue, in the hands of one worker, started, or lost, and only at one of
    these places and once. It is lost only after the pool was halted, or with a pool that nobody
    holds and of which a panic drove every worker out. A task that is refused at any time, before or
    after, is not in the queue, not with a worker and not started. -/
theorem one_fate {w w' : World} (h : w.Reachable) {ls : List Label} (hr : w.run ls = some w')
    {id : PoolId} {p p' : Pool} (hp : w.pools[id]? = some p) (hp' : w'.pools[id]? = some p')
    (t : TaskId) :
    (.accepted t ∈ p.trace → p.waiting t + p.holders t + p.starts t + p.losses t = 1 ∧
      (0 < p.losses t → p.halt = true ∨ p.Forsaken)) ∧
    p.starts t ≤ 1 ∧
    (0 < p.starts t → p.waiting t = 0 ∧ p.holders t = 0 ∧ p.losses t = 0) ∧
    (p.Denies t ∨ p'.Denies t → p.Absent t ∧ p'.Absent t) := by
  obtain ⟨ha, ht⟩ := tasks_reachable h p (List.mem_of_getElem? hp)
  obtain ⟨ha', ht'⟩ := tasks_reachable (h.run hr) p' (List.mem_of_getElem? hp')
  have hone (hs : 0 < p.starts t) := places_of_accepted ha ht
    (accepted_of_places ht (t := t) (by omega))
  refine ⟨fun hacc => ⟨places_of_accepted ha ht hacc, excuse_of_loss ha ht hacc⟩, ?_, fun hs => ?_,
    fun hd => ?_⟩
  · by_cases hs : 0 < p.starts t
    · have := hone hs
      omega
    · omega
  · have := hone hs
    refine ⟨?_, ?_, ?_⟩ <;> omega
  · -- the refusal shows in the end, and an acceptance would show there too
    have hd' : p'.Denies t := hd.elim
      (run_induction (I := fun r => r.Denies t) (fun hf hi hc => hi.change hf hc) h hr hp hp')
      fun hd => hd
    have hno' := hd'.not_accepted ha' ht'
    have hno : .accepted t ∉ p.trace := fun hm => hno' ((run_later h hr hp hp').mem_trace hm)
    exact ⟨absent_of_not_accepted ht hno, absent_of_not_accepted ht' hno'⟩

/-- One task is accepted and one refused in a short run. -/
theorem one_fate_in_lifetime : ∃ (w w' : World) (p p' : Pool), w.Reachable ∧
    w.pools[0]? = some p ∧ w'.pools[0]? = some p' ∧
    (.accepted ⟨1⟩ ∈ p.trace ∧
      p.waiting ⟨1⟩ + p.holders ⟨1⟩ + p.starts ⟨1⟩ + p.losses ⟨1⟩ = 1) ∧
    (p'.Denies ⟨2⟩ ∧ p.Absent ⟨2⟩) := by
  obtain ⟨w, w', p, p', h, hr, hp, hp', hf, hg⟩ := exists_pools (firstSteps .graceful)
    (moves (.worker 0 0) 12 ++ moves (.caller 0) 5 ++ moves (.worker 0 0) 4 ++ moves (.caller 0) 7)
    (fun p => decide (.accepted ⟨1⟩ ∈ p.trace)) (fun p => decide (.refused ⟨2⟩ ∈ p.trace))
    (by decide)
  have hacc := of_decide_eq_true hf
  have hden : p'.Denies ⟨2⟩ := .inl (of_decide_eq_true hg)
  exact ⟨w, w', p, p', h, hp, hp', ⟨hacc, ((one_fate h hr hp hp' ⟨1⟩).1 hacc).1⟩, hden,
    ((one_fate h hr hp hp' ⟨2⟩).2.2.2 (.inr hden)).1⟩

end WorkerPool
