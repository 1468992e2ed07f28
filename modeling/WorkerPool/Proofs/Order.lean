import WorkerPool.Proofs.Return
import WorkerPool.Proofs.Staff

/-!
# The order of tasks

A queue gives tasks out in the order in which it has taken them in, but a worker may lay down what
it has got: it looks once more at the halt flag before it begins. So tasks need not be begun in the
order in which they came. They nearly are: a worker that has laid one down takes no other, and each
of them passes over one task at most.

* `inOrder` -- what can be read off a trace, oldest first;
* `Pool.acceptances`, `Pool.takings`, `Pool.beginnings` -- the tasks in the order in which the queue
  took them in, workers took them out, and workers began them;
* `Pool.Lined` -- what came in has gone out to workers, is gone, or is in the queue, in one order;
* `Pool.Recorded` -- what one worker has taken it has begun, but for the last at most;
* `begun_nearly_in_order` -- how far the order of beginnings is from that of acceptances.
-/

namespace WorkerPool

/-! ## 1. Reading a trace -/

/-- What `f` reads off a trace, oldest first. -/
def inOrder {β : Type} (f : Happening → Option β) (trace : List Happening) : List β :=
  trace.reverse.filterMap f

section InOrder

variable {β : Type} {f : Happening → Option β}

@[simp] theorem inOrder_cons (e : Happening) (trace : List Happening) :
    inOrder f (e :: trace) = inOrder f trace ++ (f e).toList := by
  rw [inOrder, List.reverse_cons, List.filterMap_append, inOrder]
  cases he : f e <;> simp [he]

theorem inOrder_append (new trace : List Happening) :
    inOrder f (new ++ trace) = inOrder f trace ++ inOrder f new := by
  rw [inOrder, List.reverse_append, List.filterMap_append, inOrder, inOrder]

theorem mem_inOrder {trace : List Happening} {b : β} :
    b ∈ inOrder f trace ↔ ∃ e ∈ trace, f e = some b := by
  simp [inOrder]

theorem inOrder_eq_nil {trace : List Happening} (h : ∀ e ∈ trace, f e = none) :
    inOrder f trace = [] :=
  List.filterMap_eq_nil_iff.mpr fun e he => h e (List.mem_reverse.mp he)

theorem count_inOrder [BEq β] [LawfulBEq β] (trace : List Happening) (b : β) :
    (inOrder f trace).count b = trace.countP fun e => f e == some b := by
  rw [inOrder, List.count_filterMap, List.countP_reverse]

end InOrder

/-- The task that the queue takes in. -/
@[simp]
def Happening.accepts? : Happening → Option TaskId
  | .accepted t => some t
  | _ => none

/-- The task that a worker takes, and the worker. -/
@[simp]
def Happening.takes? : Happening → Option (TaskId × Nat)
  | .popped t i => some (t, i)
  | _ => none

/-- The task that a worker begins, and the worker. -/
@[simp]
def Happening.begins? : Happening → Option (TaskId × Nat)
  | .started t _ i => some (t, i)
  | _ => none

namespace Pool

/-- The tasks that the queue has taken in, in order. -/
def acceptances (p : Pool) : List TaskId := inOrder Happening.accepts? p.trace

/-- The tasks that workers have taken out of the queue, in order, each with the worker. -/
def takings (p : Pool) : List (TaskId × Nat) := inOrder Happening.takes? p.trace

/-- The tasks that workers have begun, in order, each with the worker. -/
def beginnings (p : Pool) : List (TaskId × Nat) := inOrder Happening.begins? p.trace

/-- The tasks that workers have taken out of the queue, in order. -/
def taken (p : Pool) : List TaskId := p.takings.map Prod.fst

/-- The tasks that workers have begun, in order. -/
def begun (p : Pool) : List TaskId := p.beginnings.map Prod.fst

/-- The tasks that this worker has taken out of the queue, in order. -/
def takenBy (p : Pool) (i : Nat) : List TaskId := (p.takings.filter (·.2 = i)).map Prod.fst

/-- The tasks that this worker has begun, in order. -/
def begunBy (p : Pool) (i : Nat) : List TaskId := (p.beginnings.filter (·.2 = i)).map Prod.fst

theorem mem_acceptances {p : Pool} {t : TaskId} : t ∈ p.acceptances ↔ .accepted t ∈ p.trace := by
  rw [acceptances, mem_inOrder]
  refine ⟨?_, fun h => ⟨_, h, rfl⟩⟩
  rintro ⟨e, he, hf⟩
  cases e with
  | accepted u =>
      obtain rfl : u = t := by simpa using hf
      exact he
  | _ => cases hf

theorem count_begun (p : Pool) (t : TaskId) : p.begun.count t = p.starts t := by
  rw [begun, beginnings, inOrder, List.map_filterMap, ← inOrder, count_inOrder, starts]
  refine List.countP_congr fun e _ => ?_
  cases e <;> simp

theorem mem_begun {p : Pool} {t : TaskId} : t ∈ p.begun ↔ 0 < p.starts t := by
  rw [← count_begun, List.count_pos_iff]

/-- No task is accepted twice. -/
theorem nodup_acceptances {p : Pool} (ha : Accounted p) (ht : traced.Holds p) :
    p.acceptances.Nodup := by
  refine List.nodup_iff_count_le_one.mpr fun t => ?_
  have hcount : p.acceptances.count t = p.trace.count (.accepted t) := by
    rw [acceptances, count_inOrder, List.count]
    refine List.countP_congr fun e _ => ?_
    cases e <;> simp
  have hanswer := ha.answer_eq t
  have hone := ht.shared.offered t
  omega

/-- What the end of a pool throws away is neither taken in nor taken out nor begun. -/
theorem inOrder_reclaim {β : Type} {f : Happening → Option β} {p q : Pool}
    (h : p.reclaim = some q) (hf : ∀ t label, f (.dropped t label) = none) :
    inOrder f q.trace = inOrder f p.trace := by
  obtain ⟨-, -, rfl⟩ := reclaim_cases h
  have hnone : inOrder f (p.queue.items.map fun t => .dropped t.id t.label).reverse = [] := by
    refine inOrder_eq_nil fun e he => ?_
    obtain ⟨task, -, rfl⟩ := List.mem_map.mp (List.mem_reverse.mp he)
    exact hf _ _
  rw [inOrder_append, hnone, List.append_nil]

/-! ## 2. The line before the workers -/

/-- What the queue has taken in has been taken out by workers, is gone, or is still in the queue, in
    this order. Tasks are gone from the queue only when no worker will take any more. -/
def Lined (p : Pool) : Prop :=
  ∃ gone, p.acceptances = p.taken ++ gone ++ p.queue.items.map Task.id ∧
    (gone = [] ∨ p.Spent ∨ p.draining = true ∧ p.AllExited)

theorem Lined.of_same {p q : Pool} (h : Lined p) (hl : Later p q)
    (ha : q.acceptances = p.acceptances) (ht : q.taken = p.taken)
    (hi : q.queue.items = p.queue.items) : Lined q := by
  obtain ⟨gone, he, hgone⟩ := h
  refine ⟨gone, by rw [ha, ht, hi, he], ?_⟩
  rcases hgone with hg | hs | ⟨hd, hx⟩
  · exact .inl hg
  · exact .inr (.inl ⟨hl.closed hs.1, hl.spent hs⟩)
  · exact .inr (.inr ⟨hl.draining hd, hl.allExited hd hx⟩)

/-- A worker takes nothing, or the first task in the queue. -/
theorem WorkerMove.line {p q : Pool} {i : Nat} {s s' : WorkerStage} (h : WorkerMove p i s q s') :
    q.acceptances = p.acceptances ∧
      (q.taken = p.taken ∧ q.queue.items = p.queue.items ∨
        ∃ task, s = .popping ∧ q.taken = p.taken ++ [task.id] ∧
          p.queue.items = task :: q.queue.items) := by
  cases h with
  | pops task queue hs hq =>
      exact ⟨by simp [acceptances], .inr ⟨task, rfl, by simp [taken, takings],
        (Queue.attempt_item hq).1⟩⟩
  | findsNothing queue hs hq =>
      exact ⟨rfl, .inl ⟨rfl, (Queue.attempt_nothingMore hq).2.2.1⟩⟩
  | sleeps queue hs hq => exact ⟨rfl, .inl ⟨rfl, (Queue.attempt_sleep hq).2.2.1⟩⟩
  | _ => exact ⟨by simp [acceptances], .inl ⟨by simp [taken, takings], rfl⟩⟩

/-- A call puts a task behind the others, empties the queue, or leaves it as it is. -/
theorem CallMove.line {p q : Pool} {thread : ThreadId} {s : CallStage} {next : CallStep}
    (h : CallMove p thread s q next) : q.taken = p.taken ∧
      ((∃ task : Task, q.acceptances = p.acceptances ++ [task.id] ∧
          q.queue.items = p.queue.items ++ [task] ∧ p.queue.accepting = true) ∨
        (∃ why joined, s = .emptying why joined ∧ q.acceptances = p.acceptances ∧
          q.queue.items = [] ∧ q.queue.accepting = p.queue.accepting) ∨
        q.acceptances = p.acceptances ∧ q.queue.items = p.queue.items) := by
  cases h with
  | pushes task choice ha =>
      exact ⟨by simp [taken, takings], .inl ⟨task, by simp [acceptances],
        (Queue.push_of_accepting ha task choice).1, ha⟩⟩
  | findsEmpty why joined | empties why joined =>
      exact ⟨by simp [taken, takings],
        .inr (.inl ⟨why, joined, rfl, by simp [acceptances], rfl, rfl⟩)⟩
  | _ => exact ⟨by simp [taken, takings], .inr (.inr ⟨by simp [acceptances], rfl⟩)⟩

theorem Lined.work {p q : Pool} {i : Nat} {worker : Worker} {s : WorkerStage} (hp : Lined p)
    (hw : p.workers[i]? = some worker) (h : WorkerMove p i worker.stage q s)
    (hl : Later p (q.setStage i s)) : Lined (q.setStage i s) := by
  obtain ⟨ha, ⟨ht, hi⟩ | ⟨task, hs, ht, hi⟩⟩ := h.line
  · exact hp.of_same hl ha ht hi
  · obtain ⟨gone, he, hgone⟩ := hp
    have hnone : gone = [] := by
      rcases hgone with hg | hs' | ⟨-, hx⟩
      · exact hg
      · -- there was a task
        have := hs'.2
        rw [hi] at this
        cases this
      · -- there was a worker
        have := hx _ (List.mem_map_of_mem (List.mem_of_getElem? hw))
        rw [hs] at this
        cases this
    refine ⟨[], ?_, .inl rfl⟩
    calc (q.setStage i s).acceptances = p.taken ++ gone ++ p.queue.items.map Task.id := by
          rw [← he, ← ha]
          rfl
      _ = q.taken ++ [] ++ q.queue.items.map Task.id := by
          rw [hnone, hi, ht]
          simp

theorem Lined.call {p q : Pool} {thread : ThreadId} {s : CallStage} {next : CallStep}
    (hp : Lined p) (hs : s.Fits p thread) (h : CallMove p thread s q next)
    (hl : Later p (q.follow thread next)) : Lined (q.follow thread next) := by
  have ha' : (q.follow thread next).acceptances = q.acceptances := by simp [acceptances]
  have ht' : (q.follow thread next).taken = q.taken := by simp [taken, takings]
  have hq' := q.queue_follow thread next
  obtain ⟨ht, ⟨task, ha, hi, hopen⟩ | ⟨why, joined, rfl, ha, hi, hclosed⟩ | ⟨ha, hi⟩⟩ := h.line
  · obtain ⟨gone, he, hgone⟩ := hp
    refine ⟨gone, ?_, ?_⟩
    · rw [ha', ht', hq', ha, ht, hi, he]
      simp
    · rcases hgone with hg | hspent | ⟨hd, hx⟩
      · exact .inl hg
      · rw [hspent.1] at hopen
        cases hopen
      · exact .inr (.inr ⟨hl.draining hd, hl.allExited hd hx⟩)
  · -- an immediate shutdown has closed the queue before
    obtain ⟨gone, he, -⟩ := hp
    refine ⟨gone ++ p.queue.items.map Task.id, ?_, .inr (.inl ⟨?_, ?_⟩)⟩
    · rw [ha', ht', hq', ha, ht, hi, he]
      simp
    · rw [hq', hclosed]
      exact hs.closed
    · rw [hq', hi]
  · exact hp.of_same hl (ha'.trans ha) (ht'.trans ht) (by rw [hq', hi])

theorem Lined.change {p q : Pool} (ho : orderly.Holds p) (hp : Lined p) (h : Change p q) :
    Lined q := by
  have hl := h.later ho.toFormed
  cases h with
  | work hw h => exact hp.work hw h hl
  | call hlook h => exact hp.call (ho.calls _ (mem_of_lookup hlook)) h hl
  | enter hs ht h =>
      cases h with
      | offers task hf =>
          exact hp.of_same hl (by simp [acceptances, enter]) (by simp [taken, takings, enter]) rfl
      | asks mode => exact hp.of_same hl rfl rfl rfl
      | givesUp hc => exact hp.of_same hl rfl rfl rfl
  | note n => exact hp.of_same hl (by simp [acceptances]) (by simp [taken, takings]) rfl
  | wake i => exact hp.of_same hl rfl rfl (Queue.items_wake _ _)
  | reclaim h =>
      have ha : q.acceptances = p.acceptances := inOrder_reclaim h fun _ _ => rfl
      have ht : q.taken = p.taken := congrArg (List.map Prod.fst) (inOrder_reclaim h fun _ _ => rfl)
      obtain ⟨gone, he, -⟩ := hp
      obtain ⟨hlife, hfin, rfl⟩ := reclaim_cases h
      have hd : p.draining = true := ho.shared.released hlife
      have hx : p.AllExited := List.forall_mem_map.mpr hfin
      refine ⟨gone ++ p.queue.items.map Task.id, ?_, .inr (.inr ⟨hd, hx⟩)⟩
      rw [ha, ht, he]
      simp

theorem Blank.inOrder_eq_nil {p : Pool} (hb : Blank p) {β : Type} {f : Happening → Option β}
    (hf : ∀ e, f (.event e) = none) : inOrder f p.trace = [] := by
  refine WorkerPool.inOrder_eq_nil fun x hx => ?_
  obtain ⟨e, rfl⟩ := hb.trace x hx
  exact hf e

theorem Lined.fresh {p : Pool} (h : Fresh p) : Lined p := by
  have hb := h.blank
  refine ⟨[], ?_, .inl rfl⟩
  rw [acceptances, taken, takings, hb.inOrder_eq_nil fun _ => rfl,
    hb.inOrder_eq_nil fun _ => rfl, hb.queue]
  rfl

end Pool

/-! ## 3. The record of one worker -/

/-- What a worker at this stage has taken it has begun, but for the task that it holds. One that is
    out of its loop may have laid its last one down. -/
def WorkerStage.Records (taken begun : List TaskId) : WorkerStage → Prop
  | .rechecking task | .abandoning task | .discarding task | .ready task =>
    taken = begun ++ [task.id]
  | .running job _ => taken = begun ∧ begun.getLast? = some job.id
  | .stopping | .leaving _ | .finished _ => taken = begun ∨ ∃ t, taken = begun ++ [t]
  | _ => taken = begun

/-- Wherever a worker is, one task at most is taken and not begun, and that is the last. -/
theorem WorkerStage.Records.cases {taken begun : List TaskId} {s : WorkerStage}
    (h : s.Records taken begun) : taken = begun ∨ ∃ t, taken = begun ++ [t] := by
  cases s with
  | rechecking task | abandoning task | discarding task | ready task => exact .inr ⟨_, h⟩
  | running job activity => exact .inl h.1
  | stopping | leaving | finished => exact h
  | _ => exact .inl h

namespace Pool

/-- Every worker's record is in order, and there is no record of anybody else. -/
structure Recorded (p : Pool) : Prop where
  worker : ∀ {i : Nat} {s : WorkerStage}, p.stages[i]? = some s →
    s.Records (p.takenBy i) (p.begunBy i)
  taker : ∀ x ∈ p.takings, x.2 < p.stages.length
  beginner : ∀ x ∈ p.beginnings, x.2 < p.stages.length

/-- **A worker keeps its record.** -/
theorem WorkerMove.record {p q : Pool} {i : Nat} {s s' : WorkerStage} (h : WorkerMove p i s q s')
    (hr : s.Records (p.takenBy i) (p.begunBy i)) : s'.Records (q.takenBy i) (q.begunBy i) := by
  cases h with
  | pops | begins =>
      simpa [WorkerStage.Records, takenBy, begunBy, takings, beginnings] using hr
  | seesHalt | findsNothing => exact .inl hr
  | discards task =>
      refine .inr ⟨task.id, ?_⟩
      simpa [WorkerStage.Records, takenBy, begunBy, takings, beginnings] using hr
  | crashes => exact .inl hr
  | returns | panics =>
      simpa [WorkerStage.Records, takenBy, begunBy, takings, beginnings] using hr.1
  | _ =>
      simpa [WorkerStage.Records, takenBy, begunBy, takings, beginnings] using hr

/-- The worker that moves writes to its own record only. -/
theorem WorkerMove.readings {p q : Pool} {i : Nat} {s s' : WorkerStage}
    (h : WorkerMove p i s q s') :
    (q.takings = p.takings ∨ ∃ t, q.takings = p.takings ++ [(t, i)]) ∧
      (q.beginnings = p.beginnings ∨ ∃ t, q.beginnings = p.beginnings ++ [(t, i)]) := by
  cases h with
  | pops task queue hs hq =>
      exact ⟨.inr ⟨task.id, by simp [takings]⟩, .inl (by simp [beginnings])⟩
  | begins task waited since =>
      exact ⟨.inl (by simp [takings]), .inr ⟨task.id, by simp [beginnings]⟩⟩
  | _ => exact ⟨.inl (by simp [takings]), .inl (by simp [beginnings])⟩

theorem CallMove.readings {p q : Pool} {thread : ThreadId} {s : CallStage} {next : CallStep}
    (h : CallMove p thread s q next) :
    q.takings = p.takings ∧ q.beginnings = p.beginnings := by
  cases h <;> simp [takings, beginnings]

theorem filter_eq_nil {l : List (TaskId × Nat)} {n i : Nat} (hl : ∀ x ∈ l, x.2 < n)
    (hi : n ≤ i) : l.filter (·.2 = i) = [] := by
  refine List.filter_eq_nil_iff.mpr fun x hx => ?_
  have := hl x hx
  simp only [decide_eq_true_eq]
  omega

theorem filter_of_ne {l l' : List (TaskId × Nat)} {i j : Nat} (hij : j ≠ i)
    (h : l' = l ∨ ∃ t, l' = l ++ [(t, i)]) : l'.filter (·.2 = j) = l.filter (·.2 = j) := by
  rcases h with rfl | ⟨t, rfl⟩
  · rfl
  · simp [List.filter_append, hij.symm]

theorem Recorded.work {p q : Pool} {i : Nat} {worker : Worker} {s : WorkerStage}
    (hp : Recorded p) (hw : p.workers[i]? = some worker) (h : WorkerMove p i worker.stage q s) :
    Recorded (q.setStage i s) := by
  obtain ⟨ht, hb⟩ := h.readings
  have hs : p.stages[i]? = some worker.stage := stages_getElem?.mpr ⟨worker, hw, rfl⟩
  have hst : (q.setStage i s).stages = p.stages.set i s := by
    rw [World.stages_setStage, h.untouched.stages]
  have hi : i < p.stages.length := (List.getElem?_eq_some_iff.mp hs).1
  have hbound {l l' : List (TaskId × Nat)} (hl : ∀ x ∈ l, x.2 < p.stages.length)
      (h : l' = l ∨ ∃ t, l' = l ++ [(t, i)]) : ∀ x ∈ l', x.2 < (p.stages.set i s).length := by
    intro x hx
    rw [List.length_set]
    rcases h with rfl | ⟨t, rfl⟩
    · exact hl x hx
    · rcases List.mem_append.mp hx with hx | hx
      · exact hl x hx
      · rw [List.mem_singleton.mp hx]
        exact hi
  refine ⟨fun {j r} hj => ?_, ?_, ?_⟩
  · rw [hst] at hj
    by_cases hij : j = i
    · subst hij
      rw [List.getElem?_set_self hi] at hj
      obtain rfl := Option.some.inj hj
      exact h.record (hp.worker hs)
    · rw [List.getElem?_set_ne (Ne.symm hij)] at hj
      have htaken : (q.setStage i s).takenBy j = p.takenBy j :=
        congrArg (List.map Prod.fst) (filter_of_ne hij ht)
      have hbegun : (q.setStage i s).begunBy j = p.begunBy j :=
        congrArg (List.map Prod.fst) (filter_of_ne hij hb)
      rw [htaken, hbegun]
      exact hp.worker hj
  · rw [hst]
    exact hbound hp.taker ht
  · rw [hst]
    exact hbound hp.beginner hb

theorem Recorded.of_same {p q : Pool} (hp : Recorded p) (hst : q.stages = p.stages)
    (ht : q.takings = p.takings) (hb : q.beginnings = p.beginnings) : Recorded q where
  worker {i s} hs := by
    rw [takenBy, begunBy, ht, hb]
    exact hp.worker (hst ▸ hs)
  taker := by
    rw [ht, hst]
    exact hp.taker
  beginner := by
    rw [hb, hst]
    exact hp.beginner

/-- A worker that has just been started has no record. -/
theorem Recorded.call {p q : Pool} {thread : ThreadId} {s : CallStage} {next : CallStep}
    (hp : Recorded p) (h : CallMove p thread s q next) : Recorded (q.follow thread next) := by
  obtain ⟨ht, hb⟩ := h.readings
  obtain ⟨-, -, hst⟩ := h.frame
  have hst' := q.stages_follow thread next
  have ht' : (q.follow thread next).takings = p.takings := by simpa [takings] using ht
  have hb' : (q.follow thread next).beginnings = p.beginnings := by
    simpa [beginnings] using hb
  rcases hst with e | ⟨-, e⟩
  · exact hp.of_same (hst'.trans e) ht' hb'
  · have hlen : (q.follow thread next).stages.length = p.stages.length + 1 := by
      rw [hst', e, List.length_append, List.length_singleton]
    refine ⟨fun {i r} hi => ?_, ?_, ?_⟩
    · rw [takenBy, begunBy, ht', hb']
      rw [hst', e] at hi
      rcases Nat.lt_or_ge i p.stages.length with hlt | hge
      · rw [List.getElem?_append_left hlt] at hi
        exact hp.worker hi
      · rw [List.getElem?_append_right hge] at hi
        obtain rfl := List.mem_singleton.mp (List.mem_of_getElem? hi)
        rw [filter_eq_nil hp.taker hge, filter_eq_nil hp.beginner hge]
        rfl
    · rw [ht', hlen]
      exact fun x hx => Nat.lt_succ_of_lt (hp.taker x hx)
    · rw [hb', hlen]
      exact fun x hx => Nat.lt_succ_of_lt (hp.beginner x hx)

theorem Recorded.fresh {p : Pool} (h : Fresh p) : Recorded p := by
  have hb := h.blank
  have ht : p.takings = [] := hb.inOrder_eq_nil fun _ => rfl
  have hbeg : p.beginnings = [] := hb.inOrder_eq_nil fun _ => rfl
  refine ⟨fun hs => ?_, ?_, ?_⟩
  · rw [hb.stages] at hs
    cases hs
  · simp [ht]
  · simp [hbeg]

theorem Recorded.change {p q : Pool} (hp : Recorded p) (h : Change p q) : Recorded q := by
  cases h with
  | work hw h => exact hp.work hw h
  | call hl h => exact hp.call h
  | enter hs ht h =>
      cases h with
      | offers task hf =>
          exact hp.of_same rfl (by simp [takings, enter]) (by simp [beginnings, enter])
      | asks mode => exact hp.of_same rfl rfl rfl
      | givesUp hc => exact hp.of_same rfl rfl rfl
  | note n => exact hp.of_same rfl (by simp [takings]) (by simp [beginnings])
  | wake i => exact hp.of_same rfl rfl rfl
  | reclaim h =>
      have ht : q.takings = p.takings := inOrder_reclaim h fun _ _ => rfl
      have hb : q.beginnings = p.beginnings := inOrder_reclaim h fun _ _ => rfl
      obtain ⟨-, -, rfl⟩ := reclaim_cases h
      exact hp.of_same rfl ht hb

/-! ## 4. Passed over -/

/-- What is known of the order of tasks in a pool. -/
structure Ordered (p : Pool) : Prop extends Recorded p where
  accounted : Accounted p
  traced : traced.Holds p
  lined : Lined p
  crew : p.stages.length ≤ p.size

/-- **Every pool of a reachable world is ordered.** -/
theorem ordered_reachable {w : World} (h : w.Reachable) : ∀ p ∈ w.pools, Ordered p := by
  have hline : Invariant fun p => Accounted p ∧ Lined p :=
    accounted_invariant.beside Lined.fresh fun ha hp hc => hp.change ha.orderly hc
  have hrecord : Invariant Recorded := ⟨Recorded.fresh, Recorded.change⟩
  intro p hp
  obtain ⟨ha, ht⟩ := tasks_reachable h p hp
  exact ⟨hrecord.reachable h p hp, ha, ht, (hline.reachable h p hp).2, crew_reachable h p hp⟩

theorem starts_le_one {p : Pool} {t : TaskId} (ha : Accounted p) (ht : traced.Holds p) :
    p.starts t ≤ 1 := by
  by_contra hlt
  have := places_of_accepted ha ht (accepted_of_places ht (t := t) (by omega))
  omega

theorem nodup_begun {p : Pool} (ha : Accounted p) (ht : traced.Holds p) : p.begun.Nodup :=
  List.nodup_iff_count_le_one.mpr fun t => (count_begun p t).trans_le (starts_le_one ha ht)

theorem mem_takenBy {p : Pool} {t : TaskId} {i : Nat} : t ∈ p.takenBy i ↔ (t, i) ∈ p.takings := by
  simp [takenBy]

theorem mem_begunBy {p : Pool} {t : TaskId} {i : Nat} :
    t ∈ p.begunBy i ↔ (t, i) ∈ p.beginnings := by
  simp [begunBy]

/-- What workers have taken is a prefix of what the queue has taken in. -/
theorem Lined.taken_prefix {p : Pool} (h : Lined p) : p.taken <+: p.acceptances := by
  obtain ⟨gone, he, -⟩ := h
  exact ⟨gone ++ p.queue.items.map Task.id, by rw [he, List.append_assoc]⟩

/-- A prefix ends before an element or has it and everything before it. -/
theorem prefix_cases {l before after : List TaskId} {t : TaskId}
    (h : l <+: before ++ t :: after) : l <+: before ∨ ∃ rest, l = before ++ t :: rest := by
  obtain ⟨more, he⟩ := h
  rcases List.append_eq_append_iff.mp he with ⟨c, hb, -⟩ | ⟨c, hl, hc⟩
  · exact .inl ⟨c, hb.symm⟩
  · cases c with
    | nil => exact .inl ⟨[], by rw [hl, List.append_nil, List.append_nil]⟩
    | cons x rest =>
        obtain rfl := (List.cons.inj hc).1
        exact .inr ⟨rest, hl⟩

/-- Nothing of a list with a last element comes after it. -/
theorem not_mem_of_last {l before after : List TaskId} {t u : TaskId}
    (hn : (before ++ t :: after).Nodup) (he : before ++ t :: after = l ++ [u]) : u ∉ before := by
  intro hu
  have hlast : (t :: after).getLast? = some u := by
    rw [← List.getLast?_append_of_ne_nil before (by simp), he, List.getLast?_concat]
  exact (List.nodup_append.mp hn).2.2 u hu u (List.mem_of_getLast? hlast) rfl

/-- One task at most that a worker has taken it has not begun, and that is its last. -/
theorem Recorded.last {p : Pool} (hp : Recorded p) (i : Nat) :
    p.takenBy i = p.begunBy i ∨ ∃ t, p.takenBy i = p.begunBy i ++ [t] := by
  cases hs : p.stages[i]? with
  | some s => exact (hp.worker hs).cases
  | none =>
      have hle : p.stages.length ≤ i := List.getElem?_eq_none_iff.mp hs
      rw [takenBy, begunBy, filter_eq_nil hp.taker hle, filter_eq_nil hp.beginner hle]
      exact .inl rfl

namespace Ordered

variable {p : Pool}

theorem nodup (hp : Ordered p) : p.acceptances.Nodup := nodup_acceptances hp.accounted hp.traced

theorem nodup_taken (hp : Ordered p) : p.taken.Nodup :=
  hp.nodup.sublist hp.lined.taken_prefix.sublist

/-- Who begins a task has taken it. -/
theorem mem_takings (hp : Ordered p) {t : TaskId} {i : Nat} (h : (t, i) ∈ p.beginnings) :
    (t, i) ∈ p.takings := by
  rw [← mem_takenBy]
  rw [← mem_begunBy] at h
  rcases hp.last i with e | ⟨u, e⟩
  · rwa [e]
  · rw [e]
    exact List.mem_append_left _ h

theorem mem_taken (hp : Ordered p) {t : TaskId} (hs : 0 < p.starts t) : t ∈ p.taken := by
  obtain ⟨x, hx, rfl⟩ := List.mem_map.mp (mem_begun.mpr hs)
  exact List.mem_map_of_mem (hp.mem_takings hx)

/-- A task that is taken and not begun is the last that its worker has taken. -/
theorem takenBy_eq (hp : Ordered p) {t : TaskId} {i : Nat} (h : (t, i) ∈ p.takings)
    (hs : p.starts t = 0) : p.takenBy i = p.begunBy i ++ [t] := by
  have hnot : t ∉ p.begunBy i := by
    rw [mem_begunBy]
    intro hb
    have : 0 < p.starts t := mem_begun.mp (List.mem_map_of_mem hb)
    omega
  rw [← mem_takenBy] at h
  rcases hp.last i with e | ⟨u, e⟩
  · exact absurd (e ▸ h) hnot
  · rw [e] at h
    obtain rfl := List.mem_singleton.mp ((List.mem_append.mp h).resolve_left hnot)
    exact e

/-- Whoever takes a task has not laid one down before. -/
theorem ne_of_passed (hp : Ordered p) {before after : List (TaskId × Nat)} {t u : TaskId}
    {i j : Nat} (he : p.takings = before ++ (t, i) :: after) (hu : (u, j) ∈ before)
    (hz : p.starts u = 0) : j ≠ i := by
  rintro rfl
  have hsplit : p.takenBy j = (before.filter (·.2 = j)).map Prod.fst ++
      t :: (after.filter (·.2 = j)).map Prod.fst := by
    rw [takenBy, he]
    simp [List.filter_append]
  have hnodup : (p.takenBy j).Nodup := hp.nodup_taken.sublist (List.filter_sublist.map _)
  have hmem : u ∈ (before.filter (·.2 = j)).map Prod.fst :=
    List.mem_map.mpr ⟨(u, j), List.mem_filter.mpr ⟨hu, by simp⟩, rfl⟩
  have hlast := hp.takenBy_eq (he ▸ List.mem_append_left _ hu) hz
  rw [hsplit] at hnodup hlast
  exact not_mem_of_last hnodup hlast hmem

/-- The workers of the tasks that are passed over, and the one of the task that passes them, are
    all different. -/
theorem nodup_passed (hp : Ordered p) {before after : List (TaskId × Nat)} {t : TaskId} {i : Nat}
    (he : p.takings = before ++ (t, i) :: after) :
    (i :: (before.filter fun x => p.starts x.1 = 0).map Prod.snd).Nodup := by
  have hpassed : ∀ x ∈ before.filter fun x => p.starts x.1 = 0,
      x ∈ before ∧ p.starts x.1 = 0 := fun x hx => by simpa using hx
  have hnodup : before.Nodup := by
    have hn := List.Nodup.of_map _ hp.nodup_taken
    rw [he] at hn
    exact hn.of_append_left
  refine List.nodup_cons.mpr ⟨fun hi => ?_, (hnodup.filter _).map_on ?_⟩
  · obtain ⟨⟨u, j⟩, hx, rfl⟩ := List.mem_map.mp hi
    exact hp.ne_of_passed he (hpassed _ hx).1 (hpassed _ hx).2 rfl
  · -- one worker lays one task down at most
    rintro ⟨u, j⟩ hu ⟨v, k⟩ hv (rfl : j = k)
    have hlast {v : TaskId} (hv : (v, j) ∈ before.filter fun x => p.starts x.1 = 0) :=
      hp.takenBy_eq (he ▸ List.mem_append_left _ (hpassed _ hv).1) (hpassed _ hv).2
    have hsame := (hlast hu).symm.trans (hlast hv)
    exact congrArg (·, j) (List.singleton_inj.mp (List.append_inj' hsame rfl).2)

/-- **Fewer tasks are passed over than there are workers**: of the tasks accepted before one that
    was begun, each one that was not begun was laid down by a worker of its own, or is about to be
    begun by it. -/
theorem passed_lt (hp : Ordered p) {before after : List TaskId} {t : TaskId}
    (he : p.acceptances = before ++ t :: after) (hs : 0 < p.starts t) :
    before.countP (fun u => p.starts u = 0) < p.size := by
  have hnot : t ∉ before := by
    have hn := hp.nodup
    rw [he] at hn
    exact fun hm => (List.nodup_append.mp hn).2.2 t hm t (List.mem_cons_self ..) rfl
  obtain ⟨rest, htaken⟩ := (prefix_cases (he ▸ hp.lined.taken_prefix)).resolve_left fun hle =>
    hnot (hle.subset (hp.mem_taken hs))
  obtain ⟨first, more, htakings, rfl, hmore⟩ := List.map_eq_append_iff.mp htaken
  obtain ⟨⟨t, i⟩, later, rfl, rfl, -⟩ := List.map_eq_cons_iff.mp hmore
  have hsub : i :: (first.filter fun x => p.starts x.1 = 0).map Prod.snd ⊆
      List.range p.stages.length := by
    have hin : ∀ x ∈ (t, i) :: first, x.2 < p.stages.length := by
      intro x hx
      refine hp.taker x ?_
      rw [htakings]
      rcases List.mem_cons.mp hx with rfl | hx
      · exact List.mem_append_right _ (List.mem_cons_self ..)
      · exact List.mem_append_left _ hx
    refine List.cons_subset.mpr ⟨List.mem_range.mpr (hin _ (List.mem_cons_self ..)), ?_⟩
    intro j hj
    obtain ⟨x, hx, rfl⟩ := List.mem_map.mp hj
    exact List.mem_range.mpr (hin x (List.mem_cons_of_mem _ (List.mem_filter.mp hx).1))
  have hle := (List.subperm_of_subset (hp.nodup_passed htakings) hsub).length_le
  rw [List.length_cons, List.length_map, List.length_range] at hle
  have hcount : (first.map Prod.fst).countP (fun u => p.starts u = 0) =
      (first.filter fun x => p.starts x.1 = 0).length := by
    rw [List.countP_map, List.countP_eq_length_filter]
    rfl
  have hcrew := hp.crew
  omega

/-! ## 5. One worker -/

/-- Where there is one worker, everything is its record. -/
theorem record_of_one (hp : Ordered p) (hone : p.size = 1) :
    p.takenBy 0 = p.taken ∧ p.begunBy 0 = p.begun := by
  have hall {l : List (TaskId × Nat)} (hl : ∀ x ∈ l, x.2 < p.stages.length) :
      l.filter (·.2 = 0) = l := by
    refine List.filter_eq_self.mpr fun x hx => ?_
    have := hl x hx
    have := hp.crew
    simp only [decide_eq_true_eq]
    omega
  exact ⟨congrArg (List.map Prod.fst) (hall hp.taker),
    congrArg (List.map Prod.fst) (hall hp.beginner)⟩

theorem begun_prefix (hp : Ordered p) (hone : p.size = 1) : p.begun <+: p.acceptances := by
  refine List.IsPrefix.trans ?_ hp.lined.taken_prefix
  obtain ⟨ht, hb⟩ := hp.record_of_one hone
  rw [← ht, ← hb]
  rcases hp.last 0 with e | ⟨t, e⟩
  · exact e ▸ List.prefix_refl _
  · exact e ▸ List.prefix_append _ _

/-- What the one worker is inside of is what was begun last. -/
theorem last_of_running (hp : Ordered p) (hone : p.size = 1) {t : TaskId}
    (h : 0 < p.runners t) : p.begun.getLast? = some t := by
  obtain ⟨s, hs, hr⟩ := List.countP_pos_iff.mp h
  obtain ⟨i, hi⟩ := List.getElem?_of_mem hs
  have hzero : i = 0 := by
    have := (List.getElem?_eq_some_iff.mp hi).1
    have := hp.crew
    omega
  have hrecord := hp.worker hi
  rw [hzero, (hp.record_of_one hone).2] at hrecord
  cases s with
  | running job activity =>
      obtain rfl : job.id = t := by simpa using hr
      exact hrecord.2
  | _ => cases hr

/-- **One worker runs one task at a time**: each has ended before the next is begun. -/
theorem ended_of_begun (hp : Ordered p) (hone : p.size = 1) {before rest : List TaskId} {t : TaskId}
    (he : p.begun = before ++ t :: rest) (hne : rest ≠ []) : p.starts t = 1 ∧ p.ends t = 1 := by
  have hmem : t ∈ p.begun := he ▸ List.mem_append_right _ (List.mem_cons_self ..)
  have hstarts : 0 < p.starts t := mem_begun.mp hmem
  have hle := starts_le_one hp.accounted hp.traced (t := t)
  have hrun : p.runners t = 0 := by
    refine Nat.eq_zero_of_not_pos fun hpos => ?_
    have hlast := hp.last_of_running hone hpos
    have hnodup : p.begun.Nodup := hp.nodup.sublist (hp.begun_prefix hone).sublist
    rw [he] at hlast hnodup
    rw [List.append_cons, List.getLast?_append_of_ne_nil _ hne] at hlast
    have hnot := (List.nodup_cons.mp hnodup.of_append_right).1
    exact hnot (List.mem_of_getLast? hlast)
  have hends := hp.accounted.run_eq t
  omega

/-- What one worker has not begun was accepted after everything that it has: it waits, the worker
    holds it, or it is lost; what is lost is among it, and in the end all of it is. -/
theorem rest_of_one (hp : Ordered p) (hone : p.size = 1) : ∃ rest,
    p.acceptances = p.begun ++ rest ∧
    (∀ t ∈ rest, p.starts t = 0 ∧ p.waiting t + p.holders t + p.losses t = 1) ∧
    (∀ t, .accepted t ∈ p.trace → 0 < p.losses t → t ∈ rest) ∧
    (p.AllExited → p.queue.items = [] → ∀ t ∈ rest, p.losses t = 1) := by
  obtain ⟨rest, he⟩ := hp.begun_prefix hone
  have hplaces {t : TaskId} (ht : t ∈ p.acceptances) :=
    places_of_accepted hp.accounted hp.traced (mem_acceptances.mp ht)
  have hrest : ∀ t ∈ rest, p.starts t = 0 ∧ p.waiting t + p.holders t + p.losses t = 1 := by
    intro t ht
    have hnot : ¬ 0 < p.starts t := fun hpos => by
      have hn := hp.nodup
      rw [← he] at hn
      exact (List.nodup_append.mp hn).2.2 t (mem_begun.mpr hpos) t ht rfl
    have := hplaces (he ▸ List.mem_append_right _ ht)
    omega
  refine ⟨rest, he.symm, hrest, fun t hacc hlost => ?_, fun hx hi t ht => ?_⟩
  · have hm := mem_acceptances.mpr hacc
    have hone := hplaces hm
    rw [← he] at hm
    refine (List.mem_append.mp hm).resolve_left fun hb => ?_
    have := mem_begun.mp hb
    omega
  · have hwaiting : p.waiting t = 0 := by
      rw [waiting, hi]
      rfl
    have hholders := ((hx.counted hp.accounted).2 t).1
    have := (hrest t ht).2
    omega

end Ordered

/-! ## 6. The order of one thread's submissions -/

end Pool

/-- The thread is submitting this task to this pool. -/
def World.Submitting (w : World) (thread : ThreadId) (id : PoolId) (t : TaskId) : Prop :=
  ∃ p s, w.pools[id]? = some p ∧ (thread, s) ∈ p.calls ∧ s.submits t = true

namespace Pool

theorem eq_of_submits {s : CallStage} {t u : TaskId} (ht : s.submits t = true)
    (hu : s.submits u = true) : t = u := by
  cases s with
  | checking | pushing | refusing | rejecting =>
      simp only [CallStage.submits, decide_eq_true_eq] at ht hu
      exact ht.symm.trans hu
  | _ => cases ht

/-- A submission lasts until it is answered. -/
theorem answered_change {p q : Pool} (hp : Formed p) {thread : ThreadId} {t : TaskId}
    (h : .accepted t ∈ p.trace ∨ .refused t ∈ p.trace ∨
      ∃ s, (thread, s) ∈ p.calls ∧ s.submits t = true) (hc : Change p q) :
    .accepted t ∈ q.trace ∨ .refused t ∈ q.trace ∨
      ∃ s, (thread, s) ∈ q.calls ∧ s.submits t = true := by
  have hl := hc.later hp
  rcases h with h | h | ⟨s, hm, hs⟩
  · exact .inl (hl.mem_trace h)
  · exact .inr (.inl (hl.mem_trace h))
  rcases hc.call_cases hp hm with hm' | ⟨r, next, h, rfl⟩
  · exact .inr (.inr ⟨s, hm', hs⟩)
  · obtain ⟨-, hcalls, -⟩ := h.frame
    have hm' : (thread, s) ∈ r.calls := hcalls.symm ▸ hm
    cases h with
    | mayPush | mayNotPush | pushesTooLate | refuses =>
        exact .inr (.inr ⟨_, mem_follow_self hm', hs⟩)
    | pushes task choice ha =>
        obtain rfl : task.id = t := by simpa using hs
        exact .inl (List.mem_cons_self ..)
    | countsRejected id =>
        obtain rfl : id = t := by simpa using hs
        exact .inr (.inl (List.mem_cons_self ..))
    | countsRejectedKept id task =>
        obtain rfl : id = t := by simpa using hs
        exact .inr (.inl (List.mem_cons_of_mem _ (List.mem_cons_self ..)))
    | _ => cases hs

/-- What is read off a trace is read off it ever after. -/
theorem Later.inOrder_prefix {p q : Pool} (h : Later p q) {β : Type}
    (f : Happening → Option β) : inOrder f p.trace <+: inOrder f q.trace := by
  obtain ⟨new, e, -⟩ := h.trace
  rw [e, inOrder_append]
  exact List.prefix_append _ _

/-- The queue goes on from what it has taken in. -/
theorem Later.acceptances_prefix {p q : Pool} (h : Later p q) :
    p.acceptances <+: q.acceptances := h.inOrder_prefix _

/-- So do the workers. -/
theorem Later.begun_prefix {p q : Pool} (h : Later p q) : p.begun <+: q.begun :=
  (h.inOrder_prefix _).map Prod.fst

/-- **What a thread submits first is accepted first**, if both are. -/
theorem accepted_in_program_order {w₁ w₂ w : World} (h : w₁.Reachable) {ls ls' : List Label}
    (hr : w₁.run ls = some w₂) (hr' : w₂.run ls' = some w) {thread : ThreadId} {id : PoolId}
    {t u : TaskId} (ht : w₁.Submitting thread id t) (hu : w₂.Submitting thread id u) (hne : t ≠ u)
    {p : Pool} (hp : w.pools[id]? = some p) {before after : List TaskId}
    (he : p.acceptances = before ++ u :: after) : t ∉ after := by
  intro hta
  obtain ⟨p₁, s₁, hp₁, hm₁, hs₁⟩ := ht
  obtain ⟨p₂, s₂, hp₂, hm₂, hs₂⟩ := hu
  have h₂ := h.run hr
  have hl := run_later h₂ hr' hp₂ hp
  have ho₂ := ordered_reachable h₂ p₂ (List.mem_of_getElem? hp₂)
  have ho := ordered_reachable (h₂.run hr') p (List.mem_of_getElem? hp)
  have hacc : .accepted t ∈ p.trace :=
    mem_acceptances.mp (he ▸ List.mem_append_right _ (List.mem_cons_of_mem _ hta))
  have hunot : u ∉ p₂.acceptances := fun hm =>
    (ho₂.accounted.submitting ho₂.traced.shared.offered hm₂ hs₂).1 (mem_acceptances.mp hm)
  have hanswered := run_induction (I := fun q => .accepted t ∈ q.trace ∨ .refused t ∈ q.trace ∨
      ∃ s, (thread, s) ∈ q.calls ∧ s.submits t = true)
    (fun hf hi hc => answered_change hf hi hc) h hr hp₁ hp₂ (.inr (.inr ⟨s₁, hm₁, hs₁⟩))
  rcases hanswered with ht | ht | ⟨s, hm, hs⟩
  · -- `u` was not accepted then
    have hle := he ▸ hl.acceptances_prefix
    have hnodup := ho.nodup
    rw [he] at hnodup
    rcases prefix_cases hle with hle | ⟨rest, hrest⟩
    · have htb := hle.subset (mem_acceptances.mpr ht)
      exact (List.nodup_append.mp hnodup).2.2 t htb t (List.mem_cons_of_mem _ hta) rfl
    · exact hunot (hrest ▸ List.mem_append_right _ (List.mem_cons_self ..))
  · exact Denies.not_accepted ho.accounted ho.traced (.inl (hl.mem_trace ht)) hacc
  · -- a thread submits one task at a time
    obtain rfl := eq_of_mem_calls ho₂.accounted.orderly.nodup hm hm₂
    exact hne (eq_of_submits hs hs₂)

end Pool

open Pool

/-- **Tasks are begun nearly in the order in which they were accepted**, in every reachable world,
    whoever shuts the pool down and whatever panics there are. A queue takes each task in once, and
    the tasks of one thread in the order in which it submits them. What workers take out of the
    queue is a prefix of that. Fewer tasks than there are workers are accepted before a task that is
    begun and are not begun themselves; none that is lost is ever begun. If there is one worker, the
    tasks begun are a prefix of the tasks accepted; each has ended before the next is begun; and the
    rest is what waits, what the worker holds, and what is lost, in the end all of it lost. -/
theorem begun_nearly_in_order {w : World} (h : w.Reachable) {id : PoolId} {p : Pool}
    (hp : w.pools[id]? = some p) :
    (p.acceptances.Nodup ∧ ∀ t, t ∈ p.acceptances ↔ .accepted t ∈ p.trace) ∧
    (∀ (w₁ w₂ : World) (ls ls' : List Label) (thread : ThreadId) (t u : TaskId),
      w₁.Reachable → w₁.run ls = some w₂ → w₂.run ls' = some w →
      w₁.Submitting thread id t → w₂.Submitting thread id u → t ≠ u →
      ∀ before after, p.acceptances = before ++ u :: after → t ∉ after) ∧
    p.taken <+: p.acceptances ∧
    (∀ before t after, p.acceptances = before ++ t :: after → 0 < p.starts t →
      before.countP (fun u => p.starts u = 0) < p.size) ∧
    (∀ t, .accepted t ∈ p.trace → 0 < p.losses t → p.starts t = 0) ∧
    (p.size = 1 →
      (∀ before t rest, p.begun = before ++ t :: rest → rest ≠ [] →
        p.starts t = 1 ∧ p.ends t = 1) ∧
      ∃ rest, p.acceptances = p.begun ++ rest ∧
        (∀ t ∈ rest, p.starts t = 0 ∧ p.waiting t + p.holders t + p.losses t = 1) ∧
        (∀ t, .accepted t ∈ p.trace → 0 < p.losses t → t ∈ rest) ∧
        (p.AllExited → p.queue.items = [] → ∀ t ∈ rest, p.losses t = 1)) := by
  have ho := ordered_reachable h p (List.mem_of_getElem? hp)
  refine ⟨⟨ho.nodup, fun t => mem_acceptances⟩, ?_, ho.lined.taken_prefix, ?_, ?_, fun hone => ?_⟩
  · intro w₁ w₂ ls ls' thread t u h₁ hr hr' ht hu hne before after he
    exact accepted_in_program_order h₁ hr hr' ht hu hne hp he
  · intro before t after he hs
    exact ho.passed_lt he hs
  · intro t hacc hlost
    have := places_of_accepted ho.accounted ho.traced hacc
    omega
  · exact ⟨fun _ _ _ he hne => ho.ended_of_begun hone he hne, ho.rest_of_one hone⟩

/-- A thread makes a pool, submits two tasks and shuts the pool down at once. -/
def cutOff (workers : UInt64) : Program :=
  .call (.start (Config.withThreads workers)) fun _ => .submit 0 "first" (.finish []) fun _ =>
    .submit 0 "second" (.finish []) fun _ => .call (.shutdown 0 .immediate) fun _ => .finish []

/-- Two workers take the two tasks; the one with the first sees the halt flag in time, the other one
    does not. One worker begins the first task before, and the second task is thrown away. -/
theorem begun_nearly_in_order_when_cut_off :
    (∃ (w : World) (p : Pool), w.Reachable ∧ w.pools[0]? = some p ∧ p.size = 2 ∧
      p.losses ⟨1⟩ = 1 ∧ p.acceptances = [⟨1⟩] ++ ⟨2⟩ :: [] ∧ 0 < p.starts ⟨2⟩ ∧
      [(⟨1⟩ : TaskId)].countP (fun u => p.starts u = 0) < p.size) ∧
    ∃ (w : World) (p : Pool), w.Reachable ∧ w.pools[0]? = some p ∧ p.size = 1 ∧
      p.AllExited ∧ ∃ rest, rest = [⟨2⟩] ∧ p.acceptances = p.begun ++ rest ∧
        ∀ t ∈ rest, p.losses t = 1 := by
  refine ⟨?_, ?_⟩
  · obtain ⟨w, -, p, -, h, -, hp, -, hf, -⟩ := exists_pools
      (.fork (cutOff 2) :: moves (.caller 0) 13 ++ moves (.worker 0 0) 3 ++
        moves (.worker 0 1) 4 ++ moves (.caller 0) 3 ++ moves (.worker 0 0) 3 ++
        moves (.worker 0 1) 1) []
      (fun p => decide (p.size = 2 ∧ p.losses ⟨1⟩ = 1 ∧ p.acceptances = [⟨1⟩] ++ ⟨2⟩ :: [] ∧
        0 < p.starts ⟨2⟩)) (fun _ => true) (by decide)
    obtain ⟨hsize, hlost, he, hs⟩ := of_decide_eq_true hf
    obtain ⟨-, -, -, hpassed, -⟩ := begun_nearly_in_order h hp
    exact ⟨w, p, h, hp, hsize, hlost, he, hs, hpassed _ _ _ he hs⟩
  · obtain ⟨w, -, p, -, h, -, hp, -, hf, -⟩ := exists_pools
      (.fork (cutOff 1) :: moves (.caller 0) 12 ++ moves (.worker 0 0) 5 ++
        moves (.caller 0) 6 ++ moves (.worker 0 0) 10 ++ moves (.caller 0) 6) []
      (fun p => decide (p.size = 1 ∧ (p.stages.all (·.isFinished)) = true ∧
        (p.queue.items.map Task.id) = [] ∧ p.acceptances = [⟨1⟩, ⟨2⟩] ∧ p.begun = [⟨1⟩]))
      (fun _ => true) (by decide)
    obtain ⟨hsize, hfin, hi, hacc, hbegun⟩ := of_decide_eq_true hf
    have hx : p.AllExited := List.all_eq_true.mp hfin
    obtain ⟨-, -, -, -, -, hone⟩ := begun_nearly_in_order h hp
    obtain ⟨-, rest, he, -, -, hlost⟩ := hone hsize
    rw [hacc, hbegun] at he
    exact ⟨w, p, h, hp, hsize, hx, rest, (List.cons.inj he).2.symm, by rw [hacc, hbegun, he],
      hlost hx (List.map_eq_nil_iff.mp hi)⟩

end WorkerPool
