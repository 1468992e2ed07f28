import WorkerPool.Proofs.CallTermination

/-!
# What a submission is told

Whoever submits a task is told `true` where the task has been accepted and `false` where it has been
refused: the trace says so before the answer comes, and does not take it back. So the fate of an
accepted task is the fate of one whose submission was told `true`, and that of a refused task the
fate of one whose submission was told `false`.

* `Pool.Brings`, `Pool.Tells` -- a submission on its way, and its answer, against the trace;
* `CallMove.brings` -- one move, `World.Bringing.step` -- one step of the world;
* `submission_told` -- every run.
-/

namespace WorkerPool

namespace Pool

/-- At this stage the call is a submission of the task: it is still open, or the task was accepted
    and the call has only to say so. -/
def Brings (p : Pool) (t : TaskId) (s : CallStage) : Prop :=
  s.submits t = true ∨ s = .admitted ∧ .accepted t ∈ p.trace

/-- The answer is what the trace says of the task. -/
inductive Tells (p : Pool) (t : TaskId) : Reply → Prop where
  | accepted (h : .accepted t ∈ p.trace) : Tells p t (.flag true)
  | refused (h : .refused t ∈ p.trace) : Tells p t (.flag false)

variable {p q : Pool} {thread : ThreadId} {t : TaskId} {s : CallStage} {step : CallStep}

theorem Later.brings (h : Later p q) (hb : p.Brings t s) : q.Brings t s :=
  hb.imp_right fun ⟨hs, hm⟩ => ⟨hs, h.mem_trace hm⟩

/-- Nothing but the trace matters. -/
theorem Brings.of_trace (h : p.Brings t s) (ht : q.trace = p.trace) : q.Brings t s :=
  h.imp_right fun ⟨hs, hm⟩ => ⟨hs, ht ▸ hm⟩

theorem Tells.of_trace {r : Reply} (h : p.Tells t r) (ht : q.trace = p.trace) : q.Tells t r := by
  cases h with
  | accepted hm => exact .accepted (ht ▸ hm)
  | refused hm => exact .refused (ht ▸ hm)

/-- **A move of a submission** leaves it a submission, or answers it as the trace says. -/
theorem CallMove.brings (h : CallMove p thread s q step) (hb : p.Brings t s) :
    step.Leaves (fun q s => q.Brings t s) (fun q r => q.Tells t r) q := by
  rcases hb with hs | ⟨rfl, hm⟩
  · cases h with
    | mayPush | mayNotPush | pushesTooLate | refuses => exact .inl hs
    | pushes task choice ha =>
        obtain rfl : task.id = t := by simpa using hs
        exact .inr ⟨rfl, List.mem_cons_self ..⟩
    | countsRejected id =>
        obtain rfl : id = t := by simpa using hs
        exact .refused (List.mem_cons_self ..)
    | countsRejectedKept id task =>
        obtain rfl : id = t := by simpa using hs
        exact .refused (List.mem_cons_of_mem _ (List.mem_cons_self ..))
    | _ => cases hs
  · cases h with
    | countsSubmitted => exact .accepted hm

end Pool

namespace World

open Pool (CallMove)

/-- The thread is inside a submission of the task to the pool. -/
def Bringing (thread : ThreadId) (id : PoolId) (next : Reply → Program) (t : TaskId) (w : World) :
    Prop :=
  w.activity? thread = some (.inside id next) ∧
    ∃ p s, w.pools[id]? = some p ∧ (thread, s) ∈ p.calls ∧ p.Brings t s

/-- The thread was told what the trace of the pool says of the task. -/
def Answered (thread : ThreadId) (id : PoolId) (next : Reply → Program) (t : TaskId) (w : World) :
    Prop :=
  ∃ p r, w.pools[id]? = some p ∧ p.Tells t r ∧ w.activity? thread = some (.going (next r))

/-- **A step leaves a thread at its submission, or the thread is answered.** -/
theorem Bringing.step {w w' : World} {thread : ThreadId} {id : PoolId} {next : Reply → Program}
    {t : TaskId} {l : Label} (h : w.Reachable) (hs : w.step l = some w')
    (hb : w.Bringing thread id next t) :
    w'.Bringing thread id next t ∨ w'.Answered thread id next t := by
  have hS := sound_reachable h
  obtain ⟨ha, p, s, hp, hm, hb⟩ := hb
  cases hl : l.isOf thread with
  | false =>
      obtain ⟨q, hq, hsp⟩ := step_spares hS hs thread hp
      have hone : w.run [l] = some w' := run_cons hs
      have hlater := Pool.run_later h hone hp hq
      exact .inl ⟨step_activity hS hs ha hl, q, s, hq, hsp.calls (by simp [hl]) s hm,
        hlater.brings hb⟩
  | true =>
      obtain ⟨choice, q, step, q', hstep, ha', hq', hsame, -⟩ := step_callStep hS hs ha hl hp hm
      have hmove := Pool.callStep_move hstep
      obtain ⟨-, hcalls, -⟩ := hmove.frame
      have hleaves := hmove.brings hb
      cases step with
      | stage s' =>
          have hm' : (thread, s') ∈ q'.calls :=
            hsame.1 ▸ Pool.mem_follow_self (hcalls.symm ▸ hm)
          exact .inl ⟨ha', q', s', hq', hm', hleaves.of_trace hsame.2⟩
      | reply r => exact .inr ⟨q', r, hq', hleaves.of_trace hsame.2, ha'⟩

end World

/-- **A submission is told what becomes of its task.** A thread is inside a submission and has no
    answer yet. On every run it stays there or comes to be told `true` or `false`. It is told `true`
    exactly if the task is accepted, then or at any time, and `false` exactly if it is refused. -/
theorem submission_told {w w' : World} (h : w.Reachable) {ls : List Label}
    (hr : w.run ls = some w') {thread : ThreadId} {id : PoolId} {next : Reply → Program}
    (ha : w.activity? thread = some (.inside id next)) {p p' : Pool} {s : CallStage}
    (hp : w.pools[id]? = some p) (hm : (thread, s) ∈ p.calls) {t : TaskId}
    (hs : s.submits t = true) (hp' : w'.pools[id]? = some p') :
    w.Reaches ls w' (World.Bringing thread id next t) fun v => ∃ b,
      v.activity? thread = some (.going (next (.flag b))) ∧
      (b = true ↔ .accepted t ∈ p'.trace) ∧ (b = false ↔ .refused t ∈ p'.trace) := by
  have hreach := World.reaches_of_step (fun _ _ _ h hs hb => hb.step h hs) h hr
    (show w.Bringing thread id next t from ⟨ha, p, s, hp, hm, .inl hs⟩)
  rcases hreach with hall | ⟨done, v, left, hcomes, q, r, hq, htells, hact⟩
  · exact .inl hall
  -- what the trace says stays, and it says one of the two only
  have hlater := Pool.run_later (h.run hcomes.here) hcomes.on hq hp'
  obtain ⟨ha', ht'⟩ := Pool.tasks_reachable (h.run hr) p' (List.mem_of_getElem? hp')
  have hone (hd : .refused t ∈ p'.trace) : .accepted t ∉ p'.trace :=
    Pool.Denies.not_accepted ha' ht' (.inl hd)
  cases htells with
  | accepted hm =>
      have hm' := hlater.mem_trace hm
      exact .inr ⟨done, v, left, hcomes, true, hact, ⟨fun _ => hm', fun _ => rfl⟩, nofun,
        fun hd => absurd hm' (hone hd)⟩
  | refused hm =>
      have hm' := hlater.mem_trace hm
      exact .inr ⟨done, v, left, hcomes, false, hact, ⟨nofun, fun hacc => absurd hacc (hone hm')⟩,
        fun _ => hm', fun _ => rfl⟩

end WorkerPool
