import WorkerPool.Proofs.Fate

/-!
# What a shutdown leaves behind

When a shutdown by a thread outside the pool returns, no worker is left and nothing begins any more.
The immediate one leaves an empty queue; the graceful one leaves nothing undone that was accepted,
unless panics have driven every worker out.

* `immediate_leaves_nothing` -- the immediate shutdown;
* `graceful_loses_nothing` -- the graceful shutdown.
-/

namespace WorkerPool

/-- The worker has left its loop and no panic drove it out. -/
def WorkerStage.hasLeft : WorkerStage → Bool
  | .stopping | .leaving false | .finished false => true
  | _ => false

namespace Pool

/-- Since `p`, nothing was accepted and nothing was started. -/
def Quiet (p q : Pool) : Prop :=
  ∃ later, q.trace = later ++ p.trace ∧ ∀ t, .accepted t ∉ later ∧
    ∀ label i, .started t label i ∉ later

theorem Later.quiet {p q : Pool} (h : Later p q) (hd : p.draining = true)
    (hc : p.queue.accepting = false) (he : p.AllExited) : Quiet p q := by
  obtain ⟨later, e, hacc, hstart⟩ := h.trace
  exact ⟨later, e, fun t => ⟨hacc hc t, hstart hd he t⟩⟩

/-- When every worker has exited, each is counted, and every task that was started has ended. -/
theorem AllExited.counted {p : Pool} (he : p.AllExited) (ha : Accounted p) :
    p.exited = p.workers.length ∧
      ∀ t, p.holders t = 0 ∧ p.runners t = 0 ∧ p.starts t = p.ends t := by
  have hcount : p.stages.countP WorkerStage.isFinished = p.workers.length := by
    rw [List.countP_eq_length.mpr he, stages, List.length_map]
  refine ⟨by rw [exited_eq ha.exited, hcount], fun t => ?_⟩
  have hnone (f : WorkerStage → Bool) (hf : ∀ c, f (.finished c) = false) :
      p.stages.countP f = 0 := by
    refine List.countP_eq_zero.mpr fun s hs => ?_
    obtain ⟨crashed, rfl⟩ := WorkerStage.isFinished_iff.mp (he s hs)
    simp [hf]
  have hr : p.runners t = 0 := hnone _ fun _ => rfl
  have hrun := ha.run_eq t
  exact ⟨hnone _ fun _ => rfl, hr, by omega⟩

/-- When every worker has exited, not each by a panic, and the pool was not halted, the queue is
    empty and every accepted task was started once and has ended. -/
theorem AllExited.settled {p : Pool} (he : p.AllExited) (ha : Accounted p) (ht : traced.Holds p)
    (hh : p.halt = false) (hne : ¬ ∀ s ∈ p.stages, s = .finished true) :
    p.queue.items = [] ∧ ∀ t, .accepted t ∈ p.trace → p.starts t = 1 ∧ p.ends t = 1 := by
  have hno : ¬ p.halt = true := by simp [hh]
  have hitems : p.queue.items = [] :=
    by_contra fun hleft => hne (crashed_of_left ha.orderly hno he hleft)
  refine ⟨hitems, fun t hacc => ?_⟩
  obtain ⟨hholders, -, hends⟩ := (he.counted ha).2 t
  have hwaiting : p.waiting t = 0 := by rw [waiting, hitems]; rfl
  have hlosses : ¬ 0 < p.losses t := fun hpos =>
    (excuse_of_loss ha ht hacc hpos).elim hno fun hf => hne hf.2
  have hplaces := places_of_accepted ha ht hacc
  omega

/-- A worker that has left its loop while the pool is not halted has seen the end of the queue. -/
theorem spent_of_hasLeft {p : Pool} (ho : orderly.Holds p) (hh : p.halt = false) {s : WorkerStage}
    (hs : s ∈ p.stages) (hl : s.hasLeft = true) : p.Spent := by
  have hfits := ho.workers s hs
  have hno : ¬ p.halt = true := by simp [hh]
  cases s with
  | stopping => exact hfits.resolve_left hno
  | leaving crashed | finished crashed =>
      cases crashed with
      | false => exact hfits.resolve_left hno
      | true => cases hl
  | _ => cases hl

end Pool

open Pool

/-- **What an immediate shutdown leaves behind**, when it was called by a thread that is no worker
    of the pool: every worker has exited and is counted, whoever took the handles and whatever drove
    the workers out; every task that was started has ended; the queue is empty and closed. That is
    so in every later world too, and on the way there nothing is accepted and nothing is started. -/
theorem immediate_leaves_nothing {w w' : World} (h : w.Reachable) {ls : List Label}
    (hr : w.run ls = some w') {id : PoolId} {p p' : Pool} (hp : w.pools[id]? = some p)
    (hp' : w'.pools[id]? = some p') {thread : ThreadId} {joined : Nat}
    (hret : .returned thread .immediate joined ∈ p.trace) (hout : p.owns thread = false) :
    p'.AllExited ∧ p'.exited = p'.workers.length ∧
    (∀ t, p'.runners t = 0 ∧ p'.starts t = p'.ends t) ∧
    p'.queue.items = [] ∧ p'.queue.accepting = false ∧ p'.read .isShutdown = .flag true ∧
    Quiet p p' := by
  have hl := run_later h hr hp hp'
  have ho := (tasks_reachable h p (List.mem_of_getElem? hp)).1.orderly
  have ha' := (tasks_reachable (h.run hr) p' (List.mem_of_getElem? hp')).1
  have hleft := ho.shared.returned hret
  have he := hl.allExited hleft.draining (hleft.exited hout)
  obtain ⟨hcount, htasks⟩ := he.counted ha'
  have hleft' := hleft.later hl
  exact ⟨he, hcount, fun t => (htasks t).2, hleft'.emptied rfl, hleft'.closed,
    congrArg Reply.flag hleft'.draining,
    hl.quiet hleft.draining hleft.closed (hleft.exited hout)⟩

/-- An immediate shutdown returns, and then a second task is refused. -/
theorem immediate_leaves_nothing_in_lifetime : ∃ (w w' : World) (p p' : Pool), w.Reachable ∧
    w.pools[0]? = some p ∧ w'.pools[0]? = some p' ∧
    (.returned (.caller 0) .immediate 1 ∈ p.trace ∧ p.owns (.caller 0) = false) ∧
    p'.workers.length = 1 ∧ p'.AllExited ∧ p'.queue.accepting = false ∧ Quiet p p' := by
  obtain ⟨w, w', p, p', h, hr, hp, hp', hf, hg⟩ := exists_pools
    (firstSteps .immediate ++ moves (.worker 0 0) 5 ++ moves (.caller 0) 6 ++
      moves (.worker 0 0) 10 ++ moves (.caller 0) 4)
    (moves (.caller 0) 4)
    (fun p => decide (.returned (.caller 0) .immediate 1 ∈ p.trace))
    (fun p => p.workers.length == 1) (by decide)
  have hret := of_decide_eq_true hf
  obtain ⟨he, -, -, -, hclosed, -, hquiet⟩ := immediate_leaves_nothing h hr hp hp' hret rfl
  exact ⟨w, w', p, p', h, hp, hp', ⟨hret, rfl⟩, by simpa using hg, he, hclosed, hquiet⟩

/-- **A graceful shutdown loses nothing**, in a pool that no immediate shutdown has halted, whoever
    asks for it. A worker leaves its loop only after the queue was closed; when every worker has
    exited and not every one was driven out by a panic, the queue is empty and every accepted task
    was started once and has ended; and when the shutdown returns to a thread that is no worker of
    the pool, every worker has exited, and nothing is accepted or started ever after. -/
theorem graceful_loses_nothing {w w' : World} (h : w.Reachable) {ls : List Label}
    (hr : w.run ls = some w') {id : PoolId} {p p' : Pool} (hp : w.pools[id]? = some p)
    (hp' : w'.pools[id]? = some p') (hh : p.halt = false) :
    (∀ s ∈ p.stages, s.hasLeft = true → p.queue.accepting = false) ∧
    (p.AllExited → (¬ ∀ s ∈ p.stages, s = .finished true) →
      p.queue.items = [] ∧ ∀ t, .accepted t ∈ p.trace → p.starts t = 1 ∧ p.ends t = 1) ∧
    ∀ thread joined, .returned thread .graceful joined ∈ p.trace → p.owns thread = false →
      p.AllExited ∧ Quiet p p' := by
  have hl := run_later h hr hp hp'
  obtain ⟨ha, ht⟩ := tasks_reachable h p (List.mem_of_getElem? hp)
  refine ⟨fun s hs hleft => (spent_of_hasLeft ha.orderly hh hs hleft).1,
    fun he hne => he.settled ha ht hh hne, fun thread joined hret hout => ?_⟩
  have hleft := ha.orderly.shared.returned hret
  exact ⟨hleft.exited hout, hl.quiet hleft.draining hleft.closed (hleft.exited hout)⟩

/-- A graceful shutdown returns when the one task has ended, and then a second task is refused. -/
theorem graceful_loses_nothing_in_lifetime : ∃ (w w' : World) (p p' : Pool), w.Reachable ∧
    w.pools[0]? = some p ∧ w'.pools[0]? = some p' ∧ p.halt = false ∧
    (.accepted ⟨1⟩ ∈ p.trace ∧ p.starts ⟨1⟩ = 1 ∧ p.ends ⟨1⟩ = 1) ∧
    (.returned (.caller 0) .graceful 1 ∈ p.trace ∧ Quiet p p') := by
  obtain ⟨w, w', p, p', h, hr, hp, hp', hf, hg⟩ := exists_pools
    (firstSteps .graceful ++ moves (.worker 0 0) 5 ++ moves (.caller 0) 5 ++
      moves (.worker 0 0) 11 ++ moves (.caller 0) 3)
    (moves (.caller 0) 4)
    (fun p => decide (p.halt = false ∧ p.workers.map (·.stage.isFinished) = [true] ∧
      (p.workers.all fun worker => worker.stage.hasLeft) = true ∧ .accepted ⟨1⟩ ∈ p.trace ∧
      .returned (.caller 0) .graceful 1 ∈ p.trace))
    (fun _ => true) (by decide)
  obtain ⟨hh, hfin, hleft, hacc, hret⟩ := of_decide_eq_true hf
  obtain ⟨-, hdone, hback⟩ := graceful_loses_nothing h hr hp hp' hh
  obtain ⟨he, hquiet⟩ := hback (.caller 0) 1 hret rfl
  refine ⟨w, w', p, p', h, hp, hp', hh, ⟨hacc, (hdone he fun hall => ?_).2 ⟨1⟩ hacc⟩, hret, hquiet⟩
  -- the one worker was not driven out
  cases hw : p.workers with
  | nil => simp [hw] at hfin
  | cons worker rest =>
      have hk := hall worker.stage (List.mem_map_of_mem (hw ▸ List.mem_cons_self ..))
      have hl := List.all_eq_true.mp hleft worker (hw ▸ List.mem_cons_self ..)
      rw [hk] at hl
      cases hl

end WorkerPool
