import WorkerPool.Proofs.Conservation

/-!
# Two headcounts of the workers

A pool counts the workers that are active and the workers that have exited. Both counts are words
that workers write on their way; where a worker is says what it has written, so the counts are
right after every step. A worker that a panic drives out never lowers the active count and is still
counted as exited: the exit is counted on every way out of the loop.

* `WorkerStage.isOut`, `Pool.WayOut` -- out of the loop, and the ways there;
* `step_stage`, `step_wayOut` -- what a step does to one worker, and how one leaves its loop;
* `Pool.engaged` -- the workers between raising the active count and lowering it;
* `Pool.active_toNat_eq`, `Pool.exited_le_size` -- what the two counts say;
* `callStep_waits_iff` -- when a thread that waits for all exits goes on;
* `headcounts_exact` -- all of it, in every reachable world.
-/

namespace WorkerPool

/-- The worker is out of its loop. -/
def WorkerStage.isOut : WorkerStage → Bool
  | .stopping | .leaving _ | .finished _ => true
  | _ => false

/-- Whoever counts as active was not driven out. -/
theorem WorkerStage.not_isKilled_of_isActive {s : WorkerStage} (h : s.isActive = true) :
    s.isKilled = false := by
  cases s with
  | running | caught | reporting | lowering => rfl
  | _ => cases h

namespace Pool

/-! ## 1. The ways out of the loop -/

/-- The ways of a worker of `p` out of its loop: the pool is halted, the queue is closed and empty,
    the pool was halted while the worker took a task, or a panic comes out of the handling of a
    panic. -/
inductive WayOut (p : Pool) : WorkerStage → WorkerStage → Prop where
  | halted (h : p.halt = true) : WayOut p .checkingHalt .stopping
  | spent (h : p.Spent) : WayOut p .popping .stopping
  | tooLate (task : Task) (h : p.halt = true) : WayOut p (.discarding task) .stopping
  | unwinds (job : Job) (payload : Payload) (h : payload.explodes = true) :
      WayOut p (.caught job payload) (.leaving true)

/-- **A move out of the loop takes one of the ways.** -/
theorem WorkerMove.wayOut {p q : Pool} {i : Nat} {s s' : WorkerStage} (h : WorkerMove p i s q s')
    (hs : s.Fits p) (hin : s.isOut = false) (hout : s'.isOut = true) : WayOut p s s' := by
  cases h with
  | seesHalt hh => exact .halted hh
  | findsNothing queue hsl hq =>
      obtain ⟨hi, ha, -⟩ := Queue.attempt_nothingMore hq
      exact .spent ⟨ha, hi⟩
  | discards task => exact .tooLate task hs
  | crashes job payload inner he => exact .unwinds job payload (Option.isSome_of_eq_some he)
  | stops | exits => cases hin
  | _ => cases hout

/-! ## 2. The active count -/

/-- How many workers have raised the active count and are to lower it again. -/
def engaged (p : Pool) : Nat := p.stages.countP WorkerStage.isActive

theorem countP_active (p : Pool) :
    (p.stages.countP fun s => s.isActive || s.isKilled) = p.engaged + p.killed :=
  countP_or fun _ _ => WorkerStage.not_isKilled_of_isActive

/-- Workers of two kinds are no more than the workers of the pool. -/
theorem engaged_add_killed_le (p : Pool) : p.engaged + p.killed ≤ p.stages.length := by
  rw [← countP_active]
  exact List.countP_le_length

/-- Every worker inside a task is engaged. -/
theorem busy_le_engaged (p : Pool) : p.busy ≤ p.engaged := by
  refine List.countP_mono_left fun s _ hs => ?_
  cases s with
  | running => rfl
  | _ => cases hs

/-- **The active count is that of the workers engaged and of those driven out**, as a number. -/
theorem active_toNat_eq {w : World} (h : w.Reachable) {p : Pool} (hp : p ∈ w.pools) :
    p.active.toNat = p.engaged + p.killed := by
  have hle := p.engaged_add_killed_le
  have hcrew := crew_reachable h p hp
  have hsize := size_lt h p hp
  rw [active_eq h hp, countP_active, UInt64.toNat_ofNat_of_lt' (by omega)]

/-- A worker that is neither engaged nor driven out leaves room below the number of workers. -/
theorem engaged_add_killed_lt {p : Pool} {s : WorkerStage} (hs : s ∈ p.stages)
    (ha : s.isActive = false) (hk : s.isKilled = false) :
    p.engaged + p.killed < p.stages.length := by
  refine lt_of_le_of_ne p.engaged_add_killed_le fun he => ?_
  rw [← countP_active] at he
  have hall := List.countP_eq_length.mp he s hs
  rw [ha, hk] at hall
  cases hall

/-! ## 3. The count of exits -/

/-- The exits counted are those of the workers whose threads have ended. -/
theorem exited_eq_countP {w : World} (h : w.Reachable) {p : Pool} (hp : p ∈ w.pools) :
    p.exited = p.stages.countP WorkerStage.isFinished :=
  exited_eq (exits_invariant.reachable h p hp).2

theorem exited_le_size {w : World} (h : w.Reachable) {p : Pool} (hp : p ∈ w.pools) :
    p.exited ≤ p.size := by
  rw [exited_eq_countP h hp]
  exact List.countP_le_length.trans (crew_reachable h p hp)

/-- **A thread outside the pool that waits for all exits goes on exactly when all have exited.** -/
theorem callStep_waits_iff {w : World} (h : w.Reachable) {p : Pool} (hp : p ∈ w.pools)
    {thread : ThreadId} (hout : p.owns thread = false) (choice : Nat) (mode : Mode)
    (why : Purpose) (joined : Nat) :
    (p.callStep thread choice (.joining mode why [] joined)).isSome = true ↔ p.AllExited := by
  have hlen : p.stages.length = p.workers.length := by simp [stages]
  have hwait : (p.callStep thread choice (.joining mode why [] joined)).isSome = true ↔
      p.workers.length ≤ p.exited := by
    simp only [callStep, hout, Bool.false_or, decide_eq_true_eq]
    split <;> simp_all
  rw [hwait]
  refine ⟨allExited_of_exited (exits_invariant.reachable h p hp).2, fun he => ?_⟩
  rw [exited_eq_countP h hp, List.countP_eq_length.mpr he, hlen]

end Pool

namespace World

open Pool (WorkerMove WayOut)

section Stepping

variable {w w' : World} {l : Label} {id : PoolId} {p q : Pool} {i : Nat} {s s' : WorkerStage}

/-- **What a step does to one worker**: nothing, or the worker goes on inside its task, or makes
    one of its moves. -/
theorem step_stage (h : w.Reachable) (hs : w.step l = some w') (hp : w.pools[id]? = some p)
    (hq : w'.pools[id]? = some q) (hi : p.stages[i]? = some s) (hi' : q.stages[i]? = some s') :
    s' = s ∨ (∃ job activity, s' = .running job activity) ∨ ∃ r, WorkerMove p i s r s' := by
  have hS := sound_reachable h
  obtain ⟨worker, hw, rfl⟩ := Pool.stages_getElem?.mp hi
  cases hl : l.isOf (.worker id i) with
  | false =>
      obtain ⟨r, hr, hw'⟩ := step_retains hS hs hp hw hl
      obtain rfl : q = r := Option.some.inj (hq.symm.trans hr)
      exact .inl (Option.some.inj (hi'.symm.trans (Pool.stages_getElem?.mpr ⟨worker, hw', rfl⟩)))
  | true =>
      cases l with
      | act t choice =>
          obtain rfl : t = .worker id i := of_decide_eq_true hl
          have hacts : Acts w (.worker id i) w' := act_acts hS hs
          cases hacts with
          | @task _ _ r job before after v hat hpass hv hr hid hst =>
              obtain rfl : r.setStage i (.running job after) = q :=
                Option.some.inj ((set_of_getElem? hr _).symm.trans hq)
              rw [stages_setStage, set_of_getElem? hst] at hi'
              exact .inr (.inl ⟨job, after, (Option.some.inj hi').symm⟩)
          | @work _ _ r r' s₀ s₁ hr hst hm hend =>
              obtain rfl : p = r := Option.some.inj (hp.symm.trans hr)
              obtain rfl : worker.stage = s₀ := Option.some.inj (hi.symm.trans hst)
              obtain rfl : r'.setStage i s₁ = q :=
                Option.some.inj ((set_of_getElem? hr _).symm.trans hq)
              rw [stages_setStage, hm.untouched.stages, set_of_getElem? hi] at hi'
              cases hi'
              exact .inr (.inr ⟨r', hm⟩)
      | _ => cases hl

/-- **A worker that a step takes out of its loop took one of the ways.** -/
theorem step_wayOut (h : w.Reachable) (hs : w.step l = some w') (hp : w.pools[id]? = some p)
    (hq : w'.pools[id]? = some q) (hi : p.stages[i]? = some s) (hi' : q.stages[i]? = some s')
    (hin : s.isOut = false) (hout : s'.isOut = true) : WayOut p s s' := by
  have hfits : s.Fits p :=
    (Pool.orderly_reachable h p (List.mem_of_getElem? hp)).workers _ (List.mem_of_getElem? hi)
  rcases step_stage h hs hp hq hi hi' with rfl | ⟨job, activity, rfl⟩ | ⟨r, hm⟩
  · rw [hin] at hout
    cases hout
  · cases hout
  · exact hm.wayOut hfits hin hout

end Stepping

end World

open World Pool

/-- **Both headcounts are exact** in every pool of every reachable world. The active count is that
    of the workers between raising it and lowering it and of those that panics have driven out. It
    never exceeds the number of workers, so no more than that many tasks are being run at once, and
    neither raising nor lowering it wraps. The exits counted are those of the workers whose threads
    have ended: a worker that has ended stays so along every run and is counted once, whichever way
    took it out of its loop, and there are no other ways. A thread outside the pool that waits for
    all exits goes on exactly when every worker has exited. -/
theorem headcounts_exact {w : World} (h : w.Reachable) {id : PoolId} {p : Pool}
    (hp : w.pools[id]? = some p) :
    (p.read .active = .number (p.engaged + p.killed) ∧ p.engaged + p.killed ≤ p.size ∧
      p.busy ≤ p.engaged) ∧
    (∀ task, .ready task ∈ p.stages → (p.active + 1).toNat = p.active.toNat + 1) ∧
    (∀ job panicked, .lowering job panicked ∈ p.stages →
      (p.active - 1).toNat + 1 = p.active.toNat) ∧
    (p.exited = p.stages.countP WorkerStage.isFinished ∧ p.exited ≤ p.size) ∧
    (∀ ls w' q, w.run ls = some w' → w'.pools[id]? = some q → ∀ (i : Nat) crashed,
      p.stages[i]? = some (WorkerStage.finished crashed) →
        q.stages[i]? = some (WorkerStage.finished crashed)) ∧
    (∀ l w' q, w.step l = some w' → w'.pools[id]? = some q → ∀ (i : Nat) s s',
      p.stages[i]? = some s → q.stages[i]? = some s' → s.isOut = false → s'.isOut = true →
        WayOut p s s') ∧
    (∀ thread choice mode why joined, p.owns thread = false →
      ((p.callStep thread choice (.joining mode why [] joined)).isSome = true ↔ p.AllExited)) := by
  have hmem := List.mem_of_getElem? hp
  have hactive := active_toNat_eq h hmem
  have hcrew := crew_reachable h p hmem
  have hsize := size_lt h p hmem
  refine ⟨⟨congrArg Reply.number hactive, p.engaged_add_killed_le.trans hcrew, p.busy_le_engaged⟩,
    fun task hs => ?_, fun job panicked hs => ?_, ⟨exited_eq_countP h hmem, exited_le_size h hmem⟩,
    fun ls w' q hr hq i crashed hi => (run_later h hr hp hq).finished hi,
    fun l w' q hs hq i s s' hi hi' hin hout => step_wayOut h hs hp hq hi hi' hin hout,
    fun thread choice mode why joined hout =>
      callStep_waits_iff h hmem hout choice mode why joined⟩
  · have hroom := engaged_add_killed_lt hs rfl rfl
    have hlt : p.active.toNat + 1 < 2 ^ 64 := by
      have : UInt64.size = 2 ^ 64 := rfl
      omega
    rw [UInt64.toNat_add, UInt64.toNat_one, Nat.mod_eq_of_lt hlt]
  · have hpos : 0 < p.engaged := List.countP_pos_iff.mpr ⟨_, hs, rfl⟩
    have hle : (1 : UInt64) ≤ p.active := by
      rw [UInt64.le_iff_toNat_le, UInt64.toNat_one]
      omega
    rw [UInt64.toNat_sub_of_le _ _ hle, UInt64.toNat_one]
    omega

/-- Two workers, one driven out and one inside a task: both are active, one has exited, and a thread
    that waits for all exits waits on. -/
theorem headcounts_exact_when_crowded : ∃ (w : World) (p : Pool), w.Reachable ∧
    w.pools[0]? = some p ∧ p.size = 2 ∧ p.killed = 1 ∧ p.engaged = 1 ∧
    p.read .active = .number (1 + 1) ∧ p.exited = 1 ∧ p.exited ≤ p.size ∧ ¬ p.AllExited ∧
    ¬ (p.callStep (.caller 0) 0 (.joining .graceful .asked [] 0)).isSome = true := by
  have hrun : (((World.initial true {}).run (.fork crowded :: moves (.caller 0) 17 ++
      moves (.worker 0 0) 8 ++ moves (.worker 0 1) 5)).any fun w => (w.pools[0]?).any fun p =>
        decide (p.size = 2 ∧ p.killed = 1 ∧ p.engaged = 1 ∧
          p.stages.map WorkerStage.isFinished = [true, false])) = true := by decide
  obtain ⟨w, hw, hrun⟩ := (Option.any_eq_true ..).mp hrun
  obtain ⟨p, hp, hrun⟩ := (Option.any_eq_true ..).mp hrun
  obtain ⟨hsize, hkilled, hengaged, hfinished⟩ := of_decide_eq_true hrun
  have h : w.Reachable := (World.Reachable.initial true {}).run hw
  obtain ⟨⟨hactive, -, -⟩, -, -, ⟨hexited, hle⟩, -, -, hwaits⟩ := headcounts_exact h hp
  have hone : p.exited = 1 := by
    have hcount : p.stages.countP WorkerStage.isFinished =
        (p.stages.map WorkerStage.isFinished).countP id := by rw [List.countP_map]; rfl
    rw [hexited, hcount, hfinished]
    rfl
  have hnot : ¬ p.AllExited := fun he => by
    have hall : ∀ b ∈ p.stages.map WorkerStage.isFinished, b = true := List.forall_mem_map.mpr he
    rw [hfinished] at hall
    exact absurd (hall false (by simp)) Bool.false_ne_true
  rw [hengaged, hkilled] at hactive
  exact ⟨w, p, h, hp, hsize, hkilled, hengaged, hactive, hone, hle, hnot,
    fun hgo => hnot ((hwaits (.caller 0) 0 .graceful .asked 0 rfl).mp hgo)⟩

end WorkerPool
