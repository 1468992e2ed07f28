import WorkerPool.Proofs.Order
import WorkerPool.Proofs.Roster
import WorkerPool.Proofs.Survival
import WorkerPool.Proofs.Wakeup
import WorkerPool.Schedule

/-!
# No worker idles while a task is queued

Take a world in which no thread can move. Then every worker of a pool sleeps on the queue, is held
up inside its task, or has ended, and a worker sleeps, or has ended by itself, only if nothing is
queued: a task that comes wakes a sleeper, and a woken worker can move. So the workers that are left
are all inside tasks, or there is no task that is not.

* `Pool.parking` -- whoever sleeps on the queue, or was woken there, is a worker about to look at it;
* `Pool.Complete` -- all workers are there, unless the pool is being made or halted;
* `AtStandstill` -- what is known of a pool in which nothing moves;
* `not_canMove_of_threads` -- whether anything moves can be computed;
* `work_is_conserved` -- how many workers are active then, and how many tasks are queued.
-/

namespace WorkerPool

/-! ## 1. Who sleeps on the queue -/

namespace Queue

variable {α : Type u}

/-- The consumers that sleep, and those that were woken and have not looked since. -/
def parked (q : Queue α) : List Nat := q.sleeping ++ q.woken

theorem mem_parked_wake (q : Queue α) (who k : Nat) : k ∈ (q.wake who).parked ↔ k ∈ q.parked := by
  unfold wake
  split
  · next h => exact (perm_wake h).mem_iff
  · exact .rfl

theorem mem_parked_push (q : Queue α) (a : α) (choice k : Nat) :
    k ∈ (q.push a choice).1.parked ↔ k ∈ q.parked := by
  unfold push
  split
  · rcases wakeOne_cases { q with items := q.items ++ [a] } choice with ⟨-, e⟩ | ⟨who, -, e⟩
    · rw [e]
      exact .rfl
    · rw [e]
      exact mem_parked_wake _ who k
  · exact .rfl

theorem mem_parked_close (q : Queue α) (k : Nat) : k ∈ q.close.parked ↔ k ∈ q.parked := by
  simp [close, parked, or_comm]

/-- Looking at the queue parks nobody else. -/
theorem mem_parked_attempt {q q' : Queue α} {who k : Nat} {found : Found α}
    (h : q.attempt who = (q', found)) (hk : k ≠ who) (hm : k ∈ q'.parked) : k ∈ q.parked := by
  have hsub {l : List Nat} (hm : k ∈ l.erase who) : k ∈ l := List.mem_of_mem_erase hm
  unfold attempt at h
  split at h
  · cases h
    exact (List.mem_append.mp hm).elim (List.mem_append_left _) fun hm =>
      List.mem_append_right _ (hsub hm)
  · split at h <;> cases h
    · rcases List.mem_append.mp hm with hm | hm
      · rcases List.mem_append.mp hm with hm | hm
        · exact List.mem_append_left _ hm
        · exact absurd (List.mem_singleton.mp hm) hk
      · exact List.mem_append_right _ (hsub hm)
    · exact (List.mem_append.mp hm).elim (List.mem_append_left _) fun hm =>
        List.mem_append_right _ (hsub hm)

/-- Who does not sleep after its look is not parked any more. -/
theorem not_mem_parked_attempt {q q' : Queue α} {who : Nat} {found : Found α}
    (h : q.attempt who = (q', found)) (hn : q.parked.Nodup) (hs : who ∉ q.sleeping)
    (hne : found ≠ .sleep) : who ∉ q'.parked := by
  have herase : who ∉ q.woken.erase who := fun hm => by
    have := (List.nodup_append.mp hn).2.1
    exact (this.mem_erase_iff.mp hm).1 rfl
  have hout : who ∉ q.sleeping ++ q.woken.erase who := fun hm =>
    (List.mem_append.mp hm).elim hs herase
  unfold attempt at h
  split at h
  · cases h
    exact hout
  · split at h <;> cases h
    · exact absurd rfl hne
    · exact hout

end Queue

namespace Pool

/-- Whoever is parked on the queue is a worker that is about to look at it. -/
def parking : Roll := fun p i o => i ∈ p.queue.parked → o = some .popping

theorem parking_kept : parking.Kept fun p => p.queue.Reachable where
  own {p q i s s'} hq hp h := by
    have hn : p.queue.parked.Nodup := (no_lost_wakeup hq).1
    have hout (hs : s ≠ .popping) : i ∉ p.queue.parked := fun hm => hs (Option.some.inj (hp hm))
    intro hm
    cases h with
    | pops task queue hs hat =>
        exact absurd hm (Queue.not_mem_parked_attempt hat hn hs (by simp))
    | findsNothing queue hs hat =>
        exact absurd hm (Queue.not_mem_parked_attempt hat hn hs (by simp))
    | sleeps | seesNoHalt => rfl
    | _ => exact absurd hm (hout (by simp))
  other hq hij h hp hm := by
    refine hp ?_
    cases h with
    | pops task queue hs hat | findsNothing queue hs hat | sleeps queue hs hat =>
        exact Queue.mem_parked_attempt hat hij hm
    | _ => exact hm
  recruit hp hm := by cases hp hm
  call hq h hp hm := by
    refine hp ?_
    cases h with
    | pushes task choice ha => exact (Queue.mem_parked_push _ _ _ _).mp hm
    | closes => exact (Queue.mem_parked_close _ _).mp hm
    | _ => exact hm
  enter h hp hm := hp (by cases h <;> exact hm)
  note n hp := hp
  wake k hp hm := hp ((Queue.mem_parked_wake _ _ _).mp hm)
  reclaim h hp hm := by
    obtain ⟨-, -, rfl⟩ := reclaim_cases h
    exact hp hm
  placed workers calls hp := hp

/-- **Whoever is parked is a worker about to look**, in every reachable world. -/
theorem parking_reachable {w : World} (h : w.Reachable) : ∀ p ∈ w.pools, parking.Reads p :=
  fun p hp => ((parking_kept.invariant queue_invariant fun hf i hm => by
    rw [hf.blank.queue] at hm
    cases hm).reachable h p hp).2

end Pool

/-! ## 2. Whether all workers are there -/

/-- The pool is being made and not halted, though the making may have failed. -/
def CallStage.isMaking : CallStage → Bool
  | .spawning _ _ | .raising (.startFailed _ _) | .halting (.startFailed _ _) => true
  | _ => false

namespace Pool

/-- As many workers as the pool is made with, unless it is being made or is halted. -/
def Complete (p : Pool) : Prop :=
  p.stages.length = p.size ∨ p.halt = true ∨ ∃ c ∈ p.calls, c.2.isMaking = true

theorem Complete.change {p q : Pool} (hst : Staffed p) (hcrew : p.stages.length ≤ p.size)
    (hp : Complete p) (h : Change p q) : Complete q := by
  rcases hp with hlen | hh | ⟨⟨t, s⟩, hm, hs⟩
  · left
    cases h with
    | work hw h =>
        rw [World.stages_setStage, List.length_set, h.untouched.stages, hlen]
        exact h.size.symm
    | @call thread s r next hl h =>
        rw [stages_follow, size_follow, h.size]
        rcases h.crew with e | ⟨n, refusal, rfl, hn, -⟩
        · rw [e, hlen]
        · -- there is no worker left to be started
          have := hst.spawning (mem_of_lookup hl)
          omega
    | enter hs ht h => cases h <;> exact hlen
    | note n => exact hlen
    | wake i => exact hlen
    | reclaim h =>
        obtain ⟨-, -, rfl⟩ := reclaim_cases h
        exact hlen
  · exact .inr (.inl ((h.later hst.toFormed).halt hh))
  · rcases h.call_cases hst.toFormed hm with hm' | ⟨r, next, hmove, rfl⟩
    · exact .inr (.inr ⟨_, hm', hs⟩)
    · obtain ⟨-, hcalls, -⟩ := hmove.frame
      have hm' : (t, s) ∈ r.calls := hcalls.symm ▸ hm
      cases hmove with
      | spawns | spawnFails => exact .inr (.inr ⟨_, mem_follow_self hm', rfl⟩)
      | spawned n refusal hn =>
          have := hst.spawning hm
          refine .inl ?_
          rw [stages_follow, size_follow]
          omega
      | raises why => exact .inr (.inr ⟨_, mem_follow_self hm', by cases why <;> exact hs⟩)
      | halts => exact .inr (.inl rfl)
      | _ => cases hs

theorem Fresh.complete {p : Pool} (h : Fresh p) : Complete p := by
  obtain ⟨thread, refusal, hc⟩ := h.blank.calls
  exact .inr (.inr ⟨_, hc ▸ List.mem_singleton_self _, rfl⟩)

theorem complete_reachable {w : World} (h : w.Reachable) : ∀ p ∈ w.pools, Complete p := by
  have hcrew : Invariant fun p => Staffed p ∧ p.stages.length ≤ p.size :=
    staffed_invariant.beside (fun hf => by rw [hf.blank.stages]; exact Nat.zero_le _) Staffed.crew
  exact fun p hp => ((hcrew.beside Fresh.complete fun hI hp hc =>
    hp.change hI.1 hI.2 hc).reachable h p hp).2

/-- The number of workers fits into a word. -/
theorem size_lt {w : World} (h : w.Reachable) : ∀ p ∈ w.pools, p.size < UInt64.size := by
  have hinv : Invariant fun p => p.size < UInt64.size := by
    refine ⟨fun h => ?_, fun hp h => ?_⟩
    · obtain ⟨id, config, cpus, telemetry, now, thread, refusal, rfl⟩ := h
      have hlt : max 1 (config.workerThreads cpus).toNat < UInt64.size :=
        Nat.max_lt.mpr ⟨by decide, UInt64.toNat_lt_size _⟩
      simp only [ofConfig]
      split <;> exact hlt
    · cases h with
      | work hw h => exact lt_of_eq_of_lt h.size hp
      | call hl h => rw [size_follow, h.size]; exact hp
      | enter hs ht h => cases h <;> exact hp
      | note n => exact hp
      | wake i => exact hp
      | reclaim h =>
          obtain ⟨-, -, rfl⟩ := reclaim_cases h
          exact hp
  exact hinv.reachable h

/-! ## 3. Nothing moves -/

end Pool

/-- The worker is inside a task. -/
def WorkerStage.isRunning : WorkerStage → Bool
  | .running _ _ => true
  | _ => false

/-- The task that the worker is inside of. -/
def WorkerStage.task? : WorkerStage → Option TaskId
  | .running job _ => some job.id
  | _ => none

namespace Pool

/-- How many workers a panic has driven out. -/
def killed (p : Pool) : Nat := p.stages.countP WorkerStage.isKilled

/-- How many tasks the queue has taken in that have not ended. -/
def unended (p : Pool) : Nat := p.acceptances.countP fun t => p.ends t = 0

/-- How many workers are inside tasks. -/
def busy (p : Pool) : Nat := p.stages.countP WorkerStage.isRunning

/-- A pool that is not halted, in a world in which nothing moves: every worker sleeps on the queue,
    is inside a task or has ended, and only if nothing is queued does one sleep or has one ended by
    itself. -/
structure AtStandstill (p : Pool) : Prop where
  stages : ∀ {i : Nat} {s : WorkerStage}, p.stages[i]? = some s →
    s = .popping ∧ i ∈ p.queue.sleeping ∨ s.isRunning = true ∨ s.isFinished = true
  engaged : p.queue.items ≠ [] → ∀ s ∈ p.stages, s.isRunning = true ∨ s.isKilled = true
  complete : p.stages.length = p.size

/-- Those of two kinds, if nobody is of both. -/
theorem countP_or {α : Type} {f g : α → Bool} {l : List α}
    (h : ∀ x ∈ l, f x = true → g x = false) :
    (l.countP fun x => f x || g x) = l.countP f + l.countP g := by
  induction l with
  | nil => rfl
  | cons x rest ih =>
      have hx := h x (List.mem_cons_self ..)
      rw [List.countP_cons, List.countP_cons, List.countP_cons,
        ih fun y hy => h y (List.mem_cons_of_mem _ hy)]
      cases hf : f x with
      | false => simp; omega
      | true => simp [hx hf]; omega

theorem isMaking_moves {p : Pool} {s : CallStage} (hs : s.isMaking = true) (thread : ThreadId) :
    (p.callStep thread 0 s).isSome = true := by
  cases s with
  | spawning next refusal =>
      simp only [callStep]
      split
      · split <;> rfl
      · rfl
  | raising why | halting why => rfl
  | _ => cases hs

theorem atStandstill {w : World} (h : w.Reachable) (hstuck : ∀ thread, ¬ w.CanMove thread)
    {id : PoolId} {p : Pool} (hp : w.pools[id]? = some p) (hh : p.halt = false) :
    AtStandstill p := by
  have hmem := List.mem_of_getElem? hp
  obtain ⟨ha, -⟩ := tasks_reachable h p hmem
  have hstages {i : Nat} {s : WorkerStage} (hs : p.stages[i]? = some s) :
      s = .popping ∧ i ∈ p.queue.sleeping ∨ s.isRunning = true ∨ s.isFinished = true := by
    by_contra hno
    simp only [not_or, not_and, Bool.not_eq_true] at hno
    obtain ⟨hsleep, hrun, hfin⟩ := hno
    refine hstuck (.worker id i) (World.canMove_of_stage hp hs hfin ?_ hsleep)
    cases s with
    | running => cases hrun
    | _ => rfl
  refine ⟨hstages, fun hne s hs => ?_, ?_⟩
  · obtain ⟨i, hi⟩ := List.getElem?_of_mem hs
    rcases hstages hi with ⟨-, hsleep⟩ | hrun | hfin
    · -- somebody was woken for what is queued, and can move
      obtain ⟨hn, -, hlost⟩ := no_lost_wakeup (queue_reachable h p hmem)
      have hwoken : p.queue.woken ≠ [] := fun hnone =>
        hlost ⟨List.ne_nil_of_mem hsleep, .inl hne, hnone⟩
      obtain ⟨k, hk⟩ := List.exists_mem_of_ne_nil _ hwoken
      have hst : p.stages[k]? = some .popping :=
        parking_reachable h p hmem k (List.mem_append_right _ hk)
      have hawake : k ∉ p.queue.sleeping := fun hks => (List.nodup_append.mp hn).2.2 k hks k hk rfl
      exact absurd (World.canMove_of_stage hp hst rfl rfl fun _ => hawake) (hstuck _)
    · exact .inl hrun
    · obtain ⟨crashed, rfl⟩ := WorkerStage.isFinished_iff.mp hfin
      cases crashed with
      | true => exact .inr rfl
      | false => exact absurd (spent_of_hasLeft ha.orderly hh hs rfl).2 hne
  · rcases complete_reachable h p hmem with hlen | hhalt | ⟨⟨thread, s⟩, hm, hs⟩
    · exact hlen
    · rw [hh] at hhalt
      cases hhalt
    · exact absurd (World.canMove_of_callStep (World.sound_reachable h) hp hm
        (isMaking_moves hs thread)) (hstuck thread)

namespace AtStandstill

variable {p : Pool}

/-- Nobody is between taking a task and beginning it. -/
theorem holders_eq (hp : AtStandstill p) (t : TaskId) : p.holders t = 0 := by
  refine List.countP_eq_zero.mpr fun s hs => ?_
  obtain ⟨i, hi⟩ := List.getElem?_of_mem hs
  rcases hp.stages hi with ⟨rfl, -⟩ | hrun | hfin
  · simp [WorkerStage.holds]
  · cases s <;> simp [WorkerStage.isRunning] at hrun ⊢
  · obtain ⟨crashed, rfl⟩ := WorkerStage.isFinished_iff.mp hfin
    simp [WorkerStage.holds]

/-- The active workers are those inside tasks, and those that panics have driven out. -/
theorem active_toNat (hp : AtStandstill p) (hactive : p.active =
    UInt64.ofNat (p.stages.countP fun s => s.isActive || s.isKilled))
    (hsize : p.size < UInt64.size) : p.active.toNat = p.busy + p.killed := by
  have hsame : p.stages.countP (fun s => s.isActive || s.isKilled) =
      p.stages.countP fun s => s.isRunning || s.isKilled := by
    refine List.countP_congr fun s hs => ?_
    obtain ⟨i, hi⟩ := List.getElem?_of_mem hs
    rcases hp.stages hi with ⟨rfl, -⟩ | hrun | hfin
    · simp [WorkerStage.isActive, WorkerStage.isRunning]
    · cases s <;> simp [WorkerStage.isRunning, WorkerStage.isActive] at hrun ⊢
    · obtain ⟨crashed, rfl⟩ := WorkerStage.isFinished_iff.mp hfin
      simp [WorkerStage.isActive, WorkerStage.isRunning]
  have hle := List.countP_le_length (p := fun s => s.isActive || s.isKilled) (l := p.stages)
  have hlen := hp.complete
  rw [hactive, UInt64.toNat_ofNat_of_lt' (by omega), hsame]
  exact countP_or fun s _ hs => by cases s <;> first | rfl | cases hs

/-- As long as none is lost, a task that has not ended is queued or a worker is inside it. -/
theorem unended_eq (hp : AtStandstill p) (ho : Ordered p)
    (hnone : ∀ t, .accepted t ∈ p.trace → p.losses t = 0) :
    p.unended = p.queue.length + p.busy := by
  have hperm : (p.acceptances.filter fun t => p.ends t = 0).Perm
      (p.queue.items.map Task.id ++ p.stages.filterMap WorkerStage.task?) := by
    refine List.perm_iff_count.mpr fun t => ?_
    have hwaiting : (p.queue.items.map Task.id).count t = p.waiting t := by
      rw [List.count, List.countP_map, waiting, Task.among]
      exact List.countP_congr fun task _ => by simp
    have hrunners : (p.stages.filterMap WorkerStage.task?).count t = p.runners t := by
      rw [List.count_filterMap, runners]
      exact List.countP_congr fun s _ => by cases s <;> simp [WorkerStage.task?]
    have hrun := ho.accounted.run_eq t
    have hholders := hp.holders_eq t
    rw [List.count_append, hwaiting, hrunners]
    by_cases hacc : .accepted t ∈ p.trace
    · have hone := List.count_eq_one_of_mem ho.nodup (mem_acceptances.mpr hacc)
      have hplaces := places_of_accepted ho.accounted ho.traced hacc
      have hlosses := hnone t hacc
      by_cases hends : p.ends t = 0
      · rw [List.count_filter (by simpa using hends), hone]
        omega
      · rw [List.count_eq_zero.mpr fun hm => hends (by simpa using (List.mem_filter.mp hm).2)]
        omega
    · have hzero : ¬ 0 < p.waiting t + p.holders t + p.starts t :=
        fun hpos => hacc (accepted_of_places ho.traced hpos)
      rw [List.count_eq_zero.mpr fun hm => hacc (mem_acceptances.mp (List.mem_filter.mp hm).1)]
      omega
  have hbusy : (p.stages.filterMap WorkerStage.task?).length = p.busy := by
    rw [List.length_filterMap_eq_countP, busy]
    exact List.countP_congr fun s _ => by cases s <;> simp [WorkerStage.task?, WorkerStage.isRunning]
  calc p.unended = (p.acceptances.filter fun t => p.ends t = 0).length :=
        List.countP_eq_length_filter
    _ = (p.queue.items.map Task.id ++ p.stages.filterMap WorkerStage.task?).length :=
        hperm.length_eq
    _ = p.queue.length + p.busy := by rw [List.length_append, List.length_map, hbusy, Queue.length]

/-- The workers that are left are inside tasks, or nothing is queued. -/
theorem busy_cases (hp : AtStandstill p) : p.busy + p.killed ≤ p.size ∧
    (p.queue.items ≠ [] → p.busy + p.killed = p.size) := by
  have hsum : p.stages.countP (fun s => s.isRunning || s.isKilled) = p.busy + p.killed :=
    countP_or fun s _ hs => by cases s <;> first | rfl | cases hs
  rw [← hsum, ← hp.complete]
  refine ⟨List.countP_le_length, fun hne => List.countP_eq_length.mpr fun s hs => ?_⟩
  simpa using hp.engaged hne s hs

end AtStandstill

end Pool

/-! ## 4. Finding out whether anything moves -/

namespace World

/-- Whom a push wakes does not decide whether it can be done. -/
theorem callStep_isSome (p : Pool) (thread : ThreadId) (choice choice' : Nat) (s : CallStage) :
    (p.callStep thread choice s).isSome = (p.callStep thread choice' s).isSome := by
  cases s with
  | pushing task =>
      simp only [Pool.callStep]
      split <;> split <;> rfl
  | joining mode why left joined | unwinding why left joined payload => cases left <;> rfl
  | discarding why joined removed => cases removed <;> rfl
  | _ => rfl

theorem advance_isSome (w : World) (thread : ThreadId) (choice choice' : Nat) (a : Activity) :
    (w.advance thread choice a).isSome = (w.advance thread choice' a).isSome := by
  cases a with
  | inside id next =>
      simp only [advance, proceed]
      cases w.pools[id]? with
      | none => rfl
      | some p =>
          simp only [Option.bind_some]
          cases p.calls.lookup thread with
          | none => rfl
          | some s => simp [callStep_isSome p thread choice choice' s]
  | asleep wakeAt next => rfl
  | going program => cases program <;> rfl

theorem act_isSome (w : World) (thread : ThreadId) (choice choice' : Nat) :
    (w.act thread choice).isSome = (w.act thread choice').isSome := by
  cases thread with
  | caller i =>
      simp only [act]
      cases w.callers[i]? with
      | none => rfl
      | some a => simp [advance_isSome w _ choice choice' a]
  | worker id i =>
      simp only [act]
      cases w.pools[id]? with
      | none => rfl
      | some p =>
          simp only [Option.bind_some]
          cases p.workers[i]? with
          | none => rfl
          | some worker =>
              simp only [Option.bind_some]
              split
              · simp only [actInTask]
                split
                · rfl
                · rfl
                · simp [advance_isSome w _ choice choice']
              · rfl

/-- **Nothing can move if no thread of the world can**, whomever it would wake. -/
theorem not_canMove_of_threads {w : World} (h : w.Reachable)
    (hno : ∀ thread ∈ w.threads, (w.act thread 0).isSome = false) (thread : ThreadId) :
    ¬ w.CanMove thread := by
  rintro ⟨choice, w', hact⟩
  have hsome : (w.act thread 0).isSome = true := by
    rw [act_isSome w thread 0 choice, hact]
    rfl
  refine absurd (hno thread ?_) (by simp [hsome])
  cases thread with
  | caller i =>
      obtain ⟨a, ha, -⟩ := Option.bind_eq_some_iff.mp hact
      refine List.mem_append_left _ (List.mem_map_of_mem ?_)
      exact List.mem_range.mpr (List.getElem?_eq_some_iff.mp ha).1
  | worker id i =>
      obtain ⟨p, hp, hact⟩ := Option.bind_eq_some_iff.mp hact
      obtain ⟨worker, hw, -⟩ := Option.bind_eq_some_iff.mp hact
      refine List.mem_append_right _ (List.mem_flatMap.mpr ⟨p, List.mem_of_getElem? hp, ?_⟩)
      rw [(sound_reachable h).numbered hp]
      exact List.mem_map_of_mem (List.mem_range.mpr (List.getElem?_eq_some_iff.mp hw).1)

end World

open Pool

/-- **Work is conserved**: in every reachable world in which no thread can move, in every pool that
    is not halted, the active workers are those that panics have driven out and as many of the others
    as there are tasks that have not ended; what is queued is the tasks that are left over, as long
    as somebody holds the pool and can ask. So no worker that is left is idle while a task is
    queued. -/
theorem work_is_conserved {w : World} (h : w.Reachable) (hstuck : ∀ thread, ¬ w.CanMove thread)
    {id : PoolId} {p : Pool} (hp : w.pools[id]? = some p) (hh : p.halt = false) :
    p.active.toNat = p.killed + min (p.size - p.killed) p.unended ∧
    (p.life ≠ .released → p.queue.length = p.unended - min (p.size - p.killed) p.unended) ∧
    (p.queue.items ≠ [] → ∀ s ∈ p.stages, s.isRunning = true ∨ s.isKilled = true) := by
  have hmem := List.mem_of_getElem? hp
  have ho := ordered_reachable h p hmem
  have hstill := atStandstill h hstuck hp hh
  have hactive := hstill.active_toNat (active_eq h hmem) (size_lt h p hmem)
  obtain ⟨hle, hfull⟩ := hstill.busy_cases
  have hengaged : p.queue.items ≠ [] → ∀ s ∈ p.stages, s.isRunning = true ∨ s.isKilled = true :=
    hstill.engaged
  by_cases hnone : ∀ t, .accepted t ∈ p.trace → p.losses t = 0
  · have hunended := hstill.unended_eq ho hnone
    by_cases hitems : p.queue.items = []
    · have hempty : p.queue.length = 0 := by rw [Queue.length, hitems]; rfl
      exact ⟨by omega, fun _ => by omega, hengaged⟩
    · have := hfull hitems
      exact ⟨by omega, fun _ => by omega, hengaged⟩
  · -- a task was lost: panics have driven every worker out, and nobody holds the pool
    simp only [not_forall] at hnone
    obtain ⟨t, hacc, hlost⟩ := hnone
    have hpos := Nat.pos_of_ne_zero hlost
    rcases excuse_of_loss ho.accounted ho.traced hacc hpos with hhalt | hforsaken
    · rw [hh] at hhalt
      cases hhalt
    · have hkilled : p.killed = p.size := by
        rw [← hstill.complete]
        exact List.countP_eq_length.mpr fun s hs => by rw [hforsaken.2 s hs]; rfl
      exact ⟨by omega, fun hl => absurd hforsaken.1 hl, hengaged⟩

/-- A thread makes a pool of two workers and submits a task that drives one of them out, one that
    waits at a gate, and one more. -/
def crowded : Program :=
  .call (.start (Config.withThreads 2)) fun _ =>
    .submit 0 "bomb" (.panic (.bomb .foreign)) fun _ =>
      .submit 0 "held" (.call (.gate "open") fun _ => .finish []) fun _ =>
        .submit 0 "left" (.finish []) fun _ => .finish []

/-- The worker that is left is inside a task, and the third task is queued. -/
theorem work_is_conserved_when_crowded : ∃ (w : World) (p : Pool), w.Reachable ∧
    (∀ thread, ¬ w.CanMove thread) ∧ w.pools[0]? = some p ∧ p.halt = false ∧
    p.life ≠ .released ∧ p.size = 2 ∧ p.killed = 1 ∧ p.unended = 2 ∧ p.queue.items ≠ [] ∧
    p.active.toNat = 1 + min (2 - 1) 2 ∧ p.queue.length = 2 - min (2 - 1) 2 ∧
    ∀ s ∈ p.stages, s.isRunning = true ∨ s.isKilled = true := by
  have hrun : (((World.initial true {}).run (.fork crowded :: moves (.caller 0) 17 ++
      moves (.worker 0 0) 8 ++ moves (.worker 0 1) 5)).any fun w =>
        (w.threads.all fun thread => !(w.act thread 0).isSome) &&
        (w.pools[0]?).any fun p => decide (p.halt = false ∧ p.life ≠ .released ∧ p.size = 2 ∧
          p.killed = 1 ∧ p.unended = 2 ∧ p.queue.length = 1)) = true := by decide
  obtain ⟨w, hw, hrun⟩ := (Option.any_eq_true ..).mp hrun
  obtain ⟨hstill, hrun⟩ := Bool.and_eq_true_iff.mp hrun
  obtain ⟨p, hp, hrun⟩ := (Option.any_eq_true ..).mp hrun
  obtain ⟨hh, hl, hsize, hkilled, hunended, hlen⟩ := of_decide_eq_true hrun
  have h : w.Reachable := (World.Reachable.initial true {}).run hw
  have hstuck := World.not_canMove_of_threads h fun thread ht => by
    simpa using List.all_eq_true.mp hstill thread ht
  have hne : p.queue.items ≠ [] := fun e => by simp [Queue.length, e] at hlen
  obtain ⟨hactive, hpending, hengaged⟩ := work_is_conserved h hstuck hp hh
  rw [hsize, hkilled, hunended] at hactive hpending
  exact ⟨w, p, h, hstuck, hp, hh, hl, hsize, hkilled, hunended, hne, hactive, hpending hl,
    hengaged hne⟩

end WorkerPool
