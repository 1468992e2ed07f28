import Mathlib.Algebra.Order.BigOperators.Group.Finset
import WorkerPool.Proofs.Custody

/-!
# How much is left to do

In a pool in the hands of one thread there is little to do: the thread goes through its call, and
the workers go round once, sleep, and leave when the pool is shut down. Both are counted here, so
that every move of either uses some of the count up. Only a sleeper woken for no reason has one move
more.

* `Pool.toil` -- how many moves the workers have left, `Aside.toil`;
* `CallStage.rank` -- how many the thread has left in its call, with those that its call gives to
  workers; `CallMove.toil`.
-/

namespace WorkerPool

/-! ## 1. Workers -/

/-- The moves that a worker with nothing in its hands has left, `asleep` on the queue or not. -/
def WorkerStage.toil (asleep : Bool) : WorkerStage → Nat
  | .starting => 6
  | .checkingHalt => 5
  | .popping => if asleep then 3 else 4
  | .stopping => 2
  | .leaving _ => 1
  | _ => 0

theorem WorkerStage.toil_le (asleep : Bool) (s : WorkerStage) : s.toil asleep ≤ s.toil false := by
  cases s with
  | popping => cases asleep <;> simp [toil]
  | _ => exact Nat.le_refl _

theorem WorkerStage.toil_false_le (asleep : Bool) (s : WorkerStage) :
    s.toil false ≤ s.toil asleep + 1 := by
  cases s with
  | popping => cases asleep <;> simp [toil]
  | _ => exact Nat.le_succ _

namespace Pool

variable {p q : Pool} {thread : ThreadId} {s : CallStage} {next : CallStep} {l : Label}

/-- The moves that worker `i` has left. -/
def toilOf (p : Pool) (i : Nat) : Nat :=
  (p.stages[i]?).elim 0 (·.toil (decide (i ∈ p.queue.sleeping)))

/-- The moves that the workers of the pool have left. -/
def toil (p : Pool) : Nat := ∑ i ∈ Finset.range p.stages.length, p.toilOf i

theorem toil_congr (hst : q.stages = p.stages) (hq : q.queue.sleeping = p.queue.sleeping) :
    q.toil = p.toil := by
  simp only [toil, toilOf, hst, hq]

theorem toil_follow (p : Pool) (thread : ThreadId) (next : CallStep) :
    (p.follow thread next).toil = p.toil :=
  toil_congr (stages_follow ..) (congrArg Queue.sleeping (queue_follow ..))

/-- A worker's move uses one up, and no other worker falls asleep or wakes. -/
theorem WorkerMove.toil {i : Nat} {s s' : WorkerStage} (h : WorkerMove p i s q s')
    (hs : s.idle = true) (hi : p.queue.items = []) :
    s'.toil (decide (i ∈ q.queue.sleeping)) + 1 ≤ s.toil (decide (i ∈ p.queue.sleeping)) ∧
      ∀ j, j ≠ i → (j ∈ q.queue.sleeping ↔ j ∈ p.queue.sleeping) := by
  cases h with
  | starts | stops | exits => exact ⟨Nat.le_refl _, fun _ _ => .rfl⟩
  | seesHalt => exact ⟨by simp [WorkerStage.toil], fun _ _ => .rfl⟩
  | seesNoHalt => exact ⟨Nat.succ_le_succ (WorkerStage.toil_le _ .popping), fun _ _ => .rfl⟩
  | pops task queue hsl hq =>
      rw [(Queue.attempt_item hq).1] at hi
      cases hi
  | findsNothing queue hsl hq =>
      have hqueue : queue.sleeping = p.queue.sleeping := by
        simp only [Queue.attempt, hi] at hq
        split at hq <;> cases hq
        rfl
      exact ⟨by simp [WorkerStage.toil, hsl], fun j _ => by simp [hqueue]⟩
  | sleeps queue hsl hq =>
      have hqueue : queue.sleeping = p.queue.sleeping ++ [i] := by
        simp only [Queue.attempt, hi] at hq
        split at hq <;> cases hq
        rfl
      exact ⟨by simp [WorkerStage.toil, hqueue, hsl], fun j hj => by simp [hqueue, hj]⟩
  | _ => cases hs

/-- A sleeper that is woken has one move more. -/
theorem toil_wake (p : Pool) (i : Nat) : toil { p with queue := p.queue.wake i } ≤ p.toil + 1 := by
  have hone (j : Nat) : toilOf { p with queue := p.queue.wake i } j ≤
      p.toilOf j + if j = i then 1 else 0 := by
    simp only [toilOf, show stages { p with queue := p.queue.wake i } = p.stages from rfl]
    cases p.stages[j]? with
    | none => exact Nat.zero_le _
    | some s =>
        simp only [Option.elim_some]
        by_cases hj : j = i
        · rw [if_pos hj]
          exact Nat.le_trans (s.toil_le _) (s.toil_false_le _)
        · have hsame : j ∈ (p.queue.wake i).sleeping ↔ j ∈ p.queue.sleeping := by
            unfold Queue.wake
            split
            · exact List.mem_erase_of_ne hj
            · exact .rfl
          simp [hsame, hj]
  calc toil { p with queue := p.queue.wake i }
      ≤ ∑ j ∈ Finset.range p.stages.length, (p.toilOf j + if j = i then 1 else 0) :=
        Finset.sum_le_sum fun j _ => hone j
    _ = p.toil + ∑ j ∈ Finset.range p.stages.length, if j = i then 1 else 0 :=
        Finset.sum_add_distrib
    _ ≤ p.toil + 1 := by
        rw [Finset.sum_ite_eq']
        split <;> omega

/-- Closing the queue wakes every sleeper. -/
theorem toil_close (p : Pool) :
    toil { p with queue := p.queue.close } ≤ p.toil + p.stages.length := by
  have hone (j : Nat) : toilOf { p with queue := p.queue.close } j ≤ p.toilOf j + 1 := by
    simp only [toilOf, show stages { p with queue := p.queue.close } = p.stages from rfl]
    cases p.stages[j]? with
    | none => exact Nat.zero_le _
    | some s => exact Nat.le_trans (s.toil_le _) (s.toil_false_le _)
  calc toil { p with queue := p.queue.close }
      ≤ ∑ j ∈ Finset.range p.stages.length, (p.toilOf j + 1) := Finset.sum_le_sum fun j _ => hone j
    _ = p.toil + p.stages.length := by
        rw [Finset.sum_add_distrib]
        simp [toil]

/-- **A worker's move uses up what is left**, and only a sleeper woken for no reason adds to it. -/
theorem Aside.toil (h : p.Aside l q) (hc : p.Custody thread) :
    q.toil + [l].countP (·.isWork p.id) ≤ p.toil + [l].countP (·.isWake p.id) := by
  cases h with
  | same hl => simp [hl]
  | note hl n =>
      rw [show (p.log (.note n)).toil = p.toil from toil_congr rfl rfl]
      simp [hl]
  | wake i => simpa [Label.isWork, Label.isWake] using toil_wake p i
  | @work i choice s s' q hs h =>
      obtain ⟨hown, hothers⟩ := h.toil (hc.idle s (List.mem_of_getElem? hs)) hc.items
      have hlt : i < p.stages.length := (List.getElem?_eq_some_iff.mp hs).1
      have hst : (q.setStage i s').stages = p.stages.set i s' := by
        rw [World.stages_setStage, h.untouched.stages]
      have hself : (q.setStage i s').toilOf i + 1 ≤ p.toilOf i := by
        rw [toilOf, hst, List.getElem?_set_self hlt, toilOf, hs]
        exact hown
      have hother (j : Nat) (hj : j ≠ i) : (q.setStage i s').toilOf j = p.toilOf j := by
        rw [toilOf, hst, List.getElem?_set_ne hj.symm, toilOf]
        simp [setStage, hothers j hj]
      have hlt' : (q.setStage i s').toil < p.toil := by
        rw [Pool.toil, hst, List.length_set]
        refine Finset.sum_lt_sum (fun j _ => ?_) ⟨i, Finset.mem_range.mpr hlt, hself⟩
        by_cases hj : j = i
        · subst hj
          exact Nat.le_of_succ_le hself
        · exact Nat.le_of_eq (hother j hj)
      simp only [List.countP_singleton, Label.isWork, Label.isWake, decide_true, if_true]
      exact hlt'

/-! ## 2. The thread -/

end Pool

/-- The moves that follow a shutdown in the same call, in a pool of so many workers. -/
def Purpose.rest (size : Nat) : Purpose → Nat
  | .asked => 0
  | .givingUp => 1
  | .startFailed _ _ => 2 * size + 10

/-- The moves that a thread has left in a call that brings no task, with those that the call gives
    to workers: a new worker has six, and one that is woken has one more. The pool has at most
    `size` workers. -/
def CallStage.rank (size : Nat) : CallStage → Nat
  | .spawning next _ => 7 * (size - next) + 4 * size + 19
  | .opening => 1
  | .swapping why | .raising why => why.rest size + 2 * size + 8
  | .halting why => why.rest size + 2 * size + 7
  | .announcing _ why => why.rest size + 2 * size + 6
  | .closing _ why => why.rest size + 2 * size + 5
  | .taking _ why => why.rest size + size + 4
  | .joining _ why left _ => why.rest size + left.length + 3
  | .emptying why _ => why.rest size + 2
  | .concluding why _ | .reporting why _ => why.rest size + 1
  | .dropping _ => 2 * size + 10
  | .releasing _ => 1
  | _ => 0

/-- The moves that a thread has left in its call, if it is not over. -/
def CallStep.rank (size : Nat) : CallStep → Nat
  | .stage s => s.rank size
  | .reply _ => 0

@[simp] theorem Purpose.rank_afterwards (size : Nat) (why : Purpose) :
    why.afterwards.rank size = why.rest size := by
  cases why <;> rfl

namespace Pool

variable {p q : Pool} {thread : ThreadId} {s : CallStage} {next : CallStep}

/-- A new worker has six moves. -/
theorem toil_spawn (hst : q.stages = p.stages ++ [.starting])
    (hq : q.queue.sleeping = p.queue.sleeping) : q.toil = p.toil + 6 := by
  have hold : ∀ i ∈ Finset.range p.stages.length, q.toilOf i = p.toilOf i := fun i hi => by
    rw [toilOf, hst, List.getElem?_append_left (Finset.mem_range.mp hi), hq, toilOf]
  have hnew : q.toilOf p.stages.length = 6 := by simp [toilOf, hst, WorkerStage.toil]
  rw [toil, hst, List.length_append, List.length_singleton, Finset.sum_range_succ, hnew,
    Finset.sum_congr rfl hold, toil]

/-- **A move of the thread uses up what is left**, with what it gives to workers. -/
theorem CallMove.toil {size : Nat} (h : CallMove p thread s q next) (hc : p.Custody thread)
    (hs : s.isErrand = true) (hsize : q.stages.length ≤ size)
    (hn : ∀ n refusal, s = .spawning n refusal → p.stages.length = n) :
    next.rank size + q.toil + 1 ≤ s.rank size + p.toil := by
  rcases h.staff with ⟨n, refusal, rfl, rfl, -, hst⟩ | ⟨hno, -⟩
  · have hsleep : q.queue.sleeping = p.queue.sleeping := by cases h; rfl
    rw [hst, List.length_append, List.length_singleton, hn n refusal rfl] at hsize
    rw [toil_spawn hst hsleep]
    simp only [CallStep.rank, CallStage.rank]
    omega
  have hsame (hst : q.stages = p.stages) (hq : q.queue.sleeping = p.queue.sleeping)
      (hr : next.rank size + 1 ≤ s.rank size) :
      next.rank size + q.toil + 1 ≤ s.rank size + p.toil := by
    rw [toil_congr hst hq]
    omega
  cases h with
  | spawns n refusal => exact absurd rfl (hno _ _)
  | closes mode why =>
      have htoil := toil_close p
      have hlen : p.stages.length ≤ size := hsize
      simp only [CallStep.rank, CallStage.rank]
      omega
  | takes mode why =>
      have hlen : p.handles.length ≤ size := Nat.le_trans hc.handles hsize
      refine hsame rfl rfl ?_
      simp only [CallStep.rank, CallStage.rank]
      omega
  | empties why joined hne => exact absurd hc.items hne
  | joinsBurst mode why first left joined payload ht hst => exact absurd hst (hc.not_crashed first)
  | findsDraining why | concludes why | reports why =>
      refine hsame rfl rfl ?_
      rw [Purpose.rank_afterwards]
      simp only [CallStage.rank]
      omega
  | spawnFails | spawned | opens | swaps | raises | halts | announces | detaches | joins
  | joinsCrashed | waits | waitsToEmpty | findsEmpty | findsShut | shutsFirst | releases =>
      refine hsame rfl rfl ?_
      simp only [CallStep.rank, CallStage.rank, Purpose.rest, List.length_cons, List.length_nil]
      omega
  | _ => cases hs

end Pool

end WorkerPool
