import WorkerPool.Proofs.Ledger
import WorkerPool.Proofs.Order

/-!
# What is counted as abandoned

A task that is accepted and never started is counted as abandoned: by the worker that lays it down
before it exits, or by the immediate shutdown that takes it out of the queue. A shutdown waits for
workers to exit, and so for what they count. It does not wait for another shutdown, which may have
taken tasks out of the queue and not counted them yet.

* `Pool.unstarted` -- how many accepted tasks have not been started;
* `Pool.uncounted` -- how many tasks shutdowns have taken out of the queue and not counted yet;
* `abandonment` -- accepted tasks are started, queued, abandoned, or on the way, an account;
* `abandoned_when_counted` -- the count of abandoned tasks when an immediate shutdown returns;
* `returns_before_counted` -- another shutdown may still have to count.
-/

namespace WorkerPool

/-- How many tasks the call has taken out of the queue and not counted yet. -/
@[simp]
def CallStage.uncounted : CallStage → Nat
  | .tallying _ _ removed => removed.length
  | _ => 0

namespace Pool

/-- How many accepted tasks have not been started. -/
def unstarted (p : Pool) : Nat := p.acceptances.countP fun t => p.starts t = 0

/-- How many tasks calls have taken out of the queue and not counted yet. -/
def uncounted (p : Pool) : Nat := (p.calls.map fun c => c.2.uncounted).sum

/-! ## 1. The account -/

/-- The tasks accepted, less those started, abandoned or queued. -/
def abandonment : Account UInt64 where
  shared p := UInt64.ofNat p.acceptances.length - UInt64.ofNat p.beginnings.length - p.abandoned -
    UInt64.ofNat p.queue.length
  worker
    | .rechecking _ | .abandoning _ | .ready _ => -1
    | _ => 0
  call s := -UInt64.ofNat s.uncounted

theorem abandonment_balanced : abandonment.Balanced fun p => p.life ≠ .released where
  work hI _ h := by
    cases h with
    | pops task queue hs hq =>
        simp [abandonment, acceptances, beginnings, Queue.length, (Queue.attempt_item hq).1]
        grind
    | findsNothing queue hs hq =>
        simp [abandonment, acceptances, beginnings, Queue.length,
          (Queue.attempt_nothingMore hq).2.2.1]
    | sleeps queue hs hq =>
        simp [abandonment, acceptances, beginnings, Queue.length,
          (Queue.attempt_sleep hq).2.2.1]
    | abandons | begins =>
        simp [abandonment, acceptances, beginnings]
        grind
    | _ => simp [abandonment, acceptances, beginnings]
  call hI h := by
    cases h with
    | pushes task choice ha =>
        simp [abandonment, acceptances, beginnings, Queue.length,
          (Queue.push_of_accepting ha task choice).1]
        grind
    | findsDraining why | concludes why | reports why | breaksOff why =>
        cases why <;> simp [abandonment, acceptances, beginnings]
    | findsEmpty why joined hi => simp [abandonment, acceptances, beginnings, Queue.length, hi]
    | empties | tallies =>
        simp [abandonment, acceptances, beginnings, Queue.length]
        grind
    | _ => simp [abandonment, acceptances, beginnings, Queue.length]
  enter _ h := by
    cases h with
    | asks mode => cases mode <;> simp [abandonment]
    | _ => simp [abandonment, acceptances, beginnings]
  reclaim hI h := absurd (reclaim_cases h).1 hI
  wake p i := by simp [abandonment, acceptances, beginnings, Queue.length]
  note p n := by simp [abandonment, acceptances, beginnings]
  starting := rfl

theorem abandonment_reachable {w : World} (h : w.Reachable) {p : Pool} (hp : p ∈ w.pools)
    (hl : p.life ≠ .released) : abandonment.total p = 0 := by
  refine ((abandonment_balanced.invariant (fun p hb => ?_) fun p q hf hc hq hl => ?_).reachable
    h p hp).2 hl
  · have ha : p.acceptances = [] := hb.inOrder_eq_nil fun _ => rfl
    have hs : p.beginnings = [] := hb.inOrder_eq_nil fun _ => rfl
    exact Account.total_blank hb
      (by simp [abandonment, ha, hs, hb.abandoned, hb.queue, Queue.length])
      fun _ => by simp [abandonment]
  · exact hq ((hc.later hf).released hl)

/-! ## 2. When every worker has exited -/

theorem sum_neg_ofNat {α : Type} (f : α → Nat) (l : List α) :
    (l.map fun x => -UInt64.ofNat (f x)).sum = -UInt64.ofNat (l.map f).sum := by
  induction l with
  | nil => simp
  | cons x rest ih =>
      rw [List.map_cons, List.sum_cons, ih, List.map_cons, List.sum_cons, UInt64.ofNat_add]
      grind

/-- With every worker gone and the queue empty, only calls can still have something to count. -/
theorem counted_of_allExited {p : Pool} (ht : abandonment.total p = 0) (hx : p.AllExited)
    (hi : p.queue.items = []) : UInt64.ofNat p.beginnings.length + p.abandoned +
      UInt64.ofNat p.uncounted = UInt64.ofNat p.acceptances.length := by
  have hw : abandonment.ofWorkers p = 0 := by
    refine List.sum_eq_zero fun n hn => ?_
    obtain ⟨s, hs, rfl⟩ := List.mem_map.mp hn
    obtain ⟨crashed, rfl⟩ := WorkerStage.isFinished_iff.mp (hx s hs)
    rfl
  have hc : abandonment.ofCalls p = -UInt64.ofNat p.uncounted := sum_neg_ofNat _ _
  have hs : abandonment.shared p = UInt64.ofNat p.acceptances.length -
      UInt64.ofNat p.beginnings.length - p.abandoned - UInt64.ofNat p.queue.length := rfl
  have hq : UInt64.ofNat p.queue.length = 0 := by
    rw [Queue.length, hi]
    rfl
  rw [Account.total, hw, hc, hs, hq] at ht
  grind

/-- An accepted task has been started or not. -/
theorem Ordered.length_acceptances {p : Pool} (hp : Ordered p) :
    p.acceptances.length = p.beginnings.length + p.unstarted := by
  have hbegun := nodup_begun hp.accounted hp.traced
  have hperm : (p.acceptances.filter fun t => ¬ p.starts t = 0).Perm p.begun := by
    refine (List.perm_ext_iff_of_nodup (hp.nodup.filter _) hbegun).mpr fun t => ?_
    rw [List.mem_filter, mem_begun, decide_eq_true_eq]
    refine ⟨fun h => Nat.pos_of_ne_zero h.2, fun hs => ⟨?_, Nat.ne_of_gt hs⟩⟩
    exact hp.lined.taken_prefix.subset (hp.mem_taken hs)
  have hstarted : p.acceptances.countP (fun t => ¬ p.starts t = 0) = p.beginnings.length := by
    rw [List.countP_eq_length_filter, hperm.length_eq, begun, List.length_map]
  have hsplit := List.length_eq_countP_add_countP (fun t => decide (p.starts t = 0))
    (l := p.acceptances)
  rw [unstarted]
  simp only [decide_not, decide_eq_true_eq] at hsplit hstarted
  omega

end Pool

open Pool

/-- **What the count of abandoned tasks is when an immediate shutdown has returned** that was called
    by a thread that is no worker of the pool: with what other shutdowns have taken out of the queue
    and not counted yet it is the number of accepted tasks that were never started. So it is that
    number if no other call is about to count. All of it modulo 2^64, as long as somebody holds the
    pool and can ask. -/
theorem abandoned_when_counted {w : World} (h : w.Reachable) {p : Pool} (hp : p ∈ w.pools)
    (hl : p.life ≠ .released) {thread : ThreadId} {joined : Nat}
    (hret : .returned thread .immediate joined ∈ p.trace) (hout : p.owns thread = false) :
    p.abandoned + UInt64.ofNat p.uncounted = UInt64.ofNat p.unstarted ∧
    UInt64.ofNat p.begun.length + p.abandoned + UInt64.ofNat p.uncounted =
      UInt64.ofNat p.acceptances.length ∧
    ((∀ c ∈ p.calls, c.2.uncounted = 0) → p.abandoned = UInt64.ofNat p.unstarted ∧
      UInt64.ofNat p.begun.length + p.abandoned = UInt64.ofNat p.acceptances.length) := by
  have ho := ordered_reachable h p hp
  have hleft := ho.accounted.orderly.shared.returned hret
  have hcounted := counted_of_allExited (abandonment_reachable h hp hl) (hleft.exited hout)
    (hleft.emptied rfl)
  have hlength : UInt64.ofNat p.acceptances.length =
      UInt64.ofNat p.beginnings.length + UInt64.ofNat p.unstarted := by
    rw [ho.length_acceptances, UInt64.ofNat_add]
  have hbegun : p.begun.length = p.beginnings.length := List.length_map _
  rw [hbegun]
  refine ⟨?_, hcounted, fun hnone => ?_⟩
  · grind
  · have hzero : p.uncounted = 0 := by
      refine List.sum_eq_zero fun n hn => ?_
      obtain ⟨c, hc, rfl⟩ := List.mem_map.mp hn
      exact hnone c hc
    rw [hzero] at hcounted
    have hnothing : UInt64.ofNat 0 = 0 := rfl
    constructor <;> grind

/-- A task is queued, nobody takes it, and an immediate shutdown returns. -/
theorem abandoned_when_counted_in_lifetime : ∃ (w : World) (p : Pool), w.Reachable ∧ p ∈ w.pools ∧
    p.life ≠ .released ∧ .returned (.caller 0) .immediate 1 ∈ p.trace ∧
    p.owns (.caller 0) = false ∧ p.acceptances = [⟨1⟩] ∧ p.starts ⟨1⟩ = 0 ∧
    p.abandoned = UInt64.ofNat p.unstarted := by
  obtain ⟨w, -, p, -, h, -, hp, -, hf, -⟩ := exists_pools
    (firstSteps .immediate ++ moves (.caller 0) 6 ++ moves (.worker 0 0) 4 ++
      moves (.caller 0) 8) []
    (fun p => decide (p.life = .serving ∧ .returned (.caller 0) .immediate 1 ∈ p.trace ∧
      p.acceptances = [⟨1⟩] ∧ p.starts ⟨1⟩ = 0 ∧ p.calls.map Prod.fst = []))
    (fun _ => true) (by decide)
  obtain ⟨hl, hret, hacc, hs, hcalls⟩ := of_decide_eq_true hf
  have hheld : p.life ≠ .released := by simp [hl]
  have hm := List.mem_of_getElem? hp
  obtain ⟨-, -, hcounted⟩ := abandoned_when_counted h hm hheld hret rfl
  refine ⟨w, p, h, hm, hheld, hret, rfl, hacc, hs, (hcounted fun c hc => ?_).1⟩
  rw [List.map_eq_nil_iff.mp hcalls] at hc
  exact absurd hc List.not_mem_nil

/-- One thread takes the queued task out of the queue. Before it counts it, another thread's
    immediate shutdown finds the queue empty and returns. At that moment one task was accepted, none
    was started, and none is counted as abandoned. -/
theorem returns_before_counted : ∃ (w : World) (p : Pool), w.Reachable ∧ p ∈ w.pools ∧
    p.life ≠ .released ∧ p.trace.head? = some (.returned (.caller 1) .immediate 0) ∧
    p.owns (.caller 1) = false ∧ p.acceptances = [⟨1⟩] ∧ p.starts ⟨1⟩ = 0 ∧
    p.abandoned ≠ UInt64.ofNat p.unstarted ∧
    UInt64.ofNat p.begun.length + p.abandoned ≠ UInt64.ofNat p.acceptances.length := by
  obtain ⟨w, -, p, -, h, -, hp, -, hf, -⟩ := exists_pools
    (firstSteps .immediate ++ moves (.caller 0) 6 ++ moves (.worker 0 0) 4 ++
      moves (.caller 0) 3 ++
      .fork (.call (.shutdown 0 .immediate) fun _ => .finish []) :: moves (.caller 1) 9) []
    (fun p => decide (p.life = .serving ∧
      p.trace.head? = some (.returned (.caller 1) .immediate 0) ∧ p.acceptances = [⟨1⟩] ∧
      p.starts ⟨1⟩ = 0 ∧ p.abandoned ≠ UInt64.ofNat p.unstarted ∧
      UInt64.ofNat p.begun.length + p.abandoned ≠ UInt64.ofNat p.acceptances.length))
    (fun _ => true) (by decide)
  obtain ⟨hl, hret, hacc, hs, hno, hno'⟩ := of_decide_eq_true hf
  exact ⟨w, p, h, List.mem_of_getElem? hp, by simp [hl], hret, rfl, hacc, hs, hno, hno'⟩

end WorkerPool
