import Mathlib.Algebra.BigOperators.Group.List.Basic
import Mathlib.Tactic.Abel
import WorkerPool.Proofs.Formed

/-!
# Accounts of a pool

Many facts about a pool say that something is neither made nor lost: what leaves the queue is in
the hands of a worker, what leaves a worker's hands is in a counter. Such a fact is an account: the
values that threads share contribute to it, and so does every thread, by the place it has come to.
An account in which every move of every thread balances never changes.

* `Pool.Account`, `Account.total` -- an account and what it comes to;
* `Account.Balanced` -- every move takes from one place what it brings to another;
* `Balanced.total_change` -- the total then stays the same under every change of the pool;
* `Balanced.invariant` -- that it is zero is an invariant if pools begin with zero.
-/

namespace WorkerPool

namespace Pool

variable {M : Type} [AddCommGroup M]

/-! ## 1. Sums over threads -/

/-- A worker's new stage in the place of the old. -/
theorem sum_map_set {α : Type} (f : α → M) {l : List α} {i : Nat} {a b : α}
    (h : l[i]? = some a) : ((l.set i b).map f).sum + f a = (l.map f).sum + f b := by
  induction l generalizing i with
  | nil => simp at h
  | cons x rest ih =>
      cases i with
      | zero =>
          obtain rfl : x = a := by simpa using h
          simp only [List.set_cons_zero, List.map_cons, List.sum_cons]
          abel
      | succ i =>
          have := ih (i := i) (by simpa using h)
          simp only [List.set_cons_succ, List.map_cons, List.sum_cons, add_assoc, this]

/-- The sum over those that count, each for the same. -/
theorem sum_map_ite {α : Type} (f : α → Bool) (c : M) (l : List α) :
    (l.map fun x => if f x then c else 0).sum = l.countP f • c := by
  induction l with
  | nil => simp
  | cons x rest ih =>
      cases hx : f x with
      | false => simp [hx, ih]
      | true => simp [hx, ih, succ_nsmul']

/-- The call of `thread` among the calls, and the calls after it has moved or is over. -/
theorem split_calls {p : Pool} {thread : ThreadId} {s : CallStage}
    (hl : p.calls.lookup thread = some s) (hn : p.callers.Nodup) :
    ∃ before after, p.calls = before ++ (thread, s) :: after ∧
      (∀ s', (p.setCall thread s').calls = before ++ (thread, s') :: after) ∧
      (p.leave thread).calls = before ++ after := by
  obtain ⟨before, after, e, hb⟩ := List.lookup_eq_some_iff.mp hl
  have hbefore : ∀ c ∈ before, c.1 ≠ thread := fun c hc =>
    Ne.symm (by simpa using hb c hc)
  -- the threads of the calls are different
  have hafter : ∀ c ∈ after, c.1 ≠ thread := fun c hc h => by
    rw [callers, e, List.map_append, List.map_cons] at hn
    exact (List.nodup_cons.mp hn.of_append_right).1 (List.mem_map.mpr ⟨c, hc, h⟩)
  refine ⟨before, after, e, fun s' => ?_, ?_⟩
  · have hsame {l : List (ThreadId × CallStage)} (h : ∀ c ∈ l, c.1 ≠ thread) :
        l.map (fun c => if c.1 = thread then (thread, s') else c) = l :=
      (List.map_congr_left fun c hc => if_neg (h c hc)).trans (List.map_id l)
    rw [setCall, e, List.map_append, List.map_cons, if_pos rfl, hsame hbefore, hsame hafter]
  · have hsame {l : List (ThreadId × CallStage)} (h : ∀ c ∈ l, c.1 ≠ thread) :
        l.filter (fun c => c.1 ≠ thread) = l :=
      List.filter_eq_self.mpr fun c hc => by simpa using h c hc
    rw [leave, e, List.filter_append, List.filter_cons_of_neg (by simp), hsame hbefore,
      hsame hafter]

/-! ## 2. Accounts -/

/-- What the shared part of a pool, a worker at a stage and a call at a stage contribute. -/
structure Account (M : Type) where
  shared : Pool → M
  worker : WorkerStage → M
  call : CallStage → M

namespace Account

/-- What all workers contribute. -/
def ofWorkers (a : Account M) (p : Pool) : M := (p.stages.map a.worker).sum

/-- What all calls contribute. -/
def ofCalls (a : Account M) (p : Pool) : M := (p.calls.map fun c => a.call c.2).sum

/-- What the account comes to. -/
def total (a : Account M) (p : Pool) : M := a.shared p + a.ofWorkers p + a.ofCalls p

/-- What a call contributes after a move; nothing if it is over. -/
@[simp]
def next (a : Account M) : CallStep → M
  | .stage s => a.call s
  | .reply _ => 0

/-- **Every move balances**, in pools of which `I` holds. -/
structure Balanced (a : Account M) (I : Pool → Prop) : Prop where
  work : ∀ {p q : Pool} {i : Nat} {s s' : WorkerStage}, I p → i < p.workers.length →
    WorkerMove p i s q s' → a.shared q + a.worker s' = a.shared p + a.worker s
  call : ∀ {p q : Pool} {thread : ThreadId} {s : CallStage} {next : CallStep}, I p →
    CallMove p thread s q next → a.shared q + a.next next = a.shared p + a.call s
  enter : ∀ {p q : Pool} {s : CallStage}, I p → Entry p q s →
    a.shared q + a.call s = a.shared p
  reclaim : ∀ {p q : Pool}, I p → p.reclaim = some q → a.shared q = a.shared p
  note : ∀ (p : Pool) (n : Note), a.shared (p.log (.note n)) = a.shared p := by intros; rfl
  wake : ∀ (p : Pool) (i : Nat), a.shared { p with queue := p.queue.wake i } = a.shared p
  /-- A worker that has done nothing counts for nothing. -/
  starting : a.worker .starting = 0
  /-- Where threads are does not count a second time. -/
  staged : ∀ (p : Pool) (i : Nat) (s : WorkerStage), a.shared (p.setStage i s) = a.shared p := by
    intros; rfl
  called : ∀ (p : Pool) (calls : List (ThreadId × CallStage)),
    a.shared { p with calls := calls } = a.shared p := by intros; rfl

variable {a : Account M} {I : Pool → Prop}

theorem ofWorkers_setStage {p : Pool} {i : Nat} {s s' : WorkerStage} (h : p.stages[i]? = some s) :
    a.ofWorkers (p.setStage i s') + a.worker s = a.ofWorkers p + a.worker s' := by
  rw [ofWorkers, World.stages_setStage, ofWorkers]
  exact sum_map_set a.worker h

theorem ofCalls_follow {p : Pool} {thread : ThreadId} {s : CallStage} {next : CallStep}
    (hl : p.calls.lookup thread = some s) (hn : p.callers.Nodup) :
    a.ofCalls (p.follow thread next) + a.call s = a.ofCalls p + a.next next := by
  obtain ⟨before, after, e, hset, hleave⟩ := split_calls hl hn
  cases next with
  | stage s' =>
      simp only [ofCalls, follow, hset, e, List.map_append, List.map_cons, List.sum_append,
        List.sum_cons, Account.next]
      abel
  | reply r =>
      simp only [ofCalls, follow, hleave, e, List.map_append, List.map_cons, List.sum_append,
        List.sum_cons, Account.next]
      abel

theorem ofCalls_congr {p q : Pool} (h : q.calls = p.calls) : a.ofCalls q = a.ofCalls p := by
  rw [ofCalls, h, ofCalls]

/-- **A balanced account comes to the same after a change of the pool.** -/
theorem Balanced.total_change (hb : a.Balanced I) {p q : Pool} (hp : Formed p) (hI : I p)
    (h : Change p q) : a.total q = a.total p := by
  cases h with
  | @work i worker q s hw h =>
      have hu := h.untouched
      have hs : q.stages[i]? = some worker.stage := by
        rw [hu.stages, stages, List.getElem?_map, hw, Option.map_some]
      have hmove := hb.work hI (List.getElem?_eq_some_iff.mp hw).1 h
      have hsum : a.ofWorkers (q.setStage i s) + a.worker worker.stage =
          a.ofWorkers q + a.worker s := ofWorkers_setStage hs
      have hst : a.ofWorkers q = a.ofWorkers p := by rw [ofWorkers, hu.stages, ofWorkers]
      have hca : a.ofCalls (q.setStage i s) = a.ofCalls p := ofCalls_congr hu.calls
      rw [hst] at hsum
      rw [total, total, hb.staged, hca, eq_sub_of_add_eq hmove, eq_sub_of_add_eq hsum]
      abel
  | @call thread s q next hl h =>
      obtain ⟨-, hcalls, hst⟩ := h.frame
      have hmove := hb.call hI h
      have hnodup : q.callers.Nodup := by
        rw [callers, hcalls]
        exact hp.nodup
      have hsum : a.ofCalls (q.follow thread next) + a.call s = a.ofCalls q + a.next next :=
        ofCalls_follow (hcalls ▸ hl) hnodup
      have hca : a.ofCalls q = a.ofCalls p := ofCalls_congr hcalls
      have hwo : a.ofWorkers (q.follow thread next) = a.ofWorkers p := by
        rw [ofWorkers, stages_follow, ofWorkers]
        rcases hst with e | ⟨-, e⟩
        · rw [e]
        · simp [e, hb.starting]
      have hsh : a.shared (q.follow thread next) = a.shared q := by
        cases next <;> exact hb.called q _
      rw [hca] at hsum
      rw [total, total, hsh, hwo, eq_sub_of_add_eq hmove, eq_sub_of_add_eq hsum]
      abel
  | @enter thread q s hs ht h =>
      have hmove := hb.enter hI h
      have hfr : q.calls = p.calls ∧ q.stages = p.stages := by cases h <;> exact ⟨rfl, rfl⟩
      have hca : a.ofCalls (q.enter thread s) = a.call s + a.ofCalls p := by
        simp [ofCalls, Pool.enter, hfr.1]
      have hwo : a.ofWorkers (q.enter thread s) = a.ofWorkers p :=
        congrArg (fun l => (l.map a.worker).sum) hfr.2
      rw [total, total, Pool.enter, hb.called, ← Pool.enter, hca, hwo, ← hmove]
      abel
  | note n => exact congrArg (· + a.ofWorkers p + a.ofCalls p) (hb.note p n)
  | wake i => exact congrArg (· + a.ofWorkers p + a.ofCalls p) (hb.wake p i)
  | reclaim h =>
      have hmove := hb.reclaim hI h
      obtain ⟨-, -, rfl⟩ := reclaim_cases h
      exact congrArg (· + a.ofWorkers p + a.ofCalls p) hmove

/-- **A balanced account that pools begin with at zero stays there**, in every pool of which `I`
    holds, if no change makes `I` true. -/
theorem Balanced.invariant (hb : a.Balanced I) (hf : ∀ p, Blank p → a.total p = 0)
    (hI : ∀ p q, Formed p → Change p q → I q → I p) :
    Invariant fun p => Formed p ∧ (I p → a.total p = 0) where
  fresh hp := ⟨hp.formed, fun _ => hf _ hp.blank⟩
  change := by
    rintro p q ⟨hp, hz⟩ hc
    refine ⟨hp.change hc, fun hq => ?_⟩
    have hI' := hI p q hp hc hq
    rw [hb.total_change hp hI' hc, hz hI']

theorem Balanced.invariant_always (hb : a.Balanced fun _ => True)
    (hf : ∀ p, Blank p → a.total p = 0) : Invariant fun p => Formed p ∧ a.total p = 0 where
  fresh hp := ⟨hp.formed, hf _ hp.blank⟩
  change h hc := ⟨h.1.change hc, (hb.total_change h.1 trivial hc).trans h.2⟩

/-- An account of blank pools is what it has of shared values and of the first call. -/
theorem total_blank {p : Pool} (hp : Blank p) (hs : a.shared p = 0)
    (hc : ∀ refusal, a.call (.spawning 0 refusal) = 0) : a.total p = 0 := by
  obtain ⟨thread, refusal, hcalls⟩ := hp.calls
  simp [total, ofWorkers, ofCalls, hp.stages, hcalls, hs, hc]

end Account

end Pool

end WorkerPool
