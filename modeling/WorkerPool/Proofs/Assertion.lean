import WorkerPool.Proofs.Later

/-!
# Assertions about places

The place of a thread says something about the pool. An assertion says it place by place, beside
what it says of the values that threads share. If what is said of a place lasts, and every thread
makes it true of the place that it comes to, then it holds of all threads always: no move of one
thread can make wrong what the place of another says.

* `Pool.Assertion`, `Assertion.Holds` -- an assertion, and that it holds of a pool;
* `Assertion.Kept` -- what has to be shown of it, move by move;
* `Kept.invariant` -- it is then an invariant.
-/

namespace WorkerPool

namespace Pool

/-- What is said of the shared part of a pool, of a worker by its stage, and of a call by its
    thread and its stage. -/
structure Assertion where
  shared : Pool → Prop
  worker : Pool → WorkerStage → Prop
  call : Pool → ThreadId → CallStage → Prop

namespace Assertion

/-- The assertion holds of every part of the pool. -/
structure Holds (a : Assertion) (p : Pool) : Prop extends Formed p where
  shared : a.shared p
  workers : ∀ s ∈ p.stages, a.worker p s
  calls : ∀ c ∈ p.calls, a.call p c.1 c.2

/-- **Every move keeps the assertion**, in pools of which `I` holds. -/
structure Kept (a : Assertion) (I : Pool → Prop) : Prop where
  blank : ∀ {p : Pool}, Blank p → a.shared p
  founding : ∀ (p : Pool) (thread : ThreadId) (refusal : Nat → Option SystemError),
    a.call p thread (.spawning 0 refusal)
  starting : ∀ p : Pool, a.worker p .starting
  /-- What a place says lasts. -/
  worker_later : ∀ {p q : Pool} {s : WorkerStage}, Later p q → a.worker p s → a.worker q s
  call_later : ∀ {p q : Pool} {thread : ThreadId} {s : CallStage}, Later p q →
    a.call p thread s → a.call q thread s
  work : ∀ {p q : Pool} {i : Nat} {s s' : WorkerStage}, I p → a.Holds p →
    p.stages[i]? = some s → WorkerMove p i s q s' → Later p q → a.worker q s' ∧ a.shared q
  call : ∀ {p q : Pool} {thread : ThreadId} {s : CallStage} {next : CallStep}, I p → a.Holds p →
    (thread, s) ∈ p.calls → CallMove p thread s q next → Later p q →
    (∀ s', next = .stage s' → a.call q thread s') ∧ a.shared q
  enter : ∀ {p q : Pool} {s : CallStage}, I p → a.Holds p → p.life = .serving → Entry p q s →
    (∀ thread, a.call q thread s) ∧ a.shared q
  note : ∀ {p : Pool} (n : Note), a.shared p → a.shared (p.log (.note n))
  wake : ∀ {p : Pool} (i : Nat), a.shared p → a.shared { p with queue := p.queue.wake i }
  reclaim : ∀ {p q : Pool}, I p → a.Holds p → p.reclaim = some q → a.shared q
  /-- What is shared does not depend on where threads are, once workers have ended. -/
  staged : ∀ {p : Pool} {i : Nat} {s : WorkerStage} (s' : WorkerStage), p.stages[i]? = some s →
    s.isFinished = false → a.shared p → a.shared (p.setStage i s')
  called : ∀ {p : Pool} (calls : List (ThreadId × CallStage)), a.shared p →
    a.shared { p with calls := calls }

variable {a : Assertion} {I : Pool → Prop}

theorem Kept.holds_fresh (hk : a.Kept I) {p : Pool} (h : Fresh p) : a.Holds p := by
  have hb := h.blank
  refine ⟨h.formed, hk.blank hb, ?_, ?_⟩
  · intro s hs
    rw [hb.stages] at hs
    exact absurd hs List.not_mem_nil
  · intro c hm
    obtain ⟨thread, refusal, hc⟩ := hb.calls
    rw [hc] at hm
    rw [List.mem_singleton.mp hm]
    exact hk.founding p thread refusal

/-- **A change keeps the assertion.** -/
theorem Kept.holds_change (hk : a.Kept I) {p q : Pool} (hI : I p) (hp : a.Holds p)
    (h : Change p q) : a.Holds q := by
  have hl := h.later hp.toFormed
  have hworkers : ∀ s ∈ p.stages, a.worker q s := fun s hs => hk.worker_later hl (hp.workers s hs)
  have hcalls : ∀ c ∈ p.calls, a.call q c.1 c.2 := fun c hc => hk.call_later hl (hp.calls c hc)
  suffices hq : a.shared q ∧ (∀ s ∈ q.stages, a.worker q s) ∧ ∀ c ∈ q.calls, a.call q c.1 c.2 from
    ⟨hp.toFormed.change h, hq.1, hq.2.1, hq.2.2⟩
  cases h with
  | @work i worker r s hw h =>
      have hu := h.untouched
      have hs : p.stages[i]? = some worker.stage := stages_getElem?.mpr ⟨worker, hw, rfl⟩
      have hs' : r.stages[i]? = some worker.stage := hu.stages ▸ hs
      obtain ⟨hself, hsh⟩ := hk.work hI hp hs h (h.later hs)
      refine ⟨hk.staged s hs' h.not_finished hsh, ?_, ?_⟩
      · intro s₁ hm
        rw [World.stages_setStage, hu.stages] at hm
        rcases List.mem_or_eq_of_mem_set hm with hm | rfl
        · exact hworkers s₁ hm
        · exact hk.worker_later (later_setStage hs' h.not_finished s₁) hself
      · rw [show (r.setStage i s).calls = p.calls from hu.calls]
        exact hcalls
  | @call thread s r next hlook h =>
      obtain ⟨-, hc, hst⟩ := h.frame
      have hm := mem_of_lookup hlook
      obtain ⟨hself, hsh⟩ := hk.call hI hp hm h (h.later hp.toFormed hm)
      refine ⟨by cases next <;> exact hk.called _ hsh, ?_, ?_⟩
      · intro s₁ hm
        rw [stages_follow] at hm
        rcases hst with e | ⟨-, e⟩
        · rw [e] at hm
          exact hworkers s₁ hm
        · rw [e] at hm
          rcases List.mem_append.mp hm with hm | hm
          · exact hworkers s₁ hm
          · rw [List.mem_singleton.mp hm]
            exact hk.starting _
      · intro c hm
        rcases mem_follow hm with ⟨hn, rfl⟩ | ⟨-, hm⟩
        · exact hk.call_later (later_follow r _ _) (hself _ hn)
        · rw [hc] at hm
          exact hcalls c hm
  | @enter thread r s hs ht h =>
      obtain ⟨hself, hsh⟩ := hk.enter hI hp hs h
      have hfr : r.calls = p.calls ∧ r.stages = p.stages := by cases h <;> exact ⟨rfl, rfl⟩
      refine ⟨hk.called _ hsh, ?_, ?_⟩
      · rw [show (r.enter thread s).stages = p.stages from hfr.2]
        exact hworkers
      · intro c hm
        rcases List.mem_cons.mp hm with rfl | hm
        · exact hk.call_later (later_calls r _) (hself thread)
        · rw [hfr.1] at hm
          exact hcalls c hm
  | note n => exact ⟨hk.note n hp.shared, hworkers, hcalls⟩
  | wake i => exact ⟨hk.wake i hp.shared, hworkers, hcalls⟩
  | reclaim h =>
      have hsh := hk.reclaim hI hp h
      obtain ⟨-, -, rfl⟩ := reclaim_cases h
      exact ⟨hsh, hworkers, hcalls⟩

/-- **A kept assertion is an invariant**, beside the invariant that its moves need. -/
theorem Kept.invariant (hk : a.Kept I) (hI : Invariant I) :
    Invariant fun p => I p ∧ a.Holds p where
  fresh hp := ⟨hI.fresh hp, hk.holds_fresh hp⟩
  change h hc := ⟨hI.change h.1 hc, hk.holds_change h.1 h.2 hc⟩

end Assertion

end Pool

end WorkerPool
