import Mathlib.Data.List.Nodup
import WorkerPool.Proofs.Threads

/-!
# How pools are formed

A pool begins blank, in the hands of the one thread that makes it. Until that thread has started
the workers nobody else is inside a call on the pool and no flag of it is raised.

* `Pool.Blank` -- a pool just made, `Fresh.blank`;
* `Pool.Invariant` -- what pools begin with and every change keeps, `Invariant.reachable`;
* `mem_follow` -- the calls of a pool after one of them has moved;
* `Pool.Formed` -- what forming a pool keeps to, an invariant.
-/

namespace WorkerPool

namespace Pool

/-! ## 1. Pools just made -/

/-- Nothing has happened to the pool but its announcement. -/
structure Blank (p : Pool) : Prop where
  life : p.life = .building
  queue : p.queue = {}
  active : p.active = 0
  draining : p.draining = false
  halt : p.halt = false
  abandoned : p.abandoned = 0
  count : p.handler.count = 0
  metrics : p.metrics = none ∨ p.metrics = some (.withShards p.size)
  exited : p.exited = 0
  workers : p.workers = []
  handles : p.handles = []
  calls : ∃ thread refusal, p.calls = [(thread, .spawning 0 refusal)]
  trace : ∀ h ∈ p.trace, ∃ e, h = .event e

theorem Fresh.blank {p : Pool} (h : Fresh p) : Blank p := by
  obtain ⟨id, config, cpus, telemetry, now, thread, refusal, rfl⟩ := h
  have hmetrics (m : Metrics) : (if telemetry then some m else none) = none ∨
      (if telemetry then some m else none) = some m := by
    cases telemetry with
    | false => exact .inl rfl
    | true => exact .inr rfl
  simp only [ofConfig]
  split <;>
    exact ⟨rfl, rfl, rfl, rfl, rfl, rfl, rfl, hmetrics _, rfl, rfl, rfl, ⟨thread, refusal, rfl⟩,
      by simp [enter]⟩

theorem Blank.stages {p : Pool} (h : Blank p) : p.stages = [] := by
  rw [Pool.stages, h.workers, List.map_nil]

/-- Only reports are in the trace of a blank pool. -/
theorem Blank.not_mem {p : Pool} (h : Blank p) {x : Happening} (hx : ∀ e, x ≠ .event e) :
    x ∉ p.trace := by
  intro hm
  obtain ⟨e, he⟩ := h.trace x hm
  exact hx e he

/-- What every pool begins with and every change keeps. -/
structure Invariant (Inv : Pool → Prop) : Prop where
  fresh : ∀ {p : Pool}, Fresh p → Inv p
  change : ∀ {p q : Pool}, Inv p → Change p q → Inv q

/-- **An invariant holds of every pool of every reachable world.** -/
theorem Invariant.reachable {Inv : Pool → Prop} (hi : Invariant Inv) {w : World}
    (h : w.Reachable) : ∀ p ∈ w.pools, Inv p :=
  h.pool_induction (fun _ => hi.fresh) fun _ _ => hi.change

theorem Invariant.and {Inv Inv' : Pool → Prop} (hi : Invariant Inv) (hi' : Invariant Inv') :
    Invariant fun p => Inv p ∧ Inv' p where
  fresh h := ⟨hi.fresh h, hi'.fresh h⟩
  change h hc := ⟨hi.change h.1 hc, hi'.change h.2 hc⟩

/-- What changes keep beside an invariant that they need. -/
theorem Invariant.beside {Inv Inv' : Pool → Prop} (hi : Invariant Inv)
    (hf : ∀ {p : Pool}, Fresh p → Inv' p)
    (hc : ∀ {p q : Pool}, Inv p → Inv' p → Change p q → Inv' q) :
    Invariant fun p => Inv p ∧ Inv' p where
  fresh h := ⟨hi.fresh h, hf h⟩
  change h hch := ⟨hi.change h.1 hch, hc h.1 h.2 hch⟩

theorem Invariant.forall {ι : Type} {Inv : ι → Pool → Prop} (hi : ∀ x, Invariant (Inv x)) :
    Invariant fun p => ∀ x, Inv x p where
  fresh h x := (hi x).fresh h
  change h hc x := (hi x).change (h x) hc

theorem Invariant.congr {Inv Inv' : Pool → Prop} (hi : Invariant Inv)
    (he : ∀ p, Inv p ↔ Inv' p) : Invariant Inv' where
  fresh h := (he _).mp (hi.fresh h)
  change h hc := (he _).mp (hi.change ((he _).mpr h) hc)

/-! ## 2. The calls after one has moved -/

section Calls

variable {p : Pool} {thread : ThreadId} {c : ThreadId × CallStage}

theorem mem_setCall {s : CallStage} (h : c ∈ (p.setCall thread s).calls) :
    c = (thread, s) ∨ c.1 ≠ thread ∧ c ∈ p.calls := by
  obtain ⟨d, hd, rfl⟩ := List.mem_map.mp h
  by_cases ht : d.1 = thread
  · exact .inl (if_pos ht)
  · rw [if_neg ht]
    exact .inr ⟨ht, hd⟩

theorem mem_leave (h : c ∈ (p.leave thread).calls) : c.1 ≠ thread ∧ c ∈ p.calls := by
  obtain ⟨hc, ht⟩ := List.mem_filter.mp h
  exact ⟨by simpa using ht, hc⟩

/-- After a move of the call of `thread`: its new stage, or a call of another thread. -/
theorem mem_follow {next : CallStep} (h : c ∈ (p.follow thread next).calls) :
    next = .stage c.2 ∧ c.1 = thread ∨ c.1 ≠ thread ∧ c ∈ p.calls := by
  cases next with
  | stage s =>
      rcases mem_setCall h with rfl | hc
      · exact .inl ⟨rfl, rfl⟩
      · exact .inr hc
  | reply r => exact .inr (mem_leave h)

theorem mem_follow_of_ne {next : CallStep} (hc : c ∈ p.calls) (ht : c.1 ≠ thread) :
    c ∈ (p.follow thread next).calls := by
  cases next with
  | stage s => exact List.mem_map.mpr ⟨c, hc, if_neg ht⟩
  | reply r => exact List.mem_filter.mpr ⟨hc, by simpa using ht⟩

theorem mem_follow_self {s s' : CallStage} (hc : (thread, s) ∈ p.calls) :
    (thread, s') ∈ (p.follow thread (.stage s')).calls :=
  List.mem_map.mpr ⟨(thread, s), hc, if_pos rfl⟩

theorem mem_of_lookup {s : CallStage} (h : p.calls.lookup thread = some s) :
    (thread, s) ∈ p.calls := by
  obtain ⟨l₁, l₂, e, -⟩ := List.lookup_eq_some_iff.mp h
  rw [e]
  simp

/-- A thread has one call at most. -/
theorem eq_of_mem_calls {s s' : CallStage} (hn : p.callers.Nodup) (h : (thread, s) ∈ p.calls)
    (h' : (thread, s') ∈ p.calls) : s = s' := by
  have := List.inj_on_of_nodup_map hn h h' rfl
  cases this
  rfl

end Calls

/-! ## 3. Forming -/

/-- Each thread has one call at most; the thread that starts the workers is alone. -/
structure Formed (p : Pool) : Prop where
  nodup : p.callers.Nodup
  founding : ∀ c ∈ p.calls, c.2.isFounding = true →
    p.calls = [c] ∧ p.life = .building ∧ p.draining = false ∧ p.halt = false

theorem Fresh.formed {p : Pool} (h : Fresh p) : Formed p := by
  have hb := h.blank
  obtain ⟨thread, refusal, hc⟩ := hb.calls
  refine ⟨by simp [callers, hc], fun c hm _ => ⟨?_, hb.life, hb.draining, hb.halt⟩⟩
  rw [hc] at hm
  rw [hc, List.mem_singleton.mp hm]

/-- A move that leads to the starting of workers begins there and raises no flag. -/
theorem CallMove.founding {p q : Pool} {thread : ThreadId} {s s' : CallStage}
    (h : CallMove p thread s q (.stage s')) (hs : s'.isFounding = true) :
    s.isFounding = true ∧ q.life = p.life ∧ q.draining = p.draining ∧ q.halt = p.halt := by
  generalize hn : CallStep.stage s' = next at h
  cases h with
  | spawns | spawned => exact ⟨rfl, rfl, rfl, rfl⟩
  | findsDraining why | concludes why | reports why | breaksOff why =>
      cases why <;> cases hn
      all_goals cases hs
  | _ =>
      cases hn
      all_goals cases hs

theorem Formed.work {p q : Pool} {i : Nat} {s : WorkerStage} (hp : Formed p)
    (hu : Untouched p q) : Formed (q.setStage i s) := by
  refine ⟨?_, fun c hc hf => ?_⟩
  · rw [show (q.setStage i s).callers = p.callers from congrArg (List.map Prod.fst) hu.calls]
    exact hp.nodup
  · rw [show (q.setStage i s).calls = p.calls from hu.calls] at hc ⊢
    obtain ⟨h₁, h₂, h₃, h₄⟩ := hp.founding c hc hf
    exact ⟨h₁, hu.life.trans h₂, hu.draining.trans h₃, hu.halt.trans h₄⟩

theorem Formed.call {p q : Pool} {thread : ThreadId} {s : CallStage} {next : CallStep}
    (hp : Formed p) (hl : p.calls.lookup thread = some s) (h : CallMove p thread s q next) :
    Formed (q.follow thread next) := by
  obtain ⟨-, hcalls, -⟩ := h.frame
  have hmem := mem_of_lookup hl
  refine ⟨?_, fun c hc hf => ?_⟩
  · refine hp.nodup.sublist ?_
    rw [show p.callers = q.callers from congrArg (List.map Prod.fst) hcalls.symm]
    exact callers_follow_sublist _ _ _
  · rcases mem_follow hc with ⟨rfl, rfl⟩ | ⟨hne, hc⟩
    · obtain ⟨hs, h₁, h₂, h₃⟩ := h.founding hf
      obtain ⟨he, h₄, h₅, h₆⟩ := hp.founding _ hmem hs
      refine ⟨?_, h₁.trans h₄, h₂.trans h₅, h₃.trans h₆⟩
      simp [follow, setCall, hcalls, he]
    · -- another thread cannot be inside a call while the workers are started
      rw [hcalls] at hc
      have he := (hp.founding c hc hf).1
      rw [he] at hmem
      exact absurd (congrArg Prod.fst (List.mem_singleton.mp hmem)).symm hne

theorem Formed.change {p q : Pool} (hp : Formed p) (h : Change p q) : Formed q := by
  cases h with
  | work hw h => exact hp.work h.untouched
  | call hl h => exact hp.call hl h
  | note n => exact ⟨hp.nodup, hp.founding⟩
  | wake i => exact ⟨hp.nodup, hp.founding⟩
  | reclaim h =>
      obtain ⟨-, -, rfl⟩ := reclaim_cases h
      exact ⟨hp.nodup, hp.founding⟩
  | @enter thread q s hs ht h =>
      have hcalls : q.calls = p.calls := by cases h <;> rfl
      have hnew : s.isFounding = false := by
        cases h with
        | asks mode => cases mode <;> rfl
        | _ => rfl
      refine ⟨?_, fun c hc hf => ?_⟩
      · rw [callers_enter, List.nodup_cons, callers, hcalls]
        exact ⟨ht, hp.nodup⟩
      · rcases List.mem_cons.mp hc with rfl | hc
        · exact absurd (hnew.symm.trans hf) Bool.false_ne_true
        · -- a pool whose workers are being started takes no calls
          have := (hp.founding c (hcalls ▸ hc) hf).2.1
          rw [hs] at this
          cases this

/-- **A change moves the call of a thread or leaves it where it is.** -/
theorem Change.call_cases {p q : Pool} (hp : Formed p) (h : Change p q) {thread : ThreadId}
    {s : CallStage} (hm : (thread, s) ∈ p.calls) :
    (thread, s) ∈ q.calls ∨
      ∃ r next, CallMove p thread s r next ∧ q = r.follow thread next := by
  cases h with
  | work hw h => exact .inl (h.untouched.calls.symm ▸ hm)
  | @call t s' r next hl h =>
      obtain ⟨-, hcalls, -⟩ := h.frame
      by_cases ht : thread = t
      · obtain rfl := ht
        obtain rfl := eq_of_mem_calls hp.nodup hm (mem_of_lookup hl)
        exact .inr ⟨r, next, h, rfl⟩
      · exact .inl (mem_follow_of_ne (hcalls.symm ▸ hm) ht)
  | enter hs ht h =>
      refine .inl (List.mem_cons_of_mem _ ?_)
      cases h <;> exact hm
  | note n => exact .inl hm
  | wake i => exact .inl hm
  | reclaim h =>
      obtain ⟨-, -, rfl⟩ := reclaim_cases h
      exact .inl hm

/-- **To be formed is an invariant.** -/
theorem formed_invariant : Invariant Formed := ⟨Fresh.formed, Formed.change⟩

theorem formed_reachable {w : World} (h : w.Reachable) : ∀ p ∈ w.pools, Formed p :=
  formed_invariant.reachable h

/-- What every change keeps lasts along every run. -/
theorem run_induction {I : Pool → Prop}
    (hc : ∀ {p q : Pool}, Formed p → I p → Change p q → I q) {w w' : World}
    (h : w.Reachable) {ls : List Label} (hr : w.run ls = some w') {id : PoolId} {p q : Pool}
    (hp : w.pools[id]? = some p) (hq : w'.pools[id]? = some q) (hi : I p) : I q := by
  obtain ⟨r, hr', hpr⟩ := h.run_change hr hp
  obtain rfl : q = r := Option.some.inj (hq.symm.trans hr')
  have hf := formed_reachable h p (List.mem_of_getElem? hp)
  suffices Formed q ∧ I q from this.2
  clear hq hr'
  induction hpr with
  | refl => exact ⟨hf, hi⟩
  | tail _ hstep ih => exact ⟨ih.1.change hstep, hc ih.1 ih.2 hstep⟩

end Pool

end WorkerPool
