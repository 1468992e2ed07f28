import WorkerPool.Proofs.Later

/-!
# The staff of a pool

A pool that takes calls has a worker, and the handles of its workers are in one hand: the pool's
own, until a shutdown takes them all, and then that shutdown's, until it has joined them or a panic
has made it let go of them. So among the shutdowns of one pool at most one has a worker to join;
every other one only waits for the count of exits.

* `CallStage.joinees` -- the workers that a shutdown has handles of;
* `Pool.Opened` -- the pool takes calls, or has taken one;
* `Pool.Staffed` -- workers and handles fit together, an invariant; `staffed_reachable`.
-/

namespace WorkerPool

/-- The workers of whose handles the call still has to dispose. -/
@[simp]
def CallStage.joinees : CallStage → List Nat
  | .joining _ _ left _ | .unwinding _ left _ _ => left
  | _ => []

/-- The workers whose handles are still in hand after a step of a call. -/
@[simp]
def CallStep.joinees : CallStep → List Nat
  | .stage s => s.joinees
  | .reply _ => []

namespace Pool

/-- All workers are there: the pool is about to take calls, takes them, or has taken one. -/
def Opened (p : Pool) : Prop :=
  (∃ thread, (thread, .opening) ∈ p.calls) ∨ p.life = .serving ∨ ∃ t, .offered t ∈ p.trace

/-- The workers of a pool and their handles. The thread that starts the workers has started as many
    as it says; handles are of workers that are there; and as long as one call has workers to join,
    the pool has no handles left and no other call has any. -/
structure Staffed (p : Pool) : Prop extends Formed p where
  size : 0 < p.size
  spawning : ∀ {thread : ThreadId} {next : Nat} {refusal : Nat → Option SystemError},
    (thread, .spawning next refusal) ∈ p.calls → p.stages.length = next
  manned : p.Opened → p.stages ≠ []
  handles : ∀ i ∈ p.handles, i < p.stages.length
  joinees : ∀ c ∈ p.calls, ∀ i ∈ c.2.joinees, i < p.stages.length
  taken : ∀ c ∈ p.calls, c.2.joinees ≠ [] → p.handles = []
  one : ∀ c ∈ p.calls, ∀ d ∈ p.calls, c.2.joinees ≠ [] → d.2.joinees ≠ [] → c.1 = d.1

theorem Fresh.staffed {p : Pool} (h : Fresh p) : Staffed p := by
  have hb := h.blank
  obtain ⟨thread, refusal, hc⟩ := hb.calls
  have hjoin : ∀ c ∈ p.calls, c.2.joinees = [] := fun c hm => by
    rw [hc] at hm
    rw [List.mem_singleton.mp hm]
    rfl
  refine ⟨h.formed, ?_, fun hm => ?_, fun ho => ?_, ?_, fun c hm i hi => ?_,
    fun c hm hne => absurd (hjoin c hm) hne, fun c hm _ _ hne => absurd (hjoin c hm) hne⟩
  · obtain ⟨id, config, cpus, telemetry, now, thread, refusal, rfl⟩ := h
    have hsize : 0 < max 1 (config.workerThreads cpus).toNat :=
      Nat.lt_of_lt_of_le Nat.zero_lt_one (Nat.le_max_left _ _)
    simp only [ofConfig]
    split <;> exact hsize
  · rw [hc] at hm
    cases List.mem_singleton.mp hm
    rw [hb.stages, List.length_nil]
  · rcases ho with ⟨t, ht⟩ | hl | ⟨t, ht⟩
    · rw [hc] at ht
      cases List.mem_singleton.mp ht
    · rw [hb.life] at hl
      cases hl
    · exact absurd ht (hb.not_mem fun _ e => by cases e)
  · rw [hb.handles]
    exact fun i hi => absurd hi List.not_mem_nil
  · rw [hjoin c hm] at hi
    exact absurd hi List.not_mem_nil

/-! ## 1. What changes keep -/

/-- Where the size, the handles and the number of workers are as they were, and every call that is
    new neither starts workers nor has any to join. -/
theorem Staffed.of_frame {p q : Pool} (hp : Staffed p) (hf : Formed q) (hsize : q.size = p.size)
    (hst : q.stages.length = p.stages.length) (hh : q.handles = p.handles)
    (hc : ∀ c ∈ q.calls, c ∈ p.calls ∨ c.2.isFounding = false ∧ c.2.joinees = [])
    (ho : q.Opened → p.Opened) : Staffed q := by
  have hold : ∀ c ∈ q.calls, c.2.joinees ≠ [] → c ∈ p.calls := fun c hm hne =>
    (hc c hm).resolve_right fun h => hne h.2
  refine ⟨hf, hsize ▸ hp.size, fun hm => ?_, fun h => ?_, ?_, fun c hm i hi => ?_,
    fun c hm hne => hh.trans (hp.taken c (hold c hm hne) hne),
    fun c hm d hd hne hne' => hp.one c (hold c hm hne) d (hold d hd hne') hne hne'⟩
  · rcases hc _ hm with hm | ⟨h, -⟩
    · exact hst.trans (hp.spawning hm)
    · cases h
  · exact fun e => hp.manned (ho h) (List.length_eq_zero_iff.mp (hst ▸ congrArg List.length e))
  · rw [hh, hst]
    exact hp.handles
  · rw [hst]
    exact hp.joinees c (hold c hm (List.ne_nil_of_mem hi)) i hi

theorem WorkerMove.size {p q : Pool} {i : Nat} {s s' : WorkerStage} (h : WorkerMove p i s q s') :
    q.size = p.size := by
  cases h <;> rfl

theorem CallMove.size {p q : Pool} {thread : ThreadId} {s : CallStage} {next : CallStep}
    (h : CallMove p thread s q next) : q.size = p.size := by
  cases h <;> rfl

/-- **What a move of a call does with workers and handles**: it starts a worker and keeps the
    handle, it takes all handles to join them, or it does neither. -/
theorem CallMove.staff {p q : Pool} {thread : ThreadId} {s : CallStage} {next : CallStep}
    (h : CallMove p thread s q next) :
    (∃ n refusal, s = .spawning n refusal ∧ next = .stage (.spawning (n + 1) refusal) ∧
      q.handles = p.handles ++ [n] ∧ q.stages = p.stages ++ [.starting]) ∨
    (∀ n refusal, next ≠ .stage (.spawning n refusal)) ∧ q.stages = p.stages ∧
      (q.handles = [] ∧ next.joinees = p.handles ∨
        q.handles = p.handles ∧ ∀ i ∈ next.joinees, i ∈ s.joinees) := by
  cases h with
  | spawns n refusal =>
      exact .inl ⟨n, refusal, rfl, rfl, rfl, by simp [stages]⟩
  | takes mode why => exact .inr ⟨(fun _ _ e => by cases e), rfl, .inl ⟨rfl, rfl⟩⟩
  | detaches | joins | joinsCrashed | joinsBurst | forsakes =>
      exact .inr ⟨(fun _ _ e => by cases e), rfl,
        .inr ⟨rfl, fun i hi => List.mem_cons_of_mem _ hi⟩⟩
  | findsDraining why | concludes why | reports why | breaksOff why =>
      refine .inr ⟨fun _ _ e => ?_, rfl, .inr ⟨rfl, fun i hi => ?_⟩⟩
      · cases why <;> cases e
      · cases why <;> exact absurd hi List.not_mem_nil
  | _ =>
      exact .inr ⟨(fun _ _ e => by cases e), rfl,
        .inr ⟨rfl, fun i hi => absurd hi List.not_mem_nil⟩⟩

/-- A pool opens when it has as many workers as it was made for. -/
theorem CallMove.opened {p q : Pool} {thread : ThreadId} {s : CallStage} {next : CallStep}
    (h : CallMove p thread s q next) (hs : (thread, s) ∈ p.calls)
    (ho : (q.follow thread next).Opened) :
    p.Opened ∨ ∃ n refusal, s = .spawning n refusal ∧ p.size ≤ n := by
  obtain ⟨-, hcalls, -⟩ := h.frame
  rcases ho with ⟨t, ht⟩ | hl | ⟨t, ht⟩
  · rcases mem_follow ht with ⟨hn, -⟩ | ⟨-, hm⟩
    · cases h with
      | spawned n refusal hle => exact .inr ⟨n, refusal, rfl, hle⟩
      | findsDraining why | concludes why | reports why | breaksOff why => cases why <;> cases hn
      | _ => cases hn
    · exact .inl (.inl ⟨t, hcalls ▸ hm⟩)
  · rw [life_follow] at hl
    cases h with
    | opens => exact .inl (.inl ⟨thread, hs⟩)
    | releases => cases hl
    | _ => exact .inl (.inr (.inl hl))
  · rw [trace_follow] at ht
    exact .inl (.inr (.inr ⟨t, (h.offered_iff t).mp ht⟩))

section Call

variable {p q : Pool} {thread : ThreadId} {s : CallStage} {next : CallStep}

/-- **At most one call comes to have workers to join**: the one that has taken the handles now, or
    the one that had some before. -/
theorem CallMove.joinees (h : CallMove p thread s q next) (hp : Staffed p)
    (hs : (thread, s) ∈ p.calls) {c : ThreadId × CallStage}
    (hc : c ∈ (q.follow thread next).calls) (hne : c.2.joinees ≠ []) :
    q.handles = [] ∧ (∀ i ∈ c.2.joinees, i < p.stages.length) ∧
      (c.1 = thread ∧ p.handles ≠ [] ∨ ∃ s₀, (c.1, s₀) ∈ p.calls ∧ s₀.joinees ≠ []) := by
  obtain ⟨-, hcalls, -⟩ := h.frame
  rcases mem_follow hc with ⟨rfl, ht⟩ | ⟨hct, hc⟩
  · rcases h.staff with ⟨n, r, -, hn, -⟩ | ⟨-, -, ⟨hh, hj⟩ | ⟨hh, hj⟩⟩
    · rw [CallStep.stage.inj hn] at hne
      exact absurd rfl hne
    · replace hj : c.2.joinees = p.handles := hj
      exact ⟨hh, hj ▸ hp.handles, .inl ⟨ht, hj ▸ hne⟩⟩
    · obtain ⟨i, hi⟩ := List.exists_mem_of_ne_nil _ hne
      have hs₀ : s.joinees ≠ [] := List.ne_nil_of_mem (hj i hi)
      exact ⟨hh.trans (hp.taken _ hs hs₀), fun i hi => hp.joinees _ hs i (hj i hi),
        .inr ⟨s, ht ▸ hs, hs₀⟩⟩
  · rw [hcalls] at hc
    refine ⟨?_, hp.joinees c hc, .inr ⟨c.2, hc, hne⟩⟩
    rcases h.staff with ⟨n, r, rfl, -⟩ | ⟨-, -, ⟨hh, -⟩ | ⟨hh, -⟩⟩
    · -- the thread that starts the workers is alone
      rw [(hp.founding _ hs rfl).1] at hc
      exact absurd (congrArg Prod.fst (List.mem_singleton.mp hc)) hct
    · exact hh
    · exact hh.trans (hp.taken c hc hne)

theorem Staffed.call (hp : Staffed p) (hl : p.calls.lookup thread = some s)
    (h : CallMove p thread s q next) : Staffed (q.follow thread next) := by
  obtain ⟨-, hcalls, -⟩ := h.frame
  have hs := mem_of_lookup hl
  have hlen : p.stages.length ≤ q.stages.length := by
    rcases h.staff with ⟨n, r, -, -, -, hst⟩ | ⟨-, hst, -⟩
    · simp [hst]
    · exact Nat.le_of_eq (congrArg List.length hst.symm)
  refine ⟨hp.toFormed.call hl h, ?_, ?_, ?_, ?_, ?_, ?_, ?_⟩
  · rw [size_follow, h.size]
    exact hp.size
  · intro t n refusal hc
    rw [stages_follow]
    rcases h.staff with ⟨m, r, rfl, rfl, -, hst⟩ | ⟨hno, hst, -⟩
    · rcases mem_follow hc with ⟨hn, -⟩ | ⟨hne, hc⟩
      · cases hn
        rw [hst, List.length_append, hp.spawning hs, List.length_singleton]
      · -- the thread that starts the workers is alone
        rw [hcalls, (hp.founding _ hs rfl).1] at hc
        exact absurd (congrArg Prod.fst (List.mem_singleton.mp hc)) hne
    · rw [hst]
      have hc := ((mem_follow hc).resolve_left fun hn => hno _ _ hn.1).2
      exact hp.spawning (hcalls ▸ hc)
  · intro ho
    rw [stages_follow]
    have hpos : 0 < p.stages.length := by
      rcases h.opened hs ho with ho | ⟨n, refusal, rfl, hle⟩
      · exact List.length_pos_iff.mpr (hp.manned ho)
      · rw [hp.spawning hs]
        exact Nat.lt_of_lt_of_le hp.size hle
    exact List.length_pos_iff.mp (Nat.lt_of_lt_of_le hpos hlen)
  · intro i hi
    rw [handles_follow] at hi
    rw [stages_follow]
    rcases h.staff with ⟨m, r, rfl, -, hh, hst⟩ | ⟨-, hst, ⟨hh, -⟩ | ⟨hh, -⟩⟩
    · rw [hst, List.length_append, List.length_singleton, Nat.lt_succ_iff]
      rcases List.mem_append.mp (hh ▸ hi) with hi | hi
      · exact Nat.le_of_lt (hp.handles i hi)
      · exact Nat.le_of_eq ((List.mem_singleton.mp hi).trans (hp.spawning hs).symm)
    · rw [hh] at hi
      exact absurd hi List.not_mem_nil
    · rw [hst]
      exact hp.handles i (hh ▸ hi)
  · intro c hc i hi
    rw [stages_follow]
    exact Nat.lt_of_lt_of_le ((h.joinees hp hs hc (List.ne_nil_of_mem hi)).2.1 i hi) hlen
  · intro c hc hne
    rw [handles_follow]
    exact (h.joinees hp hs hc hne).1
  · intro c hc d hd hne hne'
    rcases (h.joinees hp hs hc hne).2.2 with ⟨hct, hph⟩ | ⟨s₀, hc₀, hne₀⟩
    · rcases (h.joinees hp hs hd hne').2.2 with ⟨hdt, -⟩ | ⟨s₁, hd₁, hne₁⟩
      · exact hct.trans hdt.symm
      · exact absurd (hp.taken _ hd₁ hne₁) hph
    · rcases (h.joinees hp hs hd hne').2.2 with ⟨-, hph⟩ | ⟨s₁, hd₁, hne₁⟩
      · exact absurd (hp.taken _ hc₀ hne₀) hph
      · exact hp.one (c.1, s₀) hc₀ (d.1, s₁) hd₁ hne₀ hne₁

end Call

/-! ## 2. An invariant -/

theorem Staffed.change {p q : Pool} (hp : Staffed p) (h : Change p q) : Staffed q := by
  have hf := hp.toFormed.change h
  cases h with
  | @work i worker q s hw h =>
      have hu := h.untouched
      refine hp.of_frame hf h.size ?_ hu.handles (fun c hc => .inl (hu.calls ▸ hc)) fun ho => ?_
      · rw [World.stages_setStage, List.length_set, hu.stages]
      · rcases ho with ⟨t, ht⟩ | hl | ⟨t, ht⟩
        · exact .inl ⟨t, hu.calls ▸ ht⟩
        · exact .inr (.inl (hu.life ▸ hl))
        · exact .inr (.inr ⟨t, (h.offered_iff t).mp ht⟩)
  | call hl h => exact hp.call hl h
  | note n =>
      refine hp.of_frame hf rfl rfl rfl (fun c hc => .inl hc) fun ho => ?_
      exact ho.imp_right (Or.imp_right fun ⟨t, ht⟩ => ⟨t, by simpa using ht⟩)
  | wake i => exact hp.of_frame hf rfl rfl rfl (fun c hc => .inl hc) fun ho => ho
  | reclaim h =>
      obtain ⟨-, -, rfl⟩ := reclaim_cases h
      refine hp.of_frame hf rfl rfl rfl (fun c hc => .inl hc) fun ho => ?_
      exact ho.imp_right (Or.imp_right fun ⟨t, ht⟩ => ⟨t, by simpa using ht⟩)
  | @enter thread q s hs ht h =>
      have hnew : s.isFounding = false ∧ s.joinees = [] := by
        cases h with
        | asks mode => cases mode <;> exact ⟨rfl, rfl⟩
        | _ => exact ⟨rfl, rfl⟩
      have hsame : q.size = p.size ∧ q.stages = p.stages ∧ q.handles = p.handles ∧
          q.calls = p.calls := by
        cases h <;> exact ⟨rfl, rfl, rfl, rfl⟩
      obtain ⟨hsize, hst, hh, hcalls⟩ := hsame
      refine hp.of_frame hf hsize (congrArg List.length hst) hh (fun c hc => ?_) fun _ =>
        .inr (.inl hs)
      rcases List.mem_cons.mp hc with rfl | hc
      · exact .inr hnew
      · exact .inl (hcalls ▸ hc)

theorem staffed_invariant : Invariant Staffed := ⟨Fresh.staffed, Staffed.change⟩

/-- **Every pool of a reachable world is staffed.** -/
theorem staffed_reachable {w : World} (h : w.Reachable) : ∀ p ∈ w.pools, Staffed p :=
  staffed_invariant.reachable h

/-- A call starts a worker only as long as there are fewer than the pool is made with. -/
theorem CallMove.crew {p q : Pool} {thread : ThreadId} {s : CallStage} {next : CallStep}
    (h : CallMove p thread s q next) : q.stages = p.stages ∨
      ∃ n refusal, s = .spawning n refusal ∧ n < p.size ∧ q.stages = p.stages ++ [.starting] := by
  cases h with
  | spawns n refusal hn => exact .inr ⟨n, refusal, rfl, hn, by simp [stages]⟩
  | _ => exact .inl rfl

theorem Staffed.crew {p q : Pool} (hp : Staffed p) (hle : p.stages.length ≤ p.size)
    (h : Change p q) : q.stages.length ≤ q.size := by
  cases h with
  | work hw h =>
      rw [World.stages_setStage, List.length_set, h.untouched.stages]
      exact Nat.le_trans hle (Nat.le_of_eq h.size.symm)
  | @call thread s r next hl h =>
      rw [stages_follow, size_follow, h.size]
      rcases h.crew with e | ⟨n, refusal, rfl, hn, e⟩
      · rwa [e]
      · rw [e, List.length_append, hp.spawning (mem_of_lookup hl)]
        exact hn
  | enter hs ht h => cases h <;> exact hle
  | note n => exact hle
  | wake i => exact hle
  | reclaim h =>
      obtain ⟨-, -, rfl⟩ := reclaim_cases h
      exact hle

/-- **No pool has more workers than it is made with.** -/
theorem crew_reachable {w : World} (h : w.Reachable) : ∀ p ∈ w.pools, p.stages.length ≤ p.size :=
  fun p hp => ((staffed_invariant.beside
    (fun hf => by rw [hf.blank.stages]; exact Nat.zero_le _) Staffed.crew).reachable h p hp).2

end Pool

end WorkerPool
