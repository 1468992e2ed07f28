import WorkerPool.Proofs.Fate

/-!
# Who raised the flags

A pool drains only because a shutdown has begun, it is halted only because an immediate one has, and
only then is its queue closed and a task refused. The trace names the thread and the mode each time,
so what raised the flags of a pool can be told from its trace.

* `CallMove.called` -- which move of a call begins a shutdown;
* `Pool.Flagged` -- every raised flag has a shutdown in the trace that raised it;
* `flagged_reachable` -- in every reachable world.
-/

namespace WorkerPool

namespace Pool

/-! ## 1. Moves that raise a flag -/

/-- A shutdown begins where its thread raises the draining flag. -/
theorem CallMove.called {p q : Pool} {thread : ThreadId} {s : CallStage} {next : CallStep}
    (h : CallMove p thread s q next) {t : ThreadId} {mode : Mode}
    (hm : .called t mode ∈ q.trace) :
    .called t mode ∈ p.trace ∨ t = thread ∧ q.draining = true ∧
      ((∃ why, s = .swapping why) ∨ mode = .immediate ∧ ∃ why, s = .raising why) := by
  cases h with
  | swaps why hd =>
      rcases List.mem_cons.mp hm with e | hm
      · cases e
        exact .inr ⟨rfl, rfl, .inl ⟨why, rfl⟩⟩
      · exact .inl hm
  | raises why =>
      rcases List.mem_cons.mp hm with e | hm
      · cases e
        exact .inr ⟨rfl, rfl, .inr ⟨rfl, why, rfl⟩⟩
      · exact .inl hm
  | _ => exact .inl (by simpa using hm)

theorem CallMove.drains {p q : Pool} {thread : ThreadId} {s : CallStage} {next : CallStep}
    (h : CallMove p thread s q next) (hd : q.draining = true) :
    p.draining = true ∨ ∃ mode, .called thread mode ∈ q.trace := by
  cases h with
  | swaps => exact .inr ⟨.graceful, List.mem_cons_self ..⟩
  | raises => exact .inr ⟨.immediate, List.mem_cons_self ..⟩
  | _ => exact .inl hd

theorem CallMove.halted {p q : Pool} {thread : ThreadId} {s : CallStage} {next : CallStep}
    (h : CallMove p thread s q next) (hh : q.halt = true) :
    p.halt = true ∨ ∃ why, s = .halting why := by
  cases h with
  | halts why => exact .inr ⟨why, rfl⟩
  | _ => exact .inl hh

theorem CallMove.closed {p q : Pool} {thread : ThreadId} {s : CallStage} {next : CallStep}
    (h : CallMove p thread s q next) (hc : q.queue.accepting = false) :
    p.queue.accepting = false ∨ ∃ mode why, s = .closing mode why := by
  cases h with
  | closes mode why => exact .inr ⟨mode, why, rfl⟩
  | pushes task choice ha => exact .inl (by simpa using hc)
  | _ => exact .inl hc

theorem CallMove.refused {p q : Pool} {thread : ThreadId} {s : CallStage} {next : CallStep}
    (h : CallMove p thread s q next) {t : TaskId} (hm : .refused t ∈ q.trace) :
    .refused t ∈ p.trace ∨ ∃ id kept, s = .rejecting id kept := by
  cases h with
  | countsRejected id => exact .inr ⟨id, none, rfl⟩
  | countsRejectedKept id task => exact .inr ⟨id, some task, rfl⟩
  | _ => exact .inl (by simpa using hm)

/-! ## 2. Flags and the trace -/

/-- Every flag of the pool was raised by a shutdown in its trace. -/
structure Flagged (p : Pool) : Prop where
  called : p.draining = true → ∃ t mode, .called t mode ∈ p.trace
  draining : ∀ {t : ThreadId} {mode : Mode}, .called t mode ∈ p.trace → p.draining = true
  halt : p.halt = true → ∃ t, .called t .immediate ∈ p.trace
  closed : p.queue.accepting = false → p.draining = true
  refused : ∀ {t : TaskId}, .refused t ∈ p.trace → p.draining = true

/-- A thread raises the halt flag only in an immediate shutdown, and refuses a task only while the
    pool drains. -/
def flagged : Assertion where
  shared := Flagged
  worker _ _ := True
  call p _
    | .halting _ => ∃ t, .called t .immediate ∈ p.trace
    | .refusing _ _ | .rejecting _ _ => p.draining = true
    | _ => True

theorem Flagged.of_frame {p q : Pool} (h : Flagged p) (hd : q.draining = p.draining)
    (hh : q.halt = p.halt) (hc : q.queue.accepting = p.queue.accepting)
    (ht : ∀ t mode, .called t mode ∈ q.trace ↔ .called t mode ∈ p.trace)
    (hr : ∀ t, .refused t ∈ q.trace → .refused t ∈ p.trace) : Flagged q where
  called hq := by
    obtain ⟨t, mode, hm⟩ := h.called (hd ▸ hq)
    exact ⟨t, mode, (ht t mode).mpr hm⟩
  draining hm := hd.trans (h.draining ((ht _ _).mp hm))
  halt hq := by
    obtain ⟨t, hm⟩ := h.halt (hh ▸ hq)
    exact ⟨t, (ht t _).mpr hm⟩
  closed hq := hd.trans (h.closed (hc ▸ hq))
  refused hm := hd.trans (h.refused (hr _ hm))

theorem flagged_blank {p : Pool} (hb : Blank p) : Flagged p where
  called hd := by
    rw [hb.draining] at hd
    cases hd
  draining hm := absurd hm (hb.not_mem fun _ e => by cases e)
  halt hh := by
    rw [hb.halt] at hh
    cases hh
  closed hc := by
    rw [hb.queue] at hc
    cases hc
  refused hm := absurd hm (hb.not_mem fun _ e => by cases e)

/-- A call comes to a refusal only while the pool drains, and to raising the halt flag only in an
    immediate shutdown. -/
theorem CallMove.flagged {p q : Pool} {thread : ThreadId} {s s' : CallStage}
    (h : CallMove p thread s q (.stage s')) (hp : flagged.Holds p) (hs : (thread, s) ∈ p.calls) :
    flagged.call q thread s' := by
  have hplace := hp.calls _ hs
  generalize hn : CallStep.stage s' = next at h
  cases h with
  | mayNotPush task hd => cases hn; exact hd
  | pushesTooLate task hc => cases hn; exact hp.shared.closed hc
  | refuses => cases hn; exact hplace
  | raises => cases hn; exact ⟨thread, List.mem_cons_self ..⟩
  | findsDraining why | concludes why | reports why | breaksOff why =>
      cases why <;> cases hn
      all_goals trivial
  | _ =>
      cases hn
      all_goals trivial

theorem flagged_call {p q : Pool} {thread : ThreadId} {s : CallStage} {next : CallStep}
    (hI : Accounted p) (hp : flagged.Holds p) (hs : (thread, s) ∈ p.calls)
    (h : CallMove p thread s q next) (hl : Later p q) :
    (∀ s', next = .stage s' → flagged.call q thread s') ∧ Flagged q := by
  have hplace := hp.calls _ hs
  have hfits : s.Fits p thread := hI.orderly.calls _ hs
  refine ⟨?_, ?_, ?_, ?_, ?_, ?_⟩
  · intro s' hn
    subst hn
    exact h.flagged hp hs
  · intro hd
    rcases h.drains hd with hd | ⟨mode, hm⟩
    · obtain ⟨t, mode, hm⟩ := hp.shared.called hd
      exact ⟨t, mode, hl.mem_trace hm⟩
    · exact ⟨thread, mode, hm⟩
  · intro t mode hm
    rcases h.called hm with hm | ⟨-, hd, -⟩
    · exact hl.draining (hp.shared.draining hm)
    · exact hd
  · intro hh
    rcases h.halted hh with hh | ⟨why, rfl⟩
    · obtain ⟨t, hm⟩ := hp.shared.halt hh
      exact ⟨t, hl.mem_trace hm⟩
    · obtain ⟨t, hm⟩ := hplace
      exact ⟨t, hl.mem_trace hm⟩
  · intro hc
    rcases h.closed hc with hc | ⟨mode, why, rfl⟩
    · exact hl.draining (hp.shared.closed hc)
    · exact hl.draining hfits.1
  · intro t hm
    rcases h.refused hm with hm | ⟨id, kept, rfl⟩
    · exact hl.draining (hp.shared.refused hm)
    · exact hl.draining hplace

theorem flagged_kept : flagged.Kept Accounted where
  blank := flagged_blank
  founding _ _ _ := trivial
  starting _ := trivial
  worker_later _ _ := trivial
  call_later {p q thread s} hl h := by
    cases s with
    | halting why =>
        obtain ⟨t, hm⟩ := h
        exact ⟨t, hl.mem_trace hm⟩
    | refusing id kept | rejecting id kept => exact hl.draining h
    | _ => exact h
  work _ hp _ h _ := by
    have hu := h.untouched
    refine ⟨trivial, hp.shared.of_frame hu.draining hu.halt h.queue.1 ?_ ?_⟩
    · intro t mode
      cases h <;> simp
    · intro t hm
      cases h <;> simpa using hm
  call := flagged_call
  enter _ hp _ h := by
    cases h with
    | offers task hf =>
        exact ⟨fun _ => trivial, hp.shared.of_frame rfl rfl rfl (by simp) (by simp)⟩
    | asks mode => exact ⟨fun _ => by cases mode <;> trivial, hp.shared⟩
    | givesUp hc => exact ⟨fun _ => trivial, hp.shared.of_frame rfl rfl rfl (by simp) (by simp)⟩
  note n h := h.of_frame rfl rfl rfl (by simp) (by simp)
  wake i h := h.of_frame rfl rfl (by simp) (by simp) (by simp)
  reclaim _ hp h := by
    obtain ⟨-, -, rfl⟩ := reclaim_cases h
    exact hp.shared.of_frame rfl rfl rfl (by simp) (by simp)
  staged s' _ _ h := h.of_frame rfl rfl rfl (fun _ _ => .rfl) fun _ hm => hm
  called calls h := h.of_frame rfl rfl rfl (fun _ _ => .rfl) fun _ hm => hm

/-- **Every flag of a pool of a reachable world was raised by a shutdown that its trace names.** -/
theorem flagged_reachable {w : World} (h : w.Reachable) : ∀ p ∈ w.pools, flagged.Holds p :=
  fun p hp => ((flagged_kept.invariant accounted_invariant).reachable h p hp).2

/-- Where a task is denied, the pool drains. -/
theorem Denies.draining {p : Pool} (hp : flagged.Holds p) {t : TaskId} (h : p.Denies t) :
    p.draining = true := by
  rcases h with h | ⟨⟨thread, s⟩, hm, hd⟩
  · exact hp.shared.refused h
  · have hplace := hp.calls _ hm
    cases s with
    | refusing id kept | rejecting id kept => exact hplace
    | _ => cases hd

end Pool

end WorkerPool
