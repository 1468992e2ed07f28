import WorkerPool.Proofs.Flags
import WorkerPool.Proofs.Passage

/-!
# Following one thread

Between two steps of a thread the others may do what they like: it is where it was in its program
and in its call, and no shutdown has begun in its name. A step of its own is a step of its program.
So the way of one thread through a call can be followed in any run.

* `Pool.Spares` -- what a step, of the thread or of another, leaves of the thread in a pool;
  `step_spares` -- every step does;
* `step_activity` -- a step of another thread leaves the thread where it was;
* `step_own`, `step_advance` -- a step of the thread is one through its program;
  `step_callStep` -- inside a call it is the next step of the call.
-/

namespace WorkerPool

namespace Pool

/-- From `p` to `q` in one step: if that was not the thread's `own`, its calls are where they were;
    and if a shutdown has begun in its name, the step was its own and it was inside a call. -/
structure Spares (thread : ThreadId) (own : Prop) (p q : Pool) : Prop where
  calls : ¬ own → ∀ s, (thread, s) ∈ p.calls → (thread, s) ∈ q.calls
  called : ∀ mode, .called thread mode ∈ q.trace →
    .called thread mode ∈ p.trace ∨ own ∧ thread ∈ p.callers

/-- `q` has the calls and the trace of `p`. -/
def SameCalls (p q : Pool) : Prop := q.calls = p.calls ∧ q.trace = p.trace

theorem SameCalls.refl (p : Pool) : SameCalls p p := ⟨rfl, rfl⟩

section Sparing

variable {p q : Pool} {thread : ThreadId} {own : Prop}

theorem Spares.of_frame (hc : q.calls = p.calls)
    (ht : ∀ mode, .called thread mode ∈ q.trace → .called thread mode ∈ p.trace) :
    Spares thread own p q :=
  ⟨fun _ _ hs => hc ▸ hs, fun mode hm => .inl (ht mode hm)⟩

theorem Spares.refl (p : Pool) : Spares thread own p p := .of_frame rfl fun _ hm => hm

theorem WorkerMove.spares {i : Nat} {s s' : WorkerStage} (h : WorkerMove p i s q s') :
    Spares thread own p (q.setStage i s') := by
  refine .of_frame h.untouched.calls fun mode hm => ?_
  cases h <;> simpa [setStage] using hm

theorem CallMove.spares {t : ThreadId} {s : CallStage} {next : CallStep}
    (h : CallMove p t s q next) (hs : (t, s) ∈ p.calls) :
    Spares thread (t = thread) p (q.follow t next) := by
  obtain ⟨-, hcalls, -⟩ := h.frame
  refine ⟨fun hne s hs => mem_follow_of_ne (hcalls.symm ▸ hs) (Ne.symm hne), fun mode hm => ?_⟩
  rcases h.called (q.trace_follow t next ▸ hm) with hm | ⟨rfl, -⟩
  · exact .inl hm
  · exact .inr ⟨rfl, List.mem_map_of_mem hs⟩

end Sparing

end Pool

namespace World

open Pool (Spares SameCalls)

section Following

variable {w w' : World} {l : Label}

/-- On its way through its program a thread touches its own calls only, and begins a shutdown only
    inside a call. -/
theorem Touches.spares {t : ThreadId} {before after : Activity} {ps : List Pool}
    (h : Touches w t before ps after) (thread : ThreadId) {id : PoolId} {p : Pool}
    (hp : w.pools[id]? = some p) :
    ∃ q, ps[id]? = some q ∧ Spares thread (t = thread) p q := by
  cases h with
  | nothing ha => exact ⟨p, hp, .refl p⟩
  | notes n hr ha => exact related_set Spares.refl hp hr (.of_frame rfl (by simp))
  | founds config refusal hb =>
      exact ⟨p, by rw [List.getElem?_append_left (List.getElem?_eq_some_iff.mp hp).1, hp], .refl p⟩
  | @enters j r q s next hr hb =>
      refine related_set Spares.refl hp hr ⟨fun _ s' hs => ?_, fun mode hm => .inl ?_⟩
      · exact List.mem_cons_of_mem _ (hb.calls.symm ▸ hs)
      · cases hb <;> simpa [Pool.enter] using hm
  | @moves j r q s step next hb hr hl h =>
      exact related_set Spares.refl hp hr (h.spares (Pool.mem_of_lookup hl))

/-- **A step spares a thread** in every pool. -/
theorem step_spares (hS : Sound w w.inside) (h : w.step l = some w') (thread : ThreadId)
    {id : PoolId} {p : Pool} (hp : w.pools[id]? = some p) :
    ∃ q, w'.pools[id]? = some q ∧ Spares thread (l.isOf thread = true) p q := by
  cases l with
  | fork program | openGate name | tick nanos =>
      cases h
      exact ⟨p, hp, .refl p⟩
  | wake j k =>
      obtain ⟨r, hr, h⟩ := Option.bind_eq_some_iff.mp h
      split at h <;> cases h
      exact related_set Spares.refl hp hr (.of_frame rfl fun _ hm => hm)
  | reclaim j =>
      obtain ⟨r, hr, h⟩ := Option.bind_eq_some_iff.mp h
      obtain ⟨r', hr', rfl⟩ := Option.map_eq_some_iff.mp h
      refine related_set Spares.refl hp hr ?_
      obtain ⟨-, -, rfl⟩ := Pool.reclaim_cases hr'
      exact .of_frame rfl (by simp)
  | act t choice =>
      have hown : (Label.isOf thread (.act t choice) = true) = (t = thread) := by
        simp [Label.isOf]
      rw [hown]
      have hacts : Acts w t w' := act_acts hS h
      cases hacts with
      | caller hi hpass hv => exact hpass.touches.spares thread hp
      | @task j k r job before after v hi hpass hv hr hid hst =>
          obtain ⟨q, hq, hsp⟩ := hpass.touches.spares thread hp
          have hsame : SameCalls r (r.setStage k (.running job after)) := ⟨rfl, rfl⟩
          obtain ⟨q', hq', hc, ht⟩ := related_set SameCalls.refl hq hr hsame
          exact ⟨q', hq', hc ▸ hsp.calls, ht ▸ hsp.called⟩
      | work hr hst hm hend => exact related_set Spares.refl hp hr hm.spares

/-- **A step of another thread leaves a thread where it was.** -/
theorem step_activity (hS : Sound w w.inside) (h : w.step l = some w') {thread : ThreadId}
    {a : Activity} (ha : w.activity? thread = some a) (hl : l.isOf thread = false) :
    w'.activity? thread = some a := by
  cases thread with
  | worker id i =>
      obtain ⟨job, hat⟩ := stageAt_of_activity? ha
      obtain ⟨p, hp, hs⟩ := Option.bind_eq_some_iff.mp hat
      obtain ⟨worker, hw, hst⟩ := Pool.stages_getElem?.mp hs
      obtain ⟨q, hq, hw'⟩ := step_retains hS h hp hw hl
      have hs' : q.stages[i]? = some (.running job a) := Pool.stages_getElem?.mpr ⟨worker, hw', hst⟩
      simp [activity?, stageAt, hq, hs', WorkerStage.activity?]
  | caller i =>
      have hi : w.callers[i]? = some a := ha
      suffices w'.callers[i]? = some a from this
      cases l with
      | fork program =>
          cases h
          exact (List.getElem?_append_left (List.getElem?_eq_some_iff.mp hi).1).trans hi
      | openGate name | tick nanos =>
          cases h
          exact hi
      | wake j k =>
          obtain ⟨r, hr, h⟩ := Option.bind_eq_some_iff.mp h
          split at h <;> cases h
          exact hi
      | reclaim j =>
          obtain ⟨r, hr, h⟩ := Option.bind_eq_some_iff.mp h
          obtain ⟨r', -, rfl⟩ := Option.map_eq_some_iff.mp h
          exact hi
      | act t choice =>
          have hother : t ≠ .caller i := of_decide_eq_false hl
          have hacts : Acts w t w' := act_acts hS h
          cases hacts with
          | @caller k before after v hk hpass hv =>
              have hne : k ≠ i := fun e => hother (e ▸ rfl)
              exact (List.getElem?_set_ne hne).trans (hpass.callers.symm ▸ hi)
          | task _ hpass => exact hpass.callers.symm ▸ hi
          | work => exact hi

/-- **A step of a thread inside its program is a step through it**; a worker's pool then has the
    worker where its task has got. -/
theorem step_own (hS : Sound w w.inside) (h : w.step l = some w') {thread : ThreadId}
    {a : Activity} (ha : w.activity? thread = some a) (hl : l.isOf thread = true)
    (hgo : a.isOver = false) :
    ∃ choice v a', w.advance thread choice a = some (v, a') ∧ w'.activity? thread = some a' ∧
      (w'.pools = v.pools ∨ ∃ id i job, thread = .worker id i ∧
        w'.pools = v.pools.modify id (·.setStage i (.running job a'))) := by
  have hin : w.inside thread = a.pool? := by simp [inside, ha]
  cases l with
  | act t choice =>
      obtain rfl : t = thread := of_decide_eq_true hl
      cases t with
      | caller i =>
          obtain ⟨a₀, hi, h⟩ := Option.bind_eq_some_iff.mp h
          obtain rfl : a₀ = a := Option.some.inj (hi.symm.trans ha)
          obtain ⟨⟨v, a'⟩, hadv, rfl⟩ := Option.map_eq_some_iff.mp h
          have hcallers := (advance_advanced hS hin hadv).callers
          exact ⟨choice, v, a', hadv, set_of_getElem? (hcallers.symm ▸ hi) a', .inl rfl⟩
      | worker id i =>
          obtain ⟨job, hat⟩ := stageAt_of_activity? ha
          obtain ⟨p, hact⟩ := act_running hat choice
          have h' : w.actInTask id p i choice job a = some w' := hact.symm.trans h
          unfold actInTask at h'
          split at h'
          · cases hgo
          · cases hgo
          · obtain ⟨⟨v, a'⟩, hadv, rfl⟩ := Option.map_eq_some_iff.mp h'
            obtain ⟨p', hp', hs'⟩ :=
              Option.bind_eq_some_iff.mp ((advance_advanced hS hin hadv).stages id i _ hat)
            have hlt : i < p'.stages.length := (List.getElem?_eq_some_iff.mp hs').1
            refine ⟨choice, v, a', hadv, ?_, .inr ⟨id, i, job, rfl, rfl⟩⟩
            simp [activity?, stageAt, modify_of_getElem? hp', set_of_getElem? hp',
              stages_setStage, hlt, WorkerStage.activity?]
  | _ => cases hl

/-- Such a step leaves the calls and the trace of every pool as it found them after its way through
    the program, and the whole pool if the thread is no worker of it. -/
theorem step_advance (hS : Sound w w.inside) (h : w.step l = some w') {thread : ThreadId}
    {a : Activity} (ha : w.activity? thread = some a) (hl : l.isOf thread = true)
    (hgo : a.isOver = false) :
    ∃ choice v a', w.advance thread choice a = some (v, a') ∧ w'.activity? thread = some a' ∧
      ∀ (id : PoolId) (q : Pool), v.pools[id]? = some q →
        ∃ q', w'.pools[id]? = some q' ∧ q.SameCalls q' ∧
          ((∀ i, thread ≠ .worker id i) → q' = q) := by
  obtain ⟨choice, v, a', hadv, ha', hpools⟩ := step_own hS h ha hl hgo
  refine ⟨choice, v, a', hadv, ha', fun id q hq => ?_⟩
  rcases hpools with e | ⟨j, i, job, rfl, e⟩
  · exact ⟨q, e ▸ hq, .refl q, fun _ => rfl⟩
  · rw [e, List.getElem?_modify, hq]
    by_cases hj : j = id
    · subst hj
      exact ⟨q.setStage i (.running job a'), by simp, ⟨rfl, rfl⟩, fun hout => absurd rfl (hout i)⟩
    · exact ⟨q, by simp [hj], .refl q, fun _ => rfl⟩

/-- **Inside a call such a step is the next step of the call.** -/
theorem step_callStep (hS : Sound w w.inside) (h : w.step l = some w') {thread : ThreadId}
    {id : PoolId} {next : Reply → Program} (ha : w.activity? thread = some (.inside id next))
    (hl : l.isOf thread = true) {p : Pool} (hp : w.pools[id]? = some p) {s : CallStage}
    (hm : (thread, s) ∈ p.calls) :
    ∃ choice q step q', p.callStep thread choice s = some (q, step) ∧
      w'.activity? thread = some (step.activity id next) ∧ w'.pools[id]? = some q' ∧
      (q.follow thread step).SameCalls q' ∧
      ((∀ i, thread ≠ .worker id i) → q' = q.follow thread step) := by
  obtain ⟨choice, v, a', hadv, ha', hpools⟩ := step_advance hS h ha hl rfl
  obtain ⟨r, hr, hadv⟩ := Option.bind_eq_some_iff.mp hadv
  obtain rfl : r = p := Option.some.inj (hr.symm.trans hp)
  obtain ⟨s', hlook, hadv⟩ := Option.bind_eq_some_iff.mp hadv
  obtain rfl := Pool.eq_of_mem_calls (hS.single hp) hm (Pool.mem_of_lookup hlook)
  obtain ⟨⟨q, step⟩, hq, hadv⟩ := Option.map_eq_some_iff.mp hadv
  cases step with
  | stage s' =>
      cases hadv
      obtain ⟨q', hq', hsame⟩ := hpools id _ (set_of_getElem? hp _)
      exact ⟨choice, q, .stage s', q', hq, ha', hq', hsame⟩
  | reply r =>
      cases hadv
      obtain ⟨q', hq', hsame⟩ := hpools id _ (set_of_getElem? hp _)
      exact ⟨choice, q, .reply r, q', hq, ha', hq', hsame⟩

end Following

end World

end WorkerPool
