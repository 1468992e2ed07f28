import WorkerPool.Proofs.Order
import WorkerPool.Proofs.Passage
import WorkerPool.Proofs.Roster

/-!
# What is begun after the halt flag

A worker looks at the halt flag before it waits for a task, and again when it has got one. Once the
flag is raised only a worker that has passed the second look can begin a task, and it has passed it
with one task. So it does not matter how many tasks are queued.

* `Roll.keptOfRecord` -- what is said of a worker by what it has taken and what it has begun;
* `WorkerStage.pledged` -- what a worker is about to begin, in a halted pool the last it begins;
* `WorkerStage.wayOut` -- a worker that lays a task down leaves, and takes no other;
* `halt_bounds_beginnings` -- the bounds.
-/

namespace WorkerPool

namespace Pool

/-! ## 1. What is said by the record of a worker -/

/-- A worker's move is in no record but its own. -/
theorem WorkerMove.records_of_ne {p q : Pool} {i j : Nat} {s s' : WorkerStage}
    (h : WorkerMove p i s q s') (hij : j ≠ i) :
    q.takenBy j = p.takenBy j ∧ q.begunBy j = p.begunBy j := by
  obtain ⟨ht, hb⟩ := h.readings
  exact ⟨congrArg (List.map Prod.fst) (filter_of_ne hij ht),
    congrArg (List.map Prod.fst) (filter_of_ne hij hb)⟩

theorem records_congr {p q : Pool} (ht : q.takings = p.takings)
    (hb : q.beginnings = p.beginnings) (i : Nat) :
    q.takenBy i = p.takenBy i ∧ q.begunBy i = p.begunBy i := by
  rw [takenBy, begunBy, ht, hb]
  exact ⟨rfl, rfl⟩

/-- Only the worker itself writes to its record. -/
theorem Roll.keptOfRecord {P : Nat → List TaskId → List TaskId → Option WorkerStage → Prop}
    {I : Pool → Prop} (hnew : ∀ {i taken begun}, P i taken begun none →
      P i taken begun (some .starting))
    (hown : ∀ {p q : Pool} {i : Nat} {s s' : WorkerStage}, I p →
      P i (p.takenBy i) (p.begunBy i) (some s) → WorkerMove p i s q s' →
        P i (q.takenBy i) (q.begunBy i) (some s')) :
    Roll.Kept (fun p i o => P i (p.takenBy i) (p.begunBy i) o) I := by
  have same {p q : Pool} {i : Nat} {o : Option WorkerStage} (ht : q.takings = p.takings)
      (hb : q.beginnings = p.beginnings) (h : P i (p.takenBy i) (p.begunBy i) o) :
      P i (q.takenBy i) (q.begunBy i) o := by
    obtain ⟨ht, hb⟩ := records_congr ht hb i
    rwa [ht, hb]
  exact {
    own := hown
    recruit := hnew
    other := fun _ hij hm h => by
      obtain ⟨ht, hb⟩ := hm.records_of_ne hij
      rwa [ht, hb]
    call := fun _ hm h => same hm.readings.1 hm.readings.2 h
    enter := fun he h => by
      cases he with
      | offers task hf => exact same (by simp [takings]) (by simp [beginnings]) h
      | _ => exact h
    note := fun n h => same (by simp [takings]) (by simp [beginnings]) h
    wake := fun k h => h
    reclaim := fun hr h =>
      same (inOrder_reclaim hr fun _ _ => rfl) (inOrder_reclaim hr fun _ _ => rfl) h
    placed := fun workers calls h => h }

end Pool

/-! ## 2. In a halted pool -/

/-- What a worker at this stage is about to begin. -/
def WorkerStage.pledged : WorkerStage → List TaskId
  | .ready task => [task.id]
  | _ => []

/-- How far a worker that lays a task down is from its end; zero for any other. -/
def WorkerStage.wayOut : WorkerStage → Nat
  | .abandoning _ => 5
  | .discarding _ => 4
  | .stopping => 3
  | .leaving _ => 2
  | .finished _ => 1
  | _ => 0

namespace Pool

/-- What each worker has begun, and then what it is about to begin, is this. -/
def pledging (whole : Nat → List TaskId) : Roll := fun p i o =>
  p.begunBy i ++ o.elim [] WorkerStage.pledged = whole i

/-- **In a halted pool a worker begins what it is about to begin**, and nothing else. -/
theorem pledging_kept (whole : Nat → List TaskId) :
    (pledging whole).Kept fun p => p.halt = true := by
  refine Roll.keptOfRecord (P := fun i _ begun o =>
    begun ++ o.elim [] WorkerStage.pledged = whole i) (fun h => h) ?_
  intro p q i s s' hh hp h
  rw [← hp]
  cases h with
  | popsInTime task hno => simp [hh] at hno
  | _ => simp [WorkerStage.pledged, begunBy, beginnings, Handler.report]

/-- The worker of this number is on its way out, no further from its end than this, and has this
    record. -/
def retiring (k : Nat) (s : WorkerStage) (taken begun : List TaskId) : Roll := fun p i o =>
  i = k → ∃ s', o = some s' ∧ 0 < s'.wayOut ∧ s'.wayOut ≤ s.wayOut ∧ p.takenBy i = taken ∧
    p.begunBy i = begun

/-- **Who lays a task down leaves**, and takes and begins nothing on the way. -/
theorem retiring_kept (k : Nat) (s : WorkerStage) (taken begun : List TaskId) :
    (retiring k s taken begun).Kept fun _ => True := by
  refine Roll.keptOfRecord (P := fun i taken' begun' o => i = k → ∃ s', o = some s' ∧
    0 < s'.wayOut ∧ s'.wayOut ≤ s.wayOut ∧ taken' = taken ∧ begun' = begun) ?_ ?_
  · intro i _ _ h hik
    obtain ⟨s', hs', -⟩ := h hik
    cases hs'
  · intro p q i s₁ s₂ _ hp h hik
    obtain ⟨s', hs', hpos, hle, ht, hb⟩ := hp hik
    obtain rfl := Option.some.inj hs'
    cases h with
    | abandons | discards | stops | exits =>
        refine ⟨_, rfl, Nat.succ_pos _, Nat.le_of_succ_le hle, ?_, ?_⟩
        · simpa [takenBy, takings] using ht
        · simpa [begunBy, beginnings] using hb
    | _ => exact absurd hpos (Nat.lt_irrefl 0)

theorem mem_takings_iff {p : Pool} {t : TaskId} {i : Nat} :
    (t, i) ∈ p.takings ↔ .popped t i ∈ p.trace := by
  rw [takings, mem_inOrder]
  refine ⟨?_, fun h => ⟨_, h, rfl⟩⟩
  rintro ⟨e, he, hf⟩
  cases e with
  | popped u j =>
      obtain ⟨rfl, rfl⟩ : u = t ∧ j = i := by simpa using hf
      exact he
  | _ => cases hf

/-- What is begun from one pool to a later one is added at the end of every reading. -/
theorem Later.beginnings {p q : Pool} (h : Later p q) :
    ∃ since, q.beginnings = p.beginnings ++ since := by
  obtain ⟨new, e, -⟩ := h.trace
  exact ⟨_, by rw [Pool.beginnings, e, inOrder_append, Pool.beginnings]⟩

end Pool

namespace World

open Pool

/-! ## 3. The step that raises the flag -/

/-- No worker of `q` is about to begin a task that was not about to begin it in `p`. -/
def Readied (p q : Pool) : Prop :=
  ∀ (i : Nat) (task : Task), q.stages[i]? = some (.ready task) → p.stages[i]? = some (.ready task)

theorem Readied.refl (p : Pool) : Readied p p := fun _ _ h => h

theorem Touches.readied {w : World} {thread : ThreadId} {before after : Activity} {ps : List Pool}
    (h : Touches w thread before ps after) {id : PoolId} {p : Pool} (hp : w.pools[id]? = some p) :
    ∃ q, ps[id]? = some q ∧ Readied p q := by
  cases h with
  | nothing ha => exact ⟨p, hp, .refl p⟩
  | notes n hr ha => exact related_set .refl hp hr fun _ _ h => h
  | founds config refusal hb =>
      exact ⟨p, by rw [List.getElem?_append_left (List.getElem?_eq_some_iff.mp hp).1, hp], .refl p⟩
  | @enters j r q s next hr hb =>
      have hst : q.stages = r.stages := by cases hb <;> rfl
      exact related_set .refl hp hr fun i task h => hst ▸ h
  | @moves j r q s step next hb hr hl h =>
      refine related_set .refl hp hr fun i task hi => ?_
      rw [stages_follow] at hi
      rcases h.frame.2.2 with e | ⟨-, e⟩
      · rwa [e] at hi
      · -- a worker that has just been started is at the beginning of its loop
        rw [e, List.getElem?_append] at hi
        split at hi
        · exact hi
        · cases List.mem_singleton.mp (List.mem_of_getElem? hi)

/-- **A worker that is about to begin a task in a halted pool was so before the step** that has led
    there. -/
theorem step_readied {w w' : World} (h : w.Reachable) {l : Label} (hs : w.step l = some w')
    {id : PoolId} {p q : Pool} (hp : w.pools[id]? = some p) (hq : w'.pools[id]? = some q)
    (hh : q.halt = true) : Readied p q := by
  suffices hex : ∃ q', w'.pools[id]? = some q' ∧ (q'.halt = true → Readied p q') by
    obtain ⟨q', hq', hr⟩ := hex
    obtain rfl := Option.some.inj (hq.symm.trans hq')
    exact hr hh
  have keep {w' : World} (hw : ∃ q', w'.pools[id]? = some q' ∧ Readied p q') :
      ∃ q', w'.pools[id]? = some q' ∧ (q'.halt = true → Readied p q') :=
    hw.imp fun _ h => ⟨h.1, fun _ => h.2⟩
  cases l with
  | fork program | openGate name | tick nanos =>
      cases hs
      exact keep ⟨p, hp, .refl p⟩
  | wake j k =>
      obtain ⟨r, hr, hs⟩ := Option.bind_eq_some_iff.mp hs
      split at hs <;> cases hs
      exact keep (related_set .refl hp hr fun _ _ h => h)
  | reclaim j =>
      obtain ⟨r, hr, hs⟩ := Option.bind_eq_some_iff.mp hs
      obtain ⟨r', hr', rfl⟩ := Option.map_eq_some_iff.mp hs
      refine keep (related_set .refl hp hr ?_)
      obtain ⟨-, -, rfl⟩ := reclaim_cases hr'
      exact fun _ _ h => h
  | act thread choice =>
      cases act_acts (sound_reachable h) hs with
      | caller hi hpass hv => exact keep (hpass.touches.readied hp)
      | @task j k r job before after v hat hpass hv hr hid hst =>
          obtain ⟨q', hq', hrd⟩ := hpass.touches.readied hp
          by_cases hj : j = id
          · subst hj
            obtain rfl : r = q' := Option.some.inj (hr.symm.trans hq')
            refine keep ⟨_, set_of_getElem? hr _, fun i task hi => hrd i task ?_⟩
            rw [stages_setStage] at hi
            by_cases hik : k = i
            · subst hik
              rw [set_of_getElem? hst] at hi
              cases hi
            · rwa [List.getElem?_set_ne hik] at hi
          · exact keep ⟨q', (List.getElem?_set_ne hj).trans hq', hrd⟩
      | @work j k r r' s s' hr hst hm hend =>
          by_cases hj : j = id
          · subst hj
            obtain rfl : r = p := Option.some.inj (hr.symm.trans hp)
            refine ⟨_, set_of_getElem? hr _, fun hh i task hi => ?_⟩
            rw [stages_setStage, hm.untouched.stages] at hi
            by_cases hik : k = i
            · subst hik
              rw [set_of_getElem? hst] at hi
              obtain rfl := Option.some.inj hi
              cases hm with
              | popsInTime task hno => simp [setStage, hno] at hh
            · rwa [List.getElem?_set_ne hik] at hi
          · exact keep ⟨p, (List.getElem?_set_ne hj).trans hp, .refl p⟩

end World

open Pool

namespace Pool

/-! ## 4. From there on -/

/-- What a worker begins from a halted pool to a later one is what it was about to begin. -/
theorem since_of_halted {w w' : World} (h : w.Reachable) {ls : List Label}
    (hr : w.run ls = some w') {id : PoolId} {p q : Pool} (hp : w.pools[id]? = some p)
    (hq : w'.pools[id]? = some q) (hh : p.halt = true) {since : List (TaskId × Nat)}
    (he : q.beginnings = p.beginnings ++ since) (i : Nat) :
    (since.filter (·.2 = i)).map Prod.fst <+: p.stages[i]?.elim [] WorkerStage.pledged := by
  have hreads : q.halt = true ∧ (pledging fun i =>
      p.begunBy i ++ p.stages[i]?.elim [] WorkerStage.pledged).Reads q :=
    run_induction (I := fun q => q.halt = true ∧ Roll.Reads (pledging _) q)
      (fun hf hi hc => ⟨(hc.later hf).halt hi.1, (pledging_kept _).change hi.1 hi.2 hc⟩) h hr hp hq
      ⟨hh, fun _ => rfl⟩
  have hbegun : q.begunBy i = p.begunBy i ++ (since.filter (·.2 = i)).map Prod.fst := by
    rw [begunBy, he, List.filter_append, List.map_append, begunBy]
  have hi := hreads.2 i
  rw [pledging, hbegun, List.append_assoc] at hi
  exact ⟨_, List.append_cancel_left hi⟩

theorem Ordered.countP_takenBy {p : Pool} (hp : Ordered p) (i : Nat) :
    (p.takenBy i).countP (fun t => p.starts t = 0) ≤ 1 := by
  have hzero : (p.begunBy i).countP (fun t => p.starts t = 0) = 0 := by
    refine List.countP_eq_zero.mpr fun t ht => ?_
    have : 0 < p.starts t := mem_begun.mp (List.mem_map_of_mem (mem_begunBy.mp ht))
    simp only [decide_eq_true_eq]
    omega
  rcases hp.last i with e | ⟨t, e⟩
  · rw [e, hzero]
    exact Nat.zero_le 1
  · rw [e, List.countP_append, hzero, Nat.zero_add]
    exact List.countP_le_length

end Pool

/-- **Halting does not wait for what is queued.** Let a step leave a pool halted, such as the one
    that raises the flag, and let the run go on in any way. A task is begun from then on only by a
    worker that had taken it, and looked at the flag for the second time, before that step. So no
    worker begins two more tasks, and there are no more of them than workers. Of all that a worker
    ever takes one task at most is not begun; and once it lays one down it is on its way out, comes
    nowhere twice, and takes nothing more. -/
theorem halt_bounds_beginnings {w₀ w₁ w : World} (h : w₀.Reachable) {l : Label}
    (hs : w₀.step l = some w₁) {ls : List Label} (hr : w₁.run ls = some w) {id : PoolId}
    {p₀ p₁ p : Pool} (hp₀ : w₀.pools[id]? = some p₀) (hp₁ : w₁.pools[id]? = some p₁)
    (hp : w.pools[id]? = some p) (hh : p₁.halt = true) :
    (∃ since, p.beginnings = p₁.beginnings ++ since ∧
      (∀ t i, (t, i) ∈ since → .popped t i ∈ p₀.trace ∧
        ∃ task, p₀.stages[i]? = some (.ready task) ∧ task.id = t) ∧
      (since.map Prod.snd).Nodup ∧ since.length ≤ p.size) ∧
    (∀ i, (p.takenBy i).countP (fun t => p.starts t = 0) ≤ 1) ∧
    ∀ i s, p.stages[i]? = some s → 0 < s.wayOut → ∀ ls' w' p', w.run ls' = some w' →
      w'.pools[id]? = some p' → p'.takenBy i = p.takenBy i ∧
        ∃ s', p'.stages[i]? = some s' ∧ 0 < s'.wayOut ∧ s'.wayOut ≤ s.wayOut := by
  have h₁ := h.step l hs
  have hw := h₁.run hr
  have ho₀ := ordered_reachable h p₀ (List.mem_of_getElem? hp₀)
  have ho := ordered_reachable hw p (List.mem_of_getElem? hp)
  obtain ⟨since, he⟩ := (run_later h₁ hr hp₁ hp).beginnings
  have hpledge := since_of_halted h₁ hr hp₁ hp hh he
  have hworker : ∀ x ∈ since, x.2 < p.stages.length := fun x hx =>
    ho.beginner x (he ▸ List.mem_append_right _ hx)
  have hnodup : (since.map Prod.snd).Nodup := by
    refine List.nodup_iff_count_le_one.mpr fun i => ?_
    have hcount : (since.map Prod.snd).count i = ((since.filter (·.2 = i)).map Prod.fst).length := by
      rw [List.length_map, ← List.countP_eq_length_filter, List.count, List.countP_map]
      exact List.countP_congr fun x _ => by simp
    rw [hcount]
    refine Nat.le_trans (hpledge i).length_le ?_
    cases hs : p₁.stages[i]? with
    | none => exact Nat.zero_le 1
    | some s => cases s <;> simp [WorkerStage.pledged]
  refine ⟨⟨since, he, fun t i hx => ?_, hnodup, ?_⟩, ho.countP_takenBy, ?_⟩
  · have ht : t ∈ (since.filter (·.2 = i)).map Prod.fst :=
      List.mem_map.mpr ⟨(t, i), List.mem_filter.mpr ⟨hx, by simp⟩, rfl⟩
    have hpledged := (hpledge i).subset ht
    cases hst : p₁.stages[i]? with
    | none => simp [hst] at hpledged
    | some s =>
        cases s with
        | ready task =>
            obtain rfl : t = task.id := by simpa [hst, WorkerStage.pledged] using hpledged
            have hst₀ := World.step_readied h hs hp₀ hp₁ hh i task hst
            have htaken : task.id ∈ p₀.takenBy i := by
              rw [ho₀.worker hst₀]
              exact List.mem_append_right _ (List.mem_singleton_self _)
            exact ⟨mem_takings_iff.mp (mem_takenBy.mp htaken), task, hst₀, rfl⟩
        | _ => simp [hst, WorkerStage.pledged] at hpledged
  · -- the workers of these tasks are all different
    have hsub : since.map Prod.snd ⊆ List.range p.stages.length := by
      intro i hi
      obtain ⟨x, hx, rfl⟩ := List.mem_map.mp hi
      exact List.mem_range.mpr (hworker x hx)
    have hle := (List.subperm_of_subset hnodup hsub).length_le
    rw [List.length_map, List.length_range] at hle
    exact Nat.le_trans hle ho.crew
  · intro i s hst hpos ls' w' p' hr' hp'
    have hreads : (retiring i s (p.takenBy i) (p.begunBy i)).Reads p' :=
      run_induction (fun _ hi hc => (retiring_kept _ _ _ _).change trivial hi hc) hw hr' hp hp'
        fun j hj => ⟨s, hj ▸ hst, hpos, Nat.le_refl _, by rw [hj], by rw [hj]⟩
    obtain ⟨s', hs', hpos', hle, ht, -⟩ := hreads i rfl
    exact ⟨ht, s', hs', hpos', hle⟩

/-- The run of two workers until the flag is about to be raised: one has taken a task and not looked
    again, the other one has. -/
def tornSteps : List Label :=
  .fork (cutOff 2) :: moves (.caller 0) 13 ++ moves (.worker 0 0) 3 ++ moves (.worker 0 1) 4 ++
    moves (.caller 0) 2

/-- After the flag the one lays its task down and the other begins its own, the last that is. -/
theorem halt_bounds_beginnings_when_torn : ∃ (w₀ w₁ w : World) (p₀ p₁ p : Pool),
    w₀.Reachable ∧ w₀.step (.act (.caller 0) 0) = some w₁ ∧
    w₁.run (moves (.worker 0 0) 3 ++ moves (.worker 0 1) 1) = some w ∧
    w₀.pools[0]? = some p₀ ∧ w₁.pools[0]? = some p₁ ∧ w.pools[0]? = some p ∧
    p₀.halt = false ∧ p₁.halt = true ∧ p.beginnings = p₁.beginnings ++ [(⟨2⟩, 1)] ∧
    .popped ⟨2⟩ 1 ∈ p₀.trace ∧ (∃ task, p₀.stages[1]? = some (.ready task) ∧ task.id = ⟨2⟩) ∧
    [((⟨2⟩ : TaskId), 1)].length ≤ p.size ∧ p.takenBy 0 = [⟨1⟩] ∧ p.starts ⟨1⟩ = 0 ∧
    (p.takenBy 0).countP (fun t => p.starts t = 0) ≤ 1 ∧
    ∀ ls' w' p', w.run ls' = some w' → w'.pools[0]? = some p' → p'.takenBy 0 = [⟨1⟩] := by
  have hrun : (((World.initial true {}).run tornSteps).any fun w₀ =>
      (w₀.pools[0]?).any fun p₀ => (w₀.step (.act (.caller 0) 0)).any fun w₁ =>
      (w₁.pools[0]?).any fun p₁ =>
      (w₁.run (moves (.worker 0 0) 3 ++ moves (.worker 0 1) 1)).any fun w =>
      (w.pools[0]?).any fun p => decide (p₀.halt = false ∧ p₁.halt = true ∧ p₁.beginnings = [] ∧
        p.beginnings = [(⟨2⟩, 1)] ∧ p.takenBy 0 = [⟨1⟩] ∧ p.starts ⟨1⟩ = 0 ∧
        ((p.stages[0]?).any fun s => decide (0 < s.wayOut)) = true)) = true := by decide
  obtain ⟨w₀, hw₀, hrun⟩ := (Option.any_eq_true ..).mp hrun
  obtain ⟨p₀, hp₀, hrun⟩ := (Option.any_eq_true ..).mp hrun
  obtain ⟨w₁, hw₁, hrun⟩ := (Option.any_eq_true ..).mp hrun
  obtain ⟨p₁, hp₁, hrun⟩ := (Option.any_eq_true ..).mp hrun
  obtain ⟨w, hw, hrun⟩ := (Option.any_eq_true ..).mp hrun
  obtain ⟨p, hp, hrun⟩ := (Option.any_eq_true ..).mp hrun
  obtain ⟨hno, hh, hnone, hbegun, htaken, hstart, hout⟩ := of_decide_eq_true hrun
  obtain ⟨s, hst, hpos⟩ := (Option.any_eq_true ..).mp hout
  have h : w₀.Reachable := (World.Reachable.initial true {}).run hw₀
  obtain ⟨⟨since, he, hfrom, -, hlen⟩, hone, hlast⟩ := halt_bounds_beginnings h hw₁ hw hp₀ hp₁ hp hh
  obtain rfl : since = [(⟨2⟩, 1)] := by rw [← hbegun, he, hnone, List.nil_append]
  obtain ⟨hpop, hready⟩ := hfrom ⟨2⟩ 1 (List.mem_singleton_self _)
  refine ⟨w₀, w₁, w, p₀, p₁, p, h, hw₁, hw, hp₀, hp₁, hp, hno, hh, he, hpop, hready, hlen, htaken,
    hstart, hone 0, fun ls' w' p' hr' hp' => ?_⟩
  exact (hlast 0 s hst (of_decide_eq_true hpos) ls' w' p' hr' hp').1.trans htaken

end WorkerPool
