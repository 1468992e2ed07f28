import WorkerPool.Observation
import WorkerPool.Proofs.CallTermination

/-!
# What an observation shows

Whoever reads figures one after the other is told each of them as it is at some moment of the run, a
later one at a later moment. What other threads do between the two shows in the one only.

* `World.reply` -- what a read is told;
* `Observation.Made` -- the replies are those of moments of a run, one after the other;
* `readAll_run` -- **a thread that has read all goes on with an observation so made**;
* `Observation.Saw`, `Made.saw` -- two figures and the pools that they were read off;
* `Gauge.counters_inOrder`, `Gauge.ofWorkers_inOrder` -- executions are read before panics.
-/

namespace WorkerPool

/-! ## 1. Moments -/

/-- What a read of this gauge is told. -/
def World.reply (w : World) (id : PoolId) (g : Gauge) : Reply :=
  match w.serving? id with
  | none => .gone
  | some p => p.read g

theorem World.reply_of_serving {w : World} {id : PoolId} {p : Pool} (hp : w.serving? id = some p)
    (g : Gauge) : w.reply id g = p.read g := by
  rw [reply, hp]

namespace Observation

open World (run_append)

theorem number_of_lookup {o : Observation} {g : Gauge} {n : Nat}
    (h : o.lookup g = some (.number n)) : o.number g = n := by
  rw [number, h]

/-- The replies are those that were given on the run over these steps, one after the other. -/
def Made (id : PoolId) : Observation → World → List Label → Prop
  | [], _, _ => True
  | (g, r) :: rest, u, ls => ∃ before after w, ls = before ++ after ∧ u.run before = some w ∧
      r = w.reply id g ∧ Made id rest w after

/-- On the run over these steps, this gauge was read off the pool as `p` and that one, not earlier,
    off the pool as `q`. -/
structure Saw (o : Observation) (u : World) (ls : List Label) (id : PoolId) (g g' : Gauge)
    (p q : Pool) : Prop where
  moments : ∃ before between after w w', ls = before ++ (between ++ after) ∧
    u.run before = some w ∧ w.run between = some w' ∧ w.pools[id]? = some p ∧
    w'.pools[id]? = some q
  first : o.lookup g = some (p.read g)
  second : o.lookup g' = some (q.read g')

section Moments

variable {o : Observation} {u v w : World} {ls : List Label} {id : PoolId} {g g' : Gauge}

/-- What came before an observation may be counted in. -/
theorem Made.after {before : List Label} (hr : u.run before = some w) (hm : o.Made id w ls) :
    o.Made id u (before ++ ls) := by
  cases o with
  | nil => trivial
  | cons x rest =>
      obtain ⟨more, left, w', rfl, hr', hx, hrest⟩ := hm
      exact ⟨before ++ more, left, w', (List.append_assoc ..).symm, by
        rw [run_append, hr, Option.bind_some, hr'], hx, hrest⟩

/-- A gauge was read at some moment. -/
theorem Made.moment (hm : o.Made id u ls) (hg : g ∈ o.map Prod.fst) :
    ∃ before after w, ls = before ++ after ∧ u.run before = some w ∧
      o.lookup g = some (w.reply id g) := by
  induction o generalizing u ls with
  | nil => cases hg
  | cons x rest ih =>
      obtain ⟨before, after, w, rfl, hr, hx, hrest⟩ := hm
      by_cases he : g = x.1
      · subst he
        exact ⟨before, after, w, rfl, hr, by rw [← hx]; exact List.lookup_cons_self⟩
      · obtain ⟨between, left, w', rfl, hr', hlook⟩ :=
          ih hrest ((List.mem_cons.mp hg).resolve_left he)
        refine ⟨before ++ between, left, w', (List.append_assoc ..).symm, by
          rw [run_append, hr, Option.bind_some, hr'], ?_⟩
        rw [List.lookup_cons, beq_false_of_ne he]
        exact hlook

/-- Of two gauges, the later was read at a later moment. -/
theorem Made.moments (hm : o.Made id u ls) (hd : (o.map Prod.fst).Nodup)
    (hs : [g, g'].Sublist (o.map Prod.fst)) :
    ∃ before between after w w', ls = before ++ (between ++ after) ∧ u.run before = some w ∧
      w.run between = some w' ∧ o.lookup g = some (w.reply id g) ∧
      o.lookup g' = some (w'.reply id g') := by
  induction o generalizing u ls with
  | nil => cases hs
  | cons x rest ih =>
      obtain ⟨before, after, w, rfl, hr, hx, hrest⟩ := hm
      obtain ⟨hfresh, hd⟩ := List.nodup_cons.mp hd
      have hskip {k : Gauge} (hk : k ∈ rest.map Prod.fst) :
          List.lookup k (x :: rest) = List.lookup k rest := by
        have hne : k ≠ x.1 := fun e => hfresh (e ▸ hk)
        rw [List.lookup_cons, beq_false_of_ne hne]
      cases hs with
      | cons _ hs =>
          obtain ⟨more, between, left, w₁, w₂, rfl, hr₁, hr₂, hfirst, hsecond⟩ := ih hrest hd hs
          refine ⟨before ++ more, between, left, w₁, w₂, (List.append_assoc ..).symm, by
            rw [run_append, hr, Option.bind_some, hr₁], hr₂, ?_, ?_⟩
          · rw [hskip (hs.subset (List.mem_cons_self ..)), hfirst]
          · rw [hskip (hs.subset (by simp)), hsecond]
      | cons_cons _ hs =>
          have hlater : g' ∈ rest.map Prod.fst := hs.subset (List.mem_cons_self ..)
          obtain ⟨between, left, w', rfl, hr', hsecond⟩ := hrest.moment hlater
          exact ⟨before, between, left, w, w', rfl, hr, hr',
            by rw [← hx]; exact List.lookup_cons_self, by rw [hskip hlater, hsecond]⟩

/-- **Of two gauges the first was read off the pool as it was, the second off what had become of
    it**, if the pool took calls from the first moment to the last. -/
theorem Made.saw (h : u.Reachable) (hr : u.run ls = some v) (hm : o.Made id u ls)
    (hd : (o.map Prod.fst).Nodup) (hs : [g, g'].Sublist (o.map Prod.fst)) {first last : Pool}
    (hfirst : u.serving? id = some first) (hlast : v.serving? id = some last) :
    ∃ p q, o.Saw u ls id g g' p q := by
  obtain ⟨before, between, after, w, w', rfl, hw, hw', hg, hg'⟩ := hm.moments hd hs
  rw [run_append, hw, Option.bind_some] at hr
  obtain ⟨p, hp⟩ := Pool.serving_between h hw hr hfirst hlast
  rw [run_append, hw', Option.bind_some] at hr
  obtain ⟨q, hq⟩ := Pool.serving_between (h.run hw) hw' hr hp hlast
  rw [World.reply_of_serving hp] at hg
  rw [World.reply_of_serving hq] at hg'
  exact ⟨p, q, ⟨before, between, after, w, w', rfl, hw, hw', (World.serving_iff.mp hp).1,
    (World.serving_iff.mp hq).1⟩, hg, hg'⟩

/-- What the pool has become in the end is later than what it was read as. -/
theorem Saw.later (h : u.Reachable) (hr : u.run ls = some v) {p q last : Pool}
    (hs : o.Saw u ls id g g' p q) (hlast : v.pools[id]? = some last) : Pool.Later p last := by
  obtain ⟨before, between, after, w, w', rfl, hw, -, hp, -⟩ := hs.moments
  rw [run_append, hw, Option.bind_some] at hr
  exact Pool.run_later (h.run hw) hr hp hlast

end Moments

end Observation

/-! ## 2. Threads that read -/

namespace World

variable {u v : World} {ls : List Label} {thread : ThreadId} {id : PoolId} {gs : List Gauge}
  {next : Observation → Program}

theorem advance_read (w : World) (thread : ThreadId) (choice : Nat) (id : PoolId) (g : Gauge)
    (next : Reply → Program) :
    w.advance thread choice (.going (.call (.read id g) next)) =
      some (w, .going (next (w.reply id g))) := by
  simp only [advance, begin, reply]
  cases w.serving? id <;> rfl

/-- **A thread that has read all goes on with what it was told**, one reply after the other: here
    the thread has made as many steps as there are gauges. -/
theorem readAll_run (h : u.Reachable) (hr : u.run ls = some v)
    (ha : u.activity? thread = some (.going (.readAll id gs next)))
    (hn : ls.countP (·.isOf thread) = gs.length) :
    ∃ o : Observation, v.activity? thread = some (.going (next o)) ∧ o.map Prod.fst = gs ∧
      o.Made id u ls := by
  induction gs generalizing u ls next with
  | nil =>
      rcases first_own h hr ha with ⟨hall, -⟩ | ⟨others, l, left, _, _, rfl, -, -, -, hl, -, -⟩
      · exact ⟨[], hall.last hr, rfl, trivial⟩
      · simp [hl] at hn
  | cons g rest ih =>
      rcases first_own h hr ha with ⟨-, hno⟩ | ⟨others, l, left, w, w', rfl, hw, hs, hleft, hl,
        hall, hno⟩
      · simp [hno] at hn
      · have hwr := h.run hw
        obtain ⟨choice, _, a', hadv, ha', -⟩ :=
          step_own (sound_reachable hwr) hs (hall.last hw) hl rfl
        rw [Program.readAll, advance_read] at hadv
        obtain ⟨rfl, rfl⟩ := Prod.mk.inj (Option.some.inj hadv)
        have hn' : left.countP (·.isOf thread) = rest.length := by
          simpa [hno, hl] using hn
        obtain ⟨o, hgo, hgs, hmade⟩ := ih (hwr.step l hs) hleft ha' hn'
        have hstep : w.run [l] = some w' := run_cons hs
        exact ⟨(g, w.reply id g) :: o, hgo, by rw [List.map_cons, hgs], others, l :: left, w, rfl,
          hw, rfl, hmade.after hstep⟩

end World

/-! ## 3. Orders in which figures are read -/

namespace Gauge

theorem counters_nodup : counters.Nodup := by decide

theorem counters_inOrder : [.metric .executed, .metric .panicked].Sublist counters := by decide

theorem ofWorkers_nodup (n : Nat) : (ofWorkers n).Nodup := by
  refine List.nodup_flatMap.mpr ⟨fun i _ => by simp [ofWorker], ?_⟩
  refine List.nodup_range.pairwise_of_forall_ne fun i _ j _ hij => ?_
  simp [Function.onFun, ofWorker, hij.symm]

theorem ofWorkers_inOrder {i n : Nat} (hi : i < n) :
    [.workerExecuted i, .workerPanicked i].Sublist (ofWorkers n) :=
  List.sublist_flatten_of_mem (List.mem_map_of_mem (List.mem_range.mpr hi))

end Gauge

end WorkerPool
