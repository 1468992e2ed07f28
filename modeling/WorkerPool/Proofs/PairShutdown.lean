import Mathlib.Order.WellFounded
import WorkerPool.Pair
import WorkerPool.Proofs.Following
import WorkerPool.Proofs.Return

/-!
# Shutting a pair down

A pair is shut down one pool after the other, and the thread that does so has seen the last worker
of the first pool go before it comes to the second. So tasks of the first can submit to the second
as long as there are any, and when the thread is through nothing is left in either.

* `step_enters`, `step_drains` -- one graceful shutdown, followed through the steps of all threads;
* `PoolPair.Shutting` -- how far a thread has got with both; `Shutting.step`, `Shutting.run`;
* `late_run` -- what comes after the draining flag is not accepted;
* `pair_drains_in_order` -- the theorem.
-/

namespace WorkerPool

/-- The place of a thread inside a graceful shutdown that it has asked for. -/
@[simp]
def CallStage.shutsDown : CallStage → Bool
  | .swapping .asked | .announcing .graceful .asked | .closing .graceful .asked
  | .taking .graceful .asked | .joining .graceful .asked _ _ | .unwinding .asked _ _ _
  | .concluding .asked _ => true
  | _ => false

/-- The entry is no shutdown by another thread than this, and no immediate one. -/
def Happening.heeds (thread : ThreadId) : Happening → Bool
  | .called t mode => t = thread && mode = .graceful
  | _ => true

/-- The entry is the end of a shutdown by this thread, by a panic. -/
def Happening.breaksOff (thread : ThreadId) : Happening → Bool
  | .brokenOff t _ => t = thread
  | _ => false

namespace Pool

/-! ## 1. Inside one shutdown -/

/-- The thread has begun no shutdown of the pool. -/
def Uncalled (p : Pool) (thread : ThreadId) : Prop := ∀ mode, .called thread mode ∉ p.trace

/-- Nobody but this thread has begun a shutdown of the pool, and no immediate one was begun. -/
def OnlyCalledBy (p : Pool) (thread : ThreadId) : Prop :=
  ∀ t mode, .called t mode ∈ p.trace → t = thread ∧ mode = .graceful

instance (p : Pool) (thread : ThreadId) : Decidable (p.OnlyCalledBy thread) :=
  decidable_of_iff (∀ e ∈ p.trace, e.heeds thread = true)
    ⟨fun h t mode hm => by simpa [Happening.heeds] using h _ hm, fun h e hm => by
      cases e with
      | called t mode => simpa [Happening.heeds] using h t mode hm
      | _ => rfl⟩

/-- The thread is inside a graceful shutdown of the pool, and until it raises the draining flag it
    has begun none. -/
def ShuttingDown (p : Pool) (thread : ThreadId) : Prop :=
  ∃ s, (thread, s) ∈ p.calls ∧ s.shutsDown = true ∧ (s = .swapping .asked → p.Uncalled thread)

/-- A graceful shutdown by this thread has returned. -/
def ShutDown (p : Pool) (thread : ThreadId) : Prop :=
  ∃ joined, .returned thread .graceful joined ∈ p.trace

/-- A panic has ended a shutdown by this thread. -/
def BrokenOff (p : Pool) (thread : ThreadId) : Prop := ∃ e ∈ p.trace, e.breaksOff thread = true

instance (p : Pool) (thread : ThreadId) : Decidable (p.BrokenOff thread) :=
  inferInstanceAs (Decidable (∃ e ∈ p.trace, e.breaksOff thread = true))

section Calling

variable {p q : Pool} {thread : ThreadId}

theorem Uncalled.earlier (h : q.Uncalled thread) (hl : Later p q) : p.Uncalled thread :=
  fun mode hm => h mode (hl.mem_trace hm)

theorem BrokenOff.later (h : p.BrokenOff thread) (hl : Later p q) : q.BrokenOff thread :=
  h.imp fun _ hm => ⟨hl.mem_trace hm.1, hm.2⟩

theorem OnlyCalledBy.earlier (h : q.OnlyCalledBy thread) (hl : Later p q) :
    p.OnlyCalledBy thread :=
  fun t mode hm => h t mode (hl.mem_trace hm)

theorem ShutDown.later (h : p.ShutDown thread) (hl : Later p q) : q.ShutDown thread :=
  h.imp fun _ hm => hl.mem_trace hm

/-- Who alone shuts the pool down, and gracefully, does not halt it. -/
theorem OnlyCalledBy.halt (h : p.OnlyCalledBy thread) (hf : flagged.Holds p) : p.halt = false := by
  refine Bool.eq_false_of_not_eq_true fun hh => ?_
  obtain ⟨t, hm⟩ := hf.shared.halt hh
  cases (h t _ hm).2

/-- The pool drains by the call of the one thread that shuts it down, and not before. -/
theorem OnlyCalledBy.draining (h : p.OnlyCalledBy thread) (hf : flagged.Holds p)
    (hu : p.Uncalled thread) : p.draining = false := by
  refine Bool.eq_false_of_not_eq_true fun hd => ?_
  obtain ⟨t, mode, hm⟩ := hf.shared.called hd
  obtain ⟨rfl, -⟩ := h t mode hm
  exact hu mode hm

theorem uncalled_of_not_draining (hf : flagged.Holds p) (hd : p.draining = false) :
    p.Uncalled thread := by
  intro mode hm
  rw [hf.shared.draining hm] at hd
  cases hd

/-- A graceful shutdown that finds the pool not draining goes through to its end, unless a panic
    ends it. -/
theorem CallMove.shutsDown {s : CallStage} {next : CallStep} (h : CallMove p thread s q next)
    (hs : s.shutsDown = true) (hd : s = .swapping .asked → p.draining = false) :
    (∃ s', next = .stage s' ∧ s'.shutsDown = true ∧ s' ≠ .swapping .asked) ∨
      (next = .reply .done ∧ q.ShutDown thread) ∨
      ∃ payload, next = .reply (.unwound payload) ∧ q.BrokenOff thread := by
  cases h with
  | findsDraining why hdr =>
      cases why with
      | asked =>
          rw [hd rfl] at hdr
          cases hdr
      | _ => cases hs
  | concludes why joined =>
      cases why with
      | asked => exact .inr (.inl ⟨rfl, joined, List.mem_cons_self ..⟩)
      | _ => cases hs
  | breaksOff why joined payload =>
      cases why with
      | asked =>
          exact .inr (.inr ⟨payload, rfl, .brokenOff thread joined, List.mem_cons_self ..,
            by simp [Happening.breaksOff]⟩)
      | _ => cases hs
  | swaps why | waits why | forsakes why =>
      cases why with
      | asked => exact .inl ⟨_, rfl, rfl, by simp⟩
      | _ => cases hs
  | announces mode why | closes mode why | takes mode why | detaches mode why | joins mode why
  | joinsCrashed mode why | joinsBurst mode why =>
      cases mode <;> cases why
      case graceful.asked => exact .inl ⟨_, rfl, rfl, by simp⟩
      all_goals cases hs
  | _ => cases hs

end Calling

end Pool

namespace World

open Pool (Later OnlyCalledBy ShuttingDown ShutDown BrokenOff)

section Shutting

variable {w w' : World} {thread : ThreadId} {l : Label} {id : PoolId} {p p' : Pool}
  {next : Reply → Program}

/-- Outside a pool a thread begins no shutdown of it. -/
theorem step_uncalled (h : w.Reachable) (hs : w.step l = some w') (hp : w.pools[id]? = some p)
    (hp' : w'.pools[id]? = some p') (hin : w.inside thread ≠ some id) (hu : p.Uncalled thread) :
    p'.Uncalled thread := by
  have hS := sound_reachable h
  obtain ⟨q, hq, hsp⟩ := step_spares hS hs thread hp
  obtain rfl : p' = q := Option.some.inj (hp'.symm.trans hq)
  intro mode hm
  rcases hsp.called mode hm with hm | ⟨-, hc⟩
  · exact hu mode hm
  · exact not_mem_callers hS hp hin hc

/-- **A thread that is about to shut a pool down** is so after a step, or inside the shutdown. -/
theorem step_enters (h : w.Reachable) (hs : w.step l = some w')
    (ha : w.activity? thread = some (.going (.call (.shutdown id .graceful) next)))
    (hp : w.pools[id]? = some p) (hp' : w'.pools[id]? = some p') (hlife : p.life = .serving)
    (hu : p.Uncalled thread) :
    (w'.activity? thread = some (.going (.call (.shutdown id .graceful) next)) ∧
        p'.Uncalled thread) ∨
      w'.activity? thread = some (.inside id next) ∧ p'.ShuttingDown thread := by
  have hS := sound_reachable h
  cases hl : l.isOf thread with
  | false =>
      have hin : w.inside thread = none := by simp [inside, ha, Activity.pool?]
      exact .inl ⟨step_activity hS hs ha hl,
        step_uncalled h hs hp hp' (by simp [hin]) hu⟩
  | true =>
      obtain ⟨choice, v, a', hadv, ha', hpools⟩ := step_advance hS hs ha hl rfl
      simp only [advance, begin, serving_iff.mpr ⟨hp, hlife⟩, Option.some.injEq,
        Prod.mk.injEq] at hadv
      obtain ⟨rfl, rfl⟩ := hadv
      obtain ⟨q, hq, ⟨hc, ht⟩, -⟩ := hpools id _ (set_of_getElem? hp _)
      obtain rfl : p' = q := Option.some.inj (hp'.symm.trans hq)
      refine .inr ⟨ha', .swapping .asked, hc ▸ List.mem_cons_self .., rfl, fun _ mode hm => ?_⟩
      exact hu mode (ht ▸ hm)

/-- **A thread inside a graceful shutdown** that nobody else has begun is still there after a step,
    or the shutdown has returned, or a panic has ended it. -/
theorem step_drains (h : w.Reachable) (hs : w.step l = some w')
    (ha : w.activity? thread = some (.inside id next)) (hp : w.pools[id]? = some p)
    (hp' : w'.pools[id]? = some p') (ho : p.OnlyCalledBy thread) (hsd : p.ShuttingDown thread) :
    (w'.activity? thread = some (.inside id next) ∧ p'.ShuttingDown thread) ∨
      (w'.activity? thread = some (.going (next .done)) ∧ p'.ShutDown thread) ∨
      p'.BrokenOff thread := by
  have hS := sound_reachable h
  obtain ⟨s, hm, hst, hu⟩ := hsd
  cases hl : l.isOf thread with
  | false =>
      obtain ⟨q, hq, hsp⟩ := step_spares hS hs thread hp
      obtain rfl : p' = q := Option.some.inj (hp'.symm.trans hq)
      have hother : ¬ l.isOf thread = true := by simp [hl]
      refine .inl ⟨step_activity hS hs ha hl, s, hsp.calls hother s hm, hst, fun he mode hc => ?_⟩
      exact hu he mode ((hsp.called mode hc).resolve_right fun hx => hother hx.1)
  | true =>
      obtain ⟨choice, q, step, q', hq, ha', hq', ⟨hc, ht⟩, -⟩ := step_callStep hS hs ha hl hp hm
      obtain rfl : p' = q' := Option.some.inj (hp'.symm.trans hq')
      have hmove := Pool.callStep_move hq
      obtain ⟨-, hcalls, -⟩ := hmove.frame
      have hf := Pool.flagged_reachable h p (List.mem_of_getElem? hp)
      rcases hmove.shutsDown hst fun he => ho.draining hf (hu he) with
        ⟨s', rfl, hs', hne⟩ | ⟨rfl, joined, hret⟩ | ⟨payload, rfl, e, he, hbreaks⟩
      · refine .inl ⟨ha', s', hc ▸ Pool.mem_follow_self (hcalls.symm ▸ hm), hs', fun he => ?_⟩
        exact absurd he hne
      · exact .inr (.inl ⟨ha', joined, ht ▸ hret⟩)
      · exact .inr (.inr ⟨e, ht ▸ he, hbreaks⟩)

end Shutting

end World

/-! ## 2. Both shutdowns -/

/-- What a program goes on with once it has made a call. -/
inductive Program.Follows : Program → Program → Prop where
  | call (c : Call) (next : Reply → Program) (r : Reply) : Follows (next r) (.call c next)

theorem Program.follows_wellFounded : WellFounded Program.Follows := by
  refine ⟨fun program => ?_⟩
  induction program with
  | call c next ih => exact ⟨_, fun _ h => by cases h; exact ih _⟩
  | _ => exact ⟨_, fun _ h => by cases h⟩

/-- No program comes before itself. -/
theorem Program.not_follows_self (program : Program) :
    ¬ Relation.TransGen Program.Follows program program :=
  Program.follows_wellFounded.transGen.irrefl.irrefl program

namespace PoolPair

open Pool (OnlyCalledBy)

variable {pair : PoolPair} {next : Program} {thread : ThreadId}

/-- What is left of the shutdown of a pair after the first pool. -/
def shutdownSecond (pair : PoolPair) (next : Program) : Program :=
  .call (.shutdown pair.db .graceful) (.uncaught fun _ => next)

/-- How far `thread` has got with the graceful shutdown of a pair of these two pools, and what it
    has done to them. -/
inductive Shutting (pair : PoolPair) (next : Program) (thread : ThreadId) (w : World) (c d : Pool) :
    Prop where
  | before (ha : w.activity? thread = some (.going (pair.shutdown .graceful next)))
      (hc : c.Uncalled thread) (hd : d.Uncalled thread)
  | inFirst
      (ha : w.activity? thread =
        some (.inside pair.cpu (.uncaught fun _ => pair.shutdownSecond next)))
      (hc : c.ShuttingDown thread) (hd : d.Uncalled thread)
  | between (ha : w.activity? thread = some (.going (pair.shutdownSecond next)))
      (hc : c.ShutDown thread) (hd : d.Uncalled thread)
  | inSecond (ha : w.activity? thread = some (.inside pair.db (.uncaught fun _ => next)))
      (hc : c.ShutDown thread) (hd : d.ShuttingDown thread)
  | through (hc : c.ShutDown thread) (hd : d.ShutDown thread)
  /-- A panic has ended the shutdown of the first pool. -/
  | brokenFirst (hc : c.BrokenOff thread)
  | brokenSecond (hc : c.ShutDown thread) (hd : d.BrokenOff thread)

/-- **A step, of whatever thread, keeps to the order of the shutdown.** -/
theorem Shutting.step {w w' : World} {l : Label} {c d c' d' : Pool} (h : w.Reachable)
    (hs : w.step l = some w') (hne : pair.cpu ≠ pair.db) (hc : w.serving? pair.cpu = some c)
    (hd : w.serving? pair.db = some d) (hc' : w'.serving? pair.cpu = some c')
    (hd' : w'.serving? pair.db = some d') (hoc : c.OnlyCalledBy thread)
    (hod : d.OnlyCalledBy thread) (hsh : Shutting pair next thread w c d) :
    Shutting pair next thread w' c' d' := by
  obtain ⟨hpc, hlc⟩ := World.serving_iff.mp hc
  obtain ⟨hpd, hld⟩ := World.serving_iff.mp hd
  have hpc' := (World.serving_iff.mp hc').1
  have hpd' := (World.serving_iff.mp hd').1
  have hr : w.run [l] = some w' := by simp [World.run, hs]
  have hclater := Pool.run_later h hr hpc hpc'
  have hdlater := Pool.run_later h hr hpd hpd'
  have houtside {a : Activity} (ha : w.activity? thread = some a) (hin : a.pool? ≠ some pair.db)
      (hu : d.Uncalled thread) : d'.Uncalled thread :=
    World.step_uncalled h hs hpd hpd' (by simpa [World.inside, ha] using hin) hu
  cases hsh with
  | before ha hcu hdu =>
      have hdu' := houtside ha (by simp [Activity.pool?]) hdu
      rcases World.step_enters h hs ha hpc hpc' hlc hcu with ⟨ha', hcu'⟩ | ⟨ha', hcs'⟩
      · exact .before ha' hcu' hdu'
      · exact .inFirst ha' hcs' hdu'
  | inFirst ha hcs hdu =>
      have hdu' := houtside ha (by simpa [Activity.pool?] using hne) hdu
      rcases World.step_drains h hs ha hpc hpc' hoc hcs with ⟨ha', hcs'⟩ | ⟨ha', hcs'⟩ | hcb
      · exact .inFirst ha' hcs' hdu'
      · exact .between ha' hcs' hdu'
      · exact .brokenFirst hcb
  | between ha hcs hdu =>
      have hcs' := hcs.later hclater
      rcases World.step_enters h hs ha hpd hpd' hld hdu with ⟨ha', hdu'⟩ | ⟨ha', hds'⟩
      · exact .between ha' hcs' hdu'
      · exact .inSecond ha' hcs' hds'
  | inSecond ha hcs hds =>
      have hcs' := hcs.later hclater
      rcases World.step_drains h hs ha hpd hpd' hod hds with ⟨ha', hds'⟩ | ⟨ha', hds'⟩ | hdb
      · exact .inSecond ha' hcs' hds'
      · exact .through hcs' hds'
      · exact .brokenSecond hcs' hdb
  | through hcs hds => exact .through (hcs.later hclater) (hds.later hdlater)
  | brokenFirst hcb => exact .brokenFirst (hcb.later hclater)
  | brokenSecond hcs hdb => exact .brokenSecond (hcs.later hclater) (hdb.later hdlater)

/-- **Every run keeps to the order of the shutdown**, as long as both pools take calls and nobody
    else has begun a shutdown. -/
theorem Shutting.run {w w' : World} {ls : List Label} {c d c' d' : Pool} (h : w.Reachable)
    (hr : w.run ls = some w') (hne : pair.cpu ≠ pair.db) (hc : w.serving? pair.cpu = some c)
    (hd : w.serving? pair.db = some d) (hc' : w'.serving? pair.cpu = some c')
    (hd' : w'.serving? pair.db = some d') (hoc : c'.OnlyCalledBy thread)
    (hod : d'.OnlyCalledBy thread) (hsh : Shutting pair next thread w c d) :
    Shutting pair next thread w' c' d' := by
  induction ls generalizing w c d with
  | nil =>
      cases hr
      obtain rfl := Option.some.inj (hc.symm.trans hc')
      obtain rfl := Option.some.inj (hd.symm.trans hd')
      exact hsh
  | cons l rest ih =>
      obtain ⟨v, hv, hrest⟩ := Option.bind_eq_some_iff.mp hr
      have hone : w.run [l] = some v := by simp [World.run, hv]
      obtain ⟨cv, hcv⟩ := Pool.serving_between h hone hrest hc hc'
      obtain ⟨dv, hdv⟩ := Pool.serving_between h hone hrest hd hd'
      have hearlier {id : PoolId} {p p' : Pool} (hp : w.serving? id = some p)
          (hp' : w'.serving? id = some p') (ho : p'.OnlyCalledBy thread) :
          p.OnlyCalledBy thread :=
        ho.earlier (Pool.run_later h hr (World.serving_iff.mp hp).1 (World.serving_iff.mp hp').1)
      exact ih (h.step l hv) hrest hcv hdv
        (hsh.step h hv hne hc hd hcv hdv (hearlier hc hc' hoc) (hearlier hd hd' hod))

/-- When the thread goes on with its program and no panic has ended either shutdown, both have
    returned. -/
theorem Shutting.through_of_going {w : World} {c d : Pool} (hsh : Shutting pair next thread w c d)
    (hcb : ¬ c.BrokenOff thread) (hdb : ¬ d.BrokenOff thread)
    (ha : w.activity? thread = some (.going next)) : c.ShutDown thread ∧ d.ShutDown thread := by
  have hsecond : Relation.TransGen Program.Follows next (pair.shutdownSecond next) :=
    .single (.call _ (.uncaught fun _ => next) .done)
  have hfirst : Relation.TransGen Program.Follows next (pair.shutdown .graceful next) :=
    hsecond.tail (.call _ (.uncaught fun _ => pair.shutdownSecond next) .done)
  cases hsh with
  | before ha' =>
      have he : pair.shutdown .graceful next = next := by simpa [ha'] using ha
      rw [he] at hfirst
      exact absurd hfirst next.not_follows_self
  | inFirst ha' => simp [ha'] at ha
  | between ha' =>
      have he : pair.shutdownSecond next = next := by simpa [ha'] using ha
      rw [he] at hsecond
      exact absurd hsecond next.not_follows_self
  | inSecond ha' => simp [ha'] at ha
  | through hc hd => exact ⟨hc, hd⟩
  | brokenFirst hc => exact absurd hc hcb
  | brokenSecond _ hd => exact absurd hd hdb

end PoolPair

/-! ## 3. Submissions that come too late -/

/-- The call is about to push this task. -/
@[simp]
def CallStage.pushes (t : TaskId) : CallStage → Bool
  | .pushing task => task.id = t
  | _ => false

namespace Pool

section Late

variable {p q : Pool} {t : TaskId}

/-- A task is accepted when it is pushed. -/
theorem Change.accepted (h : Change p q) (hm : .accepted t ∈ q.trace) :
    .accepted t ∈ p.trace ∨ ∃ c ∈ p.calls, c.2.pushes t = true := by
  cases h with
  | work hw h =>
      obtain ⟨new, e, hnew⟩ := h.trace
      rw [setStage, e] at hm
      exact .inl ((List.mem_append.mp hm).resolve_left (hnew t))
  | @call thread s r next hl h =>
      rw [trace_follow] at hm
      cases h with
      | pushes task choice ha =>
          rcases List.mem_cons.mp hm with e | hm
          · cases e
            exact .inr ⟨_, mem_of_lookup hl, by simp⟩
          · exact .inl hm
      | _ => exact .inl (by simpa using hm)
  | enter hs ht h =>
      cases h with
      | offers task hf => exact .inl (by simpa [Pool.enter] using hm)
      | _ => exact .inl hm
  | note n => exact .inl (by simpa using hm)
  | wake i => exact .inl hm
  | reclaim h =>
      obtain ⟨-, -, rfl⟩ := reclaim_cases h
      exact .inl (by simpa using hm)

/-- Once the pool drains nobody comes to a push any more. -/
theorem Change.pushes (h : Change p q) (hd : p.draining = true) {c : ThreadId × CallStage}
    (hc : c ∈ q.calls) (ht : c.2.pushes t = true) : ∃ c ∈ p.calls, c.2.pushes t = true := by
  cases h with
  | work hw h => exact ⟨c, h.untouched.calls ▸ hc, ht⟩
  | @call thread s r next hl h =>
      obtain ⟨-, hcalls, -⟩ := h.frame
      rcases mem_follow hc with ⟨hn, -⟩ | ⟨-, hc⟩
      · obtain ⟨c₁, s'⟩ := c
        replace hn : next = .stage s' := hn
        cases h with
        | mayPush task hno =>
            rw [hd] at hno
            cases hno
        | findsDraining why | concludes why | reports why | breaksOff why =>
            cases why <;> cases hn
            all_goals cases ht
        | _ =>
            cases hn
            all_goals cases ht
      · exact ⟨c, hcalls ▸ hc, ht⟩
  | enter hs hno h =>
      rcases List.mem_cons.mp hc with rfl | hold
      · cases h with
        | asks mode => cases mode <;> cases ht
        | _ => cases ht
      · cases h <;> exact ⟨c, hold, ht⟩
  | note n => exact ⟨c, hc, ht⟩
  | wake i => exact ⟨c, hc, ht⟩
  | reclaim h =>
      obtain ⟨-, -, rfl⟩ := reclaim_cases h
      exact ⟨c, hc, ht⟩

/-- The pool drains, the task was not accepted, and nobody is about to push it. -/
structure Late (p : Pool) (t : TaskId) : Prop where
  draining : p.draining = true
  unaccepted : .accepted t ∉ p.trace
  unpushed : ∀ c ∈ p.calls, c.2.pushes t = false

theorem Late.change (hp : Formed p) (h : p.Late t) (hc : Change p q) : q.Late t where
  draining := (hc.later hp).draining h.draining
  unaccepted hm := by
    rcases hc.accepted hm with hm | ⟨c, hm, ht⟩
    · exact h.unaccepted hm
    · rw [h.unpushed c hm] at ht
      cases ht
  unpushed c hm := by
    refine Bool.eq_false_of_not_eq_true fun ht => ?_
    obtain ⟨c', hm', ht'⟩ := hc.pushes h.draining hm ht
    rw [h.unpushed c' hm'] at ht'
    cases ht'

/-- Nobody has come with the task yet. -/
theorem Accounted.late_of_not_offered (ha : Accounted p) (hd : p.draining = true)
    (ho : .offered t ∉ p.trace) : p.Late t := by
  have hanswer := ha.answer_eq t
  rw [List.count_eq_zero.mpr ho] at hanswer
  refine ⟨hd, List.count_eq_zero.mp (by omega), fun c hc => ?_⟩
  have hnone := List.countP_eq_zero.mp
    (show (p.calls.countP fun c => c.2.submits t) = 0 by omega) c hc
  obtain ⟨thread, s⟩ := c
  cases s with
  | pushing task => simpa using hnone
  | _ => rfl

/-- **A submission that begins while the pool drains is refused**: the task is never accepted, and
    once the call has an answer, that is it. -/
theorem late_run {w w' : World} (h : w.Reachable) {ls : List Label} (hr : w.run ls = some w')
    {id : PoolId} (hp : w.pools[id]? = some p) (hq : w'.pools[id]? = some q)
    (hd : p.draining = true) (ho : .offered t ∉ p.trace) :
    .accepted t ∉ q.trace ∧ (.offered t ∈ q.trace →
      .refused t ∈ q.trace ∨ ∃ c ∈ q.calls, c.2.submits t = true) := by
  have ha := (tasks_reachable h p (List.mem_of_getElem? hp)).1
  have ha' := (tasks_reachable (h.run hr) q (List.mem_of_getElem? hq)).1
  have hlate : q.Late t := run_induction (fun hf hi hc => Late.change hf hi hc) h hr hp hq
    (ha.late_of_not_offered hd ho)
  refine ⟨hlate.unaccepted, fun hoff => ?_⟩
  have hanswer := ha'.answer_eq t
  rw [List.count_eq_zero.mpr hlate.unaccepted] at hanswer
  have hcame : 0 < q.trace.count (.offered t) := List.count_pos_iff.mpr hoff
  by_cases href : .refused t ∈ q.trace
  · exact .inl href
  · rw [List.count_eq_zero.mpr href] at hanswer
    exact .inr (List.countP_pos_iff.mp (by omega))

end Late

end Pool

/-! ## 4. The pair -/

open Pool

/-- A worker of a pool that is inside a call is not gone. -/
theorem not_allExited_of_calling {w : World} (h : w.Reachable) {id j : PoolId} {p q : Pool}
    (hp : w.pools[id]? = some p) (hq : w.pools[j]? = some q) {i : Nat} {s : CallStage}
    (hc : (.worker id i, s) ∈ q.calls) : ¬ p.AllExited := by
  intro he
  have hin := (World.sound_reachable h).linked hq (List.mem_map_of_mem hc)
  obtain ⟨a, ha, -⟩ := Option.bind_eq_some_iff.mp hin
  obtain ⟨job, hat⟩ := World.stageAt_of_activity? ha
  obtain ⟨p', hp', hst⟩ := Option.bind_eq_some_iff.mp hat
  obtain rfl : p = p' := Option.some.inj (hp.symm.trans hp')
  cases he _ (List.mem_of_getElem? hst)

/-- **A pair drains in the order of its pools.** A thread that is no worker of either pool shuts the
    pair down gracefully; nobody else is the first to shut down either, and no immediate shutdown is
    begun. If a panic ends the shutdown of the first pool, the thread does not come back to shut the
    second one down. Then no submission to the second pool is refused as long as the first has a
    worker, and so none that a task of the first makes, also while the first drains. A submission to
    the first pool that begins after the draining flag was raised is refused. When the thread goes on
    with its program, both shutdowns have returned, if no panic has ended one; and once they have,
    unless panics have driven every worker of a pool out, both queues are empty, and every task that
    either pool has ever accepted was started once and has ended. -/
theorem pair_drains_in_order {w₀ w : World} (h : w₀.Reachable) {ls : List Label}
    (hr : w₀.run ls = some w) {pair : PoolPair} (hne : pair.cpu ≠ pair.db) {thread : ThreadId}
    {next : Program}
    (hask : w₀.activity? thread = some (.going (pair.shutdown .graceful next)))
    {c₀ d₀ c d : Pool} (hc₀ : w₀.serving? pair.cpu = some c₀) (hd₀ : w₀.serving? pair.db = some d₀)
    (hc : w.serving? pair.cpu = some c) (hd : w.serving? pair.db = some d)
    (hcno : c₀.draining = false) (hdno : d₀.draining = false)
    (hconly : c.OnlyCalledBy thread) (hdonly : d.OnlyCalledBy thread)
    (hbroken : c.BrokenOff thread → d.Uncalled thread)
    (hcout : c.owns thread = false) (hdout : d.owns thread = false) :
    (∀ t, d.Denies t → c.AllExited) ∧
    (∀ i s t, (.worker pair.cpu i, s) ∈ d.calls → s.denies t = false) ∧
    (∀ (v : World) (cv : Pool) (ls' : List Label) (t : TaskId), v.Reachable → v.run ls' = some w →
      v.pools[pair.cpu]? = some cv → cv.draining = true → .offered t ∉ cv.trace →
      .accepted t ∉ c.trace ∧ (.offered t ∈ c.trace →
        .refused t ∈ c.trace ∨ ∃ call ∈ c.calls, call.2.submits t = true)) ∧
    (¬ c.BrokenOff thread → ¬ d.BrokenOff thread → w.activity? thread = some (.going next) →
      d.ShutDown thread) ∧
    (d.ShutDown thread → (¬ ∀ s ∈ c.stages, s = .finished true) →
      (¬ ∀ s ∈ d.stages, s = .finished true) →
      (c.queue.items = [] ∧ ∀ t, .accepted t ∈ c.trace → c.starts t = 1 ∧ c.ends t = 1) ∧
      d.queue.items = [] ∧ ∀ t, .accepted t ∈ d.trace → d.starts t = 1 ∧ d.ends t = 1) := by
  have hw := h.run hr
  have hpc := (World.serving_iff.mp hc).1
  have hpd := (World.serving_iff.mp hd).1
  have huncalled {id : PoolId} {p : Pool} (hp : w₀.serving? id = some p)
      (hno : p.draining = false) : p.Uncalled thread :=
    uncalled_of_not_draining
      (flagged_reachable h p (List.mem_of_getElem? (World.serving_iff.mp hp).1)) hno
  have hsh : pair.Shutting next thread w c d :=
    PoolPair.Shutting.run h hr hne hc₀ hd₀ hc hd hconly hdonly
      (.before hask (huncalled hc₀ hcno) (huncalled hd₀ hdno))
  obtain ⟨hac, htc⟩ := tasks_reachable hw c (List.mem_of_getElem? hpc)
  obtain ⟨had, htd⟩ := tasks_reachable hw d (List.mem_of_getElem? hpd)
  have hfc := flagged_reachable hw c (List.mem_of_getElem? hpc)
  have hfd := flagged_reachable hw d (List.mem_of_getElem? hpd)
  have hcexit (hs : c.ShutDown thread) : c.AllExited := by
    obtain ⟨joined, hret⟩ := hs
    exact (hac.orderly.shared.returned hret).exited hcout
  -- the second pool drains only after the shutdown of the first has returned
  have hfirst (hdr : d.draining = true) : c.ShutDown thread := by
    have hcalled (hu : d.Uncalled thread) : c.ShutDown thread := by
      rw [hdonly.draining hfd hu] at hdr
      cases hdr
    cases hsh with
    | before _ _ hu | inFirst _ _ hu | between _ _ hu => exact hcalled hu
    | brokenFirst hb => exact hcalled (hbroken hb)
    | inSecond _ hs | through hs | brokenSecond hs => exact hs
  have hdenied (t : TaskId) (hden : d.Denies t) : c.AllExited := hcexit (hfirst (hden.draining hfd))
  refine ⟨hdenied, ?_, ?_, fun hcb hdb hgo => (hsh.through_of_going hcb hdb hgo).2, ?_⟩
  · intro i s t hm
    refine Bool.eq_false_of_not_eq_true fun hden => ?_
    exact not_allExited_of_calling hw hpc hpd hm (hdenied t (.inr ⟨_, hm, hden⟩))
  · intro v cv ls' t hv hr' hcv hdr ho
    exact late_run hv hr' hcv hpc hdr ho
  · rintro ⟨joined, hret⟩ hcrash hcrash'
    have hleft := had.orderly.shared.returned hret
    exact ⟨(hcexit (hfirst hleft.draining)).settled hac htc (hconly.halt hfc) hcrash,
      (hleft.exited hdout).settled had htd (hdonly.halt hfd) hcrash'⟩

/-- A thread makes a pair of pools with one worker each, submits a task to the first that submits
    one to the second, and shuts the pair down. -/
def queried : Program :=
  PoolPair.new ⟨Config.withThreads 1, Config.withThreads 1⟩ fun _ =>
    .submit 0 "query" (.submit 1 "write" (.finish []) fun _ => .finish []) fun _ =>
      PoolPair.shutdown ⟨0, 1⟩ .graceful (.finish [])

/-- The run until the thread is about to shut the pair down. -/
def queriedSteps : List Label := .fork queried :: moves (.caller 0) 13

/-- From there until the first pool drains and its task has come to the second. -/
def querySteps : List Label := moves (.caller 0) 4 ++ moves (.worker 0 0) 6

/-- From there, with a task that comes to the first pool too late, until the pair is shut down. -/
def drainSteps : List Label :=
  .fork (.submit 0 "late" (.finish []) fun _ => .finish []) :: moves (.caller 1) 4 ++
    moves (.worker 0 0) 14 ++ moves (.caller 0) 9 ++ moves (.worker 1 0) 16 ++ moves (.caller 0) 3

/-- The task of the first pool is not refused by the second, though the first drains. In the end
    both tasks have been run, and the third was refused. -/
theorem pair_drains_in_order_when_queried : ∃ (w₀ v w : World) (cv dv c d : Pool),
    w₀.Reachable ∧ w₀.run querySteps = some v ∧ v.run drainSteps = some w ∧
    w₀.activity? (.caller 0) = some (.going (PoolPair.shutdown ⟨0, 1⟩ .graceful (.finish []))) ∧
    w.activity? (.caller 0) = some (.going (.finish [])) ∧
    (v.serving? 0 = some cv ∧ v.serving? 1 = some dv ∧ cv.draining = true ∧
      ∃ s, (.worker 0 0, s) ∈ dv.calls ∧ s.submits ⟨2⟩ = true ∧ s.denies ⟨2⟩ = false) ∧
    w.serving? 0 = some c ∧ w.serving? 1 = some d ∧ d.ShutDown (.caller 0) ∧
    (.offered ⟨3⟩ ∈ c.trace ∧ .accepted ⟨3⟩ ∉ c.trace) ∧
    (c.queue.items = [] ∧ .accepted ⟨1⟩ ∈ c.trace ∧ c.starts ⟨1⟩ = 1 ∧ c.ends ⟨1⟩ = 1) ∧
    d.queue.items = [] ∧ .accepted ⟨2⟩ ∈ d.trace ∧ d.starts ⟨2⟩ = 1 ∧ d.ends ⟨2⟩ = 1 := by
  have hrun : (((World.initial true {}).run queriedSteps).any fun w₀ =>
      (w₀.serving? 0).any fun c₀ => (w₀.serving? 1).any fun d₀ =>
      (w₀.run querySteps).any fun v =>
      (v.serving? 0).any fun cv => (v.serving? 1).any fun dv =>
      (v.run drainSteps).any fun w =>
      (w.serving? 0).any fun c => (w.serving? 1).any fun d =>
        decide ((c₀.draining = false ∧ d₀.draining = false) ∧
          (cv.OnlyCalledBy (.caller 0) ∧ dv.OnlyCalledBy (.caller 0)) ∧
          (c.OnlyCalledBy (.caller 0) ∧ d.OnlyCalledBy (.caller 0)) ∧
          (¬ cv.BrokenOff (.caller 0) ∧ ¬ c.BrokenOff (.caller 0) ∧ ¬ d.BrokenOff (.caller 0)) ∧
          (cv.draining = true ∧ .offered ⟨3⟩ ∉ cv.trace ∧ .offered ⟨3⟩ ∈ c.trace) ∧
          (dv.calls.any fun call => call.1 = .worker 0 0 && call.2.submits ⟨2⟩) = true ∧
          (c.stages.any (·.hasLeft) = true ∧ d.stages.any (·.hasLeft) = true) ∧
          .accepted ⟨1⟩ ∈ c.trace ∧ .accepted ⟨2⟩ ∈ d.trace)) = true := by decide
  obtain ⟨w₀, hw₀, hrun⟩ := (Option.any_eq_true ..).mp hrun
  obtain ⟨c₀, hc₀, hrun⟩ := (Option.any_eq_true ..).mp hrun
  obtain ⟨d₀, hd₀, hrun⟩ := (Option.any_eq_true ..).mp hrun
  obtain ⟨v, hv, hrun⟩ := (Option.any_eq_true ..).mp hrun
  obtain ⟨cv, hcv, hrun⟩ := (Option.any_eq_true ..).mp hrun
  obtain ⟨dv, hdv, hrun⟩ := (Option.any_eq_true ..).mp hrun
  obtain ⟨w, hw, hrun⟩ := (Option.any_eq_true ..).mp hrun
  obtain ⟨c, hc, hrun⟩ := (Option.any_eq_true ..).mp hrun
  obtain ⟨d, hd, hrun⟩ := (Option.any_eq_true ..).mp hrun
  obtain ⟨⟨hcno, hdno⟩, ⟨hcv', hdv'⟩, ⟨hc', hd'⟩, ⟨hcvb, hcb, hdb⟩, ⟨hdr, hnew, hcame⟩, hquery,
    ⟨hcl, hdl⟩, hfirst, hsecond⟩ := of_decide_eq_true hrun
  have h : w₀.Reachable := (World.Reachable.initial true {}).run hw₀
  have hall : w₀.run (querySteps ++ drainSteps) = some w := by
    rw [World.run_append, hv, Option.bind_some, hw]
  have hask : ((World.initial true {}).run queriedSteps).bind (·.activity? (.caller 0)) =
      some (.going (PoolPair.shutdown ⟨0, 1⟩ .graceful (.finish []))) := rfl
  have hgo : (((World.initial true {}).run queriedSteps).bind
      (·.run (querySteps ++ drainSteps))).bind (·.activity? (.caller 0)) =
        some (.going (.finish [])) := rfl
  rw [hw₀, Option.bind_some] at hask hgo
  rw [hall, Option.bind_some] at hgo
  obtain ⟨⟨t, s⟩, hm, hcall⟩ := List.any_eq_true.mp hquery
  obtain ⟨rfl, hs⟩ : t = .worker 0 0 ∧ s.submits ⟨2⟩ = true := by simpa using hcall
  have hleft {p : Pool} (hl : p.stages.any (·.hasLeft) = true) :
      ¬ ∀ s ∈ p.stages, s = .finished true := by
    intro hcrash
    obtain ⟨s, hs, hl⟩ := List.any_eq_true.mp hl
    rw [hcrash s hs] at hl
    cases hl
  -- while the first pool drains, and in the end
  have hne : (⟨0, 1⟩ : PoolPair).cpu ≠ (⟨0, 1⟩ : PoolPair).db := by decide
  obtain ⟨-, hwrite, -⟩ := pair_drains_in_order h hv hne hask hc₀ hd₀ hcv hdv hcno hdno hcv' hdv'
    (absurd · hcvb) rfl rfl
  obtain ⟨-, -, hlate, hback, hend⟩ := pair_drains_in_order h hall hne hask hc₀ hd₀ hc hd hcno hdno
    hc' hd' (absurd · hcb) rfl rfl
  have hdown := hback hcb hdb hgo
  obtain ⟨⟨hci, hcdone⟩, hdi, hddone⟩ := hend hdown (hleft hcl) (hleft hdl)
  have hrefused := hlate v cv drainSteps ⟨3⟩ (h.run hv) hw (World.serving_iff.mp hcv).1 hdr hnew
  exact ⟨w₀, v, w, cv, dv, c, d, h, hv, hw, hask, hgo,
    ⟨hcv, hdv, hdr, s, hm, hs, hwrite 0 s ⟨2⟩ hm⟩, hc, hd, hdown, ⟨hcame, hrefused.1⟩,
    ⟨hci, hfirst, hcdone _ hfirst⟩, hdi, hsecond, hddone _ hsecond⟩

/-- A thread makes a pair of pools with one worker each, submits a task to the first that waits and
    then submits one to the second, submits a task to the second that waits, and shuts the pair
    down. -/
def gated : Program :=
  PoolPair.new ⟨Config.withThreads 1, Config.withThreads 1⟩ fun _ =>
    .submit 0 "query" (.call (.gate "query") fun _ =>
      .submit 1 "write" (.finish []) fun _ => .finish []) fun _ =>
    .submit 1 "long" (.call (.gate "long") fun _ => .finish []) fun _ =>
      PoolPair.shutdown ⟨0, 1⟩ .graceful (.finish [])

/-- The run until the thread is about to shut the pair down, with both tasks begun. -/
def gatedSteps : List Label :=
  .fork gated :: moves (.caller 0) 17 ++ moves (.worker 0 0) 5 ++ moves (.worker 1 0) 5

/-- From there until it waits for the worker of the first pool. -/
def waitingSteps : List Label := moves (.caller 0) 5

/-- Then another thread shuts the pair down too, until it waits for the worker of the second pool,
    and the task of the first pool comes to the second. -/
def overtakingSteps : List Label :=
  .fork (PoolPair.shutdown ⟨0, 1⟩ .graceful (.finish [])) :: moves (.caller 1) 7 ++
    .openGate "query" :: moves (.worker 0 0) 3

/-- Then the task ends, the worker exits, and the first thread goes on. -/
def returningSteps : List Label := moves (.worker 0 0) 13 ++ moves (.caller 0) 5

/-- **Who is the first to shut a pair down need not be the one who drains the second pool.** A
    thread comes first, and waits in the first pool. Another thread comes later, finds the first
    pool draining, goes straight on to the second, and shuts that down while a task of the first
    pool still runs: what the task submits to the second pool is refused. The first thread then finds
    the second pool draining, and goes on while a task that was accepted there has not ended. -/
theorem pair_drained_by_another : ∃ (w₀ v u w : World) (c₀ d₀ cv dv du c d : Pool),
    (World.initial true {}).run gatedSteps = some w₀ ∧ w₀.run waitingSteps = some v ∧
    v.run overtakingSteps = some u ∧ u.run returningSteps = some w ∧
    (w₀.serving? 0 = some c₀ ∧ w₀.serving? 1 = some d₀ ∧ c₀.draining = false ∧
      d₀.draining = false ∧ c₀.calls = [] ∧ d₀.calls = []) ∧
    w₀.activity? (.caller 0) = some (.going (PoolPair.shutdown ⟨0, 1⟩ .graceful (.finish []))) ∧
    (v.serving? 0 = some cv ∧ v.serving? 1 = some dv ∧ cv.draining = true ∧ dv.draining = false ∧
      v.callers.length = 1) ∧
    (u.serving? 1 = some du ∧
      ∃ s, (.worker 0 0, s) ∈ du.calls ∧ s.submits ⟨3⟩ = true ∧ s.denies ⟨3⟩ = true) ∧
    w.serving? 0 = some c ∧ w.serving? 1 = some d ∧
    w.activity? (.caller 0) = some (.going (.finish [])) ∧
    (c.OnlyCalledBy (.caller 0) ∧ d.OnlyCalledBy (.caller 1)) ∧
    (∀ s ∈ c.stages ++ d.stages, s.isKilled = false) ∧
    .refused ⟨3⟩ ∈ d.trace ∧ .accepted ⟨2⟩ ∈ d.trace ∧ d.ends ⟨2⟩ = 0 := by
  have hrun : (((World.initial true {}).run gatedSteps).any fun w₀ =>
      (w₀.serving? 0).any fun c₀ => (w₀.serving? 1).any fun d₀ =>
      (w₀.run waitingSteps).any fun v =>
      (v.serving? 0).any fun cv => (v.serving? 1).any fun dv =>
      (v.run overtakingSteps).any fun u => (u.serving? 1).any fun du =>
      (u.run returningSteps).any fun w =>
      (w.serving? 0).any fun c => (w.serving? 1).any fun d =>
        decide ((c₀.draining = false ∧ d₀.draining = false ∧ c₀.calls.isEmpty = true ∧
            d₀.calls.isEmpty = true) ∧
          (cv.draining = true ∧ dv.draining = false ∧ v.callers.length = 1) ∧
          (du.calls.any fun call =>
            call.1 = .worker 0 0 && call.2.submits ⟨3⟩ && call.2.denies ⟨3⟩) = true ∧
          (c.OnlyCalledBy (.caller 0) ∧ d.OnlyCalledBy (.caller 1)) ∧
          (∀ s ∈ c.stages ++ d.stages, s.isKilled = false) ∧
          .refused ⟨3⟩ ∈ d.trace ∧ .accepted ⟨2⟩ ∈ d.trace ∧ d.ends ⟨2⟩ = 0)) = true := by decide
  obtain ⟨w₀, hw₀, hrun⟩ := (Option.any_eq_true ..).mp hrun
  obtain ⟨c₀, hc₀, hrun⟩ := (Option.any_eq_true ..).mp hrun
  obtain ⟨d₀, hd₀, hrun⟩ := (Option.any_eq_true ..).mp hrun
  obtain ⟨v, hv, hrun⟩ := (Option.any_eq_true ..).mp hrun
  obtain ⟨cv, hcv, hrun⟩ := (Option.any_eq_true ..).mp hrun
  obtain ⟨dv, hdv, hrun⟩ := (Option.any_eq_true ..).mp hrun
  obtain ⟨u, hu, hrun⟩ := (Option.any_eq_true ..).mp hrun
  obtain ⟨du, hdu, hrun⟩ := (Option.any_eq_true ..).mp hrun
  obtain ⟨w, hw, hrun⟩ := (Option.any_eq_true ..).mp hrun
  obtain ⟨c, hc, hrun⟩ := (Option.any_eq_true ..).mp hrun
  obtain ⟨d, hd, hrun⟩ := (Option.any_eq_true ..).mp hrun
  obtain ⟨⟨hcno, hdno, hcc, hdc⟩, hwaits, hquery, honly, halive, hrest⟩ := of_decide_eq_true hrun
  have hask : ((World.initial true {}).run gatedSteps).bind (·.activity? (.caller 0)) =
      some (.going (PoolPair.shutdown ⟨0, 1⟩ .graceful (.finish []))) := rfl
  have hgo : (((World.initial true {}).run gatedSteps).bind
      (·.run (waitingSteps ++ overtakingSteps ++ returningSteps))).bind
        (·.activity? (.caller 0)) = some (.going (.finish [])) := rfl
  rw [hw₀, Option.bind_some] at hask hgo
  rw [World.run_append, World.run_append, hv, Option.bind_some, hu, Option.bind_some, hw,
    Option.bind_some] at hgo
  obtain ⟨⟨t, s⟩, hm, hcall⟩ := List.any_eq_true.mp hquery
  obtain ⟨⟨rfl, hs⟩, hden⟩ : (t = .worker 0 0 ∧ s.submits ⟨3⟩ = true) ∧ s.denies ⟨3⟩ = true := by
    simpa using hcall
  exact ⟨w₀, v, u, w, c₀, d₀, cv, dv, du, c, d, hw₀, hv, hu, hw,
    ⟨hc₀, hd₀, hcno, hdno, List.isEmpty_iff.mp hcc, List.isEmpty_iff.mp hdc⟩, hask,
    ⟨hcv, hdv, hwaits⟩, ⟨hdu, s, hm, hs, hden⟩, hc, hd, hgo, honly, halive, hrest⟩

end WorkerPool
