import WorkerPool.Proofs.Effort
import WorkerPool.Proofs.Progress

/-!
# Calls without a task come to their end

A thread that has a pool to itself and calls on it without bringing a task gets its answer. As long
as it is inside the call, it or a worker of the pool can move; each such move uses up a part of what
is left to do; and what happens meanwhile leaves the pool in its hands.

* `World.Along` -- in every world of a run; `World.Comes` -- until a certain world of it;
  `World.Reaches` -- one or the other;
* `World.Keeps`, `World.Inside` -- the thread has the pool to itself, outside a call and inside one;
* `Keeps.run` -- while the thread is elsewhere the pool idles;
* `Pool.Errand` -- what a call does to the pool on its way and in the end;
* `start_run`, `call_run` -- an errand comes to its end, or goes on and is bounded.
-/

namespace WorkerPool

namespace World

open Pool (Custody Aside CallMove Unmoved)

/-! ## 1. Along a run -/

section Along

variable {A A' B C : World → Prop} {w w' v : World} {l : Label} {ls ls' : List Label}

/-- `A` holds in every world of the run. -/
def Along (A : World → Prop) (w : World) (ls : List Label) : Prop :=
  ∀ done left v, ls = done ++ left → w.run done = some v → A v

/-- The run comes from `w` to `v` in the steps `done`, and `A` holds in every world before `v`. The
    steps `left` lead on to `w'`. -/
structure Comes (w : World) (ls : List Label) (w' : World) (A : World → Prop) (done : List Label)
    (v : World) (left : List Label) : Prop where
  split : ls = done ++ left
  here : w.run done = some v
  on : v.run left = some w'
  before : ∀ some' more u, done = some' ++ more → more ≠ [] → w.run some' = some u → A u

/-- A run on which `A` holds all the way, or until a world of which `B` holds. -/
def Reaches (w : World) (ls : List Label) (w' : World) (A B : World → Prop) : Prop :=
  w.Along A ls ∨ ∃ done v left, w.Comes ls w' A done v left ∧ B v

theorem run_cons (hs : w.step l = some v) : w.run (l :: ls) = v.run ls := by
  rw [World.run, hs, Option.bind_some]

theorem along_nil (h : A w) : Along A w [] := by
  intro done left v e hr
  obtain ⟨rfl, -⟩ := List.append_eq_nil_iff.mp e.symm
  cases hr
  exact h

theorem along_cons (h : A w) (hs : w.step l = some v) (ha : Along A v ls) :
    Along A w (l :: ls) := by
  intro done left u e hr
  cases done with
  | nil =>
      cases hr
      exact h
  | cons l' done =>
      obtain ⟨rfl, e'⟩ := List.cons.inj e
      exact ha done left u e' (run_cons hs ▸ hr)

theorem Along.head (h : Along A w ls) : A w := h [] ls w rfl rfl

theorem Along.last (h : Along A w ls) (hr : w.run ls = some w') : A w' :=
  h ls [] w' (List.append_nil _).symm hr

theorem Along.tail (h : Along A w (ls ++ ls')) (hr : w.run ls = some v) : Along A v ls' :=
  fun done left u e hu => h (ls ++ done) left u (by rw [e, List.append_assoc]) (by
    rw [run_append, hr, Option.bind_some, hu])

theorem Along.next (h : Along A w (l :: ls)) (hs : w.step l = some v) : Along A v ls :=
  fun done left u e hu => h (l :: done) left u (by rw [e, List.cons_append]) (by
    rw [run_cons hs, hu])

theorem Along.init (h : Along A w (ls ++ ls')) : Along A w ls :=
  fun done left u e hu => h done (left ++ ls') u (by rw [e, List.append_assoc]) hu

theorem Along.mono (h : Along A w ls) (hab : ∀ v, A v → B v) : Along B w ls :=
  fun done left u e hu => hab u (h done left u e hu)

theorem Along.append (h : Along A w ls) (hr : w.run ls = some v) (h' : Along A v ls') :
    Along A w (ls ++ ls') := by
  induction ls generalizing w with
  | nil =>
      cases hr
      exact h'
  | cons l rest ih =>
      obtain ⟨u, hu, hrest⟩ := Option.bind_eq_some_iff.mp hr
      exact along_cons h.head hu (ih (h.next hu) hrest)

theorem comes_nil (hr : w.run ls = some w') : Comes w ls w' A [] w ls where
  split := rfl
  here := rfl
  on := hr
  before _ _ _ e hne _ := absurd (List.append_eq_nil_iff.mp e.symm).2 hne

theorem Comes.cons {done left : List Label} {u : World} (hs : w.step l = some v) (ha : A w)
    (h : Comes v ls w' A done u left) : Comes w (l :: ls) w' A (l :: done) u left where
  split := by rw [h.split, List.cons_append]
  here := (run_cons hs).trans h.here
  on := h.on
  before some' more x e hne hx := by
    cases some' with
    | nil =>
        cases hx
        exact ha
    | cons l' some' =>
        obtain ⟨rfl, e'⟩ := List.cons.inj e
        exact h.before some' more x e' hne (run_cons hs ▸ hx)

theorem comes_step (ha : A w) (hs : w.step l = some v) (hr : v.run ls = some w') :
    Comes w (l :: ls) w' A [l] v ls :=
  (comes_nil hr).cons hs ha

theorem Comes.after {before done left : List Label} {u : World} (hr : w.run before = some v)
    (ha : Along A w before) (h : Comes v ls w' A done u left) :
    Comes w (before ++ ls) w' A (before ++ done) u left where
  split := by rw [h.split, List.append_assoc]
  here := by rw [run_append, hr, Option.bind_some, h.here]
  on := h.on
  before some' more x e hne hx := by
    rcases List.append_eq_append_iff.mp e with ⟨mid, rfl, e'⟩ | ⟨mid, rfl, -⟩
    · rw [run_append, hr, Option.bind_some] at hx
      exact h.before mid more x e' hne hx
    · exact ha some' mid x rfl hx

theorem Comes.mono {done left : List Label} (h : Comes w ls w' A done v left)
    (hab : ∀ u, A u → B u) : Comes w ls w' B done v left :=
  ⟨h.split, h.here, h.on, fun some' more u e hne hu => hab u (h.before some' more u e hne hu)⟩

/-- What holds along the whole run holds along the rest of it. -/
theorem Comes.tail {done left : List Label} (h : Comes w ls w' A done v left)
    (hb : Along B w ls) : Along B v left := by
  rw [h.split] at hb
  exact hb.tail h.here

theorem Comes.init {done left : List Label} (h : Comes w ls w' A done v left)
    (hb : Along B w ls) : Along B w done := by
  rw [h.split] at hb
  exact hb.init

/-- Until then, and then. -/
theorem Comes.along {done left : List Label} (h : Comes w ls w' A done v left)
    (hab : ∀ u, A u → B u) (hb : B v) : Along B w done := by
  intro some' more u e hu
  by_cases hne : more = []
  · subst hne
    rw [List.append_nil] at e
    subst e
    obtain rfl := Option.some.inj (h.here.symm.trans hu)
    exact hb
  · exact hab u (h.before some' more u e hne hu)

theorem Reaches.mono (h : w.Reaches ls w' A B) (ha : ∀ u, A u → A' u) (hb : ∀ u, B u → C u) :
    w.Reaches ls w' A' C :=
  h.imp (·.mono ha) fun ⟨done, v, left, hcomes, hv⟩ => ⟨done, v, left, hcomes.mono ha, hb v hv⟩

/-- One way after another: from where the first leads to, the second goes on or is over. -/
theorem Reaches.trans (h : w.Reaches ls w' A B) (ha : ∀ u, A u → A' u)
    (hlater : ∀ done v left, w.Comes ls w' A done v left → B v →
      A' v ∧ v.Reaches left w' A' C ∨ C v) :
    w.Reaches ls w' A' C := by
  rcases h with hall | ⟨done, v, left, hcomes, hv⟩
  · exact .inl (hall.mono ha)
  · rcases hlater done v left hcomes hv with ⟨hv', hall | ⟨done', u, left', hcomes', hu⟩⟩ | hv'
    · exact .inl (hcomes.split ▸ (hcomes.along ha hv').append hcomes.here hall)
    · exact .inr ⟨done ++ done', u, left',
        hcomes.split ▸ hcomes'.after hcomes.here (hcomes.along ha hv'), hu⟩
    · exact .inr ⟨done, v, left, hcomes.mono ha, hv'⟩

/-- Where every step keeps `A` or brings `B` about, a run does. -/
theorem reaches_of_step (hstep : ∀ u v l, u.Reachable → u.step l = some v → A u → A v ∨ B v)
    (h : w.Reachable) (hr : w.run ls = some w') (ha : A w) : w.Reaches ls w' A B := by
  induction ls generalizing w with
  | nil => exact .inl (along_nil ha)
  | cons l rest ih =>
      obtain ⟨v, hv, hrest⟩ := Option.bind_eq_some_iff.mp hr
      rcases hstep w v l h hv ha with ha' | hb
      · rcases ih (h.step l hv) hrest ha' with hall | ⟨done, u, left, hcomes, hu⟩
        · exact .inl (along_cons ha hv hall)
        · exact .inr ⟨l :: done, u, left, hcomes.cons hv ha, hu⟩
      · exact .inr ⟨[l], v, rest, comes_step ha hv hrest, hb⟩

end Along

/-! ## 2. Pools that a thread has to itself -/

/-- The thread is about to make this call, or inside it on this pool. -/
def At (thread : ThreadId) (c : Call) (next : Reply → Program) (id : PoolId) (w : World) : Prop :=
  w.activity? thread = some (.going (.call c next)) ∨ w.activity? thread = some (.inside id next)

/-- Nobody but the thread is inside a call on the pool. -/
def Only (thread : ThreadId) (id : PoolId) (w : World) : Prop :=
  ∀ p, w.pools[id]? = some p → ∀ t ∈ p.callers, t = thread

/-- The thread has the pool to itself and is outside every call on it. -/
structure Keeps (w : World) (thread : ThreadId) (id : PoolId) (p : Pool) : Prop where
  pool : w.pools[id]? = some p
  calls : p.calls = []
  custody : p.Custody thread

/-- The thread has the pool to itself and is at this stage of a call on it. -/
structure Inside (w : World) (thread : ThreadId) (id : PoolId) (next : Reply → Program)
    (s : CallStage) (p : Pool) : Prop where
  activity : w.activity? thread = some (.inside id next)
  pool : w.pools[id]? = some p
  call : (thread, s) ∈ p.calls
  custody : p.Custody thread

/-- The thread has the pool to itself still, and the steps since it was `p` have only moved its
    workers. -/
structure Idles (w : World) (thread : ThreadId) (id : PoolId) (since : List Label) (p q : Pool) :
    Prop extends w.Keeps thread id q where
  unmoved : p.Unmoved q
  toil : q.toil + since.countP (·.isWork id) ≤ p.toil + since.countP (·.isWake id)

/-- The moves of the thread and of the workers of the pool. -/
def stirs (thread : ThreadId) (id : PoolId) (ls : List Label) : Nat :=
  ls.countP (·.isOf thread) + ls.countP (·.isWork id)

/-- The thread can move, or a worker of the pool can. -/
def Stirs (w : World) (thread : ThreadId) (id : PoolId) : Prop :=
  w.CanMove thread ∨ ∃ i, w.CanMove (.worker id i)

section Keeping

variable {w w' : World} {thread : ThreadId} {id : PoolId} {p : Pool} {l : Label} {ls : List Label}
  {next : Reply → Program} {s : CallStage}

/-- A thread between two calls is inside no pool. -/
theorem inside_of_going {program : Program} (h : w.activity? thread = some (.going program))
    (id : PoolId) : w.inside thread ≠ some id := by
  simp [inside, h, Activity.pool?]

/-- A thread at a call on one pool is not inside another. -/
theorem At.elsewhere {c : Call} {id' : PoolId} (h : At thread c next id w) (hne : id ≠ id') :
    w.inside thread ≠ some id' := by
  rcases h with h | h
  · exact inside_of_going h id'
  · simp [inside, h, Activity.pool?, hne]

theorem stirs_append (thread : ThreadId) (id : PoolId) (ls ls' : List Label) :
    stirs thread id (ls ++ ls') = stirs thread id ls + stirs thread id ls' := by
  simp only [stirs, List.countP_append]
  omega

theorem Keeps.outside (h : w.Reachable) (hk : w.Keeps thread id p) : Outside thread id := by
  obtain rfl := (sound_reachable h).numbered hk.pool
  exact hk.custody.outside

theorem Inside.outside (h : w.Reachable) (hin : w.Inside thread id next s p) :
    Outside thread id := by
  obtain rfl := (sound_reachable h).numbered hin.pool
  exact hin.custody.outside

/-- A move of the thread is no move of a worker of a pool outside of which it is. -/
theorem stirs_own (hl : l.isOf thread = true) (hout : Outside thread id) :
    stirs thread id [l] = 1 := by
  cases l with
  | act t choice =>
      obtain rfl : t = thread := of_decide_eq_true hl
      cases t with
      | caller i => simp [stirs, Label.isOf, Label.isWork]
      | worker j i =>
          have hj : j ≠ id := fun e => hout i (e ▸ rfl)
          simp [stirs, Label.isOf, Label.isWork, hj]
  | _ => cases hl

theorem stirs_other (hl : l.isOf thread = false) (id : PoolId) :
    stirs thread id [l] = [l].countP (·.isWork id) := by
  simp [stirs, hl]

/-- **While the thread is elsewhere, a pool that it keeps idles.** -/
theorem Keeps.step (h : w.Reachable) (hs : w.step l = some w') (hk : w.Keeps thread id p)
    (honly : w'.Only thread id) (hin : w'.inside thread ≠ some id) :
    ∃ q, w'.Idles thread id [l] p q := by
  have hid := (sound_reachable h).numbered hk.pool
  have hno (q : Pool) (hq : w'.pools[id]? = some q) : thread ∉ q.callers := fun hm =>
    hin ((sound_reachable (h.step l hs)).linked hq hm)
  have hbefore : thread ∉ p.callers := by simp [Pool.callers, hk.calls]
  obtain ⟨q, hq, ha⟩ := step_aside h hs hk.pool hk.custody honly fun _ => ⟨hbefore, hno⟩
  refine ⟨q, ⟨⟨hq, ha.calls.trans hk.calls, ha.custody hk.custody⟩, ha.unmoved, ?_⟩⟩
  have htoil := ha.toil hk.custody
  rwa [hid] at htoil

theorem Keeps.run (h : w.Reachable) (hr : w.run ls = some w') (hk : w.Keeps thread id p)
    (honly : w.Along (Only thread id) ls)
    (hin : w.Along (fun u => u.inside thread ≠ some id) ls) :
    ∃ q, w'.Idles thread id ls p q := by
  induction ls generalizing w p with
  | nil =>
      cases hr
      exact ⟨p, hk, .refl p, Nat.le_refl _⟩
  | cons l rest ih =>
      obtain ⟨v, hv, hrest⟩ := Option.bind_eq_some_iff.mp hr
      have honly' := honly.next hv
      have hin' := hin.next hv
      obtain ⟨q, hq⟩ := hk.step h hv honly'.head hin'.head
      obtain ⟨r, hr'⟩ := ih (h.step l hv) hrest hq.toKeeps honly' hin'
      refine ⟨r, hr'.toKeeps, hq.unmoved.trans hr'.unmoved, ?_⟩
      have hstep := hq.toil
      have hlater := hr'.toil
      rw [show l :: rest = [l] ++ rest from rfl, List.countP_append, List.countP_append]
      omega

/-- **A step while the thread is inside a call**: another's leaves the call where it was, its own
    moves the call. -/
theorem Inside.step (h : w.Reachable) (hs : w.step l = some w')
    (hin : w.Inside thread id next s p) (honly : l.isOf thread = false → w'.Only thread id) :
    (l.isOf thread = false ∧ ∃ q, w'.Inside thread id next s q ∧ p.Unmoved q ∧
      q.toil + [l].countP (·.isWork id) ≤ p.toil + [l].countP (·.isWake id)) ∨
    l.isOf thread = true ∧ ∃ q step, CallMove p thread s q step ∧
      w'.pools[id]? = some (q.follow thread step) ∧
      w'.activity? thread = some (step.activity id next) := by
  have hS := sound_reachable h
  have hid := hS.numbered hin.pool
  cases hl : l.isOf thread with
  | true =>
      obtain ⟨q, step, hm, hq, ha⟩ :=
        own_call h hs hin.activity hl hin.pool hin.call (hin.outside h)
      exact .inr ⟨rfl, q, step, hm, hq, ha⟩
  | false =>
      obtain ⟨q, hq, ha⟩ := step_aside h hs hin.pool hin.custody (honly hl) fun e => by
        rw [hl] at e
        cases e
      have htoil := ha.toil hin.custody
      rw [hid] at htoil
      exact .inl ⟨rfl, q, ⟨step_activity hS hs hin.activity hl, hq, ha.calls.symm ▸ hin.call,
        ha.custody hin.custody⟩, ha.unmoved, htoil⟩

/-- **Inside a call the thread can move, or a worker of the pool can**: it waits only for workers,
    and when it does the queue is closed, so that nobody sleeps. -/
theorem Inside.canMove (h : w.Reachable) (hin : w.Inside thread id next s p) :
    w.Stirs thread id := by
  refine (call_moves_or_awaits h hin.pool hin.call).imp_right fun ⟨i, ha⟩ => ⟨i, ?_⟩
  obtain ⟨s', hs', hf⟩ := ha.1
  have hs' : p.stages[i]? = some s' := hs'
  have hidle := hin.custody.idle s' (List.mem_of_getElem? hs')
  have hclosed := closed_of_awaits h hin.pool ha
  have hawake := (Pool.queue_reachable h p (List.mem_of_getElem? hin.pool)).attended
    |>.sleeping_of_closed hclosed
  refine canMove_of_stage hin.pool hs' hf ?_ fun _ => ?_
  · cases s' with
    | running job activity => cases hidle
    | _ => rfl
  · rw [hawake]
    exact List.not_mem_nil

/-- The run comes to the first move of the thread, if there is one. -/
theorem first_own (h : w.Reachable) (hr : w.run ls = some w') {a : Activity}
    (ha : w.activity? thread = some a) :
    (w.Along (fun u => u.activity? thread = some a) ls ∧ ls.countP (·.isOf thread) = 0) ∨
    ∃ others l left u v, ls = others ++ l :: left ∧ w.run others = some u ∧
      u.step l = some v ∧ v.run left = some w' ∧ l.isOf thread = true ∧
      w.Along (fun u => u.activity? thread = some a) others ∧
      others.countP (·.isOf thread) = 0 := by
  induction ls generalizing w with
  | nil => exact .inl ⟨along_nil ha, rfl⟩
  | cons l rest ih =>
      obtain ⟨v, hv, hrest⟩ := Option.bind_eq_some_iff.mp hr
      cases hl : l.isOf thread with
      | true => exact .inr ⟨[], l, rest, w, v, rfl, rfl, hv, hrest, hl, along_nil ha, rfl⟩
      | false =>
          have ha' := step_activity (sound_reachable h) hv ha hl
          rcases ih (h.step l hv) hrest ha' with ⟨hall, hno⟩ | ⟨others, l', left, u, v', rfl, hu,
            hv', hr', hl', hall, hno⟩
          · exact .inl ⟨along_cons ha hv hall, by simp [hl, hno]⟩
          · exact .inr ⟨l :: others, l', left, u, v', rfl, (run_cons hv).trans hu, hv', hr', hl',
              along_cons ha hv hall, by simp [hl, hno]⟩

/-- Workers of a pool that is not there yet do not move. -/
theorem countP_isWork_of_unmade (h : w.Reachable) (hr : w.run ls = some w')
    (hid : w'.pools.length ≤ id) : ls.countP (·.isWork id) = 0 := by
  induction ls generalizing w with
  | nil => rfl
  | cons l rest ih =>
      obtain ⟨v, hv, hrest⟩ := Option.bind_eq_some_iff.mp hr
      rw [List.countP_cons_of_neg, ih (h.step l hv) hrest]
      intro hl
      cases l with
      | act t choice =>
          cases t with
          | caller i => cases hl
          | worker j i =>
              obtain rfl : j = id := of_decide_eq_true hl
              obtain ⟨p, hp, -⟩ := Option.bind_eq_some_iff.mp hv
              obtain ⟨q, hq, -⟩ := h.run_change hr hp
              exact Nat.not_lt_of_le hid (List.getElem?_eq_some_iff.mp hq).1
      | _ => cases hl

end Keeping

end World

/-! ## 3. Errands -/

/-- What holds of a pool after a move of a call: what `During` says at the stage that it has led to,
    or what `After` says with the answer. -/
def CallStep.Leaves (During : Pool → CallStage → Prop) (After : Pool → Reply → Prop) (p : Pool) :
    CallStep → Prop
  | .stage s => During p s
  | .reply r => After p r

/-- A call without a task on a pool that the thread has to itself and that has at most `size`
    workers: what `During` says of the pool at each stage and `After` in the end holds move by move,
    whatever the workers do. -/
structure Pool.Errand (thread : ThreadId) (size : Nat) (During : Pool → CallStage → Prop)
    (After : Pool → Reply → Prop) : Prop where
  during : ∀ {p : Pool} {s : CallStage}, During p s →
    s.isErrand = true ∧ p.stages.length ≤ size
  after : ∀ {p : Pool} {r : Reply}, After p r → p.stages.length ≤ size
  steady : ∀ {p q : Pool} {next : CallStep}, p.Unmoved q → next.Leaves During After p →
    next.Leaves During After q
  move : ∀ {p q : Pool} {s : CallStage} {next : CallStep}, p.Custody thread → Pool.Flagged p →
    During p s → Pool.CallMove p thread s q next → next.Leaves During After q

namespace World

open Pool (Custody CallMove Unmoved Errand)

section Errands

variable {w w' : World} {thread : ThreadId} {id : PoolId} {p : Pool} {l : Label} {ls : List Label}
  {next : Reply → Program} {s : CallStage} {size : Nat} {During : Pool → CallStage → Prop}
  {After : Pool → Reply → Prop}

/-- The course of an errand along a run from `w` to `w'`: it goes on still, and the thread or a
    worker can move; or it has come to its end in a world of the run, with the last step inside the
    call. The moves made for it are at most `budget` and one more for each sleeper woken for no
    reason. -/
inductive Course (w : World) (ls : List Label) (w' : World) (thread : ThreadId) (c : Call)
    (next : Reply → Program) (id : PoolId) (After : Pool → Reply → Prop) (budget : Nat) : Prop where
  | on (hall : w.Along (At thread c next id) ls) (hmove : w'.Stirs thread id)
      (hle : stirs thread id ls ≤ budget + ls.countP (·.isWake id))
  | told {done left : List Label} {v : World} {q : Pool} {r : Reply}
      (hcomes : w.Comes ls w' (At thread c next id) done v left)
      (hlast : ∃ some' l u, done = some' ++ [l] ∧ w.run some' = some u ∧
        u.activity? thread = some (.inside id next))
      (ha : v.activity? thread = some (.going (next r))) (hk : v.Keeps thread id q)
      (hafter : After q r)
      (hle : q.toil + stirs thread id done ≤ budget + done.countP (·.isWake id))

theorem Course.after {c : Call} {before : List Label} {v : World} {b b' : Nat}
    (hr : w.run before = some v) (hall : w.Along (At thread c next id) before)
    (h : Course v ls w' thread c next id After b')
    (hle : b' + stirs thread id before ≤ b + before.countP (·.isWake id)) :
    Course w (before ++ ls) w' thread c next id After b := by
  cases h with
  | on hall' hmove hle' =>
      refine .on (hall.append hr hall') hmove ?_
      rw [stirs_append, List.countP_append]
      omega
  | told hcomes hlast ha hk hafter hle' =>
      obtain ⟨some', l, u, rfl, hu, hin⟩ := hlast
      refine .told (hcomes.after hr hall) ⟨before ++ some', l, u, ?_, ?_, hin⟩ ha hk hafter ?_
      · rw [List.append_assoc]
      · rw [run_append, hr, Option.bind_some, hu]
      rw [stirs_append, List.countP_append]
      omega

/-- A call that is over leaves the pool to the thread. -/
theorem keeps_of_reply {r : Reply} (hq : w.pools[id]? = some (p.follow thread (.reply r)))
    (hc : (p.follow thread (.reply r)).Custody thread) :
    w.Keeps thread id (p.follow thread (.reply r)) where
  pool := hq
  calls := by
    refine List.eq_nil_iff_forall_not_mem.mpr fun c hm => ?_
    exact (Pool.mem_leave hm).1 (hc.alone c.1 (List.mem_map_of_mem hm))
  custody := hc

/-- **An errand inside a call goes on, or comes to its end**, and the moves made for it use up what
    was left to do. -/
theorem Inside.run {c : Call} (h : w.Reachable) (hr : w.run ls = some w')
    (he : Errand thread size During After) (hin : w.Inside thread id next s p)
    (hd : During p s)
    (honly : (∀ p s, During p s → s.ofMaker = true) ∨ w.Along (Only thread id) ls) :
    Course w ls w' thread c next id After (s.rank size + p.toil) := by
  induction ls generalizing w p s with
  | nil =>
      cases hr
      exact .on (along_nil (.inr hin.activity)) (hin.canMove h) (Nat.zero_le _)
  | cons l rest ih =>
      obtain ⟨v, hv, hrest⟩ := Option.bind_eq_some_iff.mp hr
      have hone : w.run [l] = some v := run_cons hv
      have hhere : w.Along (At thread c next id) [] := along_nil (.inr hin.activity)
      have hlater := honly.imp_right fun ho => ho.next hv
      have honly' : l.isOf thread = false → v.Only thread id := fun hl => by
        rcases honly with hmake | honly
        · exact fun q hq => step_making h hv hin.pool hin.call (hmake p s hd) hl hq
        · exact (honly.next hv).head
      rcases hin.step h hv honly' with ⟨hl, q, hin', hu, htoil⟩ | ⟨hl, q, step, hm, hq, ha⟩
      · have hd' : (CallStep.stage s).Leaves During After q := he.steady hu hd
        refine (ih (h.step l hv) hrest hin' hd' hlater).after hone
          (along_cons hhere.head hv (along_nil (.inr hin'.activity))) ?_
        rw [stirs_other hl]
        omega
      · have hflags := (Pool.flagged_reachable h p (List.mem_of_getElem? hin.pool)).shared
        obtain ⟨herrand, -⟩ := he.during hd
        have hc := hm.custody hin.custody herrand
        have hleaves := he.steady (Pool.unmoved_follow q thread step)
          (he.move hin.custody hflags hd hm)
        have hsize : q.stages.length ≤ size := by
          rw [← Pool.stages_follow q thread step]
          cases step with
          | stage s' => exact (he.during hleaves).2
          | reply r => exact he.after hleaves
        have hspawning : ∀ n refusal, s = .spawning n refusal → p.stages.length = n := by
          rintro n refusal rfl
          exact (Pool.staffed_reachable h p (List.mem_of_getElem? hin.pool)).spawning hin.call
        have hcost := hm.toil hin.custody herrand hsize hspawning
        rw [← q.toil_follow thread step] at hcost
        have hstirs := stirs_own hl (hin.outside h)
        cases step with
        | stage s' =>
            obtain ⟨-, hcalls, -⟩ := hm.frame
            have hin' : v.Inside thread id next s' (q.follow thread (.stage s')) :=
              ⟨ha, hq, Pool.mem_follow_self (hcalls ▸ hin.call), hc⟩
            refine (ih (h.step l hv) hrest hin' hleaves hlater).after hone
              (along_cons hhere.head hv (along_nil (.inr ha))) ?_
            rw [hstirs]
            exact Nat.le_add_right_of_le hcost
        | reply r =>
            refine .told (comes_step hhere.head hv hrest) ⟨[], l, w, rfl, rfl, hin.activity⟩ ha
              (keeps_of_reply hq hc) hleaves ?_
            rw [hstirs]
            simp only [CallStep.rank, Nat.zero_add] at hcost
            exact Nat.le_add_right_of_le hcost

end Errands

/-! ## 4. Making a pool -/

section Making

variable {w w' : World} {thread : ThreadId} {l : Label} {ls : List Label} {next : Reply → Program}

theorem begin_host {c : Call} {a : Activity} (h : w.begin thread next c = some (w', a)) :
    w'.host = w.host := by
  cases c <;> simp only [begin] at h
  case note n =>
    cases h
    cases thread <;> rfl
  all_goals
    repeat' split at h
    all_goals
      cases h
      try rfl

theorem advance_host {choice : Nat} {a a' : Activity}
    (h : w.advance thread choice a = some (w', a')) : w'.host = w.host := by
  cases a with
  | going program =>
      cases program with
      | finish | panic => cases h
      | make =>
          cases h
          rfl
      | submit =>
          simp only [advance] at h
          split at h <;> cases h <;> rfl
      | call c next => exact begin_host h
  | inside id next =>
      obtain ⟨p, -, h⟩ := Option.bind_eq_some_iff.mp h
      obtain ⟨s, -, h⟩ := Option.bind_eq_some_iff.mp h
      obtain ⟨⟨q, step⟩, -, h⟩ := Option.map_eq_some_iff.mp h
      cases step <;> cases h <;> rfl
  | asleep wakeAt next =>
      simp only [advance] at h
      split at h <;> cases h
      rfl

/-- A step leaves the machine as it is. -/
theorem step_host (h : w.step l = some w') : w'.host = w.host := by
  cases l with
  | fork program | openGate name | tick nanos =>
      cases h
      rfl
  | wake j k =>
      obtain ⟨r, hr, h⟩ := Option.bind_eq_some_iff.mp h
      split at h <;> cases h
      rfl
  | reclaim j =>
      obtain ⟨r, hr, h⟩ := Option.bind_eq_some_iff.mp h
      obtain ⟨r', -, rfl⟩ := Option.map_eq_some_iff.mp h
      rfl
  | act t choice =>
      cases t with
      | caller i =>
          obtain ⟨a, -, h⟩ := Option.bind_eq_some_iff.mp h
          obtain ⟨⟨v, a'⟩, hadv, rfl⟩ := Option.map_eq_some_iff.mp h
          have hv : v.host = w.host := advance_host hadv
          exact hv
      | worker j i =>
          obtain ⟨p, -, h⟩ := Option.bind_eq_some_iff.mp h
          obtain ⟨worker, -, h⟩ := Option.bind_eq_some_iff.mp h
          cases hst : worker.stage with
          | running job a =>
              simp only [hst, actInTask] at h
              split at h
              · cases h
                rfl
              · cases h
                rfl
              · obtain ⟨⟨v, a'⟩, hadv, rfl⟩ := Option.map_eq_some_iff.mp h
                have hv : v.host = w.host := advance_host hadv
                exact hv
          | _ =>
              simp only [hst] at h
              obtain ⟨moved, -, rfl⟩ := Option.map_eq_some_iff.mp h
              rfl

theorem run_host (hr : w.run ls = some w') : w'.host = w.host := by
  induction ls generalizing w with
  | nil =>
      cases hr
      rfl
  | cons l rest ih =>
      obtain ⟨v, hv, hrest⟩ := Option.bind_eq_some_iff.mp hr
      exact (ih hrest).trans (step_host hv)

/-- Pools are never fewer. -/
theorem run_length (h : w.Reachable) (hr : w.run ls = some w') :
    w.pools.length ≤ w'.pools.length := by
  refine Nat.le_of_not_lt fun hlt => ?_
  obtain ⟨q, hq, -⟩ := h.run_change hr (List.getElem?_eq_getElem hlt)
  exact Nat.lt_irrefl _ (List.getElem?_eq_some_iff.mp hq).1

/-- The pool that a thread has just begun to make. -/
def founded (thread : ThreadId) (refusal : Nat → Option SystemError) (id : PoolId)
    (config : Config) (cpus : UInt64) (telemetry : Bool) (now : Nat) : Pool :=
  (Pool.ofConfig id config cpus telemetry now).enter thread (.spawning 0 refusal)

/-- A pool just made is in the hands of its maker. -/
theorem founded_custody {refusal : Nat → Option SystemError} {id : PoolId}
    (hout : Outside thread id) (config : Config) (cpus : UInt64) (telemetry : Bool) (now : Nat) :
    (founded thread refusal id config cpus telemetry now).Custody thread := by
  obtain ⟨hnum, hcalls, -⟩ := made_empty id config cpus telemetry now
  have hb : (founded thread refusal id config cpus telemetry now).Blank :=
    Pool.Fresh.blank ⟨_, _, _, _, _, _, _, rfl⟩
  refine ⟨fun t ht => ?_, fun i => ?_, by rw [hb.queue], fun s hs => ?_, fun e he => ?_, ?_⟩
  · simpa [founded, Pool.enter, Pool.callers, hcalls] using ht
  · rw [show (founded thread refusal id config cpus telemetry now).id = id from hnum]
    exact hout i
  · rw [hb.stages] at hs
    exact absurd hs List.not_mem_nil
  · obtain ⟨e', rfl⟩ := hb.trace e he
    rfl
  · rw [hb.handles]
    exact Nat.zero_le _

/-- The next move of the thread in the run, if it makes one, finds so many pools. -/
def Finds (w : World) (ls : List Label) (thread : ThreadId) (id : PoolId) : Prop :=
  ∀ others l left u, ls = others ++ l :: left → w.run others = some u →
    others.countP (·.isOf thread) = 0 → l.isOf thread = true → u.pools.length = id

/-- A list is divided in one way only at the first that has the property. -/
theorem eq_of_first {α : Type} {r : α → Bool} {before before' after after' : List α} {a a' : α}
    (he : before ++ a :: after = before' ++ a' :: after') (h : before.countP r = 0)
    (ha : r a = true) (h' : before'.countP r = 0) (ha' : r a' = true) : before = before' := by
  have htake {xs ys : List α} {x : α} (hxs : xs.countP r = 0) (hx : r x = true) :
      (xs ++ x :: ys).takeWhile (!r ·) = xs := by
    rw [List.takeWhile_append_of_pos (by simpa [List.countP_eq_zero] using hxs),
      List.takeWhile_cons_of_neg (by simp [hx]), List.append_nil]
  rw [← @htake before after a h ha, he, htake h' ha']

/-- **The making of a pool is an errand**: from the first step on nobody else comes to the pool. The
    number of the pool is that of the pools there are when it begins. -/
theorem start_run {config : Config} (h : w.Reachable) (hr : w.run ls = some w')
    (ha : w.activity? thread = some (.going (.call (.start config) next)))
    (hv : config.validate = .ok ()) :
    ∃ id, w.pools.length ≤ id ∧ w.Finds ls thread id ∧
      ∀ {size : Nat} {During : Pool → CallStage → Prop} {After : Pool → Reply → Prop},
        Errand thread size During After → (∀ p s, During p s → s.ofMaker = true) →
        (∀ telemetry now,
          During (founded thread (w.host.refusal id config) id config w.host.cpus telemetry now)
            (.spawning 0 (w.host.refusal id config))) →
        Course w ls w' thread (.start config) next id After (11 * size + 20) := by
  rcases first_own h hr ha with ⟨hall, hno⟩ |
    ⟨others, l, left, u, v, rfl, hu, hstep, hleft, hl, hall, hno⟩
  · refine ⟨w'.pools.length, run_length h hr, fun others l left u e _ _ hl => ?_, fun _ _ _ =>
      .on (hall.mono fun _ => .inl) (.inl ?_) ?_⟩
    · rw [e] at hno
      exact absurd hl (List.countP_eq_zero.mp hno l (by simp))
    · refine canMove_of_advance 0 (hall.last hr) ?_
      simp only [advance, begin, hv]
      rfl
    · rw [stirs, hno, countP_isWork_of_unmade h hr (Nat.le_refl _)]
      exact Nat.zero_le _
  · have hreach := h.run hu
    have hgo := hall.last hu
    have hout := outside_of_activity hgo (Nat.le_refl u.pools.length)
    obtain ⟨hact, hpool⟩ := own_start hreach hstep hgo hl hv
    rw [run_host hu] at hpool
    refine ⟨u.pools.length, run_length h hu, fun others' l' left' u' e hu' hno' hl' => ?_,
      fun {size During After} he hmake hfirst => ?_⟩
    · obtain rfl := eq_of_first e hno hl hno' hl'
      rw [Option.some.inj (hu.symm.trans hu')]
    generalize w.host.refusal u.pools.length config = refusal at hpool hfirst
    have hblank : (founded thread refusal u.pools.length config w.host.cpus u.telemetry
        u.now).Blank := Pool.Fresh.blank ⟨_, _, _, _, _, _, _, rfl⟩
    have hin : v.Inside thread u.pools.length next (.spawning 0 refusal)
        (founded thread refusal u.pools.length config w.host.cpus u.telemetry u.now) :=
      ⟨hact, hpool, List.mem_cons_self .., founded_custody hout ..⟩
    have htoil : (founded thread refusal u.pools.length config w.host.cpus u.telemetry
        u.now).toil = 0 := by
      rw [Pool.toil, hblank.stages]
      rfl
    rw [← List.singleton_append, ← List.append_assoc]
    have hlater := hin.run (c := .start config) (hreach.step l hstep) hleft he (hfirst ..)
      (.inl hmake)
    refine hlater.after (b := 11 * size + 20) ?_ ?_ ?_
    · rw [run_append, hu, Option.bind_some, run_cons hstep]
      rfl
    · exact (hall.mono fun _ => .inl).append hu
        (along_cons (.inl hgo) hstep (along_nil (.inr hact)))
    · rw [stirs_append, stirs_own hl hout, stirs, hno,
        countP_isWork_of_unmade h hu (Nat.le_refl _), htoil]
      simp only [CallStage.rank]
      omega

end Making

/-! ## 5. Calls on a pool that the thread keeps -/

section Calling

variable {w w' : World} {thread : ThreadId} {id : PoolId} {p : Pool} {ls : List Label}
  {next : Reply → Program} {size : Nat} {During : Pool → CallStage → Prop}
  {After : Pool → Reply → Prop}

theorem enter_custody {q : Pool} (hc : q.Custody thread) (s : CallStage) :
    (q.enter thread s).Custody thread where
  alone t ht := (List.mem_cons.mp ht).elim (fun e => e) (hc.alone t)
  outside := hc.outside
  items := hc.items
  idle := hc.idle
  untouched := hc.untouched
  handles := hc.handles

/-- An errand on a pool that the thread keeps, if it can begin and what the first step does is
    known. -/
theorem call_run {c : Call} {s : CallStage} (h : w.Reachable) (hr : w.run ls = some w')
    (ha : w.activity? thread = some (.going (.call c next))) (hk : w.Keeps thread id p)
    (honly : w.Along (Only thread id) ls) (he : Errand thread size During After)
    (hready : ∀ {u : World} {q : Pool}, u.activity? thread = some (.going (.call c next)) →
      u.Keeps thread id q → p.Unmoved q → u.CanMove thread)
    (hbegin : ∀ {u v : World} {l : Label} {q : Pool}, u.Reachable → u.step l = some v →
      u.activity? thread = some (.going (.call c next)) → l.isOf thread = true →
      u.Keeps thread id q → p.Unmoved q →
      v.activity? thread = some (.inside id next) ∧ ∃ r : Pool,
        v.pools[id]? = some (r.enter thread s) ∧ r.Custody thread ∧ r.toil = q.toil ∧
        During (r.enter thread s) s) :
    Course w ls w' thread c next id After (p.toil + s.rank size + 1) := by
  have hout := hk.outside h
  rcases first_own h hr ha with ⟨hall, hno⟩ |
    ⟨others, l, left, u, v, rfl, hu, hstep, hleft, hl, hall, hno⟩
  · obtain ⟨q, hq⟩ := hk.run h hr honly (hall.mono fun _ hu => inside_of_going hu id)
    refine .on (hall.mono fun _ => .inl) (.inl (hready (hall.last hr) hq.toKeeps hq.unmoved)) ?_
    have htoil := hq.toil
    rw [stirs, hno]
    omega
  · have hreach := h.run hu
    have hgo := hall.last hu
    obtain ⟨q, hq⟩ := hk.run h hu honly.init (hall.mono fun _ hu => inside_of_going hu id)
    obtain ⟨hact, r, hpool, hc, htoil, hd⟩ := hbegin hreach hstep hgo hl hq.toKeeps hq.unmoved
    have hin : v.Inside thread id next s (r.enter thread s) :=
      ⟨hact, hpool, List.mem_cons_self .., enter_custody hc s⟩
    have hprev : w.run (others ++ [l]) = some v := by
      rw [run_append, hu, Option.bind_some, run_cons hstep]
      rfl
    rw [← List.singleton_append, ← List.append_assoc] at honly ⊢
    have hlater := hin.run (c := c) (hreach.step l hstep) hleft he hd (.inr (honly.tail hprev))
    refine hlater.after hprev ?_ ?_
    · exact (hall.mono fun _ => .inl).append hu
        (along_cons (.inl hgo) hstep (along_nil (.inr hact)))
    · have hbefore := hq.toil
      have hsame : (r.enter thread s).toil = q.toil := htoil
      rw [stirs_append, stirs_own hl hout, stirs, hno, List.countP_append]
      omega

/-- **An immediate shutdown is an errand.** -/
theorem shutdown_run (h : w.Reachable) (hr : w.run ls = some w')
    (ha : w.activity? thread = some (.going (.call (.shutdown id .immediate) next)))
    (hk : w.Keeps thread id p) (hlife : p.life = .serving) (honly : w.Along (Only thread id) ls)
    (he : Errand thread size During After)
    (hd : ∀ q, p.Unmoved q → During (q.enter thread (.raising .asked)) (.raising .asked)) :
    Course w ls w' thread (.shutdown id .immediate) next id After (p.toil + 2 * size + 9) := by
  have hrun := call_run (s := .raising .asked) h hr ha hk honly he (fun {u q} hu hq hun => ?_)
    fun {u v l q} hreach hstep hu hl hq hun => ?_
  · simpa [CallStage.rank, Purpose.rest, Nat.add_assoc] using hrun
  · refine canMove_of_advance 0 hu ?_
    simp only [advance, begin, serving_iff.mpr ⟨hq.pool, hun.life.trans hlife⟩]
    rfl
  · obtain ⟨hact, hpool⟩ := own_shutdown hreach hstep hu hl hq.pool (hun.life.trans hlife)
      (hq.outside hreach)
    exact ⟨hact, q, hpool, hq.custody, rfl, hd q hun⟩

/-- **Giving a pool up is an errand.** -/
theorem drop_run (h : w.Reachable) (hr : w.run ls = some w')
    (ha : w.activity? thread = some (.going (.call (.drop id) next)))
    (hk : w.Keeps thread id p) (hlife : p.life = .serving) (honly : w.Along (Only thread id) ls)
    (he : Errand thread size During After)
    (hd : ∀ q, p.Unmoved q →
      During ({ q with life := .ending }.enter thread (.dropping .done)) (.dropping .done)) :
    Course w ls w' thread (.drop id) next id After (p.toil + 2 * size + 11) := by
  refine call_run (s := .dropping .done) h hr ha hk honly he (fun {u q} hu hq hun => ?_)
    fun {u v l q} hreach hstep hu hl hq hun => ?_
  · refine canMove_of_advance 0 hu ?_
    simp only [advance, begin, serving_iff.mpr ⟨hq.pool, hun.life.trans hlife⟩, hq.calls]
    rfl
  · obtain ⟨hact, hpool⟩ := own_drop hreach hstep hu hl hq.pool (hun.life.trans hlife) hq.calls
      (hq.outside hreach)
    have hc := hq.custody
    exact ⟨hact, { q with life := .ending }, hpool, ⟨hc.alone, hc.outside, hc.items, hc.idle,
      hc.untouched, hc.handles⟩, rfl, hd q hun⟩

end Calling

end World

end WorkerPool
