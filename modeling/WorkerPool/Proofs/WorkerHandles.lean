import WorkerPool.Proofs.Custody

/-!
# What shutdowns do with the handles of workers

A shutdown that comes to take the handles of the workers takes what is there: the first one all of
them, every other one none. It goes through them one by one. A worker that has come to its end is
joined, one that a panic drove out is reported as crashed, and the shutdown's own worker it lets go.
What it returns is how many it has joined. When what a crashed worker left behind explodes, the
shutdown lets all handles go that it has left, and its count is lost.

* `Muster`, `Pool.musters` -- what one shutdown took, what it did with each handle, and what it
  returned, read off the trace; `Pool.disposals` -- what was done with handles by anybody;
* `CallMove.mustering` -- what a move of a call does with handles, case by case;
* `Pool.Attends` -- what a thread's musters say, by the place it has come to;
* `Pool.Mustered` -- what the musters of every thread say, an invariant.
-/

namespace WorkerPool

/-! ## 1. Musters -/

/-- What is done with the handle of a worker. -/
inductive Disposal where
  /-- The worker had come to its end. -/
  | joined
  /-- A panic had driven the worker out, and that is reported. -/
  | crashed
  /-- The worker was let go by itself. -/
  | detached
  /-- The worker was let go because a panic ended the shutdown. -/
  | forsaken
  deriving DecidableEq, Repr

/-- One taking of handles and what came of it. -/
structure Muster where
  thread : ThreadId
  taken : List Nat
  /-- What was done with handles, in order. -/
  disposed : List (Nat × Disposal) := []
  /-- The count that the shutdown has returned. -/
  told : Option Nat := none
  /-- The count that was lost when a panic ended the shutdown. -/
  lost : Option Nat := none
  deriving DecidableEq, Repr

namespace Muster

/-- How many workers were joined. -/
def joined (m : Muster) : Nat := m.disposed.countP (·.2 = .joined)

/-- What was done with handles, each with the thread that did it. -/
def disposals (m : Muster) : List (ThreadId × Nat × Disposal) := m.disposed.map (m.thread, ·)

def dispose (i : Nat) (d : Disposal) (m : Muster) : Muster :=
  { m with disposed := m.disposed ++ [(i, d)] }

def tell (k : Nat) (m : Muster) : Muster := { m with told := some k }

def lose (k : Nat) (m : Muster) : Muster := { m with lost := some k }

theorem thread_dispose (i : Nat) (d : Disposal) (m : Muster) : (m.dispose i d).thread = m.thread :=
  rfl

theorem taken_dispose (i : Nat) (d : Disposal) (m : Muster) : (m.dispose i d).taken = m.taken := rfl

theorem thread_tell (k : Nat) (m : Muster) : (m.tell k).thread = m.thread := rfl

theorem taken_tell (k : Nat) (m : Muster) : (m.tell k).taken = m.taken := rfl

theorem thread_lose (k : Nat) (m : Muster) : (m.lose k).thread = m.thread := rfl

theorem taken_lose (k : Nat) (m : Muster) : (m.lose k).taken = m.taken := rfl

theorem disposals_dispose {t : ThreadId} {m : Muster} (i : Nat) (d : Disposal)
    (ht : m.thread = t) : (m.dispose i d).disposals = m.disposals ++ [(t, i, d)] := by
  simp [disposals, dispose, ht]

/-- The newest muster of the thread with this done to it. A thread without one gets one, so that
    nothing a trace says is lost. -/
def amend (t : ThreadId) (f : Muster → Muster) : List Muster → List Muster
  | [] => [f { thread := t, taken := [] }]
  | m :: rest => if m.thread = t then f m :: rest else m :: amend t f rest

section Amend

variable {t : ThreadId} {f : Muster → Muster}

theorem amend_ne_nil (l : List Muster) : amend t f l ≠ [] := by
  cases l with
  | nil => exact List.cons_ne_nil _ _
  | cons m rest =>
      rw [amend]
      split <;> exact List.cons_ne_nil _ _

theorem filter_amend_of_ne (hf : ∀ m, (f m).thread = m.thread) {u : ThreadId} (hu : u ≠ t)
    (l : List Muster) : (amend t f l).filter (·.thread = u) = l.filter (·.thread = u) := by
  induction l with
  | nil => simp [amend, hf, Ne.symm hu]
  | cons m rest ih =>
      rw [amend]
      split
      · next ht => simp [hf, ht, Ne.symm hu]
      · simp only [List.filter_cons, ih]

theorem filter_amend_self (hf : ∀ m, (f m).thread = m.thread) {l : List Muster} {m : Muster}
    {rest : List Muster} (hl : l.filter (·.thread = t) = m :: rest) :
    (amend t f l).filter (·.thread = t) = f m :: rest := by
  induction l with
  | nil => cases hl
  | cons m' l ih =>
      rw [amend]
      split
      · next ht =>
        rw [List.filter_cons_of_pos (by simpa using ht)] at hl
        cases hl
        rw [List.filter_cons_of_pos (by simpa [hf] using ht)]
      · next ht =>
        rw [List.filter_cons_of_neg (by simpa using ht)] at hl ⊢
        exact ih hl

/-- What `f` leaves as it was can be read as before, if the thread has a muster. -/
theorem map_amend {β : Type} {g : Muster → β} (hg : ∀ m, g (f m) = g m) {l : List Muster}
    (hl : l.filter (·.thread = t) ≠ []) : (amend t f l).map g = l.map g := by
  induction l with
  | nil => exact absurd rfl hl
  | cons m rest ih =>
      rw [amend]
      split
      · rw [List.map_cons, hg, List.map_cons]
      · next ht =>
        rw [List.filter_cons_of_neg (by simpa using ht)] at hl
        rw [List.map_cons, ih hl, List.map_cons]

/-- What `f` adds is added to the whole. -/
theorem flatMap_amend {β : Type} {g : Muster → List β} {new : List β}
    (h0 : g { thread := t, taken := [] } = []) (hg : ∀ m, m.thread = t → g (f m) = g m ++ new)
    (l : List Muster) : ((amend t f l).flatMap g).Perm (l.flatMap g ++ new) := by
  induction l with
  | nil => simp [amend, hg, h0]
  | cons m rest ih =>
      rw [amend]
      split
      · next ht =>
        rw [List.flatMap_cons, hg m ht, List.flatMap_cons, List.append_assoc, List.append_assoc]
        exact (List.perm_append_comm).append_left _
      · rw [List.flatMap_cons, List.flatMap_cons, List.append_assoc]
        exact ih.append_left _

end Amend

end Muster

namespace Happening

/-- What is done with a handle: the thread that does it, the worker, and what. -/
@[simp]
def disposes? : Happening → Option (ThreadId × Nat × Disposal)
  | .joined t i false => some (t, i, .joined)
  | .joined t i true => some (t, i, .crashed)
  | .detached t i => some (t, i, .detached)
  | .forsaken t i => some (t, i, .forsaken)
  | _ => none

/-- The musters, newest first, after this has happened. -/
def muster : Happening → List Muster → List Muster
  | .handlesTaken t workers, l => { thread := t, taken := workers } :: l
  | .joined t i false, l => Muster.amend t (·.dispose i .joined) l
  | .joined t i true, l => Muster.amend t (·.dispose i .crashed) l
  | .detached t i, l => Muster.amend t (·.dispose i .detached) l
  | .forsaken t i, l => Muster.amend t (·.dispose i .forsaken) l
  | .returned t _ k, l => Muster.amend t (·.tell k) l
  | .brokenOff t k, l => Muster.amend t (·.lose k) l
  | _, l => l

end Happening

/-- How many workers the call has joined, from the taking of the handles until it ends. -/
@[simp]
def CallStage.tally? : CallStage → Option Nat
  | .joining _ _ _ joined | .unwinding _ _ joined _ | .concluding _ joined | .emptying _ joined
  | .tallying _ joined _ | .recording _ joined _ | .discarding _ joined _
  | .reporting _ joined => some joined
  | _ => none

/-- How many workers a call has joined after a step of it. -/
@[simp]
def CallStep.tally? : CallStep → Option Nat
  | .stage s => s.tally?
  | .reply _ => none

namespace Pool

/-- The takings of handles, newest first. -/
def musters (p : Pool) : List Muster := p.trace.foldr Happening.muster []

/-- The takings of handles by this thread, newest first. -/
def mustersBy (p : Pool) (t : ThreadId) : List Muster := p.musters.filter (·.thread = t)

/-- What has been done with handles, in order. -/
def disposals (p : Pool) : List (ThreadId × Nat × Disposal) :=
  inOrder Happening.disposes? p.trace

/-- The workers whose handles calls have in hand. -/
def inHand (p : Pool) : List Nat := p.calls.flatMap (·.2.joinees)

/-- **What was done with handles is in one muster or another.** -/
theorem disposals_perm (p : Pool) : p.disposals.Perm (p.musters.flatMap Muster.disposals) := by
  rw [disposals, musters]
  induction p.trace with
  | nil => exact .refl _
  | cons e trace ih =>
      have hadd {t : ThreadId} {f : Muster → Muster} {new : List (ThreadId × Nat × Disposal)}
          (hf : ∀ m, m.thread = t → (f m).disposals = m.disposals ++ new) :
          (inOrder Happening.disposes? trace ++ new).Perm
            ((Muster.amend t f (trace.foldr Happening.muster [])).flatMap Muster.disposals) :=
        (ih.append_right new).trans (Muster.flatMap_amend rfl hf _).symm
      rw [inOrder_cons, List.foldr_cons]
      cases e with
      | handlesTaken t workers => simpa [Happening.muster, Muster.disposals] using ih
      | joined t i crashed =>
          cases crashed with
          | false => exact hadd fun _ => Muster.disposals_dispose i .joined
          | true => exact hadd fun _ => Muster.disposals_dispose i .crashed
      | detached t i => exact hadd fun _ => Muster.disposals_dispose i .detached
      | forsaken t i => exact hadd fun _ => Muster.disposals_dispose i .forsaken
      | returned t mode joined | brokenOff t joined =>
          exact hadd fun _ _ => (List.append_nil _).symm
      | _ => simpa [Happening.muster] using ih

/-- Where nothing is done with handles, the musters stay as they are. -/
theorem musters_of_trace {p q : Pool} {new : List Happening} (ht : q.trace = new ++ p.trace)
    (hnew : ∀ e ∈ new, ∀ l, e.muster l = l) : q.musters = p.musters := by
  rw [musters, ht, List.foldr_append, ← musters]
  clear ht
  induction new with
  | nil => rfl
  | cons e new ih =>
      rw [List.foldr_cons, hnew e (List.mem_cons_self ..)]
      exact ih fun e he => hnew e (List.mem_cons_of_mem _ he)

theorem musters_of_reclaim {p q : Pool} (h : p.reclaim = some q) : q.musters = p.musters := by
  obtain ⟨-, -, rfl⟩ := reclaim_cases h
  refine musters_of_trace rfl fun e he l => ?_
  obtain ⟨task, -, rfl⟩ := List.mem_map.mp (List.mem_reverse.mp he)
  rfl

theorem Blank.musters {p : Pool} (hb : Blank p) : p.musters = [] := by
  refine musters_of_trace (p := { p with trace := [] }) (List.append_nil _).symm fun e he l => ?_
  obtain ⟨e, rfl⟩ := hb.trace e he
  rfl

theorem WorkerMove.musters {p q : Pool} {i : Nat} {s s' : WorkerStage}
    (h : WorkerMove p i s q s') : (q.setStage i s').musters = p.musters := by
  cases h <;> rfl

theorem Entry.musters {p q : Pool} {s : CallStage} (h : Entry p q s) : q.musters = p.musters := by
  cases h <;> rfl

theorem musters_follow (p : Pool) (thread : ThreadId) (next : CallStep) :
    (p.follow thread next).musters = p.musters := by
  rw [musters, trace_follow, musters]

end Pool

/-! ## 2. What a move does with handles -/

/-- When this may be done with the handle of worker `i`: a thread joins only a worker whose thread
    has ended, never itself, and reports the one that a panic drove out; it lets itself go, and
    others only when what a dead worker left behind has exploded in its hands. -/
def Disposal.Fits (p : Pool) (t : ThreadId) (i : Nat) : Disposal → Prop
  | .joined => t ≠ .worker p.id i ∧ p.stages[i]? = some (.finished false)
  | .crashed => t ≠ .worker p.id i ∧ p.stages[i]? = some (.finished true) ∧
    .event (.workerCrashed i) ∈ p.trace
  | .detached => t = .worker p.id i ∧ .event (.selfDetached i) ∈ p.trace
  | .forsaken => ∃ payload, p.Exploded t payload

theorem Disposal.Fits.later {p q : Pool} (hl : Pool.Later p q) {t : ThreadId} {i : Nat}
    {d : Disposal} (h : d.Fits p t i) : d.Fits q t i := by
  cases d with
  | joined => exact ⟨hl.id ▸ h.1, hl.finished h.2⟩
  | crashed => exact ⟨hl.id ▸ h.1, hl.finished h.2.1, hl.mem_trace h.2.2⟩
  | detached => exact ⟨hl.id ▸ h.1, hl.mem_trace h.2⟩
  | forsaken => exact h.imp fun _ he => he.later hl

/-- Unless a panic ends its shutdown, a thread lets go of itself and of nobody else. -/
theorem Disposal.Fits.detached_iff {p : Pool} {t : ThreadId} {i : Nat} {d : Disposal}
    (h : d.Fits p t i) (hd : d ≠ .forsaken) : d = .detached ↔ t = .worker p.id i := by
  cases d with
  | joined | crashed => exact ⟨(fun e => by cases e), fun e => absurd e h.1⟩
  | detached => exact ⟨fun _ => h.1, fun _ => rfl⟩
  | forsaken => exact absurd rfl hd

/-- A call that has workers to join has a count of those it has joined. -/
theorem CallStage.joinees_of_tally {s : CallStage} (h : s.tally? = none) : s.joinees = [] := by
  cases s with
  | joining | unwinding => cases h
  | _ => rfl

namespace Pool

/-- What a move of `thread` inside a call does with handles. -/
inductive Mustering (p q : Pool) (thread : ThreadId) (s : CallStage) (next : CallStep) : Prop where
  /-- It starts a worker and keeps the handle. -/
  | starts (n : Nat) (refusal : Nat → Option SystemError) (hs : s = .spawning n refusal)
      (hn : next.tally? = none) (hi : next.joinees = []) (hh : q.handles = p.handles ++ [n])
      (hst : q.stages = p.stages ++ [.starting]) (hm : q.musters = p.musters)
  /-- It takes what handles there are. -/
  | takes (mode : Mode) (why : Purpose) (hs : s = .taking mode why) (hn : next.tally? = some 0)
      (hi : next.joinees = p.handles) (hh : q.handles = [])
      (hm : q.musters = { thread := thread, taken := p.handles } :: p.musters)
  /-- It disposes of its first handle. -/
  | disposes (i : Nat) (d : Disposal) (k : Nat) (hs : s.tally? = some k)
      (hn : next.tally? = some (if d = .joined then k + 1 else k))
      (hi : s.joinees = i :: next.joinees) (hd : d.Fits q thread i) (hh : q.handles = p.handles)
      (hm : q.musters = Muster.amend thread (·.dispose i d) p.musters)
  /-- It has no handle left and returns its count. -/
  | returns (k : Nat) (hs : s.tally? = some k) (hn : next.tally? = none) (hi : s.joinees = [])
      (hi' : next.joinees = []) (hh : q.handles = p.handles)
      (hm : q.musters = Muster.amend thread (·.tell k) p.musters)
  /-- It has no handle left, and a panic ends it. -/
  | breaks (k : Nat) (payload : Payload) (hs : s.tally? = some k) (hn : next.tally? = none)
      (hi : s.joinees = []) (hi' : next.joinees = []) (he : p.Exploded thread payload)
      (hh : q.handles = p.handles) (hm : q.musters = Muster.amend thread (·.lose k) p.musters)
  /-- It leaves handles alone. -/
  | keeps (hn : next.tally? = s.tally?) (hi : next.joinees = s.joinees)
      (hh : q.handles = p.handles) (hst : q.stages = p.stages) (hm : q.musters = p.musters)

section Move

variable {p q : Pool} {thread : ThreadId} {s : CallStage} {next : CallStep}

/-- **A move of a call does one of these with handles.** -/
theorem CallMove.mustering (h : CallMove p thread s q next) (ho : s.Fits p thread) :
    Mustering p q thread s next := by
  cases h with
  | spawns n refusal => exact .starts n refusal rfl rfl rfl rfl (by simp [stages]) rfl
  | takes mode why => exact .takes mode why rfl rfl rfl rfl rfl
  | detaches mode why first left joined ht =>
      exact .disposes first .detached joined rfl rfl rfl ⟨ht, by simp⟩ rfl rfl
  | joins mode why first left joined ht hs =>
      exact .disposes first .joined joined rfl rfl rfl ⟨ht, p.stageOf?_eq first ▸ hs⟩ rfl rfl
  | joinsCrashed mode why first left joined ht hs
  | joinsBurst mode why first left joined payload ht hs =>
      exact .disposes first .crashed joined rfl rfl rfl
        ⟨ht, p.stageOf?_eq first ▸ hs, by simp⟩ rfl rfl
  | forsakes why first left joined payload =>
      obtain ⟨-, i, hj, hf, hb⟩ := ho
      exact .disposes first .forsaken joined rfl rfl rfl
        ⟨payload, i, List.mem_cons_of_mem _ hj, hf, hb⟩ rfl rfl
  | breaksOff why joined payload =>
      cases why <;> exact .breaks joined payload rfl rfl rfl rfl ho.2 rfl rfl
  | concludes why joined | reports why joined =>
      cases why <;> exact .returns joined rfl rfl rfl rfl rfl rfl
  | findsDraining why => cases why <;> exact .keeps rfl rfl rfl rfl rfl
  | _ => exact .keeps rfl rfl rfl rfl rfl

end Move

end Pool

/-! ## 3. What the musters of a thread say -/

/-- The muster has these workers left: it has begun with those before them and has done with each
    what fits. -/
structure Muster.Leaves (p : Pool) (m : Muster) (left : List Nat) : Prop where
  all : m.disposed.map Prod.fst ++ left = m.taken
  fits : ∀ x ∈ m.disposed, x.2.Fits p m.thread x.1

/-- The shutdown has ended: no handle is left, and it has told how many it has joined, or a panic out
    of what a dead worker left behind has ended it and the count is lost. -/
structure Muster.Over (p : Pool) (m : Muster) : Prop where
  leaves : m.Leaves p []
  ended : m.told = some m.joined ∧ m.lost = none ∨
    m.told = none ∧ m.lost = some m.joined ∧ ∃ payload, p.Exploded m.thread payload

namespace Muster

variable {p q : Pool} {m : Muster}

theorem Leaves.later {left : List Nat} (h : m.Leaves p left) (hl : Pool.Later p q) :
    m.Leaves q left :=
  ⟨h.all, fun x hx => (h.fits x hx).later hl⟩

theorem Over.later (h : m.Over p) (hl : Pool.Later p q) : m.Over q where
  leaves := h.leaves.later hl
  ended := h.ended.imp_right fun ⟨ht, hk, payload, he⟩ => ⟨ht, hk, payload, he.later hl⟩

/-- One handle more. -/
theorem Leaves.dispose {i : Nat} {left : List Nat} (h : m.Leaves p (i :: left)) {d : Disposal}
    (hd : d.Fits p m.thread i) : (m.dispose i d).Leaves p left := by
  refine ⟨?_, fun x hx => ?_⟩
  · simpa [Muster.dispose] using h.all
  · rcases List.mem_append.mp hx with hx | hx
    · exact h.fits x hx
    · rw [List.mem_singleton.mp hx]
      exact hd

theorem joined_dispose (m : Muster) (i : Nat) (d : Disposal) :
    (m.dispose i d).joined = if d = .joined then m.joined + 1 else m.joined := by
  by_cases hd : d = .joined <;> simp [joined, Muster.dispose, hd]

end Muster

namespace Pool

/-- What a thread's musters say that has joined so many workers in a call and has these left to
    join: the newest muster is that of the call. Every other one is over, and so are all of them
    when the thread is not in a shutdown that has taken handles. -/
inductive Attends (p : Pool) (t : ThreadId) : Option Nat → List Nat → Prop where
  | during {m : Muster} {rest : List Muster} {left : List Nat} (hm : p.mustersBy t = m :: rest)
      (hl : m.Leaves p left) (ht : m.told = none ∧ m.lost = none) (ho : ∀ m ∈ rest, m.Over p) :
      Attends p t (some m.joined) left
  | idle (ho : ∀ m ∈ p.mustersBy t, m.Over p) : Attends p t none []

theorem Attends.later {p q : Pool} {t : ThreadId} {k : Option Nat} {left : List Nat}
    (h : p.Attends t k left) (hl : Later p q) (hm : q.mustersBy t = p.mustersBy t) :
    q.Attends t k left := by
  cases h with
  | during hm' hleft ht ho =>
      exact .during (hm.trans hm') (hleft.later hl) ht fun m hr => (ho m hr).later hl
  | idle ho => exact .idle fun m hr => (ho m (hm ▸ hr)).later hl

/-- What the musters of every thread say, inside a call and outside. -/
structure Mustered (p : Pool) : Prop where
  calls : ∀ c ∈ p.calls, p.Attends c.1 c.2.tally? c.2.joinees
  others : ∀ t ∉ p.callers, p.Attends t none []

theorem Attends.mustersBy_ne_nil {p : Pool} {t : ThreadId} {k : Nat} {left : List Nat}
    (h : p.Attends t (some k) left) : p.mustersBy t ≠ [] := by
  cases h with
  | during hm =>
      rw [hm]
      exact List.cons_ne_nil _ _

theorem thread_of_mustersBy {p : Pool} {t : ThreadId} {m : Muster} {rest : List Muster}
    (hm : p.mustersBy t = m :: rest) : m.thread = t := by
  have hmem : m ∈ p.mustersBy t := hm ▸ List.mem_cons_self ..
  simpa [mustersBy] using (List.mem_filter.mp hmem).2

section Move

variable {p q : Pool} {thread : ThreadId} {s : CallStage} {next : CallStep}

theorem mustersBy_congr (hm : q.musters = p.musters) (t : ThreadId) :
    q.mustersBy t = p.mustersBy t := by
  rw [mustersBy, hm, mustersBy]

/-- The musters of other threads stay as they are. -/
theorem Mustering.others (h : Mustering p q thread s next) {t : ThreadId} (ht : t ≠ thread) :
    q.mustersBy t = p.mustersBy t := by
  cases h with
  | starts _ _ _ _ _ _ _ hm | keeps _ _ _ _ hm => exact mustersBy_congr hm t
  | takes _ _ _ _ _ _ hm =>
      rw [mustersBy, hm, List.filter_cons_of_neg (by simpa using Ne.symm ht), mustersBy]
  | disposes i d _ _ _ _ _ _ hm =>
      rw [mustersBy, hm, Muster.filter_amend_of_ne (Muster.thread_dispose i d) ht, mustersBy]
  | returns k _ _ _ _ _ hm =>
      rw [mustersBy, hm, Muster.filter_amend_of_ne (Muster.thread_tell k) ht, mustersBy]
  | breaks k _ _ _ _ _ _ _ hm =>
      rw [mustersBy, hm, Muster.filter_amend_of_ne (Muster.thread_lose k) ht, mustersBy]

/-- **A thread inside a call keeps its muster up.** -/
theorem Mustering.attends (h : Mustering p q thread s next) (hl : Later p q)
    (ha : p.Attends thread s.tally? s.joinees) : q.Attends thread next.tally? next.joinees := by
  cases h with
  | starts n refusal hs hn hi hh hst hm =>
      subst hs
      rw [hn, hi]
      exact ha.later hl (mustersBy_congr hm thread)
  | keeps hn hi hh hst hm =>
      rw [hn, hi]
      exact ha.later hl (mustersBy_congr hm thread)
  | takes mode why hs hn hi hh hm =>
      subst hs
      rw [hn, hi]
      cases ha with
      | idle ho =>
          refine .during (m := { thread := thread, taken := p.handles }) ?_ ⟨rfl, by simp⟩ ⟨rfl, rfl⟩
            fun m hr => (ho m hr).later hl
          rw [mustersBy, hm, List.filter_cons_of_pos (by simp), mustersBy]
  | disposes i d k hs hn hi hd hh hm =>
      rw [hs, hi] at ha
      rw [hn]
      -- with workers joined or to join, the newest muster is that of this call
      cases ha with
      | @during m rest left hm' hleft ht ho =>
          have hthread := thread_of_mustersBy hm'
          rw [← Muster.joined_dispose m i d]
          refine .during ?_ ((hleft.later hl).dispose (hthread ▸ hd)) ht
            fun m hr => (ho m hr).later hl
          rw [mustersBy, hm]
          exact Muster.filter_amend_self (Muster.thread_dispose i d) hm'
  | returns k hs hn hi hi' hh hm =>
      rw [hs, hi] at ha
      rw [hn, hi']
      cases ha with
      | @during m rest left hm' hleft ht ho =>
          refine .idle fun m' hr => ?_
          rw [mustersBy, hm, Muster.filter_amend_self (Muster.thread_tell _) hm'] at hr
          rcases List.mem_cons.mp hr with rfl | hr
          · exact ⟨⟨hleft.all, (hleft.later hl).fits⟩, .inl ⟨rfl, ht.2⟩⟩
          · exact (ho m' hr).later hl
  | breaks k payload hs hn hi hi' he hh hm =>
      rw [hs, hi] at ha
      rw [hn, hi']
      cases ha with
      | @during m rest left hm' hleft ht ho =>
          have hthread := thread_of_mustersBy hm'
          refine .idle fun m' hr => ?_
          rw [mustersBy, hm, Muster.filter_amend_self (Muster.thread_lose _) hm'] at hr
          rcases List.mem_cons.mp hr with rfl | hr
          · exact ⟨⟨hleft.all, (hleft.later hl).fits⟩,
              .inr ⟨ht.1, rfl, payload, hthread ▸ he.later hl⟩⟩
          · exact (ho m' hr).later hl

end Move

/-! ## 4. Every thread -/

theorem Fresh.mustered {p : Pool} (h : Fresh p) : Mustered p := by
  have hb := h.blank
  obtain ⟨thread, refusal, hc⟩ := hb.calls
  have hnone (t : ThreadId) : p.Attends t none [] := .idle fun m hm => by
    rw [mustersBy, hb.musters] at hm
    cases hm
  refine ⟨fun c hm => ?_, fun t _ => hnone t⟩
  rw [hc] at hm
  rw [List.mem_singleton.mp hm]
  exact hnone thread

/-- Where calls and musters are as they were. -/
theorem Mustered.of_frame {p q : Pool} (hp : Mustered p) (hl : Later p q)
    (hc : q.calls = p.calls) (hm : q.musters = p.musters) : Mustered q := by
  refine ⟨fun c h => ?_, fun t ht => (hp.others t ?_).later hl (mustersBy_congr hm t)⟩
  · exact (hp.calls c (hc ▸ h)).later hl (mustersBy_congr hm c.1)
  · rwa [callers, hc] at ht

theorem Mustered.call {p q : Pool} {thread : ThreadId} {s : CallStage} {next : CallStep}
    (hp : Mustered p) (hf : orderly.Holds p) (hs : (thread, s) ∈ p.calls)
    (h : CallMove p thread s q next) : Mustered (q.follow thread next) := by
  obtain ⟨-, hcalls, -⟩ := h.frame
  have hl := h.later hf.toFormed hs
  have hmuster := h.mustering (hf.calls _ hs)
  have hfollow (t : ThreadId) : (q.follow thread next).mustersBy t = q.mustersBy t :=
    mustersBy_congr (musters_follow q thread next) t
  have hself : (q.follow thread next).Attends thread next.tally? next.joinees :=
    (hmuster.attends hl (hp.calls _ hs)).later (later_follow q thread next) (hfollow thread)
  have hother {t : ThreadId} (ht : t ≠ thread) {k : Option Nat} {left : List Nat}
      (ha : p.Attends t k left) : (q.follow thread next).Attends t k left :=
    ha.later (hl.trans (later_follow q thread next)) ((hfollow t).trans (hmuster.others ht))
  refine ⟨fun c hc => ?_, fun t ht => ?_⟩
  · rcases mem_follow hc with ⟨rfl, ht⟩ | ⟨hne, hc⟩
    · exact ht ▸ hself
    · exact hother hne (hp.calls c (hcalls ▸ hc))
  · by_cases he : t = thread
    · subst he
      cases next with
      | stage s' => exact absurd (List.mem_map_of_mem (mem_follow_self (hcalls.symm ▸ hs))) ht
      | reply r => exact hself
    · refine hother he (hp.others t fun hm => ht ?_)
      obtain ⟨c, hc, rfl⟩ := List.mem_map.mp hm
      exact List.mem_map_of_mem (mem_follow_of_ne (hcalls.symm ▸ hc) he)

theorem Mustered.change {p q : Pool} (hf : orderly.Holds p) (hp : Mustered p) (h : Change p q) :
    Mustered q := by
  have hl := h.later hf.toFormed
  cases h with
  | work hw h => exact hp.of_frame hl h.untouched.calls h.musters
  | call hlook h => exact hp.call hf (mem_of_lookup hlook) h
  | note n => exact hp.of_frame hl rfl rfl
  | wake i => exact hp.of_frame hl rfl rfl
  | reclaim h =>
      have hm := musters_of_reclaim h
      obtain ⟨-, -, rfl⟩ := reclaim_cases h
      exact hp.of_frame hl rfl hm
  | @enter thread q s hs ht h =>
      have hcalls : q.calls = p.calls := by cases h <;> rfl
      have hnew : s.tally? = none ∧ s.joinees = [] := by
        cases h with
        | asks mode => cases mode <;> exact ⟨rfl, rfl⟩
        | _ => exact ⟨rfl, rfl⟩
      have hmusters (t : ThreadId) : (q.enter thread s).mustersBy t = p.mustersBy t :=
        mustersBy_congr h.musters t
      refine ⟨fun c hc => ?_, fun t hn => ?_⟩
      · rcases List.mem_cons.mp hc with rfl | hc
        · rw [hnew.1, hnew.2]
          exact (hp.others thread ht).later hl (hmusters thread)
        · exact (hp.calls c (hcalls ▸ hc)).later hl (hmusters c.1)
      · refine (hp.others t fun hm => hn ?_).later hl (hmusters t)
        rw [callers_enter, callers, hcalls]
        exact List.mem_cons_of_mem _ hm

theorem mustered_invariant :
    Invariant fun p => ((Formed p ∧ exits.total p = 0) ∧ orderly.Holds p) ∧ Mustered p :=
  (orderly_kept.invariant exits_invariant).beside Fresh.mustered fun hI => Mustered.change hI.2

/-- A muster is over, or that of a call in progress. -/
theorem Mustered.cases {p : Pool} (hp : Mustered p) {m : Muster} (hm : m ∈ p.musters) :
    m.Over p ∨ (m.told = none ∧ m.lost = none) ∧ ∃ c ∈ p.calls, c.1 = m.thread ∧
      m.Leaves p c.2.joinees ∧ c.2.tally? = some m.joined := by
  have hmem : m ∈ p.mustersBy m.thread := List.mem_filter.mpr ⟨hm, by simp⟩
  by_cases ht : m.thread ∈ p.callers
  · obtain ⟨c, hc, ht⟩ := List.mem_map.mp ht
    have ha := hp.calls c hc
    rw [← ht] at hmem
    generalize hk : c.2.tally? = k at ha
    generalize hj : c.2.joinees = left at ha
    cases ha with
    | idle ho => exact .inl (ho m hmem)
    | during hm' hl htold ho =>
        rw [hm'] at hmem
        rcases List.mem_cons.mp hmem with rfl | hr
        · exact .inr ⟨htold, c, hc, ht, hj ▸ hl, hk⟩
        · exact .inl (ho m hr)
  · cases hp.others _ ht with
    | idle ho => exact .inl (ho m hmem)

/-- A call that has taken handles has a muster. -/
theorem Mustered.exists_muster {p : Pool} (hp : Mustered p) {c : ThreadId × CallStage}
    (hc : c ∈ p.calls) {k : Nat} (hk : c.2.tally? = some k) :
    ∃ m ∈ p.musters, m.thread = c.1 ∧ m.Leaves p c.2.joinees := by
  have ha := hp.calls c hc
  rw [hk] at ha
  generalize hj : c.2.joinees = left at ha
  cases ha with
  | @during m rest left hm hl ht ho =>
      have hmem : m ∈ p.mustersBy c.1 := hm ▸ List.mem_cons_self ..
      obtain ⟨hmem, hthread⟩ := List.mem_filter.mp hmem
      exact ⟨m, hmem, by simpa using hthread, hl⟩

end Pool

end WorkerPool
