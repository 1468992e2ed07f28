import WorkerPool.Proofs.CallTermination

/-!
# What is done to a pool that is not to be

The thread that makes a pool asks for one worker after the other. At the first refusal it shuts down
what is there, by the same steps that shut down a whole pool, and gives the pool up. Here the steps
are counted: which workers were asked for, how many are there, which shutdowns have begun and which
have returned, with how many workers joined.

* `Pool.Tally` -- these counts; `Pool.Undone` -- what is left in the end;
* `CallStage.Stops`, `CallMove.stops` -- the counts along an immediate shutdown;
* `forming`, `aborting`, `stopping`, `dropping` -- the errands: making a pool that can be had and one
  that cannot, shutting a whole pool down at once, giving up one that is shut down.
-/

namespace WorkerPool

namespace Pool

/-! ## 1. Counts -/

/-- The workers whose threads were asked for, how many workers there are, and the shutdowns that have
    begun and returned. -/
structure Tally (p : Pool) (tried started : Nat) (begun : List (ThreadId × Mode))
    (past : List (ThreadId × Mode × Nat)) : Prop where
  tries : p.tries = List.range tried
  stages : p.stages.length = started
  shutdowns : p.shutdowns = begun
  returns : p.returns = past

/-- The pool has its first workers and their handles, and no shutdown has begun. -/
structure Intact (p : Pool) (tried started : Nat) : Prop extends p.Tally tried started [] [] where
  handles : p.handles.length = started

/-- What is left of a pool that was shut down and given up: the workers `0, …, tried - 1` were asked
    for, in this order, `started` of them were there, and all have exited. No task ever came near
    the pool. One shutdown has begun, an immediate one by `thread`, and it has returned and joined
    every worker. -/
structure Undone (p : Pool) (thread : ThreadId) (tried started : Nat) : Prop
    extends p.Tally tried started [(thread, .immediate)] [(thread, .immediate, started)] where
  life : p.life = .released
  exited : p.AllExited
  untouched : ∀ e ∈ p.trace, e.ofTask = false

section Counts

variable {p q : Pool} {thread : ThreadId} {tried started : Nat} {begun : List (ThreadId × Mode)}
  {past : List (ThreadId × Mode × Nat)}

theorem Tally.unmoved (h : p.Tally tried started begun past) (hu : p.Unmoved q) :
    q.Tally tried started begun past :=
  ⟨hu.tries.trans h.tries, hu.stages.trans h.stages, hu.shutdowns.trans h.shutdowns,
    hu.returns.trans h.returns⟩

/-- The counts after some more has happened. -/
theorem Tally.log (new : List Happening) {tried' started' : Nat} {begun' : List (ThreadId × Mode)}
    {past' : List (ThreadId × Mode × Nat)} (h : p.Tally tried started begun past)
    (hq : q.trace = new ++ p.trace) (hst : q.stages.length = started')
    (ht : List.range tried ++ inOrder Happening.tries? new = List.range tried')
    (hb : begun ++ inOrder Happening.shuts? new = begun')
    (ho : past ++ inOrder Happening.returns? new = past') :
    q.Tally tried' started' begun' past' where
  tries := by rw [Pool.tries, hq, inOrder_append, ← ht, ← h.tries, Pool.tries]
  stages := hst
  shutdowns := by rw [Pool.shutdowns, hq, inOrder_append, ← hb, ← h.shutdowns, Pool.shutdowns]
  returns := by rw [Pool.returns, hq, inOrder_append, ← ho, ← h.returns, Pool.returns]

/-- What happens beside has no part in the counts. -/
theorem Tally.beside (new : List Happening) (h : p.Tally tried started begun past)
    (hq : q.trace = new ++ p.trace) (hst : q.stages = p.stages)
    (ht : inOrder Happening.tries? new = []) (hb : inOrder Happening.shuts? new = [])
    (ho : inOrder Happening.returns? new = []) : q.Tally tried started begun past :=
  h.log new hq (hst ▸ h.stages) (by rw [ht, List.append_nil]) (by rw [hb, List.append_nil])
    (by rw [ho, List.append_nil])

theorem Intact.unmoved (h : p.Intact tried started) (hu : p.Unmoved q) : q.Intact tried started :=
  ⟨h.toTally.unmoved hu, (congrArg List.length hu.handles).trans h.handles⟩

/-- A shutdown that was begun has raised the draining flag. -/
theorem Tally.draining (h : p.Tally tried started [(thread, .immediate)] past) (hf : Flagged p) :
    p.draining = true := by
  have hm : (thread, Mode.immediate) ∈ p.shutdowns := h.shutdowns ▸ List.mem_cons_self ..
  obtain ⟨e, he, hcalled⟩ := mem_inOrder.mp hm
  cases e with
  | called t mode =>
      cases hcalled
      exact hf.draining he
  | _ => cases hcalled

/-- **A pool that was shut down at once and given up is undone**: when the shutdown returned to a
    thread outside the pool, every worker had exited. -/
theorem Tally.undone (h : p.Tally tried started [(thread, .immediate)]
      [(thread, .immediate, started)]) (ho : orderly.Holds p) (hc : p.Custody thread)
    (hlife : p.life = .released) : p.Undone thread tried started := by
  have hm : (thread, Mode.immediate, started) ∈ p.returns := h.returns ▸ List.mem_cons_self ..
  obtain ⟨e, he, hreturned⟩ := mem_inOrder.mp hm
  have howns : p.owns thread = false := by
    cases thread with
    | caller i => rfl
    | worker j i =>
        have hj : ¬ j = p.id := fun e => hc.outside i (e ▸ rfl)
        simp [owns, hj]
  cases e with
  | returned t mode n =>
      cases hreturned
      exact ⟨h, hlife, (ho.shared.returned he).exited howns, hc.untouched⟩
  | _ => cases hreturned

end Counts

end Pool

open Pool (Tally Intact CallMove)

/-! ## 2. An immediate shutdown -/

/-- The counts along an immediate shutdown by `thread`, of a pool of `started` workers: it has the
    handles of all of them, and joins one after the other. -/
def CallStage.Stops (p : Pool) (thread : ThreadId) (tried started : Nat) (why : Purpose) :
    CallStage → Prop
  | .raising w => w = why ∧ p.Intact tried started
  | .halting w | .announcing .immediate w | .closing .immediate w | .taking .immediate w =>
    w = why ∧ p.Tally tried started [(thread, .immediate)] [] ∧ p.handles.length = started
  | .joining .immediate w left joined =>
    w = why ∧ p.Tally tried started [(thread, .immediate)] [] ∧ left.length + joined = started
  | .emptying w joined | .reporting w joined =>
    w = why ∧ p.Tally tried started [(thread, .immediate)] [] ∧ joined = started
  | _ => False

/-- What holds along an immediate shutdown and where it has returned. -/
def CallStep.Stops (p : Pool) (thread : ThreadId) (tried started : Nat) (why : Purpose)
    (next : CallStep) : Prop :=
  (∃ s, next = .stage s ∧ s.Stops p thread tried started why) ∨
    next = why.afterwards ∧
      p.Tally tried started [(thread, .immediate)] [(thread, .immediate, started)]

section Stopping

variable {p q : Pool} {thread : ThreadId} {tried started : Nat} {why : Purpose} {s : CallStage}
  {next : CallStep}

theorem CallStage.Stops.errand (h : s.Stops p thread tried started why) :
    s.isErrand = true ∧ p.stages.length = started := by
  cases s with
  | raising w => exact ⟨rfl, h.2.stages⟩
  | halting w | emptying w joined | reporting w joined => exact ⟨rfl, h.2.1.stages⟩
  | announcing mode w | closing mode w | taking mode w | joining mode w left joined =>
      cases mode with
      | graceful => exact h.elim
      | immediate => exact ⟨rfl, h.2.1.stages⟩
  | _ => exact h.elim

theorem CallStage.Stops.unmoved (h : s.Stops p thread tried started why) (hu : p.Unmoved q) :
    s.Stops q thread tried started why := by
  have hhandles : q.handles.length = p.handles.length := congrArg List.length hu.handles
  cases s with
  | raising w => exact ⟨h.1, h.2.unmoved hu⟩
  | halting w => exact ⟨h.1, h.2.1.unmoved hu, hhandles.trans h.2.2⟩
  | emptying w joined | reporting w joined => exact ⟨h.1, h.2.1.unmoved hu, h.2.2⟩
  | announcing mode w | closing mode w | taking mode w =>
      cases mode with
      | graceful => exact h.elim
      | immediate => exact ⟨h.1, h.2.1.unmoved hu, hhandles.trans h.2.2⟩
  | joining mode w left joined =>
      cases mode with
      | graceful => exact h.elim
      | immediate => exact ⟨h.1, h.2.1.unmoved hu, h.2.2⟩
  | _ => exact h.elim

/-- **The counts of an immediate shutdown are right move by move.** No worker was driven out by a
    panic and the thread is none of them, so each handle is one worker joined. -/
theorem Pool.CallMove.stops (h : CallMove p thread s q next) (hc : p.Custody thread)
    (hs : s.Stops p thread tried started why) :
    next.Stops q thread tried started why ∧ q.life = p.life := by
  cases h with
  | raises w =>
      obtain ⟨rfl, hi⟩ := hs
      have ht := hi.toTally.log (q := { p with draining := true }.log (.called thread .immediate))
        [_] rfl hi.stages (List.append_nil _) rfl rfl
      exact ⟨.inl ⟨_, rfl, rfl, ht, hi.handles⟩, rfl⟩
  | halts w =>
      obtain ⟨rfl, ht, hh⟩ := hs
      exact ⟨.inl ⟨_, rfl, rfl, ht.beside [_] rfl rfl rfl rfl rfl, hh⟩, rfl⟩
  | announces mode w e =>
      cases mode with
      | graceful => exact hs.elim
      | immediate =>
          obtain ⟨rfl, ht, hh⟩ := hs
          exact ⟨.inl ⟨_, rfl, rfl, ht.beside [_] rfl rfl rfl rfl rfl, hh⟩, rfl⟩
  | closes mode w =>
      cases mode with
      | graceful => exact hs.elim
      | immediate =>
          obtain ⟨rfl, ht, hh⟩ := hs
          exact ⟨.inl ⟨_, rfl, rfl, ht.beside [] rfl rfl rfl rfl rfl, hh⟩, rfl⟩
  | takes mode w =>
      cases mode with
      | graceful => exact hs.elim
      | immediate =>
          obtain ⟨rfl, ht, hh⟩ := hs
          exact ⟨.inl ⟨_, rfl, rfl, ht.beside [_] rfl rfl rfl rfl rfl, hh⟩, rfl⟩
  | detaches mode w first left joined ht => exact absurd ht (hc.outside first)
  | joins mode w first left joined =>
      cases mode with
      | graceful => exact hs.elim
      | immediate =>
          obtain ⟨rfl, ht, hsum⟩ := hs
          refine ⟨.inl ⟨_, rfl, rfl, ht.beside [_] rfl rfl rfl rfl rfl, ?_⟩, rfl⟩
          rw [List.length_cons] at hsum
          omega
  | joinsCrashed mode w first left joined ht hcrash
  | joinsBurst mode w first left joined payload ht hcrash =>
      exact absurd hcrash (hc.not_crashed first)
  | waitsToEmpty w joined =>
      obtain ⟨rfl, ht, hsum⟩ := hs
      exact ⟨.inl ⟨_, rfl, rfl, ht, by simpa using hsum⟩, rfl⟩
  | findsEmpty w joined =>
      obtain ⟨rfl, ht, hsum⟩ := hs
      exact ⟨.inl ⟨_, rfl, rfl, ht.beside [_] rfl rfl rfl rfl rfl, hsum⟩, rfl⟩
  | empties w joined hne => exact absurd hc.items hne
  | reports w joined e =>
      obtain ⟨rfl, ht, rfl⟩ := hs
      exact ⟨.inr ⟨rfl, ht.log [_, _] rfl ht.stages (List.append_nil _)
        (List.append_nil _) rfl⟩, rfl⟩
  | _ => exact hs.elim

end Stopping

/-! ## 3. Giving up what is shut down -/

/-- The counts while `thread` gives up a pool that it has shut down, to go on with this outcome. -/
def CallStage.Drops (p : Pool) (thread : ThreadId) (tried started : Nat) (outcome : Reply) :
    CallStage → Prop
  | .dropping o | .releasing o =>
    o = outcome ∧ p.Tally tried started [(thread, .immediate)] [(thread, .immediate, started)]
  | _ => False

/-- The pool was shut down and given up, and this is the outcome. -/
def Pool.Dropped (thread : ThreadId) (tried started : Nat) (outcome : Reply) (p : Pool)
    (r : Reply) : Prop :=
  r = outcome ∧ p.life = .released ∧
    p.Tally tried started [(thread, .immediate)] [(thread, .immediate, started)]

section Dropping

variable {p q : Pool} {thread : ThreadId} {tried started : Nat} {outcome : Reply} {s : CallStage}
  {next : CallStep}

theorem CallStage.Drops.errand (h : s.Drops p thread tried started outcome) :
    s.isErrand = true ∧ p.stages.length = started := by
  cases s with
  | dropping o | releasing o => exact ⟨rfl, h.2.stages⟩
  | _ => exact h.elim

theorem CallStage.Drops.unmoved (h : s.Drops p thread tried started outcome) (hu : p.Unmoved q) :
    s.Drops q thread tried started outcome := by
  cases s with
  | dropping o | releasing o => exact ⟨h.1, h.2.unmoved hu⟩
  | _ => exact h.elim

/-- **Giving up a pool that is shut down begins no second shutdown.** -/
theorem Pool.CallMove.drops (h : CallMove p thread s q next) (hf : p.Flagged)
    (hs : s.Drops p thread tried started outcome) :
    next.Leaves (fun q s => s.Drops q thread tried started outcome)
      (Pool.Dropped thread tried started outcome) q := by
  cases h with
  | findsShut o hd => exact hs
  | shutsFirst o hd =>
      rw [hs.2.draining hf] at hd
      cases hd
  | releases o => exact ⟨hs.1, rfl, hs.2.beside [] rfl rfl rfl rfl rfl⟩
  | _ => exact hs.elim

end Dropping

/-! ## 4. Errands -/

/-- The counts while a pool is made that can be had. -/
def CallStage.Forms (refusal : Nat → Option SystemError) (size : Nat) (p : Pool) :
    CallStage → Prop
  | .spawning next r => r = refusal ∧ next ≤ size ∧ p.size = size ∧ p.Intact next next
  | .opening => p.Intact size size
  | _ => False

/-- The counts while a pool is made that cannot be had, because the thread of worker `k` will be
    refused. -/
def CallStage.Aborts (refusal : Nat → Option SystemError) (thread : ThreadId) (k : Nat)
    (cause : SystemError) (p : Pool) (s : CallStage) : Prop :=
  (∃ next, s = .spawning next refusal ∧ next ≤ k ∧ k < p.size ∧ p.Intact next next) ∨
  s.Stops p thread (k + 1) k (.startFailed k cause) ∨
  s.Drops p thread (k + 1) k (.failed (.spawn k cause))

/-- The pool takes calls, and these are its workers. -/
def Pool.Had (size : Nat) (p : Pool) (r : Reply) : Prop :=
  r = .pool p.id ∧ p.life = .serving ∧ p.Intact size size

/-- The counts while `thread` shuts a whole pool down at once. -/
def CallStage.Halts (thread : ThreadId) (size : Nat) (p : Pool) (s : CallStage) : Prop :=
  s.Stops p thread size size .asked ∧ p.life = .serving

/-- The pool is shut down. -/
def Pool.Halted (thread : ThreadId) (size : Nat) (p : Pool) (r : Reply) : Prop :=
  r = .done ∧ p.life = .serving ∧
    p.Tally size size [(thread, .immediate)] [(thread, .immediate, size)]

namespace Pool

section Errands

variable {thread : ThreadId} {refusal : Nat → Option SystemError} {size k : Nat}
  {cause : SystemError}

/-- One worker more was asked for and is there. -/
theorem Intact.spawn {p : Pool} {n : Nat} (h : p.Intact n n) :
    Intact { p.log (.spawnTried n) with
      workers := p.workers ++ [{}], handles := p.handles ++ [n] } (n + 1) (n + 1) where
  toTally := h.toTally.log [_] rfl
    (by simpa [stages] using h.stages) List.range_succ.symm rfl rfl
  handles := by simpa using h.handles

/-- **A pool that meets no refusal is made.** -/
theorem forming (hgrant : ∀ i < size, refusal i = none) :
    Errand thread size (fun p s => s.Forms refusal size p) (Had size) where
  during {p s} h := by
    cases s with
    | spawning next r => exact ⟨rfl, h.2.2.2.stages ▸ h.2.1⟩
    | opening => exact ⟨rfl, Nat.le_of_eq h.stages⟩
    | _ => exact h.elim
  after h := Nat.le_of_eq h.2.2.stages
  steady {p q next} hu h := by
    cases next with
    | reply r => exact ⟨hu.id ▸ h.1, hu.life ▸ h.2.1, h.2.2.unmoved hu⟩
    | stage s =>
        cases s with
        | spawning next r => exact ⟨h.1, h.2.1, hu.size.trans h.2.2.1, h.2.2.2.unmoved hu⟩
        | opening => exact Intact.unmoved h hu
        | _ => exact h.elim
  move {p q s next} _ _ hs h := by
    cases h with
    | spawns n r hn hr =>
        obtain ⟨rfl, hle, hsize, hi⟩ := hs
        exact ⟨rfl, hsize ▸ hn, hsize, hi.spawn⟩
    | spawnFails n r c hn hr =>
        obtain ⟨rfl, hle, hsize, hi⟩ := hs
        rw [hgrant n (hsize ▸ hn)] at hr
        cases hr
    | spawned n r hn =>
        obtain ⟨rfl, hle, hsize, hi⟩ := hs
        obtain rfl : n = size := Nat.le_antisymm hle (hsize ▸ hn)
        exact hi
    | opens =>
        have hi : p.Intact size size := hs
        exact ⟨rfl, rfl, hi.toTally.beside [_] rfl rfl rfl rfl rfl, hi.handles⟩
    | _ => exact hs.elim

/-- **A pool that meets a refusal is unmade**: the shutdown of what is there and the end are those of
    a whole pool. -/
theorem aborting (hfirst : ∀ i < k, refusal i = none) (hk : refusal k = some cause) :
    Errand thread k (fun p s => s.Aborts refusal thread k cause p)
      (Dropped thread (k + 1) k (.failed (.spawn k cause))) where
  during {p s} h := by
    rcases h with ⟨next, rfl, hle, -, hi⟩ | h | h
    · exact ⟨rfl, hi.stages ▸ hle⟩
    · exact ⟨h.errand.1, Nat.le_of_eq h.errand.2⟩
    · exact ⟨h.errand.1, Nat.le_of_eq h.errand.2⟩
  after h := Nat.le_of_eq h.2.2.stages
  steady {p q next} hu h := by
    cases next with
    | reply r => exact ⟨h.1, hu.life ▸ h.2.1, h.2.2.unmoved hu⟩
    | stage s =>
        rcases h with ⟨next, rfl, hle, hlt, hi⟩ | h | h
        · exact .inl ⟨next, rfl, hle, hu.size.symm ▸ hlt, hi.unmoved hu⟩
        · exact .inr (.inl (h.unmoved hu))
        · exact .inr (.inr (h.unmoved hu))
  move {p q s next} hc hf hs h := by
    rcases hs with ⟨n, rfl, hle, hlt, hi⟩ | hs | hs
    · cases h with
      | spawns _ _ hn hr =>
          have hne : n ≠ k := by
            rintro rfl
            rw [hk] at hr
            cases hr
          exact .inl ⟨n + 1, rfl, Nat.lt_of_le_of_ne hle hne, hlt, hi.spawn⟩
      | spawnFails _ _ c hn hr =>
          obtain rfl : n = k := by
            by_contra hne
            rw [hfirst n (Nat.lt_of_le_of_ne hle hne)] at hr
            cases hr
          obtain rfl : c = cause := Option.some.inj (hr.symm.trans hk)
          refine .inr (.inl ⟨rfl, ?_, hi.handles⟩)
          exact hi.toTally.log [_, _] rfl hi.stages List.range_succ.symm rfl rfl
      | spawned _ _ hn => exact absurd hlt (Nat.not_lt_of_le (Nat.le_trans hn hle))
    · obtain ⟨⟨s', rfl, hs'⟩ | ⟨rfl, ht⟩, -⟩ := h.stops hc hs
      · exact .inr (.inl hs')
      · exact .inr (.inr ⟨rfl, ht⟩)
    · have hd := h.drops hf hs
      cases next with
      | stage s' => exact .inr (.inr hd)
      | reply r => exact hd

/-- **A whole pool is shut down.** -/
theorem halting : Errand thread size (fun p s => s.Halts thread size p) (Halted thread size) where
  during h := ⟨h.1.errand.1, Nat.le_of_eq h.1.errand.2⟩
  after h := Nat.le_of_eq h.2.2.stages
  steady {p q next} hu h := by
    cases next with
    | reply r => exact ⟨h.1, hu.life ▸ h.2.1, h.2.2.unmoved hu⟩
    | stage s => exact ⟨h.1.unmoved hu, hu.life ▸ h.2⟩
  move {p q s next} hc _ hs h := by
    obtain ⟨⟨s', rfl, hs'⟩ | ⟨rfl, ht⟩, hlife⟩ := h.stops hc hs.1
    · exact ⟨hs', hlife.trans hs.2⟩
    · exact ⟨rfl, hlife.trans hs.2, ht⟩

/-- **A pool that is shut down is given up.** -/
theorem dropping : Errand thread size (fun p s => s.Drops p thread size size .done)
    (Dropped thread size size .done) where
  during h := ⟨h.errand.1, Nat.le_of_eq h.errand.2⟩
  after h := Nat.le_of_eq h.2.2.stages
  steady {p q next} hu h := by
    cases next with
    | reply r => exact ⟨h.1, hu.life ▸ h.2.1, h.2.2.unmoved hu⟩
    | stage s => exact CallStage.Drops.unmoved h hu
  move _ hf hs h := h.drops hf hs

end Errands

end Pool

end WorkerPool
