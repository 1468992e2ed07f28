import WorkerPool.Proofs.Later

/-!
# Workers by number

The trace and the queue of a pool name workers by their numbers, so some of what is known of a
worker is known of its number: what it has taken, what it has begun, that it sleeps. A roll says
such a thing of every number, beside the stage of the worker that has it. A worker that moves
changes the line of its own number; the other lines have to stand it.

* `Pool.Roll` -- what is said of every number, `Roll.Reads` -- that it holds of a pool;
* `Roll.Kept` -- what has to be shown of it, move by move;
* `Kept.change`, `Kept.invariant` -- every change then keeps it.
-/

namespace WorkerPool

namespace Pool

/-- What is said in a pool of the worker of a number at its stage; of a number that no worker has,
    at `none`. -/
abbrev Roll := Pool → Nat → Option WorkerStage → Prop

namespace Roll

/-- The roll is right about every number. -/
def Reads (R : Roll) (p : Pool) : Prop := ∀ i, R p i p.stages[i]?

/-- **Every move keeps the roll right**, in pools of which `I` holds. -/
structure Kept (R : Roll) (I : Pool → Prop) : Prop where
  own : ∀ {p q : Pool} {i : Nat} {s s' : WorkerStage}, I p → R p i (some s) →
    WorkerMove p i s q s' → R q i (some s')
  other : ∀ {p q : Pool} {i j : Nat} {s s' : WorkerStage} {o : Option WorkerStage}, I p → j ≠ i →
    WorkerMove p i s q s' → R p j o → R q j o
  /-- A worker that has just been started. -/
  recruit : ∀ {p : Pool} {i : Nat}, R p i none → R p i (some .starting)
  call : ∀ {p q : Pool} {thread : ThreadId} {s : CallStage} {next : CallStep} {i : Nat}
    {o : Option WorkerStage}, I p → CallMove p thread s q next → R p i o → R q i o
  enter : ∀ {p q : Pool} {s : CallStage} {i : Nat} {o : Option WorkerStage}, Entry p q s →
    R p i o → R q i o
  note : ∀ {p : Pool} {i : Nat} {o : Option WorkerStage} (n : Note), R p i o →
    R (p.log (.note n)) i o
  wake : ∀ {p : Pool} {i : Nat} {o : Option WorkerStage} (k : Nat), R p i o →
    R { p with queue := p.queue.wake k } i o
  reclaim : ∀ {p q : Pool} {i : Nat} {o : Option WorkerStage}, p.reclaim = some q → R p i o →
    R q i o
  /-- Where threads are is said by the stage alone. -/
  placed : ∀ {p : Pool} {i : Nat} {o : Option WorkerStage} (workers : List Worker)
    (calls : List (ThreadId × CallStage)), R p i o →
    R { p with workers := workers, calls := calls } i o

variable {R : Roll} {I : Pool → Prop}

/-- **A change keeps the roll right.** -/
theorem Kept.change (hk : R.Kept I) {p q : Pool} (hI : I p) (hp : R.Reads p) (h : Change p q) :
    R.Reads q := by
  intro k
  have hold := hp k
  cases h with
  | @work i worker r s hw h =>
      have hs : p.stages[i]? = some worker.stage := stages_getElem?.mpr ⟨worker, hw, rfl⟩
      refine hk.placed _ _ ?_
      rw [World.stages_setStage, h.untouched.stages]
      by_cases hik : i = k
      · subst hik
        rw [World.set_of_getElem? hs]
        exact hk.own hI (hs ▸ hold) h
      · rw [List.getElem?_set_ne hik]
        exact hk.other hI (Ne.symm hik) h hold
  | @call thread s r next hl h =>
      obtain ⟨-, -, hst⟩ := h.frame
      have hsame : R (r.follow thread next) k p.stages[k]? := by
        cases next <;> exact hk.placed _ _ (hk.call hI h hold)
      rw [stages_follow]
      rcases hst with e | ⟨-, e⟩
      · rwa [e]
      · -- a number without a worker may get one
        rw [e, List.getElem?_append]
        split
        · exact hsame
        · next hlt =>
          rw [List.getElem?_eq_none_iff.mpr (Nat.le_of_not_lt hlt)] at hsame
          cases hn : k - p.stages.length with
          | zero => exact hk.recruit hsame
          | succ n => exact hsame
  | @enter thread r s hs ht h =>
      have hst : r.stages = p.stages := by cases h <;> rfl
      refine hk.placed r.workers _ (hk.enter h ?_)
      rw [show (r.enter thread s).stages = p.stages from hst]
      exact hold
  | note n => exact hk.note n hold
  | wake i => exact hk.wake i hold
  | reclaim h =>
      have hst : q.stages = p.stages := by
        obtain ⟨-, -, rfl⟩ := reclaim_cases h
        rfl
      rw [hst]
      exact hk.reclaim h hold

/-- **A kept roll is an invariant** if it is right of new pools, beside the invariant that its moves
    need. -/
theorem Kept.invariant (hk : R.Kept I) (hI : Invariant I)
    (hf : ∀ {p : Pool}, Fresh p → ∀ i, R p i none) : Invariant fun p => I p ∧ R.Reads p :=
  hI.beside (fun h i => by
    rw [h.blank.stages]
    exact hf h i) fun hp hr hc => hk.change hp hr hc

end Roll

end Pool

end WorkerPool
