import WorkerPool.World

/-!
# Pools seen without their metrics

A view of a world changes two things in it: what programs hear when they read a metric, and whether
pools have metrics at all. Everything else stays.

* `View` -- what programs hear of metrics, and whether there are any;
* `Program.hearing`, `Pool.seen` -- a program and a pool in a view;
* `Queue.map` -- a queue of other items at the same places; a queue hands items on without looking
  into them.
-/

namespace WorkerPool

/-- A way to look at a world. -/
structure View where
  /-- What a program hears in place of this value of a metric. -/
  hear : Nat → Nat
  /-- Metrics are seen. -/
  keep : Bool

/-! ## 1. Programs -/

/-- What the call's reply is heard as, if metrics are heard through `f`. -/
def Call.hear (f : Nat → Nat) : Call → Reply → Reply
  | .read _ (.metric _), .number n => .number (f n)
  | _, r => r

/-- Only the value of a metric is heard otherwise than it is told. -/
theorem Call.hear_of_ne {f : Nat → Nat} {c : Call}
    (hc : ∀ id counter, c ≠ .read id (.metric counter)) (r : Reply) : c.hear f r = r := by
  unfold hear
  split
  · exact absurd rfl (hc _ _)
  · rfl

theorem Call.hear_gone (f : Nat → Nat) (c : Call) : c.hear f .gone = .gone := by
  unfold hear
  split
  · contradiction
  · rfl

/-- The program that hears metrics through `f`, in its tasks too. -/
def Program.hearing (f : Nat → Nat) : Program → Program
  | .finish answers => .finish answers
  | .panic payload => .panic payload
  | .submit pool label work next =>
    .submit pool label (work.hearing f) fun r => (next r).hearing f
  | .make label work next => .make label (work.hearing f) fun r => (next r).hearing f
  | .call c next => .call c fun r => (next (c.hear f r)).hearing f

/-- Hearing metrics as they are changes nothing. -/
theorem Program.hearing_id (p : Program) : p.hearing (fun n => n) = p := by
  have hear_id (c : Call) (r : Reply) : c.hear (fun n => n) r = r := by
    unfold Call.hear
    split <;> rfl
  induction p with
  | finish | panic => rfl
  | submit pool label work next hw hn | make label work next hw hn =>
      simp only [hearing, hw, hn]
  | call c next hn => simp only [hearing, hear_id, hn]

def Task.hearing (f : Nat → Nat) (t : Task) : Task := { t with work := t.work.hearing f }

def Activity.hearing (f : Nat → Nat) : Activity → Activity
  | .going rest => .going (rest.hearing f)
  | .inside id next => .inside id fun r => (next r).hearing f
  | .asleep wakeAt next => .asleep wakeAt fun r => (next r).hearing f

def WorkerStage.hearing (f : Nat → Nat) : WorkerStage → WorkerStage
  | .rechecking task => .rechecking (task.hearing f)
  | .abandoning task => .abandoning (task.hearing f)
  | .discarding task => .discarding (task.hearing f)
  | .ready task => .ready (task.hearing f)
  | .running job activity => .running job (activity.hearing f)
  | stage => stage

def Worker.hearing (f : Nat → Nat) (w : Worker) : Worker := { w with stage := w.stage.hearing f }

def CallStage.hearing (f : Nat → Nat) : CallStage → CallStage
  | .checking task => .checking (task.hearing f)
  | .pushing task => .pushing (task.hearing f)
  | .refusing id kept => .refusing id (kept.map (·.hearing f))
  | .rejecting id kept => .rejecting id (kept.map (·.hearing f))
  | .tallying why joined removed => .tallying why joined (removed.map (·.hearing f))
  | .recording why joined removed => .recording why joined (removed.map (·.hearing f))
  | .discarding why joined removed => .discarding why joined (removed.map (·.hearing f))
  | stage => stage

/-- The step in a view: a thread that begins hears metrics through `f`. -/
def Label.hearing (f : Nat → Nat) : Label → Label
  | .fork program => .fork (program.hearing f)
  | l => l

@[simp] theorem Task.hearing_id (t : Task) : t.hearing (fun n => n) = t :=
  congrArg (fun work => { t with work := work }) (Program.hearing_id t.work)

@[simp] theorem Activity.hearing_id (a : Activity) : a.hearing (fun n => n) = a := by
  cases a <;> simp [hearing, Program.hearing_id]

@[simp] theorem WorkerStage.hearing_id (s : WorkerStage) : s.hearing (fun n => n) = s := by
  cases s <;> simp [hearing]

@[simp] theorem CallStage.hearing_id (s : CallStage) : s.hearing (fun n => n) = s := by
  cases s <;> simp [hearing]

@[simp] theorem Worker.hearing_id (w : Worker) : w.hearing (fun n => n) = w := by
  simp [hearing]

@[simp] theorem Label.hearing_id (l : Label) : l.hearing (fun n => n) = l := by
  cases l <;> simp [hearing, Program.hearing_id]

/-! ## 2. Queues -/

namespace Queue

variable {α β : Type}

/-- The queue with `f` done to every item. -/
def map (f : α → β) (q : Queue α) : Queue β where
  items := q.items.map f
  accepting := q.accepting
  sleeping := q.sleeping
  woken := q.woken

/-- What was found, with `f` done to the item. -/
def Found.map (f : α → β) : Found α → Found β
  | .item a => .item (f a)
  | .nothingMore => .nothingMore
  | .sleep => .sleep

variable (f : α → β) (q : Queue α)

@[simp] theorem length_map : (q.map f).length = q.length := List.length_map f

theorem wake_map (who : Nat) : (q.map f).wake who = (q.wake who).map f := by
  unfold wake map
  split <;> rfl

theorem wakeOne_map (choice : Nat) : (q.map f).wakeOne choice = (q.wakeOne choice).map f := by
  unfold wakeOne
  rw [show (q.map f).sleeping = q.sleeping from rfl]
  split
  · rfl
  · exact wake_map f q _

theorem push_map (a : α) (choice : Nat) :
    (q.map f).push (f a) choice = ((q.push a choice).1.map f, (q.push a choice).2) := by
  unfold push
  rw [show (q.map f).accepting = q.accepting from rfl]
  split
  · refine Prod.ext ?_ rfl
    rw [← wakeOne_map]
    simp [map]
  · rfl

theorem attempt_map (who : Nat) :
    (q.map f).attempt who = ((q.attempt who).1.map f, (q.attempt who).2.map f) := by
  obtain ⟨items, accepting, sleeping, woken⟩ := q
  cases items with
  | cons a rest => rfl
  | nil => cases accepting <;> rfl

end Queue

/-! ## 3. Pools -/

/-- What is done to one place of a list is done to it after a map too. -/
theorem map_modify_comm {α β : Type} {f : α → β} {g : α → α} {k : β → β}
    (h : ∀ a, f (g a) = k (f a)) (l : List α) (i : Nat) :
    (l.modify i g).map f = (l.map f).modify i k := by
  induction l generalizing i with
  | nil => simp
  | cons a rest ih =>
      cases i with
      | zero => simp [h]
      | succ i => simp [ih]

namespace Pool

/-- The pool in a view. -/
def seen (v : View) (p : Pool) : Pool :=
  { p with
    queue := p.queue.map (·.hearing v.hear)
    metrics := if v.keep then p.metrics else none
    workers := p.workers.map (·.hearing v.hear)
    calls := p.calls.map fun c => (c.1, c.2.hearing v.hear) }

end Pool

end WorkerPool
