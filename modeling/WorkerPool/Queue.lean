import WorkerPool.Text.Description

/-!
# A blocking queue

A queue hands items out in the order in which they came in. Whoever finds it empty goes to sleep
until an item comes or the queue is closed. A closed queue takes nothing more and gives out what it
still holds. Every operation here is one visit under the queue's lock.

* `Queue.push`, `Queue.tryPop`, `Queue.drain`, `Queue.close` -- visits that never wait;
* `Queue.attempt` -- one look of a consumer that is ready to sleep; it looks again when it is woken;
* `Queue.wake` -- a sleeper woken for no reason, which may happen at any time.

Sleepers are kept by number. `sleeping` are those that nobody has woken, `woken` those that have
been woken and have not looked since.
-/

namespace WorkerPool

open Text

/-- A first-in first-out queue with sleepers. -/
structure Queue (α : Type u) where
  /-- The items, oldest first. -/
  items : List α := []
  accepting : Bool := true
  sleeping : List Nat := []
  woken : List Nat := []

/-- What a consumer finds when it looks. -/
inductive Queue.Found (α : Type u) where
  | item (a : α)
  /-- The queue is empty and closed. -/
  | nothingMore
  /-- The queue is empty: the consumer sleeps. -/
  | sleep

namespace Queue

variable {α : Type u}

/-- The number of items. -/
def length (q : Queue α) : Nat := q.items.length

/-- Wakes a sleeper, if it sleeps. -/
def wake (q : Queue α) (who : Nat) : Queue α :=
  if who ∈ q.sleeping then
    { q with sleeping := q.sleeping.erase who, woken := q.woken ++ [who] }
  else q

/-- Wakes one sleeper if there is one: `choice` if that one sleeps, else the one that has slept
    longest. -/
def wakeOne (q : Queue α) (choice : Nat) : Queue α :=
  match q.sleeping with
  | [] => q
  | first :: _ => q.wake (if choice ∈ q.sleeping then choice else first)

/-- Adds an item and wakes a sleeper for it. A closed queue refuses the item. -/
def push (q : Queue α) (a : α) (choice : Nat) : Queue α × Bool :=
  if q.accepting then ({ q with items := q.items ++ [a] }.wakeOne choice, true) else (q, false)

/-- Takes the oldest item, if there is one. -/
def tryPop (q : Queue α) : Queue α × Option α :=
  match q.items with
  | [] => (q, none)
  | a :: rest => ({ q with items := rest }, some a)

/-- One look of the consumer `who`. -/
def attempt (q : Queue α) (who : Nat) : Queue α × Found α :=
  match q.items with
  | a :: rest => ({ q with items := rest, woken := q.woken.erase who }, .item a)
  | [] =>
    if q.accepting then
      ({ q with sleeping := q.sleeping ++ [who], woken := q.woken.erase who }, .sleep)
    else ({ q with woken := q.woken.erase who }, .nothingMore)

/-- Takes every item. -/
def drain (q : Queue α) : Queue α × List α := ({ q with items := [] }, q.items)

/-- Closes the queue and wakes every sleeper. -/
def close (q : Queue α) : Queue α :=
  { q with accepting := false, sleeping := [], woken := q.woken ++ q.sleeping }

/-- What the queue shows of itself. -/
def description (q : Queue α) : Description :=
  .ofFields "TaskQueue" [("len", .number q.length), ("accepting", .flag q.accepting)]

/-! ## What each visit does to the items -/

@[simp] theorem items_wake (q : Queue α) (who : Nat) : (q.wake who).items = q.items := by
  unfold wake
  split <;> rfl

@[simp] theorem accepting_wake (q : Queue α) (who : Nat) :
    (q.wake who).accepting = q.accepting := by
  unfold wake
  split <;> rfl

@[simp] theorem items_wakeOne (q : Queue α) (choice : Nat) :
    (q.wakeOne choice).items = q.items := by
  unfold wakeOne
  split <;> simp

@[simp] theorem accepting_wakeOne (q : Queue α) (choice : Nat) :
    (q.wakeOne choice).accepting = q.accepting := by
  unfold wakeOne
  split <;> simp

theorem push_of_accepting {q : Queue α} (h : q.accepting = true) (a : α) (choice : Nat) :
    (q.push a choice).1.items = q.items ++ [a] ∧ (q.push a choice).2 = true := by
  simp [push, h]

theorem push_of_closed {q : Queue α} (h : q.accepting = false) (a : α) (choice : Nat) :
    q.push a choice = (q, false) := by
  simp [push, h]

@[simp] theorem accepting_push (q : Queue α) (a : α) (choice : Nat) :
    (q.push a choice).1.accepting = q.accepting := by
  unfold push
  split <;> simp_all

/-- Who gets an item gets the oldest. -/
theorem attempt_item {q q' : Queue α} {who : Nat} {a : α} (h : q.attempt who = (q', .item a)) :
    q.items = a :: q'.items ∧ q'.accepting = q.accepting := by
  unfold attempt at h
  split at h
  · next hi =>
    cases h
    exact ⟨hi, rfl⟩
  · split at h <;> cases h

/-- Nothing more comes only from a closed and empty queue. -/
theorem attempt_nothingMore {q q' : Queue α} {who : Nat}
    (h : q.attempt who = (q', .nothingMore)) :
    q.items = [] ∧ q.accepting = false ∧ q'.items = q.items ∧ q'.accepting = q.accepting := by
  unfold attempt at h
  split at h
  · cases h
  · next hi =>
    split at h <;> cases h
    next ha => exact ⟨hi, by simpa using ha, rfl, rfl⟩

/-- Sleeping is for those who find the queue open and empty. -/
theorem attempt_sleep {q q' : Queue α} {who : Nat} (h : q.attempt who = (q', .sleep)) :
    q.items = [] ∧ q.accepting = true ∧ q'.items = q.items ∧ q'.accepting = q.accepting := by
  unfold attempt at h
  split at h
  · cases h
  · next hi =>
    split at h <;> cases h
    next ha => exact ⟨hi, ha, rfl, rfl⟩

@[simp] theorem items_close (q : Queue α) : q.close.items = q.items := rfl

@[simp] theorem accepting_close (q : Queue α) : q.close.accepting = false := rfl

@[simp] theorem items_drain (q : Queue α) : q.drain.1.items = [] ∧ q.drain.2 = q.items :=
  ⟨rfl, rfl⟩

end Queue

end WorkerPool
