import WorkerPool.Proofs.Wakeup

/-!
# A queue is a sequence with a switch

Seen through its answers, a queue with its sleepers is nothing but a sequence of items and a switch
that is turned once: items come in at one end and go out at the other, in one order, each once. A
consumer may have come long before it gets its item; it counts from the look that gives it one.

* `Queue.Request`, `Queue.Answer`, `Queue.serve` -- what a queue is asked, and what it answers;
* `Sequence` -- a list and a switch, asked the same things;
* `view_of_serve` -- one request: the same answer, and the sequence seen behind the queue moves on;
* `Queue.Ran` -- the histories of a new queue, whoever asks and in whatever order;
* `queue_refines_sequence` -- what can be read off every history;
* `Pool.exists_queue_history` -- the queue of a pool has one.
-/

namespace WorkerPool

namespace Queue

variable {α : Type u}

/-! ## 1. Requests and answers -/

/-- What a queue is asked under its lock: a visit, or a question that leaves it as it is. -/
inductive Request (α : Type u) where
  | visit (v : Visit α)
  | length
  | isEmpty
  | isClosed

/-- What is answered. -/
inductive Answer (α : Type u) where
  | done
  /-- To a push: the item was taken. -/
  | taken (yes : Bool)
  | popped (a : Option α)
  /-- To a consumer that waits. One that is to sleep has no answer yet and will look again. -/
  | found (f : Found α)
  | drained (as : List α)
  | number (n : Nat)
  | flag (b : Bool)

/-- The answer. -/
def answer (q : Queue α) : Request α → Answer α
  | .visit (.push a choice _) => .taken (q.push a choice).2
  | .visit .tryPop => .popped q.tryPop.2
  | .visit (.look who) => .found (q.attempt who).2
  | .visit .drain => .drained q.drain.2
  | .visit .close | .visit (.wake _) => .done
  | .length => .number q.length
  | .isEmpty => .flag q.items.isEmpty
  | .isClosed => .flag !q.accepting

/-- The queue after a request. Who sleeps asks nothing. -/
def serve (q : Queue α) : Request α → Option (Queue α)
  | .visit v => q.visit v
  | .length | .isEmpty | .isClosed => some q

/-- The answer of a queue that is closed and empty. -/
def Request.whenOver : Request α → Answer α
  | .visit (.push _ _ _) => .taken false
  | .visit .tryPop => .popped none
  | .visit (.look _) => .found .nothingMore
  | .visit .drain => .drained []
  | .visit .close | .visit (.wake _) => .done
  | .length => .number 0
  | .isEmpty | .isClosed => .flag true

/-- The request closes the queue. -/
def Request.closes : Request α → Bool
  | .visit .close => true
  | _ => false

/-- The items that the answer hands out. -/
@[simp]
def Answer.handed : Answer α → List α
  | .popped (some a) | .found (.item a) => [a]
  | .drained as => as
  | _ => []

/-- The item that is taken in with this request and this answer. -/
@[simp]
def pushed : Request α × Answer α → List α
  | (.visit (.push a _ _), .taken true) => [a]
  | _ => []

end Queue

/-! ## 2. Sequences -/

/-- Items, oldest first, and a switch. -/
structure Sequence (α : Type u) where
  items : List α := []
  closed : Bool := false

namespace Sequence

open Queue

variable {α : Type u}

/-- The answer of a sequence: what comes is put behind, what goes is the first. -/
def answer (s : Sequence α) : Request α → Answer α
  | .visit (.push _ _ _) => .taken !s.closed
  | .visit .tryPop => .popped s.items.head?
  | .visit (.look _) =>
    .found (match s.items with
      | a :: _ => .item a
      | [] => if s.closed then .nothingMore else .sleep)
  | .visit .drain => .drained s.items
  | .visit .close | .visit (.wake _) => .done
  | .length => .number s.items.length
  | .isEmpty => .flag s.items.isEmpty
  | .isClosed => .flag s.closed

/-- The sequence after a request. -/
def next (s : Sequence α) : Request α → Sequence α
  | .visit (.push a _ _) => if s.closed then s else { s with items := s.items ++ [a] }
  | .visit .tryPop | .visit (.look _) => { s with items := s.items.tail }
  | .visit .drain => { s with items := [] }
  | .visit .close => { s with closed := true }
  | .visit (.wake _) | .length | .isEmpty | .isClosed => s

/-- Nothing is there and nothing will come. -/
def IsOver (s : Sequence α) : Prop := s.closed = true ∧ s.items = []

theorem IsOver.next {s : Sequence α} (h : s.IsOver) (r : Request α) : (s.next r).IsOver := by
  obtain ⟨hc, hi⟩ := h
  cases r with
  | visit v => cases v <;> simp [Sequence.next, IsOver, hc, hi]
  | _ => exact ⟨hc, hi⟩

theorem IsOver.answer {s : Sequence α} (h : s.IsOver) (r : Request α) :
    s.answer r = r.whenOver := by
  obtain ⟨hc, hi⟩ := h
  cases r with
  | visit v => cases v <;> simp [Sequence.answer, Request.whenOver, hc, hi]
  | _ => simp [Sequence.answer, Request.whenOver, hc, hi]

/-- That nothing more will come is said only when it is over. -/
theorem isOver_of_nothingMore {s : Sequence α} {r : Request α}
    (h : s.answer r = .found .nothingMore) : s.IsOver := by
  cases r with
  | visit v =>
      cases v with
      | look who =>
          cases hi : s.items with
          | cons a rest => simp [answer, hi] at h
          | nil => exact ⟨by simpa [answer, hi] using h, hi⟩
      | _ => cases h
  | _ => cases h

/-- What is handed out and what is left is what was there and what is taken in. -/
theorem next_items (s : Sequence α) (r : Request α) :
    (s.answer r).handed ++ (s.next r).items = s.items ++ pushed (r, s.answer r) := by
  cases r with
  | visit v =>
      cases v with
      | push a choice more => cases hc : s.closed <;> simp [Sequence.answer, Sequence.next, hc]
      | tryPop => cases hi : s.items <;> simp [Sequence.answer, Sequence.next, hi]
      | look who =>
          cases hi : s.items with
          | cons a rest => simp [Sequence.answer, Sequence.next, hi]
          | nil => cases hc : s.closed <;> simp [Sequence.answer, Sequence.next, hi, hc]
      | drain => simp [Sequence.answer, Sequence.next]
      | close => simp [Sequence.answer, Sequence.next]
      | wake who => simp [Sequence.answer, Sequence.next]
  | _ => simp [Sequence.answer, Sequence.next]

theorem next_closed (s : Sequence α) (r : Request α) :
    (s.next r).closed = (s.closed || r.closes) := by
  cases r with
  | visit v =>
      cases v with
      | push a choice more => cases hc : s.closed <;> simp [Sequence.next, Request.closes, hc]
      | _ => simp [Sequence.next, Request.closes]
  | _ => simp [Sequence.next, Request.closes]

/-- The sequence after these requests, from an empty one. -/
def after (history : List (Request α × Answer α)) : Sequence α :=
  history.foldl (fun s e => s.next e.1) {}

theorem after_snoc (history : List (Request α × Answer α)) (e : Request α × Answer α) :
    after (history ++ [e]) = (after history).next e.1 := by
  rw [after, List.foldl_append]
  rfl

/-- Once it is over, it stays so. -/
theorem IsOver.append {before : List (Request α × Answer α)} (h : (after before).IsOver)
    (more : List (Request α × Answer α)) : (after (before ++ more)).IsOver := by
  induction more generalizing before with
  | nil => rwa [List.append_nil]
  | cons e more ih =>
      have hnext : (after (before ++ [e])).IsOver := by
        rw [after_snoc]
        exact h.next e.1
      rw [List.append_cons]
      exact ih hnext

end Sequence

/-! ## 3. One request -/

namespace Queue

variable {α : Type u}

/-- The sequence behind a queue: who sleeps is not seen. -/
def view (q : Queue α) : Sequence α := ⟨q.items, !q.accepting⟩

theorem view_foldl_wake (q : Queue α) (more : List Nat) : (more.foldl wake q).view = q.view := by
  induction more generalizing q with
  | nil => rfl
  | cons who rest ih =>
      rw [List.foldl_cons, ih]
      simp [view]

theorem view_push (q : Queue α) (a : α) (choice : Nat) (more : List Nat) :
    (q.push a choice).1.view = q.view.next (.visit (.push a choice more)) ∧
      (q.push a choice).2 = !q.view.closed := by
  cases ha : q.accepting with
  | true =>
      obtain ⟨hi, ht⟩ := push_of_accepting ha a choice
      simp [view, Sequence.next, hi, ht, ha]
  | false =>
      rw [push_of_closed ha]
      simp [view, Sequence.next, ha]

theorem view_attempt (q : Queue α) (who : Nat) :
    (q.attempt who).1.view = q.view.next (.visit (.look who)) ∧
      .found (q.attempt who).2 = q.view.answer (.visit (.look who)) := by
  cases hi : q.items with
  | cons a rest => simp [attempt, view, Sequence.next, Sequence.answer, hi]
  | nil =>
      cases ha : q.accepting <;> simp [attempt, view, Sequence.next, Sequence.answer, hi, ha]

/-- **A queue answers as the sequence behind it does**, and that one moves on. -/
theorem view_of_serve {q q' : Queue α} {r : Request α} (h : q.serve r = some q') :
    q.answer r = q.view.answer r ∧ q'.view = q.view.next r := by
  cases r with
  | visit v =>
      cases v with
      | push a choice more =>
          obtain ⟨hview, htaken⟩ := view_push q a choice more
          cases h
          refine ⟨congrArg Answer.taken htaken, ?_⟩
          rw [view_foldl_wake, hview]
      | tryPop =>
          cases h
          cases hi : q.items <;>
            simp [answer, tryPop, view, Sequence.answer, Sequence.next, hi]
      | look who =>
          obtain ⟨hview, hfound⟩ := view_attempt q who
          simp only [serve, Queue.visit] at h
          split at h <;> cases h
          exact ⟨hfound, hview⟩
      | wake who =>
          cases h
          exact ⟨rfl, by simp [view, Sequence.next]⟩
      | drain | close =>
          cases h
          exact ⟨rfl, rfl⟩
  | length | isEmpty | isClosed =>
      cases h
      exact ⟨rfl, rfl⟩

/-! ## 4. Histories -/

/-- What a queue was asked and what it answered, oldest first. -/
abbrev History (α : Type u) := List (Request α × Answer α)

/-- The histories of a new queue, and the queue after each. -/
inductive Ran : History α → Queue α → Prop where
  | new : Ran [] {}
  | serve {history : History α} {q q' : Queue α} (r : Request α) (h : Ran history q)
      (hr : q.serve r = some q') : Ran (history ++ [(r, q.answer r)]) q'

namespace History

/-- The items taken in, in order. -/
def accepted (history : History α) : List α := history.flatMap pushed

/-- The items handed out, in order. -/
def handed (history : History α) : List α := history.flatMap (·.2.handed)

/-- The queue was closed. -/
def closed (history : History α) : Bool := history.any (·.1.closes)

end History

/-- The sequence behind the queue is the one that the same requests lead to. -/
theorem Ran.view_eq {history : History α} {q : Queue α} (h : Ran history q) :
    q.view = Sequence.after history := by
  induction h with
  | new => rfl
  | serve r _ hr ih =>
      rw [(view_of_serve hr).2, ih, Sequence.after_snoc]

/-- Every part of a history is one. -/
theorem Ran.exists_before {history : History α} {q : Queue α} (h : Ran history q) :
    ∀ {before : History α} {e : Request α × Answer α} {later : History α},
      history = before ++ e :: later →
        ∃ q₀, Ran before q₀ ∧ e.2 = (Sequence.after before).answer e.1 := by
  induction h with
  | new =>
      intro before e later hs
      simp at hs
  | @serve history q q' r h hr ih =>
      intro before e later hs
      rcases List.eq_nil_or_concat later with rfl | ⟨later, last, rfl⟩
      · -- the last request
        obtain ⟨rfl, he⟩ := List.append_inj' hs rfl
        obtain rfl := List.singleton_inj.mp he
        exact ⟨q, h, by rw [← h.view_eq]; exact (view_of_serve hr).1⟩
      · rw [List.concat_eq_append, ← List.cons_append, ← List.append_assoc] at hs
        exact ih (List.append_inj' hs rfl).1

/-- What went in has come out or is still there, in one order. -/
theorem Ran.handed_append {history : History α} {q : Queue α} (h : Ran history q) :
    history.handed ++ q.items = history.accepted := by
  induction h with
  | new => rfl
  | @serve history q q' r _ hr ih =>
      obtain ⟨hanswer, hview⟩ := view_of_serve hr
      have hitems : q'.items = (q.view.next r).items := congrArg Sequence.items hview
      calc History.handed (history ++ [(r, q.answer r)]) ++ q'.items
          = history.handed ++ ((q.view.answer r).handed ++ (q.view.next r).items) := by
            simp [History.handed, hanswer, hitems]
        _ = history.handed ++ (q.items ++ pushed (r, q.view.answer r)) := by
            rw [Sequence.next_items, view]
        _ = history.accepted ++ pushed (r, q.answer r) := by
            rw [← List.append_assoc, ih, hanswer]
        _ = History.accepted (history ++ [(r, q.answer r)]) := by simp [History.accepted]

theorem Ran.closed_eq {history : History α} {q : Queue α} (h : Ran history q) :
    q.view.closed = history.closed := by
  induction h with
  | new => rfl
  | serve r _ hr ih =>
      rw [(view_of_serve hr).2, Sequence.next_closed, ih]
      simp [History.closed]

end Queue

open Queue

/-- **A queue refines a sequence with a one-way switch.** In every history of a new queue, whoever
    asks and in whatever order: each answer is the one that the sequence gives after the requests
    before it. So what was handed out, followed by what is in the queue, is what was taken in, in
    order; a push is taken if and only if the queue was not closed before; its length is what was
    taken in less what was handed out; and a consumer is told that nothing more will come only when
    the queue is closed and everything has been handed out, after which every request is answered as
    by a closed and empty queue. -/
theorem queue_refines_sequence {α : Type u} {history : History α} {q : Queue α}
    (h : Ran history q) :
    q.view = Sequence.after history ∧
    history.handed ++ q.items = history.accepted ∧
    ∀ (before : History α) (r : Request α) (a : Answer α) (later : History α),
      history = before ++ (r, a) :: later →
      a = (Sequence.after before).answer r ∧
      (∀ x choice more, r = .visit (.push x choice more) → a = .taken !before.closed) ∧
      (r = .length → ∃ n, a = .number n ∧ n + before.handed.length = before.accepted.length) ∧
      (a = .found .nothingMore → before.closed = true ∧ before.handed = before.accepted ∧
        ∀ e ∈ later, e.2 = e.1.whenOver) := by
  refine ⟨h.view_eq, h.handed_append, fun before r a later hs => ?_⟩
  obtain ⟨q₀, h₀, ha⟩ := h.exists_before hs
  have hview := h₀.view_eq
  have hclosed : (Sequence.after before).closed = before.closed := by rw [← hview, h₀.closed_eq]
  have hitems : (Sequence.after before).items = q₀.items := by rw [← hview, view]
  have hkept := h₀.handed_append
  refine ⟨ha, ?_, ?_, ?_⟩
  · rintro x choice more rfl
    rw [← hclosed]
    exact ha
  · rintro rfl
    refine ⟨q₀.items.length, ?_, ?_⟩
    · rw [← hitems]
      exact ha
    · rw [← hkept, List.length_append, Nat.add_comm]
  · rintro rfl
    have hover : (Sequence.after before).IsOver := Sequence.isOver_of_nothingMore ha.symm
    refine ⟨hclosed ▸ hover.1, ?_, fun e he => ?_⟩
    · rw [← hkept, ← hitems, hover.2, List.append_nil]
    · obtain ⟨between, rest, rfl⟩ := List.append_of_mem he
      have hsplit : history = (before ++ (r, .found .nothingMore) :: between) ++ e :: rest := by
        rw [hs, List.append_assoc, List.cons_append]
      obtain ⟨-, -, hanswer⟩ := h.exists_before hsplit
      rw [hanswer]
      exact (hover.append _).answer e.1

/-- A consumer sleeps, two items come and the queue is closed. Another one takes the first item
    before the consumer looks again; the consumer gets the second, and nothing more. -/
theorem queue_refines_sequence_across_close :
    ∃ (before later : History Nat) (q : Queue Nat),
      Ran (before ++ (.visit (.look 1), .found .nothingMore) :: later) q ∧
      later = [(.visit .drain, .drained []), (.visit (.push 40 1 []), .taken false)] ∧
      before.handed = [10, 20] ∧ before.closed = true ∧ before.handed = before.accepted ∧
      ∀ e ∈ later, e.2 = e.1.whenOver := by
  have h : Ran ([(.visit (.look 1), .found .sleep), (.visit (.push 10 1 []), .taken true),
      (.visit (.push 20 1 []), .taken true), (.visit .close, .done),
      (.visit (.push 30 1 []), .taken false), (.visit .tryPop, .popped (some 10)),
      (.visit (.look 1), .found (.item 20))] ++ (.visit (.look 1), .found .nothingMore) ::
      [(.visit .drain, .drained []), (.visit (.push 40 1 []), .taken false)])
      (⟨[], false, [], []⟩ : Queue Nat) :=
    .serve (.visit (.push 40 1 [])) (.serve (.visit .drain) (.serve (.visit (.look 1))
      (.serve (.visit (.look 1)) (.serve (.visit .tryPop) (.serve (.visit (.push 30 1 []))
        (.serve (.visit .close) (.serve (.visit (.push 20 1 [])) (.serve (.visit (.push 10 1 []))
          (.serve (.visit (.look 1)) .new rfl) rfl) rfl) rfl) rfl) rfl) rfl) rfl) rfl) rfl
  obtain ⟨-, -, hpart⟩ := queue_refines_sequence h
  obtain ⟨-, -, -, hover⟩ := hpart _ _ _ _ rfl
  exact ⟨_, _, _, h, rfl, rfl, hover rfl⟩

/-! ## 5. The queues of pools -/

/-- Every order of visits is a history. -/
theorem Queue.Reachable.exists_ran {α : Type u} {q : Queue α} (h : q.Reachable) :
    ∃ history, Ran history q := by
  induction h with
  | new => exact ⟨[], .new⟩
  | visit v _ hv ih =>
      obtain ⟨history, hran⟩ := ih
      exact ⟨_, hran.serve (.visit v) hv⟩

/-- **The queue of every pool of a reachable world has a history.** -/
theorem Pool.exists_queue_history {w : World} (h : w.Reachable) :
    ∀ p ∈ w.pools, ∃ history, Ran history p.queue :=
  fun p hp => (queue_reachable h p hp).exists_ran

end WorkerPool
