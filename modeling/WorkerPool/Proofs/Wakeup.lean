import Mathlib.Data.List.Nodup
import WorkerPool.Proofs.Formed

/-!
# No wakeup is lost

Consumers that find a queue empty sleep until somebody wakes them, and who wakes one for an item
does not know whether the item will still be there when it looks. What holds all the same is a
count: as long as anybody sleeps, there are at least as many woken consumers as items. A consumer
that takes an item without having been woken takes it from one that was; that one sleeps again.

* `Queue.Visit`, `Queue.visit` -- what anybody does to a queue under its lock;
* `Queue.Reachable` -- the queues that some order of visits leads to;
* `Queue.Attended` -- the count, an invariant of every visit;
* `no_lost_wakeup` -- nobody sleeps on while there is something to look for and nobody looks;
* `Pool.queue_reachable` -- the queues of pools are such queues.
-/

namespace WorkerPool

namespace Queue

variable {α : Type u}

/-! ## 1. Visits -/

/-- What is done to a queue under its lock. -/
inductive Visit (α : Type u) where
  /-- An item comes, and a sleeper is woken for it if there is one: `choice`, if it sleeps. Those of
      `more` that sleep are woken with it. -/
  | push (a : α) (choice : Nat) (more : List Nat)
  | tryPop
  /-- A consumer that waits for an item looks, for the first time or after it was woken. -/
  | look (who : Nat)
  | drain
  | close
  /-- A sleeper is woken for no reason. -/
  | wake (who : Nat)

/-- The queue after a visit. Who sleeps cannot look. -/
def visit (q : Queue α) : Visit α → Option (Queue α)
  | .push a choice more => some (more.foldl wake (q.push a choice).1)
  | .tryPop => some q.tryPop.1
  | .look who => if who ∈ q.sleeping then none else some (q.attempt who).1
  | .drain => some q.drain.1
  | .close => some q.close
  | .wake who => some (q.wake who)

/-- The queues that some order of visits leads to from a new one. -/
inductive Reachable : Queue α → Prop where
  | new : Reachable {}
  | visit {q q' : Queue α} (v : Visit α) (h : Reachable q) (hv : q.visit v = some q') : Reachable q'

/-! ## 2. The count -/

/-- A consumer sleeps or was woken once, not both; and if any sleeps, the queue is open and has at
    most as many items as woken consumers that have not looked yet. -/
structure Attended (q : Queue α) : Prop where
  nodup : (q.sleeping ++ q.woken).Nodup
  enough : q.sleeping ≠ [] → q.accepting = true ∧ q.items.length ≤ q.woken.length

theorem attended_new : Attended ({} : Queue α) := ⟨List.nodup_nil, fun h => absurd rfl h⟩

/-- Nobody sleeps on a closed queue. -/
theorem Attended.sleeping_of_closed {q : Queue α} (h : q.Attended) (hc : q.accepting = false) :
    q.sleeping = [] := by
  by_contra hs
  rw [(h.enough hs).1] at hc
  cases hc

/-- A queue of which nothing but the items has changed, and of those there are not more. -/
theorem Attended.fewer {q q' : Queue α} (h : q.Attended) (hs : q'.sleeping = q.sleeping)
    (hw : q'.woken = q.woken) (ha : q'.accepting = q.accepting)
    (hi : q'.items.length ≤ q.items.length) : q'.Attended where
  nodup := by
    rw [hs, hw]
    exact h.nodup
  enough hn := by
    rw [hs] at hn
    rw [ha, hw]
    exact ⟨(h.enough hn).1, Nat.le_trans hi (h.enough hn).2⟩

theorem perm_wake {l r : List Nat} {who : Nat} (h : who ∈ l) :
    (l.erase who ++ (r ++ [who])).Perm (l ++ r) := by
  have hl : (who :: l.erase who).Perm l := (List.perm_cons_erase h).symm
  calc l.erase who ++ (r ++ [who])
      = l.erase who ++ r ++ [who] := (List.append_assoc _ _ _).symm
    List.Perm _ (who :: (l.erase who ++ r)) := List.perm_append_singleton _ _
    List.Perm _ (l ++ r) := hl.append_right r

/-- Whoever is woken may look for an item more. -/
theorem Attended.wake {q : Queue α} (h : q.Attended) (who : Nat) : (q.wake who).Attended := by
  unfold Queue.wake
  split
  · next hw =>
    refine ⟨(perm_wake hw).nodup_iff.mpr h.nodup, fun _ => ?_⟩
    obtain ⟨ha, hle⟩ := h.enough (List.ne_nil_of_mem hw)
    exact ⟨ha, Nat.le_trans hle (by simp)⟩
  · exact h

theorem Attended.foldl_wake {q : Queue α} (h : q.Attended) (more : List Nat) :
    (more.foldl Queue.wake q).Attended := by
  induction more generalizing q with
  | nil => exact h
  | cons who rest ih => exact ih (h.wake who)

/-- If anybody sleeps, one that sleeps is woken. -/
theorem wakeOne_cases (q : Queue α) (choice : Nat) :
    q.sleeping = [] ∧ q.wakeOne choice = q ∨
      ∃ who ∈ q.sleeping, q.wakeOne choice = q.wake who := by
  unfold wakeOne
  split
  · next hs => exact .inl ⟨hs, rfl⟩
  · next first rest hs =>
    refine .inr ⟨_, ?_, rfl⟩
    split
    · next hc => exact hc
    · simp [hs]

/-- **An item that comes brings one woken consumer with it**, if anybody sleeps. -/
theorem Attended.push {q : Queue α} (h : q.Attended) (a : α) (choice : Nat) :
    (q.push a choice).1.Attended := by
  unfold Queue.push
  split
  · next ha =>
    simp only
    rcases wakeOne_cases { q with items := q.items ++ [a] } choice with ⟨hs, e⟩ | ⟨who, hw, e⟩
    · rw [e]
      exact ⟨h.nodup, fun hn => absurd hs hn⟩
    · obtain ⟨-, hle⟩ := h.enough (List.ne_nil_of_mem hw)
      rw [e, Queue.wake, if_pos hw]
      refine ⟨(perm_wake hw).nodup_iff.mpr h.nodup, fun _ => ⟨ha, ?_⟩⟩
      simpa using hle
  · exact h

/-- **Who takes an item uses up one wakeup at most**, and who falls asleep has found nothing. -/
theorem Attended.attempt {q : Queue α} (h : q.Attended) {who : Nat} (hw : who ∉ q.sleeping) :
    (q.attempt who).1.Attended := by
  have herase : (q.sleeping ++ q.woken.erase who).Nodup :=
    h.nodup.sublist ((List.Sublist.refl _).append List.erase_sublist)
  have hlen : q.woken.length - 1 ≤ (q.woken.erase who).length := by
    rw [List.length_erase]
    split <;> omega
  unfold Queue.attempt
  split
  · next a rest hi =>
    refine ⟨herase, fun hn => ?_⟩
    obtain ⟨ha, hle⟩ := h.enough hn
    rw [hi, List.length_cons] at hle
    exact ⟨ha, by simp only; omega⟩
  · next hi =>
    split
    · next ha =>
      have hnot : who ∉ q.woken.erase who :=
        (List.nodup_append.mp h.nodup).2.1.not_mem_erase
      refine ⟨?_, fun _ => ⟨ha, by simp [hi]⟩⟩
      have hperm : (q.sleeping ++ [who] ++ q.woken.erase who).Perm
          (who :: (q.sleeping ++ q.woken.erase who)) := by
        rw [List.append_assoc, List.singleton_append]
        exact List.perm_middle
      refine hperm.nodup_iff.mpr (List.nodup_cons.mpr ⟨fun hm => ?_, herase⟩)
      exact (List.mem_append.mp hm).elim hw hnot
    · next ha =>
      exact ⟨herase, fun hn => absurd (h.enough hn).1 ha⟩

/-- **Every visit keeps the count.** -/
theorem Attended.visit {q q' : Queue α} (h : q.Attended) {v : Visit α}
    (hv : q.visit v = some q') : q'.Attended := by
  cases v with
  | push a choice more =>
      cases hv
      exact (h.push a choice).foldl_wake more
  | tryPop =>
      cases hv
      cases hi : q.items with
      | nil => simpa only [tryPop, hi] using h
      | cons a rest =>
          simp only [tryPop, hi]
          exact h.fewer rfl rfl rfl (by simp [hi])
  | look who =>
      simp only [Queue.visit] at hv
      split at hv <;> cases hv
      next hw => exact h.attempt hw
  | drain =>
      cases hv
      exact h.fewer rfl rfl rfl (Nat.zero_le _)
  | close =>
      cases hv
      refine ⟨?_, fun hn => absurd rfl hn⟩
      have hperm : (q.woken ++ q.sleeping).Perm (q.sleeping ++ q.woken) := List.perm_append_comm
      exact hperm.nodup_iff.mpr h.nodup
  | wake who =>
      cases hv
      exact h.wake who

theorem Reachable.attended {q : Queue α} (h : q.Reachable) : q.Attended := by
  induction h with
  | new => exact attended_new
  | visit v _ hv ih => exact ih.visit hv

end Queue

/-- **No wakeup is lost**: in every queue that visits of any number of consumers and others lead to,
    whatever they visit it for and in whatever order, no consumer counts twice; if one sleeps that
    nobody has woken, the queue is open and holds at most as many items as there are woken consumers
    that have not looked since. So nobody sleeps while an item waits or the queue is closed and no
    woken consumer is on its way to look. -/
theorem no_lost_wakeup {α : Type u} {q : Queue α} (h : q.Reachable) :
    (q.sleeping ++ q.woken).Nodup ∧
    (q.sleeping ≠ [] → q.accepting = true ∧ q.items.length ≤ q.woken.length) ∧
    ¬ (q.sleeping ≠ [] ∧ (q.items ≠ [] ∨ q.accepting = false) ∧ q.woken = []) := by
  have ha := h.attended
  refine ⟨ha.nodup, ha.enough, ?_⟩
  rintro ⟨hs, hlook, hw⟩
  obtain ⟨hopen, hle⟩ := ha.enough hs
  rcases hlook with hi | hc
  · rw [hw, List.length_nil] at hle
    exact hi (List.length_eq_zero_iff.mp (Nat.le_zero.mp hle))
  · rw [hopen] at hc
    cases hc

/-- Three consumers fall asleep and two items come. A fourth consumer takes the first of them before
    the woken ones look. -/
theorem no_lost_wakeup_after_theft : ∃ q : Queue Nat, q.Reachable ∧ q.sleeping = [3] ∧
    q.items = [20] ∧ q.woken = [2, 1] ∧ q.items.length ≤ q.woken.length ∧
    ¬ (q.sleeping ≠ [] ∧ (q.items ≠ [] ∨ q.accepting = false) ∧ q.woken = []) := by
  have h : Queue.Reachable (⟨[20], true, [3], [2, 1]⟩ : Queue Nat) :=
    .visit (.look 4) (.visit (.push 20 1 []) (.visit (.push 10 2 []) (.visit (.look 3)
      (.visit (.look 2) (.visit (.look 1) .new rfl) rfl) rfl) rfl) rfl) rfl
  obtain ⟨-, henough, hno⟩ := no_lost_wakeup h
  exact ⟨_, h, rfl, rfl, rfl, (henough (by simp)).2, hno⟩

/-! ## 3. The queues of pools -/

namespace Pool

/-- What a worker does to the queue is a look. -/
theorem WorkerMove.queue_reachable {p q : Pool} {i : Nat} {s s' : WorkerStage}
    (h : WorkerMove p i s q s') (hp : p.queue.Reachable) : q.queue.Reachable := by
  have look {found : Queue.Found Task} {queue : Queue Task} (hs : i ∉ p.queue.sleeping)
      (hq : p.queue.attempt i = (queue, found)) : queue.Reachable :=
    hp.visit (.look i) (by rw [Queue.visit, if_neg hs, hq])
  cases h with
  | pops task queue hs hq => exact look hs hq
  | findsNothing queue hs hq => exact look hs hq
  | sleeps queue hs hq => exact look hs hq
  | _ => exact hp

/-- What a call does to the queue is a visit. -/
theorem CallMove.queue_reachable {p q : Pool} {thread : ThreadId} {s : CallStage} {next : CallStep}
    (h : CallMove p thread s q next) (hp : p.queue.Reachable) : q.queue.Reachable := by
  cases h with
  | pushes task choice ha => exact hp.visit (.push task choice []) rfl
  | closes => exact hp.visit .close rfl
  | findsEmpty | empties => exact hp.visit .drain rfl
  | _ => exact hp

theorem queue_invariant : Invariant fun p => p.queue.Reachable where
  fresh h := by
    rw [h.blank.queue]
    exact .new
  change {p q} hp h := by
    cases h with
    | work hw h => exact h.queue_reachable hp
    | @call thread s r next hl h =>
        rw [queue_follow]
        exact h.queue_reachable hp
    | enter hs ht h => cases h <;> exact hp
    | note n => exact hp
    | wake i => exact hp.visit (.wake i) rfl
    | reclaim h =>
        obtain ⟨-, -, rfl⟩ := reclaim_cases h
        exact hp.visit .drain rfl

/-- **The queue of every pool of a reachable world is one that visits lead to.** -/
theorem queue_reachable {w : World} (h : w.Reachable) : ∀ p ∈ w.pools, p.queue.Reachable :=
  queue_invariant.reachable h

end Pool

end WorkerPool
