import Mathlib.Logic.Function.Basic
import WorkerPool.Proofs.Change

/-!
# Threads, calls and tasks of a reachable world

A thread is inside at most one call, on the pool that it says it is inside; a task is brought to
one pool once. With that, what a step of the world does to its pools is a sequence of changes of
single pools, and of pools that are made.

* `World.Sound` -- threads, calls and tasks fit together; `sound_reachable` -- they always do;
* `World.Evolves` -- what happens to the pools; `step_evolves` -- every step is of that form;
* `Reachable.pool_induction` -- what holds of a pool just made and is kept by every change holds of
  every pool of every reachable world;
* `run_change` -- along every run a pool goes through changes only.
-/

namespace WorkerPool

/-- The pool that a thread is inside a call on. -/
def Activity.pool? : Activity → Option PoolId
  | .inside id _ => some id
  | _ => none

/-- How far the task has got that a worker is in. -/
def WorkerStage.activity? : WorkerStage → Option Activity
  | .running _ activity => some activity
  | _ => none

namespace World

open Pool (Change Fresh)

/-! ## 1. How pools evolve -/

/-- One change of one pool, or one pool more. -/
inductive PoolsStep : List Pool → List Pool → Prop where
  | change {ps : List Pool} {id : PoolId} {p q : Pool} (hp : ps[id]? = some p) (h : Change p q) :
      PoolsStep ps (ps.set id q)
  | found {ps : List Pool} {p : Pool} (h : Fresh p) : PoolsStep ps (ps ++ [p])

/-- Any number of them. -/
abbrev Evolves : List Pool → List Pool → Prop := Relation.ReflTransGen PoolsStep

theorem PoolsStep.forall {Inv : Pool → Prop} (hf : ∀ p, Fresh p → Inv p)
    (hc : ∀ p q, Inv p → Change p q → Inv q) {ps qs : List Pool} (h : PoolsStep ps qs)
    (hi : ∀ p ∈ ps, Inv p) : ∀ p ∈ qs, Inv p := by
  intro x hx
  cases h with
  | change hp h =>
      rcases List.mem_or_eq_of_mem_set hx with hx | rfl
      · exact hi x hx
      · exact hc _ _ (hi _ (List.mem_of_getElem? hp)) h
  | found h =>
      rcases List.mem_append.mp hx with hx | hx
      · exact hi x hx
      · rw [List.mem_singleton.mp hx]
        exact hf _ h

theorem Evolves.forall {Inv : Pool → Prop} (hf : ∀ p, Fresh p → Inv p)
    (hc : ∀ p q, Inv p → Change p q → Inv q) {ps qs : List Pool} (h : Evolves ps qs)
    (hi : ∀ p ∈ ps, Inv p) : ∀ p ∈ qs, Inv p := by
  induction h with
  | refl => exact hi
  | tail _ hs ih => exact hs.forall hf hc ih

/-- **A pool keeps its place and goes through changes only.** -/
theorem Evolves.pool {ps qs : List Pool} (h : Evolves ps qs) {id : PoolId} {p : Pool}
    (hp : ps[id]? = some p) : ∃ q, qs[id]? = some q ∧ Relation.ReflTransGen Change p q := by
  induction h with
  | refl => exact ⟨p, hp, .refl⟩
  | tail _ hs ih =>
      obtain ⟨q, hq, hpq⟩ := ih
      cases hs with
      | @change j r r' hr hc =>
          by_cases hj : j = id
          · subst hj
            obtain rfl : r = q := Option.some.inj (hr.symm.trans hq)
            exact ⟨r', by simp [(List.getElem?_eq_some_iff.mp hq).1], hpq.tail hc⟩
          · exact ⟨q, by rw [List.getElem?_set_ne hj, hq], hpq⟩
      | found _ =>
          exact ⟨q, by rw [List.getElem?_append_left (List.getElem?_eq_some_iff.mp hq).1, hq], hpq⟩

/-! ## 2. Soundness -/

/-- The stage of a worker of a pool. -/
def stageAt (w : World) (id : PoolId) (i : Nat) : Option WorkerStage :=
  (w.pools[id]?).bind (·.stages[i]?)

/-- How far a thread has got. -/
def activity? (w : World) : ThreadId → Option Activity
  | .caller i => w.callers[i]?
  | .worker id i => (w.stageAt id i).bind (·.activity?)

/-- The pool that a thread is inside a call on. -/
def inside (w : World) (thread : ThreadId) : Option PoolId :=
  (w.activity? thread).bind (·.pool?)

/-- Pools carry their numbers; a thread with a call on a pool is inside that pool, and has no other
    call; tasks that were brought to a pool are old and are not held any more. -/
structure Sound (w : World) (inside : ThreadId → Option PoolId) : Prop where
  numbered : ∀ {id : PoolId} {p : Pool}, w.pools[id]? = some p → p.id = id
  linked : ∀ {id : PoolId} {p : Pool} {thread : ThreadId}, w.pools[id]? = some p →
    thread ∈ p.callers → inside thread = some id
  single : ∀ {id : PoolId} {p : Pool}, w.pools[id]? = some p → p.callers.Nodup
  offered : ∀ {id : PoolId} {p : Pool} {t : TaskId}, w.pools[id]? = some p →
    .offered t ∈ p.trace → t.number < w.nextTask ∧ ∀ task ∈ w.held, task.id ≠ t
  held : ∀ task ∈ w.held, task.id.number < w.nextTask

theorem sound_initial (telemetry : Bool) (host : Host) :
    Sound (initial telemetry host) (initial telemetry host).inside where
  numbered h := by simp [initial] at h
  linked h := by simp [initial] at h
  single h := by simp [initial] at h
  offered h := by simp [initial] at h
  held := by simp [initial]

/-- A pool after a step of `thread`, which is then inside the pool `r`, beside the pool before. -/
structure Descends (w' : World) (thread : ThreadId) (r : Option PoolId) (p q : Pool) : Prop where
  number : q.id = p.id
  others : ∀ t ∈ q.callers, t ≠ thread → t ∈ p.callers
  self : thread ∈ q.callers → r = some q.id
  nodup : q.callers.Nodup
  offered : ∀ t, .offered t ∈ q.trace →
    .offered t ∈ p.trace ∨ t.number < w'.nextTask ∧ ∀ task ∈ w'.held, task.id ≠ t

/-- A pool that `thread` has just made. -/
structure MadeBy (thread : ThreadId) (r : Option PoolId) (id : PoolId) (q : Pool) : Prop where
  number : q.id = id
  callers : q.callers = [thread]
  self : r = some id
  offered : ∀ t, .offered t ∉ q.trace

/-- **A step of one thread keeps soundness** if it keeps each pool sound by itself. -/
theorem Sound.advance {w w' : World} {ins : ThreadId → Option PoolId} {thread : ThreadId}
    {r : Option PoolId} (hS : Sound w ins)
    (hpools : ∀ id q, w'.pools[id]? = some q →
      (∃ p, w.pools[id]? = some p ∧ Descends w' thread r p q) ∨ MadeBy thread r id q)
    (hnext : w.nextTask ≤ w'.nextTask)
    (hheld : ∀ task ∈ w'.held, task ∈ w.held ∨
      task.id.number = w.nextTask ∧ w.nextTask < w'.nextTask) :
    Sound w' (Function.update ins thread r) where
  numbered {id q} hq := by
    rcases hpools id q hq with ⟨p, hp, hd⟩ | hm
    · exact hd.number.trans (hS.numbered hp)
    · exact hm.number
  linked {id q t} hq ht := by
    rcases hpools id q hq with ⟨p, hp, hd⟩ | hm
    · by_cases htt : t = thread
      · subst htt
        rw [Function.update_self, hd.self ht, hd.number, hS.numbered hp]
      · rw [Function.update_of_ne htt]
        exact hS.linked hp (hd.others t ht htt)
    · rw [hm.callers, List.mem_singleton] at ht
      rw [ht, Function.update_self, hm.self]
  single {id q} hq := by
    rcases hpools id q hq with ⟨p, hp, hd⟩ | hm
    · exact hd.nodup
    · rw [hm.callers]
      simp
  offered {id q t} hq ht := by
    rcases hpools id q hq with ⟨p, hp, hd⟩ | hm
    · rcases hd.offered t ht with ho | ho
      · obtain ⟨hlt, hne⟩ := hS.offered hp ho
        refine ⟨Nat.lt_of_lt_of_le hlt hnext, fun task htask e => ?_⟩
        rcases hheld task htask with hold | ⟨hnew, -⟩
        · exact hne task hold e
        · rw [e] at hnew
          omega
      · exact ho
    · exact absurd ht (hm.offered t)
  held task htask := by
    rcases hheld task htask with hold | ⟨hnew, hlt⟩
    · exact Nat.lt_of_lt_of_le (hS.held task hold) hnext
    · omega

theorem modify_of_getElem? {α : Type*} {l : List α} {i : Nat} {a : α} (h : l[i]? = some a)
    (f : α → α) : l.modify i f = l.set i (f a) := by
  obtain ⟨hi, rfl⟩ := List.getElem?_eq_some_iff.mp h
  refine List.ext_getElem? fun j => ?_
  by_cases hj : i = j
  · subst hj
    simp [hi]
  · simp [hj]

/-- What is put in the place of something is there. -/
theorem set_of_getElem? {α : Type*} {l : List α} {i : Nat} {a : α} (h : l[i]? = some a) (b : α) :
    (l.set i b)[i]? = some b :=
  List.getElem?_set_self (List.getElem?_eq_some_iff.mp h).1

/-! ## 3. A thread on its way through its program -/

/-- What a step of `thread` through its program, to where it has got then, does to the world. -/
structure Advanced (w : World) (thread : ThreadId) (w' : World) (activity : Activity) : Prop where
  evolves : Evolves w.pools w'.pools
  sound : Sound w' (Function.update w.inside thread activity.pool?)
  callers : w'.callers = w.callers
  stages : ∀ id i s, w.stageAt id i = some s → w'.stageAt id i = some s
  starting : ∀ id i s, w'.stageAt id i = some s → w.stageAt id i = some s ∨ s = .starting

section Advancing

variable {w w' : World} {thread : ThreadId} {activity : Activity}

theorem not_mem_callers (hS : Sound w w.inside) {id : PoolId} {p : Pool}
    (hp : w.pools[id]? = some p) (hne : w.inside thread ≠ some id) : thread ∉ p.callers :=
  fun h => hne (hS.linked hp h)

theorem Sound.descends_self (hS : Sound w w.inside) {id : PoolId} {p : Pool} {r : Option PoolId}
    (hp : w.pools[id]? = some p) (hne : w.inside thread ≠ some id) :
    Descends w' thread r p p where
  number := rfl
  others _ ht _ := ht
  self h := absurd h (not_mem_callers hS hp hne)
  nodup := hS.single hp
  offered _ h := .inl h

/-- A step that touches no pool. -/
theorem advanced_aside (hS : Sound w w.inside) (hout : w.inside thread = none)
    (hpools : w'.pools = w.pools) (hcallers : w'.callers = w.callers)
    (hnext : w.nextTask ≤ w'.nextTask)
    (hheld : ∀ task ∈ w'.held, task ∈ w.held ∨
      task.id.number = w.nextTask ∧ w.nextTask < w'.nextTask) : Advanced w thread w' activity where
  evolves := hpools ▸ .refl
  sound := hS.advance (fun id q hq => .inl ⟨q, hpools ▸ hq,
    hS.descends_self (hpools ▸ hq) (by simp [hout])⟩) hnext hheld
  callers := hcallers
  stages id i s h := by rwa [stageAt, hpools]
  starting id i s h := by rw [stageAt, hpools] at h; exact .inl h

/-- A step that changes one pool. -/
theorem advanced_change (hS : Sound w w.inside) {id : PoolId} {p q : Pool}
    (hp : w.pools[id]? = some p) (hin : ∀ j, w.inside thread = some j → j = id)
    (hpools : w'.pools = w.pools.set id q) (hcallers : w'.callers = w.callers)
    (hnext : w.nextTask ≤ w'.nextTask) (hheld : ∀ task ∈ w'.held, task ∈ w.held)
    (hc : Pool.Change p q) (hd : Descends w' thread activity.pool? p q)
    (hst : q.stages = p.stages ∨ q.stages = p.stages ++ [.starting]) :
    Advanced w thread w' activity where
  evolves := hpools ▸ .single (.change hp hc)
  sound := by
    refine hS.advance (fun j r hr => .inl ?_) hnext fun task ht => .inl (hheld task ht)
    rw [hpools] at hr
    by_cases hj : id = j
    · subst hj
      rw [set_of_getElem? hp] at hr
      cases hr
      exact ⟨p, hp, hd⟩
    · rw [List.getElem?_set_ne hj] at hr
      exact ⟨r, hr, hS.descends_self hr fun h => hj (hin j h).symm⟩
  callers := hcallers
  stages j i s h := by
    rw [stageAt, hpools]
    by_cases hj : id = j
    · subst hj
      rw [stageAt, hp] at h
      rw [set_of_getElem? hp]
      simp only [Option.bind_some] at h ⊢
      rcases hst with e | e
      · rwa [e]
      · rw [e, List.getElem?_append_left (List.getElem?_eq_some_iff.mp h).1, h]
    · rwa [List.getElem?_set_ne hj]
  starting j i s h := by
    rw [stageAt, hpools] at h
    by_cases hj : id = j
    · subst hj
      rw [set_of_getElem? hp, Option.bind_some] at h
      rw [stageAt, hp, Option.bind_some]
      rcases hst with e | e
      · exact .inl (e ▸ h)
      · rw [e] at h
        by_cases hi : i < p.stages.length
        · rw [List.getElem?_append_left hi] at h
          exact .inl h
        · rw [List.getElem?_append_right (Nat.le_of_not_lt hi)] at h
          exact .inr (List.mem_singleton.mp (List.mem_of_getElem? h))
    · rw [List.getElem?_set_ne hj] at h
      exact .inl h

theorem made_not_offered (id : PoolId) (config : Config) (cpus : UInt64) (telemetry : Bool)
    (now : Nat) (t : TaskId) :
    .offered t ∉ (Pool.ofConfig id config cpus telemetry now).trace := by
  simp only [Pool.ofConfig]
  split <;> simp

theorem made_empty (id : PoolId) (config : Config) (cpus : UInt64) (telemetry : Bool) (now : Nat) :
    (Pool.ofConfig id config cpus telemetry now).id = id ∧
      (Pool.ofConfig id config cpus telemetry now).calls = [] ∧
      (Pool.ofConfig id config cpus telemetry now).workers = [] := by
  simp only [Pool.ofConfig]
  split <;> simp

/-- A step that makes a pool. -/
theorem advanced_found (hS : Sound w w.inside) (hout : w.inside thread = none)
    {config : Config} {refusal : Nat → Option SystemError}
    (hpools : w'.pools = w.pools ++ [(Pool.ofConfig w.pools.length config w.host.cpus w.telemetry
      w.now).enter thread (.spawning 0 refusal)])
    (hcallers : w'.callers = w.callers) (hnext : w'.nextTask = w.nextTask)
    (hheld : w'.held = w.held) (hact : activity.pool? = some w.pools.length) :
    Advanced w thread w' activity := by
  obtain ⟨hnum, hcalls, hworkers⟩ :=
    made_empty w.pools.length config w.host.cpus w.telemetry w.now
  refine ⟨?_, ?_, hcallers, fun id i s h => ?_, fun id i s h => ?_⟩
  · exact hpools ▸ .single (.found ⟨_, config, _, _, _, thread, refusal, rfl⟩)
  · refine hS.advance (fun id q hq => ?_) (Nat.le_of_eq hnext.symm) fun task ht => .inl (hheld ▸ ht)
    rw [hpools] at hq
    by_cases hi : id < w.pools.length
    · rw [List.getElem?_append_left hi] at hq
      exact .inl ⟨q, hq, hS.descends_self hq (by simp [hout])⟩
    · have hid : id = w.pools.length := by
        have hlt : id < w.pools.length + 1 := by simpa using (List.getElem?_eq_some_iff.mp hq).1
        exact Nat.le_antisymm (Nat.le_of_lt_succ hlt) (Nat.le_of_not_lt hi)
      subst hid
      rw [List.getElem?_concat_length] at hq
      cases hq
      exact .inr ⟨hnum, by simp [Pool.callers, Pool.enter, hcalls], hact,
        made_not_offered _ config _ _ _⟩
  · have hlt : id < w.pools.length := by
      by_cases hi : id < w.pools.length
      · exact hi
      · rw [stageAt, List.getElem?_eq_none (Nat.le_of_not_lt hi)] at h
        cases h
    rwa [stageAt, hpools, List.getElem?_append_left hlt]
  · rw [stageAt, hpools] at h
    by_cases hi : id < w.pools.length
    · rw [List.getElem?_append_left hi] at h
      exact .inl h
    · rw [List.getElem?_append_right (Nat.le_of_not_lt hi)] at h
      obtain ⟨q, hq, hs⟩ := Option.bind_eq_some_iff.mp h
      obtain rfl := List.mem_singleton.mp (List.mem_of_getElem? hq)
      simp [Pool.stages, Pool.enter, hworkers] at hs

theorem serving_iff {id : PoolId} {p : Pool} :
    w.serving? id = some p ↔ w.pools[id]? = some p ∧ p.life = .serving := by
  simp [serving?, Option.filter_eq_some_iff]

/-- A pool after `thread`, that was outside, has begun a call on it. -/
theorem Sound.descends_enter (hS : Sound w w.inside) (hout : w.inside thread = none) {id : PoolId}
    {p q : Pool} {s : CallStage} (hp : w.pools[id]? = some p) (hid : q.id = p.id)
    (hcallers : q.callers = p.callers) (hact : activity.pool? = some id)
    (hoff : ∀ t, .offered t ∈ q.trace →
      .offered t ∈ p.trace ∨ t.number < w'.nextTask ∧ ∀ task ∈ w'.held, task.id ≠ t) :
    Descends w' thread activity.pool? p (q.enter thread s) where
  number := hid
  others t ht hne := by
    rw [Pool.callers_enter, hcallers] at ht
    exact (List.mem_cons.mp ht).resolve_left hne
  self _ := by
    rw [hact]
    exact congrArg some ((hS.numbered hp).symm.trans hid.symm)
  nodup := by
    rw [Pool.callers_enter, List.nodup_cons, hcallers]
    exact ⟨not_mem_callers hS hp (by simp [hout]), hS.single hp⟩
  offered := hoff

/-- Coming to a pool with a task. -/
theorem advanced_offer (hS : Sound w w.inside) (hout : w.inside thread = none) {id : PoolId}
    {p : Pool} (hs : w.serving? id = some p) {v : World} (hv : v.pools = w.pools)
    {task : Task} (hcallers : v.callers = w.callers) (hnext : w.nextTask ≤ v.nextTask)
    (hheld : ∀ t ∈ v.held, t ∈ w.held) (hold : task.id.number < v.nextTask)
    (hfree : ∀ t ∈ v.held, t.id ≠ task.id)
    (hfresh : .offered task.id ∉ p.trace) (next : Reply → Program) :
    Advanced w thread (v.offer thread p id task) (.inside id next) := by
  obtain ⟨hp, hlife⟩ := serving_iff.mp hs
  have hnot : thread ∉ p.callers := not_mem_callers hS hp (by simp [hout])
  have hc : Change p ((p.log (.offered task.id)).enter thread
      (.checking { task with enqueuedAt := v.now })) :=
    .enter hlife hnot (.offers { task with enqueuedAt := v.now } hfresh)
  have hpools : (v.offer thread p id task).pools = w.pools.set id
      ((p.log (.offered task.id)).enter thread (.checking { task with enqueuedAt := v.now })) := by
    simp [offer, setPool, hv]
  refine advanced_change hS hp (by simp [hout]) hpools hcallers hnext hheld hc ?_ (.inl rfl)
  refine hS.descends_enter hout hp rfl rfl rfl fun t ht => ?_
  rcases List.mem_cons.mp ht with h | h
  · cases h
    exact .inr ⟨hold, hfree⟩
  · exact .inl h

/-- Beginning a call by a program that is outside. -/
theorem begin_advanced (hS : Sound w w.inside) (hout : w.inside thread = none)
    {next : Reply → Program} {c : Call} (h : w.begin thread next c = some (w', activity)) :
    Advanced w thread w' activity := by
  have aside {v : World} {a : Activity} (hp : v.pools = w.pools) (hc : v.callers = w.callers)
      (hn : v.nextTask = w.nextTask) (hh : ∀ task ∈ v.held, task ∈ w.held) :
      Advanced w thread v a :=
    advanced_aside hS hout hp hc (Nat.le_of_eq hn.symm) fun task ht => .inl (hh task ht)
  have hself {a : Activity} : Advanced w thread w a := aside rfl rfl rfl fun _ ht => ht
  cases c <;> simp only [begin] at h
  case start config =>
    split at h <;> cases h
    · exact hself
    · exact advanced_found hS hout rfl rfl rfl rfl rfl
  case submitHeld id tid =>
    split at h <;> cases h
    · next p task hs ht =>
      have hmem := List.mem_of_find?_eq_some ht
      obtain rfl : task.id = tid := by simpa using List.find?_some ht
      refine advanced_offer hS hout hs (v := w.release task.id) rfl rfl (Nat.le_refl _)
        (fun t ht => (List.mem_filter.mp ht).1) (hS.held task hmem) (fun t ht => ?_) ?_ next
      · simpa using (List.mem_filter.mp ht).2
      · exact fun ho => (hS.offered (serving_iff.mp hs).1 ho).2 task hmem rfl
    · exact hself
  case dropHeld tid =>
    split at h <;> cases h
    · exact hself
    · exact aside rfl rfl rfl fun _ ht => (List.mem_filter.mp ht).1
  case shutdown id mode =>
    split at h <;> cases h
    · exact hself
    · next p hs =>
      obtain ⟨hp, hlife⟩ := serving_iff.mp hs
      refine advanced_change hS (q := p.enter thread mode.entry) hp (by simp [hout])
        (by cases mode <;> rfl) rfl (Nat.le_refl _) (fun _ ht => ht)
        (.enter hlife (not_mem_callers hS hp (by simp [hout])) (.asks mode))
        (hS.descends_enter hout hp rfl rfl rfl fun _ ht => .inl ht) (.inl rfl)
  case drop id =>
    split at h
    · cases h
      exact hself
    · next p hs =>
      obtain ⟨hp, hlife⟩ := serving_iff.mp hs
      split at h <;> cases h
      next hc =>
      refine advanced_change hS hp (by simp [hout]) rfl rfl (Nat.le_refl _) (fun _ ht => ht)
        (.enter hlife (not_mem_callers hS hp (by simp [hout]))
          (.givesUp (List.isEmpty_iff.mp hc)))
        (hS.descends_enter hout hp rfl rfl rfl fun _ ht => .inl ht) (.inl rfl)
  case note n =>
    cases h
    cases thread with
    | caller i => exact aside rfl rfl rfl fun _ ht => ht
    | worker id i =>
        cases hp : w.pools[id]? with
        | none =>
            refine aside ?_ rfl rfl fun _ ht => ht
            exact List.modify_eq_self (List.getElem?_eq_none_iff.mp hp)
        | some p =>
            have hd : Descends w (.worker id i) (Activity.going (next .done)).pool? p p :=
              hS.descends_self hp (by simp [hout])
            exact advanced_change hS (q := p.log (.note n)) hp (by simp [hout])
              (modify_of_getElem? hp _) rfl (Nat.le_refl _) (fun _ ht => ht) (.note n)
              ⟨rfl, hd.others, hd.self, hd.nodup, fun t ht => .inl (by simpa using ht)⟩
              (.inl rfl)
  case read id gauge =>
    split at h <;> cases h <;> exact hself
  case announcePair cpu db =>
    split at h <;> cases h
    · exact aside rfl rfl rfl fun _ ht => ht
    · exact hself
  case gate name =>
    split at h <;> cases h
    exact hself
  all_goals
    cases h
    exact hself

/-- Going on inside a call. -/
theorem proceed_advanced (hS : Sound w w.inside) {id : PoolId} (hin : w.inside thread = some id)
    {choice : Nat} {next : Reply → Program}
    (h : w.proceed thread choice id next = some (w', activity)) :
    Advanced w thread w' activity := by
  obtain ⟨p, hp, h⟩ := Option.bind_eq_some_iff.mp h
  obtain ⟨s, hl, h⟩ := Option.bind_eq_some_iff.mp h
  obtain ⟨⟨q, next'⟩, hq, h⟩ := Option.map_eq_some_iff.mp h
  have hm := Pool.callStep_move hq
  obtain ⟨hnum, hcalls, hst⟩ := hm.frame
  replace hst := hst.imp_right And.right
  have hcallers : q.callers = p.callers := congrArg (List.map Prod.fst) hcalls
  have hsub : ∀ t ∈ (q.follow thread next').callers, t ∈ p.callers :=
    fun t ht => hcallers ▸ (q.callers_follow_sublist thread next').subset ht
  have hnodup : (q.follow thread next').callers.Nodup :=
    (hcallers ▸ hS.single hp).sublist (q.callers_follow_sublist thread next')
  have hoff : ∀ t, .offered t ∈ q.trace → .offered t ∈ p.trace := fun t => (hm.offered_iff t).mp
  cases next' with
  | stage s' =>
      cases h
      refine advanced_change hS hp (by simp [hin]) rfl rfl (Nat.le_refl _) (fun _ ht => ht)
        (.call hl hm) ⟨hnum, fun t ht _ => hsub t ht, fun _ => ?_, hnodup,
          fun t ht => .inl (hoff t ht)⟩ hst
      exact congrArg some ((hS.numbered hp).symm.trans hnum.symm)
  | reply r =>
      cases h
      refine advanced_change hS hp (by simp [hin]) rfl rfl (Nat.le_refl _) (fun _ ht => ht)
        (.call hl hm) ⟨hnum, fun t ht _ => hsub t ht, fun ht => ?_, hnodup,
          fun t ht => .inl (hoff t ht)⟩ hst
      simp at ht

/-- **A step of a thread through its program.** -/
theorem advance_advanced (hS : Sound w w.inside) {before : Activity}
    (hin : w.inside thread = before.pool?) {choice : Nat}
    (h : w.advance thread choice before = some (w', activity)) :
    Advanced w thread w' activity := by
  cases before with
  | inside id next => exact proceed_advanced hS hin h
  | asleep wakeAt next =>
      simp only [advance] at h
      split at h <;> cases h
      exact advanced_aside hS hin rfl rfl (Nat.le_refl _) fun _ ht => .inl ht
  | going program =>
      cases program with
      | finish answers => cases h
      | panic payload => cases h
      | call c next => exact begin_advanced hS hin h
      | make label work next =>
          cases h
          refine advanced_aside hS hin rfl rfl (Nat.le_succ _) fun task ht => ?_
          rcases List.mem_append.mp ht with ht | ht
          · exact .inl ht
          · rw [List.mem_singleton.mp ht]
            exact .inr ⟨rfl, Nat.lt_succ_self _⟩
      | submit id label work next =>
          simp only [advance] at h
          split at h <;> cases h
          · exact advanced_aside hS hin rfl rfl (Nat.le_refl _) fun _ ht => .inl ht
          · next p hs =>
            refine advanced_offer hS hin hs (v := { w with nextTask := w.nextTask + 1 }) rfl rfl
              (Nat.le_succ _) (fun _ ht => ht) (Nat.lt_succ_self _) (fun t ht e => ?_)
              (fun ho => ?_) next
            · have hlt := hS.held t ht
              rw [e] at hlt
              exact Nat.lt_irrefl _ hlt
            · exact Nat.lt_irrefl _ (hS.offered (serving_iff.mp hs).1 ho).1

end Advancing

/-! ## 4. Steps of the world -/

theorem Sound.congr {w w' : World} {ins ins' : ThreadId → Option PoolId} (hS : Sound w ins)
    (hp : w'.pools = w.pools) (hh : w'.held = w.held) (hn : w'.nextTask = w.nextTask)
    (hi : ins' = ins) : Sound w' ins' := by
  subst hi
  exact ⟨fun h => hS.numbered (hp ▸ h), fun h => hS.linked (hp ▸ h), fun h => hS.single (hp ▸ h),
    fun h => by rw [hn, hh]; exact hS.offered (hp ▸ h), by rw [hn, hh]; exact hS.held⟩

theorem inside_congr {w w' : World} (hc : w'.callers = w.callers)
    (hs : ∀ id i, w'.stageAt id i = w.stageAt id i) : w'.inside = w.inside := by
  funext t
  cases t with
  | caller i => simp only [inside, activity?, hc]
  | worker id i => simp only [inside, activity?, hs]

theorem Advanced.inside_eq {w w' : World} {thread : ThreadId} {activity : Activity}
    (h : Advanced w thread w' activity) : w'.inside = w.inside := by
  funext t
  cases t with
  | caller i => simp only [inside, activity?, h.callers]
  | worker id i =>
      simp only [inside, activity?]
      cases hw : w.stageAt id i with
      | some s => rw [h.stages id i s hw]
      | none =>
          cases hw' : w'.stageAt id i with
          | none => rfl
          | some s =>
              rcases h.starting id i s hw' with h' | rfl
              · rw [hw] at h'
                cases h'
              · rfl

theorem stages_setStage (p : Pool) (i : Nat) (s : WorkerStage) :
    (p.setStage i s).stages = p.stages.set i s := by
  refine List.ext_getElem? fun j => ?_
  simp only [Pool.stages, Pool.setStage, List.getElem?_map, List.getElem?_modify,
    List.getElem?_set, List.length_map]
  by_cases hij : i = j
  · subst hij
    by_cases hi : i < p.workers.length
    · simp [hi]
    · simp [hi]
  · simp [hij]

/-- After a step of a worker its thread is inside the pool that its stage says, and every other
    thread is where it was. -/
theorem inside_setStage {w w' : World} {id : PoolId} {p q : Pool} {i : Nat} {s₀ s : WorkerStage}
    (hp : w.pools[id]? = some p) (hs : p.stages[i]? = some s₀) (hq : q.stages = p.stages)
    (hpools : w'.pools = w.pools.set id (q.setStage i s)) (hc : w'.callers = w.callers) :
    w'.inside = Function.update w.inside (.worker id i) (s.activity?.bind (·.pool?)) := by
  obtain ⟨hid, hget⟩ := List.getElem?_eq_some_iff.mp hp
  have hi : i < p.stages.length := (List.getElem?_eq_some_iff.mp hs).1
  funext t
  cases t with
  | caller k => simp [inside, activity?, hc]
  | worker j k =>
      by_cases hj : id = j
      · subst hj
        by_cases hk : i = k
        · subst hk
          simp [inside, activity?, stageAt, hpools, hid, stages_setStage, hq, hi]
        · have hne : ThreadId.worker id k ≠ .worker id i := fun e => hk (by cases e; rfl)
          rw [Function.update_of_ne hne]
          simp [inside, activity?, stageAt, hpools, hid, stages_setStage, hq, hget, hk]
      · have hne : ThreadId.worker j k ≠ .worker id i := fun e => hj (by cases e; rfl)
        rw [Function.update_of_ne hne]
        simp [inside, activity?, stageAt, hpools, hj]

/-- A pool in the place of one with the same calls and no task offered more. -/
theorem Sound.replace {w w' : World} {ins : ThreadId → Option PoolId} (hS : Sound w ins)
    {id : PoolId} {p q : Pool} (hp : w.pools[id]? = some p)
    (hpools : w'.pools = w.pools.set id q) (hid : q.id = p.id) (hcallers : q.callers = p.callers)
    (hoff : ∀ t, .offered t ∈ q.trace → .offered t ∈ p.trace) (hn : w'.nextTask = w.nextTask)
    (hh : w'.held = w.held) : Sound w' ins := by
  have before : ∀ {j : PoolId} {r : Pool}, w'.pools[j]? = some r →
      ∃ r₀ : Pool, w.pools[j]? = some r₀ ∧ r.id = r₀.id ∧ r.callers = r₀.callers ∧
        ∀ t, .offered t ∈ r.trace → .offered t ∈ r₀.trace := by
    intro j r hr
    rw [hpools] at hr
    by_cases hj : id = j
    · subst hj
      rw [set_of_getElem? hp] at hr
      cases hr
      exact ⟨p, hp, hid, hcallers, hoff⟩
    · rw [List.getElem?_set_ne hj] at hr
      exact ⟨r, hr, rfl, rfl, fun _ h => h⟩
  refine ⟨fun hr => ?_, fun hr ht => ?_, fun hr => ?_, fun hr ht => ?_, ?_⟩
  · obtain ⟨r₀, hr₀, hid, -, -⟩ := before hr
    exact hid.trans (hS.numbered hr₀)
  · obtain ⟨r₀, hr₀, -, hc, -⟩ := before hr
    exact hS.linked hr₀ (hc ▸ ht)
  · obtain ⟨r₀, hr₀, -, hc, -⟩ := before hr
    exact hc ▸ hS.single hr₀
  · obtain ⟨r₀, hr₀, -, -, ho⟩ := before hr
    rw [hn, hh]
    exact hS.offered hr₀ (ho _ ht)
  · rw [hn, hh]
    exact hS.held

/-- A worker's move outside calls keeps soundness. -/
theorem Sound.moveWorker {w : World} (hS : Sound w w.inside) {id : PoolId} {p q : Pool} {i : Nat}
    {worker : Worker} {s : WorkerStage} (hp : w.pools[id]? = some p)
    (hw : p.workers[i]? = some worker) (hm : Pool.WorkerMove p i worker.stage q s)
    (hbefore : worker.stage.activity?.bind (·.pool?) = none)
    (hafter : s.activity?.bind (·.pool?) = none) :
    Evolves w.pools (w.moveWorker id i (q, s)).pools ∧
      Sound (w.moveWorker id i (q, s)) (w.moveWorker id i (q, s)).inside := by
  have hu := hm.untouched
  have hs : p.stages[i]? = some worker.stage := by simp [Pool.stages, hw]
  have hout : w.inside (.worker id i) = none := by
    simpa [inside, activity?, stageAt, hp, hs] using hbefore
  have hins : (w.moveWorker id i (q, s)).inside = w.inside := by
    have hupd : (w.moveWorker id i (q, s)).inside =
        Function.update w.inside (.worker id i) (s.activity?.bind (·.pool?)) :=
      inside_setStage hp hs hu.stages rfl rfl
    rw [hupd, hafter, Function.update_eq_self_iff, hout]
  refine ⟨.single (.change hp (.work hw hm)), ?_⟩
  rw [hins]
  exact hS.replace hp rfl hu.id (congrArg (List.map Prod.fst) hu.calls)
    (fun t => (hm.offered_iff t).mp) rfl rfl

theorem inside_setPool {w : World} {id : PoolId} {p q : Pool} (hp : w.pools[id]? = some p)
    (hst : q.stages = p.stages) : (w.setPool id q).inside = w.inside := by
  refine inside_congr rfl fun j i => ?_
  by_cases hj : id = j
  · subst hj
    simp only [stageAt, World.setPool, hp, Option.bind_some, hst, set_of_getElem? hp]
  · simp only [stageAt, World.setPool, List.getElem?_set_ne hj]

/-- What happens to a pool without any thread keeps soundness. -/
theorem Sound.setPool {w : World} (hS : Sound w w.inside) {id : PoolId} {p q : Pool}
    (hp : w.pools[id]? = some p) (hc : Pool.Change p q) (hid : q.id = p.id)
    (hcalls : q.calls = p.calls) (hstages : q.stages = p.stages)
    (hoff : ∀ t, .offered t ∈ q.trace → .offered t ∈ p.trace) :
    Evolves w.pools (w.setPool id q).pools ∧ Sound (w.setPool id q) (w.setPool id q).inside := by
  refine ⟨.single (.change hp hc), ?_⟩
  rw [inside_setPool hp hstages]
  exact hS.replace hp rfl hid (congrArg (List.map Prod.fst) hcalls) hoff rfl rfl

theorem workerStep_outside {p q : Pool} {i now : Nat} {s s' : WorkerStage}
    (h : p.workerStep i now s = some (q, s')) :
    s.activity? = none ∧ s'.activity?.bind (·.pool?) = none := by
  cases s with
  | running job activity => cases h
  | _ => cases Pool.workerStep_move h <;> exact ⟨rfl, rfl⟩

/-- A step of a worker inside its task. -/
theorem actInTask_evolves {w w' : World} (hS : Sound w w.inside) {id : PoolId} {p : Pool} {i : Nat}
    {worker : Worker} {choice : Nat} {job : Job} {activity : Activity}
    (hp : w.pools[id]? = some p) (hw : p.workers[i]? = some worker)
    (hs : worker.stage = .running job activity)
    (h : w.actInTask id p i choice job activity = some w') :
    Evolves w.pools w'.pools ∧ Sound w' w'.inside := by
  unfold actInTask at h
  split at h
  · next answers =>
    cases h
    exact hS.moveWorker hp hw (hs ▸ .returns job answers) (by simp [hs, WorkerStage.activity?,
      Activity.pool?]) rfl
  · next payload =>
    cases h
    exact hS.moveWorker hp hw (hs ▸ .panics job payload) (by simp [hs, WorkerStage.activity?,
      Activity.pool?]) rfl
  · next hfinish hpanic =>
    obtain ⟨⟨v, activity'⟩, ha, he⟩ := Option.map_eq_some_iff.mp h
    have hat : w.stageAt id i = some (.running job activity) := by
      simp [stageAt, hp, Pool.stages, hw, hs]
    have hin : w.inside (.worker id i) = activity.pool? := by
      simp [inside, activity?, hat, WorkerStage.activity?]
    have hadv := advance_advanced hS hin ha
    -- the worker is still in its task, in a pool that the task may have changed
    obtain ⟨p', hp', hs'⟩ := Option.bind_eq_some_iff.mp (hadv.stages id i _ hat)
    obtain ⟨worker', hw', hst⟩ := Pool.stages_getElem?.mp hs'
    have hover : activity.isOver = false := by
      cases activity with
      | going program => cases program <;> simp_all [Activity.isOver]
      | inside | asleep => rfl
    have hm : Pool.WorkerMove p' i worker'.stage p' (.running job activity') :=
      hst ▸ .goesOn job activity activity' hover
    dsimp only at he
    rw [modify_of_getElem? hp'] at he
    have hpools : w'.pools = v.pools.set id (p'.setStage i (.running job activity')) := by rw [← he]
    have hcallers : w'.callers = v.callers := by rw [← he]
    refine ⟨hpools ▸ hadv.evolves.tail (.change hp' (.work hw' hm)), ?_⟩
    rw [inside_setStage hp' hs' rfl hpools hcallers, hadv.inside_eq]
    exact hadv.sound.replace hp' hpools rfl rfl (fun _ h => h) (by rw [← he]) (by rw [← he])

/-- **Every step of a sound world changes its pools one by one and leads to a sound world.** -/
theorem step_evolves {w w' : World} {l : Label} (hS : Sound w w.inside) (h : w.step l = some w') :
    Evolves w.pools w'.pools ∧ Sound w' w'.inside := by
  cases l with
  | fork program =>
      cases h
      refine ⟨.refl, hS.congr rfl rfl rfl (funext fun t => ?_)⟩
      cases t with
      | worker id i => rfl
      | caller i =>
          simp only [inside, activity?, List.getElem?_append]
          split
          · rfl
          · next hi =>
            rw [List.getElem?_eq_none (Nat.le_of_not_lt hi)]
            cases hk : i - w.callers.length <;> simp [Activity.pool?]
  | openGate name =>
      cases h
      exact ⟨.refl, hS.congr rfl rfl rfl rfl⟩
  | tick nanos =>
      cases h
      exact ⟨.refl, hS.congr rfl rfl rfl rfl⟩
  | wake id i =>
      obtain ⟨p, hp, h⟩ := Option.bind_eq_some_iff.mp h
      split at h <;> cases h
      exact hS.setPool hp (.wake i) rfl rfl rfl fun _ ht => ht
  | reclaim id =>
      obtain ⟨p, hp, h⟩ := Option.bind_eq_some_iff.mp h
      obtain ⟨q, hq, rfl⟩ := Option.map_eq_some_iff.mp h
      have hc : Pool.Change p q := .reclaim hq
      obtain ⟨-, -, rfl⟩ := Pool.reclaim_cases hq
      exact hS.setPool hp hc rfl rfl rfl fun t ht => by simpa using ht
  | act thread choice =>
      cases thread with
      | caller i =>
          obtain ⟨activity, hi, h⟩ := Option.bind_eq_some_iff.mp h
          obtain ⟨⟨v, activity'⟩, ha, rfl⟩ := Option.map_eq_some_iff.mp h
          have hin : w.inside (.caller i) = activity.pool? := by simp [inside, activity?, hi]
          have hadv := advance_advanced hS hin ha
          refine ⟨hadv.evolves, hadv.sound.congr rfl rfl rfl (funext fun t => ?_)⟩
          have hlt : i < v.callers.length := hadv.callers ▸ (List.getElem?_eq_some_iff.mp hi).1
          rw [← hadv.inside_eq]
          cases t with
          | worker id k => rw [Function.update_of_ne (by simp)]; rfl
          | caller k =>
              by_cases hk : i = k
              · subst hk
                simp [inside, activity?, hlt]
              · rw [Function.update_of_ne fun e => hk (by cases e; rfl)]
                simp [inside, activity?, hk]
      | worker id i =>
          obtain ⟨p, hp, h⟩ := Option.bind_eq_some_iff.mp h
          obtain ⟨worker, hw, h⟩ := Option.bind_eq_some_iff.mp h
          split at h
          · next job activity hs => exact actInTask_evolves hS hp hw hs h
          · next hs =>
            obtain ⟨⟨q, s⟩, hq, rfl⟩ := Option.map_eq_some_iff.mp h
            obtain ⟨hbefore, hafter⟩ := workerStep_outside hq
            exact hS.moveWorker hp hw (Pool.workerStep_move hq) (by simp [hbefore]) hafter

/-- Reachable worlds are sound. -/
theorem sound_reachable {w : World} (h : Reachable w) : Sound w w.inside := by
  induction h with
  | initial telemetry host => exact sound_initial telemetry host
  | step l _ hs ih => exact (step_evolves ih hs).2

/-! ## 5. Pools of reachable worlds -/

/-- **What holds of every pool just made and is kept by every change of a pool holds of every pool
    of every reachable world.** -/
theorem Reachable.pool_induction {Inv : Pool → Prop} (hf : ∀ p, Fresh p → Inv p)
    (hc : ∀ p q, Inv p → Change p q → Inv q) {w : World} (h : Reachable w) :
    ∀ p ∈ w.pools, Inv p := by
  induction h with
  | initial telemetry host => exact fun p hp => absurd hp List.not_mem_nil
  | step l h hs ih => exact (step_evolves (sound_reachable h) hs).1.forall hf hc ih

theorem run_append (w : World) (ls ls' : List Label) :
    w.run (ls ++ ls') = (w.run ls).bind (·.run ls') := by
  induction ls generalizing w with
  | nil => rfl
  | cons l rest ih =>
      rw [List.cons_append, run, run, Option.bind_assoc]
      exact congrArg _ (funext fun v => ih v)

/-- **Along every run a pool keeps its number and goes through changes only.** -/
theorem Reachable.run_change {w w' : World} (h : Reachable w) {ls : List Label}
    (hr : w.run ls = some w') {id : PoolId} {p : Pool} (hp : w.pools[id]? = some p) :
    ∃ q, w'.pools[id]? = some q ∧ Relation.ReflTransGen Change p q := by
  induction ls generalizing w p with
  | nil =>
      cases hr
      exact ⟨p, hp, .refl⟩
  | cons l rest ih =>
      obtain ⟨v, hv, hr⟩ := Option.bind_eq_some_iff.mp hr
      obtain ⟨q, hq, hpq⟩ := (step_evolves (sound_reachable h) hv).1.pool hp
      obtain ⟨r, hr', hqr⟩ := ih (h.step l hv) hr hq
      exact ⟨r, hr', hpq.trans hqr⟩

end World

end WorkerPool
