import WorkerPool.Proofs.Creation

/-!
# Builders, validation and the making of pools agree

A builder keeps of a sequence of settings the last write to each field, and gives the configuration
out if it passes. The same check stands at the door of every pool and of every pair of pools, and
nowhere behind it: who comes with a configuration that does not pass is told its first fault before
anything is made, and who comes with one that passes is never told a fault.

* `Setting.last`, `Builder.written` -- what a sequence of settings amounts to; `setAll_config`;
* `Config.Sound`, `Config.Fails` -- what passes, and which fault comes first otherwise;
* `World.Pending` -- the way of a thread through one call, and through several;
* `start_of_invalid`, `start_of_valid`, `PoolPair.new_reaches` -- what the makers are told;
* `one_check_for_all`.
-/

namespace WorkerPool

/-! ## 1. Settings -/

/-- The fields of a configuration that settings write to. -/
inductive Setting.Field where
  | numThreads
  | namePrefix
  | stackSize
  | strategy
  deriving DecidableEq, Repr

namespace Setting

/-- The field that the setting writes to. -/
def field : Setting → Field
  | .numThreads _ => .numThreads
  | .namePrefix _ => .namePrefix
  | .stackSize _ | .defaultStackSize => .stackSize
  | .strategy _ => .strategy

/-- What the setting writes as the number of workers. -/
def threads? : Setting → Option (Option UInt64)
  | .numThreads n => some (some n)
  | _ => none

/-- What the setting writes as the beginning of names. -/
def name? : Setting → Option String
  | .namePrefix text => some text
  | _ => none

/-- What the setting writes as the size of stacks. -/
def stack? : Setting → Option (Option UInt64)
  | .stackSize bytes => some (some bytes)
  | .defaultStackSize => some none
  | _ => none

/-- What the setting writes as the strategy. -/
def strategy? : Setting → Option Strategy
  | .strategy s => some s
  | _ => none

/-- The last of these writes, or what was there before them. -/
def last {β : Type} (write? : Setting → Option β) (before : β) (settings : List Setting) : β :=
  (settings.filterMap write?).getLast?.getD before

@[simp] theorem last_nil {β : Type} (write? : Setting → Option β) (before : β) :
    last write? before [] = before := rfl

/-- A write counts until the next one. -/
theorem last_cons {β : Type} (write? : Setting → Option β) (before : β) (s : Setting)
    (rest : List Setting) :
    last write? before (s :: rest) = last write? ((write? s).getD before) rest := by
  cases hs : write? s with
  | none => simp [last, hs]
  | some b => simp [last, hs, List.getLast?_cons]

end Setting

namespace Builder

/-- The configuration in which each field has the last of these writes to it. -/
def written (b : Builder) (settings : List Setting) : Config where
  numThreads := Setting.last Setting.threads? b.config.numThreads settings
  namePrefix := Setting.last Setting.name? b.config.namePrefix settings
  stackSize := Setting.last Setting.stack? b.config.stackSize settings
  strategy := Setting.last Setting.strategy? b.config.strategy settings

theorem written_cons (b : Builder) (s : Setting) (rest : List Setting) :
    b.written (s :: rest) = (b.set s).written rest := by
  simp only [written, Setting.last_cons]
  cases s <;> rfl

/-- **A builder keeps the last write to each field.** -/
theorem setAll_config (b : Builder) (settings : List Setting) :
    (b.setAll settings).config = b.written settings := by
  induction settings generalizing b with
  | nil => rfl
  | cons s rest ih =>
      rw [written_cons, ← ih (b.set s)]
      rfl

theorem setAll_append (b : Builder) (before after : List Setting) :
    b.setAll (before ++ after) = (b.setAll before).setAll after := List.foldl_append

/-- Writes to different fields commute. -/
theorem set_comm (b : Builder) {s t : Setting} (h : s.field ≠ t.field) :
    (b.set s).set t = (b.set t).set s := by
  cases s <;> cases t <;> first | rfl | exact absurd rfl h

/-- Of two writes to one field the second counts. -/
theorem set_overwrites (b : Builder) {s t : Setting} (h : s.field = t.field) :
    (b.set s).set t = b.set t := by
  cases s <;> cases t <;> first | rfl | cases h

end Builder

/-! ## 2. What passes -/

namespace Config

/-- What a configuration has to be to pass. -/
structure Sound (c : Config) : Prop where
  named : c.namePrefix ≠ ""
  clean : '\x00' ∉ c.namePrefix.toList
  stack : ∀ size, c.stackSize = some size → minStackSize ≤ size

/-- This is the first fault of the configuration. -/
def Fails (c : Config) : Fault → Prop
  | .emptyPrefix => c.namePrefix = ""
  | .nulInPrefix => c.namePrefix ≠ "" ∧ '\x00' ∈ c.namePrefix.toList
  | .smallStack => c.namePrefix ≠ "" ∧ '\x00' ∉ c.namePrefix.toList ∧
      ∃ size, c.stackSize = some size ∧ size < minStackSize

theorem stackTooSmall_iff {stack : Option UInt64} :
    stackTooSmall stack = true ↔ ∃ size, stack = some size ∧ size < minStackSize := by
  cases stack <;> simp [stackTooSmall]

theorem fault?_eq_some_iff {c : Config} {fault : Fault} :
    c.fault? = some fault ↔ c.Fails fault := by
  unfold fault?
  split
  · next he => cases fault <;> simp_all [Fails]
  · next he =>
    split
    · next hn => cases fault <;> simp_all [Fails]
    · next hn =>
      split
      · next hs =>
        rw [stackTooSmall_iff] at hs
        cases fault <;> simp_all [Fails]
      · next hs =>
        rw [stackTooSmall_iff] at hs
        cases fault <;> simp_all [Fails]

theorem fault?_eq_none_iff {c : Config} : c.fault? = none ↔ c.Sound := by
  refine ⟨fun h => ?_, fun h => ?_⟩
  · have hno (fault : Fault) : ¬ c.Fails fault := fun hf => by
      rw [fault?_eq_some_iff.mpr hf] at h
      cases h
    have hnamed : c.namePrefix ≠ "" := hno .emptyPrefix
    have hclean : '\x00' ∉ c.namePrefix.toList := fun hn => hno .nulInPrefix ⟨hnamed, hn⟩
    exact ⟨hnamed, hclean, fun size hs => UInt64.not_lt.mp fun hlt =>
      hno .smallStack ⟨hnamed, hclean, size, hs, hlt⟩⟩
  · refine Option.eq_none_iff_forall_ne_some.mpr fun fault hf => ?_
    have hf := fault?_eq_some_iff.mp hf
    cases fault with
    | emptyPrefix => exact h.named hf
    | nulInPrefix => exact h.clean hf.2
    | smallStack =>
        obtain ⟨-, -, size, hs, hlt⟩ := hf
        exact UInt64.not_lt.mpr (h.stack size hs) hlt

/-- **A configuration passes exactly if it is sound.** -/
theorem validate_eq_ok_iff_sound {c : Config} : c.validate = .ok () ↔ c.Sound :=
  validate_eq_ok_iff.trans fault?_eq_none_iff

/-- **The error of a configuration is its first fault.** -/
theorem validate_eq_error_iff_fails {c : Config} {e : Error} :
    c.validate = .error e ↔ ∃ fault, c.Fails fault ∧ e = .config fault.reason := by
  rw [validate_eq_error_iff]
  simp only [fault?_eq_some_iff]

end Config

namespace Builder

theorem build_eq_ok_iff {b : Builder} {c : Config} :
    b.build = .ok c ↔ b.config.validate = .ok () ∧ c = b.config := by
  unfold build
  split
  · next h => simp [h, eq_comm]
  · next e h => simp [h]

theorem build_eq_error_iff {b : Builder} {e : Error} :
    b.build = .error e ↔ b.config.validate = .error e := by
  unfold build
  split
  · next h => simp [h]
  · next e' h => simp [h]

end Builder

/-! ## 3. Through one call and through several -/

/-- An answered program goes on, or sleeps towards the same answer. -/
theorem Activity.Answered.next_cases {before after : Activity} {next : Reply → Program}
    (h : before.Answered after) (hn : before.next? = some next) :
    after.next? = some next ∨ ∃ r, after = .going (next r) := by
  cases h with
  | told r hr hb =>
      obtain rfl := Option.some.inj (hb.symm.trans hn)
      exact .inr ⟨r, rfl⟩
  | sleeps wakeAt hb =>
      subst hb
      exact .inl hn

namespace World

/-- The thread is about to make a call, or inside it, and goes on with the answer. -/
def Pending (thread : ThreadId) (next : Reply → Program) (w : World) : Prop :=
  ∃ a, w.activity? thread = some a ∧ a.next? = some next

section Pending

variable {w w' v : World} {thread : ThreadId} {next : Reply → Program} {l : Label}
  {ls : List Label}

theorem Touches.next_cases {before after : Activity} {ps : List Pool}
    (h : Touches w thread before ps after) (hn : before.next? = some next) :
    after.next? = some next ∨ ∃ r, after = .going (next r) := by
  cases h with
  | nothing ha => exact ha.next_cases hn
  | notes n hp ha => exact ha.next_cases hn
  | founds config refusal hb =>
      subst hb
      exact .inl hn
  | enters hp hb => cases hb <;> exact .inl hn
  | @moves id p q s step next' hb hp hl h =>
      subst hb
      obtain rfl := Option.some.inj hn
      cases step with
      | stage s => exact .inl rfl
      | reply r => exact .inr ⟨r, rfl⟩

/-- **A step leaves a thread at its call, or the thread is told the answer.** -/
theorem Pending.step (h : w.Reachable) (hs : w.step l = some v) (hp : w.Pending thread next) :
    v.Pending thread next ∨ ∃ r, v.activity? thread = some (.going (next r)) := by
  obtain ⟨a, ha, hn⟩ := hp
  cases hl : l.isOf thread with
  | false => exact .inl ⟨a, step_activity (sound_reachable h) hs ha hl, hn⟩
  | true =>
      have hgo : a.isOver = false := by
        cases a with
        | going program => cases program <;> first | rfl | cases hn
        | _ => rfl
      obtain ⟨choice, u, a', hadv, ha', -⟩ := step_own (sound_reachable h) hs ha hl hgo
      rcases (advance_passage hadv).touches.next_cases hn with hn' | ⟨r, rfl⟩
      · exact .inl ⟨a', ha', hn'⟩
      · exact .inr ⟨r, ha'⟩

/-- **A thread is at its call all the way, or until it is told the answer.** -/
theorem Pending.run (h : w.Reachable) (hr : w.run ls = some w') (hp : w.Pending thread next) :
    w.Reaches ls w' (Pending thread next) fun v =>
      ∃ r, v.activity? thread = some (.going (next r)) :=
  reaches_of_step (fun _ _ _ h hs hp => hp.step h hs) h hr hp

theorem At.pending {c : Call} {id : PoolId} (h : At thread c next id w) : w.Pending thread next :=
  h.elim (fun h => ⟨_, h, rfl⟩) fun h => ⟨_, h, rfl⟩

theorem pending_of_call {c : Call} (h : w.activity? thread = some (.going (.call c next))) :
    w.Pending thread next := ⟨_, h, rfl⟩

end Pending

/-! ## 4. Making a pool -/

section Making

variable {w w' v : World} {thread : ThreadId} {next : Reply → Program} {l : Label}
  {ls : List Label} {config : Config}

/-- A pool so made meets a refusal, or it does not. -/
theorem refuses_or_grants (host : Host) (id : PoolId) (config : Config) :
    host.Grants id config ∨ ∃ k cause, host.Refuses id config k cause := by
  classical
  by_cases hg : host.Grants id config
  · exact .inl hg
  · have hex : ∃ k, k < config.crew host.cpus ∧ host.refusal id config k ≠ none := by
      unfold Host.Grants at hg
      push Not at hg
      exact hg
    obtain ⟨hlt, hne⟩ := Nat.find_spec hex
    obtain ⟨cause, hcause⟩ := Option.ne_none_iff_exists'.mp hne
    refine .inr ⟨Nat.find hex, cause, hlt, hcause, fun i hi => ?_⟩
    by_contra hno
    exact Nat.find_min hex hi ⟨hi.trans hlt, hno⟩

/-- The thread was told the pool that it asked for, or a refusal by the system. -/
def Served (thread : ThreadId) (next : Reply → Program) (w : World) : Prop :=
  (∃ id, w.activity? thread = some (.going (next (.pool id)))) ∨
    ∃ worker cause, w.activity? thread = some (.going (next (.failed (.spawn worker cause))))

/-- **Who comes with a configuration that passes is never told a fault.** -/
theorem start_of_valid (h : w.Reachable) (hr : w.run ls = some w')
    (ha : w.activity? thread = some (.going (.call (.start config) next)))
    (hv : config.validate = .ok ()) :
    w.Reaches ls w' (Pending thread next) (Served thread next) := by
  obtain ⟨id, -, -, hrefused, hgranted⟩ := start_course h hr ha hv
  rcases refuses_or_grants w.host id config with hg | ⟨k, cause, hk⟩
  · cases hgranted hg with
    | on hall hmove hle => exact .inl (hall.mono fun _ => At.pending)
    | told hcomes hlast hact hkeeps hafter hle =>
        obtain ⟨rfl, -⟩ := hafter
        exact .inr ⟨_, _, _, hcomes.mono fun _ => At.pending, .inl ⟨_, hact⟩⟩
  · cases hrefused k cause hk with
    | on hall hmove hle => exact .inl (hall.mono fun _ => At.pending)
    | told hcomes hlast hact hkeeps hafter hle =>
        obtain ⟨rfl, -⟩ := hafter
        exact .inr ⟨_, _, _, hcomes.mono fun _ => At.pending, .inr ⟨_, _, hact⟩⟩

/-- In the step from `w` to `v` the thread was told this error, and no pool was made or touched. -/
structure TurnsAway (w v : World) (thread : ThreadId) (next : Reply → Program) (e : Error) : Prop
    where
  told : v.activity? thread = some (.going (next (.failed e)))
  pools : v.pools.length = w.pools.length
  trace : ∀ (id : PoolId) (p : Pool), w.pools[id]? = some p →
    ∃ q, v.pools[id]? = some q ∧ q.trace = p.trace

/-- **Who comes with any other is told the error in the first step**, before anything is made. -/
theorem start_of_invalid (h : w.Reachable)
    (ha : w.activity? thread = some (.going (.call (.start config) next))) {e : Error}
    (hv : config.validate = .error e) :
    w.CanMove thread ∧ ∀ l v, w.step l = some v → l.isOf thread = true →
      w.TurnsAway v thread next e := by
  refine ⟨canMove_of_advance 0 ha (by simp only [advance, begin, hv]; rfl), fun l v hs hl => ?_⟩
  obtain ⟨choice, u, a', hadv, ha', hpools⟩ := step_own (sound_reachable h) hs ha hl rfl
  simp only [advance, begin, hv, Option.some.injEq, Prod.mk.injEq] at hadv
  obtain ⟨rfl, rfl⟩ := hadv
  rcases hpools with e' | ⟨j, i, job, -, e'⟩
  · exact ⟨ha', by rw [e'], fun id p hp => ⟨p, e' ▸ hp, rfl⟩⟩
  · refine ⟨ha', by rw [e', List.length_modify], fun id p hp => ?_⟩
    rw [e', List.getElem?_modify, hp]
    by_cases hj : j = id
    · exact ⟨p.setStage i (.running job (.going (next (.failed e)))), by simp [hj], rfl⟩
    · exact ⟨p, by simp [hj], rfl⟩

end Making

end World

/-! ## 5. Making a pair of pools -/

namespace PoolPair

open World (Pending Reaches Served)

variable {config : PairConfig} {next : Except Error PoolPair → Program} {thread : ThreadId}
  {w w' : World} {ls : List Label}

theorem validate_of_cpu {e : Error} (h : config.cpu.validate = .error e) :
    config.validate = .error e := by
  unfold PairConfig.validate
  rw [h]

theorem validate_of_db {e : Error} (hc : config.cpu.validate = .ok ())
    (h : config.db.validate = .error e) : config.validate = .error e := by
  unfold PairConfig.validate
  rw [hc, h]

theorem validate_of_parts (hc : config.cpu.validate = .ok ()) (hd : config.db.validate = .ok ()) :
    config.validate = .ok () := by
  unfold PairConfig.validate
  rw [hc, hd]

/-- The thread is on its way to a pair, or back from half of one. -/
inductive Making (config : PairConfig) (next : Except Error PoolPair → Program)
    (thread : ThreadId) (w : World) : Prop where
  | first (h : w.Pending thread (withFirst config next))
  | second (cpu : PoolId) (h : w.Pending thread (withSecond cpu next))
  | announcing (pair : PoolPair) (h : w.Pending thread fun _ => next (.ok pair))
  | undoing (cpu worker : Nat) (cause : SystemError) (h : w.Pending thread fun _ =>
      .call (.drop cpu) fun _ => next (.error (.spawn worker cause)))
  | givingUp (worker : Nat) (cause : SystemError)
      (h : w.Pending thread fun _ => next (.error (.spawn worker cause)))

/-- The thread was told the pair that it asked for, or a refusal by the system. -/
def Settled (thread : ThreadId) (next : Except Error PoolPair → Program) (w : World) : Prop :=
  (∃ pair, w.activity? thread = some (.going (next (.ok pair)))) ∨
    ∃ worker cause, w.activity? thread = some (.going (next (.error (.spawn worker cause))))

/-- Back from half a pair. -/
theorem undo_reaches (h : w.Reachable) (hr : w.run ls = some w') {cpu worker : Nat}
    {cause : SystemError}
    (ha : w.activity? thread = some (.going (.call (.shutdown cpu .immediate) fun _ =>
      .call (.drop cpu) fun _ => next (.error (.spawn worker cause))))) :
    w.Reaches ls w' (Making config next thread) (Settled thread next) := by
  refine ((World.pending_of_call ha).run h hr).trans (fun u => .undoing cpu worker cause)
    fun done v left hcomes ⟨r, hv⟩ => .inl ?_
  have hdrop : v.Pending thread fun _ => next (.error (.spawn worker cause)) :=
    World.pending_of_call hv
  exact ⟨.givingUp worker cause hdrop, (hdrop.run (h.run hcomes.here) hcomes.on).mono
    (fun u => .givingUp worker cause) fun u ⟨r, hu⟩ => .inr ⟨worker, cause, hu⟩⟩

/-- The second pool, and the end. -/
theorem second_reaches (h : w.Reachable) (hr : w.run ls = some w') {cpu : PoolId}
    (ha : w.activity? thread = some (.going (.call (.start config.db) (withSecond cpu next))))
    (hd : config.db.validate = .ok ()) :
    w.Reaches ls w' (Making config next thread) (Settled thread next) := by
  refine (World.start_of_valid h hr ha hd).trans (fun u => .second cpu)
    fun done v left hcomes hv => .inl ?_
  have hreach := h.run hcomes.here
  rcases hv with ⟨db, hv⟩ | ⟨worker, cause, hv⟩
  · have hannounce : v.Pending thread fun _ => next (.ok ⟨cpu, db⟩) := World.pending_of_call hv
    exact ⟨.announcing ⟨cpu, db⟩ hannounce, (hannounce.run hreach hcomes.on).mono
      (fun u => .announcing ⟨cpu, db⟩) fun u ⟨r, hu⟩ => .inl ⟨⟨cpu, db⟩, hu⟩⟩
  · exact ⟨.undoing cpu worker cause (World.pending_of_call hv),
      undo_reaches hreach hcomes.on hv⟩

/-- **Who comes with two configurations that pass is never told a fault.** -/
theorem new_reaches (h : w.Reachable) (hr : w.run ls = some w')
    (ha : w.activity? thread = some (.going (new config next)))
    (hc : config.cpu.validate = .ok ()) (hd : config.db.validate = .ok ()) :
    w.Reaches ls w' (Making config next thread) (Settled thread next) := by
  rw [new_of_valid (validate_of_parts hc hd)] at ha
  refine (World.start_of_valid h hr ha hc).trans (fun _ => .first) fun done v left hcomes hv => ?_
  rcases hv with ⟨cpu, hv⟩ | ⟨worker, cause, hv⟩
  · exact .inl ⟨.second cpu (World.pending_of_call hv),
      second_reaches (h.run hcomes.here) hcomes.on hv hd⟩
  · exact .inr (.inr ⟨worker, cause, hv⟩)

end PoolPair

/-! ## 6. One check -/

open World (Pending Served)

/-- **Builders, the check, and the makers of pools and of pairs agree.**

    From whatever a builder starts with, after any sequence of settings it has the last write to
    each field; two writes to different fields commute, and of two to one field the second counts,
    leaving the stack size to the system being a write to it like any other. It gives out just that
    configuration if its prefix is not empty and has no NUL and its stack size is absent or large
    enough, and otherwise the account of the first fault, in this order; what it gives out passes.

    A thread that comes with a configuration that does not pass can move, and is told the same error
    in its first step, in which no pool is made or touched; one whose configuration passes is at the
    call until it is told the pool or a refusal by the system. A pair with a part that does not pass
    begins no call: the error is that of the computing half, or that of the other if the computing
    half passes. When both halves pass, the thread is on its way until it is told the pair or a
    refusal by the system. -/
theorem one_check_for_all {w w' : World} (h : w.Reachable) {ls : List Label}
    (hr : w.run ls = some w') (thread : ThreadId) :
    (∀ (b : Builder) (settings : List Setting),
      (b.setAll settings).config = b.written settings ∧
      ((b.setAll settings).build = .ok (b.written settings) ↔ (b.written settings).Sound) ∧
      (∀ c, (b.setAll settings).build = .ok c → c = b.written settings ∧ c.validate = .ok ()) ∧
      ∀ e, (b.setAll settings).build = .error e ↔
        ∃ fault, (b.written settings).Fails fault ∧ e = .config fault.reason) ∧
    (∀ (b : Builder) (before after : List Setting) (s t : Setting),
      (s.field ≠ t.field →
        b.setAll (before ++ s :: t :: after) = b.setAll (before ++ t :: s :: after)) ∧
      (s.field = t.field →
        b.setAll (before ++ s :: t :: after) = b.setAll (before ++ t :: after))) ∧
    (∀ (config : Config) (next : Reply → Program),
      w.activity? thread = some (.going (.call (.start config) next)) →
      (∀ e, config.validate = .error e →
        (∃ fault, config.Fails fault ∧ e = .config fault.reason) ∧ w.CanMove thread ∧
        ∀ l v, w.step l = some v → l.isOf thread = true → w.TurnsAway v thread next e) ∧
      (config.validate = .ok () →
        w.Reaches ls w' (Pending thread next) (Served thread next))) ∧
    ∀ (config : PairConfig) (next : Except Error PoolPair → Program),
      (∀ e, config.cpu.validate = .error e → PoolPair.new config next = next (.error e)) ∧
      (∀ e, config.cpu.validate = .ok () → config.db.validate = .error e →
        PoolPair.new config next = next (.error e)) ∧
      (config.cpu.validate = .ok () → config.db.validate = .ok () →
        w.activity? thread = some (.going (PoolPair.new config next)) →
        w.Reaches ls w' (PoolPair.Making config next thread) (PoolPair.Settled thread next)) := by
  refine ⟨fun b settings => ?_, fun b before after s t => ?_, fun config next ha => ?_,
    fun config next => ?_⟩
  · have hconfig := b.setAll_config settings
    refine ⟨hconfig, ?_, fun c hc => ?_, fun e => ?_⟩
    · rw [Builder.build_eq_ok_iff, hconfig, Config.validate_eq_ok_iff_sound]
      exact and_iff_left rfl
    · obtain ⟨hv, rfl⟩ := Builder.build_eq_ok_iff.mp hc
      exact ⟨hconfig, hv⟩
    · rw [Builder.build_eq_error_iff, hconfig, Config.validate_eq_error_iff_fails]
  · have hsplit (rest : List Setting) :
        b.setAll (before ++ rest) = (b.setAll before).setAll rest := b.setAll_append before rest
    refine ⟨fun hne => ?_, fun he => ?_⟩
    · rw [hsplit, hsplit]
      exact congrArg (Builder.setAll · after) (Builder.set_comm _ hne)
    · rw [hsplit, hsplit]
      exact congrArg (Builder.setAll · after) (Builder.set_overwrites _ he)
  · refine ⟨fun e he => ⟨Config.validate_eq_error_iff_fails.mp he, ?_⟩, fun hv => ?_⟩
    · exact World.start_of_invalid h ha he
    · exact World.start_of_valid h hr ha hv
  · refine ⟨fun e he => ?_, fun e hc he => ?_, fun hc hd ha => ?_⟩
    · exact PoolPair.new_of_invalid (PoolPair.validate_of_cpu he)
    · exact PoolPair.new_of_invalid (PoolPair.validate_of_db hc he)
    · exact PoolPair.new_reaches h hr ha hc hd

/-- A configuration with two faults, of which the second is the smaller stack. -/
def faulty : Config := { Config.withThreads 1 with namePrefix := "a\x00b", stackSize := some 1 }

/-- A thread comes with it, and then asks for a pool of one worker. -/
def persistent : Program :=
  .call (.start faulty) fun _ => .call (.start (Config.withThreads 1)) fun r => .finish [r]

/-- The thread is turned away for the NUL, and gets its pool then. -/
theorem one_check_for_all_when_faulty : ∃ v w : World,
    (World.scarceWith persistent).run (moves (.caller 0) 1) = some v ∧
    v.run (moves (.caller 0) 4) = some w ∧
    (World.scarceWith persistent).TurnsAway v (.caller 0)
      (fun _ => .call (.start (Config.withThreads 1)) fun r => .finish [r])
      (.config "thread_name_prefix must not contain NUL bytes") ∧
    (∃ u, Served (.caller 0) (fun r => .finish [r]) u) ∧
    (Builder.new.setAll [.stackSize 1, .namePrefix "", .defaultStackSize,
      .namePrefix "w"]).build = .ok { Config.standard with namePrefix := "w", stackSize := none } ∧
    ∀ next, PoolPair.new ⟨Config.standard, faulty⟩ next =
      next (.error (.config "thread_name_prefix must not contain NUL bytes")) := by
  have hv : (((World.scarceWith persistent).run (moves (.caller 0) 1)).bind fun v =>
      (v.run (moves (.caller 0) 4)).bind (·.activity? (.caller 0))) =
        some (.going (.finish [.pool 0])) := rfl
  obtain ⟨v, hv, hrun⟩ := Option.bind_eq_some_iff.mp hv
  obtain ⟨w, hw, hend⟩ := Option.bind_eq_some_iff.mp hrun
  have h := World.scarceWith_reachable persistent
  have hfault : faulty.validate =
      .error (.config "thread_name_prefix must not contain NUL bytes") := rfl
  obtain ⟨hbuild, -, hstart, hpair⟩ := one_check_for_all h hv (.caller 0)
  obtain ⟨-, -, hturn⟩ := (hstart faulty _ rfl).1 _ hfault
  have haway := hturn (.act (.caller 0) 0) v (by simpa [moves, World.run] using hv) rfl
  obtain ⟨-, -, hnext, -⟩ := one_check_for_all (h.run hv) hw (.caller 0)
  refine ⟨v, w, hv, hw, haway, ?_, ?_, fun next => (hpair ⟨Config.standard, faulty⟩ next).2.1 _ rfl
    hfault⟩
  · rcases (hnext (Config.withThreads 1) _ haway.told).2 rfl with hall | ⟨done, u, left, -, hu⟩
    · obtain ⟨a, ha, hn⟩ := hall.last hw
      obtain rfl := Option.some.inj (ha.symm.trans hend)
      cases hn
    · exact ⟨u, hu⟩
  · refine (hbuild Builder.new _).2.1.mpr ⟨by decide, by decide, fun size hs => ?_⟩
    cases hs

end WorkerPool
