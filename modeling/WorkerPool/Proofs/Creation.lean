import WorkerPool.Pair
import WorkerPool.Proofs.Unwinding

/-!
# Pools are made wholly or not at all

Who makes a pool gets it with all its workers, or gets the error of the first refusal and nothing is
left: the workers that were there have exited, and the pool was shut down once and given up. A pair
of pools is made likewise: when the second cannot be had, the first is shut down and given up before
the error is passed on. That holds whatever the workers do meanwhile, and it does come to an end:
until then somebody can move who is needed for it, and there is only so much to do.

* `Host.Refuses`, `Host.Grants` -- what meets whoever makes a pool;
* `start_course` -- the making of one pool;
* `PoolPair.Undoing` -- the making of a pair of which the second pool is refused;
* `creation_all_or_nothing`.
-/

namespace WorkerPool

open World (Along At Only Course Keeps)

/-! ## 1. One pool -/

/-- How many workers a pool so made has, on a machine with so many processors. -/
def Config.crew (config : Config) (cpus : UInt64) : Nat := max 1 (config.workerThreads cpus).toNat

/-- Whoever makes the pool of this number so is refused the thread of worker `k`, for this cause, and
    no thread before. -/
structure Host.Refuses (host : Host) (id : PoolId) (config : Config) (k : Nat)
    (cause : SystemError) : Prop where
  lt : k < config.crew host.cpus
  cause : host.refusal id config k = some cause
  first : ∀ i < k, host.refusal id config i = none

/-- Whoever makes the pool of this number so is refused no thread. -/
def Host.Grants (host : Host) (id : PoolId) (config : Config) : Prop :=
  ∀ i < config.crew host.cpus, host.refusal id config i = none

section One

variable {w w' : World} {thread : ThreadId} {ls : List Label} {next : Reply → Program}
  {config : Config} {k : Nat} {cause : SystemError}

theorem founded_size (refusal : Nat → Option SystemError) (id : PoolId) (cpus : UInt64)
    (telemetry : Bool) (now : Nat) :
    (World.founded thread refusal id config cpus telemetry now).size = config.crew cpus := by
  show (Pool.ofConfig id config cpus telemetry now).size = config.crew cpus
  simp only [Pool.ofConfig]
  split <;> rfl

theorem founded_intact (refusal : Nat → Option SystemError) (id : PoolId) (cpus : UInt64)
    (telemetry : Bool) (now : Nat) :
    (World.founded thread refusal id config cpus telemetry now).Intact 0 0 := by
  have hb : (World.founded thread refusal id config cpus telemetry now).Blank :=
    Pool.Fresh.blank ⟨_, _, _, _, _, _, _, rfl⟩
  refine ⟨⟨?_, by rw [hb.stages]; rfl, ?_, ?_⟩, by rw [hb.handles]; rfl⟩
  · exact hb.inOrder_eq_nil fun _ => rfl
  · exact hb.inOrder_eq_nil fun _ => rfl
  · exact hb.inOrder_eq_nil fun _ => rfl

/-- At every place on the way to an error the pool is in the making. -/
theorem ofMaker_of_aborts {p : Pool} {s : CallStage} {refusal : Nat → Option SystemError}
    (h : s.Aborts refusal thread k cause p) : s.ofMaker = true := by
  rcases h with ⟨n, rfl, -⟩ | h | h
  · rfl
  · cases s with
    | raising w | halting w | emptying w joined | reporting w joined =>
        obtain ⟨rfl, -⟩ := h
        rfl
    | announcing mode w | closing mode w | taking mode w | joining mode w left joined =>
        cases mode with
        | graceful => exact h.elim
        | immediate =>
            obtain ⟨rfl, -⟩ := h
            rfl
    | _ => exact h.elim
  · cases s with
    | dropping o | releasing o =>
        obtain ⟨rfl, -⟩ := h
        rfl
    | _ => exact h.elim

/-- **The making of a pool**, by whether it meets a refusal. -/
theorem start_course (h : w.Reachable) (hr : w.run ls = some w')
    (ha : w.activity? thread = some (.going (.call (.start config) next)))
    (hv : config.validate = .ok ()) :
    ∃ id, w.pools.length ≤ id ∧ w.Finds ls thread id ∧
      (∀ k cause, w.host.Refuses id config k cause →
        Course w ls w' thread (.start config) next id
          (Pool.Dropped thread (k + 1) k (.failed (.spawn k cause))) (11 * k + 20)) ∧
      (w.host.Grants id config →
        Course w ls w' thread (.start config) next id (Pool.Had (config.crew w.host.cpus))
          (11 * config.crew w.host.cpus + 20)) := by
  obtain ⟨id, hid, hfinds, hcourse⟩ := World.start_run h hr ha hv
  refine ⟨id, hid, hfinds, fun k cause hk => ?_, fun hg => ?_⟩
  · refine hcourse (Pool.aborting hk.first hk.cause) (fun p s => ofMaker_of_aborts)
      fun telemetry now => .inl ⟨0, rfl, Nat.zero_le k, ?_, founded_intact ..⟩
    rw [founded_size]
    exact hk.lt
  · refine hcourse (Pool.forming hg) (fun p s hs => ?_) fun telemetry now =>
      ⟨rfl, Nat.zero_le _, founded_size .., founded_intact ..⟩
    cases s with
    | spawning | opening => rfl
    | _ => exact hs.elim

end One

/-! ## 2. A pair -/

/-- Nobody else comes to a pool once the thread has been inside a call on it. -/
def World.Apart (w : World) (thread : ThreadId) (ls : List Label) : Prop :=
  ∀ done left v id, ls = done ++ left → w.run done = some v → v.inside thread = some id →
    v.Along (Only thread id) left

namespace PoolPair

variable {config : PairConfig} {next : Except Error PoolPair → Program}

/-- What is left to make a pair after the second pool was asked for. -/
def withSecond (cpu : PoolId) (next : Except Error PoolPair → Program) : Reply → Program
  | .pool db => .call (.announcePair cpu db) fun _ => next (.ok ⟨cpu, db⟩)
  | .failed e => .call (.shutdown cpu .immediate) fun _ => .call (.drop cpu) fun _ =>
      next (.error e)
  | _ => .finish []

/-- What is left to make a pair after the first pool was asked for. -/
def withFirst (config : PairConfig) (next : Except Error PoolPair → Program) : Reply → Program
  | .pool cpu => .call (.start config.db) (withSecond cpu next)
  | .failed e => next (.error e)
  | _ => .finish []

theorem new_of_valid (h : config.validate = .ok ()) :
    new config next = .call (.start config.cpu) (withFirst config next) := by
  unfold new
  rw [h]
  refine congrArg (Program.call (.start config.cpu)) (funext fun r => ?_)
  cases r with
  | pool cpu =>
      refine congrArg (Program.call (.start config.db)) (funext fun r => ?_)
      cases r <;> rfl
  | _ => rfl

theorem new_of_invalid {e : Error} (h : config.validate = .error e) :
    new config next = next (.error e) := by
  unfold new
  rw [h]

theorem parts_of_valid (h : config.validate = .ok ()) :
    config.cpu.validate = .ok () ∧ config.db.validate = .ok () := by
  unfold PairConfig.validate at h
  split at h
  · cases h
  · next hc => exact ⟨hc, h⟩

/-- The thread is on its way to be told that the pair cannot be had, for this error. -/
def Underway (config : PairConfig) (next : Except Error PoolPair → Program) (thread : ThreadId)
    (cpu db : PoolId) (e : Error) (w : World) : Prop :=
  At thread (.start config.cpu) (withFirst config next) cpu w ∨
  At thread (.start config.db) (withSecond cpu next) db w ∨
  At thread (.shutdown cpu .immediate) (fun _ => .call (.drop cpu) fun _ => next (.error e)) cpu w ∨
  At thread (.drop cpu) (fun _ => next (.error e)) cpu w

/-- The moves of the thread and of the workers of both pools. -/
def stirs (thread : ThreadId) (cpu db : PoolId) (ls : List Label) : Nat :=
  ls.countP (·.isOf thread) + ls.countP (·.isWork cpu) + ls.countP (·.isWork db)

/-- The sleepers of both pools woken for no reason. -/
def wakes (cpu db : PoolId) (ls : List Label) : Nat :=
  ls.countP (·.isWake cpu) + ls.countP (·.isWake db)

theorem stirs_comm (thread : ThreadId) (cpu db : PoolId) (ls : List Label) :
    stirs thread cpu db ls = stirs thread db cpu ls := Nat.add_right_comm ..

theorem wakes_comm (cpu db : PoolId) (ls : List Label) : wakes cpu db ls = wakes db cpu ls :=
  Nat.add_comm ..

/-- Before the second pool is there, only the workers of the first move. -/
theorem stirs_of_unmade {w w' : World} {thread : ThreadId} {cpu db : PoolId} {ls : List Label}
    (h : w.Reachable) (hr : w.run ls = some w') (hdb : w'.pools.length ≤ db) :
    stirs thread cpu db ls = World.stirs thread cpu ls := by
  rw [stirs, World.countP_isWork_of_unmade h hr hdb, Nat.add_zero, World.stirs]

theorem le_wakes (cpu db : PoolId) (ls : List Label) :
    ls.countP (·.isWake cpu) ≤ wakes cpu db ls := Nat.le_add_right ..

/-- The course of a call on one pool while the thread keeps another one, which idles meanwhile. -/
inductive Leg (w : World) (ls : List Label) (w' : World) (thread : ThreadId) (c : Call)
    (next : Reply → Program) (id other : PoolId) (After : Pool → Reply → Prop) (kept : Pool)
    (budget : Nat) : Prop where
  | on (hall : w.Along (At thread c next id) ls) (hmove : w'.Stirs thread id)
      (hle : stirs thread id other ls ≤ budget + kept.toil + wakes id other ls)
  | told {done left : List Label} {v : World} {p q : Pool} {r : Reply}
      (hcomes : w.Comes ls w' (At thread c next id) done v left)
      (hlast : ∃ some' l u, done = some' ++ [l] ∧ w.run some' = some u ∧
        u.activity? thread = some (.inside id next))
      (ha : v.activity? thread = some (.going (next r))) (hk : v.Keeps thread id p)
      (hafter : After p r) (hidle : v.Idles thread other done kept q)
      (hle : p.toil + q.toil + stirs thread id other done ≤
        budget + kept.toil + wakes id other done)

theorem leg_of_course {w w' : World} {ls : List Label} {thread : ThreadId} {c : Call}
    {next : Reply → Program} {id other : PoolId} {After : Pool → Reply → Prop} {kept : Pool}
    {budget : Nat} (h : w.Reachable) (hr : w.run ls = some w') (hne : id ≠ other)
    (hkept : w.Keeps thread other kept) (honly : w.Along (Only thread other) ls)
    (hcourse : Course w ls w' thread c next id After budget) :
    Leg w ls w' thread c next id other After kept budget := by
  cases hcourse with
  | on hall hmove hle =>
      obtain ⟨q, hq⟩ := hkept.run h hr honly (hall.mono fun _ hu => hu.elsewhere hne)
      refine .on hall hmove ?_
      have hidle := hq.toil
      unfold stirs wakes
      unfold World.stirs at hle
      omega
  | told hcomes hlast ha hk hafter hle =>
      obtain ⟨q, hq⟩ := hkept.run h hcomes.here (hcomes.init honly)
        (hcomes.along (fun _ hu => hu.elsewhere hne) (World.inside_of_going ha other))
      refine .told hcomes hlast ha hk hafter hq ?_
      have hidle := hq.toil
      unfold stirs wakes
      unfold World.stirs at hle
      omega

/-- The course of the making of a pair whose second pool is refused the thread of worker `k`: it goes
    on still, or the thread was told the error and both pools are undone. -/
inductive Undoing (config : PairConfig) (next : Except Error PoolPair → Program)
    (thread : ThreadId) (cpu db : PoolId) (n k : Nat) (cause : SystemError) (w : World)
    (ls : List Label) (w' : World) (budget : Nat) : Prop where
  | on (hall : w.Along (Underway config next thread cpu db (.spawn k cause)) ls)
      (hmove : w'.Stirs thread cpu ∨ w'.Stirs thread db)
      (hle : stirs thread cpu db ls ≤ budget + wakes cpu db ls)
  | told {done left : List Label} {v : World} {c d : Pool}
      (hcomes : w.Comes ls w' (Underway config next thread cpu db (.spawn k cause)) done v left)
      (ha : v.activity? thread = some (.going (next (.error (.spawn k cause)))))
      (hc : v.pools[cpu]? = some c) (hcu : c.Undone thread n n)
      (hd : v.pools[db]? = some d) (hdu : d.Undone thread (k + 1) k)

section Pair

variable {thread : ThreadId} {cpu db : PoolId} {n k : Nat} {cause : SystemError} {w w' v : World}
  {ls done left : List Label} {b b' : Nat} {c d : Pool} {A : World → Prop}

theorem Undoing.after (hcomes : w.Comes ls w' A done v left)
    (hall : w.Along (Underway config next thread cpu db (.spawn k cause)) done)
    (h : Undoing config next thread cpu db n k cause v left w' b')
    (hle : b' + stirs thread cpu db done ≤ b + wakes cpu db done) :
    Undoing config next thread cpu db n k cause w ls w' b := by
  rw [hcomes.split]
  cases h with
  | on hall' hmove hle' =>
      refine .on (hall.append hcomes.here hall') hmove ?_
      unfold stirs wakes at *
      simp only [List.countP_append]
      omega
  | told hcomes' ha hc hcu hd hdu =>
      exact .told (hcomes'.after hcomes.here hall) ha hc hcu hd hdu

/-- **The end of it**: the first pool is shut down, and the thread is about to give it up. -/
theorem undoing_drop (h : v.Reachable) (hr : v.run ls = some w') (hne : cpu ≠ db)
    (ha : v.activity? thread = some (.going (.call (.drop cpu) fun _ =>
      next (.error (.spawn k cause)))))
    (hc : v.Keeps thread cpu c) (hlife : c.life = .serving)
    (ht : c.Tally n n [(thread, .immediate)] [(thread, .immediate, n)])
    (hd : v.Keeps thread db d) (hdead : d.life = .released)
    (hdt : d.Tally (k + 1) k [(thread, .immediate)] [(thread, .immediate, k)])
    (hcpu : v.Along (Only thread cpu) ls) (hdb : v.Along (Only thread db) ls) :
    Undoing config next thread cpu db n k cause v ls w' (c.toil + d.toil + 2 * n + 11) := by
  have hunder (u : World)
      (hu : At thread (.drop cpu) (fun _ => next (.error (.spawn k cause))) cpu u) :
      Underway config next thread cpu db (.spawn k cause) u := .inr (.inr (.inr hu))
  have hrun := World.drop_run h hr ha hc hlife hcpu Pool.dropping fun q hu =>
    ⟨rfl, (ht.unmoved hu).beside [] rfl rfl rfl rfl rfl⟩
  cases leg_of_course h hr hne hd hdb hrun with
  | on hall hmove hle =>
      refine .on (hall.mono hunder) (.inl hmove) ?_
      omega
  | told hcomes hlast hact hk hafter hidle hle =>
      obtain ⟨-, hdead', ht'⟩ := hafter
      have horder {p : Pool} (hp : p ∈ _) := Pool.orderly_reachable (h.run hcomes.here) p hp
      exact .told (hcomes.mono hunder) hact hk.pool
        (ht'.undone (horder (List.mem_of_getElem? hk.pool)) hk.custody hdead') hidle.pool
        ((hdt.unmoved hidle.unmoved).undone (horder (List.mem_of_getElem? hidle.pool))
          hidle.custody (hidle.unmoved.life.trans hdead))

/-- **The way back**: the second pool is undone, and the thread is about to shut the first down. -/
theorem undoing_shutdown (h : v.Reachable) (hr : v.run ls = some w') (hne : cpu ≠ db)
    (ha : v.activity? thread = some (.going (.call (.shutdown cpu .immediate) fun _ =>
      .call (.drop cpu) fun _ => next (.error (.spawn k cause)))))
    (hc : v.Keeps thread cpu c) (hlife : c.life = .serving) (hi : c.Intact n n)
    (hd : v.Keeps thread db d) (hdead : d.life = .released)
    (hdt : d.Tally (k + 1) k [(thread, .immediate)] [(thread, .immediate, k)])
    (hcpu : v.Along (Only thread cpu) ls) (hdb : v.Along (Only thread db) ls) :
    Undoing config next thread cpu db n k cause v ls w' (c.toil + d.toil + 4 * n + 20) := by
  have hunder (u : World) (hu : At thread (.shutdown cpu .immediate)
      (fun _ => .call (.drop cpu) fun _ => next (.error (.spawn k cause))) cpu u) :
      Underway config next thread cpu db (.spawn k cause) u := .inr (.inr (.inl hu))
  have hrun := World.shutdown_run h hr ha hc hlife hcpu Pool.halting fun q hu =>
    ⟨⟨rfl, (hi.unmoved hu).toTally.beside [] rfl rfl rfl rfl rfl, (hi.unmoved hu).handles⟩,
      hu.life.trans hlife⟩
  cases leg_of_course h hr hne hd hdb hrun with
  | on hall hmove hle =>
      refine .on (hall.mono hunder) (.inl hmove) ?_
      omega
  | @told done left u c' d' r hcomes hlast hact hk hafter hidle hle =>
      obtain ⟨rfl, hlife', ht'⟩ := hafter
      have hnext : Underway config next thread cpu db (.spawn k cause) u :=
        .inr (.inr (.inr (.inl hact)))
      have hlater : Undoing config next thread cpu db n k cause u left w' _ :=
        undoing_drop (h.run hcomes.here) hcomes.on hne hact hk hlife' ht' hidle.toKeeps
          (hidle.unmoved.life.trans hdead) (hdt.unmoved hidle.unmoved) (hcomes.tail hcpu)
          (hcomes.tail hdb)
      refine hlater.after hcomes (hcomes.along hunder hnext) ?_
      omega

end Pair

end PoolPair

/-- Once the call is over, nobody else comes to the pool. -/
theorem World.Apart.only {w v w' : World} {thread : ThreadId} {ls done left : List Label}
    {A : World → Prop} {id : PoolId} {next : Reply → Program} (hap : w.Apart thread ls)
    (hcomes : w.Comes ls w' A done v left)
    (hlast : ∃ some' l u, done = some' ++ [l] ∧ w.run some' = some u ∧
      u.activity? thread = some (.inside id next)) : v.Along (Only thread id) left := by
  obtain ⟨some', l, u, hdone, hu, hact⟩ := hlast
  have hin : u.inside thread = some id := by simp [World.inside, hact, Activity.pool?]
  have hstep : u.run [l] = some v := by
    have hhere := hcomes.here
    rwa [hdone, World.run_append, hu, Option.bind_some] at hhere
  refine (hap some' ([l] ++ left) u id ?_ hu hin).tail hstep
  rw [hcomes.split, hdone, List.append_assoc]

theorem World.Apart.tail {w v w' : World} {thread : ThreadId} {ls done left : List Label}
    {A : World → Prop} (hap : w.Apart thread ls) (hcomes : w.Comes ls w' A done v left) :
    v.Apart thread left := by
  intro more rest u id e hu hin
  refine hap (done ++ more) rest u id ?_ ?_ hin
  · rw [hcomes.split, e, List.append_assoc]
  · rw [World.run_append, hcomes.here, Option.bind_some, hu]

namespace PoolPair

section Pair

variable {config : PairConfig} {next : Except Error PoolPair → Program} {thread : ThreadId}
  {cpu : PoolId} {n k : Nat} {cause : SystemError} {w w' v : World} {ls : List Label} {c : Pool}

/-- **The turn**: the thread has the first pool and asks for the second, which it may be refused. -/
theorem undoing_second (h : v.Reachable) (hr : v.run ls = some w')
    (ha : v.activity? thread = some (.going (.call (.start config.db) (withSecond cpu next))))
    (hv : config.db.validate = .ok ()) (hc : v.Keeps thread cpu c) (hlife : c.life = .serving)
    (hi : c.Intact n n) (hcpu : v.Along (Only thread cpu) ls) (hap : v.Apart thread ls) :
    ∃ db, v.pools.length ≤ db ∧ v.Finds ls thread db ∧
      ∀ k cause, v.host.Refuses db config.db k cause →
        Undoing config next thread cpu db n k cause v ls w' (c.toil + 11 * k + 4 * n + 40) := by
  obtain ⟨db, hdb, hfinds, hrun, -⟩ := start_course h hr ha hv
  have hne : cpu ≠ db :=
    Nat.ne_of_lt (Nat.lt_of_lt_of_le (List.getElem?_eq_some_iff.mp hc.pool).1 hdb)
  refine ⟨db, hdb, hfinds, fun k cause hk => ?_⟩
  have hunder (u : World) (hu : At thread (.start config.db) (withSecond cpu next) db u) :
      Underway config next thread cpu db (.spawn k cause) u := .inr (.inl hu)
  cases leg_of_course h hr hne.symm hc hcpu (hrun k cause hk) with
  | on hall hmove hle =>
      refine .on (hall.mono hunder) (.inr hmove) ?_
      rw [stirs_comm, wakes_comm]
      omega
  | @told done left u d c' r hcomes hlast hact hd hafter hidle hle =>
      obtain ⟨rfl, hdead, hdt⟩ := hafter
      have hnext : Underway config next thread cpu db (.spawn k cause) u :=
        .inr (.inr (.inl (.inl hact)))
      have hlater : Undoing config next thread cpu db n k cause u left w' _ :=
        undoing_shutdown (h.run hcomes.here) hcomes.on hne hact hidle.toKeeps
          (hidle.unmoved.life.trans hlife) (hi.unmoved hidle.unmoved) hd hdead hdt
          (hcomes.tail hcpu) (hap.only hcomes hlast)
      refine hlater.after hcomes (hcomes.along hunder hnext) ?_
      rw [stirs_comm, wakes_comm]
      omega

/-- **The making of a pair whose first pool meets no refusal**: the first is in the making still, or
    the thread came to ask for the second. -/
theorem undoing_new (h : w.Reachable) (hvd : config.db.validate = .ok ()) (hap : w.Apart thread ls)
    (hrun : Course w ls w' thread (.start config.cpu) (withFirst config next) cpu (Pool.Had n)
      (11 * n + 20)) :
    (w.Along (At thread (.start config.cpu) (withFirst config next) cpu) ls ∧ w'.Stirs thread cpu ∧
      World.stirs thread cpu ls ≤ 11 * n + 20 + ls.countP (·.isWake cpu)) ∨
    ∃ done v left db,
      w.Comes ls w' (At thread (.start config.cpu) (withFirst config next) cpu) done v left ∧
      v.activity? thread = some (.going (.call (.start config.db) (withSecond cpu next))) ∧
      cpu < v.pools.length ∧ v.pools.length ≤ db ∧ v.Finds left thread db ∧
      ∀ k cause, w.host.Refuses db config.db k cause →
        Undoing config next thread cpu db n k cause w ls w' (15 * n + 11 * k + 60) := by
  cases hrun with
  | on hall hmove hle => exact .inl ⟨hall, hmove, hle⟩
  | @told done left v c r hcomes hlast hact hc hafter hle =>
      obtain ⟨rfl, hlife, hi⟩ := hafter
      have hreach := h.run hcomes.here
      obtain rfl : c.id = cpu := (World.sound_reachable hreach).numbered hc.pool
      obtain ⟨db, hdb, hfinds, hlater⟩ := undoing_second hreach hcomes.on hact hvd hc hlife hi
        (hap.only hcomes hlast) (hap.tail hcomes)
      refine .inr ⟨done, v, left, db, hcomes, hact, (List.getElem?_eq_some_iff.mp hc.pool).1, hdb,
        hfinds, fun k cause hk => ?_⟩
      rw [← World.run_host hcomes.here] at hk
      have hnext : Underway config next thread c.id db (.spawn k cause) v := .inr (.inl (.inl hact))
      refine (hlater k cause hk).after hcomes (hcomes.along (fun _ => .inl) hnext) ?_
      rw [stirs_of_unmade h hcomes.here hdb]
      have hwakes := le_wakes c.id db done
      omega

end Pair

end PoolPair

/-! ## 3. All or nothing -/

/-- **Pools are made wholly or not at all**, whatever other threads and the workers do meanwhile.
    What the machine refuses may depend on the pool as well as on what was asked for: the number of
    the pool is that of the pools there are when its making begins.

    Who makes a pool and is refused the thread of worker `k`, and none before, is told so with the
    cause of the refusal. Until then the thread is inside that call; and then it has asked for the
    workers `0, …, k` in this order and for no other, the `k` workers that were there have exited, no
    task ever came near the pool, one shutdown has begun, an immediate one, it has returned and has
    joined all `k`, and the pool is given up. It does get there: as long as it has not, the thread or
    a worker of the pool can move, and they make no more than `11 k + 20` moves and one for each
    sleeper woken for no reason.

    A pair with an invalid part begins no call. If the first pool of a pair meets a refusal, the
    error follows from there on, and the second is never asked for. If it meets none, the thread gets
    to ask for the second; and if that one meets a refusal, the thread is told that error and no
    other, and then both pools are undone. It gets there likewise. Until the pair is made only its
    maker knows the first pool: that no other thread comes to a pool it has been at is what `Apart`
    says of the run, which may be cut where the error is told. -/
theorem creation_all_or_nothing {w₀ w : World} (h : w₀.Reachable) {ls : List Label}
    (hr : w₀.run ls = some w) (thread : ThreadId) :
    (∀ (config : Config) (next : Reply → Program), config.validate = .ok () →
      w₀.activity? thread = some (.going (.call (.start config) next)) →
      ∃ id, w₀.pools.length ≤ id ∧ w₀.Finds ls thread id ∧
        ∀ k cause, w₀.host.Refuses id config k cause →
          (∃ done v left p, w₀.Comes ls w (At thread (.start config) next id) done v left ∧
            v.activity? thread = some (.going (next (.failed (.spawn k cause)))) ∧
            v.pools[id]? = some p ∧ p.Undone thread (k + 1) k) ∨
          w₀.Along (At thread (.start config) next id) ls ∧ w.Stirs thread id ∧
            World.stirs thread id ls ≤ 11 * k + 20 + ls.countP (·.isWake id)) ∧
    (∀ (config : PairConfig) (next : Except Error PoolPair → Program) (e : Error),
      config.cpu.validate = .error e ∨ config.cpu.validate = .ok () ∧ config.db.validate = .error e →
      PoolPair.new config next = next (.error e)) ∧
    (∀ (config : PairConfig) (next : Except Error PoolPair → Program), config.validate = .ok () →
      w₀.activity? thread = some (.going (PoolPair.new config next)) →
      ∃ cpu, w₀.pools.length ≤ cpu ∧ w₀.Finds ls thread cpu ∧
        (∀ k cause, w₀.host.Refuses cpu config.cpu k cause →
          (∃ done v left c,
            w₀.Comes ls w (At thread (.start config.cpu) (PoolPair.withFirst config next) cpu) done v
              left ∧
            v.activity? thread = some (.going (next (.error (.spawn k cause)))) ∧
            v.pools[cpu]? = some c ∧ c.Undone thread (k + 1) k) ∨
          w₀.Along (At thread (.start config.cpu) (PoolPair.withFirst config next) cpu) ls ∧
            w.Stirs thread cpu ∧
            World.stirs thread cpu ls ≤ 11 * k + 20 + ls.countP (·.isWake cpu)) ∧
        (w₀.host.Grants cpu config.cpu → w₀.Apart thread ls →
          (w₀.Along (At thread (.start config.cpu) (PoolPair.withFirst config next) cpu) ls ∧
            w.Stirs thread cpu ∧
            World.stirs thread cpu ls ≤
              11 * config.cpu.crew w₀.host.cpus + 20 + ls.countP (·.isWake cpu)) ∨
          ∃ asked u rest db,
            w₀.Comes ls w (At thread (.start config.cpu) (PoolPair.withFirst config next) cpu) asked
              u rest ∧
            u.activity? thread =
              some (.going (.call (.start config.db) (PoolPair.withSecond cpu next))) ∧
            cpu < u.pools.length ∧ u.pools.length ≤ db ∧ u.Finds rest thread db ∧
            ∀ k cause, w₀.host.Refuses db config.db k cause →
              (∃ done v left c d,
                w₀.Comes ls w (PoolPair.Underway config next thread cpu db (.spawn k cause)) done v
                  left ∧
                v.activity? thread = some (.going (next (.error (.spawn k cause)))) ∧
                v.pools[cpu]? = some c ∧
                c.Undone thread (config.cpu.crew w₀.host.cpus) (config.cpu.crew w₀.host.cpus) ∧
                v.pools[db]? = some d ∧ d.Undone thread (k + 1) k) ∨
              w₀.Along (PoolPair.Underway config next thread cpu db (.spawn k cause)) ls ∧
                (w.Stirs thread cpu ∨ w.Stirs thread db) ∧
                PoolPair.stirs thread cpu db ls ≤
                  15 * config.cpu.crew w₀.host.cpus + 11 * k + 60 + PoolPair.wakes cpu db ls)) := by
  -- one pool, also as the first of a pair
  have hone {config : Config} {next : Reply → Program} {id : PoolId} {k : Nat} {cause : SystemError}
      (hrun : Course w₀ ls w thread (.start config) next id
        (Pool.Dropped thread (k + 1) k (.failed (.spawn k cause))) (11 * k + 20)) :
      (∃ done v left p, w₀.Comes ls w (At thread (.start config) next id) done v left ∧
        v.activity? thread = some (.going (next (.failed (.spawn k cause)))) ∧
        v.pools[id]? = some p ∧ p.Undone thread (k + 1) k) ∨
      w₀.Along (At thread (.start config) next id) ls ∧ w.Stirs thread id ∧
        World.stirs thread id ls ≤ 11 * k + 20 + ls.countP (·.isWake id) := by
    cases hrun with
    | on hall hmove hle => exact .inr ⟨hall, hmove, hle⟩
    | @told done left v p r hcomes hlast hact hp hafter hle =>
        obtain ⟨rfl, hlife, ht⟩ := hafter
        have ho := Pool.orderly_reachable (h.run hcomes.here) p (List.mem_of_getElem? hp.pool)
        exact .inl ⟨done, v, left, p, hcomes, hact, hp.pool, ht.undone ho hp.custody hlife⟩
  refine ⟨fun config next hv ha => ?_, fun config next e he => ?_, fun config next hv ha => ?_⟩
  · obtain ⟨id, hid, hfinds, hrun, -⟩ := start_course h hr ha hv
    exact ⟨id, hid, hfinds, fun k cause hk => hone (hrun k cause hk)⟩
  · refine PoolPair.new_of_invalid ?_
    unfold PairConfig.validate
    rcases he with he | ⟨hc, he⟩
    · rw [he]
    · rw [hc, he]
  · obtain ⟨hvc, hvd⟩ := PoolPair.parts_of_valid hv
    rw [PoolPair.new_of_valid hv] at ha
    obtain ⟨cpu, hid, hfinds, hrefused, hgranted⟩ := start_course h hr ha hvc
    refine ⟨cpu, hid, hfinds, fun k cause hk => hone (hrefused k cause hk), fun hg hap => ?_⟩
    refine (PoolPair.undoing_new h hvd hap (hgranted hg)).imp_right ?_
    rintro ⟨asked, u, rest, db, hasked, hact, hlt, hdb, hfinds, hsecond⟩
    refine ⟨asked, u, rest, db, hasked, hact, hlt, hdb, hfinds, fun k cause hk => ?_⟩
    cases hsecond k cause hk with
    | on hall hmove hle => exact .inr ⟨hall, hmove, hle⟩
    | @told done left v c d hcomes hact hc hcu hd hdu =>
        exact .inl ⟨done, v, left, c, d, hcomes, hact, hc, hcu, hd, hdu⟩

/-- A machine that refuses the third of three workers, and the second worker of every pool but the
    first. -/
def scarce : Host where
  refusal id config i :=
    if config.numThreads = some 3 ∧ i = 2 ∨ 0 < id ∧ i = 1 then
      some (.numbered 11 .wouldBlock "no more threads")
    else none

/-- The world in which one thread is about to run this program, on that machine. -/
def World.scarceWith (program : Program) : World :=
  { World.initial true scarce with callers := [.going program] }

theorem World.scarceWith_reachable (program : Program) : (World.scarceWith program).Reachable :=
  (World.Reachable.initial true scarce).step (.fork program) rfl

/-- A thread makes a pool of three workers. -/
def three : Program := .call (.start (Config.withThreads 3)) fun _ => .finish []

/-- The third is refused while the first sleeps and the second has not moved yet. -/
def threeSteps : List Label :=
  moves (.caller 0) 3 ++ moves (.worker 0 0) 3 ++ moves (.caller 0) 6 ++ moves (.worker 0 0) 3 ++
    moves (.worker 0 1) 4 ++ moves (.caller 0) 7

/-- A pair of two pools that are asked for alike. -/
def twoAndTwo : PairConfig := ⟨Config.withThreads 2, Config.withThreads 2⟩

/-- A thread makes the pair. -/
def pairing : Program := PoolPair.new twoAndTwo fun _ => .finish []

/-- The first pool is made, and its first worker sleeps; the second worker of the second pool is
    refused, and both pools go. -/
def twoAndTwoSteps : List Label :=
  moves (.caller 0) 2 ++ moves (.worker 0 0) 3 ++ moves (.caller 0) 11 ++ moves (.worker 0 1) 3 ++
    moves (.worker 1 0) 4 ++ moves (.caller 0) 11 ++ moves (.worker 0 0) 3 ++ moves (.caller 0) 2 ++
    moves (.worker 0 1) 3 ++ moves (.caller 0) 7

/-- Where no thread but this one is inside a call in any world of a run, nobody else comes to its
    pools. -/
theorem World.apart_of_all {w : World} {thread : ThreadId} {ls : List Label}
    (hall : ((List.range (ls.length + 1)).all fun n => (w.run (ls.take n)).all fun v =>
      v.pools.all fun p => p.callers.all (decide <| · = thread)) = true) : w.Apart thread ls := by
  intro done left v id hdone hv _ more rest u hmore hu p hp t ht
  have hrun : w.run (ls.take (done ++ more).length) = some u := by
    rw [hdone, hmore, ← List.append_assoc, List.take_left, run_append, hv, Option.bind_some, hu]
  have hlt : (done ++ more).length ∈ List.range (ls.length + 1) := by
    rw [List.mem_range, hdone, hmore]
    simp only [List.length_append]
    omega
  have hworld := List.all_eq_true.mp hall _ hlt
  rw [hrun, Option.all_some] at hworld
  have hpool := List.all_eq_true.mp hworld p (List.mem_of_getElem? hp)
  exact of_decide_eq_true (List.all_eq_true.mp hpool t ht)

/-- The first step of a run, if it is one of the thread, finds the pools that there are. -/
theorem World.Finds.here {w : World} {l : Label} {ls : List Label} {thread : ThreadId} {id : PoolId}
    (h : w.Finds (l :: ls) thread id) (hl : l.isOf thread = true) : id = w.pools.length :=
  (h [] l ls w rfl rfl rfl hl).symm

/-- The error is told and everything is gone, for one pool and for a pair of pools asked for alike,
    of which only the second meets a refusal. -/
theorem creation_all_or_nothing_when_refused :
    (∃ (w v : World) (p : Pool), (World.scarceWith three).Reachable ∧
      (World.scarceWith three).run threeSteps = some w ∧
      (World.scarceWith three).activity? (.caller 0) = some (.going three) ∧
      (Config.withThreads 3).validate = .ok () ∧
      scarce.Refuses 0 (Config.withThreads 3) 2 (.numbered 11 .wouldBlock "no more threads") ∧
      v.activity? (.caller 0) = some (.going (.finish [])) ∧ v.pools[0]? = some p ∧
      p.Undone (.caller 0) 3 2) ∧
    ∃ (w v : World) (c d : Pool) (db : PoolId), (World.scarceWith pairing).Reachable ∧
      (World.scarceWith pairing).run twoAndTwoSteps = some w ∧
      (World.scarceWith pairing).activity? (.caller 0) = some (.going pairing) ∧
      twoAndTwo.validate = .ok () ∧ scarce.Grants 0 twoAndTwo.cpu ∧
      scarce.Refuses db twoAndTwo.db 1 (.numbered 11 .wouldBlock "no more threads") ∧
      (World.scarceWith pairing).Apart (.caller 0) twoAndTwoSteps ∧
      v.activity? (.caller 0) = some (.going (.finish [])) ∧
      (v.pools[0]? = some c ∧ c.Undone (.caller 0) 2 2) ∧
      v.pools[db]? = some d ∧ d.Undone (.caller 0) 2 1 := by
  -- a thread that has ended is not on its way any more
  have hended {w : World} {c : Call} {next : Reply → Program} {id : PoolId}
      (ha : w.activity? (.caller 0) = some (.going (.finish []))) :
      ¬ At (.caller 0) c next id w := by
    simp [At, ha]
  refine ⟨?_, ?_⟩
  · have hend : ((World.scarceWith three).run threeSteps).bind (·.activity? (.caller 0)) =
        some (.going (.finish [])) := rfl
    obtain ⟨w, hw, hend⟩ := Option.bind_eq_some_iff.mp hend
    have h := World.scarceWith_reachable three
    have hk : scarce.Refuses 0 (Config.withThreads 3) 2
        (.numbered 11 .wouldBlock "no more threads") := ⟨by decide, by decide, by decide⟩
    obtain ⟨hone, -⟩ := creation_all_or_nothing h hw (.caller 0)
    obtain ⟨id, -, hfinds, hone⟩ := hone (Config.withThreads 3) (fun _ => .finish []) rfl rfl
    obtain rfl : id = 0 := hfinds.here rfl
    obtain ⟨done, v, left, p, -, hv, hp, hu⟩ | ⟨hall, -⟩ := hone 2 _ hk
    · exact ⟨w, v, p, h, hw, rfl, rfl, hk, hv, hp, hu⟩
    · exact absurd (hall.last hw) (hended hend)
  · have hend : ((World.scarceWith pairing).run twoAndTwoSteps).bind (·.activity? (.caller 0)) =
        some (.going (.finish [])) := rfl
    obtain ⟨w, hw, hend⟩ := Option.bind_eq_some_iff.mp hend
    have h := World.scarceWith_reachable pairing
    have hg : scarce.Grants 0 twoAndTwo.cpu := by
      unfold Host.Grants
      decide
    have hap : (World.scarceWith pairing).Apart (.caller 0) twoAndTwoSteps :=
      World.apart_of_all (by decide)
    obtain ⟨-, -, hpair⟩ := creation_all_or_nothing h hw (.caller 0)
    obtain ⟨cpu, -, hfinds, -, hpair⟩ := hpair twoAndTwo (fun _ => .finish []) rfl rfl
    obtain rfl : cpu = 0 := hfinds.here rfl
    obtain ⟨hall, -⟩ | ⟨-, u, -, db, -, -, hlt, hdb, -, hsecond⟩ := hpair hg hap
    · exact absurd (hall.last hw) (hended hend)
    -- the second pool is not the first one, so the machine refuses its second worker
    have hpos : 0 < db := Nat.lt_of_lt_of_le hlt hdb
    have hk : scarce.Refuses db twoAndTwo.db 1 (.numbered 11 .wouldBlock "no more threads") := by
      refine ⟨by decide, if_pos (.inr ⟨hpos, rfl⟩), fun i hi => ?_⟩
      obtain rfl : i = 0 := Nat.lt_one_iff.mp hi
      exact if_neg (by simp)
    obtain ⟨done, v, left, c, d, -, hv, hc, hcu, hd, hdu⟩ | ⟨hall, -⟩ := hsecond 1 _ hk
    · exact ⟨w, v, c, d, db, h, hw, rfl, rfl, hg, hk, hap, hv, ⟨hc, hcu⟩, hd, hdu⟩
    · rcases hall.last hw with hat | hat | hat | hat <;> exact absurd hat (hended hend)

end WorkerPool
