import WorkerPool.Proofs.WorkerHandles

/-!
# Each handle is disposed of once

However many shutdowns meet in a pool, one of them alone has the handles of the workers: the first
that has come to take them. It disposes of each once, and before nobody holds the pool any more it
has disposed of all. The others return with nothing joined.

* `Pool.Gathered` -- the handles are all in the pool, or the first has taken all of them;
* `tallied` -- every worker joined is in one returned count or in one that is still growing;
* `Pool.Ends` -- a pool is not released before its handles are taken;
* `Pool.Handled` -- all of this; `handled_reachable` -- in every reachable world;
* `handles_disposed_once` -- each handle is disposed of once.
-/

namespace WorkerPool

/-- The thread whose shutdown a panic ends, and the number of workers it had joined. -/
@[simp]
def Happening.breaks? : Happening → Option (ThreadId × Nat)
  | .brokenOff t n => some (t, n)
  | _ => none

namespace Pool

/-- The shutdowns that a panic has ended, in order. -/
def breaks (p : Pool) : List (ThreadId × Nat) := inOrder Happening.breaks? p.trace

/-! ## 1. All handles together -/

/-- The handles of all workers are in the pool, or they have been taken all together, by the first
    that came; whoever came later has found none. -/
inductive Gathered (p : Pool) : Prop where
  | whole (hm : p.musters = []) (hh : p.handles = List.range p.stages.length)
  | gone (hd : p.draining = true) (hh : p.handles = []) (later : List (List Nat))
      (hl : ∀ l ∈ later, l = [])
      (hm : p.musters.map Muster.taken = later ++ [List.range p.stages.length])

theorem Gathered.of_frame {p q : Pool} (hp : Gathered p) (hm : q.musters.map Muster.taken =
    p.musters.map Muster.taken) (hh : q.handles = p.handles)
    (hst : q.stages.length = p.stages.length) (hd : p.draining = true → q.draining = true) :
    Gathered q := by
  cases hp with
  | whole hm' hh' =>
      rw [hm', List.map_nil, List.map_eq_nil_iff] at hm
      exact .whole hm (by rw [hh, hst, hh'])
  | gone hd' hh' later hl hm' =>
      exact .gone (hd hd') (hh.trans hh') later hl (by rw [hm, hst, hm'])

/-- Nobody has a muster as long as all handles are in the pool. -/
theorem Gathered.draining {p : Pool} (hp : Gathered p) {t : ThreadId} (ht : p.mustersBy t ≠ []) :
    p.draining = true := by
  cases hp with
  | whole hm hh => exact absurd (by rw [mustersBy, hm, List.filter_nil]) ht
  | gone hd => exact hd

theorem Gathered.call {p q : Pool} {thread : ThreadId} {s : CallStage} {next : CallStep}
    (hp : Gathered p) (ho : s.Fits p thread) (hst : Staffed p) (hm : Mustered p)
    (hs : (thread, s) ∈ p.calls) (h : CallMove p thread s q next) : Gathered q := by
  have hl := h.later hst.toFormed hs
  have hone {k : Nat} (hk : s.tally? = some k) : p.mustersBy thread ≠ [] :=
    Attends.mustersBy_ne_nil (hk ▸ hm.calls _ hs)
  cases h.mustering ho with
  | starts n refusal hspawn _ _ hh hstages hmq =>
      subst hspawn
      cases hp with
      | whole hm' hh' =>
          refine .whole (hmq.trans hm') ?_
          rw [hh, hh', hstages, List.length_append, List.length_singleton, List.range_succ,
            hst.spawning hs]
      | gone hd =>
          -- nobody starts workers in a pool that drains
          rw [(hst.founding _ hs rfl).2.2.1] at hd
          cases hd
  | takes mode why htaking _ _ hh hmq =>
      subst htaking
      have hd : p.draining = true := Closed.draining ho
      cases hp with
      | whole hm' hh' =>
          refine .gone (hl.draining hd) hh [] (by simp) ?_
          rw [hmq, hm', hh', hl.workers hd]
          rfl
      | gone hd hh' later hl' hm' =>
          refine .gone (hl.draining hd) hh ([] :: later) (by simpa using hl') ?_
          rw [hmq, List.map_cons, hh', hm', hl.workers hd]
          rfl
  | disposes i d k hk _ _ _ hh hmq =>
      refine hp.of_frame ?_ hh (hl.workers (hp.draining (hone hk))) hl.draining
      rw [hmq, Muster.map_amend (Muster.taken_dispose i d) (hone hk)]
  | returns k hk _ _ _ hh hmq =>
      refine hp.of_frame ?_ hh (hl.workers (hp.draining (hone hk))) hl.draining
      rw [hmq, Muster.map_amend (Muster.taken_tell k) (hone hk)]
  | breaks k payload hk _ _ _ _ hh hmq =>
      refine hp.of_frame ?_ hh (hl.workers (hp.draining (hone hk))) hl.draining
      rw [hmq, Muster.map_amend (Muster.taken_lose k) (hone hk)]
  | keeps _ _ hh hstages hmq =>
      exact hp.of_frame (congrArg _ hmq) hh (congrArg _ hstages) hl.draining

theorem Gathered.change {p q : Pool} (ho : orderly.Holds p) (hst : Staffed p) (hm : Mustered p)
    (hp : Gathered p) (h : Change p q) : Gathered q := by
  cases h with
  | work hw h =>
      have hu := h.untouched
      refine hp.of_frame (congrArg _ h.musters) hu.handles ?_ hu.draining.trans
      rw [World.stages_setStage, List.length_set, hu.stages]
  | @call thread s r next hlook h =>
      have hs := mem_of_lookup hlook
      have hr := hp.call (ho.calls _ hs) hst hm hs h
      refine hr.of_frame (congrArg _ (musters_follow r thread next)) (handles_follow ..) ?_
        (later_follow r thread next).draining
      rw [stages_follow]
  | enter hs ht h =>
      have hm := h.musters
      cases h <;> exact hp.of_frame (congrArg _ hm) rfl rfl fun hd => hd
  | note n => exact hp.of_frame rfl rfl rfl fun hd => hd
  | wake i => exact hp.of_frame rfl rfl rfl fun hd => hd
  | reclaim h =>
      have hm := musters_of_reclaim h
      obtain ⟨-, -, rfl⟩ := reclaim_cases h
      exact hp.of_frame (congrArg _ hm) rfl rfl fun hd => hd

theorem Fresh.gathered {p : Pool} (h : Fresh p) : Gathered p :=
  .whole h.blank.musters (by rw [h.blank.handles, h.blank.stages]; rfl)

/-! ## 2. Counts -/

/-- The counts returned, those that were lost, and those that are still growing, less the workers
    joined. -/
def tallied : Account ℤ where
  shared p := (p.returns.map (·.2.2)).sum + (p.breaks.map (·.2)).sum -
    p.disposals.countP (·.2.2 = .joined)
  worker _ := 0
  call s := (s.tally?.getD 0 : Nat)

theorem tallied_balanced : tallied.Balanced fun _ => True where
  work _ _ h := by cases h <;> simp [tallied, returns, breaks, disposals]
  call _ h := by
    cases h with
    | findsDraining why => cases why <;> simp [tallied, returns, breaks, disposals]
    | concludes why | reports why | breaksOff why =>
        cases why
        all_goals
          simp [tallied, returns, breaks, disposals]
          abel
    | joins =>
        simp [tallied, returns, breaks, disposals]
        abel
    | _ => simp [tallied, returns, breaks, disposals]
  enter _ h := by
    cases h with
    | asks mode => cases mode <;> simp [tallied]
    | _ => simp [tallied, returns, breaks, disposals]
  reclaim {p q} _ h := by
    have hr : q.returns = p.returns := inOrder_reclaim h fun _ _ => rfl
    have hb : q.breaks = p.breaks := inOrder_reclaim h fun _ _ => rfl
    have hd : q.disposals = p.disposals := inOrder_reclaim h fun _ _ => rfl
    simp only [tallied, hr, hb, hd]
  note p n := by simp [tallied, returns, breaks, disposals]
  wake p i := rfl
  starting := rfl

theorem tallied_invariant : Invariant fun p => Formed p ∧ tallied.total p = 0 := by
  refine tallied_balanced.invariant_always fun p hb => Account.total_blank hb ?_ fun _ => rfl
  have hr : p.returns = [] := hb.inOrder_eq_nil fun _ => rfl
  have hl : p.breaks = [] := hb.inOrder_eq_nil fun _ => rfl
  have hd : p.disposals = [] := hb.inOrder_eq_nil fun _ => rfl
  simp [tallied, hr, hl, hd]

/-- **Every worker joined is in one count**, returned, lost or still growing. -/
theorem joined_eq {p : Pool} (h : tallied.total p = 0) :
    (p.returns.map (·.2.2)).sum + (p.breaks.map (·.2)).sum +
      (p.calls.map fun c => c.2.tally?.getD 0).sum = p.disposals.countP (·.2.2 = .joined) := by
  have hw : tallied.ofWorkers p = 0 := List.sum_eq_zero fun n hn => by
    obtain ⟨s, -, rfl⟩ := List.mem_map.mp hn
    rfl
  have hc : tallied.ofCalls p = ((p.calls.map fun c => c.2.tally?.getD 0).sum : Nat) := by
    rw [Account.ofCalls, Nat.cast_list_sum, List.map_map]
    rfl
  rw [Account.total, hw, hc, tallied] at h
  simp only at h
  omega

/-! ## 3. Until nobody holds the pool -/

end Pool

/-- It has raised the draining flag, and will come to take the handles. -/
def CallStage.isBound : CallStage → Bool
  | .halting _ | .announcing _ _ | .closing _ _ | .taking _ _ => true
  | _ => false

/-- The pool is being made or given up: nobody else is inside a call on it. -/
def CallStage.isSole : CallStage → Bool
  | .spawning _ _ | .opening | .dropping _ | .releasing _ => true
  | .swapping why | .raising why | .halting why | .announcing _ why | .closing _ why
  | .taking _ why | .joining _ why _ _ | .unwinding why _ _ _ | .concluding why _ | .emptying why _
  | .tallying why _ _ | .recording why _ _ | .discarding why _ _ | .reporting why _ =>
    why ≠ .asked
  | _ => false

namespace Pool

/-- Who makes the pool or gives it up is alone, and in the end nobody is inside a call; in a pool
    that drains the handles are taken, or somebody is about to; and a pool that has ever taken calls
    has all its workers. -/
structure Ends (p : Pool) : Prop where
  sole : ∀ c ∈ p.calls, c.2.isSole = true → p.calls = [c] ∧ p.life ≠ .serving
  released : p.life = .released → p.calls = []
  bound : p.draining = true → p.musters = [] → ∃ c ∈ p.calls, c.2.isBound = true
  manned : p.Opened ∨ p.life = .ending → p.size ≤ p.stages.length

theorem Fresh.ends {p : Pool} (h : Fresh p) : Ends p := by
  have hb := h.blank
  obtain ⟨thread, refusal, hc⟩ := hb.calls
  refine ⟨fun c hm _ => ?_, fun hl => ?_, fun hd => ?_, fun ho => ?_⟩
  · rw [hc] at hm ⊢
    rw [List.mem_singleton.mp hm, hb.life]
    exact ⟨rfl, fun e => by cases e⟩
  · rw [hb.life] at hl
    cases hl
  · rw [hb.draining] at hd
    cases hd
  · rcases ho with (⟨t, ht⟩ | hl | ⟨t, ht⟩) | hl
    · rw [hc] at ht
      cases List.mem_singleton.mp ht
    · rw [hb.life] at hl
      cases hl
    · exact absurd ht (hb.not_mem fun _ e => by cases e)
    · rw [hb.life] at hl
      cases hl

section Move

variable {p q : Pool} {thread : ThreadId} {s : CallStage} {next : CallStep}

/-- A move that leads to a call that is sole begins at one, and the pool does not open. -/
theorem CallMove.sole {s' : CallStage} (h : CallMove p thread s q (.stage s'))
    (hs : s'.isSole = true) : s.isSole = true ∧ q.life = p.life := by
  generalize hn : CallStep.stage s' = next at h
  cases h with
  | findsDraining why | concludes why | reports why | breaksOff why =>
      cases why with
      | asked => cases hn
      | givingUp | startFailed => exact ⟨rfl, rfl⟩
  | spawns | spawnFails | spawned | shutsFirst => exact ⟨rfl, rfl⟩
  | _ =>
      cases hn
      all_goals exact ⟨hs, rfl⟩

/-- Who begins to give the pool up is alone. -/
theorem Entry.sole (h : Entry p q s) : (s.isSole = true → p.calls = [] ∧ q.life = .ending) ∧
    (q.life = p.life ∨ q.life = .ending) := by
  cases h with
  | offers => exact ⟨fun hs => absurd hs Bool.false_ne_true, .inl rfl⟩
  | asks mode =>
      refine ⟨fun hs => ?_, .inl rfl⟩
      cases mode <;> cases hs
  | givesUp hc => exact ⟨fun _ => ⟨hc, rfl⟩, .inr rfl⟩

/-- A shutdown that raises the flag is bound to take the handles. -/
theorem CallMove.bound (h : CallMove p thread s q next) :
    (q.draining = true → p.draining = true ∨ ∃ s', next = .stage s' ∧ s'.isBound = true) ∧
      (s.isBound = true → (∃ s', next = .stage s' ∧ s'.isBound = true) ∨ q.musters ≠ []) := by
  cases h with
  | takes => exact ⟨.inl, fun _ => .inr (List.cons_ne_nil _ _)⟩
  | swaps | raises => exact ⟨fun _ => .inr ⟨_, rfl, rfl⟩, fun hs => by cases hs⟩
  | halts | announces | closes => exact ⟨.inl, fun _ => .inl ⟨_, rfl, rfl⟩⟩
  | _ => exact ⟨.inl, fun hs => by cases hs⟩

/-- Once handles were taken they stay so. -/
theorem CallMove.musters_ne_nil (h : CallMove p thread s q next) (hm : p.musters ≠ []) :
    q.musters ≠ [] := by
  cases h with
  | takes => exact List.cons_ne_nil _ _
  | detaches | joins | joinsCrashed | joinsBurst | forsakes | breaksOff | concludes | reports =>
      exact Muster.amend_ne_nil _
  | _ => exact hm

/-- As long as the handles are there somebody is bound to take them. -/
theorem Ends.bound_call (hp : Ends p) (hf : Formed p) (hs : (thread, s) ∈ p.calls)
    (h : CallMove p thread s q next) (hd : q.draining = true) (hm : q.musters = []) :
    ∃ c ∈ (q.follow thread next).calls, c.2.isBound = true := by
  obtain ⟨-, hcalls, -⟩ := h.frame
  obtain ⟨hraised, hbound⟩ := h.bound
  have hself {s' : CallStage} (hn : next = .stage s') (hb : s'.isBound = true) :
      ∃ c ∈ (q.follow thread next).calls, c.2.isBound = true :=
    ⟨(thread, s'), hn ▸ mem_follow_self (hcalls.symm ▸ hs), hb⟩
  rcases hraised hd with hd | ⟨s', hn, hb⟩
  · obtain ⟨c, hc, hb⟩ := hp.bound hd (by_contra fun hne => h.musters_ne_nil hne hm)
    by_cases ht : c.1 = thread
    · subst ht
      obtain rfl := eq_of_mem_calls hf.nodup hs hc
      obtain ⟨s', hn, hb⟩ := (hbound hb).resolve_right fun hne => hne hm
      exact hself hn hb
    · exact ⟨c, mem_follow_of_ne (hcalls.symm ▸ hc) ht, hb⟩
  · exact hself hn hb

/-- A pool opens with all its workers. -/
theorem Ends.manned_call (hp : Ends p) (hst : Staffed p) (hs : (thread, s) ∈ p.calls)
    (h : CallMove p thread s q next)
    (ho : (q.follow thread next).Opened ∨ q.life = .ending) : q.size ≤ q.stages.length := by
  have hle : p.stages.length ≤ q.stages.length := by
    rcases h.crew with e | ⟨n, refusal, -, -, e⟩
    · rw [e]
    · rw [e, List.length_append]
      exact Nat.le_add_right _ _
  rw [h.size]
  refine Nat.le_trans ?_ hle
  rcases ho with ho | hl
  · rcases h.opened hs ho with ho | ⟨n, refusal, rfl, hn⟩
    · exact hp.manned (.inl ho)
    · rwa [hst.spawning hs]
  · refine hp.manned (.inr ?_)
    cases h with
    | opens | releases => cases hl
    | _ => exact hl

theorem Ends.call (hp : Ends p) (hst : Staffed p) (hs : (thread, s) ∈ p.calls)
    (h : CallMove p thread s q next) : Ends (q.follow thread next) := by
  obtain ⟨-, hcalls, -⟩ := h.frame
  refine ⟨fun c hc hsole => ?_, fun hl => ?_, fun hd hm => ?_, fun ho => ?_⟩
  · rw [life_follow]
    rcases mem_follow hc with ⟨rfl, rfl⟩ | ⟨hne, hc⟩
    · obtain ⟨hs', hlife⟩ := h.sole hsole
      obtain ⟨he, hno⟩ := hp.sole _ hs hs'
      refine ⟨?_, hlife ▸ hno⟩
      simp [follow, setCall, hcalls, he]
    · -- another thread cannot be inside a call then
      have he := (hp.sole c (hcalls ▸ hc) hsole).1
      rw [he] at hs
      exact absurd (congrArg Prod.fst (List.mem_singleton.mp hs)).symm hne
  · rw [life_follow] at hl
    rcases h.released_cases hl with hl | ⟨outcome, rfl⟩
    · rw [hp.released hl] at hs
      cases hs
    · have he := (hp.sole _ hs rfl).1
      cases h
      simp [follow, leave, he]
  · have hd : q.draining = true := by cases next <;> exact hd
    exact hp.bound_call hst.toFormed hs h hd (musters_follow q thread next ▸ hm)
  · rw [size_follow, stages_follow]
    exact hp.manned_call hst hs h (life_follow q thread next ▸ ho)

end Move

/-- Where calls, life, flags and musters are as they were and no task has come. -/
theorem Ends.of_frame {p q : Pool} (hp : Ends p) (hc : q.calls = p.calls) (hl : q.life = p.life)
    (hd : q.draining = p.draining) (hm : q.musters = p.musters) (hsize : q.size = p.size)
    (hst : q.stages.length = p.stages.length)
    (ht : ∀ t, .offered t ∈ q.trace → .offered t ∈ p.trace) : Ends q := by
  refine ⟨?_, ?_, ?_, fun ho => ?_⟩
  · rw [hc, hl]
    exact hp.sole
  · rw [hc, hl]
    exact hp.released
  · rw [hc, hd, hm]
    exact hp.bound
  · rw [hsize, hst]
    rw [Opened, hc, hl] at ho
    exact hp.manned (ho.imp_left (Or.imp_right (Or.imp_right fun ⟨t, h⟩ => ⟨t, ht t h⟩)))

theorem Ends.change {p q : Pool} (hst : Staffed p) (hp : Ends p) (h : Change p q) : Ends q := by
  cases h with
  | @work i worker q s hw h =>
      have hu := h.untouched
      refine hp.of_frame hu.calls hu.life hu.draining h.musters h.size ?_ fun t =>
        (h.offered_iff t).mp
      rw [World.stages_setStage, List.length_set, hu.stages]
  | call hlook h => exact hp.call hst (mem_of_lookup hlook) h
  | note n => exact hp.of_frame rfl rfl rfl rfl rfl rfl (by simp)
  | wake i => exact hp.of_frame rfl rfl rfl rfl rfl rfl fun _ h => h
  | reclaim h =>
      have hm := musters_of_reclaim h
      obtain ⟨-, -, rfl⟩ := reclaim_cases h
      exact hp.of_frame rfl rfl rfl hm rfl rfl (by simp)
  | @enter thread q s hs ht h =>
      have hsame : q.calls = p.calls ∧ q.draining = p.draining ∧ q.size = p.size ∧
          q.stages = p.stages := by
        cases h <;> exact ⟨rfl, rfl, rfl, rfl⟩
      obtain ⟨hcalls, hdraining, hsize, hstages⟩ := hsame
      obtain ⟨hsole, hlife⟩ := h.sole
      refine ⟨fun c hc hc' => ?_, fun hl => ?_, fun hd hm => ?_, fun _ => ?_⟩
      · rcases List.mem_cons.mp hc with rfl | hc
        · obtain ⟨hnone, hl⟩ := hsole hc'
          refine ⟨congrArg _ (hcalls.trans hnone), fun hl' => ?_⟩
          cases hl.symm.trans hl'
        · exact absurd hs (hp.sole c (hcalls ▸ hc) hc').2
      · have hl : q.life = .released := hl
        rw [hl, hs] at hlife
        rcases hlife with e | e <;> cases e
      · obtain ⟨c, hc, hb⟩ := hp.bound (hdraining.symm.trans hd) (h.musters.symm.trans hm)
        exact ⟨c, List.mem_cons_of_mem _ (hcalls ▸ hc), hb⟩
      · have hle := hp.manned (.inl (.inr (.inl hs)))
        rwa [← hsize, ← hstages] at hle

/-! ## 4. Who has the handles -/

/-- What is known of the handles of a pool. -/
structure Handled (p : Pool) : Prop extends Staffed p where
  mustered : Mustered p
  gathered : Gathered p
  tallied : tallied.total p = 0
  ends : Ends p
  orderly : orderly.Holds p
  crew : p.stages.length ≤ p.size

theorem handled_reachable {w : World} (h : w.Reachable) {p : Pool} (hp : p ∈ w.pools) :
    Handled p where
  toStaffed := staffed_reachable h p hp
  mustered := (mustered_invariant.reachable h p hp).2
  gathered := by
    have hi := staffed_invariant.and mustered_invariant
    exact ((hi.beside Fresh.gathered fun hI hg hc =>
      hg.change hI.2.1.2 hI.1 hI.2.2 hc).reachable h p hp).2
  tallied := (tallied_invariant.reachable h p hp).2
  ends := ((staffed_invariant.beside Fresh.ends Ends.change).reachable h p hp).2
  orderly := orderly_reachable h p hp
  crew := crew_reachable h p hp

section First

variable {p : Pool} {first : Muster} {later : List Muster}

/-- A call with handles left holds what its muster has left. -/
theorem Mustered.of_joinees (hp : Mustered p) {c : ThreadId × CallStage} (hc : c ∈ p.calls)
    (hne : c.2.joinees ≠ []) : ∃ m ∈ p.musters, m.thread = c.1 ∧ m.Leaves p c.2.joinees := by
  cases hk : c.2.tally? with
  | none => exact absurd (CallStage.joinees_of_tally hk) hne
  | some k =>
      exact hp.exists_muster hc hk

/-- Who has found no handle disposes of none. -/
theorem Mustered.disposed_eq_nil (hp : Mustered p) {m : Muster} (hm : m ∈ p.musters)
    (ht : m.taken = []) : m.disposed = [] := by
  have hnone {left : List Nat} (h : m.Leaves p left) : m.disposed = [] :=
    List.map_eq_nil_iff.mp (List.append_eq_nil_iff.mp (h.all.trans ht)).1
  rcases hp.cases hm with ho | ⟨-, c, -, -, hl, -⟩
  · exact hnone ho.leaves
  · exact hnone hl

/-- Only the first that came has handles left. -/
theorem Mustered.thread_of_joinees (hp : Mustered p) (hm : p.musters = later ++ [first])
    (hl : ∀ m ∈ later, m.taken = []) {c : ThreadId × CallStage} (hc : c ∈ p.calls)
    (hne : c.2.joinees ≠ []) : first.thread = c.1 ∧ first.Leaves p c.2.joinees := by
  obtain ⟨m, hmem, ht, hleft⟩ := hp.of_joinees hc hne
  rcases List.mem_append.mp (hm ▸ hmem) with hmem | hmem
  · have hnil := hleft.all.trans (hl m hmem)
    exact absurd (List.append_eq_nil_iff.mp hnil).2 hne
  · rw [List.mem_singleton.mp hmem] at ht hleft
    exact ⟨ht, hleft⟩

/-- What is in hand is in one hand. -/
theorem inHand_eq (hn : p.callers.Nodup) {c : ThreadId × CallStage} (hc : c ∈ p.calls)
    (hone : ∀ d ∈ p.calls, d.2.joinees ≠ [] → d.1 = c.1) : p.inHand = c.2.joinees := by
  obtain ⟨before, after, e⟩ := List.append_of_mem hc
  rw [callers, e, List.map_append, List.map_cons] at hn
  have hnone {l : List (ThreadId × CallStage)} (hsub : ∀ d ∈ l, d ∈ p.calls)
      (hl : c.1 ∉ l.map Prod.fst) : l.flatMap (·.2.joinees) = [] := by
    refine List.flatMap_eq_nil_iff.mpr fun d hd => by_contra fun hne => hl ?_
    rw [← hone d (hsub d hd) hne]
    exact List.mem_map_of_mem hd
  have hnot := List.nodup_middle.mp hn
  rw [List.nodup_cons, List.mem_append, not_or] at hnot
  rw [inHand, e, List.flatMap_append, List.flatMap_cons,
    hnone (fun d hd => e ▸ List.mem_append_left _ hd) hnot.1.1,
    hnone (fun d hd => e ▸ List.mem_append_right _ (List.mem_cons_of_mem _ hd)) hnot.1.2,
    List.nil_append, List.append_nil]

/-- **The first that came has what is in hand**: it has done with the others what fits. -/
theorem Mustered.leaves_inHand (hp : Mustered p) (hn : p.callers.Nodup)
    (hm : p.musters = later ++ [first]) (hl : ∀ m ∈ later, m.taken = []) :
    first.Leaves p p.inHand := by
  have hfirst : first ∈ p.musters := by simp [hm]
  rcases hp.cases hfirst with ho | ⟨-, c, hc, ht, hleft, -⟩
  · have hnone : p.inHand = [] := by
      refine List.flatMap_eq_nil_iff.mpr fun c hc => by_contra fun hne => ?_
      have hleft := (hp.thread_of_joinees hm hl hc hne).2
      have hall : first.disposed.map Prod.fst ++ c.2.joinees = first.disposed.map Prod.fst :=
        hleft.all.trans (by simpa using ho.leaves.all.symm)
      exact hne (List.append_right_eq_self.mp hall)
    rw [hnone]
    exact ho.leaves
  · rwa [inHand_eq hn hc fun d hd hne => (hp.thread_of_joinees hm hl hd hne).1.symm.trans ht.symm]

/-- The musters, when the handles are gone: the oldest has taken all of them. -/
theorem musters_of_map {ls : List (List Nat)} {l : List Nat}
    (hm : p.musters.map Muster.taken = ls ++ [l]) (hl : ∀ x ∈ ls, x = []) :
    ∃ later first, p.musters = later ++ [first] ∧ first.taken = l ∧
      ∀ m ∈ later, m.taken = [] := by
  obtain ⟨later, rest, hm', hls, hrest⟩ := List.map_eq_append_iff.mp hm
  obtain ⟨first, rfl, hfirst⟩ := List.map_eq_singleton_iff.mp hrest
  refine ⟨later, first, hm', hfirst, fun m hmem => hl _ ?_⟩
  rw [← hls]
  exact List.mem_map_of_mem hmem

/-- What is done with handles the first that came does. -/
theorem Mustered.disposals_perm (hp : Mustered p) (hm : p.musters = later ++ [first])
    (hl : ∀ m ∈ later, m.taken = []) : p.disposals.Perm first.disposals := by
  have hnone : later.flatMap Muster.disposals = [] := by
    refine List.flatMap_eq_nil_iff.mpr fun m hmem => ?_
    rw [Muster.disposals, hp.disposed_eq_nil (hm ▸ List.mem_append_left _ hmem) (hl m hmem),
      List.map_nil]
  have hperm := p.disposals_perm
  rwa [hm, List.flatMap_append, hnone, List.nil_append, List.flatMap_singleton] at hperm

end First

/-- **The handles are in the pool, or the first that came has taken them all.** -/
theorem Handled.cases {p : Pool} (hp : Handled p) :
    (p.musters = [] ∧ p.disposals = [] ∧ p.inHand = [] ∧
      p.handles = List.range p.workers.length) ∨
    ∃ later first, p.handles = [] ∧ p.musters = later ++ [first] ∧
      first.taken = List.range p.workers.length ∧ (∀ m ∈ later, m.taken = []) ∧
      first.Leaves p p.inHand ∧ p.disposals.Perm first.disposals := by
  have hlen : p.stages.length = p.workers.length := List.length_map _
  have hm := hp.mustered
  cases hp.gathered with
  | whole hnone hh =>
      refine .inl ⟨hnone, ?_, ?_, hlen ▸ hh⟩
      · have hperm := p.disposals_perm
        rw [hnone] at hperm
        exact hperm.eq_nil
      · refine List.flatMap_eq_nil_iff.mpr fun c hc => by_contra fun hne => ?_
        obtain ⟨m, hmem, -⟩ := hm.of_joinees hc hne
        rw [hnone] at hmem
        cases hmem
  | gone hd hh ls hls hmap =>
      obtain ⟨later, first, hmq, hfirst, hlater⟩ := musters_of_map hmap hls
      exact .inr ⟨later, first, hh, hmq, hfirst.trans (congrArg _ hlen), hlater,
        hm.leaves_inHand hp.nodup hmq hlater, hm.disposals_perm hmq hlater⟩

/-- Whatever is done with a handle fits. -/
theorem Handled.fits {p : Pool} (hp : Handled p) :
    ∀ x ∈ p.disposals, x.2.2.Fits p x.1 x.2.1 := by
  intro x hx
  rcases hp.cases with ⟨-, hnone, -⟩ | ⟨later, first, -, -, -, -, hleft, hperm⟩
  · rw [hnone] at hx
    cases hx
  · obtain ⟨y, hy, rfl⟩ := List.mem_map.mp (hperm.mem_iff.mp hx)
    exact hleft.fits y hy

/-- A handle is disposed of at most once. -/
theorem Handled.nodup_disposals {p : Pool} (hp : Handled p) :
    (p.disposals.map (·.2.1)).Nodup ∧ p.disposals.length ≤ p.workers.length := by
  rcases hp.cases with ⟨-, hnone, -⟩ | ⟨later, first, -, -, htaken, -, hleft, hperm⟩
  · rw [hnone]
    exact ⟨List.nodup_nil, Nat.zero_le _⟩
  · have hall : first.disposed.map Prod.fst ++ p.inHand = List.range p.workers.length :=
      hleft.all.trans htaken
    have hworkers : (p.disposals.map (·.2.1)).Perm (first.disposed.map Prod.fst) := by
      have := hperm.map (·.2.1)
      rwa [Muster.disposals, List.map_map] at this
    refine ⟨hworkers.nodup_iff.mpr ?_, ?_⟩
    · exact (hall ▸ List.nodup_range : (_ ++ p.inHand).Nodup).of_append_left
    · have hlen := congrArg List.length hall
      rw [List.length_append, List.length_range] at hlen
      rw [← List.length_map (·.2.1), hworkers.length_eq]
      omega

/-- One thread does all that is done with handles. -/
theorem Handled.thread_eq {p : Pool} (hp : Handled p) {x y : ThreadId × Nat × Disposal}
    (hx : x ∈ p.disposals) (hy : y ∈ p.disposals) : x.1 = y.1 := by
  rcases hp.cases with ⟨-, hnone, -⟩ | ⟨later, first, -, -, -, -, -, hperm⟩
  · rw [hnone] at hx
    cases hx
  · have hfirst {z : ThreadId × Nat × Disposal} (hz : z ∈ p.disposals) : z.1 = first.thread := by
      obtain ⟨d, -, rfl⟩ := List.mem_map.mp (hperm.mem_iff.mp hz)
      rfl
    exact (hfirst hx).trans (hfirst hy).symm

/-- Of things told apart by `f`, one at most has a property that fixes `f`. -/
theorem countP_le_one {α : Type} {f : α → Nat} {r : α → Bool} {l : List α} (hn : (l.map f).Nodup)
    (hr : ∀ x ∈ l, ∀ y ∈ l, r x = true → r y = true → f x = f y) : l.countP r ≤ 1 := by
  by_cases hany : ∃ x ∈ l, r x = true
  · obtain ⟨x, hx, hrx⟩ := hany
    calc l.countP r ≤ l.countP (f · == f x) :=
          List.countP_mono_left fun y hy hry => beq_iff_eq.mpr (hr y hy x hx hry hrx)
      _ = (l.map f).count (f x) := by
          rw [List.count, List.countP_map]
          rfl
      _ ≤ 1 := List.nodup_iff_count_le_one.mp hn _
  · rw [List.countP_eq_zero.mpr fun x hx hrx => hany ⟨x, hx, hrx⟩]
    exact Nat.zero_le 1

/-- Only one worker ever lets itself go: the one that has taken the handles. -/
theorem Handled.detached_le_one {p : Pool} (hp : Handled p) :
    p.disposals.countP (·.2.2 = .detached) ≤ 1 := by
  refine countP_le_one hp.nodup_disposals.1 fun x hx y hy hdx hdy => ?_
  have hown {z : ThreadId × Nat × Disposal} (hz : z ∈ p.disposals)
      (hd : decide (z.2.2 = .detached) = true) : z.1 = .worker p.id z.2.1 := by
    have hd : z.2.2 = .detached := of_decide_eq_true hd
    exact ((hp.fits z hz).detached_iff (hd ▸ nofun)).mp hd
  have he := (hown hx hdx).symm.trans ((hp.thread_eq hx hy).trans (hown hy hdy))
  simpa using he

/-- A shutdown that has ended has left no handle, and has told or lost how many it has joined. -/
theorem Handled.ended {p : Pool} (hp : Handled p) {m : Muster} (hm : m ∈ p.musters) {k : Nat}
    (hk : m.told = some k ∨ m.lost = some k) :
    m.disposed.map Prod.fst = m.taken ∧ k = m.joined := by
  rcases hp.mustered.cases hm with ho | ⟨⟨ht, hl⟩, -⟩
  · refine ⟨by simpa using ho.leaves.all, ?_⟩
    rcases ho.ended with ⟨ht, hl⟩ | ⟨ht, hl, -⟩ <;> simpa [ht, hl, eq_comm] using hk
  · simp [ht, hl] at hk

/-- A count is lost only where what a dead worker left behind has exploded. -/
theorem Handled.lost {p : Pool} (hp : Handled p) {m : Muster} (hm : m ∈ p.musters)
    (hk : m.lost ≠ none) : m.told = none ∧ ∃ payload, p.Exploded m.thread payload := by
  rcases hp.mustered.cases hm with ho | ⟨⟨-, hl⟩, -⟩
  · rcases ho.ended with ⟨-, hl⟩ | ⟨ht, -, he⟩
    · exact absurd hl hk
    · exact ⟨ht, he⟩
  · exact absurd hl hk

/-- A pool that has taken calls has all its workers. -/
theorem Handled.manned_eq {p : Pool} (hp : Handled p) (hl : p.life = .serving ∨ p.life = .ending) :
    p.workers.length = p.size := by
  have hlen : p.stages.length = p.workers.length := List.length_map _
  have hle := hp.crew
  have hge := hp.ends.manned (hl.imp_left fun hs => .inr (.inl hs))
  omega

/-- When nobody holds the pool any more, the handles have been taken and none is left. -/
theorem Handled.spent {p : Pool} (hp : Handled p) (hl : p.life = .released) :
    p.musters ≠ [] ∧ p.inHand = [] := by
  have hcalls := hp.ends.released hl
  refine ⟨fun hm => ?_, by rw [inHand, hcalls, List.flatMap_nil]⟩
  obtain ⟨c, hc, -⟩ := hp.ends.bound (hp.orderly.shared.released hl) hm
  rw [hcalls] at hc
  cases hc

end Pool

open Pool

/-- **Each worker's handle is disposed of once**, whoever shuts the pool down and however often,
    from outside or from tasks of the pool, gracefully or not.

    * The handles of all workers are in the pool, or the first shutdown that came to take them has
      taken all of them. It has disposed of them one by one and has the others still in hand; every
      later one has found none and disposes of none.
    * A worker that is joined has come to its end, and one reported as crashed has been driven out
      by a panic. A worker that is let go is the thread itself, unless what a dead worker left behind
      has exploded in the hands of the thread.
    * A shutdown ends when it has disposed of what it has taken. It tells how many it has joined, or
      it ends by such a panic and the count is lost. So all counts, with those that are still
      growing, come to the number of workers joined, and that is at most the number of workers; and
      at most one worker lets itself go.
    * The workers are as many as the pool is made with, once it takes calls. When nobody holds the
      pool any more every handle has been disposed of.
    * If nothing that dead workers have left behind explodes, every handle is joined or reported, or
      the thread is the worker itself and lets itself go, and no count is lost. -/
theorem handles_disposed_once {w : World} (h : w.Reachable) {p : Pool} (hp : p ∈ w.pools) :
    (p.musters = [] ∧ p.disposals = [] ∧ p.inHand = [] ∧
        p.handles = List.range p.workers.length ∨
      ∃ later first, p.handles = [] ∧ p.musters = later ++ [first] ∧
        first.taken = List.range p.workers.length ∧
        first.disposed.map Prod.fst ++ p.inHand = List.range p.workers.length ∧
        (∀ c ∈ p.calls, c.2.joinees ≠ [] → c.1 = first.thread) ∧
        (∀ m ∈ later, m.taken = [] ∧ m.disposed = []) ∧
        p.disposals.Perm (first.disposed.map (first.thread, ·))) ∧
    (∀ x ∈ p.disposals, x.2.2.Fits p x.1 x.2.1) ∧
    (∀ m ∈ p.musters, ∀ k, m.told = some k ∨ m.lost = some k →
      m.disposed.map Prod.fst = m.taken ∧ k = m.joined) ∧
    (∀ m ∈ p.musters, m.lost ≠ none → m.told = none ∧ ∃ payload, p.Exploded m.thread payload) ∧
    (p.returns.map (·.2.2)).sum + (p.breaks.map (·.2)).sum +
      (p.calls.map fun c => c.2.tally?.getD 0).sum = p.disposals.countP (·.2.2 = .joined) ∧
    (p.returns.map (·.2.2)).sum ≤ p.workers.length ∧
    p.disposals.countP (·.2.2 = .detached) ≤ 1 ∧
    (p.life = .serving ∨ p.life = .ending → p.workers.length = p.size) ∧
    (p.life = .released → p.musters ≠ [] ∧ p.inHand = []) ∧
    ((∀ i, p.burst? i = none) →
      (∀ x ∈ p.disposals, x.2.2 ≠ .forsaken ∧
        (x.2.2 = .detached ↔ x.1 = .worker p.id x.2.1)) ∧
      ∀ m ∈ p.musters, m.lost = none) := by
  have hh := handled_reachable h hp
  have hcount := joined_eq hh.tallied
  refine ⟨?_, hh.fits, fun m hm k => hh.ended hm, fun m hm => hh.lost hm, hcount, ?_,
    hh.detached_le_one, hh.manned_eq, hh.spent, fun hb => ?_⟩
  · refine hh.cases.imp_right ?_
    rintro ⟨later, first, hnone, hm, htaken, hlater, hleft, hperm⟩
    refine ⟨later, first, hnone, hm, htaken, hleft.all.trans htaken, fun c hc hne => ?_,
      fun m hmem => ⟨hlater m hmem, ?_⟩, hperm⟩
    · exact (hh.mustered.thread_of_joinees hm hlater hc hne).1.symm
    · exact hh.mustered.disposed_eq_nil (hm ▸ List.mem_append_left _ hmem) (hlater m hmem)
  · have hjoined := List.countP_le_length (p := fun x => decide (x.2.2 = .joined))
      (l := p.disposals)
    have hlen := hh.nodup_disposals.2
    omega
  · have hno {t : ThreadId} {payload : Payload} (he : p.Exploded t payload) : False := by
      obtain ⟨i, -, -, hi⟩ := he
      rw [hb i] at hi
      cases hi
    refine ⟨fun x hx => ?_, fun m hm => by_contra fun hk => hno (hh.lost hm hk).2.choose_spec⟩
    have hne : x.2.2 ≠ .forsaken := fun e => by
      have hfits := hh.fits x hx
      rw [e] at hfits
      exact hno hfits.choose_spec
    exact ⟨hne, (hh.fits x hx).detached_iff hne⟩

/-- Two tasks, one that shuts its own pool down and one that drives its worker out; then the thread
    shuts the pool down too and gives it up. -/
def takeover : Program :=
  .call (.start (Config.withThreads 3)) fun _ =>
    .submit 0 "stop" (.call (.shutdown 0 .graceful) fun _ => .finish []) fun _ =>
      .submit 0 "bomb" (.panic (.bomb .foreign)) fun _ =>
        .call (.shutdown 0 .immediate) fun _ => .call (.drop 0) fun _ => .finish []

/-- Worker 0 takes the handles, lets itself go, reports worker 1 and joins worker 2. The thread
    outside comes in between and finds no handle. -/
theorem handles_disposed_once_by_worker : ∃ (w : World) (p : Pool), w.Reachable ∧ p ∈ w.pools ∧
    p.life = .released ∧ p.workers.length = 3 ∧
    p.disposals = [(.worker 0 0, 0, .detached), (.worker 0 0, 1, .crashed),
      (.worker 0 0, 2, .joined)] ∧
    p.returns = [(.worker 0 0, .graceful, 1), (.caller 0, .immediate, 0)] ∧
    p.musters ≠ [] ∧ p.inHand = [] ∧ (p.returns.map (·.2.2)).sum ≤ 3 ∧
    p.disposals.countP (·.2.2 = .detached) ≤ 1 := by
  obtain ⟨w, -, p, -, h, -, hp, -, hf, -⟩ := exists_pools
    (.fork takeover :: moves (.caller 0) 14 ++ moves (.worker 0 0) 6 ++ moves (.worker 0 1) 8 ++
      moves (.worker 0 0) 5 ++ moves (.caller 0) 6 ++ moves (.worker 0 2) 4 ++
      moves (.worker 0 0) 14 ++ moves (.caller 0) 6) []
    (fun p => decide (p.life = .released ∧ p.workers.length = 3 ∧
      p.disposals = [(.worker 0 0, 0, .detached), (.worker 0 0, 1, .crashed),
        (.worker 0 0, 2, .joined)] ∧
      p.returns = [(.worker 0 0, .graceful, 1), (.caller 0, .immediate, 0)]))
    (fun _ => true) (by decide)
  obtain ⟨hl, hlen, hd, hr⟩ := of_decide_eq_true hf
  have hm := List.mem_of_getElem? hp
  obtain ⟨-, -, -, -, -, hsum, hone, -, hspent, -⟩ := handles_disposed_once h hm
  exact ⟨w, p, h, hm, hl, hlen, hd, hr, (hspent hl).1, (hspent hl).2, hlen ▸ hsum, hone⟩

/-- A task panics with a payload that explodes when it is thrown away, and what it explodes with
    explodes once more. The thread shuts the pool down. -/
def twofold : Program :=
  .call (.start (Config.withThreads 3)) fun _ =>
    .submit 0 "bomb" (.panic (.bomb (.bomb .foreign))) fun _ =>
      .call (.shutdown 0 .graceful) (.uncaught fun _ => .finish [])

/-- **A handle can be lost without a join.** Worker 0 is dead, and what it has left behind explodes
    in the hands of the thread that joins it. A panic ends the shutdown, and the handles of the two
    other workers are let go, though the thread is neither, both are still there, and no count is
    returned. -/
theorem handles_forsaken : ∃ (w : World) (p : Pool), w.Reachable ∧ p ∈ w.pools ∧
    p.life = .serving ∧ p.disposals = [(.caller 0, 0, .crashed), (.caller 0, 1, .forsaken),
      (.caller 0, 2, .forsaken)] ∧ p.handles = [] ∧ p.inHand = [] ∧ p.returns = [] ∧
    (p.stages.map (·.isFinished)) = [true, false, false] ∧
    w.activity? (.caller 0) = some (.going (.panic .foreign)) := by
  have hrun : (((World.initial true {}).run (.fork twofold :: moves (.caller 0) 10 ++
      moves (.worker 0 0) 8 ++ moves (.caller 0) 9)).any fun w => (w.pools[0]?).any fun p =>
        decide (p.life = .serving ∧ p.disposals = [(.caller 0, 0, .crashed),
          (.caller 0, 1, .forsaken), (.caller 0, 2, .forsaken)] ∧ p.handles = [] ∧
          p.inHand = [] ∧ p.returns = [] ∧
          (p.stages.map (·.isFinished)) = [true, false, false])) = true := by decide
  obtain ⟨w, hw, hrun⟩ := (Option.any_eq_true ..).mp hrun
  obtain ⟨p, hp, hrun⟩ := (Option.any_eq_true ..).mp hrun
  have hend : ((World.initial true {}).run (.fork twofold :: moves (.caller 0) 10 ++
      moves (.worker 0 0) 8 ++ moves (.caller 0) 9)).bind (·.activity? (.caller 0)) =
        some (.going (.panic .foreign)) := rfl
  rw [hw, Option.bind_some] at hend
  obtain ⟨hl, hd, hh, hi, hr, hf⟩ := of_decide_eq_true hrun
  exact ⟨w, p, (World.Reachable.initial true {}).run hw, List.mem_of_getElem? hp, hl, hd, hh, hi, hr,
    hf, hend⟩

end WorkerPool
