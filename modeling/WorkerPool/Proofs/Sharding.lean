import Mathlib.Algebra.BigOperators.Group.List.Basic
import Mathlib.Data.UInt
import WorkerPool.Metrics
import WorkerPool.Proofs.HistogramLaws
import WorkerPool.Proofs.Samples

/-!
# Shards of metrics

Each worker has a shard of its own for latencies, and the shards are merged when the metrics are
read. Nobody can tell: what is read is the same with any number of shards, whichever worker ran
what, and in whatever order it was entered. That holds for the histograms of every lawful library.

* `Metrics.Entry` -- what is entered into metrics by one call, `Metrics.enterAll`;
* `Metrics.samples` -- the latencies among the entries, as they are kept;
* `get_enterAll` -- a counter is a sum over the entries;
* `holds_latency` -- the merged shards hold the samples of the entries, none is lost;
* `sharding_unobservable` -- **the number of shards cannot be told from what is read**.
-/

namespace WorkerPool

open HistogramLibrary

namespace Metrics

variable {H : Type} [HistogramLibrary H]

/-! ## 1. Entries -/

/-- What is entered by one call. -/
inductive Entry where
  | submitted
  | rejected
  | panicked
  | abandoned (count : Nat)
  /-- A task that `worker` ran for `ran` nanoseconds after it had waited for `waited`. -/
  | executed (worker waited ran : Nat)
  deriving DecidableEq, Repr

namespace Entry

/-- The entry as if another worker had run the task. -/
def unassigned : Entry → Entry
  | .executed _ waited ran => .executed 0 waited ran
  | e => e

/-- What the entry adds to a counter. -/
def adds : Entry → Counter → UInt64
  | .submitted, .submitted => 1
  | .rejected, .rejected => 1
  | .panicked, .panicked => 1
  | .abandoned count, .abandoned => UInt64.ofNat count
  | .executed _ _ _, .executed => 1
  | .executed _ _ ran, .busy => saturated ran
  | .executed _ waited _, .waited => saturated waited
  | _, _ => 0

/-- The latency as it is kept: the nanoseconds as a word, and no more than an hour. -/
def sample? : Entry → Option Nat
  | .executed _ _ ran => some (min (saturated ran).toNat maxTracked)
  | _ => none

theorem adds_unassigned (e : Entry) : e.unassigned.adds = e.adds := by
  funext counter
  cases e <;> cases counter <;> rfl

theorem sample?_unassigned (e : Entry) : e.unassigned.sample? = e.sample? := by
  cases e <;> rfl

end Entry

/-- The metrics with one entry more. -/
def enter (m : Metrics H) : Entry → Metrics H
  | .submitted => m.recordSubmitted
  | .rejected => m.recordRejected
  | .panicked => m.recordPanicked
  | .abandoned count => m.recordAbandoned count
  | .executed worker waited ran => m.recordExecution worker waited ran

/-- The metrics after these entries, in order. -/
def enterAll (m : Metrics H) (entries : List Entry) : Metrics H := entries.foldl enter m

/-- The latencies among the entries. -/
def samples (entries : List Entry) : List Nat := entries.filterMap Entry.sample?

theorem samples_le {entries : List Entry} {v : Nat} (h : v ∈ samples entries) :
    v ≤ maxTracked := by
  obtain ⟨e, -, he⟩ := List.mem_filterMap.mp h
  cases e with
  | executed worker waited ran =>
      obtain rfl := Option.some.inj he
      exact Nat.min_le_right _ _
  | _ => cases he

/-- Who ran what makes no difference to the samples. -/
theorem samples_unassigned (entries : List Entry) :
    samples (entries.map Entry.unassigned) = samples entries := by
  simp only [samples, List.filterMap_map, Function.comp_def, Entry.sample?_unassigned]

/-! ## 2. Counters -/

theorem get_enter (m : Metrics H) (e : Entry) (counter : Counter) :
    (m.enter e).get counter = m.get counter + e.adds counter := by
  cases e <;> cases counter <;>
    simp [enter, Entry.adds, recordExecution, get_recordSubmitted, get_recordRejected,
      get_recordPanicked, get_recordAbandoned, get_recordPart]

/-- **A counter is a sum over the entries.** -/
theorem get_enterAll (m : Metrics H) (entries : List Entry) (counter : Counter) :
    (m.enterAll entries).get counter =
      m.get counter + (entries.map fun e => e.adds counter).sum := by
  induction entries generalizing m with
  | nil => simp [enterAll]
  | cons e rest ih =>
      rw [enterAll, List.foldl_cons, ← enterAll, ih, get_enter, List.map_cons, List.sum_cons,
        add_assoc]

/-! ## 3. Shards -/

/-- All shards. -/
def shards (m : Metrics H) : List H := m.firstShard :: m.otherShards

theorem shards_recordIn (m : Metrics H) (shard sample : Nat) :
    (m.recordIn shard sample).shards = m.shards.modify shard (record · sample) := by
  cases shard <;> rfl

theorem shards_enter (m : Metrics H) (e : Entry) :
    (m.enter e).shards = match e with
      | .executed worker _ ran =>
        m.shards.modify (worker % m.shardCount)
          (record · (min (saturated ran).toNat maxTracked))
      | _ => m.shards := by
  cases e with
  | executed worker waited ran => exact shards_recordIn _ _ _
  | _ => rfl

theorem shardCount_enterAll (m : Metrics H) (entries : List Entry) :
    (m.enterAll entries).shardCount = m.shardCount := by
  induction entries generalizing m with
  | nil => rfl
  | cons e rest ih =>
      refine (ih (m.enter e)).trans ?_
      show (m.enter e).shards.length = m.shards.length
      rw [shards_enter]
      cases e with
      | executed => exact List.length_modify _ _ _
      | _ => rfl

omit [HistogramLibrary H] in
/-- **The shard that a worker writes to is always there.** -/
theorem shard_lt (m : Metrics H) (worker : Nat) : worker % m.shardCount < m.shards.length :=
  Nat.mod_lt _ (Nat.succ_pos _)

/-- The shards hold these samples among them. -/
def ShardsHold (m : Metrics H) (samples : List Nat) : Prop :=
  ∃ parts, List.Forall₂ Holds parts m.shards ∧ parts.flatten.Perm samples

section Lawful

variable [LawfulHistogramLibrary H]

/-- One sample more in one of the shards. -/
theorem exists_parts {parts : List (List Nat)} {hs : List H}
    (h : List.Forall₂ Holds parts hs) {i v : Nat} (hi : i < hs.length)
    (hv : v ≤ Bucket.trackable) :
    ∃ parts', List.Forall₂ Holds parts' (hs.modify i (record · v)) ∧
      parts'.flatten.Perm (v :: parts.flatten) := by
  induction h generalizing i with
  | nil => exact absurd hi (Nat.not_lt_zero i)
  | @cons part k parts hs hk hrest ih =>
      cases i with
      | zero => exact ⟨(v :: part) :: parts, .cons (hk.record hv) hrest, .refl _⟩
      | succ i =>
          obtain ⟨parts', hp, hperm⟩ := ih (Nat.lt_of_succ_lt_succ hi)
          exact ⟨part :: parts', .cons hk hp, (hperm.append_left part).trans List.perm_middle⟩

theorem maxTracked_top_le : Bucket.top maxTracked ≤ Bucket.trackable := by decide

theorem ShardsHold.enter {m : Metrics H} {entries : List Entry} (h : m.ShardsHold (samples entries))
    (e : Entry) : (m.enter e).ShardsHold (samples (e :: entries)) := by
  obtain ⟨parts, hp, hperm⟩ := h
  cases e with
  | executed worker waited ran =>
      have hle : min (saturated ran).toNat maxTracked ≤ Bucket.trackable :=
        Nat.le_trans (Nat.min_le_right _ _) (Nat.le_trans (Bucket.le_top _) maxTracked_top_le)
      obtain ⟨parts', hp', hperm'⟩ := exists_parts hp (m.shard_lt worker) hle
      exact ⟨parts', shards_enter m _ ▸ hp', hperm'.trans (hperm.cons _)⟩
  | _ => exact ⟨parts, hp, hperm⟩

theorem shardsHold_withShards (shards : Nat) : (withShards shards : Metrics H).ShardsHold [] := by
  refine ⟨[] :: List.replicate (shards - 1) [], .cons holds_empty ?_, ?_⟩
  · show List.Forall₂ Holds (List.replicate (shards - 1) [])
      (List.replicate (shards - 1) (empty : H))
    induction shards - 1 with
    | zero => exact .nil
    | succ n ih => exact .cons holds_empty ih
  · simp

theorem shardsHold_enterAll (shards : Nat) (entries : List Entry) :
    ((withShards shards : Metrics H).enterAll entries).ShardsHold (samples entries) := by
  -- the samples of the entries made last come first
  suffices h : ∀ entries : List Entry,
      (entries.foldr (fun e m => m.enter e) (withShards shards : Metrics H)).ShardsHold
        (samples entries) by
    obtain ⟨parts, hp, hperm⟩ := h entries.reverse
    rw [List.foldr_reverse] at hp
    exact ⟨parts, hp, hperm.trans (entries.reverse_perm.filterMap _)⟩
  intro entries
  induction entries with
  | nil => exact shardsHold_withShards shards
  | cons e rest ih => exact ih.enter e

/-- **Merging never fails, and the merged shards hold the samples of all entries.** -/
theorem holds_latency (shards : Nat) (entries : List Entry) :
    let m : Metrics H := (withShards shards).enterAll entries
    m.otherShards.foldlM merge? m.firstShard = some m.latency ∧
      Holds (samples entries) m.latency := by
  intro m
  obtain ⟨parts, hp, hperm⟩ := shardsHold_enterAll (H := H) shards entries
  cases hp with
  | @cons first _ others _ hfirst hothers =>
      have htop : ∀ part ∈ others, Bucket.top (largestOf part) ≤ Bucket.trackable := by
        intro part hpart
        refine Nat.le_trans (Bucket.top_mono (largestOf_le fun v hv => ?_))
          maxTracked_top_le
        have hmem : v ∈ samples entries :=
          hperm.mem_iff.mp (List.mem_flatten.mpr ⟨part, List.mem_cons_of_mem _ hpart, hv⟩)
        exact samples_le hmem
      obtain ⟨hmerge, hholds⟩ := hfirst.mergeAll hothers htop
      exact ⟨hmerge, hholds.perm hperm⟩

end Lawful

end Metrics

/-! ## 4. What is read -/

/-- A snapshot takes some figures of a histogram, and nothing else of it. -/
theorem Snapshot.withLatency_congr {H : Type} [HistogramLibrary H] (s : Snapshot) {h k : H}
    (ht : total h = total k) (hm : maxFigure h = maxFigure k)
    (hf : quantile h = quantile k ∧ mean h = mean k) : s.withLatency h = s.withLatency k := by
  simp only [withLatency, ht, hm, hf.1, hf.2]

namespace Metrics

variable {H : Type} [HistogramLibrary H]

section Permuted

variable {entries others : List Entry}
  (h : (entries.map Entry.unassigned).Perm (others.map Entry.unassigned))

include h

/-- The counters are sums over the entries. -/
theorem get_enterAll_of_perm (shards shards' : Nat) (counter : Counter) :
    ((withShards shards : Metrics H).enterAll entries).get counter =
      ((withShards shards' : Metrics H).enterAll others).get counter := by
  have hsum : (entries.map fun e => e.adds counter).sum =
      (others.map fun e => e.adds counter).sum := by
    have hp := (h.map fun e => e.adds counter).sum_eq
    simpa only [List.map_map, Function.comp_def, Entry.adds_unassigned] using hp
  rw [get_enterAll, get_enterAll, hsum]
  cases counter <;> rfl

theorem samples_perm : (samples others).Perm (samples entries) := by
  rw [← samples_unassigned entries, ← samples_unassigned others]
  exact (h.filterMap _).symm

end Permuted

/-- A snapshot is made of the counters and of the figures of the merged shards. -/
theorem snapshot_congr {m k : Metrics H} (hget : ∀ counter, m.get counter = k.get counter)
    (hlatency : ∀ s : Snapshot, s.withLatency m.latency = s.withLatency k.latency) (uptime : Nat) :
    m.snapshot uptime = k.snapshot uptime := by
  rw [snapshot, hlatency, show m.submitted = k.submitted from hget .submitted,
    show m.rejected = k.rejected from hget .rejected,
    show m.executed = k.executed from hget .executed,
    show m.panicked = k.panicked from hget .panicked,
    show m.abandoned = k.abandoned from hget .abandoned,
    show m.busy = k.busy from hget .busy, show m.waited = k.waited from hget .waited,
    ← snapshot]

/-- **The number of shards cannot be told from what is read**, with the histograms of any library
    that counts as it should: it is what metrics of one shard say after the same entries in any
    order, made by whatever workers. A worker never writes beyond the shards, merging never fails,
    every sample is in its bucket of the merged shards, and a mean is taken only of something. -/
theorem sharding_unobservable [LawfulHistogramLibrary H] (shards : Nat)
    (entries others : List Entry)
    (h : (entries.map Entry.unassigned).Perm (others.map Entry.unassigned)) :
    let m : Metrics H := (withShards shards).enterAll entries
    let single : Metrics H := (withShards 1).enterAll others
    (∀ uptime, m.snapshot uptime = single.snapshot uptime) ∧
    (∀ counter, m.get counter = single.get counter) ∧
    (∀ worker, worker % m.shardCount < m.shardCount) ∧ m.shardCount = max 1 shards ∧
    m.otherShards.foldlM merge? m.firstShard = some m.latency ∧
    total m.latency = (samples entries).length ∧
    (∀ v, countAt m.latency v =
      (samples entries).countP fun s => Bucket.floor s = Bucket.floor v) ∧
    (m.get .executed = 0 → ∀ uptime, (m.snapshot uptime).averageWait = 0) ∧
    (samples entries = [] → ∀ uptime, (m.snapshot uptime).averageLatency = 0) := by
  intro m single
  have hget (counter : Counter) : m.get counter = single.get counter :=
    get_enterAll_of_perm h shards 1 counter
  obtain ⟨hmerge, hm⟩ := holds_latency (H := H) shards entries
  have hsingle := (holds_latency (H := H) 1 others).2.perm (samples_perm h)
  have hcount : m.shardCount = max 1 shards := by
    rw [shardCount_enterAll]
    show (List.replicate (shards - 1) (empty : H)).length + 1 = _
    rw [List.length_replicate]
    omega
  refine ⟨fun uptime => ?_, hget, fun worker => Nat.mod_lt _ (Nat.succ_pos _), hcount, hmerge,
    hm.total, hm.counts, fun he uptime => ?_, fun hs uptime => ?_⟩
  · exact snapshot_congr hget (fun s => s.withLatency_congr (hm.total.trans hsingle.total.symm)
      (hm.maxFigure.trans hsingle.maxFigure.symm) (hm.figures hsingle)) uptime
  · show average m.waited m.executed = 0
    rw [show m.executed = 0 from he, average, if_pos rfl]
  · show (if total m.latency = 0 then 0 else (mean m.latency).toUInt64) = (0 : UInt64)
    rw [if_pos (by rw [hm.total, hs, List.length_nil])]

/-- Five executions by workers of three shards, one of them beyond the shards, with other entries
    between them, against one shard that has them in another order. -/
theorem sharding_unobservable_over_three :
    let entries : List Entry := [.submitted, .executed 0 5 1000, .executed 1 0 5000, .panicked,
      .executed 2 7 9000, .executed 7 0 (2 ^ 64), .executed 2 1 4000]
    let others : List Entry := [.executed 0 0 (2 ^ 64), .executed 0 1 4000, .executed 0 7 9000,
      .executed 0 0 5000, .executed 0 5 1000, .panicked, .submitted]
    let m : Metrics := (withShards 3).enterAll entries
    let single : Metrics := (withShards 1).enterAll others
    (entries.map Entry.unassigned).Perm (others.map Entry.unassigned) ∧
    (∀ uptime, m.snapshot uptime = single.snapshot uptime) ∧
    total m.latency = 5 ∧ (m.snapshot 0).p50 = 5003 ∧ (m.snapshot 0).executed = 5 ∧
    (m.snapshot 0).maxLatency = 3601330077695 := by
  intro entries others m single
  have hp : (entries.map Entry.unassigned).Perm (others.map Entry.unassigned) := by decide
  obtain ⟨hread, -⟩ := sharding_unobservable (H := Histogram) 3 entries others hp
  exact ⟨hp, hread, by decide, by decide, by decide, by decide⟩

end Metrics

end WorkerPool
