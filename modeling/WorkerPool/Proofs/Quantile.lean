import Mathlib.Order.Bounds.Defs
import WorkerPool.Proofs.Sharding

/-!
# Quantiles of latencies

A quantile is found by counting through the buckets until the count reaches the rank. That happens
in the bucket of the sample that has this rank when the samples are sorted, so the figure is the top
of that bucket: never below the sample, and above it by no more than a 1024th. Figures of higher
ranks are of higher buckets, and the largest figure is of the highest.

* `Holds.below_eq` -- counting through the buckets is counting samples;
* `countP_floor_lt_le`, `lt_countP_floor_le` -- what is counted on both sides of a sorted sample;
* `Holds.quantile_eq` -- **a quantile is the top of the bucket of the sample of its rank**;
* `latency_figures` -- the figures of a snapshot, in order and close to the samples.
-/

namespace WorkerPool

namespace HistogramLibrary

/-! ## 1. Samples in order -/

/-- The samples in increasing order. -/
def ascending (samples : List Nat) : List Nat := samples.mergeSort

theorem ascending_perm (samples : List Nat) : (ascending samples).Perm samples :=
  List.mergeSort_perm samples _

theorem ascending_sorted (samples : List Nat) : (ascending samples).Pairwise (· ≤ ·) := by
  have hs : (samples.mergeSort fun a b => decide (a ≤ b)).Pairwise fun a b => decide (a ≤ b) :=
    List.pairwise_mergeSort (fun a b c => by simpa using Nat.le_trans)
      (fun a b => by simpa using Nat.le_total a b) samples
  exact hs.imp fun h => by simpa using h

section Sorted

variable {l : List Nat} {i v : Nat}

theorem exists_split (hv : l[i]? = some v) :
    ∃ before after, l = before ++ v :: after ∧ before.length = i := by
  obtain ⟨hi, rfl⟩ := List.getElem?_eq_some_iff.mp hv
  exact ⟨l.take i, l.drop (i + 1), by rw [← List.drop_eq_getElem_cons, List.take_append_drop],
    List.length_take_of_le (Nat.le_of_lt hi)⟩

/-- Below the bucket of a sample there are only samples that come before it. -/
theorem countP_floor_lt_le (hs : l.Pairwise (· ≤ ·)) (hv : l[i]? = some v) :
    (l.countP fun s => Bucket.floor s < Bucket.floor v) ≤ i := by
  obtain ⟨before, after, rfl, rfl⟩ := exists_split hv
  have hnone : ((v :: after).countP fun s => Bucket.floor s < Bucket.floor v) = 0 := by
    refine List.countP_eq_zero.mpr fun s hm => ?_
    have hle : v ≤ s := by
      rcases List.mem_cons.mp hm with rfl | hm
      · exact Nat.le_refl _
      · exact (List.pairwise_cons.mp (List.pairwise_append.mp hs).2.1).1 s hm
    simpa using Bucket.floor_mono hle
  rw [List.countP_append, hnone]
  exact List.countP_le_length

/-- Up to the bucket of a sample there are all that come before it, and the sample itself. -/
theorem lt_countP_floor_le (hs : l.Pairwise (· ≤ ·)) (hv : l[i]? = some v) :
    i < l.countP fun s => Bucket.floor s ≤ Bucket.floor v := by
  obtain ⟨before, after, rfl, rfl⟩ := exists_split hv
  have hall : (before.countP fun s => Bucket.floor s ≤ Bucket.floor v) = before.length := by
    refine List.countP_eq_length.mpr fun s hm => ?_
    have hle := (List.pairwise_append.mp hs).2.2 s hm v List.mem_cons_self
    simpa using Bucket.floor_mono hle
  rw [List.countP_append, hall, List.countP_cons_of_pos (by simp)]
  omega

end Sorted

/-! ## 2. Ranks -/

/-- The exact rank is the least that has this share of the samples up to it. -/
theorem exactRank_isLeast (q : Quantile) (total : Nat) :
    IsLeast {k | 1 ≤ k ∧ q.num * total ≤ k * q.den} (q.exactRank total) := by
  have hd := q.den_pos
  refine ⟨⟨Nat.le_max_left .., ?_⟩, fun k hk => Nat.max_le.mpr ⟨hk.1, ?_⟩⟩
  · have hle := Nat.mul_le_mul_right q.den
      (Nat.le_max_right 1 ((q.num * total + q.den - 1) / q.den))
    have hlt := Nat.lt_div_mul_add (a := q.num * total + q.den - 1) hd
    rw [Quantile.exactRank]
    omega
  · have hk : q.num * total ≤ k * q.den := hk.2
    rw [← Nat.lt_succ_iff, Nat.div_lt_iff_lt_mul hd, Nat.succ_mul]
    omega

variable {H : Type} [HistogramLibrary H]

section Holds

variable {samples : List Nat} {h : H} {q q' : Quantile} {v : Nat}

theorem countP_floor_succ (samples : List Nat) (f : Nat) :
    (samples.countP fun s => Bucket.floor s < f + 1) =
      (samples.countP fun s => Bucket.floor s < f) +
        samples.countP fun s => Bucket.floor s = f := by
  induction samples with
  | nil => rfl
  | cons s rest ih =>
      simp only [List.countP_cons, ih, decide_eq_true_eq]
      split <;> split <;> split <;> omega

/-- **Counting through the buckets is counting samples.** -/
theorem Holds.below_eq (hh : Holds samples h) (f : Nat) :
    below h f = samples.countP fun s => Bucket.floor s < f := by
  induction f with
  | zero => simp [below]
  | succ f ih =>
      rw [below, ih, countP_floor_succ]
      split
      · next hf => rw [hh.counts, hf]
      · next hf =>
        -- no bucket begins here
        have hnone : (samples.countP fun s => Bucket.floor s = f) = 0 := by
          refine List.countP_eq_zero.mpr fun s _ hs => hf ?_
          rw [← of_decide_eq_true hs, Bucket.floor_floor]
        rw [hnone]

variable [RankedHistogramLibrary H]

open RankedHistogramLibrary

/-- **A quantile is the top of the bucket of the sample of its rank.** -/
theorem Holds.quantile_eq (hh : Holds samples h)
    (hv : (ascending samples)[rank H q samples.length - 1]? = some v) :
    quantile h q = Bucket.top v := by
  have hpos := rank_pos (H := H) q samples.length
  have hsorted := ascending_sorted samples
  have hperm := ascending_perm samples
  have hlo := countP_floor_lt_le hsorted hv
  have hhi := lt_countP_floor_le hsorted hv
  simp only [← Nat.lt_succ_iff (n := Bucket.floor v)] at hhi
  rw [hperm.countP_eq] at hlo
  rw [hperm.countP_eq, Nat.succ_eq_add_one, countP_floor_succ] at hhi
  refine reached ?_ ?_
  · rw [hh.below_eq, hh.total]
    omega
  · rw [hh.below_eq, hh.total, hh.counts]
    omega

/-- Without samples it is zero. -/
theorem Holds.quantile_nil (hh : Holds [] h) : quantile h q = 0 := by
  refine unreached fun v => ?_
  rw [hh.below_eq, hh.counts]
  exact rank_pos q _

theorem exists_of_rank (hs : samples ≠ []) (q : Quantile) :
    ∃ v, (ascending samples)[rank H q samples.length - 1]? = some v := by
  have hpos := rank_pos (H := H) q samples.length
  have hle := rank_le (H := H) q (List.length_pos_of_ne_nil hs)
  have hlt : rank H q samples.length - 1 < (ascending samples).length := by
    rw [(ascending_perm samples).length_eq]
    omega
  exact ⟨_, List.getElem?_eq_getElem hlt⟩

/-- A quantile of a higher rank is no smaller. -/
theorem Holds.quantile_mono (hh : Holds samples h)
    (hr : rank H q samples.length ≤ rank H q' samples.length) :
    quantile h q ≤ quantile h q' := by
  by_cases hs : samples = []
  · subst hs
    rw [hh.quantile_nil]
    exact Nat.zero_le _
  obtain ⟨u, hu⟩ := exists_of_rank (H := H) hs q
  obtain ⟨v, hv⟩ := exists_of_rank (H := H) hs q'
  rw [hh.quantile_eq hu, hh.quantile_eq hv]
  refine Bucket.top_mono ?_
  obtain ⟨hi, rfl⟩ := List.getElem?_eq_some_iff.mp hu
  obtain ⟨hj, rfl⟩ := List.getElem?_eq_some_iff.mp hv
  rcases Nat.eq_or_lt_of_le (Nat.sub_le_sub_right hr 1) with he | hlt
  · simp only [he, Nat.le_refl]
  · exact List.pairwise_iff_getElem.mp (ascending_sorted samples) _ _ hi hj hlt

omit [HistogramLibrary H] [RankedHistogramLibrary H] in
theorem le_largestOf (hv : v ∈ samples) : v ≤ largestOf samples := by
  induction samples with
  | nil => exact absurd hv List.not_mem_nil
  | cons u rest ih =>
      rcases List.mem_cons.mp hv with rfl | hv
      · exact Nat.le_max_left _ _
      · exact Nat.le_trans (ih hv) (Nat.le_max_right _ _)

omit [HistogramLibrary H] [RankedHistogramLibrary H] in
theorem largestOf_mem (hs : samples ≠ []) : largestOf samples ∈ samples := by
  induction samples with
  | nil => exact absurd rfl hs
  | cons u rest ih =>
      show max u (largestOf rest) ∈ u :: rest
      rcases Nat.le_total (largestOf rest) u with hle | hle
      · rw [Nat.max_eq_left hle]
        exact List.mem_cons_self
      · rw [Nat.max_eq_right hle]
        cases rest with
        | nil =>
            obtain rfl := Nat.le_zero.mp hle
            exact List.mem_cons_self
        | cons w rest => exact List.mem_cons_of_mem _ (ih (List.cons_ne_nil _ _))

theorem Holds.quantile_le_max (hh : Holds samples h) :
    quantile h q ≤ HistogramLibrary.maxFigure h := by
  by_cases hs : samples = []
  · subst hs
    rw [hh.quantile_nil]
    exact Nat.zero_le _
  obtain ⟨v, hv⟩ := exists_of_rank (H := H) hs q
  rw [hh.quantile_eq hv, hh.maxFigure]
  exact Bucket.top_mono
    (le_largestOf ((ascending_perm samples).mem_iff.mp (List.mem_of_getElem? hv)))

end Holds

end HistogramLibrary

/-! ## 3. The figures of a snapshot -/

namespace Metrics

open HistogramLibrary

/-- A sample is a run time in nanoseconds, cut off at what a word holds and at an hour. -/
theorem samples_eq (entries : List Entry) :
    samples entries = entries.filterMap fun
      | .executed _ _ ran => some (min (min ran (2 ^ 64 - 1)) 3600000000000)
      | _ => none := by
  refine List.filterMap_congr fun e _ => ?_
  cases e with
  | executed worker waited ran =>
      simp only [Entry.sample?, saturated, maxTracked]
      rw [UInt64.toNat_ofNat_of_lt' (by simp only [UInt64.size]; omega)]
      rfl
  | _ => rfl

/-- **The latency figures are in order and close to the samples**, with any number of shards, after
    any entries and with any library that finds quantiles as it should. Each quantile is at most a
    1024th above the sample of its rank. The rank is the library's, and up to `2 ^ 47` samples it is
    the least from one on that has this share of the samples up to it. The largest figure is at most
    a 1024th above the largest sample, and exact below 2048. Without any sample all of them are
    zero. A sample is the run time in nanoseconds, cut off at an hour. -/
theorem latency_figures {H : Type} [HistogramLibrary H] [RankedHistogramLibrary H] (shards : Nat)
    (entries : List Entry) (uptime : Nat) :
    let ds := samples entries
    let s := ((withShards shards : Metrics H).enterAll entries).snapshot uptime
    ds = (entries.filterMap fun
      | .executed _ _ ran => some (min (min ran (2 ^ 64 - 1)) 3600000000000)
      | _ => none) ∧
    s.p50 ≤ s.p95 ∧ s.p95 ≤ s.p99 ∧ s.p99 ≤ s.maxLatency ∧
    (ds ≠ [] →
      (∃ m ∈ ds, (∀ d ∈ ds, d ≤ m) ∧ m ≤ s.maxLatency ∧ s.maxLatency ≤ m + m / 1024 ∧
        (m < 2048 → s.maxLatency = m)) ∧
      ∀ q ∈ [(Quantile.p50, s.p50), (Quantile.p95, s.p95), (Quantile.p99, s.p99)],
        ∃ r v, r = rank H q.1 ds.length ∧
          (ds.length ≤ 2 ^ 47 → IsLeast {k | 1 ≤ k ∧ q.1.num * ds.length ≤ k * q.1.den} r) ∧
          1 ≤ r ∧ (ascending ds)[r - 1]? = some v ∧ v ≤ q.2 ∧ q.2 ≤ v + v / 1024) ∧
    (ds = [] → s.p50 = 0 ∧ s.p95 = 0 ∧ s.p99 = 0 ∧ s.maxLatency = 0) := by
  intro ds s
  have hh : Holds ds ((withShards shards : Metrics H).enterAll entries).latency :=
    (holds_latency shards entries).2
  have hp50 : s.p50 = quantile ((withShards shards : Metrics H).enterAll entries).latency .p50 := rfl
  have hp95 : s.p95 = quantile ((withShards shards : Metrics H).enterAll entries).latency .p95 := rfl
  have hp99 : s.p99 = quantile ((withShards shards : Metrics H).enterAll entries).latency .p99 := rfl
  have hmax : s.maxLatency = maxFigure ((withShards shards : Metrics H).enterAll entries).latency :=
    rfl
  generalize ((withShards shards : Metrics H).enterAll entries).latency = h
    at hh hp50 hp95 hp99 hmax
  rw [hp50, hp95, hp99, hmax]
  obtain ⟨h5095, h9599⟩ := RankedHistogramLibrary.rank_mono (H := H) ds.length
  refine ⟨samples_eq entries, hh.quantile_mono h5095, hh.quantile_mono h9599, hh.quantile_le_max,
    fun hs => ⟨⟨largestOf ds, largestOf_mem hs, fun d => le_largestOf, ?_⟩, ?_⟩, fun hs => ?_⟩
  · rw [hh.maxFigure]
    exact ⟨Bucket.le_top _, Bucket.top_le _, Bucket.top_of_lt⟩
  · have hquantile (q : Quantile) : ∃ r v, r = rank H q ds.length ∧
        (ds.length ≤ 2 ^ 47 → IsLeast {k | 1 ≤ k ∧ q.num * ds.length ≤ k * q.den} r) ∧
        1 ≤ r ∧ (ascending ds)[r - 1]? = some v ∧ v ≤ quantile h q ∧
          quantile h q ≤ v + v / 1024 := by
      obtain ⟨v, hv⟩ := exists_of_rank (H := H) hs q
      refine ⟨_, v, rfl, fun hN => ?_, RankedHistogramLibrary.rank_pos q _, hv, ?_⟩
      · rw [RankedHistogramLibrary.rank_exact q hN]
        exact exactRank_isLeast q _
      · rw [hh.quantile_eq hv]
        exact ⟨Bucket.le_top v, Bucket.top_le v⟩
    simp only [List.forall_mem_cons, List.not_mem_nil, false_implies, implies_true, and_true]
    exact ⟨hquantile .p50, hquantile .p95, hquantile .p99⟩
  · rw [hs] at hh
    exact ⟨hh.quantile_nil, hh.quantile_nil, hh.quantile_nil, hh.maxFigure⟩

/-- Four executions over two shards, one of them longer than any latency that is kept: the median
    is the second sample, and the figures of the third bucket and of the last are above their
    samples. -/
theorem latency_figures_of_four :
    let entries : List Entry :=
      [.executed 1 0 7001, .executed 0 0 100, .executed 3 0 (2 ^ 64 * 10 ^ 9), .executed 0 0 5000]
    let s := ((withShards 2 : Metrics).enterAll entries).snapshot 0
    samples entries ≠ [] ∧ s.p50 = 5003 ∧ s.p95 = 3601330077695 ∧ s.p50 ≤ s.p95 ∧
    (∃ m ∈ samples entries, m ≤ s.maxLatency ∧ s.maxLatency ≤ m + m / 1024) ∧
    ∃ v, (ascending (samples entries))[1]? = some v ∧ v ≤ s.p50 ∧ s.p50 ≤ v + v / 1024 := by
  intro entries s
  obtain ⟨-, h50, -, -, hsome, -⟩ := latency_figures (H := Histogram) 2 entries 0
  have hs : samples entries ≠ [] := by decide
  obtain ⟨⟨m, hm, -, hlo, hhi, -⟩, hquantile⟩ := hsome hs
  obtain ⟨r, v, -, hrank, -, hv, hle, hclose⟩ := hquantile (.p50, s.p50) List.mem_cons_self
  have hlen : (samples entries).length = 4 := by decide
  obtain ⟨⟨-, hshare⟩, hleast⟩ := hrank (by rw [hlen]; decide)
  have htwo : r ≤ 2 := hleast ⟨by decide, by rw [hlen]; decide⟩
  have hhalf : 1 * 4 ≤ r * 2 := hlen ▸ hshare
  obtain rfl : r = 2 := by omega
  exact ⟨hs, by decide, by decide, h50, ⟨m, hm, hlo, hhi⟩, v, hv, hle, hclose⟩

end Metrics

end WorkerPool
