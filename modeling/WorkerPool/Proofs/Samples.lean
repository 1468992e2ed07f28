import Mathlib.Data.List.Forall2
import WorkerPool.Latency.Library

/-!
# Histograms and their samples

What a histogram of a lawful library says depends on its samples alone: not on their order, and not
on whether they came one by one or from other histograms.

* `Holds` -- a histogram that holds these samples and no others;
* `Holds.record`, `Holds.merge?`, `Holds.mergeAll` -- what recording and merging do to the samples;
* `Holds.figures` -- **histograms of the same samples report the same figures**.
-/

namespace WorkerPool

namespace HistogramLibrary

variable {H : Type} [HistogramLibrary H]

/-- The largest sample; zero if there is none. -/
def largestOf (samples : List Nat) : Nat := samples.foldr max 0

theorem largestOf_append (samples more : List Nat) :
    largestOf (samples ++ more) = max (largestOf samples) (largestOf more) := by
  induction samples with
  | nil => exact (Nat.max_eq_right (Nat.zero_le _)).symm
  | cons v rest ih =>
      show max v (largestOf (rest ++ more)) = max (max v (largestOf rest)) (largestOf more)
      rw [ih, Nat.max_assoc]

theorem largestOf_le {samples : List Nat} {bound : Nat} (hb : ∀ v ∈ samples, v ≤ bound) :
    largestOf samples ≤ bound := by
  induction samples with
  | nil => exact Nat.zero_le bound
  | cons v rest ih =>
      have hrest := ih fun u hu => hb u (List.mem_cons_of_mem _ hu)
      exact Nat.max_le.mpr ⟨hb v List.mem_cons_self, hrest⟩

/-- The histogram holds these samples, each in its bucket, and no others. -/
structure Holds (samples : List Nat) (h : H) : Prop where
  total : total h = samples.length
  counts : ∀ v, countAt h v = samples.countP fun s => Bucket.floor s = Bucket.floor v
  maxFigure : maxFigure h = Bucket.top (largestOf samples)

section Holds

variable [LawfulHistogramLibrary H] {samples more : List Nat} {h k : H}

theorem holds_empty : Holds [] (empty : H) where
  total := LawfulHistogramLibrary.total_empty
  counts := LawfulHistogramLibrary.countAt_empty
  maxFigure := LawfulHistogramLibrary.maxFigure_empty

omit [LawfulHistogramLibrary H] in
theorem Holds.perm (hh : Holds samples h) (hp : samples.Perm more) : Holds more h where
  total := hh.total.trans hp.length_eq
  counts v := (hh.counts v).trans (hp.countP_eq _)
  maxFigure := by
    rw [hh.maxFigure, largestOf, largestOf,
      hp.foldr_eq' fun x _ y _ z => Nat.max_left_comm y x z]

/-- **Histograms of the same samples report the same figures.** -/
theorem Holds.figures (hh : Holds samples h) (hk : Holds samples k) :
    quantile h = quantile k ∧ mean h = mean k :=
  LawfulHistogramLibrary.figures (hh.total.trans hk.total.symm)
    (fun v => (hh.counts v).trans (hk.counts v).symm) (hh.maxFigure.trans hk.maxFigure.symm)

/-- One sample more. -/
theorem Holds.record (hh : Holds samples h) {v : Nat} (hv : v ≤ Bucket.trackable) :
    Holds (v :: samples) (record h v) where
  total := by rw [LawfulHistogramLibrary.total_record, hh.total, List.length_cons]
  counts u := by
    rw [LawfulHistogramLibrary.countAt_record h hv, hh.counts, List.countP_cons]
    simp only [decide_eq_true_eq]
  maxFigure := by
    rw [LawfulHistogramLibrary.maxFigure_record h hv, hh.maxFigure, ← Bucket.top_max, Nat.max_comm]
    rfl

/-- **Histograms can always be merged, and nothing is lost**, where the samples have buckets. -/
theorem Holds.merge? (hh : Holds samples h) (hk : Holds more k)
    (hm : Bucket.top (largestOf more) ≤ Bucket.trackable) :
    ∃ merged, merge? h k = some merged ∧ Holds (samples ++ more) merged := by
  obtain ⟨merged, he, htotal, hcounts, hmax⟩ :=
    LawfulHistogramLibrary.merge (h := h) (hk.maxFigure.symm ▸ hm)
  refine ⟨merged, he, ?_, fun v => ?_, ?_⟩
  · rw [htotal, hh.total, hk.total, List.length_append]
  · rw [hcounts, hh.counts, hk.counts, List.countP_append]
  · rw [hmax, hh.maxFigure, hk.maxFigure, largestOf_append, Bucket.top_max]

/-- **All shards can be merged, one after the other, and nothing is lost.** -/
theorem Holds.mergeAll {parts : List (List Nat)} {others : List H}
    (hh : Holds samples h) (ho : List.Forall₂ Holds parts others)
    (hm : ∀ part ∈ parts, Bucket.top (largestOf part) ≤ Bucket.trackable) :
    others.foldlM HistogramLibrary.merge? h = some (mergeAll h others) ∧
      Holds (samples ++ parts.flatten) (mergeAll h others) := by
  induction ho generalizing samples h with
  | nil =>
      rw [List.flatten_nil, List.append_nil]
      exact ⟨rfl, hh⟩
  | @cons part k parts others hk _ ih =>
      obtain ⟨merged, he, hmerged⟩ := hh.merge? hk (hm part List.mem_cons_self)
      have hrest := ih hmerged fun p hp => hm p (List.mem_cons_of_mem _ hp)
      have hfold : HistogramLibrary.mergeAll h (k :: others) =
          HistogramLibrary.mergeAll merged others := by
        rw [HistogramLibrary.mergeAll, List.foldl_cons, he]
        rfl
      rw [List.foldlM_cons, he, hfold, List.flatten_cons, ← List.append_assoc]
      exact hrest

end Holds

end HistogramLibrary

end WorkerPool
