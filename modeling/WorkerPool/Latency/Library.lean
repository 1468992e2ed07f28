import WorkerPool.Latency.Bucket

/-!
# What is asked of a library of histograms

Latencies are counted by a library of histograms. What it is asked to do is a parameter here, and
what can be relied on is stated next to it: a sample counts in its bucket, merging adds the buckets
up, and the figures are read off the buckets. A quantile is found by going through the buckets from
the lowest on until as many samples are passed as its rank says; the rank is computed in floating
point, and is exact as long as there are not too many samples.

* `Quantile` -- the quantiles that are reported;
* `HistogramLibrary` -- what is asked of a library; `HistogramLibrary.mergeAll`, `below` -- what is
  made of it;
* `LawfulHistogramLibrary` -- how samples are counted;
* `RankedHistogramLibrary` -- how quantiles are found.
-/

namespace WorkerPool

/-- The quantiles of latencies that are reported. -/
inductive Quantile where
  | p50
  | p95
  | p99
  deriving DecidableEq, Repr

namespace Quantile

/-- The quantile is the fraction `num / den`. -/
def num : Quantile → Nat
  | .p50 => 1
  | .p95 => 19
  | .p99 => 99

def den : Quantile → Nat
  | .p50 => 2
  | .p95 => 20
  | .p99 => 100

theorem den_pos (q : Quantile) : 0 < q.den := by cases q <;> decide

/-- The least number from one on that has this share of so many samples up to it. -/
def exactRank (q : Quantile) (total : Nat) : Nat := max 1 ((q.num * total + q.den - 1) / q.den)

end Quantile

/-- What is asked of a library of histograms, for latencies up to an hour and to three figures. -/
class HistogramLibrary (H : Type) where
  empty : H
  /-- One sample more. -/
  record : H → Nat → H
  /-- The samples of the second on top of those of the first, unless some would have no bucket. -/
  merge? : H → H → Option H
  /-- How many samples there are. -/
  total : H → Nat
  /-- How many of them are in the bucket of this value. -/
  countAt : H → Nat → Nat
  /-- The largest figure. -/
  maxFigure : H → Nat
  quantile : H → Quantile → Nat
  mean : H → Float
  /-- The rank that the quantile has among so many samples. -/
  rank : Quantile → Nat → Nat

namespace HistogramLibrary

variable {H : Type} [HistogramLibrary H]

/-- The samples of all, beginning with `first`. One that cannot be merged is passed over. -/
def mergeAll (first : H) (others : List H) : H :=
  others.foldl (fun acc h => (merge? acc h).getD acc) first

/-- How many samples are in buckets that begin below `v`. -/
def below (h : H) : Nat → Nat
  | 0 => 0
  | f + 1 => below h f + if Bucket.floor f = f then countAt h f else 0

end HistogramLibrary

open HistogramLibrary

/-- How a library counts samples: each in its bucket, and the largest of them apart. What it reports
    depends on nothing else. -/
class LawfulHistogramLibrary (H : Type) [HistogramLibrary H] : Prop where
  total_empty : total (empty : H) = 0
  countAt_empty : ∀ v, countAt (empty : H) v = 0
  maxFigure_empty : maxFigure (empty : H) = 0
  total_record : ∀ (h : H) (s : Nat), total (record h s) = total h + 1
  countAt_record : ∀ (h : H) {s : Nat}, s ≤ Bucket.trackable → ∀ v,
    countAt (record h s) v = countAt h v + if Bucket.floor s = Bucket.floor v then 1 else 0
  maxFigure_record : ∀ (h : H) {s : Nat}, s ≤ Bucket.trackable →
    maxFigure (record h s) = max (maxFigure h) (Bucket.top s)
  merge : ∀ {h k : H}, maxFigure k ≤ Bucket.trackable → ∃ merged, merge? h k = some merged ∧
    total merged = total h + total k ∧
    (∀ v, countAt merged v = countAt h v + countAt k v) ∧
    maxFigure merged = max (maxFigure h) (maxFigure k)
  figures : ∀ {h k : H}, total h = total k → (∀ v, countAt h v = countAt k v) →
    maxFigure h = maxFigure k → quantile h = quantile k ∧ mean h = mean k

/-- How a library finds quantiles: it counts through the buckets up to the rank. -/
class RankedHistogramLibrary (H : Type) [HistogramLibrary H] : Prop
    extends LawfulHistogramLibrary H where
  /-- The count reaches the rank in the bucket of `v`. -/
  reached : ∀ {h : H} {q : Quantile} {v : Nat},
    below h (Bucket.floor v) < rank H q (total h) →
    rank H q (total h) ≤ below h (Bucket.floor v) + countAt h v → quantile h q = Bucket.top v
  /-- The count reaches the rank nowhere. -/
  unreached : ∀ {h : H} {q : Quantile},
    (∀ v, below h (Bucket.floor v) + countAt h v < rank H q (total h)) → quantile h q = 0
  rank_pos : ∀ q n, 0 < rank H q n
  rank_le : ∀ q {n}, 0 < n → rank H q n ≤ n
  rank_mono : ∀ n, rank H .p50 n ≤ rank H .p95 n ∧ rank H .p95 n ≤ rank H .p99 n
  rank_exact : ∀ q {n}, n ≤ 1 <<< 47 → rank H q n = q.exactRank n

end WorkerPool
