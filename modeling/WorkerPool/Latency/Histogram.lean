import WorkerPool.Latency.Rank

/-!
# Histograms of latencies

The library that runs. A histogram counts samples by bucket and keeps the largest sample. Only
buckets that hold samples are kept, in increasing order, each by its smallest value, so two
histograms of the same samples are the same list.

* `Histogram.bump`, `Tidy.bump` -- samples more in one bucket, and the list stays tidy;
* `Histogram.record`, `Histogram.merge?` -- one sample more; the samples of another histogram more;
* `Histogram.maxFigure`, `Histogram.walk`, `Histogram.mean` -- the figures read off it.
-/

namespace WorkerPool

namespace Histogram

/-! ## 1. Lists of buckets -/

/-- Buckets by their smallest value, in increasing order, none of them empty. -/
structure Tidy (buckets : List (Nat × Nat)) : Prop where
  sorted : buckets.Pairwise fun b c => b.1 < c.1
  occupied : ∀ b ∈ buckets, 0 < b.2
  floors : ∀ b ∈ buckets, Bucket.floor b.1 = b.1

theorem Tidy.nil : Tidy [] := ⟨List.Pairwise.nil, by simp, by simp⟩

/-- Adds `n` samples to the bucket that begins at `floor`. -/
def bump (floor n : Nat) : List (Nat × Nat) → List (Nat × Nat)
  | [] => [(floor, n)]
  | (f, m) :: rest =>
    if floor < f then (floor, n) :: (f, m) :: rest
    else if floor = f then (f, m + n) :: rest
    else (f, m) :: bump floor n rest

/-- How many samples the list has in the bucket that begins at `floor`. -/
def countIn (floor : Nat) : List (Nat × Nat) → Nat
  | [] => 0
  | (f, n) :: rest => (if f = floor then n else 0) + countIn floor rest

/-- A bucket after a bump is the bumped one or was there before. -/
theorem of_mem_bump {floor n : Nat} {l : List (Nat × Nat)} {b : Nat × Nat}
    (h : b ∈ bump floor n l) : b.1 = floor ∧ n ≤ b.2 ∨ b ∈ l := by
  induction l with
  | nil =>
      obtain rfl := List.mem_singleton.mp h
      exact .inl ⟨rfl, Nat.le_refl n⟩
  | cons c rest ih =>
      obtain ⟨f, m⟩ := c
      unfold bump at h
      split at h
      · rcases List.mem_cons.mp h with rfl | h
        · exact .inl ⟨rfl, Nat.le_refl n⟩
        · exact .inr h
      · split at h
        · next _ he =>
          rcases List.mem_cons.mp h with rfl | h
          · exact .inl ⟨he.symm, Nat.le_add_left n m⟩
          · exact .inr (List.mem_cons_of_mem _ h)
        · rcases List.mem_cons.mp h with rfl | h
          · exact .inr List.mem_cons_self
          · exact (ih h).imp id (List.mem_cons_of_mem _)

theorem pairwise_bump {floor n : Nat} {l : List (Nat × Nat)}
    (hs : l.Pairwise fun b c => b.1 < c.1) :
    (bump floor n l).Pairwise fun b c => b.1 < c.1 := by
  induction l with
  | nil => exact List.pairwise_singleton _ _
  | cons c rest ih =>
      obtain ⟨f, m⟩ := c
      obtain ⟨hhead, hrest⟩ := List.pairwise_cons.mp hs
      unfold bump
      split
      · next hlt =>
        refine List.pairwise_cons.mpr ⟨fun b hb => ?_, hs⟩
        rcases List.mem_cons.mp hb with rfl | hb
        · exact hlt
        · exact Nat.lt_trans hlt (hhead b hb)
      · split
        · exact List.pairwise_cons.mpr ⟨hhead, hrest⟩
        · next hlt hne =>
          refine List.pairwise_cons.mpr ⟨fun b hb => ?_, ih hrest⟩
          rcases of_mem_bump hb with ⟨he, -⟩ | hb
          · show f < b.1
            omega
          · exact hhead b hb

theorem Tidy.bump {floor n : Nat} {l : List (Nat × Nat)} (h : Tidy l) (hn : 0 < n)
    (hf : Bucket.floor floor = floor) : Tidy (bump floor n l) where
  sorted := pairwise_bump h.sorted
  occupied b hb := by
    rcases of_mem_bump hb with ⟨-, hle⟩ | hb
    · exact Nat.lt_of_lt_of_le hn hle
    · exact h.occupied b hb
  floors b hb := by
    rcases of_mem_bump hb with ⟨he, -⟩ | hb
    · rw [he, hf]
    · exact h.floors b hb

/-- The buckets of two lists together. -/
def bumpAll (new l : List (Nat × Nat)) : List (Nat × Nat) :=
  new.foldl (fun acc c => bump c.1 c.2 acc) l

theorem Tidy.bumpAll {new l : List (Nat × Nat)} (h : Tidy l) (hn : Tidy new) :
    Tidy (bumpAll new l) := by
  have hocc := hn.occupied
  have hfloors := hn.floors
  clear hn
  induction new generalizing l with
  | nil => exact h
  | cons c rest ih =>
      exact ih (h.bump (hocc c List.mem_cons_self) (hfloors c List.mem_cons_self))
        (fun b hb => hocc b (List.mem_cons_of_mem _ hb))
        fun b hb => hfloors b (List.mem_cons_of_mem _ hb)

end Histogram

/-! ## 2. Histograms -/

/-- Samples counted by bucket. -/
structure Histogram where
  /-- The smallest value of each bucket that holds samples, with how many it holds. -/
  counts : List (Nat × Nat)
  total : Nat
  /-- The largest sample, or the top of its bucket where histograms were merged. -/
  largest : Nat
  tidy : Histogram.Tidy counts
  deriving DecidableEq, Repr

namespace Histogram

/-- No samples. -/
def empty : Histogram := ⟨[], 0, 0, .nil⟩

/-- One sample more. A sample above every bucket counts in the last one. -/
def record (h : Histogram) (sample : Nat) : Histogram where
  counts := bump (Bucket.floor (min sample Bucket.trackable)) 1 h.counts
  total := h.total + 1
  largest := max h.largest (min sample Bucket.trackable)
  tidy := h.tidy.bump Nat.one_pos (Bucket.floor_floor _)

/-- The largest figure: the top of the bucket of the largest sample. -/
def maxFigure (h : Histogram) : Nat := Bucket.top h.largest

/-- The samples of `other` on top of those of `h`, unless some of them would have no bucket. -/
def merge? (h other : Histogram) : Option Histogram :=
  if Bucket.trackable < other.maxFigure then none
  else some
    { counts := bumpAll other.counts h.counts
      total := h.total + other.total
      largest := if h.maxFigure < other.maxFigure then other.maxFigure else h.largest
      tidy := h.tidy.bumpAll other.tidy }

/-- The top of the bucket in which the count reaches `rank`. -/
def walk : List (Nat × Nat) → Nat → Nat
  | [], _ => 0
  | (f, n) :: rest, rank => if rank ≤ n then Bucket.top f else walk rest (rank - n)

/-- The mean of the samples, each taken at the middle of its bucket, in floating-point arithmetic
    from the lowest bucket to the highest. -/
def mean (h : Histogram) : Float :=
  h.counts.foldl
    (fun sum c => sum + Float.ofNat (Bucket.middle c.1) * Float.ofNat c.2 / Float.ofNat h.total) 0

instance : HistogramLibrary Histogram where
  empty := empty
  record := record
  merge? := merge?
  total := total
  countAt h v := countIn (Bucket.floor v) h.counts
  maxFigure := maxFigure
  quantile h q := walk h.counts (q.rank h.total)
  mean := mean
  rank := Quantile.rank

end Histogram

end WorkerPool
