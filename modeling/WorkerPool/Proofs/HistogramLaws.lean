import Mathlib.Data.List.Sort
import WorkerPool.Latency.Histogram
import WorkerPool.Proofs.Rounding

/-!
# The laws of the histograms that run

A tidy list of buckets is known from how many samples it has in each (`Tidy.eq_of_countIn`), and to
walk along it is to count through the buckets (`walk_of_reached`, `walk_of_unreached`). So the
histograms that run can be relied on as those of a library are, and with them ranks computed in
floating point.
-/

namespace WorkerPool

namespace Histogram

variable {l new : List (Nat × Nat)} {f g n rank : Nat}

/-! ## 1. What is in a bucket -/

theorem countIn_bump (floor n g : Nat) (l : List (Nat × Nat)) :
    countIn g (bump floor n l) = countIn g l + if floor = g then n else 0 := by
  induction l with
  | nil => simp [bump, countIn]
  | cons b rest ih =>
      obtain ⟨f, m⟩ := b
      unfold bump
      split
      · simp only [countIn]
        omega
      · split
        · next _ he =>
          subst he
          simp only [countIn]
          split <;> omega
        · simp only [countIn, ih]
          omega

theorem countIn_bumpAll (g : Nat) (new l : List (Nat × Nat)) :
    countIn g (bumpAll new l) = countIn g l + countIn g new := by
  induction new generalizing l with
  | nil => rfl
  | cons c rest ih =>
      rw [bumpAll, List.foldl_cons, ← bumpAll, ih, countIn_bump, countIn]
      omega

/-- A bucket that the list has not got has no samples in it. -/
theorem countIn_of_ne (h : ∀ b ∈ l, b.1 ≠ g) : countIn g l = 0 := by
  induction l with
  | nil => rfl
  | cons b rest ih =>
      rw [countIn, if_neg (h b List.mem_cons_self),
        ih fun c hc => h c (List.mem_cons_of_mem _ hc)]

theorem Tidy.countIn_of_not_floor (h : Tidy l) (hf : Bucket.floor f ≠ f) : countIn f l = 0 :=
  countIn_of_ne fun b hb he => hf (he ▸ h.floors b hb)

theorem Tidy.tail {b : Nat × Nat} (h : Tidy (b :: l)) : Tidy l where
  sorted := (List.pairwise_cons.mp h.sorted).2
  occupied c hc := h.occupied c (List.mem_cons_of_mem _ hc)
  floors c hc := h.floors c (List.mem_cons_of_mem _ hc)

/-- What a tidy list has in a bucket of its own. -/
theorem Tidy.mem_iff (h : Tidy l) : (f, n) ∈ l ↔ 0 < n ∧ countIn f l = n := by
  induction l with
  | nil =>
      simp only [List.not_mem_nil, countIn, false_iff]
      omega
  | cons c rest ih =>
      obtain ⟨g, m⟩ := c
      have hhead := (List.pairwise_cons.mp h.sorted).1
      have hm : 0 < m := h.occupied (g, m) List.mem_cons_self
      rw [List.mem_cons, Prod.mk.injEq, ih h.tail, countIn]
      by_cases hg : g = f
      · subst hg
        have hnone : countIn g rest = 0 := countIn_of_ne fun b hb => Nat.ne_of_gt (hhead b hb)
        rw [if_pos rfl, hnone]
        omega
      · rw [if_neg hg, Nat.zero_add]
        simp [Ne.symm hg]

/-- **Tidy lists with as many samples in every bucket are the same list.** -/
theorem Tidy.eq_of_countIn {l l' : List (Nat × Nat)} (h : Tidy l) (h' : Tidy l')
    (hc : ∀ v, countIn (Bucket.floor v) l = countIn (Bucket.floor v) l') : l = l' := by
  have hcount (f : Nat) : countIn f l = countIn f l' := by
    by_cases hf : Bucket.floor f = f
    · rw [← hf, hc f]
    · rw [h.countIn_of_not_floor hf, h'.countIn_of_not_floor hf]
  have : Std.Asymm fun b c : Nat × Nat => b.1 < c.1 := ⟨fun _ _ => Nat.lt_asymm⟩
  refine h.sorted.eq_of_mem_iff h'.sorted fun b => ?_
  rw [h.mem_iff, h'.mem_iff, hcount]

/-! ## 2. The walk -/

/-- How many samples the list has in buckets that begin below `v`. -/
def countBefore (v : Nat) : List (Nat × Nat) → Nat
  | [] => 0
  | (f, n) :: rest => (if f < v then n else 0) + countBefore v rest

theorem countBefore_zero (l : List (Nat × Nat)) : countBefore 0 l = 0 := by
  induction l with
  | nil => rfl
  | cons b rest ih => rw [countBefore, ih, if_neg (Nat.not_lt_zero _)]

theorem countBefore_succ (f : Nat) (l : List (Nat × Nat)) :
    countBefore (f + 1) l = countBefore f l + countIn f l := by
  induction l with
  | nil => rfl
  | cons b rest ih =>
      simp only [countBefore, countIn, ih]
      split <;> split <;> split <;> omega

theorem countBefore_of_le (h : ∀ b ∈ l, g ≤ b.1) : countBefore g l = 0 := by
  induction l with
  | nil => rfl
  | cons b rest ih =>
      rw [countBefore, if_neg (Nat.not_lt_of_le (h b List.mem_cons_self)),
        ih fun c hc => h c (List.mem_cons_of_mem _ hc)]

/-- Counting through all buckets is counting through those of the list. -/
theorem below_eq (h : Histogram) (v : Nat) :
    HistogramLibrary.below h v = countBefore v h.counts := by
  induction v with
  | zero => exact (countBefore_zero _).symm
  | succ f ih =>
      rw [HistogramLibrary.below, ih, countBefore_succ]
      split
      · next hf =>
        show _ + countIn (Bucket.floor f) h.counts = _
        rw [hf]
      · next hf => rw [h.tidy.countIn_of_not_floor hf]

/-- **The walk stops in the bucket in which the count reaches the rank.** -/
theorem walk_of_reached (hs : l.Pairwise fun b c => b.1 < c.1) (hlo : countBefore f l < rank)
    (hhi : rank ≤ countBefore f l + countIn f l) : walk l rank = Bucket.top f := by
  induction l generalizing rank with
  | nil =>
      simp only [countBefore, countIn] at hlo hhi
      omega
  | cons b rest ih =>
      obtain ⟨g, n⟩ := b
      obtain ⟨hhead, hrest⟩ := List.pairwise_cons.mp hs
      simp only [countBefore, countIn] at hlo hhi
      rw [walk]
      rcases Nat.lt_trichotomy g f with hlt | rfl | hgt
      · rw [if_pos hlt] at hlo hhi
        rw [if_neg (Nat.ne_of_lt hlt)] at hhi
        rw [if_neg (by omega)]
        exact ih hrest (by omega) (by omega)
      · have hbefore : countBefore g rest = 0 :=
          countBefore_of_le fun b hb => Nat.le_of_lt (hhead b hb)
        have hhere : countIn g rest = 0 := countIn_of_ne fun b hb => Nat.ne_of_gt (hhead b hb)
        rw [if_neg (Nat.lt_irrefl g), if_pos rfl] at hhi
        rw [if_pos (by omega)]
      · have hbefore : countBefore f rest = 0 :=
          countBefore_of_le fun b hb => Nat.le_of_lt (Nat.lt_trans hgt (hhead b hb))
        have hhere : countIn f rest = 0 :=
          countIn_of_ne fun b hb => Nat.ne_of_gt (Nat.lt_trans hgt (hhead b hb))
        rw [if_neg (Nat.lt_asymm hgt), if_neg (Nat.ne_of_gt hgt)] at hhi
        omega

/-- It ends with nothing if the count reaches the rank nowhere. -/
theorem walk_of_unreached (hs : l.Pairwise fun b c => b.1 < c.1)
    (h : ∀ b ∈ l, countBefore b.1 l + countIn b.1 l < rank) : walk l rank = 0 := by
  induction l generalizing rank with
  | nil => rfl
  | cons b rest ih =>
      obtain ⟨g, n⟩ := b
      obtain ⟨hhead, hrest⟩ := List.pairwise_cons.mp hs
      have hfirst := h (g, n) List.mem_cons_self
      simp only [countBefore, countIn, if_pos] at hfirst
      rw [walk, if_neg (by omega)]
      refine ih hrest fun c hc => ?_
      have hlater := h c (List.mem_cons_of_mem _ hc)
      simp only [countBefore, countIn, if_pos (hhead c hc)] at hlater
      omega

/-! ## 3. The laws -/

open HistogramLibrary in
instance : RankedHistogramLibrary Histogram where
  total_empty := rfl
  countAt_empty _ := rfl
  maxFigure_empty := rfl
  total_record _ _ := rfl
  countAt_record h s hs v := by
    show countIn (Bucket.floor v) (bump (Bucket.floor (min s Bucket.trackable)) 1 h.counts) = _
    rw [Nat.min_eq_left hs, countIn_bump]
    rfl
  maxFigure_record h s hs := by
    show Bucket.top (max h.largest (min s Bucket.trackable)) = _
    rw [Nat.min_eq_left hs, Bucket.top_max]
    rfl
  merge {h k} hk := by
    refine ⟨_, if_neg (Nat.not_lt_of_le hk), rfl, fun v => countIn_bumpAll _ _ _, ?_⟩
    show Bucket.top (if h.maxFigure < k.maxFigure then k.maxFigure else h.largest) =
      max h.maxFigure k.maxFigure
    split
    · next hlt => rw [Nat.max_eq_right (Nat.le_of_lt hlt), maxFigure, Bucket.top_top]
    · next hge => rw [Nat.max_eq_left (Nat.le_of_not_lt hge), maxFigure]
  figures {h k} ht hc _ := by
    have hcounts : h.counts = k.counts := h.tidy.eq_of_countIn k.tidy hc
    have ht : h.total = k.total := ht
    refine ⟨funext fun q => ?_, ?_⟩
    · show walk h.counts (q.rank h.total) = walk k.counts (q.rank k.total)
      rw [hcounts, ht]
    · show h.mean = k.mean
      rw [mean, mean, hcounts, ht]
  reached {h q v} hlo hhi := by
    rw [below_eq] at hlo hhi
    exact (walk_of_reached h.tidy.sorted hlo hhi).trans (Bucket.top_floor v)
  unreached {h q} hno := by
    refine walk_of_unreached h.tidy.sorted fun b hb => ?_
    have hb' : below h (Bucket.floor b.1) + countIn (Bucket.floor b.1) h.counts < q.rank h.total :=
      hno b.1
    rwa [below_eq, h.tidy.floors b hb] at hb'
  rank_pos q n := q.rank_pos n
  rank_le q _ := q.rank_le
  rank_mono n := ⟨Quantile.rank_mono (by decide) n, Quantile.rank_mono (by decide) n⟩
  rank_exact q _ := q.rank_exact

end Histogram

end WorkerPool
