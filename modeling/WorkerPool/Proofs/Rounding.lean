import Mathlib.Algebra.Order.Ring.Nat
import WorkerPool.Latency.Rank

/-!
# Rounding keeps the order

Rounding to whole numbers, and to 53 binary digits, makes no smaller number the larger one. So the
rank of a higher quantile is the higher rank, and the rank of every quantile is that of a sample. As
long as there are not too many samples no rounding shows in it.

* `nearest_mono`, `rounded_mono` -- rounding keeps the order;
* `Quantile.rank_le`, `Quantile.rank_mono` -- so the rank is one of the samples, and higher for
  higher quantiles;
* `Quantile.rank_exact` -- **up to `2 ^ 47` samples it is as if nothing had been rounded**.
-/

namespace WorkerPool

/-! ## 1. Rounding -/

section Rounding

variable {a b d m n : Nat}

/-- The nearest number is off by no more than a half. -/
theorem nearest_mul_le (hd : 0 < d) : 2 * (nearest a d * d) ≤ 2 * a + d := by
  have hdiv := Nat.div_add_mod' a d
  have hmod := Nat.mod_lt a hd
  unfold nearest
  split
  · omega
  · rw [Nat.add_mul]
    omega

theorem le_nearest_mul (hd : 0 < d) : 2 * a ≤ 2 * (nearest a d * d) + d := by
  have hdiv := Nat.div_add_mod' a d
  have hmod := Nat.mod_lt a hd
  unfold nearest
  split
  · omega
  · rw [Nat.add_mul]
    omega

theorem nearest_le (hd : 0 < d) (h : a ≤ m * d) : nearest a d ≤ m := by
  have hle := nearest_mul_le (a := a) hd
  refine Nat.le_of_lt_succ (Nat.lt_of_mul_lt_mul_right (a := d) ?_)
  rw [Nat.succ_mul]
  omega

theorem le_nearest (hd : 0 < d) (h : m * d ≤ a) : m ≤ nearest a d := by
  have hle := le_nearest_mul (a := a) hd
  refine Nat.le_of_lt_succ (Nat.lt_of_mul_lt_mul_right (a := d) ?_)
  rw [Nat.succ_mul]
  omega

/-- Rounding keeps the order. -/
theorem nearest_mono (hd : 0 < d) (h : a ≤ b) : nearest a d ≤ nearest b d := by
  have hdiv := Nat.div_le_div_right (c := d) h
  rcases Nat.eq_or_lt_of_le hdiv with he | hlt
  · have ha := Nat.div_add_mod' a d
    have hb := Nat.div_add_mod' b d
    rw [← he] at hb
    unfold nearest
    rw [← he]
    split <;> split <;> omega
  · -- there is a whole number in between
    refine Nat.le_trans (nearest_le (m := a / d + 1) hd ?_) (le_nearest hd ?_)
    · rw [Nat.add_mul]
      have := Nat.lt_div_mul_add (a := a) hd
      omega
    · exact Nat.le_trans (Nat.mul_le_mul_right d hlt) (Nat.div_mul_le_self b d)

theorem nearest_one (n : Nat) : nearest n 1 = n :=
  Nat.le_antisymm (nearest_le Nat.one_pos (by omega)) (le_nearest Nat.one_pos (by omega))

theorem spacing_eq (n : Nat) : spacing n = 2 ^ (n.log2 - 52) := Nat.one_shiftLeft _

theorem spacing_pos (n : Nat) : 0 < spacing n := spacing_eq n ▸ Nat.two_pow_pos _

/-- The numbers of 53 digits are rounded to themselves. -/
theorem rounded_of_lt (h : n < 2 ^ 53) : rounded n = n := by
  have hlog : n.log2 ≤ 52 := by
    rcases Nat.eq_zero_or_pos n with rfl | hn
    · simp
    · exact Nat.le_of_lt_succ ((Nat.log2_lt (Nat.ne_of_gt hn)).mpr h)
  have hone : spacing n = 1 := by rw [spacing, Nat.sub_eq_zero_of_le hlog, Nat.shiftLeft_zero]
  rw [rounded, hone, Nat.mul_one, nearest_one]

theorem rounded_le_of_dvd (hd : spacing n ∣ m) (h : n ≤ m) : rounded n ≤ m := by
  obtain ⟨c, rfl⟩ := hd
  rw [Nat.mul_comm] at h ⊢
  exact Nat.mul_le_mul_right _ (nearest_le (spacing_pos n) h)

theorem le_rounded_of_dvd (hd : spacing n ∣ m) (h : m ≤ n) : m ≤ rounded n := by
  obtain ⟨c, rfl⟩ := hd
  rw [Nat.mul_comm] at h ⊢
  exact Nat.mul_le_mul_right _ (le_nearest (spacing_pos n) h)

theorem spacing_dvd {k : Nat} (h : n.log2 ≤ 52 + k) : spacing n ∣ 2 ^ k := by
  rw [spacing_eq]
  exact Nat.pow_dvd_pow 2 (by omega)

/-- Rounding to 53 digits keeps the order too. -/
theorem rounded_mono (h : a ≤ b) : rounded a ≤ rounded b := by
  rcases Nat.eq_zero_or_pos a with rfl | ha
  · exact Nat.zero_le _
  have hb : b ≠ 0 := by omega
  have hlog : a.log2 ≤ b.log2 :=
    (Nat.le_log2 hb).mpr (Nat.le_trans (Nat.log2_self_le (Nat.ne_of_gt ha)) h)
  rcases Nat.eq_or_lt_of_le hlog with he | hlt
  · have hs : spacing a = spacing b := by rw [spacing, spacing, he]
    rw [rounded, rounded, hs]
    exact Nat.mul_le_mul_right _ (nearest_mono (spacing_pos b) h)
  · -- a power of two lies in between
    refine Nat.le_trans (rounded_le_of_dvd (m := 2 ^ b.log2) (spacing_dvd (by omega)) ?_)
      (le_rounded_of_dvd (spacing_dvd (by omega)) (Nat.log2_self_le hb))
    exact Nat.le_of_lt (Nat.lt_of_lt_of_le Nat.lt_log2_self (Nat.pow_le_pow_right (by decide) hlt))

/-- Rounding adds no more than one part in `2 ^ 53`. -/
theorem rounded_le (n : Nat) : 2 ^ 53 * rounded n ≤ (2 ^ 53 + 1) * n := by
  rcases Nat.lt_or_ge n (2 ^ 53) with hn | hn
  · rw [rounded_of_lt hn]
    omega
  · have hne : n ≠ 0 := by omega
    have hlog : 52 ≤ n.log2 := (Nat.le_log2 hne).mpr (by omega)
    have hspacing : spacing n * 2 ^ 52 ≤ n := by
      rw [spacing_eq, ← Nat.pow_add, Nat.sub_add_cancel hlog]
      exact Nat.log2_self_le hne
    have hle : 2 * rounded n ≤ 2 * n + spacing n := nearest_mul_le (spacing_pos n)
    omega

end Rounding

/-! ## 2. Ranks -/

namespace Quantile

variable (q : Quantile) {n : Nat}

theorem rank_eq (total : Nat) :
    q.rank total = max 1 ((rounded (q.share * rounded total) + (2 ^ 53 - 1)) / 2 ^ 53) := by
  rw [rank, Nat.shiftRight_eq_div_pow]
  rfl

theorem rank_pos (total : Nat) : 0 < q.rank total := Nat.le_max_left ..

/-- **The rank is that of one of the samples.** -/
theorem rank_le (h : 0 < n) : q.rank n ≤ n := by
  have hn := rounded_le n
  have hproduct := rounded_le (q.share * rounded n)
  have hshare : q.share * (2 ^ 53 + 1) * (2 ^ 53 + 1) ≤ 2 ^ 159 := by cases q <;> decide
  have hle : rounded (q.share * rounded n) ≤ n * 2 ^ 53 := by
    refine Nat.le_of_mul_le_mul_left ?_ (show 0 < 2 ^ 106 by decide)
    calc 2 ^ 106 * rounded (q.share * rounded n)
        = 2 ^ 53 * (2 ^ 53 * rounded (q.share * rounded n)) := by omega
      _ ≤ 2 ^ 53 * ((2 ^ 53 + 1) * (q.share * rounded n)) := Nat.mul_le_mul_left _ hproduct
      _ = q.share * (2 ^ 53 + 1) * (2 ^ 53 * rounded n) := by ac_rfl
      _ ≤ q.share * (2 ^ 53 + 1) * ((2 ^ 53 + 1) * n) := Nat.mul_le_mul_left _ hn
      _ = q.share * (2 ^ 53 + 1) * (2 ^ 53 + 1) * n := by ac_rfl
      _ ≤ 2 ^ 159 * n := Nat.mul_le_mul_right _ hshare
      _ = 2 ^ 106 * (n * 2 ^ 53) := by omega
  rw [rank_eq]
  omega

/-- **Higher quantiles have higher ranks.** -/
theorem rank_mono {q q' : Quantile} (h : q.share ≤ q'.share) (total : Nat) :
    q.rank total ≤ q'.rank total := by
  have hle := rounded_mono (Nat.mul_le_mul_right (rounded total) h)
  rw [rank_eq, rank_eq]
  omega

/-- The product with a number of samples is rounded down by less than a hundred parts in `2 ^ 53`
    of the denominator, and never up past the next whole number. -/
theorem rounded_share_mul (h : n ≤ 2 ^ 47) :
    (rounded (q.share * n) + (2 ^ 53 - 1)) / 2 ^ 53 = (q.num * n + q.den - 1) / q.den := by
  have hshare : q.share * q.den ≤ q.num * 2 ^ 53 ∧ q.num * 2 ^ 53 ≤ q.share * q.den + 8 ∧
      q.share < 2 ^ 53 ∧ q.den ≤ 100 := by cases q <;> decide
  obtain ⟨hdown, hup, hlt, hden⟩ := hshare
  have hpos := q.den_pos
  -- the product is smaller than `2 ^ 100`, so its neighbours are at most `2 ^ 47` apart
  have hlog : (q.share * n).log2 ≤ 99 := by
    rcases Nat.eq_zero_or_pos (q.share * n) with hz | hp
    · simp [hz]
    · have hprod : q.share * n < 2 ^ 100 :=
        Nat.lt_of_le_of_lt (Nat.mul_le_mul_left _ h) (by omega)
      exact Nat.le_of_lt_succ ((Nat.log2_lt (Nat.ne_of_gt hp)).mpr hprod)
  have hspacing : spacing (q.share * n) ≤ 2 ^ 47 := by
    rw [spacing_eq]
    exact Nat.pow_le_pow_right (by decide) (by omega)
  generalize hk : (q.num * n + q.den - 1) / q.den = k
  have hkle : q.num * n ≤ k * q.den := by
    have := Nat.lt_div_mul_add (a := q.num * n + q.den - 1) hpos
    rw [hk] at this
    omega
  have hklt : k * q.den + 1 ≤ q.num * n + q.den := by
    have := Nat.div_mul_le_self (q.num * n + q.den - 1) q.den
    rw [hk] at this
    omega
  have hupper : rounded (q.share * n) ≤ k * 2 ^ 53 := by
    refine rounded_le_of_dvd (Nat.dvd_mul_left_of_dvd (spacing_dvd (by omega)) k) ?_
    refine Nat.le_of_mul_le_mul_right ?_ hpos
    calc q.share * n * q.den = q.share * q.den * n := by ac_rfl
      _ ≤ q.num * 2 ^ 53 * n := Nat.mul_le_mul_right n hdown
      _ = q.num * n * 2 ^ 53 := by ac_rfl
      _ ≤ k * q.den * 2 ^ 53 := Nat.mul_le_mul_right _ hkle
      _ = k * 2 ^ 53 * q.den := by ac_rfl
  have hlower : k * 2 ^ 53 < rounded (q.share * n) + 2 ^ 53 := by
    refine Nat.lt_of_not_le fun hno => ?_
    have hle := Nat.mul_le_mul_right q.den hno
    have hup := Nat.mul_le_mul_right n hup
    have hnear := Nat.mul_le_mul_right q.den
      (le_nearest_mul (a := q.share * n) (spacing_pos (q.share * n)))
    rw [← rounded] at hnear
    have hwidth := Nat.mul_le_mul hspacing hden
    simp only [Nat.add_mul, Nat.mul_right_comm _ (2 ^ 53), Nat.mul_right_comm _ q.den n,
      Nat.mul_assoc 2] at hle hup hnear
    omega
  omega

/-- **Up to `2 ^ 47` samples the rank is exact.** -/
theorem rank_exact (h : n ≤ 2 ^ 47) : q.rank n = q.exactRank n := by
  rw [rank_eq, rounded_of_lt (Nat.lt_of_le_of_lt h (by decide)), rounded_share_mul q h, exactRank]

/-- Not much further on it is too low by one. -/
example : Quantile.p99.rank 142159079146799 + 1 = Quantile.p99.exactRank 142159079146799 := by
  decide

end Quantile

end WorkerPool
