/-!
# Buckets of latencies

A latency is kept to three figures. Below 2048 nanoseconds each value has a bucket of its own; from
there on the buckets double in width with every power of two, 1024 of them to each power.

* `Bucket.width`, `Bucket.floor`, `Bucket.top`, `Bucket.middle` -- the bucket a value falls into;
* `floor_eq_of_mem`, `top_eq_of_mem` -- a bucket is the bucket of each of its values;
* `floor_mono`, `top_mono` -- buckets are in the order of their values;
* `top_le` -- **the top of a bucket is at most a 1024th above any of its values**.
-/

namespace WorkerPool.Bucket

/-- The width of the value's bucket: one below 2048, then doubling with each power of two. -/
def width (v : Nat) : Nat := 1 <<< (v.log2 - 10)

/-- The smallest value of the value's bucket. -/
def floor (v : Nat) : Nat := v / width v * width v

/-- The largest value of the value's bucket. -/
def top (v : Nat) : Nat := floor v + width v - 1

/-- The value that stands for the bucket in a mean. -/
def middle (v : Nat) : Nat := floor v + width v / 2

/-- The largest value that has a bucket. -/
def trackable : Nat := (1 <<< 42) - 1

theorem width_pos (v : Nat) : 0 < width v := by
  rw [width, Nat.one_shiftLeft]
  exact Nat.two_pow_pos _

/-- The bucket of a value holds the value. -/
theorem floor_le (v : Nat) : floor v ≤ v := Nat.div_mul_le_self v (width v)

theorem le_top (v : Nat) : v ≤ top v := by
  have h := Nat.lt_div_mul_add (a := v) (width_pos v)
  unfold top floor
  omega

/-! ## Buckets in order -/

/-- Below 2048 a value is alone in its bucket. -/
theorem width_of_lt {v : Nat} (h : v < 2048) : width v = 1 := by
  have hlog : v.log2 ≤ 10 := by
    rcases Nat.eq_zero_or_pos v with rfl | hv
    · simp
    · exact Nat.le_of_lt_succ ((Nat.log2_lt (Nat.ne_of_gt hv)).mpr h)
  rw [width, Nat.sub_eq_zero_of_le hlog]
  rfl

/-- From 2048 on there are 1024 buckets to each power of two. -/
theorem width_mul {v : Nat} (h : 2048 ≤ v) : width v * 1024 = 1 <<< v.log2 := by
  have hlog : 11 ≤ v.log2 := (Nat.le_log2 (by omega)).mpr h
  rw [width, Nat.one_shiftLeft, Nat.one_shiftLeft, show (1024 : Nat) = 2 ^ 10 from rfl,
    ← Nat.pow_add, Nat.sub_add_cancel (by omega)]

theorem floor_of_lt {v : Nat} (h : v < 2048) : floor v = v := by
  simp [floor, width_of_lt h]

theorem top_of_lt {v : Nat} (h : v < 2048) : top v = v := by
  simp [top, floor_of_lt h, width_of_lt h]

/-- A bucket lies between two powers of two. -/
theorem two_pow_le_floor {v : Nat} (h : 2048 ≤ v) : 1 <<< v.log2 ≤ floor v := by
  have hv : 1 <<< v.log2 ≤ v := by
    rw [Nat.one_shiftLeft]
    exact Nat.log2_self_le (by omega)
  rw [← width_mul h, Nat.mul_comm] at hv ⊢
  exact Nat.mul_le_mul_right _ ((Nat.le_div_iff_mul_le (width_pos v)).mpr hv)

theorem top_lt_two_pow {v : Nat} (h : 2048 ≤ v) : top v < 1 <<< (v.log2 + 1) := by
  have hv : v < 1 <<< (v.log2 + 1) := by
    rw [Nat.one_shiftLeft]
    exact Nat.lt_log2_self
  have hw := width_pos v
  rw [Nat.shiftLeft_succ, ← width_mul h] at hv ⊢
  -- a multiple of the width below another one is a whole width below it
  have hq : v / width v + 1 ≤ 2048 := (Nat.div_lt_iff_lt_mul hw).mpr (by omega)
  have hle := Nat.mul_le_mul_right (width v) hq
  rw [Nat.add_mul, Nat.one_mul] at hle
  unfold top floor
  omega

/-- **A bucket is the bucket of each of its values.** -/
theorem width_eq_of_mem {v x : Nat} (hl : floor v ≤ x) (hu : x ≤ top v) : width x = width v := by
  rcases Nat.lt_or_ge v 2048 with hv | hv
  · rw [floor_of_lt hv] at hl
    rw [top_of_lt hv] at hu
    rw [Nat.le_antisymm hu hl]
  · have hlo := two_pow_le_floor hv
    have hhi := top_lt_two_pow hv
    have hx : x ≠ 0 := by
      have := Nat.two_pow_pos v.log2
      omega
    have hlog : x.log2 = v.log2 := (Nat.log2_eq_iff hx).mpr ⟨by omega, by omega⟩
    rw [width, hlog, width]

theorem floor_eq_of_mem {v x : Nat} (hl : floor v ≤ x) (hu : x ≤ top v) : floor x = floor v := by
  have hw := width_pos v
  have hq : x / width v = v / width v := by
    refine Nat.div_eq_of_lt_le hl ?_
    rw [Nat.add_mul, Nat.one_mul]
    unfold top floor at hu
    omega
  rw [floor, width_eq_of_mem hl hu, hq, floor]

theorem top_eq_of_mem {v x : Nat} (hl : floor v ≤ x) (hu : x ≤ top v) : top x = top v := by
  rw [top, floor_eq_of_mem hl hu, width_eq_of_mem hl hu, top]

@[simp] theorem floor_floor (v : Nat) : floor (floor v) = floor v :=
  floor_eq_of_mem (Nat.le_refl _) (Nat.le_trans (floor_le v) (le_top v))

@[simp] theorem top_floor (v : Nat) : top (floor v) = top v :=
  top_eq_of_mem (Nat.le_refl _) (Nat.le_trans (floor_le v) (le_top v))

@[simp] theorem top_top (v : Nat) : top (top v) = top v :=
  top_eq_of_mem (Nat.le_trans (floor_le v) (le_top v)) (Nat.le_refl _)

theorem floor_mono {u v : Nat} (h : u ≤ v) : floor u ≤ floor v := by
  rcases Nat.le_total (floor v) u with hu | hu
  · exact Nat.le_of_eq (floor_eq_of_mem hu (Nat.le_trans h (le_top v)))
  · exact Nat.le_trans (floor_le u) hu

theorem top_mono {u v : Nat} (h : u ≤ v) : top u ≤ top v := by
  rcases Nat.le_total v (top u) with hv | hv
  · exact Nat.le_of_eq (top_eq_of_mem (Nat.le_trans (floor_le u) h) hv).symm
  · exact Nat.le_trans hv (le_top v)

theorem top_max (u v : Nat) : top (max u v) = max (top u) (top v) := by
  rcases Nat.le_total u v with h | h
  · rw [Nat.max_eq_right h, Nat.max_eq_right (top_mono h)]
  · rw [Nat.max_eq_left h, Nat.max_eq_left (top_mono h)]

/-- **The top of a bucket is at most a 1024th above any of its values.** -/
theorem top_le (v : Nat) : top v ≤ v + v / 1024 := by
  rcases Nat.lt_or_ge v 2048 with hv | hv
  · rw [top_of_lt hv]
    exact Nat.le_add_right _ _
  · have hfloor := floor_le v
    have hw : width v ≤ v / 1024 := by
      rw [Nat.le_div_iff_mul_le (by decide), width_mul hv, Nat.one_shiftLeft]
      exact Nat.log2_self_le (by omega)
    unfold top
    omega

end WorkerPool.Bucket
