import Mathlib
import WorkerPool.Metrics
import WorkerPool.Proofs.Rounding

/-!
# Fractions in floating point

A share is computed by turning two counts into floating-point numbers and dividing one by the other.
Each step rounds, and rounding keeps the order; so the share of the smaller count is at most one.

* `Normal` -- a positive number of 53 binary digits, as floating-point numbers are taken apart;
* `normal_round` -- what the library rounds is such a number, and which one;
* `normal_toFloat`, `normal_div` -- counts and their quotients;
* `unpack_pack` -- what such a number is packed into is the same number;
* `Snapshot.panicRate_le_one` -- **the share of tasks that panicked is at most one**.
-/

namespace WorkerPool

open Float.Model (Format UnpackedFloat totalExponent)
open Float.Model.UnpackedFloat

/-- The number is `m * 2 ^ e`, and `m` has 53 binary digits. -/
structure Normal (x : UnpackedFloat) (m : Nat) (e : Int) : Prop where
  low : 2 ^ 52 ≤ m
  high : m < 2 ^ 53
  eq : x = .finite .positive m e (Nat.lt_of_lt_of_le (by decide) low)

/-! ## 1. Rounding -/

theorem shiftRight_succ (em : ExtendedMantissa) (k : Nat) :
    em >>> (k + 1) = (em >>> k).shiftRightOne := rfl

theorem mantissa_shiftRight (em : ExtendedMantissa) (k : Nat) :
    (em >>> k).mantissa = em.mantissa / 2 ^ k := by
  induction k with
  | zero => exact (Nat.div_one _).symm
  | succ k ih =>
      rw [shiftRight_succ, ExtendedMantissa.shiftRightOne, ih, Nat.div_div_eq_div_mul, Nat.pow_succ]

theorem mantissa_ofMantissaAndAccuracy (m : Nat) (acc : Accuracy) :
    (ExtendedMantissa.ofMantissaAndAccuracy m acc).mantissa = m := by
  cases acc with
  | exact => rfl
  | inexact o => cases o <;> rfl

/-- The two bits kept of what is shifted out say how it compares with a half. -/
theorem shiftRight_exact (m k : Nat) :
    ExtendedMantissa.ofMantissaAndAccuracy m .exact >>> k =
      ⟨m / 2 ^ k, decide (2 ^ k ≤ 2 * (m % 2 ^ k)),
        decide (m % 2 ^ k ≠ 0 ∧ 2 * (m % 2 ^ k) ≠ 2 ^ k)⟩ := by
  induction k with
  | zero => simp [Nat.mod_one, ExtendedMantissa.ofMantissaAndAccuracy]; rfl
  | succ k ih =>
      have hmod : m % 2 ^ (k + 1) = m % 2 ^ k + 2 ^ k * (m / 2 ^ k % 2) := Nat.mod_mul
      have hlt : m % 2 ^ k < 2 ^ k := Nat.mod_lt _ (Nat.two_pow_pos k)
      rw [shiftRight_succ, ih, ExtendedMantissa.shiftRightOne, hmod]
      rcases Nat.mod_two_eq_zero_or_one (m / 2 ^ k) with hb | hb <;>
        simp only [hb, Nat.pow_succ, Nat.div_div_eq_div_mul, ExtendedMantissa.mk.injEq,
          true_and] <;>
        constructor <;> rw [Bool.eq_iff_iff] <;> simp <;> omega

/-- What is shifted out is rounded to the nearest, and to the even one of two that are as near. -/
theorem roundedMantissa_shiftRight (m k : Nat) :
    (ExtendedMantissa.ofMantissaAndAccuracy m .exact >>> k).roundedMantissa =
      nearest m (2 ^ k) := by
  have hlt : m % 2 ^ k < 2 ^ k := Nat.mod_lt _ (Nat.two_pow_pos k)
  rw [shiftRight_exact, ExtendedMantissa.roundedMantissa, nearest]
  generalize m % 2 ^ k = r at hlt ⊢
  rcases Nat.lt_trichotomy (2 * r) (2 ^ k) with hlow | heven | hhigh
  · rw [if_pos (.inl hlow)]
    by_cases hr : r = 0 <;>
      simp [hr, Nat.not_le.mpr hlow, Nat.ne_of_lt hlow, ExtendedMantissa.accuracy,
        Accuracy.roundToNearestEven]
  · have hr : r ≠ 0 := by have := Nat.two_pow_pos k; omega
    simp only [heven, hr, Nat.lt_irrefl, Nat.le_refl, ExtendedMantissa.accuracy,
      Accuracy.roundToNearestEven, ne_eq, not_true, and_false, decide_true, decide_false, false_or,
      true_and]
    split <;> omega
  · have hr : r ≠ 0 := by omega
    simp [hr, Nat.le_of_lt hhigh, Nat.ne_of_gt hhigh, Nat.not_lt.mpr (Nat.le_of_lt hhigh),
      ExtendedMantissa.accuracy, Accuracy.roundToNearestEven]

/-- Rounding goes up by one at most. -/
theorem roundedMantissa_bounds (em : ExtendedMantissa) :
    em.mantissa ≤ em.roundedMantissa ∧ em.roundedMantissa ≤ em.mantissa + 1 := by
  obtain ⟨m, half, rest⟩ := em
  cases half <;> cases rest <;>
    simp only [ExtendedMantissa.roundedMantissa, ExtendedMantissa.accuracy,
      Accuracy.roundToNearestEven] <;> omega

theorem targetExponent_eq (t : Int) :
    Format.binary64.targetExponent t = max (t - 53) (-1074) := by
  simp only [Format.targetExponent]
  rfl

/-- The first 53 digits. -/
theorem div_log2_bounds {m : Nat} (hm : 2 ^ 52 ≤ m) :
    2 ^ 52 ≤ m / 2 ^ (m.log2 - 52) ∧ m / 2 ^ (m.log2 - 52) < 2 ^ 53 := by
  have hne : m ≠ 0 := by omega
  have hlog : 52 ≤ m.log2 := (Nat.le_log2 hne).mpr hm
  rw [Nat.le_div_iff_mul_le (Nat.two_pow_pos _), Nat.div_lt_iff_lt_mul (Nat.two_pow_pos _),
    ← Nat.pow_add, ← Nat.pow_add, Nat.add_sub_cancel' hlog,
    show 53 + (m.log2 - 52) = m.log2 + 1 by omega]
  exact ⟨Nat.log2_self_le hne, Nat.lt_log2_self⟩

/-- What `m * 2 ^ e` is rounded to, if it has at least 53 digits and `acc` says how the number
    compares with it: the digits beyond 53 are rounded off, and the exponent makes up for it. -/
theorem normal_round {m : Nat} {e : Int} (acc : Accuracy) (hm : 2 ^ 52 ≤ m) (he : -1074 ≤ e) :
    ∃ M E, Normal (roundWithAccuracy Format.binary64 .positive m e acc) M E ∧
      e + (m.log2 - 52 : Nat) ≤ E ∧
      M * 2 ^ (E - (e + (m.log2 - 52 : Nat))).toNat =
        (ExtendedMantissa.ofMantissaAndAccuracy m acc >>> (m.log2 - 52)).roundedMantissa := by
  have hlog : 52 ≤ m.log2 := (Nat.le_log2 (by omega)).mpr hm
  obtain ⟨hlow, hhigh⟩ := div_log2_bounds hm
  generalize hk : m.log2 - 52 = k at hlow hhigh ⊢
  have hshift : (Format.binary64.targetExponent (totalExponent m e) - e).toNat = k := by
    rw [targetExponent_eq, totalExponent]
    omega
  generalize hR : (ExtendedMantissa.ofMantissaAndAccuracy m acc >>> k).roundedMantissa = R
  have hbounds := roundedMantissa_bounds (ExtendedMantissa.ofMantissaAndAccuracy m acc >>> k)
  rw [mantissa_shiftRight, mantissa_ofMantissaAndAccuracy, hR] at hbounds
  -- rounding up may have made a digit more, and then one is shifted out
  unfold roundWithAccuracy shiftToTargetExponent shiftToExponent
  simp only [hshift, hR, mantissa_shiftRight, mantissa_ofMantissaAndAccuracy]
  rcases Nat.lt_or_ge R (2 ^ 53) with hlt | hge
  · have hlogR : R.log2 = 52 := (Nat.log2_eq_iff (by omega)).mpr ⟨by omega, hlt⟩
    have hnone : (Format.binary64.targetExponent (totalExponent R (e + k)) -
        (e + k)).toNat = 0 := by
      rw [targetExponent_eq, totalExponent, hlogR]
      omega
    simp only [hnone, Nat.pow_zero, Nat.div_one, Int.natCast_zero, Int.add_zero]
    exact ⟨R, e + k, ⟨by omega, hlt, dif_neg (show R ≠ 0 by omega)⟩, by omega, by simp⟩
  · obtain rfl : R = 2 ^ 53 := by omega
    have hone : (Format.binary64.targetExponent (totalExponent (2 ^ 53) (e + k)) -
        (e + k)).toNat = 1 := by
      rw [targetExponent_eq, totalExponent, Nat.log2_two_pow]
      omega
    simp only [hone]
    refine ⟨2 ^ 52, e + k + 1, ⟨by decide, by decide, dif_neg (by decide)⟩, by omega, ?_⟩
    rw [show e + k + 1 - (e + k) = (1 : Int) by omega]
    rfl

/-! ## 2. Counts and their quotients -/

section Quotients

variable {x y : UnpackedFloat} {m n : Nat} {e f : Int}

/-- The parts of a number say how large it is: more digits before the point, or no fewer and more in
    front. -/
theorem lex_of_mul_le (hx : Normal x m e) (hy : Normal y n f) (he : -52 ≤ e) (hf : -52 ≤ f)
    (h : m * 2 ^ (e + 52).toNat ≤ n * 2 ^ (f + 52).toNat) : e < f ∨ e = f ∧ m ≤ n := by
  rcases Int.lt_trichotomy e f with hlt | rfl | hgt
  · exact .inl hlt
  · exact .inr ⟨rfl, Nat.le_of_mul_le_mul_right h (Nat.two_pow_pos _)⟩
  · -- then the first has a digit more before the point
    have hm := hx.low
    have hn := hy.high
    obtain ⟨k, hk⟩ : ∃ k, (e + 52).toNat = (f + 52).toNat + 1 + k :=
      ⟨(e + 52).toNat - ((f + 52).toNat + 1), by omega⟩
    rw [hk, Nat.pow_add, Nat.pow_succ] at h
    have hpos := Nat.two_pow_pos k
    have hpos' := Nat.two_pow_pos (f + 52).toNat
    generalize 2 ^ (f + 52).toNat = a at *
    generalize 2 ^ k = b at *
    have hle : a * n < a * (m * 2 * b) := Nat.mul_lt_mul_of_pos_left (by
      calc n < 2 ^ 53 := hn
        _ ≤ m * 2 * 1 := by omega
        _ ≤ m * 2 * b := Nat.mul_le_mul_left _ hpos) hpos'
    have hcomm : m * (a * 2 * b) = a * (m * 2 * b) := by ac_rfl
    rw [hcomm, Nat.mul_comm n a] at h
    omega

theorem log2_mul_two_pow (hn : n ≠ 0) (s : Nat) : (n * 2 ^ s).log2 = n.log2 + s := by
  refine (Nat.log2_eq_iff (Nat.mul_ne_zero hn (Nat.ne_of_gt (Nat.two_pow_pos s)))).mpr ⟨?_, ?_⟩
  · rw [Nat.pow_add]
    exact Nat.mul_le_mul_right _ (Nat.log2_self_le hn)
  · rw [Nat.add_right_comm, Nat.pow_add]
    exact Nat.mul_lt_mul_of_pos_right Nat.lt_log2_self (Nat.two_pow_pos s)

/-- A count that has been brought to 53 digits is rounded as the count is. -/
theorem nearest_shifted {s : Nat} (hs : s = 52 - n.log2) :
    nearest (n * 2 ^ s) (2 ^ (n.log2 - 52)) * 2 ^ (n.log2 - 52 + (52 - s)) =
      rounded n * 2 ^ 52 := by
  rcases Nat.le_total n.log2 52 with hle | hge
  · have hlt : n < 2 ^ 53 :=
      Nat.lt_of_lt_of_le Nat.lt_log2_self (Nat.pow_le_pow_right (by decide) (by omega))
    rw [rounded_of_lt hlt, Nat.sub_eq_zero_of_le hle, Nat.pow_zero, nearest_one, Nat.mul_assoc,
      ← Nat.pow_add, show s + (0 + (52 - s)) = 52 by omega]
  · rw [show s = 0 by omega, Nat.pow_zero, Nat.mul_one, Nat.pow_add, rounded, spacing_eq,
      ← Nat.mul_assoc]

/-- **A count in floating point** is a number of 53 digits, the one that the count is rounded to. -/
theorem normal_ofNat (hn : n ≠ 0) : ∃ M E, Normal (ofNat Format.binary64 n) M E ∧
    -52 ≤ E ∧ M * 2 ^ (E + 52).toNat = rounded n * 2 ^ 52 := by
  have hgt : compare (n : Int) 0 = .gt := Int.compare_eq_gt.mpr (by omega)
  obtain ⟨s, hs⟩ : ∃ s, (0 - Format.binary64.targetExponent (totalExponent n 0)).toNat = s :=
    ⟨_, rfl⟩
  have hshift : s = 52 - n.log2 := by
    rw [targetExponent_eq, totalExponent] at hs
    omega
  have hlog : (n * 2 ^ s).log2 = n.log2 + s := log2_mul_two_pow hn s
  have hm : 2 ^ 52 ≤ n * 2 ^ s :=
    (Nat.le_log2 (Nat.mul_ne_zero hn (Nat.ne_of_gt (Nat.two_pow_pos s)))).mp (by omega)
  obtain ⟨M, E, hnormal, hE, hM⟩ := normal_round .exact hm (e := 0 - (s : Int)) (by omega)
  have hround : ofNat Format.binary64 n =
      roundWithAccuracy Format.binary64 .positive (n * 2 ^ s) (0 - (s : Int)) .exact := by
    simp only [ofNat, ofInt, UnpackedFloat.normalize, hgt, Int.toNat_natCast, UnpackedFloat.round,
      decreaseExponent, hs,
      Nat.shiftLeft_eq]
  rw [hlog, show n.log2 + s - 52 = n.log2 - 52 by omega] at hE hM
  rw [roundedMantissa_shiftRight] at hM
  refine ⟨M, E, hround ▸ hnormal, by omega, ?_⟩
  calc M * 2 ^ (E + 52).toNat
      = M * 2 ^ (E - (0 - (s : Int) + (n.log2 - 52 : Nat))).toNat * 2 ^ (n.log2 - 52 + (52 - s)) := by
        rw [Nat.mul_assoc, ← Nat.pow_add]
        congr 2
        omega
    _ = nearest (n * 2 ^ s) (2 ^ (n.log2 - 52)) * 2 ^ (n.log2 - 52 + (52 - s)) := by rw [hM]
    _ = rounded n * 2 ^ 52 := nearest_shifted hshift

theorem Normal.log2_eq (hx : Normal x m e) : m.log2 = 52 :=
  (Nat.log2_eq_iff (by have := hx.low; omega)).mpr ⟨hx.low, hx.high⟩

theorem quotient_bounds (hx : Normal x m e) (hy : Normal y n f) :
    2 ^ 52 ≤ m * 2 ^ 53 / n ∧ m * 2 ^ 53 / n < 2 ^ 54 := by
  have hm := hx.low
  have hm' := hx.high
  have hn := hy.low
  have hn' := hy.high
  have hpos : 0 < n := by omega
  exact ⟨(Nat.le_div_iff_mul_le hpos).mpr (by omega), (Nat.div_lt_iff_lt_mul hpos).mpr (by omega)⟩

/-- The quotient of two such numbers before it is rounded, to 53 or 54 digits. -/
theorem divCore_eq (hx : Normal x m e) (hy : Normal y n f) (h : -1021 ≤ e - f) :
    divCore Format.binary64 m e n f =
      (m * 2 ^ 53 / n, e - f - 53, accuracyOfFraction (m * 2 ^ 53 % n) n) := by
  have htarget : min (e - f)
      (Format.binary64.targetExponent (totalExponent m e - totalExponent n f)) = e - f - 53 := by
    rw [targetExponent_eq, totalExponent, totalExponent, hx.log2_eq, hy.log2_eq]
    omega
  have hshift : (e - f - (e - f - 53)).toNat = 53 := by omega
  simp only [divCore, htarget, hshift, Nat.shiftLeft_eq]

theorem eq_zero_or_one_of_mul_le {d : Nat} (hm : 2 ^ 52 ≤ m) (h : m * 2 ^ d ≤ 2 ^ 53) :
    d = 0 ∨ d = 1 ∧ m = 2 ^ 52 := by
  match d with
  | 0 => exact .inl rfl
  | 1 => exact .inr ⟨rfl, by omega⟩
  | k + 2 =>
      have hle : 2 ^ 52 * 2 ^ 2 ≤ m * 2 ^ (k + 2) :=
        Nat.mul_le_mul hm (Nat.pow_le_pow_right (by decide) (by omega))
      omega

/-- **The quotient of a number and one that is no smaller is at most one.** -/
theorem normal_div (hx : Normal x m e) (hy : Normal y n f) (h : e < f ∨ e = f ∧ m ≤ n)
    (hlow : -1021 ≤ e - f) : ∃ M E, Normal (div Format.binary64 x y) M E ∧ -1074 ≤ E ∧
      (E < -52 ∨ E = -52 ∧ M = 2 ^ 52) := by
  have hdiv : div Format.binary64 x y = roundWithAccuracy Format.binary64 .positive
      (m * 2 ^ 53 / n) (e - f - 53) (accuracyOfFraction (m * 2 ^ 53 % n) n) := by
    rw [hx.eq, hy.eq, div, divCore_eq hx hy hlow]
    rfl
  have hpos : 0 < n := Nat.lt_of_lt_of_le (by decide) hy.low
  obtain ⟨hq, hq'⟩ := quotient_bounds hx hy
  obtain ⟨M, E, hM, hE, hround⟩ := normal_round (accuracyOfFraction (m * 2 ^ 53 % n) n) hq
    (e := e - f - 53) (by omega)
  have hbounds := roundedMantissa_bounds (ExtendedMantissa.ofMantissaAndAccuracy (m * 2 ^ 53 / n)
    (accuracyOfFraction (m * 2 ^ 53 % n) n) >>> ((m * 2 ^ 53 / n).log2 - 52))
  rw [mantissa_shiftRight, mantissa_ofMantissaAndAccuracy] at hbounds
  refine ⟨M, E, hdiv ▸ hM, by omega, ?_⟩
  rcases Nat.lt_or_ge (m * 2 ^ 53 / n) (2 ^ 53) with hlt | hge
  · have hlog : (m * 2 ^ 53 / n).log2 = 52 := (Nat.log2_eq_iff (by omega)).mpr ⟨hq, hlt⟩
    rw [hlog] at hE hround hbounds
    rw [← hround] at hbounds
    have hd := eq_zero_or_one_of_mul_le hM.low (Nat.le_trans hbounds.2 (by omega))
    omega
  · have hlog : (m * 2 ^ 53 / n).log2 = 53 := (Nat.log2_eq_iff (by omega)).mpr ⟨hge, hq'⟩
    rw [hlog] at hE hround hbounds
    rcases h with hlt | ⟨rfl, hle⟩
    · rw [← hround] at hbounds
      have hd := eq_zero_or_one_of_mul_le hM.low (Nat.le_trans hbounds.2 (by omega))
      omega
    · -- only equal numbers have a quotient as large as one
      obtain rfl : m = n := by
        have := (Nat.le_div_iff_mul_le hpos).mp hge
        omega
      rw [Nat.mul_mod_right, Nat.mul_div_cancel_left _ hpos, accuracyOfFraction, if_pos rfl,
        roundedMantissa_shiftRight] at hround
      have hone : M * 2 ^ (E - (e - e - 53 + (53 - 52 : Nat))).toNat = 2 ^ 52 := hround
      have hd := eq_zero_or_one_of_mul_le hM.low (Nat.le_trans (Nat.le_of_eq hone) (by decide))
      rcases hd with hd | ⟨hd, rfl⟩
      · rw [hd] at hone
        omega
      · rw [hd] at hone
        omega

end Quotients

/-! ## 3. Packed numbers -/

section Packing

variable {x : UnpackedFloat} {m : Nat} {e : Int}

/-- The digit in front is left out when a number is packed, and put back. -/
theorem toNat_append_one (hx : Normal x m e) : (1#1 ++ BitVec.ofNat 52 m).toNat = m := by
  have hm := hx.low
  have hm' := hx.high
  rw [BitVec.toNat_append, ← Nat.shiftLeft_add_eq_or_of_lt (BitVec.isLt _), BitVec.toNat_ofNat]
  show 2 ^ 52 + m % 2 ^ 52 = m
  omega

/-- The parts of a packed number, of which `b` says where the point is. -/
theorem normal_unpack {b : Nat} (hx : Normal x m e) (hb : 0 < b) (hb' : b < 2047)
    (he : (b : Int) = e + 1075) :
    unpack Format.binary64
      (packComponents Format.binary64 .positive (BitVec.ofNat 11 b) (BitVec.ofNat 52 m)) = x := by
  have hnat : (BitVec.ofNat 11 b).toNat = b := by
    rw [BitVec.toNat_ofNat, Nat.mod_eq_of_lt (by omega)]
  have hne (c : BitVec 11) (hc : b ≠ c.toNat) : BitVec.ofNat 11 b ≠ c := fun h =>
    hc (by rw [← h, hnat])
  have hlast : BitVec.ofNat 11 b ≠ -1#11 := hne _ (Nat.ne_of_lt hb')
  have hfirst : BitVec.ofNat 11 b ≠ 0#11 := hne _ (Nat.ne_of_gt hb)
  have hexponent : (b : Int) - (Format.binary64.exponentBias + (52 : Nat)) = e := by
    show (b : Int) - (1023 + 52) = e
    omega
  have hsign : Sign.ofBitVec (Sign.toBitVec .positive) = .positive := rfl
  rw [hx.eq]
  simp only [unpack, unpackMantissa_packComponents, unpackExponent_packComponents,
    unpackSign_packComponents, if_neg hlast, if_neg hfirst, hnat, hexponent,
    toNat_append_one hx, hsign]

/-- **A number of 53 digits survives being packed**, if its exponent is not too large or small. -/
theorem unpack_pack (hx : Normal x m e) (hlow : -1074 ≤ e) (hhigh : e ≤ 971) :
    (Float.Model.pack x).unpack = x := by
  have hfits : ¬ 2 ^ Format.binary64.exponentBits ≤ (e + Format.binary64.exponentBias +
      Format.binary64.mantissaBitsWithoutImplicit).toNat + 1 := by
    show ¬ 2048 ≤ (e + 1023 + 52).toNat + 1
    omega
  have hpack : pack Format.binary64 x = packComponents Format.binary64 .positive
      (BitVec.ofNat 11 (e + 1023 + 52).toNat) (BitVec.ofNat 52 m) := by
    rw [hx.eq]
    simp only [pack, if_neg hfits, hx.log2_eq]
    exact if_pos rfl
  calc (Float.Model.pack x).unpack = unpack Format.binary64 (pack Format.binary64 x) := rfl
    _ = x := by
      rw [hpack]
      exact normal_unpack hx (by omega) (by omega) (by omega)

end Packing

/-! ## 4. Counts as they are used -/

/-- **A count but zero, in floating point.** -/
theorem normal_toFloat {n : UInt64} (hn : n ≠ 0) : ∃ M E, Normal n.toFloat.toModel.unpack M E ∧
    -52 ≤ E ∧ E ≤ 12 ∧ M * 2 ^ (E + 52).toNat = rounded n.toNat * 2 ^ 52 := by
  have hne : n.toNat ≠ 0 := fun h => hn (UInt64.toNat_inj.mp h)
  obtain ⟨M, E, hM, hlow, hvalue⟩ := normal_ofNat hne
  have hhigh : E ≤ 12 := by
    have hbound : rounded n.toNat ≤ 2 ^ 64 :=
      Nat.le_trans (rounded_mono (Nat.le_of_lt n.toNat_lt)) (by decide)
    refine Int.not_lt.mp fun hE => ?_
    have hle : 2 ^ 52 * 2 ^ 65 ≤ M * 2 ^ (E + 52).toNat :=
      Nat.mul_le_mul hM.low (Nat.pow_le_pow_right (by decide) (by omega))
    omega
  refine ⟨M, E, ?_, hlow, hhigh, hvalue⟩
  show Normal (Float.Model.pack (ofNat Format.binary64 n.toNat)).unpack M E
  rw [unpack_pack hM (by omega) (by omega)]
  exact hM

/-- One, in floating point. -/
theorem unpack_one : (1 : Float).toModel.unpack = .finite .positive (2 ^ 52) (-52) (by decide) := by
  rfl

/-- Two numbers compare as their parts do. -/
theorem le_iff_unpack (a b : Float) :
    a ≤ b ↔ a.toModel.unpack.le b.toModel.unpack = true :=
  decide_eq_true_iff

theorem le_one_of_normal {a : Float} {m : Nat} {e : Int} (ha : Normal a.toModel.unpack m e)
    (h : e < -52 ∨ e = -52 ∧ m = 2 ^ 52) : a ≤ 1 := by
  rw [le_iff_unpack, ha.eq, unpack_one, UnpackedFloat.le]
  rcases h with hlt | ⟨rfl, rfl⟩
  · simp [UnpackedFloat.compare, Int.compare_eq_lt.mpr hlt]
  · rfl

/-- **The share of the executed tasks that panicked is at most one**, and a number, in any snapshot
    that has no more panics than executions. -/
theorem Snapshot.panicRate_le_one {s : Snapshot} (h : s.panicked ≤ s.executed) :
    s.panicRate ≤ 1 := by
  unfold panicRate
  split
  · decide
  · next hexecuted =>
    have hdiv : (s.panicked.toFloat / s.executed.toFloat).toModel.unpack =
        (Float.Model.pack (div Format.binary64 s.panicked.toFloat.toModel.unpack
          s.executed.toFloat.toModel.unpack)).unpack := rfl
    obtain ⟨n, f, hy, hf, hf', hn⟩ := normal_toFloat hexecuted
    by_cases hnone : s.panicked = 0
    · have hzero : div Format.binary64 s.panicked.toFloat.toModel.unpack
          s.executed.toFloat.toModel.unpack = .zero .positive := by
        rw [hnone, hy.eq]
        rfl
      rw [le_iff_unpack, hdiv, hzero, unpack_one]
      rfl
    · obtain ⟨m, e, hx, he, he', hm⟩ := normal_toFloat hnone
      have hle : m * 2 ^ (e + 52).toNat ≤ n * 2 ^ (f + 52).toNat := by
        rw [hm, hn]
        exact Nat.mul_le_mul_right _ (rounded_mono h)
      obtain ⟨M, E, hM, hE, hone⟩ :=
        normal_div hx hy (lex_of_mul_le hx hy he hf hle) (by omega)
      refine le_one_of_normal (m := M) (e := E) ?_ hone
      rw [hdiv, unpack_pack hM hE (by omega)]
      exact hM

/-- With more panics than executions it need not be. -/
example : ¬ ({ executed := 1, panicked := 2 } : Snapshot).panicRate ≤ 1 := by decide +kernel

end WorkerPool
