import DualCall.Proofs.Binary.Conversion
import DualCall.Proofs.Binary.Rounding

namespace DualCall

-- Powers are those of the core library, whatever other instances are in scope.
attribute [local instance (2000)] instPowNat

namespace Format

variable {f : Format} {x : ℚ} {m k : Nat}

/-- Rounding does not go past a number of the format. -/
theorem IsNearest.value_le (hm : f.IsNearest x m) (hk : k ≤ f.infinity) (hx : x ≤ f.value k) :
    f.value m ≤ f.value k := by
  by_contra hnot
  have hdist := hm.dist_le k hk
  rw [abs_of_nonpos (by linarith), abs_of_nonpos (by linarith)] at hdist
  linarith

theorem IsNearest.le_value (hm : f.IsNearest x m) (hk : k ≤ f.infinity) (hx : f.value k ≤ x) :
    f.value k ≤ f.value m := by
  by_contra hnot
  have hdist := hm.dist_le k hk
  rw [abs_of_nonneg (by linarith), abs_of_nonneg (by linarith)] at hdist
  linarith

/-- A number that is nearer to zero than to infinity is not rounded to infinity. -/
theorem IsNearest.lt_infinity (hm : f.IsNearest x m) (hx : 0 ≤ x)
    (hlt : 2 * x < f.value f.infinity) : m < f.infinity := by
  refine Nat.lt_of_le_of_ne hm.le_infinity ?_
  rintro rfl
  have hdist := hm.dist_le 0 (Nat.zero_le _)
  rw [f.value_zero, sub_zero, abs_of_nonneg hx, abs_of_nonpos (by linarith)] at hdist
  linarith

end Format

namespace Signed

open Format

variable (f : Format)

/-- The number that a datum stands for. -/
def value (x : Signed) : ℚ :=
  if x.negative then -f.value x.magnitude else f.value x.magnitude

/-- A finite datum to which none of its format is nearer, and which is even if another number is as
    near. It has the sign of the number that it is nearest to. -/
structure IsNearest (x : ℚ) (y : Signed) : Prop where
  finite : y.magnitude < f.infinity
  negative_eq : y.negative = decide (x < 0)
  dist_le : ∀ other : Signed, other.magnitude ≤ f.infinity → |x - y.value f| ≤ |x - other.value f|
  even_of_tie : ∀ other : Signed, other.magnitude ≤ f.infinity → other.value f ≠ y.value f →
    |x - other.value f| = |x - y.value f| → y.magnitude % 2 = 0

variable {f} {x : ℚ} {y : Signed}

theorem abs_value (y : Signed) : |y.value f| = f.value y.magnitude := by
  have hnonneg := f.value_nonneg y.magnitude
  unfold value
  split
  · rw [abs_neg, abs_of_nonneg hnonneg]
  · exact abs_of_nonneg hnonneg

/-- On the side of its sign a datum is as far from a number as the magnitudes are apart. -/
theorem abs_sub_value_of_sign (hy : y.negative = decide (x < 0)) :
    |x - y.value f| = |(|x| - f.value y.magnitude)| := by
  unfold value
  obtain hx | hx := lt_or_ge x 0
  · rw [hy, decide_eq_true hx, if_pos rfl, abs_of_neg hx, ← abs_neg]
    ring_nf
  · rw [hy, decide_eq_false (not_lt.mpr hx), if_neg Bool.false_ne_true, abs_of_nonneg hx]

/-- On the other side it is as far as the magnitudes together. -/
theorem abs_sub_value_of_not_sign (hy : y.negative ≠ decide (x < 0)) :
    |x - y.value f| = |x| + f.value y.magnitude := by
  have hnonneg := f.value_nonneg y.magnitude
  unfold value
  obtain hx | hx := lt_or_ge x 0
  · rw [decide_eq_true hx] at hy
    rw [if_neg hy, abs_of_neg hx, abs_of_neg (by linarith)]
    ring
  · rw [decide_eq_false (not_lt.mpr hx), ne_eq, Bool.not_eq_false] at hy
    rw [if_pos hy, abs_of_nonneg hx, abs_of_nonneg (by linarith)]
    ring

theorem IsNearest.magnitude (hy : y.IsNearest f x) : f.IsNearest |x| y.magnitude := by
  -- Every magnitude belongs to a datum on the side of the number.
  have hside (k : Nat) : |x - value f ⟨decide (x < 0), k⟩| = |(|x| - f.value k)| :=
    abs_sub_value_of_sign rfl
  refine ⟨hy.finite.le, fun k hk => ?_, fun k hk hne htie => ?_⟩
  · rw [← hside k, ← abs_sub_value_of_sign hy.negative_eq]
    exact hy.dist_le ⟨_, k⟩ hk
  · rw [← hside k, ← abs_sub_value_of_sign hy.negative_eq] at htie
    refine hy.even_of_tie ⟨_, k⟩ hk (fun hvalue => hne ?_) htie
    apply f.value_strictMono.injective
    rw [← abs_value ⟨decide (x < 0), k⟩, hvalue, abs_value]

theorem isNearest_of_magnitude (hfinite : y.magnitude < f.infinity)
    (hsign : y.negative = decide (x < 0)) (hnear : f.IsNearest |x| y.magnitude) :
    y.IsNearest f x := by
  have hzero := hnear.dist_le 0 (Nat.zero_le _)
  rw [f.value_zero, sub_zero, abs_abs] at hzero
  refine ⟨hfinite, hsign, fun other hother => ?_, fun other hother hne htie => ?_⟩
  · rw [abs_sub_value_of_sign hsign]
    by_cases hside : other.negative = decide (x < 0)
    · rw [abs_sub_value_of_sign hside]
      exact hnear.dist_le _ hother
    · rw [abs_sub_value_of_not_sign hside]
      exact hzero.trans (le_add_of_nonneg_right (f.value_nonneg _))
  · rw [abs_sub_value_of_sign hsign] at htie
    by_cases hside : other.negative = decide (x < 0)
    · rw [abs_sub_value_of_sign hside] at htie
      refine hnear.even_of_tie _ hother (fun hmagnitude => hne ?_) htie
      rw [value, value, hside, hsign, hmagnitude]
    · -- What is as near on the other side is zero.
      rw [abs_sub_value_of_not_sign hside] at htie
      have hother_zero : f.value other.magnitude = 0 :=
        le_antisymm (by linarith) (f.value_nonneg _)
      refine hnear.even_of_tie 0 (Nat.zero_le _) (fun hmagnitude => hne ?_) ?_
      · have hy_zero : y.value f = 0 := by
          rw [← abs_eq_zero, abs_value, ← hmagnitude, f.value_zero]
        rw [hy_zero, ← abs_eq_zero, abs_value, hother_zero]
      · rw [f.value_zero, sub_zero, abs_abs, ← htie, hother_zero, add_zero]

/-- There is only one nearest datum. -/
theorem IsNearest.unique {y' : Signed} (hy : y.IsNearest f x) (hy' : y'.IsNearest f x) :
    y = y' := by
  obtain ⟨negative, magnitude⟩ := y
  obtain ⟨negative', magnitude'⟩ := y'
  obtain rfl : negative = decide (x < 0) := hy.negative_eq
  obtain rfl : negative' = decide (x < 0) := hy'.negative_eq
  exact congrArg (Signed.mk _) (hy.magnitude.unique hy'.magnitude)

/-- No datum is nearer to a number than zero is by more than the number is large. -/
theorem IsNearest.abs_value_le (hy : y.IsNearest f x) : |y.value f| ≤ 2 * |x| := by
  have hzero := hy.dist_le ⟨false, 0⟩ (Nat.zero_le _)
  rw [show value f ⟨false, 0⟩ = 0 from f.value_zero, sub_zero] at hzero
  have htriangle := abs_sub_abs_le_abs_sub (y.value f) x
  rw [abs_sub_comm] at htriangle
  linarith

/-- A datum nearest to a number that is not too small for its format has a sign by its value. -/
theorem IsNearest.negative_eq_value (hy : y.IsNearest f x) (hx : x = 0 ∨ f.value 1 ≤ |x|) :
    y.negative = decide (y.value f < 0) := by
  unfold value
  obtain rfl | hx := hx
  · have hpositive : y.negative = false := by simpa using hy.negative_eq
    simp [hpositive, f.value_nonneg]
  · have hle := hy.magnitude.le_value (Nat.zero_lt_of_lt hy.finite) hx
    have hpos : 0 < f.value y.magnitude :=
      (f.value_zero ▸ f.value_strictMono Nat.one_pos).trans_le hle
    cases y.negative with
    | false => simp [hpos.le]
    | true => simp [hpos]

/-- A whole number becomes the datum nearest to it. -/
theorem isNearest_ofInt (hf : 0 < f.fractionBits) {n : Int}
    (hn : 2 * |(n : ℚ)| < f.value f.infinity) : (ofInt f n).IsNearest f n := by
  obtain rfl | hne := eq_or_ne n 0
  · have hzero : ofInt f 0 = ⟨false, 0⟩ := by simp [ofInt, nearest]
    have hleast := f.value_strictMono Nat.one_pos
    rw [f.value_zero] at hleast
    have hnear : f.IsNearest |((0 : Int) : ℚ)| 0 := by
      rw [Int.cast_zero, abs_zero]
      exact isNearest_zero (le_refl _) (by simpa using hleast)
    rw [hzero]
    exact isNearest_of_magnitude (hnear.lt_infinity (abs_nonneg _) hn) (by simp) hnear
  · have hone : (0 : Int) < f.one := Int.natCast_pos.mpr f.one_pos
    have hsize : |(n : ℚ)| = (n * f.one).natAbs / (1 : Nat) / f.one := by
      rw [Int.natAbs_mul, Int.natAbs_natCast, Nat.cast_mul, Nat.cast_one, div_one,
        mul_div_cancel_right₀ _ f.one_pos_rat.ne', Nat.cast_natAbs, Int.cast_abs]
    have hnear : f.IsNearest |(n : ℚ)| (f.nearest (n * f.one).natAbs 1) :=
      hsize ▸ isNearest_nearest Nat.one_pos hf
    have hsign : n * f.one < 0 ↔ (n : ℚ) < 0 := by
      rw [Int.cast_lt_zero, mul_neg_iff]
      omega
    rw [ofInt, nearest, if_neg (mul_ne_zero hne hone.ne')]
    exact isNearest_of_magnitude (hnear.lt_infinity (abs_nonneg _) hn)
      (decide_eq_decide.mpr hsign) hnear

/-- The magnitude of a finite datum becomes the one of another format that is nearest to it, be it
    infinity. -/
theorem isNearest_magnitude_convert {source target : Format} (htarget : 0 < target.fractionBits)
    (hy : y.magnitude < source.infinity) :
    target.IsNearest (source.value y.magnitude) (y.convert source target).magnitude := by
  have hsize : source.value y.magnitude =
      (source.units y.magnitude * target.one : Nat) / source.one / target.one := by
    rw [Format.value, Nat.cast_mul, mul_div_right_comm,
      mul_div_cancel_right₀ _ target.one_pos_rat.ne']
  rw [convert_finite hy, hsize]
  exact isNearest_nearest source.one_pos htarget

/-- A datum becomes the one of another format that is nearest to it. -/
theorem isNearest_convert {source target : Format} (htarget : 0 < target.fractionBits)
    (hy : y.magnitude < source.infinity) (hsign : y.negative = decide (y.value source < 0))
    (hrange : 2 * |y.value source| < target.value target.infinity) :
    (y.convert source target).IsNearest target (y.value source) := by
  have hnear := isNearest_magnitude_convert htarget hy
  rw [← abs_value] at hnear
  refine isNearest_of_magnitude (hnear.lt_infinity (abs_nonneg _) hrange) ?_ hnear
  rw [convert_finite hy, hsign]

end Signed

end DualCall
