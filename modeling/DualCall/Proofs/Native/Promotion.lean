import DualCall.Native.Scalar
import DualCall.Proofs.Binary.Nearest
import DualCall.Proofs.Binary.Rerounding

namespace DualCall

-- Powers are those of the core library, whatever other instances are in scope.
attribute [local instance (2000)] instPowNat

open Format Signed

/-- Whole numbers of 64 bits are far from infinity in both formats. -/
theorem Format.two_pow_lt_value_infinity (f : Format) (hf : 8 ≤ f.exponentBits) :
    (2 : ℚ) ^ 65 < f.value f.infinity := by
  have hbits : 2 ^ 7 ≤ 2 ^ (f.exponentBits - 1) := Nat.pow_le_pow_right (by decide) (by omega)
  rw [f.value_infinity (by omega)]
  exact pow_lt_pow_right₀ one_lt_two (Nat.lt_of_lt_of_le (by decide) hbits)

theorem abs_toInt_le (n : Int64) : |(n.toInt : ℚ)| ≤ 2 ^ 63 := by
  have hlow : -2 ^ 63 ≤ n.toInt := n.le_toInt
  have hhigh : n.toInt < 2 ^ 63 := n.toInt_lt
  rw [abs_le]
  exact_mod_cast And.intro hlow hhigh.le

theorem Binary64.isNearest_ofInt (n : Int64) :
    (ofInt n.toInt).decode.IsNearest .double n.toInt := by
  have hinfinity := Format.double.two_pow_lt_value_infinity (by decide)
  have hsize := abs_toInt_le n
  have hnear : (Signed.ofInt .double n.toInt).IsNearest .double n.toInt :=
    Signed.isNearest_ofInt (by decide) (by linarith)
  rwa [ofInt, decode_encode (hnear.finite.trans (by decide))]

/-- A whole number is zero or at least one, so that rounding does not lose its sign. -/
theorem Binary64.negative_decode_ofInt (n : Int64) :
    (ofInt n.toInt).decode.negative = decide ((ofInt n.toInt).decode.value .double < 0) := by
  refine (isNearest_ofInt n).negative_eq_value ?_
  obtain hzero | hne := eq_or_ne n.toInt 0
  · exact .inl (by simp [hzero])
  · refine .inr ?_
    calc double.value 1 ≤ 1 := double.value_one_le_one
      _ ≤ |(n.toInt : ℚ)| := by exact_mod_cast Int.one_le_abs hne

/-- What an integer was rounded to with 64 bits is rounded to the nearest again with 32 bits. -/
theorem Binary64.isNearest_narrow_ofInt (n : Int64) :
    (ofInt n.toInt).narrow.decode.IsNearest .single ((ofInt n.toInt).decode.value .double) := by
  have hwide := isNearest_ofInt n
  have hinfinity := Format.single.two_pow_lt_value_infinity (by decide)
  have hsize := abs_toInt_le n
  have hsize' := hwide.abs_value_le
  have hnear : ((ofInt n.toInt).decode.convert .double .single).IsNearest .single
      ((ofInt n.toInt).decode.value .double) := by
    apply Signed.isNearest_convert (by decide) hwide.finite (negative_decode_ofInt n)
    linarith
  rwa [decode_narrow]

/-- A number of 64 bits becomes one of 32 bits. The sign stays, and so does what is infinite or no
    number; a finite number becomes the nearest one, where infinity counts as the power of two
    behind the greatest number. -/
structure Binary64.NarrowsTo (x : Binary64) (y : Binary32) : Prop where
  negative_eq : y.decode.negative = x.decode.negative
  isNaN_eq : y.isNaN = x.isNaN
  infinite : x.decode.magnitude = Format.double.infinity →
    y.decode.magnitude = Format.single.infinity
  nearest : x.decode.magnitude < Format.double.infinity →
    Format.single.IsNearest (Format.double.value x.decode.magnitude) y.decode.magnitude

theorem Binary64.narrowsTo_narrow (x : Binary64) : x.NarrowsTo x.narrow where
  negative_eq := by
    rw [decode_narrow]
    unfold Signed.convert
    split
    · rfl
    · split <;> rfl
  isNaN_eq := x.isNaN_narrow
  infinite hinfinite := by rw [decode_narrow, Signed.convert_infinite hinfinite]
  nearest hfinite := by
    rw [decode_narrow]
    exact Signed.isNearest_magnitude_convert (by decide) hfinite

namespace Scalar

/-- An integer as an argument of 64 bits is the number of 64 bits nearest to it, and as an argument
    of 32 bits the one of 32 bits nearest to that. This is the one nearest to the integer itself as
    well, unless the first rounding moves it onto a middle and the second one past it. -/
theorem marshal_int_nearest (position : Nat) (n : Int64) :
    ∃ wide narrow,
      marshal position .f64 (.int n) = .ok (.f64 wide) ∧
      marshal position .f32 (.int n) = .ok (.f32 narrow) ∧
      wide.decode.IsNearest .double n.toInt ∧
      narrow.decode.IsNearest .single (wide.decode.value .double) ∧
      (narrow.decode.IsNearest .single n.toInt ↔
        ¬ Format.single.Overshoots |(n.toInt : ℚ)| |wide.decode.value .double|
          narrow.decode.magnitude) := by
  have hwide := Binary64.isNearest_ofInt n
  have hnarrow := Binary64.isNearest_narrow_ofInt n
  exact ⟨_, _, rfl, rfl, hwide, hnarrow, hwide.isNearest_iff_not_overshoots double_refines_single
    (Binary64.negative_decode_ofInt n) hnarrow⟩

/-- An integer just above a middle, onto which it is rounded first and then down from there. -/
theorem marshal_int_not_nearest :
    marshal 0 .f32 (.int 9007199791611905) = .ok (.f32 ⟨0x5a000000⟩) ∧
      ¬ (Binary32.mk 0x5a000000).decode.IsNearest .single (9007199791611905 : Int64).toInt ∧
      (Binary32.mk 0x5a000001).decode.IsNearest .single (9007199791611905 : Int64).toInt := by
  have hnarrow : (Binary64.ofInt (9007199791611905 : Int64).toInt).narrow = ⟨0x5a000000⟩ := by
    decide +kernel
  have hdirect : Signed.ofInt .single (9007199791611905 : Int64).toInt =
      (Binary32.mk 0x5a000001).decode := by decide +kernel
  have hnearest : (Binary32.mk 0x5a000001).decode.IsNearest .single
      (9007199791611905 : Int64).toInt := by
    have hinfinity := Format.single.two_pow_lt_value_infinity (by decide)
    have hsize := abs_toInt_le 9007199791611905
    rw [← hdirect]
    exact Signed.isNearest_ofInt (by decide) (by linarith)
  refine ⟨congrArg (fun x => Except.ok (f32 x)) hnarrow, fun hother => ?_, hnearest⟩
  exact absurd (hother.unique hnearest) (by decide)

end Scalar

end DualCall
