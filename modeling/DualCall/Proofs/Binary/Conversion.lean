import DualCall.Proofs.Binary.Exactness

namespace DualCall

-- Powers are those of the core library, whatever other instances are in scope.
attribute [local instance (2000)] instPowNat

namespace Format

/-- By how many binades the units of 64 bits are finer than those of 32 bits. -/
def refinement : Nat := double.scale - single.scale

theorem double_one : double.one = single.one * 2 ^ refinement := by
  rw [one, one, ← Nat.pow_add]
  exact congrArg (2 ^ ·) (by decide : double.scale = single.scale + refinement)

theorem binade_le_of_lt_infinity {m : Nat} (hm : m < single.infinity) : single.binade m ≤ 253 := by
  have hdiv : m / 2 ^ single.fractionBits ≤ 254 := Nat.lt_succ_iff.mp (Nat.div_lt_of_lt_mul hm)
  unfold binade
  omega

/-- The binades of 32 bits, in the units of 64 bits, end long before the infinity of 64 bits. -/
theorem refined_binade_le_infinity {m : Nat} (hm : m < single.infinity) :
    (single.binade m + refinement + 2) * 2 ^ double.fractionBits ≤ double.infinity := by
  have hbinade := binade_le_of_lt_infinity hm
  have hrefinement : refinement = 925 := by decide
  exact Nat.mul_le_mul_right _ (by omega : single.binade m + refinement + 2 ≤ 2047)

/-- Every finite magnitude of 32 bits is, in units of 64 bits, one of 64 bits. -/
theorem exists_double_units {m : Nat} (hm : m < single.infinity) :
    ∃ wide, double.units wide = single.units m * 2 ^ refinement ∧ wide < double.infinity := by
  have hs : single.significand m < 2 ^ (double.fractionBits + 1) :=
    Nat.lt_of_lt_of_le (single.significand_lt m) (by decide)
  obtain ⟨wide, hunits, hwide⟩ := double.exists_units_eq hs (single.binade m + refinement)
  refine ⟨wide, ?_, Nat.lt_of_lt_of_le hwide (refined_binade_le_infinity hm)⟩
  rw [hunits, Nat.pow_add, units, Nat.mul_assoc]

end Format

namespace Signed

open Format

/-- A datum as conversions leave it: one that is no number has its quiet bit set. -/
def quieted (f : Format) (x : Signed) : Signed :=
  if x.isNaN f then
    ⟨x.negative, f.infinity + ((x.magnitude - f.infinity) ||| 2 ^ (f.fractionBits - 1))⟩
  else x

theorem convert_nan {source target : Format} {x : Signed} (hx : source.infinity < x.magnitude) :
    x.convert source target =
      ⟨x.negative, target.infinity +
        ((x.magnitude - source.infinity) * 2 ^ target.fractionBits / 2 ^ source.fractionBits |||
          2 ^ (target.fractionBits - 1))⟩ := by
  simp [convert, isNaN, hx]

theorem convert_infinite {source target : Format} {x : Signed}
    (hx : x.magnitude = source.infinity) :
    x.convert source target = ⟨x.negative, target.infinity⟩ := by
  simp [convert, isNaN, isInfinite, hx]

theorem convert_finite {source target : Format} {x : Signed} (hx : x.magnitude < source.infinity) :
    x.convert source target =
      ⟨x.negative, target.nearest (source.units x.magnitude * target.one) source.one⟩ := by
  simp [convert, isNaN, isInfinite, Nat.not_lt_of_lt hx, Nat.ne_of_lt hx]

/-- The number of a finite datum of 32 bits is not rounded on the way to 64 bits and back. -/
theorem convert_convert_finite {x : Signed} (hx : x.magnitude < single.infinity) :
    (x.convert single double).convert double single = x := by
  obtain ⟨wide, hunits, hwide⟩ := exists_double_units hx
  have hwiden : x.convert single double = ⟨x.negative, wide⟩ := by
    rw [convert_finite hx, double_one, Nat.mul_comm single.one, ← Nat.mul_assoc, ← hunits,
      double.nearest_units_mul wide single.one_pos, Nat.min_eq_left (Nat.le_of_lt hwide)]
  have hback : single.nearest (double.units wide * single.one) double.one = x.magnitude := by
    rw [hunits, Nat.mul_assoc, Nat.mul_comm (2 ^ refinement), ← double_one,
      single.nearest_units_mul _ double.one_pos, Nat.min_eq_left (Nat.le_of_lt hx)]
  rw [hwiden, convert_finite (show wide < double.infinity from hwide), hback]

theorem convert_convert_nan {x : Signed} (hx : single.infinity < x.magnitude) :
    (x.convert single double).convert double single = x.quieted single := by
  have hquiet : 0 < 2 ^ (double.fractionBits - 1) := Nat.two_pow_pos _
  generalize hfraction : x.magnitude - single.infinity = fraction
  -- The fraction moves up by the difference of the widths, and back down.
  have hup : fraction * 2 ^ double.fractionBits / 2 ^ single.fractionBits = fraction * 2 ^ 29 := by
    rw [show double.fractionBits = 29 + single.fractionBits from rfl, Nat.pow_add,
      ← Nat.mul_assoc, Nat.mul_div_cancel _ (Nat.two_pow_pos _)]
  have hdown (y : Nat) : (fraction * 2 ^ 29 ||| y) * 2 ^ single.fractionBits /
      2 ^ double.fractionBits = fraction ||| y / 2 ^ 29 := by
    rw [show double.fractionBits = 29 + single.fractionBits from rfl, Nat.pow_add,
      Nat.mul_div_mul_right _ _ (Nat.two_pow_pos _), ← Nat.shiftRight_eq_div_pow,
      Nat.shiftRight_or_distrib, Nat.shiftRight_eq_div_pow, Nat.shiftRight_eq_div_pow,
      Nat.mul_div_cancel _ (Nat.two_pow_pos _)]
  have hwide : double.infinity <
      double.infinity + (fraction * 2 ^ 29 ||| 2 ^ (double.fractionBits - 1)) :=
    Nat.lt_add_of_pos_right (Nat.lt_of_lt_of_le hquiet Nat.right_le_or)
  rw [convert_nan hx, hfraction, hup, convert_nan (by exact hwide), Nat.add_sub_cancel_left,
    hdown, quieted, if_pos (by simpa [isNaN] using hx), hfraction, Nat.or_assoc]
  congr 3

/-- Widening loses nothing of a datum but that it sets the quiet bit of what is no number. -/
theorem convert_convert (x : Signed) :
    (x.convert single double).convert double single = x.quieted single := by
  rcases Nat.lt_trichotomy x.magnitude single.infinity with hlt | heq | hgt
  · rw [convert_convert_finite hlt, quieted, isNaN, if_neg (by simpa using Nat.le_of_lt hlt)]
  · rw [convert_infinite heq, convert_infinite rfl, quieted, isNaN, ← heq]
    simp
  · exact convert_convert_nan hgt

/-- What a conversion gives has its quiet bit already, if it is no number. -/
theorem quieted_convert (source target : Format) (x : Signed) :
    (x.convert source target).quieted target = x.convert source target := by
  have hquiet : 0 < 2 ^ (target.fractionBits - 1) := Nat.two_pow_pos _
  rcases Nat.lt_trichotomy x.magnitude source.infinity with hlt | heq | hgt
  · rw [convert_finite hlt, quieted, if_neg]
    simpa [isNaN] using target.nearest_le_infinity _ _
  · rw [convert_infinite heq, quieted, if_neg]
    simp [isNaN]
  · have hnan : target.infinity < (x.convert source target).magnitude := by
      rw [convert_nan hgt]
      exact Nat.lt_add_of_pos_right (Nat.lt_of_lt_of_le hquiet Nat.right_le_or)
    rw [quieted, if_pos (by simpa [isNaN] using hnan), convert_nan hgt]
    simp only [Nat.add_sub_cancel_left, Nat.or_assoc, Nat.or_self]

/-- A conversion gives no number only for what is none. -/
theorem isNaN_convert (source target : Format) (x : Signed) :
    (x.convert source target).isNaN target = x.isNaN source := by
  have hquiet : 0 < 2 ^ (target.fractionBits - 1) := Nat.two_pow_pos _
  rcases Nat.lt_trichotomy x.magnitude source.infinity with hlt | heq | hgt
  · have hle := target.nearest_le_infinity (source.units x.magnitude * target.one) source.one
    rw [convert_finite hlt, isNaN, isNaN, decide_eq_false (Nat.not_lt.mpr hle),
      decide_eq_false (Nat.not_lt.mpr (Nat.le_of_lt hlt))]
  · rw [convert_infinite heq]
    simp [isNaN, heq]
  · rw [convert_nan hgt, isNaN, isNaN, decide_eq_true hgt]
    exact decide_eq_true (Nat.lt_add_of_pos_right (Nat.lt_of_lt_of_le hquiet Nat.right_le_or))

/-- The quiet bit that a conversion sets of what is no number is the one of its source. -/
theorem convert_quieted (x : Signed) :
    (x.quieted single).convert single double = x.convert single double := by
  cases hx : x.isNaN single with
  | false => rw [quieted, if_neg (by simp [hx])]
  | true =>
    have hnan : single.infinity < x.magnitude := by simpa [isNaN] using hx
    have hquiet : single.infinity < single.infinity +
        ((x.magnitude - single.infinity) ||| 2 ^ (single.fractionBits - 1)) :=
      Nat.lt_add_of_pos_right (Nat.lt_of_lt_of_le (Nat.two_pow_pos _) Nat.right_le_or)
    have hup (fraction : Nat) :
        fraction * 2 ^ double.fractionBits / 2 ^ single.fractionBits = fraction <<< 29 := by
      rw [show double.fractionBits = 29 + single.fractionBits from rfl, Nat.pow_add,
        ← Nat.mul_assoc, Nat.mul_div_cancel _ (Nat.two_pow_pos _), Nat.shiftLeft_eq]
    rw [quieted, if_pos hx, convert_nan (by exact hquiet), convert_nan hnan, hup, hup,
      Nat.add_sub_cancel_left, Nat.shiftLeft_or_distrib, Nat.or_assoc]
    congr 3

/-- A conversion does not reach the sign bit. -/
theorem convert_magnitude_lt {source : Format} (target : Format)
    (htarget : 0 < target.fractionBits) {x : Signed} (hx : x.magnitude < source.signWeight) :
    (x.convert source target).magnitude < target.signWeight := by
  have hspace (f : Format) : f.infinity + 2 ^ f.fractionBits = f.signWeight := by
    have hpos : 0 < 2 ^ f.exponentBits := Nat.two_pow_pos _
    rw [Format.infinity, Format.signWeight, Nat.add_comm f.fractionBits, Nat.pow_add,
      ← Nat.succ_mul, Nat.succ_eq_add_one, Nat.sub_add_cancel hpos]
  have hinfinity : target.infinity < target.signWeight := by
    rw [← hspace target]
    exact Nat.lt_add_of_pos_right (Nat.two_pow_pos _)
  rcases Nat.lt_trichotomy x.magnitude source.infinity with hlt | heq | hgt
  · rw [convert_finite hlt]
    exact Nat.lt_of_le_of_lt (target.nearest_le_infinity _ _) hinfinity
  · rw [convert_infinite heq]
    exact hinfinity
  · have hfraction : x.magnitude - source.infinity < 2 ^ source.fractionBits := by
      rw [← hspace source] at hx
      omega
    have hmoved : (x.magnitude - source.infinity) * 2 ^ target.fractionBits /
        2 ^ source.fractionBits < 2 ^ target.fractionBits :=
      Nat.div_lt_of_lt_mul (Nat.mul_lt_mul_of_pos_right hfraction (Nat.two_pow_pos _))
    have hbit : 2 ^ (target.fractionBits - 1) < 2 ^ target.fractionBits :=
      Nat.pow_lt_pow_right (by decide) (Nat.sub_lt htarget (by decide))
    rw [convert_nan hgt, ← hspace target]
    exact Nat.add_lt_add_left (Nat.or_lt_two_pow hmoved hbit) _

end Signed

/-- The parts of a word of 64 bits are those that it was put together from. -/
theorem Binary64.decode_encode {x : Signed} (hx : x.magnitude < Format.double.signWeight) :
    (Binary64.encode x).decode = x := by
  obtain ⟨negative, magnitude⟩ := x
  have hweight : Format.double.signWeight = 9223372036854775808 := rfl
  rw [hweight] at hx
  cases negative <;> simp [Binary64.encode, Binary64.decode, hweight] at hx ⊢ <;> omega

theorem Binary32.decode_encode {x : Signed} (hx : x.magnitude < Format.single.signWeight) :
    (Binary32.encode x).decode = x := by
  obtain ⟨negative, magnitude⟩ := x
  have hweight : Format.single.signWeight = 2147483648 := rfl
  rw [hweight] at hx
  cases negative <;> simp [Binary32.encode, Binary32.decode, hweight] at hx ⊢ <;> omega

theorem Binary64.encode_decode (x : Binary64) : Binary64.encode x.decode = x := by
  obtain ⟨bits⟩ := x
  have hweight : Format.double.signWeight = 9223372036854775808 := rfl
  have hbits := bits.toNat_lt
  simp only [Binary64.encode, Binary64.decode, hweight, Binary64.mk.injEq, ← UInt64.toNat_inj,
    UInt64.toNat_ofNat', decide_eq_true_eq]
  split <;> omega

theorem Binary32.encode_decode (x : Binary32) : Binary32.encode x.decode = x := by
  obtain ⟨bits⟩ := x
  have hweight : Format.single.signWeight = 2147483648 := rfl
  have hbits := bits.toNat_lt
  simp only [Binary32.encode, Binary32.decode, hweight, Binary32.mk.injEq, ← UInt32.toNat_inj,
    UInt32.toNat_ofNat', decide_eq_true_eq]
  split <;> omega

namespace Binary32

/-- No number, of either sign. -/
def isNaN (x : Binary32) : Bool := x.decode.isNaN .single

/-- The same number; what is no number gets its quiet bit set, and keeps its sign and the rest of
    its fraction. -/
def quieted (x : Binary32) : Binary32 :=
  if x.isNaN then ⟨x.bits ||| 0x400000⟩ else x

theorem quieted_of_not_nan {x : Binary32} (hx : x.isNaN = false) : x.quieted = x := by
  simp [quieted, hx]

theorem encode_quieted_decode (x : Binary32) : encode (x.decode.quieted .single) = x.quieted := by
  cases hx : x.isNaN with
  | false =>
    rw [quieted_of_not_nan hx, Signed.quieted, if_neg (by simpa [isNaN] using hx), encode_decode]
  | true =>
    obtain ⟨bits⟩ := x
    have hweight : Format.single.signWeight = 2147483648 := rfl
    have hinfinity : Format.single.infinity = 2139095040 := rfl
    have hnan : 2139095040 < bits.toNat % 2147483648 := by
      simpa [isNaN, Signed.isNaN, decode, hweight, hinfinity] using hx
    have hbits := bits.toNat_lt
    have hfraction : bits.toNat % 2147483648 - 2139095040 = bits.toNat % 2 ^ 23 := by omega
    have hlt : bits.toNat % 2 ^ 23 < 2 ^ 23 := Nat.mod_lt _ (Nat.two_pow_pos 23)
    -- The bits above the fraction are those of the word, on both sides.
    have hword : bits.toNat ||| 2 ^ 22 =
        2 ^ 23 * (bits.toNat / 2 ^ 23) + (bits.toNat % 2 ^ 23 ||| 2 ^ 22) := by
      rw [Nat.two_pow_add_eq_or_of_lt (Nat.or_lt_two_pow hlt (by decide)), ← Nat.or_assoc,
        ← Nat.two_pow_add_eq_or_of_lt hlt, Nat.div_add_mod]
    have hor : bits.toNat % 2 ^ 23 ||| 2 ^ 22 < 2 ^ 23 := Nat.or_lt_two_pow hlt (by decide)
    rw [quieted, if_pos hx, Signed.quieted, if_pos (by simpa [isNaN] using hx)]
    simp only [encode, decode, hweight, hinfinity, hfraction, Binary32.mk.injEq,
      ← UInt32.toNat_inj, UInt32.toNat_ofNat', UInt32.toNat_or, decide_eq_true_eq]
    change _ = bits.toNat ||| 2 ^ 22
    rw [hword]
    split <;> simp only [show Format.single.fractionBits - 1 = 22 from rfl] <;> omega

/-- Widening is exact: narrowing gives the number back. -/
theorem narrow_widen (x : Binary32) : x.widen.narrow = x.quieted := by
  have hmagnitude : x.decode.magnitude < Format.single.signWeight :=
    Nat.mod_lt _ (Nat.two_pow_pos _)
  have hwide := Signed.convert_magnitude_lt .double (by decide) hmagnitude
  rw [Binary64.narrow, widen, Binary64.decode_encode hwide, Signed.convert_convert,
    encode_quieted_decode]

theorem decode_widen (x : Binary32) : x.widen.decode = x.decode.convert .single .double := by
  have hmagnitude : x.decode.magnitude < Format.single.signWeight :=
    Nat.mod_lt _ (Nat.two_pow_pos _)
  exact Binary64.decode_encode (Signed.convert_magnitude_lt .double (by decide) hmagnitude)

/-- Widening keeps what is no number apart from numbers. -/
theorem isNaN_widen (x : Binary32) : x.widen.isNaN = x.isNaN := by
  rw [Binary64.isNaN, decode_widen, Signed.isNaN_convert, isNaN]

/-- Setting the quiet bit before widening does not change what widening gives. -/
theorem widen_quieted (x : Binary32) : x.quieted.widen = x.widen := by
  have hdecode : x.quieted.decode = x.decode.quieted .single := by
    have hmagnitude : x.widen.decode.magnitude < Format.double.signWeight :=
      Nat.mod_lt _ (Nat.two_pow_pos _)
    rw [← narrow_widen, Binary64.narrow, decode_encode
      (Signed.convert_magnitude_lt .single (by decide) hmagnitude), decode_widen,
      Signed.convert_convert]
  rw [widen, hdecode, Signed.convert_quieted, widen]

end Binary32

namespace Binary64

theorem decode_narrow (x : Binary64) : x.narrow.decode = x.decode.convert .double .single := by
  have hmagnitude : x.decode.magnitude < Format.double.signWeight :=
    Nat.mod_lt _ (Nat.two_pow_pos _)
  exact Binary32.decode_encode (Signed.convert_magnitude_lt .single (by decide) hmagnitude)

theorem isNaN_narrow (x : Binary64) : x.narrow.isNaN = x.isNaN := by
  rw [Binary32.isNaN, decode_narrow, Signed.isNaN_convert, isNaN]

/-- A number that was narrowed survives being widened and narrowed again, as it is. -/
theorem quieted_narrow (x : Binary64) : x.narrow.quieted = x.narrow := by
  rw [← Binary32.encode_quieted_decode, decode_narrow, Signed.quieted_convert, narrow]

end Binary64

end DualCall
