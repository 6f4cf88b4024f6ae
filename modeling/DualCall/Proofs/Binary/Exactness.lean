import DualCall.Binary.Number

namespace DualCall

-- Powers are those of the core library, whatever other instances are in scope.
attribute [local instance (2000)] instPowNat

namespace Format

variable (f : Format)

theorem one_pos : 0 < f.one := Nat.two_pow_pos _

/-- A magnitude is its significand, counted on from the start of its binade. -/
theorem binade_mul_add_significand (m : Nat) :
    f.binade m * 2 ^ f.fractionBits + f.significand m = m := by
  unfold binade significand
  by_cases hm : m < 2 ^ f.fractionBits
  · simp [hm, Nat.div_eq_of_lt hm]
  · have hpos : 1 ≤ m / 2 ^ f.fractionBits :=
      (Nat.one_le_div_iff (Nat.two_pow_pos _)).mpr (Nat.le_of_not_lt hm)
    have hsplit := Nat.div_add_mod m (2 ^ f.fractionBits)
    rw [if_neg hm, Nat.sub_mul, Nat.one_mul]
    have hle := Nat.mul_le_mul_right (2 ^ f.fractionBits) hpos
    rw [Nat.mul_comm] at hsplit
    omega

theorem significand_lt (m : Nat) : f.significand m < 2 ^ (f.fractionBits + 1) := by
  have hpos : 0 < 2 ^ f.fractionBits := Nat.two_pow_pos _
  have hmod := Nat.mod_lt m hpos
  unfold significand
  rw [Nat.pow_succ]
  split <;> omega

/-- Only subnormal magnitudes, which count single units, have a significand without the hidden
    bit. -/
theorem hiddenBit_le_significand {m : Nat} (hm : f.binade m ≠ 0) :
    2 ^ f.fractionBits ≤ f.significand m := by
  unfold significand
  split
  · next hsmall => simp [binade, Nat.div_eq_of_lt hsmall] at hm
  · exact Nat.le_add_right _ _

/-- The binade that rounding chooses for the units of a magnitude is the magnitude's own. -/
theorem log2_units_sub (m : Nat) : Nat.log2 (f.units m) - f.fractionBits = f.binade m := by
  have hlt := f.significand_lt m
  unfold units
  by_cases hb : f.binade m = 0
  · rw [hb, Nat.pow_zero, Nat.mul_one]
    have hlog : Nat.log2 (f.significand m) < f.fractionBits + 1 := by
      by_cases hs : f.significand m = 0
      · simp [hs]
      · exact (Nat.log2_lt hs).mpr hlt
    omega
  · have hle := f.hiddenBit_le_significand hb
    have hne : f.significand m ≠ 0 := by
      have := Nat.two_pow_pos f.fractionBits
      omega
    have hlog : Nat.log2 (f.significand m * 2 ^ f.binade m) = f.fractionBits + f.binade m := by
      rw [Nat.log2_eq_iff (Nat.mul_ne_zero hne (Nat.ne_of_gt (Nat.two_pow_pos _)))]
      rw [Nat.pow_add, Nat.add_right_comm, Nat.pow_add]
      exact ⟨Nat.mul_le_mul_right _ hle, Nat.mul_lt_mul_of_pos_right hlt (Nat.two_pow_pos _)⟩
    omega

end Format

theorem Format.roundQuotient_mul_self (q : Nat) {d : Nat} (hd : 0 < d) :
    roundQuotient (q * d) d = q := by
  simp [roundQuotient, Nat.mul_div_cancel _ hd, hd]

namespace Format

variable (f : Format)

theorem nearest_le_infinity (num den : Nat) : f.nearest num den ≤ f.infinity :=
  Nat.min_le_right _ _

/-- A magnitude is the nearest one to its own units, over any common denominator. -/
theorem nearest_units_mul (m : Nat) {d : Nat} (hd : 0 < d) :
    f.nearest (f.units m * d) d = min m f.infinity := by
  have hquotient : roundQuotient (f.units m * d) (d * 2 ^ f.binade m) = f.significand m := by
    rw [units, Nat.mul_assoc, Nat.mul_comm (2 ^ f.binade m) d]
    exact roundQuotient_mul_self _ (Nat.mul_pos hd (Nat.two_pow_pos _))
  unfold nearest
  simp only [Nat.mul_div_cancel _ hd, f.log2_units_sub m, hquotient, f.binade_mul_add_significand m]

/-- The magnitude with a given normal significand in a given binade. -/
theorem units_binade_mul_add (b : Nat) {q : Nat} (hlo : 2 ^ f.fractionBits ≤ q)
    (hhi : q < 2 ^ (f.fractionBits + 1)) :
    f.units (b * 2 ^ f.fractionBits + q) = q * 2 ^ b := by
  have hpos : 0 < 2 ^ f.fractionBits := Nat.two_pow_pos _
  obtain ⟨r, rfl⟩ := Nat.exists_eq_add_of_le hlo
  have hr : r < 2 ^ f.fractionBits := by
    rw [Nat.pow_succ] at hhi
    omega
  have hform : b * 2 ^ f.fractionBits + (2 ^ f.fractionBits + r) =
      r + (b + 1) * 2 ^ f.fractionBits := by
    rw [Nat.add_mul]
    omega
  have hnormal : ¬ r + (b + 1) * 2 ^ f.fractionBits < 2 ^ f.fractionBits := by
    rw [Nat.add_mul]
    omega
  have hbinade : f.binade (r + (b + 1) * 2 ^ f.fractionBits) = b := by
    rw [binade, Nat.add_mul_div_right _ _ hpos, Nat.div_eq_of_lt hr]
    omega
  rw [hform, units, hbinade, significand, if_neg hnormal, Nat.add_mul_mod_self_right,
    Nat.mod_eq_of_lt hr]

/-- A whole number whose significand fits into the format is the number of units of a magnitude,
    which lies below the second binade after the power of two in the number. -/
theorem exists_units_eq {s : Nat} (hs : s < 2 ^ (f.fractionBits + 1)) (e : Nat) :
    ∃ m, f.units m = s * 2 ^ e ∧ m < (e + 2) * 2 ^ f.fractionBits := by
  have hpos : 0 < 2 ^ f.fractionBits := Nat.two_pow_pos _
  by_cases hsmall : s * 2 ^ e < 2 ^ f.fractionBits
  · refine ⟨s * 2 ^ e, ?_, ?_⟩
    · simp [units, significand, binade, hsmall, Nat.div_eq_of_lt hsmall]
    · rw [Nat.add_mul]
      omega
  · have hne : s ≠ 0 := by
      rintro rfl
      simp at hsmall
    have hlog : Nat.log2 s ≤ f.fractionBits := Nat.lt_succ_iff.mp ((Nat.log2_lt hne).mpr hs)
    obtain ⟨shift, hshift⟩ := Nat.exists_eq_add_of_le hlog
    have hlo : 2 ^ f.fractionBits ≤ s * 2 ^ shift := by
      rw [hshift, Nat.pow_add]
      exact Nat.mul_le_mul_right _ (Nat.log2_self_le hne)
    have hhi : s * 2 ^ shift < 2 ^ (f.fractionBits + 1) := by
      rw [hshift, Nat.add_right_comm, Nat.pow_add]
      exact Nat.mul_lt_mul_of_pos_right Nat.lt_log2_self (Nat.two_pow_pos _)
    -- The number is no subnormal, so its significand can be shifted up to the hidden bit.
    have hroom : shift ≤ e := by
      apply Nat.le_of_not_lt
      intro hlt
      have hstep := Nat.mul_le_mul_left s (Nat.pow_le_pow_right (by decide : 0 < 2) hlt)
      rw [Nat.pow_succ, ← Nat.mul_assoc] at hstep
      rw [Nat.pow_succ] at hhi
      omega
    obtain ⟨b, rfl⟩ := Nat.exists_eq_add_of_le hroom
    refine ⟨b * 2 ^ f.fractionBits + s * 2 ^ shift, ?_, ?_⟩
    · rw [f.units_binade_mul_add b hlo hhi, Nat.pow_add, Nat.mul_assoc]
    · have hle := Nat.mul_le_mul_right (2 ^ f.fractionBits) (Nat.le_add_left b shift)
      rw [Nat.pow_succ] at hhi
      rw [Nat.add_mul]
      omega

end Format

end DualCall
