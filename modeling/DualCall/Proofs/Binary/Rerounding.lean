import DualCall.Proofs.Binary.Nearest

namespace DualCall

-- Powers are those of the core library, whatever other instances are in scope.
attribute [local instance (2000)] instPowNat

namespace Format

/-- The middles between neighbours of a format are numbers of a finer one. -/
def Refines (fine coarse : Format) : Prop :=
  ∀ k < coarse.infinity, ∃ j ≤ fine.infinity,
    2 * fine.value j = coarse.value k + coarse.value (k + 1)

/-- A number that is moved onto the middle between two neighbours, and from there to the one that
    lies farther from where it was. -/
def Overshoots (f : Format) (x moved : ℚ) (m : Nat) : Prop :=
  ∃ k < f.infinity, 2 * moved = f.value k + f.value (k + 1) ∧
    (x < moved ∧ m = k + 1 ∨ moved < x ∧ m = k)

variable {f fine : Format} {x : ℚ} {m k w : Nat}

/-- What is nearest to a number lies on the same side of its middles to all others. -/
theorem IsNearest.middle_le (hm : f.IsNearest x m) (hk : k < m) :
    f.value k + f.value m ≤ 2 * x :=
  (abs_sub_le_abs_sub_iff (f.value_strictMono hk) x).1.mp
    (hm.dist_le k (hk.le.trans hm.le_infinity))

theorem IsNearest.le_middle (hm : f.IsNearest x m) (hk : m < k) (hinfinity : k ≤ f.infinity) :
    2 * x ≤ f.value m + f.value k :=
  (abs_sub_le_abs_sub_iff (f.value_strictMono hk) x).2.mp (hm.dist_le k hinfinity)

theorem IsNearest.not_overshoots {moved : ℚ} (hm : f.IsNearest x m) : ¬ f.Overshoots x moved m := by
  rintro ⟨k, hk, hmiddle, ⟨hlt, rfl⟩ | ⟨hlt, rfl⟩⟩
  · have hle := hm.middle_le (Nat.lt_succ_self k)
    linarith
  · have hle := hm.le_middle (Nat.lt_succ_self m) hk
    linarith

section

variable (hfine : fine.Refines f) (hw : fine.IsNearest x w) (hm : f.IsNearest (fine.value w) m)
include hfine hw hm

/-- The first rounding does not go past a middle, and the second one only leaves a middle. -/
theorem IsNearest.middle_le_of_not_overshoots (hnot : ¬ f.Overshoots x (fine.value w) m)
    (hk : k < m) : f.value k + f.value m ≤ 2 * x := by
  obtain ⟨a, rfl⟩ : ∃ a, m = a + 1 := ⟨m - 1, by omega⟩
  have ha : a < f.infinity := hm.le_infinity
  obtain ⟨j, hj, hmiddle⟩ := hfine a ha
  have hka := f.value_strictMono.monotone (Nat.le_of_lt_succ hk)
  have hge := hm.middle_le (Nat.lt_succ_self a)
  by_contra hlt
  have hle := hw.value_le hj (by linarith)
  exact hnot ⟨a, ha, by linarith, .inl ⟨by linarith, rfl⟩⟩

theorem IsNearest.le_middle_of_not_overshoots (hnot : ¬ f.Overshoots x (fine.value w) m)
    (hk : m < k) (hinfinity : k ≤ f.infinity) : 2 * x ≤ f.value m + f.value k := by
  have hm' : m < f.infinity := Nat.lt_of_lt_of_le hk hinfinity
  obtain ⟨j, hj, hmiddle⟩ := hfine m hm'
  have hmk := f.value_strictMono.monotone (Nat.succ_le_of_lt hk)
  have hle := hm.le_middle (Nat.lt_succ_self m) hm'
  by_contra hlt
  have hge := hw.le_value hj (by linarith)
  exact hnot ⟨m, hm', by linarith, .inr ⟨by linarith, rfl⟩⟩

/-- Rounding twice is rounding once, unless it overshoots. -/
theorem IsNearest.isNearest_iff : f.IsNearest x m ↔ ¬ f.Overshoots x (fine.value w) m := by
  refine ⟨IsNearest.not_overshoots, fun hnot => ?_⟩
  have hbelow {k : Nat} := IsNearest.middle_le_of_not_overshoots hfine hw hm hnot (k := k)
  have habove {k : Nat} := IsNearest.le_middle_of_not_overshoots hfine hw hm hnot (k := k)
  refine isNearest_of_midpoints hm.le_infinity (fun _ => hbelow) (fun _ hk hlt => habove hlt hk) ?_
  rintro ⟨k, hk, hne, htie⟩
  -- A tie is with a neighbour, and its middle is not moved by the first rounding.
  obtain ⟨a, ha, hmiddle⟩ : ∃ a < f.infinity, 2 * x = f.value a + f.value (a + 1) := by
    obtain hlt | hgt := Nat.lt_or_gt_of_ne hne
    · obtain ⟨a, rfl⟩ : ∃ a, m = a + 1 := ⟨m - 1, by omega⟩
      have hle := hbelow (Nat.lt_succ_self a)
      have hmono := f.value_strictMono.monotone (Nat.le_of_lt_succ hlt)
      exact ⟨a, hm.le_infinity, by linarith⟩
    · have hle := habove (Nat.lt_succ_self m) (Nat.lt_of_lt_of_le hgt hk)
      have hmono := f.value_strictMono.monotone (Nat.succ_le_of_lt hgt)
      exact ⟨m, Nat.lt_of_lt_of_le hgt hk, by linarith⟩
  obtain ⟨j, hj, hvalue⟩ := hfine a ha
  have hx : x = fine.value j := by linarith
  have hsame : fine.value w = x :=
    le_antisymm (hx ▸ hw.value_le hj hx.le) (hx ▸ hw.le_value hj hx.ge)
  refine hm.even_of_tie k hk hne ?_
  rw [hsame, ← abs_neg]
  congr 1
  linarith

end

/-- The sum of two neighbours counts the unit of the lower one an odd number of times. -/
theorem units_add_units_succ (f : Format) (m : Nat) :
    f.units m + f.units (m + 1) = (2 * f.significand m + 1) * 2 ^ f.binade m := by
  rw [f.units_succ, units, Nat.add_mul, Nat.one_mul, Nat.mul_assoc]
  omega

/-- The middles of the format of 32 bits have one bit more, and that of 64 bits has room for it. -/
theorem double_refines_single : double.Refines single := by
  intro k hk
  have hs : 2 * single.significand k + 1 < 2 ^ (double.fractionBits + 1) := by
    have hlt := single.significand_lt k
    have hroom : 2 * 2 ^ (single.fractionBits + 1) < 2 ^ (double.fractionBits + 1) := by decide
    omega
  obtain ⟨j, hunits, hj⟩ := double.exists_units_eq hs (single.binade k + (refinement - 1))
  have hsum : 2 * double.units j = (single.units k + single.units (k + 1)) * 2 ^ refinement := by
    have hdouble : 2 ^ refinement = 2 * 2 ^ (refinement - 1) := by
      rw [← Nat.pow_succ', Nat.succ_eq_add_one, Nat.sub_add_cancel (by decide)]
    rw [hunits, units_add_units_succ, hdouble, Nat.pow_add]
    generalize 2 ^ (refinement - 1) = half
    ring
  refine ⟨j, (hj.trans_le ?_).le, ?_⟩
  · refine Nat.le_trans (Nat.mul_le_mul_right _ ?_) (refined_binade_le_infinity hk)
    omega
  · have hpow : ((2 ^ refinement : Nat) : ℚ) ≠ 0 := Nat.cast_ne_zero.mpr (Nat.two_pow_pos _).ne'
    calc 2 * double.value j
      _ = ((2 * double.units j : Nat) : ℚ) / double.one := by
        rw [value, Nat.cast_mul, Nat.cast_ofNat, mul_div_assoc]
      _ = ((single.units k + single.units (k + 1) : Nat) : ℚ) / single.one := by
        rw [hsum, double_one, Nat.cast_mul, Nat.cast_mul, mul_div_mul_right _ _ hpow]
      _ = single.value k + single.value (k + 1) := by
        rw [Nat.cast_add, add_div, value, value]

end Format

/-- Rounding a datum on to a coarser format gives the nearest of it, unless it overshoots. -/
theorem Signed.IsNearest.isNearest_iff_not_overshoots {fine coarse : Format} {x : ℚ}
    {wide narrow : Signed} (hfine : fine.Refines coarse) (hwide : wide.IsNearest fine x)
    (hsign : wide.negative = decide (wide.value fine < 0))
    (hnarrow : narrow.IsNearest coarse (wide.value fine)) :
    narrow.IsNearest coarse x ↔
      ¬ coarse.Overshoots |x| |wide.value fine| narrow.magnitude := by
  have htwice := hnarrow.magnitude
  rw [abs_value] at htwice ⊢
  have honce := Format.IsNearest.isNearest_iff hfine hwide.magnitude htwice
  refine ⟨fun hnear => honce.mp hnear.magnitude, fun hnot => ?_⟩
  exact isNearest_of_magnitude hnarrow.finite
    (hnarrow.negative_eq.trans (hsign.symm.trans hwide.negative_eq)) (honce.mpr hnot)

end DualCall
