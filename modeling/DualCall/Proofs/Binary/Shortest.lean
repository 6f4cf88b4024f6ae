import DualCall.Binary.Shortest
import DualCall.Proofs.Binary.Exactness
import DualCall.Proofs.Text.Numeral

namespace DualCall

-- Powers are those of the core library, whatever other instances are in scope.
attribute [local instance (2000)] instPowNat

namespace Format

theorem roundQuotient_mul_mul (num den : Nat) {k : Nat} (hk : 0 < k) :
    roundQuotient (num * k) (den * k) = roundQuotient num den := by
  have hlow : 2 * (num % den * k) < den * k ↔ 2 * (num % den) < den := by
    rw [← Nat.mul_assoc, Nat.mul_lt_mul_right hk]
  have hhigh : den * k < 2 * (num % den * k) ↔ den < 2 * (num % den) := by
    rw [← Nat.mul_assoc, Nat.mul_lt_mul_right hk]
  simp only [roundQuotient, Nat.mul_div_mul_right _ _ hk, Nat.mul_mod_mul_right, hlow, hhigh]

variable (f : Format)

/-- Rounding sees only the quotient. -/
theorem nearest_mul_mul (num den : Nat) {k : Nat} (hk : 0 < k) :
    f.nearest (num * k) (den * k) = f.nearest num den := by
  have hround (b : Nat) :
      roundQuotient (num * k) (den * k * 2 ^ b) = roundQuotient num (den * 2 ^ b) := by
    rw [Nat.mul_right_comm, roundQuotient_mul_mul _ _ hk]
  simp only [nearest, Nat.mul_div_mul_right _ _ hk, hround]

/-- The units of finite magnitudes stay below the first power of two that is too large for the
    format. -/
theorem units_lt {m : Nat} (hf : 2 ≤ f.exponentBits) (hm : m < f.infinity) :
    f.units m < 2 ^ (f.scale + 2 ^ (f.exponentBits - 1)) := by
  obtain ⟨e, he⟩ := Nat.exists_eq_add_of_le hf
  have hpos : 0 < 2 ^ f.fractionBits := Nat.two_pow_pos _
  have hdouble : 2 ^ f.exponentBits = 2 * 2 ^ (f.exponentBits - 1) := by
    rw [he, Nat.add_comm 2 e, ← Nat.pow_succ']
    rfl
  have hhalf : 2 ≤ 2 ^ (f.exponentBits - 1) := by
    have hle := Nat.pow_le_pow_right (by decide : 0 < 2) (by omega : 1 ≤ f.exponentBits - 1)
    simpa using hle
  have hbinade : f.binade m + 3 ≤ 2 ^ f.exponentBits := by
    have hdiv : m / 2 ^ f.fractionBits < 2 ^ f.exponentBits - 1 :=
      Nat.div_lt_of_lt_mul (by rwa [Nat.mul_comm])
    unfold binade
    omega
  have hexponent : f.fractionBits + 1 + f.binade m ≤ f.scale + 2 ^ (f.exponentBits - 1) := by
    unfold scale
    omega
  calc f.units m = f.significand m * 2 ^ f.binade m := rfl
    _ < 2 ^ (f.fractionBits + 1) * 2 ^ f.binade m :=
      Nat.mul_lt_mul_of_pos_right (f.significand_lt m) (Nat.two_pow_pos _)
    _ = 2 ^ (f.fractionBits + 1 + f.binade m) := (Nat.pow_add _ _ _).symm
    _ ≤ _ := Nat.pow_le_pow_right (by decide) hexponent

theorem units_ne_zero {m : Nat} (hm : m ≠ 0) : f.units m ≠ 0 := by
  have hpos : 0 < 2 ^ f.fractionBits := Nat.two_pow_pos _
  have hsignificand : f.significand m ≠ 0 := by
    unfold significand
    split <;> omega
  exact Nat.mul_ne_zero hsignificand (Nat.ne_of_gt (Nat.two_pow_pos _))

end Format

namespace Decimal

variable (f : Format)

theorem order_mul_ten {c : Nat} (hc : c ≠ 0) (e : Int) :
    order ⟨c * 10, e⟩ = order ⟨c, e + 1⟩ := by
  simp only [order, Text.decimal_mul_ten hc, List.length_append, List.length_singleton]
  omega

theorem nearest_mul_ten (c : Nat) (e : Int) :
    nearest f ⟨c * 10, e⟩ = nearest f ⟨c, e + 1⟩ := by
  by_cases hc : c = 0
  · simp [nearest, hc]
  have hten : c * 10 ≠ 0 := by omega
  simp only [nearest, order_mul_ten hc, hc, hten, if_false]
  congr 2
  -- The power of ten stands above or below the fraction line, or moves across it.
  by_cases he : 0 ≤ e
  · have habs : (e + 1).natAbs = e.natAbs + 1 := by omega
    rw [if_pos he, if_pos (by omega), habs, Nat.pow_succ', Nat.mul_assoc c]
  · by_cases hlast : e = -1
    · subst hlast
      rw [if_neg (by decide), if_pos (by decide)]
      have hscaled := f.nearest_mul_mul (c * f.one) 1 (by decide : 0 < 10)
      simpa [Nat.mul_right_comm] using hscaled
    · have habs : e.natAbs = (e + 1).natAbs + 1 := by omega
      rw [if_neg he, if_neg (by omega), habs, Nat.pow_succ, Nat.mul_right_comm]
      exact f.nearest_mul_mul _ _ (by decide)

/-- Zeros at the end of a coefficient can be moved into the exponent. -/
theorem nearest_mul_ten_pow (c : Nat) (e : Int) (count : Nat) :
    nearest f ⟨c * 10 ^ count, e⟩ = nearest f ⟨c, e + count⟩ := by
  induction count generalizing e with
  | zero => simp
  | succ count ih =>
    rw [Nat.pow_succ, ← Nat.mul_assoc, nearest_mul_ten, ih]
    congr 2
    omega

end Decimal

namespace Format

variable (f : Format)

/-- A number that is not too large for the format is not taken for one. -/
theorem exactDecimal_order_le {m : Nat} (hf : 2 ≤ f.exponentBits) (hm : m < f.infinity)
    (hzero : m ≠ 0) :
    3 * ((f.exactDecimal m).order - 1) ≤ ((2 ^ (f.exponentBits - 1) : Nat) : Int) := by
  generalize hbound : 2 ^ (f.exponentBits - 1) = bound
  have hunits := f.units_lt hf hm
  rw [hbound] at hunits
  have hcoefficient : f.units m * 5 ^ f.scale ≠ 0 :=
    Nat.mul_ne_zero (f.units_ne_zero hzero) (Nat.ne_of_gt (Nat.pow_pos (by decide)))
  have hlength := Text.ten_pow_length_decimal_le hcoefficient
  simp only [exactDecimal, Decimal.order]
  generalize (Text.decimal (f.units m * 5 ^ f.scale)).length = length at hlength ⊢
  apply Int.le_of_not_gt
  intro hgt
  obtain ⟨extra, hextra⟩ : ∃ extra, length - 1 = f.scale + extra :=
    ⟨length - 1 - f.scale, by omega⟩
  -- Then `10 ^ extra` would be below `2 ^ bound`, and `8 ^ extra` is not.
  have hlt : 10 ^ f.scale * 10 ^ extra < 10 ^ f.scale * 2 ^ bound := by
    calc 10 ^ f.scale * 10 ^ extra = 10 ^ (length - 1) := by rw [hextra, Nat.pow_add]
      _ ≤ f.units m * 5 ^ f.scale := hlength
      _ < 2 ^ (f.scale + bound) * 5 ^ f.scale :=
        Nat.mul_lt_mul_of_pos_right hunits (Nat.pow_pos (by decide))
      _ = 10 ^ f.scale * 2 ^ bound := by
        rw [Nat.pow_add, Nat.mul_right_comm, ← Nat.mul_pow]
  have hpower := Nat.lt_of_mul_lt_mul_left hlt
  have height : 2 ^ bound ≤ 10 ^ extra := by
    calc 2 ^ bound ≤ 2 ^ (3 * extra) := Nat.pow_le_pow_right (by decide) (by omega)
      _ = 8 ^ extra := by rw [Nat.pow_mul]
      _ ≤ 10 ^ extra := Nat.pow_le_pow_left (by decide) _
  omega

/-- A number of at least one unit is not taken for less than half of one. -/
theorem exactDecimal_le_order {m : Nat} (hzero : m ≠ 0) :
    -((f.scale : Int) + 1) ≤ 3 * (f.exactDecimal m).order := by
  have hunits := Nat.pos_of_ne_zero (f.units_ne_zero hzero)
  have hlength := Text.lt_ten_pow_length_decimal (f.units m * 5 ^ f.scale)
  simp only [exactDecimal, Decimal.order]
  generalize (Text.decimal (f.units m * 5 ^ f.scale)).length = length at hlength ⊢
  apply Int.le_of_not_gt
  intro hgt
  obtain ⟨gap, hgap⟩ : ∃ gap, f.scale = length + gap := ⟨f.scale - length, by omega⟩
  have hlt : 5 ^ f.scale * 10 ^ gap < 5 ^ f.scale * 2 ^ f.scale := by
    calc 5 ^ f.scale * 10 ^ gap ≤ f.units m * 5 ^ f.scale * 10 ^ gap :=
          Nat.mul_le_mul_right _ (Nat.le_mul_of_pos_left _ hunits)
      _ < 10 ^ length * 10 ^ gap :=
        Nat.mul_lt_mul_of_pos_right hlength (Nat.pow_pos (by decide))
      _ = 10 ^ f.scale := by rw [hgap, Nat.pow_add]
      _ = 5 ^ f.scale * 2 ^ f.scale := by rw [← Nat.mul_pow]
  have hpower := Nat.lt_of_mul_lt_mul_left hlt
  have height : 2 ^ f.scale ≤ 10 ^ gap := by
    calc 2 ^ f.scale ≤ 2 ^ (3 * gap) := Nat.pow_le_pow_right (by decide) (by omega)
      _ = 8 ^ gap := by rw [Nat.pow_mul]
      _ ≤ 10 ^ gap := Nat.pow_le_pow_left (by decide) _
  omega

/-- The decimal that is equal to a finite magnitude reads back as it. -/
theorem nearest_exactDecimal {m : Nat} (hf : 2 ≤ f.exponentBits) (hm : m < f.infinity)
    (hzero : m ≠ 0) : (f.exactDecimal m).nearest f = m := by
  have hhigh := f.exactDecimal_order_le hf hm hzero
  have hlow := f.exactDecimal_le_order hzero
  have hcoefficient : (f.exactDecimal m).coefficient ≠ 0 :=
    Nat.mul_ne_zero (f.units_ne_zero hzero) (Nat.ne_of_gt (Nat.pow_pos (by decide)))
  rw [Decimal.nearest, if_neg hcoefficient, if_neg (Int.not_lt.mpr hhigh),
    if_neg (Int.not_lt.mpr hlow)]
  simp only [exactDecimal, Int.natAbs_neg, Int.natAbs_natCast]
  have hten : 5 ^ f.scale * f.one = 10 ^ f.scale := by rw [one, ← Nat.mul_pow]
  have hpos : 0 < 10 ^ f.scale := Nat.pow_pos (by decide)
  by_cases hscale : f.scale = 0
  · have hnearest := f.nearest_units_mul m (by decide : 0 < 1)
    rw [Nat.mul_one] at hnearest
    simpa [hscale, one, Nat.min_eq_left (Nat.le_of_lt hm)] using hnearest
  · rw [if_neg (by omega), Nat.mul_assoc, hten, f.nearest_units_mul m hpos,
      Nat.min_eq_left (Nat.le_of_lt hm)]

theorem nearest_of_readsBack? {halfUp : Bool} {m : Nat} {e : Int} {d : Decimal}
    (hd : f.readsBack? halfUp m e = some d) : d.nearest f = m := by
  simp only [readsBack?] at hd
  split at hd
  · next hboth =>
    obtain ⟨hbelow, habove⟩ := hboth
    rw [← Option.some.inj hd]
    simp only [apply_ite (Decimal.nearest f), hbelow, habove, ite_self]
  · split at hd
    · next hbelow =>
      cases hd
      exact hbelow
    · split at hd
      · next habove =>
        cases hd
        exact habove
      · cases hd

/-- The shortest decimal of a finite magnitude reads back as it. -/
theorem nearest_shortest {m : Nat} (hf : 2 ≤ f.exponentBits) (hm : m < f.infinity)
    (hzero : m ≠ 0) (halfUp : Bool) : (f.shortest halfUp m).nearest f = m := by
  simp only [shortest]
  cases hfound : (List.range 17).findSome? fun (n : Nat) =>
      f.readsBack? halfUp m (f.decimalOrder m - (n + 1)) with
  | none => exact f.nearest_exactDecimal hf hm hzero
  | some d =>
    obtain ⟨n, -, hn⟩ := List.exists_of_findSome?_eq_some hfound
    exact f.nearest_of_readsBack? hn

end Format

end DualCall
