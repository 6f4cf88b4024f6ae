import DualCall.Proofs.Binary.Layout
import DualCall.Proofs.Binary.Rounding
import DualCall.Proofs.Text.Grammar

namespace DualCall

-- Powers are those of the core library, whatever other instances are in scope.
attribute [local instance (2000)] instPowNat

namespace Decimal

/-- Digits with an optional point before, among or behind them, and the number that they are. -/
inductive Mantissa : List Char → ℚ → Prop
  | whole {digits : List Char} {n : Nat} (hdigits : Text.Digits 10 digits n) (hne : digits ≠ []) :
      Mantissa digits n
  | pointed {whole fraction : List Char} {n m : Nat} (hwhole : Text.Digits 10 whole n)
      (hfraction : Text.Digits 10 fraction m) (hne : whole ≠ [] ∨ fraction ≠ []) :
      Mantissa (whole ++ '.' :: fraction) (n + m / 10 ^ fraction.length)

/-- An optional exponent of ten. -/
inductive Exponent : List Char → Int → Prop
  | none : Exponent [] 0
  | marked {mark : Char} {cs : List Char} {n : Int} (hmark : mark = 'e' ∨ mark = 'E')
      (hinteger : Text.Integer cs n) : Exponent (mark :: cs) n

/-- A decimal numeral without sign, and the number that it stands for. -/
inductive Numeral : List Char → ℚ → Prop
  | intro {mantissa exponent : List Char} {x : ℚ} {n : Int} (hmantissa : Mantissa mantissa x)
      (hexponent : Exponent exponent n) : Numeral (mantissa ++ exponent) (x * 10 ^ n)

theorem readExponent?_eq_some_iff {cs : List Char} {n : Int} :
    readExponent? cs = some n ↔ Exponent cs n := by
  constructor
  · intro hread
    cases cs with
    | nil =>
      cases hread
      exact .none
    | cons mark cs =>
      rw [readExponent?, Option.ite_none_right_eq_some] at hread
      exact .marked hread.1 (Text.readInt?_eq_some_iff.mp hread.2)
  · rintro (_ | ⟨hmark, hinteger⟩)
    · rfl
    · rw [readExponent?, if_pos hmark, Text.readInt?_eq_some_iff.mpr hinteger]

theorem Exponent.head? {cs : List Char} {n : Int} (hexponent : Exponent cs n) :
    ∀ c ∈ cs.head?, Text.isDigit c = false ∧ c ≠ '.' := by
  rintro c hc
  cases hexponent with
  | none => cases hc
  | marked hmark =>
    cases hc
    rcases hmark with rfl | rfl <;> decide

theorem value_shift (c : Nat) (e : Int) (n : Int) :
    value ⟨c, e + n⟩ = value ⟨c, e⟩ * 10 ^ n := by
  rw [value, value, zpow_add₀ (by norm_num), mul_assoc]

/-- Digits around a point are a decimal with as many places as there are digits behind the point. -/
theorem value_fraction (whole fraction : List Char) :
    value ⟨Text.natOfDigits 10 (whole ++ fraction), -(fraction.length : Int)⟩ =
      Text.natOfDigits 10 whole + Text.natOfDigits 10 fraction / 10 ^ fraction.length := by
  have hten : (10 : ℚ) ^ fraction.length ≠ 0 := pow_ne_zero _ (by norm_num)
  rw [value, Text.natOfDigits_append, zpow_neg, zpow_natCast, ← div_eq_mul_inv]
  push_cast
  rw [add_div, mul_div_cancel_right₀ _ hten]

/-- Behind a mantissa the reader goes on with the exponent. -/
theorem Mantissa.read? {cs : List Char} {x : ℚ} (hmantissa : Mantissa cs x) :
    ∃ c e, value ⟨c, e⟩ = x ∧ ∀ rest : List Char,
      (∀ c ∈ rest.head?, Text.isDigit c = false ∧ c ≠ '.') →
      Decimal.read? (cs ++ rest) = (readExponent? rest).map fun n => ⟨c, e + n⟩ := by
  cases hmantissa with
  | @whole _ n hdigits hne =>
    refine ⟨n, 0, by simp [value], fun rest hrest => ?_⟩
    rw [read?_whole (fun _ => hdigits.isDigit) hrest, if_neg hne,
      ((Text.digits_iff (by decide)).mp hdigits).2]
    simp
  | @pointed whole fraction n m hwhole hfraction hne =>
    refine ⟨Text.natOfDigits 10 (whole ++ fraction), -(fraction.length : Int), ?_,
      fun rest hrest => ?_⟩
    · rw [value_fraction, ((Text.digits_iff (by decide)).mp hwhole).2,
        ((Text.digits_iff (by decide)).mp hfraction).2]
    · have hsome : ¬ (whole = [] ∧ fraction = []) := fun h => hne.elim (· h.1) (· h.2)
      rw [List.append_assoc, List.cons_append, read?_point (fun _ => hwhole.isDigit)
        (fun _ => hfraction.isDigit) (fun c hc => (hrest c hc).1), if_neg hsome]
      simp only [Int.sub_eq_add_neg, Int.add_comm]

theorem Mantissa.head {cs : List Char} {x : ℚ} (hmantissa : Mantissa cs x) :
    ∃ c rest, cs = c :: rest ∧ (Text.isDigit c ∨ c = '.') := by
  have hdigits {digits : List Char} {n : Nat} (hdigits : Text.Digits 10 digits n)
      (hne : digits ≠ []) : ∃ c rest, digits = c :: rest ∧ Text.isDigit c := by
    obtain ⟨c, rest, rfl⟩ := List.exists_cons_of_ne_nil hne
    exact ⟨c, rest, rfl, hdigits.isDigit List.mem_cons_self⟩
  cases hmantissa with
  | whole hwhole hne =>
    obtain ⟨c, rest, rfl, hc⟩ := hdigits hwhole hne
    exact ⟨c, rest, rfl, .inl hc⟩
  | @pointed whole fraction _ _ hwhole _ _ =>
    by_cases hempty : whole = []
    · subst hempty
      exact ⟨'.', fraction, rfl, .inr rfl⟩
    · obtain ⟨c, rest, rfl, hc⟩ := hdigits hwhole hempty
      exact ⟨c, _, rfl, .inl hc⟩

theorem Numeral.head {cs : List Char} {x : ℚ} (hnumeral : Numeral cs x) :
    ∃ c rest, cs = c :: rest ∧ (Text.isDigit c ∨ c = '.') := by
  obtain ⟨hmantissa, -⟩ := hnumeral
  obtain ⟨c, rest, rfl, hc⟩ := hmantissa.head
  exact ⟨c, _, rfl, hc⟩

/-- A numeral of the grammar is read as a decimal that is the number for which it stands. -/
theorem Numeral.read? {cs : List Char} {x : ℚ} (hnumeral : Numeral cs x) :
    ∃ d, Decimal.read? cs = some d ∧ d.value = x := by
  obtain ⟨hmantissa, hexponent⟩ := hnumeral
  obtain ⟨c, e, rfl, hread⟩ := hmantissa.read?
  refine ⟨_, ?_, value_shift c e _⟩
  rw [hread _ hexponent.head?, readExponent?_eq_some_iff.mpr hexponent]
  rfl

/-- Only numerals of the grammar are read. -/
theorem numeral_of_read? {cs : List Char} {d : Decimal} (hread : Decimal.read? cs = some d) :
    Numeral cs d.value := by
  have hdigits {run : List Char} (hrun : ∀ c ∈ run, Text.isDigit c) :
      Text.Digits 10 run (Text.natOfDigits 10 run) :=
    (Text.digits_iff (by decide)).mpr ⟨hrun, rfl⟩
  obtain ⟨whole, after, rfl, hwhole, hafter⟩ := Text.exists_span Text.isDigit cs
  by_cases hpoint : ∃ tail, after = '.' :: tail
  · obtain ⟨tail, rfl⟩ := hpoint
    obtain ⟨fraction, rest, rfl, hfraction, hrest⟩ := Text.exists_span Text.isDigit tail
    rw [read?_point hwhole hfraction hrest, Option.ite_none_left_eq_some] at hread
    obtain ⟨n, hexponent, rfl⟩ := Option.map_eq_some_iff.mp hread.2
    have hne : whole ≠ [] ∨ fraction ≠ [] := by
      rw [← not_and_or]
      exact hread.1
    have hnumeral := Numeral.intro (.pointed (hdigits hwhole) (hdigits hfraction) hne)
      (readExponent?_eq_some_iff.mp hexponent)
    rwa [Int.sub_eq_add_neg, Int.add_comm, value_shift, value_fraction, ← List.cons_append,
      ← List.append_assoc]
  · have hrest : ∀ c ∈ after.head?, Text.isDigit c = false ∧ c ≠ '.' := by
      refine fun c hc => ⟨hafter c hc, ?_⟩
      rintro rfl
      obtain ⟨tail, rfl⟩ := List.head?_eq_some_iff.mp hc
      exact hpoint ⟨tail, rfl⟩
    rw [read?_whole hwhole hrest, Option.ite_none_left_eq_some] at hread
    obtain ⟨n, hexponent, rfl⟩ := Option.map_eq_some_iff.mp hread.2
    exact .intro (.whole (hdigits hwhole) hread.1) (readExponent?_eq_some_iff.mp hexponent)

end Decimal

theorem Text.lowerAscii_eq_toLower : lowerAscii = Char.toLower := by
  funext c
  by_cases hupper : 'A' ≤ c ∧ c ≤ 'Z'
  · have hall : ∀ n < 26, lowerAscii (Char.ofNat (65 + n)) = (Char.ofNat (65 + n)).toLower := by
      decide
    have hle (a b : Char) : a ≤ b ↔ a.toNat ≤ b.toNat := UInt32.le_iff_toNat_le
    have hbounds : 'A'.toNat = 65 ∧ 'Z'.toNat = 90 := by decide
    simp only [hle] at hupper
    rw [← Char.ofNat_toNat c, ← Nat.add_sub_cancel' (by omega : 65 ≤ c.toNat)]
    exact hall _ (by omega)
  · have hother : ¬ (c.val ≥ 'A'.val ∧ c.val ≤ 'Z'.val) := hupper
    rw [lowerAscii, if_neg hupper]
    exact (show c.toLower = c from dif_neg hother).symm

namespace Binary64

/-- A floating-point number as it is written: an optional sign, and a decimal or a word in any case.
    Of a decimal the magnitude is the nearest one. -/
inductive Numeral : List Char → Binary64 → Prop
  | infinity {sign word : List Char} {negative : Bool} (hsign : Text.Sign sign negative)
      (hword : word.map Char.toLower = "inf".toList ∨ word.map Char.toLower = "infinity".toList) :
      Numeral (sign ++ word) (encode ⟨negative, Format.double.infinity⟩)
  | nan {sign word : List Char} {negative : Bool} (hsign : Text.Sign sign negative)
      (hword : word.map Char.toLower = "nan".toList) :
      Numeral (sign ++ word) (encode ⟨negative, Format.double.quiet⟩)
  | decimal {sign cs : List Char} {negative : Bool} {x : ℚ} {magnitude : Nat}
      (hsign : Text.Sign sign negative) (hdecimal : Decimal.Numeral cs x)
      (hnearest : Format.double.IsNearest x magnitude) :
      Numeral (sign ++ cs) (encode ⟨negative, magnitude⟩)

theorem isNearest_double (d : Decimal) : Format.double.IsNearest d.value (d.nearest .double) :=
  Decimal.isNearest_nearest (by decide) (by decide) d

theorem numeral_of_read? {cs : List Char} {x : Binary64} (hread : read? cs = some x) :
    Numeral cs x := by
  obtain ⟨sign, hsign, hcs⟩ := Text.exists_sign_takeSign cs
  unfold read? at hread
  generalize Text.takeSign cs = parts at hread hsign hcs
  obtain ⟨negative, unsigned⟩ := parts
  simp only [Text.lowerAscii_eq_toLower] at hread
  subst hcs
  split at hread
  · next hword =>
    obtain rfl := Option.some.inj hread
    exact .infinity hsign hword
  · split at hread
    · next hword =>
      obtain rfl := Option.some.inj hread
      exact .nan hsign hword
    · obtain ⟨d, hd, rfl⟩ := Option.map_eq_some_iff.mp hread
      exact .decimal hsign (Decimal.numeral_of_read? hd) (isNearest_double d)

/-- What stands behind the sign has none itself. -/
theorem takeSign_word {sign word : List Char} {negative : Bool} (hsign : Text.Sign sign negative)
    {c : Char} {rest : List Char} (hword : word.map Char.toLower = c :: rest)
    (hminus : '-'.toLower ≠ c) (hplus : '+'.toLower ≠ c) :
    Text.takeSign (sign ++ word) = (negative, word) := by
  refine Text.takeSign_append hsign fun d hd => ?_
  obtain ⟨tail, rfl⟩ := List.head?_eq_some_iff.mp hd
  rw [List.map_cons, List.cons_eq_cons] at hword
  constructor
  · rintro rfl
    exact hminus hword.1
  · rintro rfl
    exact hplus hword.1

theorem Numeral.read? {cs : List Char} {x : Binary64} (hnumeral : Numeral cs x) :
    Binary64.read? cs = some x := by
  cases hnumeral with
  | infinity hsign hword =>
    have htake : Text.takeSign _ = _ := hword.elim
      (takeSign_word hsign · (by decide) (by decide))
      (takeSign_word hsign · (by decide) (by decide))
    simp only [Binary64.read?, htake, Text.lowerAscii_eq_toLower, hword, if_true]
  | nan hsign hword =>
    have htake := takeSign_word hsign hword (by decide) (by decide)
    simp [Binary64.read?, htake, Text.lowerAscii_eq_toLower, hword]
  | decimal hsign hdecimal hnearest =>
    obtain ⟨d, hd, rfl⟩ := hdecimal.read?
    obtain ⟨c, rest, rfl, hc⟩ := hdecimal.head
    have hunsigned : ∀ d ∈ (c :: rest).head?, d ≠ '-' ∧ d ≠ '+' := by
      rintro d hd
      obtain rfl : c = d := Option.some.inj hd
      constructor
      · rintro rfl
        exact absurd hc (by decide)
      · rintro rfl
        exact absurd hc (by decide)
    have htake := Text.takeSign_append hsign hunsigned
    have hlower : Text.lowerAscii c = c := by
      rcases hc with hdigit | rfl
      · exact Text.lowerAscii_of_isDigit hdigit
      · decide
    have hword {first : Char} {others : List Char} (hfirst : ¬ (Text.isDigit first ∨ first = '.')) :
        (c :: rest).map Text.lowerAscii ≠ first :: others := by
      rw [List.map_cons, hlower]
      rintro ⟨⟩
      exact hfirst hc
    have hinfinite : ¬ ((c :: rest).map Text.lowerAscii = "inf".toList ∨
        (c :: rest).map Text.lowerAscii = "infinity".toList) :=
      not_or.mpr ⟨hword (by decide), hword (by decide)⟩
    have hnan : (c :: rest).map Text.lowerAscii ≠ "nan".toList := hword (by decide)
    rw [hnearest.unique (isNearest_double d)]
    simp only [Binary64.read?, htake, if_neg hinfinite, if_neg hnan, hd, Option.map_some, ofDecimal]

theorem read?_eq_some_iff {cs : List Char} {x : Binary64} : read? cs = some x ↔ Numeral cs x :=
  ⟨numeral_of_read?, Numeral.read?⟩

end Binary64

end DualCall
