import DualCall.Proofs.Text.Numeral

namespace DualCall.Text

-- Powers are those of the core library, whatever other instances are in scope.
attribute [local instance (2000)] instPowNat

/-- A digit of a base up to sixteen and its value. Letters may be of either case. -/
def IsDigitOf (base : Nat) (c : Char) (value : Nat) : Prop :=
  value < base ∧ ("0123456789abcdef".toList[value]? = some c ∨
    "0123456789ABCDEF".toList[value]? = some c)

/-- Any number of digits of a base, and the number that they stand for. -/
inductive Digits (base : Nat) : List Char → Nat → Prop
  | nil : Digits base [] 0
  | snoc {cs : List Char} {c : Char} {n value : Nat} (front : Digits base cs n)
      (last : IsDigitOf base c value) : Digits base (cs ++ [c]) (n * base + value)

/-- An optional sign. It is negative for a minus. -/
inductive Sign : List Char → Bool → Prop
  | none : Sign [] false
  | plus : Sign ['+'] false
  | minus : Sign ['-'] true

/-- An integer: an optional sign, and one or more decimal digits. -/
inductive Integer : List Char → Int → Prop
  | intro {sign digits : List Char} {negative : Bool} {n : Nat} (hsign : Sign sign negative)
      (hdigits : Digits 10 digits n) (hne : digits ≠ []) :
      Integer (sign ++ digits) (if negative then -(n : Int) else n)

theorem isDigitOf_iff {base : Nat} (hbase : base ≤ 16) {c : Char} {value : Nat} :
    IsDigitOf base c value ↔ digitValue? base c = some value := by
  have hlower : ∀ v < 16, "0123456789abcdef".toList[v]? = some (digitChar v) := by decide
  have hupper : ∀ v < 16, "0123456789ABCDEF".toList[v]? = some (digitChar v).toUpper := by decide
  constructor
  · rintro ⟨hvalue, hc | hc⟩
    · rw [hlower value (by omega)] at hc
      rw [← Option.some.inj hc]
      exact digitValue?_digitChar hvalue hbase
    · have hall : ∀ b < 17, ∀ v < b, digitValue? b (digitChar v).toUpper = some v := by
        decide +kernel
      rw [hupper value (by omega)] at hc
      rw [← Option.some.inj hc]
      exact hall base (by omega) value hvalue
  · intro hc
    have hle (a b : Char) : a ≤ b ↔ a.toNat ≤ b.toNat := UInt32.le_iff_toNat_le
    have hbounds : '0'.toNat = 48 ∧ '9'.toNat = 57 ∧ 'a'.toNat = 97 ∧ 'A'.toNat = 65 := by decide
    have hchar {offset : Nat} (hread : c.toNat - offset = value) (hoffset : offset ≤ c.toNat) :
        Char.ofNat (offset + value) = c := by
      rw [← hread, Nat.add_sub_cancel' hoffset, Char.ofNat_toNat]
    simp only [digitValue?, hle, Option.ite_none_right_eq_some, Option.some.injEq] at hc
    obtain ⟨hvalue, hread⟩ := hc
    rw [hread] at hvalue
    refine ⟨hvalue, ?_⟩
    rw [hlower value (by omega), hupper value (by omega), digitChar, Option.some.injEq,
      Option.some.injEq]
    split at hread
    · rw [if_pos (by omega)]
      exact .inl (hchar hread (by omega))
    · split at hread
      · rw [if_neg (by omega)]
        exact .inl (hchar hread (by omega))
      · split at hread
        · have hcase : ∀ v < 16, 10 ≤ v → (Char.ofNat (87 + v)).toUpper = Char.ofNat (55 + v) := by
            decide
          rw [if_neg (by omega), hcase value (by omega) (by omega)]
          exact .inr (hchar hread (by omega))
        · exact absurd hvalue (by omega)

section

variable {base : Nat} (hbase : base ≤ 16)
include hbase

/-- Digits are digits one by one, and stand for the number that is read from them. -/
theorem digits_iff {cs : List Char} {n : Nat} :
    Digits base cs n ↔ (∀ c ∈ cs, (digitValue? base c).isSome) ∧ natOfDigits base cs = n := by
  constructor
  · intro hdigits
    induction hdigits with
    | nil => simp [natOfDigits, natOfDigitsFrom]
    | snoc _ hlast ih =>
      obtain ⟨hfront, rfl⟩ := ih
      rw [isDigitOf_iff hbase] at hlast
      refine ⟨?_, ?_⟩
      · simpa [or_imp, forall_and, hlast] using hfront
      · rw [natOfDigits, natOfDigitsFrom_append, ← natOfDigits]
        simp [natOfDigitsFrom, hlast]
  · rintro ⟨hall, rfl⟩
    induction cs using List.reverseRecOn with
    | nil => exact .nil
    | append_singleton cs c ih =>
      obtain ⟨value, hvalue⟩ := Option.isSome_iff_exists.mp (hall c (by simp))
      have hlast : natOfDigits base (cs ++ [c]) = natOfDigits base cs * base + value := by
        rw [natOfDigits, natOfDigitsFrom_append, ← natOfDigits]
        simp [natOfDigitsFrom, hvalue]
      rw [hlast]
      exact .snoc (ih fun d hd => hall d (List.mem_append_left _ hd))
        ((isDigitOf_iff hbase).mpr hvalue)

theorem readNat?_eq_some_iff {cs : List Char} {n : Nat} :
    readNat? base cs = some n ↔ Digits base cs n ∧ cs ≠ [] := by
  rw [digits_iff hbase, readNat?]
  constructor
  · intro hread
    split at hread
    · next h => exact ⟨⟨List.all_eq_true.mp h.2, Option.some.inj hread⟩, h.1⟩
    · cases hread
  · rintro ⟨⟨hall, rfl⟩, hne⟩
    rw [if_pos ⟨hne, List.all_eq_true.mpr hall⟩]

end

/-- Decimal digits are no signs and no letters. -/
theorem Digits.isDigit {cs : List Char} {n : Nat} (hdigits : Digits 10 cs n) {c : Char}
    (hc : c ∈ cs) : Text.isDigit c :=
  ((digits_iff (by decide)).mp hdigits).1 c hc

/-- Every text has a sign, if only the empty one, and something behind it. -/
theorem exists_sign_takeSign (cs : List Char) :
    ∃ sign, Sign sign (takeSign cs).1 ∧ cs = sign ++ (takeSign cs).2 := by
  unfold takeSign
  split
  · exact ⟨_, .minus, rfl⟩
  · exact ⟨_, .plus, rfl⟩
  · exact ⟨_, .none, rfl⟩

theorem takeSign_append {sign cs : List Char} {negative : Bool} (hsign : Sign sign negative)
    (hcs : ∀ c ∈ cs.head?, c ≠ '-' ∧ c ≠ '+') : takeSign (sign ++ cs) = (negative, cs) := by
  cases hsign with
  | plus | minus => rfl
  | none =>
    rw [List.nil_append]
    unfold takeSign
    split
    · exact absurd rfl (hcs '-' rfl).1
    · exact absurd rfl (hcs '+' rfl).2
    · rfl

theorem Digits.takeSign {sign digits : List Char} {negative : Bool} {n : Nat}
    (hsign : Sign sign negative) (hdigits : Digits 10 digits n) :
    Text.takeSign (sign ++ digits) = (negative, digits) := by
  refine takeSign_append hsign fun c hc => ?_
  have hdigit := hdigits.isDigit (List.mem_of_mem_head? hc)
  constructor
  · rintro rfl
    exact absurd hdigit (by decide)
  · rintro rfl
    exact absurd hdigit (by decide)

theorem readInt?_eq (cs : List Char) :
    readInt? cs = (readNat? 10 (takeSign cs).2).map fun (n : Nat) =>
      if (takeSign cs).1 then -(n : Int) else n := by
  simp only [readInt?]
  cases readNat? 10 (takeSign cs).2 <;> rfl

theorem readInt?_eq_some_iff {cs : List Char} {n : Int} :
    readInt? cs = some n ↔ Integer cs n := by
  rw [readInt?_eq]
  constructor
  · intro hread
    obtain ⟨sign, hsign, hcs⟩ := exists_sign_takeSign cs
    obtain ⟨k, hk, rfl⟩ := Option.map_eq_some_iff.mp hread
    obtain ⟨hdigits, hne⟩ := (readNat?_eq_some_iff (by decide)).mp hk
    have hinteger := Integer.intro hsign hdigits hne
    rwa [← hcs] at hinteger
  · rintro ⟨hsign, hdigits, hne⟩
    rw [hdigits.takeSign hsign, (readNat?_eq_some_iff (by decide)).mpr ⟨hdigits, hne⟩]
    rfl

theorem Integer.unique {cs : List Char} {n m : Int} (hn : Integer cs n) (hm : Integer cs m) :
    n = m :=
  Option.some.inj ((readInt?_eq_some_iff.mpr hn).symm.trans (readInt?_eq_some_iff.mpr hm))

end DualCall.Text
