import DualCall.Proofs.Binary.Grammar
import DualCall.Proofs.Value.Literal

namespace DualCall

/-- An address behind the mark of a hexadecimal number: an optional plus sign and one or more
    digits. -/
inductive Address : List Char → UInt64 → Prop
  | intro {plus digits : List Char} {address : UInt64} (hplus : plus = [] ∨ plus = ['+'])
      (hdigits : Text.Digits 16 digits address.toNat) (hne : digits ≠ []) :
      Address (plus ++ digits) address

/-- A text that begins with the mark of a hexadecimal number. -/
def HexMarked (cs : List Char) : Prop := ['0', 'x'] <+: cs ∨ ['0', 'X'] <+: cs

/-- The literals. An integer has 64 bits, and so has an address. A text is read as a floating-point
    number if it is one and neither begins like an address nor is an integer that fits. -/
inductive Value.Literal : List Char → Value → Prop
  | null {cs : List Char} (hcs : cs = "null".toList ∨ cs = "nil".toList) : Literal cs .null
  | true : Literal "true".toList (.bool true)
  | false : Literal "false".toList (.bool false)
  | pointer {mark cs : List Char} {address : UInt64} (hmark : mark = ['0', 'x'] ∨ mark = ['0', 'X'])
      (haddress : Address cs address) : Literal (mark ++ cs) (.pointer address)
  | int {cs : List Char} {n : Int64} (hinteger : Text.Integer cs n.toInt) : Literal cs (.int n)
  | float {cs : List Char} {x : Binary64} (hmark : ¬ HexMarked cs)
      (hinteger : ∀ n : Int64, ¬ Text.Integer cs n.toInt) (hnumeral : Binary64.Numeral cs x) :
      Literal cs (.float x)

theorem readAddress?_eq_some_iff {cs : List Char} {address : UInt64} :
    readAddress? cs = some address ↔ Address cs address := by
  have hdigits (digits : List Char) : ((Text.readNat? 16 digits).bind fun n =>
      if n < UInt64.size then some (UInt64.ofNat n) else none) = some address ↔
        Text.Digits 16 digits address.toNat ∧ digits ≠ [] := by
    rw [← Text.readNat?_eq_some_iff (by decide), Option.bind_eq_some_iff]
    constructor
    · rintro ⟨n, hread, hrange⟩
      obtain ⟨hfits, hn⟩ := Option.ite_none_right_eq_some.mp hrange
      rw [hread, ← Option.some.inj hn, UInt64.toNat_ofNat_of_lt' hfits]
    · intro hread
      refine ⟨address.toNat, hread, ?_⟩
      rw [if_pos address.toNat_lt, UInt64.ofNat_toNat]
  constructor
  · intro hread
    unfold readAddress? at hread
    dsimp only at hread
    rw [hdigits] at hread
    split at hread
    · exact .intro (.inr rfl) hread.1 hread.2
    · exact .intro (.inl rfl) hread.1 hread.2
  · rintro ⟨hplus, hread, hne⟩
    have hbind := (hdigits _).mpr ⟨hread, hne⟩
    obtain rfl | rfl := hplus
    · rw [List.nil_append]
      unfold readAddress?
      split
      · have hsome := ((Text.digits_iff (by decide)).mp hread).1 '+' List.mem_cons_self
        exact absurd hsome (by decide)
      · exact hbind
    · exact hbind

theorem readInt64?_eq_some_iff {cs : List Char} {n : Int64} :
    readInt64? cs = some n ↔ Text.Integer cs n.toInt := by
  rw [← Text.readInt?_eq_some_iff, readInt64?, Option.bind_eq_some_iff]
  constructor
  · rintro ⟨k, hread, hrange⟩
    obtain ⟨hfits, hn⟩ := Option.ite_none_right_eq_some.mp hrange
    rw [hread, ← Option.some.inj hn, Int64.toInt_ofInt_of_le hfits.1 (Int.lt_add_one_of_le hfits.2)]
  · intro hread
    refine ⟨n.toInt, hread, ?_⟩
    rw [if_pos ⟨n.minValue_le_toInt, n.toInt_le⟩, Int64.ofInt_toInt]

theorem afterHexMark?_eq_some_iff {cs rest : List Char} :
    afterHexMark? cs = some rest ↔
      ∃ mark, (mark = ['0', 'x'] ∨ mark = ['0', 'X']) ∧ cs = mark ++ rest := by
  constructor
  · intro hmark
    unfold afterHexMark? at hmark
    split at hmark
    · cases hmark
      exact ⟨_, .inl rfl, rfl⟩
    · cases hmark
      exact ⟨_, .inr rfl, rfl⟩
    · cases hmark
  · rintro ⟨mark, rfl | rfl, rfl⟩ <;> rfl

theorem afterHexMark?_eq_none_iff {cs : List Char} : afterHexMark? cs = none ↔ ¬ HexMarked cs := by
  rw [Option.eq_none_iff_forall_ne_some]
  constructor
  · rintro hnone (⟨rest, rfl⟩ | ⟨rest, rfl⟩)
    · exact hnone rest rfl
    · exact hnone rest rfl
  · intro hmark rest hrest
    obtain ⟨mark, rfl | rfl, rfl⟩ := afterHexMark?_eq_some_iff.mp hrest
    · exact hmark (.inl ⟨rest, rfl⟩)
    · exact hmark (.inr ⟨rest, rfl⟩)

theorem not_hexMarked_of_integer {cs : List Char} {n : Int} (hinteger : Text.Integer cs n) :
    ¬ HexMarked cs := by
  have hread := Text.readInt?_eq_some_iff.mpr hinteger
  rintro (⟨rest, rfl⟩ | ⟨rest, rfl⟩)
  · rw [Text.readInt?_eq_none (c := 'x') (by simp [Text.takeSign]) (by decide)] at hread
    cases hread
  · rw [Text.readInt?_eq_none (c := 'X') (by simp [Text.takeSign]) (by decide)] at hread
    cases hread

namespace Value

/-- What is read is what the grammar says. -/
theorem literal_of_readTrimmed? {cs : List Char} {v : Value} (hread : readTrimmed? cs = some v) :
    Literal cs v := by
  unfold readTrimmed? at hread
  split at hread
  · next hnull =>
    cases hread
    exact .null hnull
  split at hread
  · next htrue =>
    subst htrue
    cases hread
    exact .true
  split at hread
  · next hfalse =>
    subst hfalse
    cases hread
    exact .false
  split at hread
  · next digits hdigits =>
    obtain ⟨mark, hmark, rfl⟩ := afterHexMark?_eq_some_iff.mp hdigits
    obtain ⟨address, haddress, rfl⟩ := Option.map_eq_some_iff.mp hread
    exact .pointer hmark (readAddress?_eq_some_iff.mp haddress)
  · next hmark =>
    split at hread
    · next n hn =>
      cases hread
      exact .int (readInt64?_eq_some_iff.mp hn)
    · next hnone =>
      obtain ⟨x, hx, rfl⟩ := Option.map_eq_some_iff.mp hread
      refine .float (afterHexMark?_eq_none_iff.mp hmark) (fun n hn => ?_)
        (Binary64.read?_eq_some_iff.mp hx)
      rw [readInt64?_eq_some_iff.mpr hn] at hnone
      cases hnone

/-- What the grammar has is read. -/
theorem readTrimmed?_of_literal {cs : List Char} {v : Value} (hliteral : Literal cs v) :
    readTrimmed? cs = some v := by
  -- No keyword can be read in another way.
  have hkeywords : ∀ name ∈ ["null", "nil", "true", "false"],
      readInt64? name.toList = none ∧ Binary64.read? name.toList = none := by decide +kernel
  cases hliteral with
  | null hcs => rcases hcs with rfl | rfl <;> rfl
  | true => rfl
  | false => rfl
  | pointer hmark haddress =>
    have hread := readAddress?_eq_some_iff.mpr haddress
    rw [readTrimmed?_hexMarked hmark, hread, Option.map_some]
  | int hinteger =>
    have hread := readInt64?_eq_some_iff.mpr hinteger
    have hmark := afterHexMark?_eq_none_iff.mpr (not_hexMarked_of_integer hinteger)
    rw [readTrimmed?_of_ne, hmark, hread]
    · rfl
    · rintro name hname rfl
      rw [(hkeywords name hname).1] at hread
      cases hread
  | float hmark hinteger hnumeral =>
    have hread := Binary64.read?_eq_some_iff.mpr hnumeral
    have hnone : readInt64? cs = none := by
      rw [Option.eq_none_iff_forall_ne_some]
      exact fun n hn => hinteger n (readInt64?_eq_some_iff.mp hn)
    rw [readTrimmed?_of_ne, afterHexMark?_eq_none_iff.mpr hmark, hnone, hread]
    · rfl
    · rintro name hname rfl
      rw [(hkeywords name hname).2] at hread
      cases hread

theorem readTrimmed?_eq_some_iff {cs : List Char} {v : Value} :
    readTrimmed? cs = some v ↔ Literal cs v :=
  ⟨literal_of_readTrimmed?, readTrimmed?_of_literal⟩

/-- An integer is a decimal without places. -/
theorem exists_numeral_of_integer {cs : List Char} {n : Int} (hinteger : Text.Integer cs n)
    (hn : n ≠ 0) : ∃ magnitude, Format.double.IsNearest |(n : ℚ)| magnitude ∧
      Binary64.Numeral cs (.encode ⟨decide (n < 0), magnitude⟩) := by
  obtain @⟨sign, digits, negative, k, hsign, hdigits, hne⟩ := hinteger
  have hnegative : decide ((if negative then -(k : Int) else k) < 0) = negative := by
    cases negative with
    | true =>
      rw [if_pos rfl] at hn ⊢
      exact decide_eq_true (by omega)
    | false => exact decide_eq_false (by simp)
  have habs : |((if negative then -(k : Int) else k : Int) : ℚ)| = k := by
    cases negative <;> simp
  have hvalue : Decimal.value ⟨k, 0⟩ = k := by simp [Decimal.value]
  have hnearest := Binary64.isNearest_double ⟨k, 0⟩
  rw [hvalue] at hnearest
  have hdecimal : Decimal.Numeral (digits ++ []) (k * 10 ^ (0 : Int)) :=
    .intro (.whole hdigits hne) .none
  rw [List.append_nil, zpow_zero, mul_one] at hdecimal
  rw [hnegative, habs]
  exact ⟨_, hnearest, .decimal hsign hdecimal hnearest⟩

/-- The literals are read, each as what it stands for, and nothing else is. Only blanks at the ends
    do not count. An integer that does not fit into 64 bits is read as the floating-point number
    nearest to it, and what begins like an address but is none is not read at all. -/
theorem read?_exact (text : String) :
    Text.Trimmed text.toList (Text.trim text.toList) ∧
    (∀ v, read? text = some v ↔ Literal (Text.trim text.toList) v) ∧
    (read? text = none ↔ ∀ v, ¬ Literal (Text.trim text.toList) v) ∧
    (∀ n : Int, Text.Integer (Text.trim text.toList) n → (n < -2 ^ 63 ∨ 2 ^ 63 ≤ n) →
      ∃ magnitude, Format.double.IsNearest |(n : ℚ)| magnitude ∧
        read? text = some (.float (.encode ⟨decide (n < 0), magnitude⟩))) ∧
    (∀ mark rest, mark = ['0', 'x'] ∨ mark = ['0', 'X'] →
      Text.trim text.toList = mark ++ rest → (∀ address, ¬ Address rest address) →
      read? text = none) := by
  have hiff (v : Value) : read? text = some v ↔ Literal (Text.trim text.toList) v :=
    readTrimmed?_eq_some_iff
  refine ⟨Text.trimmed_trim _, hiff, ?_, fun n hinteger hrange => ?_,
    fun mark rest hmark htext hnone => ?_⟩
  · rw [Option.eq_none_iff_forall_ne_some]
    exact forall_congr' fun v => not_congr (hiff v)
  · obtain ⟨magnitude, hnearest, hnumeral⟩ := exists_numeral_of_integer hinteger (by omega)
    refine ⟨magnitude, hnearest, (hiff _).mpr (.float (not_hexMarked_of_integer hinteger) ?_
      hnumeral)⟩
    intro k hk
    have hsame := hinteger.unique hk
    have hlow := k.le_toInt
    have hhigh := k.toInt_lt
    omega
  · rw [read?, htext, readTrimmed?_hexMarked hmark, Option.map_eq_none_iff,
      Option.eq_none_iff_forall_ne_some]
    exact fun address haddress => hnone address (readAddress?_eq_some_iff.mp haddress)

/-- The least integer that does not fit becomes a floating-point number, and the least address that
    does not fit becomes nothing. -/
theorem read?_exact_overflow :
    (∃ magnitude, Format.double.IsNearest (2 ^ 63) magnitude ∧
      read? " +9223372036854775808 " = some (.float (.encode ⟨false, magnitude⟩))) ∧
    read? "0x10000000000000000" = none := by
  constructor
  · have hinteger : Text.Integer (Text.trim " +9223372036854775808 ".toList) (2 ^ 63) :=
      Text.readInt?_eq_some_iff.mp (by decide +kernel)
    obtain ⟨magnitude, hnearest, hread⟩ :=
      (read?_exact " +9223372036854775808 ").2.2.2.1 (2 ^ 63) hinteger (.inr (le_refl _))
    have hvalue : |((2 ^ 63 : Int) : ℚ)| = 2 ^ 63 := by norm_num
    exact ⟨magnitude, hvalue ▸ hnearest, hread⟩
  · refine (read?_exact "0x10000000000000000").2.2.2.2 ['0', 'x'] ('1' :: List.replicate 16 '0')
      (.inl rfl) (by decide +kernel) fun address haddress => ?_
    have hread := readAddress?_eq_some_iff.mpr haddress
    have hnone : readAddress? ('1' :: List.replicate 16 '0') = none := by decide +kernel
    rw [hnone] at hread
    cases hread

end Value

end DualCall
