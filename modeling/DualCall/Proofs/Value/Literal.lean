import DualCall.Proofs.Binary.Layout
import DualCall.Proofs.Text.Blank
import DualCall.Value.Display
import DualCall.Value.Literal

namespace DualCall

namespace Value

/-- The same value; a number that is none loses its sign and its payload. -/
def withoutPayload : Value → Value
  | .float x => .float x.withoutPayload
  | v => v

/-- A character that stands in the text of a number. -/
def IsNumberChar (c : Char) : Prop :=
  Text.isDigit c ∨ c ∈ ['-', '.', 'e', 'i', 'n', 'f', 'N', 'a']

theorem isBlank_of_isNumberChar {c : Char} (hc : IsNumberChar c) : Text.isBlank c = false := by
  rcases hc with hc | hc
  · exact Text.isBlank_of_digitValue? hc
  · have hnone : ['-', '.', 'e', 'i', 'n', 'f', 'N', 'a'].any Text.isBlank = false := by decide
    exact Bool.eq_false_iff.mpr (List.any_eq_false.mp hnone c hc)

theorem ne_of_isNumberChar {c d : Char} (hc : IsNumberChar c) (hd : Text.isDigit d = false)
    (hother : d ∉ ['-', '.', 'e', 'i', 'n', 'f', 'N', 'a']) : c ≠ d := by
  rintro rfl
  rcases hc with hc | hc
  · rw [hd] at hc
    cases hc
  · exact hother hc

/-- A text that is no keyword is read by its mark, or as a number. -/
theorem readTrimmed?_of_ne {cs : List Char}
    (hcs : ∀ name ∈ ["null", "nil", "true", "false"], cs ≠ name.toList) :
    readTrimmed? cs = (afterHexMark? cs).elim
      (((readInt64? cs).map .int).or ((Binary64.read? cs).map .float))
      fun digits => (readAddress? digits).map .pointer := by
  have hnull : ¬ (cs = "null".toList ∨ cs = "nil".toList) :=
    not_or.mpr ⟨hcs "null" (by simp), hcs "nil" (by simp)⟩
  rw [readTrimmed?, if_neg hnull, if_neg (hcs "true" (by simp)), if_neg (hcs "false" (by simp))]
  cases afterHexMark? cs with
  | some digits => rfl
  | none => cases readInt64? cs <;> rfl

/-- With the mark of a hexadecimal number a text is an address or nothing. -/
theorem readTrimmed?_hexMarked {mark rest : List Char}
    (hmark : mark = ['0', 'x'] ∨ mark = ['0', 'X']) :
    readTrimmed? (mark ++ rest) = (readAddress? rest).map .pointer := by
  have hhead : ∀ name ∈ ["null", "nil", "true", "false"], name.toList.head? ≠ some '0' := by decide
  have hrest : afterHexMark? (mark ++ rest) = some rest := by rcases hmark with rfl | rfl <;> rfl
  rw [readTrimmed?_of_ne, hrest]
  · rfl
  · intro name hname hcs
    refine hhead name hname ?_
    rw [← hcs]
    rcases hmark with rfl | rfl <;> rfl

/-- A text of such characters is no keyword and has no mark of a hexadecimal number. -/
theorem readTrimmed?_number {cs : List Char} (hcs : ∀ c ∈ cs, IsNumberChar c) :
    readTrimmed? cs = ((readInt64? cs).map .int).or ((Binary64.read? cs).map .float) := by
  have hkeywords : ∀ name ∈ ["null", "nil", "true", "false"],
      'l' ∈ name.toList ∨ 't' ∈ name.toList := by decide
  have hmark : afterHexMark? cs = none := by
    unfold afterHexMark?
    split
    · exact absurd rfl (ne_of_isNumberChar (hcs 'x' (by simp)) (by decide) (by decide))
    · exact absurd rfl (ne_of_isNumberChar (hcs 'X' (by simp)) (by decide) (by decide))
    · rfl
  rw [readTrimmed?_of_ne, hmark]
  · rfl
  · rintro name hname rfl
    obtain hl | ht := hkeywords name hname
    · exact ne_of_isNumberChar (hcs 'l' hl) (by decide) (by decide) rfl
    · exact ne_of_isNumberChar (hcs 't' ht) (by decide) (by decide) rfl

theorem isNumberChar_of_mem_signedDecimal {n : Int} {c : Char} (hc : c ∈ Text.signedDecimal n) :
    IsNumberChar c := by
  rcases Layout.among_signedDecimal n c hc with hc | rfl | rfl | rfl
  · exact .inl hc
  all_goals exact .inr (by decide)

theorem readInt64?_signedDecimal (n : Int64) : readInt64? (Text.signedDecimal n.toInt) = some n := by
  rw [readInt64?, Text.readInt?_signedDecimal, Option.bind_some,
    if_pos ⟨n.minValue_le_toInt, n.toInt_le⟩, Int64.ofInt_toInt]

theorem readTrimmed?_displayInt (n : Int64) :
    readTrimmed? (Text.signedDecimal n.toInt) = some (.int n) := by
  rw [readTrimmed?_number fun c hc => isNumberChar_of_mem_signedDecimal hc,
    readInt64?_signedDecimal, Option.map_some, Option.some_or]

theorem isNumberChar_of_mem_write {layout : Layout} (hlayout : layout.Readable) {x : Binary64}
    {c : Char} (hc : c ∈ layout.write x) : IsNumberChar c := by
  have hwords : ∀ word ∈ ["NaN", "inf", "-inf"],
      word.toList ⊆ ['-', '.', 'e', 'i', 'n', 'f', 'N', 'a'] := by decide
  obtain ⟨-, hwrite⟩ | ⟨-, -, hwrite⟩ | ⟨-, hfinite, hwrite⟩ := Binary64.write_cases hlayout x
  · rw [hwrite] at hc
    exact .inr (hwords "NaN" (by simp) hc)
  · rw [hwrite] at hc
    split at hc
    · exact .inr (hwords "-inf" (by simp) hc)
    · exact .inr (hwords "inf" (by simp) hc)
  · rw [hwrite, List.mem_append] at hc
    rcases hc with hc | hc
    · split at hc
      · rw [List.mem_singleton] at hc
        exact .inr (by simp [hc])
      · cases hc
    · have hform := Layout.isFractional_magnitude (by decide) hfinite hlayout.exponentMark
      rcases hform.among c hc with hc | rfl | rfl | rfl
      · exact .inl hc
      all_goals exact .inr (by decide)

/-- The text of a number with a point or an exponent, or of none, is no integer. -/
theorem readInt64?_write {layout : Layout} (hlayout : layout.Readable) (x : Binary64) :
    readInt64? (layout.write x) = none := by
  obtain ⟨-, hwrite⟩ | ⟨-, -, hwrite⟩ | ⟨-, hfinite, hwrite⟩ := Binary64.write_cases hlayout x
  · rw [hwrite]
    decide +kernel
  · rw [hwrite]
    split <;> decide +kernel
  · have hform := Layout.isFractional_magnitude (by decide) hfinite hlayout.exponentMark
    obtain ⟨first, rest, htext, hfirst⟩ := hform.begins
    obtain ⟨c, hc, hdigit⟩ := hform.mark
    have hsign : (Text.takeSign (layout.write x)).2 = layout.magnitude .double x.decode.magnitude := by
      rw [hwrite, htext]
      cases x.decode.negative with
      | true => rfl
      | false => exact congrArg Prod.snd (Text.takeSign_of_isDigit hfirst rest)
    rw [readInt64?, Text.readInt?_eq_none (hsign ▸ hc) hdigit, Option.bind_none]

theorem readTrimmed?_displayFloat (x : Binary64) :
    readTrimmed? (Layout.display.write x) = some (.float x.withoutPayload) := by
  rw [readTrimmed?_number fun c hc => isNumberChar_of_mem_write Layout.readable_display hc,
    readInt64?_write Layout.readable_display, Binary64.read?_write Layout.readable_display]
  rfl

theorem readTrimmed?_displayAddress (address : UInt64) :
    readTrimmed? (Text.hexadecimal address.toNat) = some (.pointer address) := by
  have hdigits := Text.readNat?_digits (by decide : 2 ≤ 16) (by decide) address.toNat
  have hsome {c : Char} (hc : c ∈ Text.digits 16 address.toNat) :=
    Text.isSome_digitValue?_of_mem_digits (by decide : 2 ≤ 16) (by decide) hc
  have hread : readAddress? (Text.digits 16 address.toNat) = some address := by
    unfold readAddress?
    split
    · next rest heq =>
      have hplus := hsome (heq ▸ List.mem_cons_self)
      exact absurd hplus (by decide)
    · simp only [hdigits, Option.bind_some, if_pos address.toNat_lt, UInt64.ofNat_toNat]
  calc readTrimmed? (Text.hexadecimal address.toNat)
      = readTrimmed? (['0', 'x'] ++ Text.digits 16 address.toNat) := rfl
    _ = some (.pointer address) := by rw [readTrimmed?_hexMarked (.inl rfl), hread, Option.map_some]

/-- The text of data is a literal for it. -/
theorem readTrimmed?_display {v : Value} (hv : v.isData) :
    readTrimmed? v.display.toList = some v.withoutPayload := by
  cases v with
  | null => rfl
  | bool b => cases b <;> rfl
  | int n =>
    rw [display, displayInt, String.toList_ofList, readTrimmed?_displayInt]
    rfl
  | float x =>
    rw [display, displayFloat, String.toList_ofList, readTrimmed?_displayFloat]
    rfl
  | pointer address =>
    rw [display, displayAddress, String.toList_ofList, readTrimmed?_displayAddress]
    rfl
  | procedure p => cases hv
  | unified c => cases hv

/-- A text that begins with an angle bracket is no literal. -/
theorem readTrimmed?_angle (cs : List Char) : readTrimmed? ('<' :: cs) = none := by
  have hdigit : Text.isDigit '<' = false := by decide
  have hint : readInt64? ('<' :: cs) = none := by
    rw [readInt64?, Text.readInt?_eq_none (c := '<') (by simp [Text.takeSign]) hdigit,
      Option.bind_none]
  have hlower : Text.lowerAscii '<' = '<' := by decide
  have hdecimal : Decimal.read? ('<' :: cs) = none := by simp [Decimal.read?, hdigit]
  have hfloat : Binary64.read? ('<' :: cs) = none := by
    simp [Binary64.read?, Text.takeSign, hlower, hdecimal]
  simp [readTrimmed?, afterHexMark?, hint, hfloat]

/-- The display of data has no blanks. -/
theorem isBlank_of_mem_display {v : Value} (hv : v.isData) {c : Char} (hc : c ∈ v.display.toList) :
    Text.isBlank c = false := by
  have hwords : ∀ word ∈ ["null", "true", "false"], word.toList.any Text.isBlank = false := by decide
  have hplain {word : String} (hword : word ∈ ["null", "true", "false"]) (hc : c ∈ word.toList) :
      Text.isBlank c = false :=
    Bool.eq_false_iff.mpr (List.any_eq_false.mp (hwords word hword) c hc)
  cases v with
  | null => exact hplain (show "null" ∈ _ by simp) hc
  | bool b =>
    cases b with
    | true => exact hplain (show "true" ∈ _ by simp) hc
    | false => exact hplain (show "false" ∈ _ by simp) hc
  | int n =>
    rw [display, displayInt, String.toList_ofList] at hc
    exact isBlank_of_isNumberChar (isNumberChar_of_mem_signedDecimal hc)
  | float x =>
    rw [display, displayFloat, String.toList_ofList] at hc
    exact isBlank_of_isNumberChar (isNumberChar_of_mem_write Layout.readable_display hc)
  | pointer address =>
    rw [display, displayAddress, String.toList_ofList, Text.hexadecimal] at hc
    rcases List.mem_cons.mp hc with rfl | hc
    · decide
    rcases List.mem_cons.mp hc with rfl | hc
    · decide
    exact Text.isBlank_of_digitValue?
      (Text.isSome_digitValue?_of_mem_digits (by decide : 2 ≤ 16) (by decide) hc)
  | procedure p => cases hv
  | unified c => cases hv

/-- What is shown of data is read as it. -/
theorem read?_display {v : Value} (hv : v.isData) : read? v.display = some v.withoutPayload := by
  rw [read?, Text.trim_of_forall fun c hc => isBlank_of_mem_display hv hc,
    readTrimmed?_display hv]

end Value

end DualCall
