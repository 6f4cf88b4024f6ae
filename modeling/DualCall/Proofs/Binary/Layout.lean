import DualCall.Binary.Layout
import DualCall.Proofs.Binary.Conversion
import DualCall.Proofs.Binary.Shortest

namespace DualCall

-- Powers are those of the core library, whatever other instances are in scope.
attribute [local instance (2000)] instPowNat

theorem Text.isDigit_zero : Text.isDigit '0' := by decide

theorem Text.isDigit_point : Text.isDigit '.' = false := by decide

theorem Text.isDigit_e : Text.isDigit 'e' = false := by decide

/-- Digits have no case. -/
theorem Text.lowerAscii_of_isDigit {c : Char} (hc : Text.isDigit c) : Text.lowerAscii c = c := by
  have hupper : ¬ ('A' ≤ c ∧ c ≤ 'Z') := fun h => by
    have hle := (Text.isDigit_iff.mp hc).2
    exact absurd (Char.le_trans h.1 hle) (by decide)
  rw [Text.lowerAscii, if_neg hupper]

namespace Decimal

/-- Digits around a point, on one side of it at least, in front of an exponent. -/
theorem read?_point {whole fraction rest : List Char} (hwhole : ∀ c ∈ whole, Text.isDigit c)
    (hfraction : ∀ c ∈ fraction, Text.isDigit c)
    (hrest : ∀ c ∈ rest.head?, Text.isDigit c = false) :
    read? (whole ++ '.' :: (fraction ++ rest)) =
      if whole = [] ∧ fraction = [] then none else (readExponent? rest).map fun exponent =>
        ⟨Text.natOfDigits 10 (whole ++ fraction), exponent - fraction.length⟩ := by
  obtain ⟨htake, hdrop⟩ := Text.span_append hwhole
    (Text.forall_mem_head?_cons Text.isDigit_point (fraction ++ rest))
  obtain ⟨htake', hdrop'⟩ := Text.span_append hfraction hrest
  simp only [read?, htake, hdrop, htake', hdrop']

/-- Digits without a point, in front of an exponent. -/
theorem read?_whole {whole rest : List Char} (hwhole : ∀ c ∈ whole, Text.isDigit c)
    (hrest : ∀ c ∈ rest.head?, Text.isDigit c = false ∧ c ≠ '.') :
    read? (whole ++ rest) = if whole = [] then none else (readExponent? rest).map fun exponent =>
      ⟨Text.natOfDigits 10 whole, exponent⟩ := by
  obtain ⟨htake, hdrop⟩ := Text.span_append hwhole fun c hc => (hrest c hc).1
  simp only [read?, htake, hdrop]
  split
  · exact absurd rfl (hrest '.' rfl).2
  · simp

/-- Digits around a point, and nothing behind them. -/
theorem read?_fraction {whole fraction : List Char} (hwhole : ∀ c ∈ whole, Text.isDigit c)
    (hne : whole ≠ []) (hfraction : ∀ c ∈ fraction, Text.isDigit c) :
    read? (whole ++ '.' :: fraction) =
      some ⟨Text.natOfDigits 10 (whole ++ fraction), -(fraction.length : Int)⟩ := by
  have hend : ∀ c ∈ ([] : List Char).head?, Text.isDigit c = false := by simp
  have hread := read?_point hwhole hfraction hend
  simpa [readExponent?, hne] using hread

theorem readExponent?_signedDecimal (n : Int) :
    readExponent? ('e' :: Text.signedDecimal n) = some n := by
  rw [readExponent?, if_pos (.inl rfl), Text.readInt?_signedDecimal]

end Decimal

namespace Layout

theorem exists_eq_stripZeros_append (cs : List Char) :
    ∃ count, cs = stripZeros cs ++ List.replicate count '0' := by
  refine ⟨(cs.reverse.takeWhile (· == '0')).length, ?_⟩
  have hzeros : (cs.reverse.takeWhile (· == '0')).reverse =
      List.replicate (cs.reverse.takeWhile (· == '0')).length '0' := by
    rw [List.eq_replicate_iff, List.length_reverse]
    refine ⟨rfl, fun c hc => ?_⟩
    have hall := List.all_eq_true.mp (List.all_takeWhile (p := (· == '0')) (l := cs.reverse))
    exact eq_of_beq (hall c (List.mem_reverse.mp hc))
  rw [stripZeros, ← hzeros, ← List.reverse_append, List.takeWhile_append_dropWhile,
    List.reverse_reverse]

section

variable {ds : List Char} (hds : ∀ c ∈ ds, Text.isDigit c) (hne : ds ≠ [])
include hds hne

/-- Digits written around a point stand for what they stand for with the exponent of the last. -/
theorem read?_full (f : Format) (point : Int) :
    ∃ d, Decimal.read? (full ds point) = some d ∧
      d.nearest f = Decimal.nearest f ⟨Text.natOfDigits 10 ds, point - ds.length⟩ := by
  have hzeros (count : Nat) : ∀ c ∈ List.replicate count '0', Text.isDigit c := by
    intro c hc
    rw [List.eq_of_mem_replicate hc]
    exact Text.isDigit_zero
  unfold full
  by_cases hpoint : point ≤ 0
  · have hfraction : ∀ c ∈ List.replicate point.natAbs '0' ++ ds, Text.isDigit c := by
      intro c hc
      exact (List.mem_append.mp hc).elim (hzeros _ c) (hds c)
    have hcoefficient := Text.natOfDigits_zeros_append 10 (point.natAbs + 1) (by decide) ds
    rw [if_pos hpoint]
    refine ⟨_, Decimal.read?_fraction (hzeros 1) (by simp) hfraction, ?_⟩
    rw [← List.append_assoc, List.replicate_append_replicate, Nat.add_comm, hcoefficient]
    congr 2
    rw [List.length_append, List.length_replicate]
    omega
  · rw [if_neg hpoint]
    by_cases hinside : point.natAbs < ds.length
    · have hwhole : ds.take point.natAbs ≠ [] := by
        rw [ne_eq, List.take_eq_nil_iff, not_or]
        exact ⟨by omega, hne⟩
      rw [if_pos hinside]
      refine ⟨_, Decimal.read?_fraction (fun c hc => hds c (List.mem_of_mem_take hc)) hwhole
        (fun c hc => hds c (List.mem_of_mem_drop hc)), ?_⟩
      rw [List.take_append_drop, List.length_drop]
      congr 2
      omega
    · have hwhole : ∀ c ∈ ds ++ List.replicate (point.natAbs - ds.length) '0',
          Text.isDigit c := by
        intro c hc
        exact (List.mem_append.mp hc).elim (hds c) (hzeros _ c)
      have hcoefficient := Text.natOfDigits_append_zeros 10 (point.natAbs - ds.length + 1)
        (by decide) ds
      rw [if_neg hinside]
      refine ⟨_, Decimal.read?_fraction hwhole (by simp [hne]) (hzeros 1), ?_⟩
      -- The zeros before the point and the one behind it only fill up the coefficient.
      rw [List.append_assoc, ← List.replicate_one, List.replicate_append_replicate, hcoefficient,
        Decimal.nearest_mul_ten_pow]
      congr 2
      rw [List.length_replicate]
      omega

theorem read?_scientific {layout : Layout} (hmark : layout.exponentMark = "e") (exponent : Int) :
    Decimal.read? (layout.scientific ds exponent) =
      some ⟨Text.natOfDigits 10 ds, exponent + 1 - ds.length⟩ := by
  have hexponent : (if exponent < 0 then ['e'] else layout.exponentMark.toList) = ['e'] := by
    rw [hmark]
    split <;> rfl
  have hrest := Text.forall_mem_head?_cons Text.isDigit_e (Text.signedDecimal exponent)
  unfold scientific
  rw [hexponent]
  obtain ⟨first, rest, rfl⟩ := List.exists_cons_of_ne_nil hne
  cases rest with
  | nil =>
    have hmark : ∀ c ∈ ('e' :: Text.signedDecimal exponent).head?,
        Text.isDigit c = false ∧ c ≠ '.' := by
      rintro c hc
      cases hc
      decide
    have hread := Decimal.read?_whole hds hmark
    rw [if_neg (by simp), Decimal.readExponent?_signedDecimal] at hread
    simpa using hread
  | cons second others =>
    obtain ⟨hfirst, hothers⟩ := List.forall_mem_cons.mp hds
    have hread := Decimal.read?_point (List.forall_mem_singleton.mpr hfirst) hothers hrest
    rw [if_neg (by simp), Decimal.readExponent?_signedDecimal] at hread
    have hlength : exponent - (second :: others).length =
        exponent + 1 - (first :: second :: others).length := by
      simp only [List.length_cons]
      omega
    rw [Option.map_some, hlength] at hread
    simpa using hread

end

/-- The form of what is written for a finite magnitude: it begins with a digit, and a point or an
    exponent tells it from an integer. -/
structure IsFractional (text : List Char) : Prop where
  begins : ∃ c rest, text = c :: rest ∧ Text.isDigit c
  among : ∀ c ∈ text, Text.isDigit c ∨ c = '.' ∨ c = 'e' ∨ c = '-'
  mark : ∃ c ∈ text, Text.isDigit c = false

/-- Digits, at least one, and then a mark and more. -/
theorem IsFractional.of_append {whole rest : List Char} {c : Char} (hne : whole ≠ [])
    (hwhole : ∀ c ∈ whole, Text.isDigit c) (hc : c = '.' ∨ c = 'e')
    (hrest : ∀ c ∈ rest, Text.isDigit c ∨ c = '.' ∨ c = 'e' ∨ c = '-') :
    IsFractional (whole ++ c :: rest) := by
  refine ⟨?_, fun d hd => ?_, c, by simp, ?_⟩
  · obtain ⟨first, others, rfl⟩ := List.exists_cons_of_ne_nil hne
    exact ⟨first, others ++ c :: rest, rfl, hwhole first List.mem_cons_self⟩
  · rw [List.mem_append, List.mem_cons] at hd
    rcases hd with hd | rfl | hd
    · exact .inl (hwhole d hd)
    · exact .inr (hc.imp id .inl)
    · exact hrest d hd
  · rcases hc with rfl | rfl
    · exact Text.isDigit_point
    · exact Text.isDigit_e

theorem among_signedDecimal (n : Int) :
    ∀ c ∈ Text.signedDecimal n, Text.isDigit c ∨ c = '.' ∨ c = 'e' ∨ c = '-' := by
  intro c hc
  unfold Text.signedDecimal at hc
  split at hc
  · rcases List.mem_cons.mp hc with rfl | hc
    · simp
    · exact .inl (Text.isDigit_of_mem_decimal hc)
  · exact .inl (Text.isDigit_of_mem_decimal hc)

section

variable {ds : List Char} (hds : ∀ c ∈ ds, Text.isDigit c) (hne : ds ≠ [])
include hds hne

theorem isFractional_full (point : Int) : IsFractional (full ds point) := by
  have hzeros (count : Nat) : ∀ c ∈ List.replicate count '0', Text.isDigit c := by
    intro c hc
    rw [List.eq_of_mem_replicate hc]
    exact Text.isDigit_zero
  unfold full
  by_cases hpoint : point ≤ 0
  · rw [if_pos hpoint]
    exact .of_append (List.cons_ne_nil '0' []) (hzeros 1) (.inl rfl) fun c hc =>
      .inl ((List.mem_append.mp hc).elim (hzeros _ c) (hds c))
  · rw [if_neg hpoint]
    by_cases hinside : point.natAbs < ds.length
    · have hwhole : ds.take point.natAbs ≠ [] := by
        rw [ne_eq, List.take_eq_nil_iff, not_or]
        exact ⟨by omega, hne⟩
      rw [if_pos hinside]
      exact .of_append hwhole (fun c hc => hds c (List.mem_of_mem_take hc)) (.inl rfl)
        fun c hc => .inl (hds c (List.mem_of_mem_drop hc))
    · rw [if_neg hinside]
      exact .of_append (by simp [hne])
        (fun c hc => (List.mem_append.mp hc).elim (hds c) (hzeros _ c)) (.inl rfl)
        fun c hc => .inl (hzeros 1 c hc)

theorem isFractional_scientific {layout : Layout} (hmark : layout.exponentMark = "e")
    (exponent : Int) : IsFractional (layout.scientific ds exponent) := by
  have hexponent : (if exponent < 0 then ['e'] else layout.exponentMark.toList) = ['e'] := by
    rw [hmark]
    split <;> rfl
  have htail := among_signedDecimal exponent
  unfold scientific
  rw [hexponent]
  obtain ⟨first, rest, rfl⟩ := List.exists_cons_of_ne_nil hne
  cases rest with
  | nil => simpa using IsFractional.of_append (by simp) hds (.inr rfl) htail
  | cons second others =>
    obtain ⟨hfirst, hothers⟩ := List.forall_mem_cons.mp hds
    have hrest : ∀ c ∈ second :: others ++ 'e' :: Text.signedDecimal exponent,
        Text.isDigit c ∨ c = '.' ∨ c = 'e' ∨ c = '-' := by
      intro c hc
      rcases List.mem_append.mp hc with hc | hc
      · exact .inl (hothers c hc)
      · rcases List.mem_cons.mp hc with rfl | hc
        · simp
        · exact htail c hc
    simpa using IsFractional.of_append (List.cons_ne_nil first [])
      (List.forall_mem_singleton.mpr hfirst) (.inl rfl) hrest

end

/-- What is written for a magnitude is made from the digits of its shortest decimal, at least one,
    without the zeros at their end. -/
theorem magnitude_eq {f : Format} (hf : 2 ≤ f.exponentBits) {size : Nat}
    (hsize : size < f.infinity) (hzero : size ≠ 0) (layout : Layout) :
    ∃ ds point, (∀ c ∈ ds, Text.isDigit c) ∧ ds ≠ [] ∧
      Decimal.nearest f ⟨Text.natOfDigits 10 ds, point - ds.length⟩ = size ∧
      (layout.magnitude f size = full ds point ∨
        layout.magnitude f size = layout.scientific ds (point - 1)) := by
  have hnearest := f.nearest_shortest hf hsize hzero layout.halfUp
  generalize hd : f.shortest layout.halfUp size = d at hnearest
  obtain ⟨count, hcount⟩ := exists_eq_stripZeros_append (Text.decimal d.coefficient)
  have hcoefficient := congrArg (Text.natOfDigits 10) hcount
  rw [Text.natOfDigits_decimal, Text.natOfDigits_append_zeros _ _ (by decide)] at hcoefficient
  have hlength := congrArg List.length hcount
  rw [List.length_append, List.length_replicate] at hlength
  have hunfold : layout.magnitude f size = if
      layout.leastFull.all (· ≤ d.exponent + (Text.decimal d.coefficient).length - 1) ∧
      layout.leastScientific.all (d.exponent + (Text.decimal d.coefficient).length - 1 < ·) then
      full (stripZeros (Text.decimal d.coefficient))
        (d.exponent + (Text.decimal d.coefficient).length)
      else layout.scientific (stripZeros (Text.decimal d.coefficient))
        (d.exponent + (Text.decimal d.coefficient).length - 1) := by
    simp only [magnitude, if_neg hzero, hd]
  generalize hds : stripZeros (Text.decimal d.coefficient) = ds at *
  refine ⟨ds, d.exponent + (Text.decimal d.coefficient).length, ?_, ?_, ?_, ?_⟩
  · intro c hc
    exact Text.isDigit_of_mem_decimal (hcount ▸ List.mem_append_left _ hc)
  · rintro rfl
    have hnone : d.coefficient = 0 := by simpa [Text.natOfDigits, Text.natOfDigitsFrom] using hcoefficient
    rw [Decimal.nearest, if_pos hnone] at hnearest
    exact hzero hnearest.symm
  · obtain ⟨coefficient, exponent⟩ := d
    dsimp only at hcoefficient hlength ⊢
    rw [hcoefficient, Decimal.nearest_mul_ten_pow] at hnearest
    rw [← hnearest]
    congr 2
    omega
  · rw [hunfold]
    split
    · exact .inl rfl
    · exact .inr rfl

theorem isFractional_magnitude {f : Format} (hf : 2 ≤ f.exponentBits) {size : Nat}
    (hsize : size < f.infinity) {layout : Layout} (hmark : layout.exponentMark = "e") :
    IsFractional (layout.magnitude f size) := by
  by_cases hzero : size = 0
  · rw [magnitude, if_pos hzero]
    have hzero : ∀ c ∈ ['0'], Text.isDigit c := List.forall_mem_singleton.mpr Text.isDigit_zero
    exact .of_append (List.cons_ne_nil '0' []) hzero (.inl rfl) fun c hc => .inl (hzero c hc)
  · obtain ⟨ds, point, hds, hne, -, hform | hform⟩ := magnitude_eq hf hsize hzero layout
    · rw [hform]
      exact isFractional_full hds hne point
    · rw [hform]
      exact isFractional_scientific hds hne hmark (point - 1)

/-- The text of a magnitude is read as the same magnitude. -/
theorem read?_magnitude {f : Format} (hf : 2 ≤ f.exponentBits) {size : Nat}
    (hsize : size < f.infinity) {layout : Layout} (hmark : layout.exponentMark = "e") :
    ∃ d, Decimal.read? (layout.magnitude f size) = some d ∧ d.nearest f = size := by
  by_cases hzero : size = 0
  · rw [magnitude, if_pos hzero]
    refine ⟨⟨0, -1⟩, by decide +kernel, ?_⟩
    rw [Decimal.nearest, if_pos rfl, hzero]
  · obtain ⟨ds, point, hds, hne, hnearest, hform | hform⟩ := magnitude_eq hf hsize hzero layout
    · obtain ⟨d, hread, hd⟩ := read?_full hds hne f point
      exact ⟨d, hform ▸ hread, hd.trans hnearest⟩
    · refine ⟨_, hform ▸ read?_scientific hds hne hmark (point - 1), ?_⟩
      rw [Int.sub_add_cancel]
      exact hnearest

/-- A layout whose texts are numerals and words that are read: its exponents stand behind the
    letter alone, and it writes the usual words. -/
structure Readable (layout : Layout) : Prop where
  exponentMark : layout.exponentMark = "e"
  infinity : layout.infinity = "inf"
  negativeInfinity : layout.negativeInfinity = "-inf"
  nan : layout.nan = "NaN"

theorem readable_display : display.Readable := ⟨rfl, rfl, rfl, rfl⟩

end Layout

namespace Binary64

/-- What operations give that have no result. -/
def nan : Binary64 := encode (Signed.nan .double)

/-- The same number; what is no number loses its sign and its payload. -/
def withoutPayload (x : Binary64) : Binary64 :=
  if x.isNaN then nan else x

theorem withoutPayload_of_not_nan {x : Binary64} (hx : x.isNaN = false) : x.withoutPayload = x := by
  simp [withoutPayload, hx]

/-- The three forms of what is written for a number. -/
theorem write_cases {layout : Layout} (hlayout : layout.Readable) (x : Binary64) :
    (x.isNaN ∧ layout.write x = "NaN".toList) ∨
    (x.isNaN = false ∧ x = encode ⟨x.decode.negative, Format.double.infinity⟩ ∧
      layout.write x = if x.decode.negative then "-inf".toList else "inf".toList) ∨
    (x.isNaN = false ∧ x.decode.magnitude < Format.double.infinity ∧
      layout.write x = (if x.decode.negative then ['-'] else []) ++
        layout.magnitude .double x.decode.magnitude) := by
  unfold Layout.write
  cases hnan : x.decode.isNaN .double with
  | true => exact .inl ⟨hnan, by simp [hnan, hlayout.nan]⟩
  | false =>
    cases hinfinite : x.decode.isInfinite .double with
    | true =>
      have hmagnitude : x.decode.magnitude = Format.double.infinity := eq_of_beq hinfinite
      refine .inr (.inl ⟨hnan, ?_, ?_⟩)
      · rw [← hmagnitude, encode_decode]
      · simp only [hnan, hinfinite, hlayout.infinity, hlayout.negativeInfinity]
        cases x.decode.negative <;> rfl
    | false =>
      have hle : x.decode.magnitude ≤ Format.double.infinity := by
        simpa [Signed.isNaN] using hnan
      have hne : x.decode.magnitude ≠ Format.double.infinity := by
        simpa [Signed.isInfinite] using hinfinite
      refine .inr (.inr ⟨hnan, Nat.lt_of_le_of_ne hle hne, ?_⟩)
      simp only [hnan, hinfinite]
      cases x.decode.negative <;> rfl

/-- Every number reads back from its text in a readable layout. -/
theorem read?_write {layout : Layout} (hlayout : layout.Readable) (x : Binary64) :
    read? (layout.write x) = some x.withoutPayload := by
  obtain ⟨hnan, hwrite⟩ | ⟨hnan, hx, hwrite⟩ | ⟨hnan, hfinite, hwrite⟩ := write_cases hlayout x
  · rw [hwrite, withoutPayload, if_pos hnan]
    decide +kernel
  · rw [hwrite, withoutPayload_of_not_nan hnan, hx]
    cases x.decode.negative <;> decide +kernel
  · obtain ⟨d, hread, hd⟩ := Layout.read?_magnitude (by decide) hfinite hlayout.exponentMark
    obtain ⟨c, rest, htext, hc⟩ :=
      (Layout.isFractional_magnitude (by decide) hfinite hlayout.exponentMark).begins
    have hsign : Text.takeSign (layout.write x) = (x.decode.negative, c :: rest) := by
      rw [hwrite, htext]
      cases x.decode.negative with
      | true => rfl
      | false => exact Text.takeSign_of_isDigit hc rest
    have hword (name : List Char) (first : Char) (hname : name.head? = some first)
        (hfirst : Text.isDigit first = false) : (c :: rest).map Text.lowerAscii ≠ name := by
      rintro rfl
      rw [List.map_cons, Text.lowerAscii_of_isDigit hc, List.head?_cons,
        Option.some.injEq] at hname
      rw [← hname, hc] at hfirst
      cases hfirst
    have hinf : (c :: rest).map Text.lowerAscii ≠ "inf".toList := hword _ 'i' rfl (by decide)
    have hinfinity : (c :: rest).map Text.lowerAscii ≠ "infinity".toList :=
      hword _ 'i' rfl (by decide)
    have hnone : (c :: rest).map Text.lowerAscii ≠ "nan".toList := hword _ 'n' rfl (by decide)
    simp only [read?, hsign, hinf, hinfinity, hnone, or_self, if_false]
    rw [← htext, hread, Option.map_some, ofDecimal, hd, withoutPayload_of_not_nan hnan]
    exact congrArg some (encode_decode x)

end Binary64

end DualCall
