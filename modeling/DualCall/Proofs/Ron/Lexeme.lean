import DualCall.Proofs.Binary.Layout
import DualCall.Ron.Lexeme
import DualCall.Ron.Writer
import Mathlib.Data.List.Forall2

namespace DualCall.Ron

-- Powers are those of the core library, whatever other instances are in scope.
attribute [local instance (2000)] instPowNat

/-- The characters that can end what is written. -/
def terminators : List Char := [',', ')', ']']

/-- The characters that nothing begins with. -/
def breaks : List Char := [' ', '\n', '\t', '\r', '/'] ++ terminators

/-- What is written has ended where a text starts. -/
def Ends (cs : List Char) : Prop := ∃ c rest, cs = c :: rest ∧ c ∈ terminators

/-- A text starts with something that is neither blank nor ended. -/
def Begins (cs : List Char) : Prop := ∃ c rest, cs = c :: rest ∧ c ∉ breaks

/-- A reader takes a written form off the front of every text in which it has an end. -/
structure Reads {α : Type} (reader : Reader α) (written : List Char) (a : α) : Prop where
  begins : Begins written
  reads : ∀ rest, Ends rest → reader (written ++ rest) = some (a, rest)

theorem Begins.of_kind {kind : Char → Bool} {c : Char} (hc : kind c)
    (hkind : breaks.any kind = false) (cs : List Char) : Begins (c :: cs) :=
  ⟨c, cs, rfl, fun hmem => List.any_eq_false.mp hkind c hmem hc⟩

theorem Begins.append {cs : List Char} (hcs : Begins cs) (rest : List Char) :
    Begins (cs ++ rest) := by
  obtain ⟨c, cs, rfl, hc⟩ := hcs
  exact ⟨c, cs ++ rest, rfl, hc⟩

theorem ends_cons {c : Char} (hc : c ∈ terminators) (cs : List Char) : Ends (c :: cs) :=
  ⟨c, cs, rfl, hc⟩

/-- A run that a terminator cannot continue ends where the written form does. -/
theorem Ends.head {rest : List Char} (hrest : Ends rest) {kind : Char → Bool}
    (hkind : terminators.any kind = false) : ∀ c ∈ rest.head?, kind c = false := by
  obtain ⟨d, cs, rfl, hd⟩ := hrest
  exact Text.forall_mem_head?_cons (Bool.eq_false_iff.mpr (List.any_eq_false.mp hkind d hd)) cs

section Blanks

theorem skipBlank_of_begins {cs : List Char} (hcs : Begins cs) : skipBlank cs = some cs := by
  obtain ⟨c, rest, rfl, hc⟩ := hcs
  have hslash : c ≠ '/' := fun h => hc (by simp [h, breaks])
  have hblank : isBlank c = false := by
    simp only [breaks, List.mem_append, List.mem_cons, not_or] at hc
    simp [isBlank, hc]
  unfold skipBlank skipFrom
  split <;> simp_all

theorem skipBlank_of_ends {rest : List Char} (hrest : Ends rest) : skipBlank rest = some rest := by
  obtain ⟨c, cs, rfl, hc⟩ := hrest
  simp only [terminators, List.mem_cons, List.not_mem_nil, or_false] at hc
  rcases hc with rfl | rfl | rfl <;> rfl

theorem comma_of_begins {cs : List Char} (hcs : Begins cs) :
    comma (',' :: cs) = some (true, cs) := by
  rw [comma, skipBlank_of_ends (ends_cons (by decide) cs)]
  simp [skipBlank_of_begins hcs]

theorem comma_of_close {close : Char} (hclose : close ∈ [')', ']']) (rest : List Char) :
    comma (close :: rest) = some (false, close :: rest) := by
  simp only [List.mem_cons, List.not_mem_nil, or_false] at hclose
  rcases hclose with rfl | rfl <;> rfl

end Blanks

section Names

/-- A name of two or more characters, which is read whatever its first character is. -/
def isName : List Char → Bool
  | c :: d :: cs => isIdentStart c && (d :: cs).all isIdentPart
  | _ => false

/-- A name is read up to the first character that no name has. -/
theorem identifier_append {name rest : List Char} (hname : isName name)
    (hrest : ∀ c ∈ rest.head?, isRawPart c = false) :
    identifier (name ++ rest) = some (name, rest) := by
  match name, hname with
  | c :: d :: cs, hname =>
    rw [isName, Bool.and_eq_true, List.all_eq_true] at hname
    obtain ⟨hstart, hparts⟩ := hname
    have hpart : ∀ e ∈ rest.head?, isIdentPart e = false := fun e he => by
      have hraw := hrest e he
      simp only [isRawPart, Bool.or_eq_false_iff] at hraw
      exact hraw.1.1.1
    obtain ⟨htake, hdrop⟩ := Text.span_append hparts hpart
    rw [List.cons_append] at htake hdrop
    have hnone : rest.head?.any isRawPart = false := by
      cases hhead : rest.head? with
      | none => rfl
      | some e => exact hrest e hhead
    have hsecond : isIdentPart d := hparts d List.mem_cons_self
    rw [List.cons_append, List.cons_append, identifier.eq_def]
    split
    · next heq =>
      cases heq
      exact absurd hsecond (by decide)
    · next heq =>
      cases heq
      exact absurd hsecond (by decide)
    · next heq => cases heq
    · next heq =>
      cases heq
      rw [htake, hdrop]
    · next heq =>
      cases heq
      simp only [htake, hdrop, hstart, hnone, Bool.not_false, Bool.and_self, if_true]
    · next heq => cases heq

theorem expectRun_append (run : String) (rest : List Char) :
    expectRun run (run.toList ++ rest) = some rest := by
  have hprefix : run.toList.isPrefixOf (run.toList ++ rest) :=
    List.isPrefixOf_iff_prefix.mpr (List.prefix_append _ _)
  rw [expectRun, if_pos hprefix, ← String.length_toList, List.drop_left]

theorem word_append (name : String) {rest : List Char} (hrest : Ends rest) :
    word name (name.toList ++ rest) = some rest := by
  have hend : rest.head?.any isIdentPart = false := by
    cases hhead : rest.head? with
    | none => rfl
    | some c =>
      exact hrest.head (show terminators.any isIdentPart = false by decide) c hhead
  rw [word, expectRun_append, Option.bind_some, hend, if_neg Bool.false_ne_true]

end Names

section Numbers

theorem isIntChar_of_isDigit {c : Char} (hc : Text.isDigit c) : isIntChar c := by
  have hrange := Text.isDigit_iff.mp hc
  have hhigh : c.toNat ≤ '9'.toNat := UInt32.le_iff_toNat_le.mp hrange.2
  have hvalue : c.toNat - 48 < 16 := by
    have hnine : '9'.toNat = 57 := rfl
    omega
  simp [isIntChar, Text.digitValue?, hrange, hvalue]

/-- Digits with nothing but an end behind them have no mark of another base. -/
theorem numberBase_append {ds rest : List Char} (hds : ∀ c ∈ ds, Text.isDigit c)
    (hrest : Ends rest) : numberBase (ds ++ rest) = (10, ds ++ rest) := by
  have hmark (c : Char) (hdigit : Text.isDigit c = false) (hother : c ∉ terminators) (cs : List Char) :
      ds ++ rest ≠ '0' :: c :: cs := by
    intro heq
    obtain ⟨e, es, rfl, he⟩ := hrest
    match ds, hds, heq with
    | [], _, heq =>
      cases heq
      exact absurd he (by decide)
    | [d], _, heq =>
      cases heq
      exact hother he
    | d :: d' :: ds, hds, heq =>
      cases heq
      rw [hds c (by simp)] at hdigit
      cases hdigit
  unfold numberBase
  split
  · next heq => exact absurd heq (hmark 'x' (by decide) (by decide) _)
  · next heq => exact absurd heq (hmark 'b' (by decide) (by decide) _)
  · next heq => exact absurd heq (hmark 'o' (by decide) (by decide) _)
  · rfl

theorem natural_decimal (n : Nat) {rest : List Char} (hrest : Ends rest) :
    natural (Text.decimal n ++ rest) = some (n, rest) := by
  have hdigits : ∀ c ∈ Text.decimal n, Text.isDigit c := fun c => Text.isDigit_of_mem_decimal
  have hint : ∀ c ∈ Text.decimal n, isIntChar c := fun c hc => isIntChar_of_isDigit (hdigits c hc)
  obtain ⟨htake, hdrop⟩ := Text.span_append hint (hrest.head (by decide))
  have hfirst : (Text.decimal n).head? ≠ some '_' := fun h =>
    absurd (hdigits '_' (List.mem_of_mem_head? h)) (by decide)
  have hfilter : (Text.decimal n).filter (· != '_') = Text.decimal n :=
    List.filter_eq_self.mpr fun c hc => by
      rw [bne_iff_ne]
      rintro rfl
      exact absurd (hdigits '_' hc) (by decide)
  simp only [natural, numberBase_append hdigits hrest, htake, hdrop, hfirst, if_false, hfilter,
    Text.readNat?_decimal, Option.map_some]

theorem integer_signedDecimal (n : Int) {rest : List Char} (hrest : Ends rest) :
    integer (Text.signedDecimal n ++ rest) = some (n, rest) := by
  have hvalue : (if n < 0 then -(n.natAbs : Int) else (n.natAbs : Int)) = n := by omega
  simp only [integer, Text.takeSign_signedDecimal, natural_decimal n.natAbs hrest, Option.map_some,
    decide_eq_true_eq, hvalue]

theorem reads_uint64 (address : UInt64) : Reads uint64 (Text.decimal address.toNat) address where
  begins := by
    obtain ⟨c, cs, hdecimal, hc⟩ := Text.exists_decimal_eq_cons address.toNat
    rw [hdecimal]
    exact .of_kind hc (by decide) cs
  reads rest hrest := by
    rw [uint64, natural_decimal address.toNat hrest, Option.bind_some]
    dsimp only
    rw [if_pos address.toNat_lt, UInt64.ofNat_toNat]

theorem reads_int64 (n : Int64) : Reads int64 (Text.signedDecimal n.toInt) n where
  begins := by
    obtain ⟨c, cs, hdecimal, hc⟩ := Text.exists_decimal_eq_cons n.toInt.natAbs
    unfold Text.signedDecimal
    split
    · exact ⟨'-', _, rfl, by decide⟩
    · rw [hdecimal]
      exact .of_kind hc (by decide) cs
  reads rest hrest := by
    rw [int64, integer_signedDecimal n.toInt hrest, Option.bind_some]
    dsimp only
    rw [if_pos ⟨n.minValue_le_toInt, n.toInt_le⟩, Int64.ofInt_toInt]

/-- What is written for a finite number is read as far as its characters go, since it is none of the
    words. -/
theorem float_of_digits {written rest : List Char} {sign : List Char} {c : Char} {cs : List Char}
    (hsign : sign ∈ [[], ['-']]) (hc : Text.isDigit c) (hwritten : written = sign ++ c :: cs)
    (hchars : ∀ d ∈ written, isFloatChar d) (hrest : Ends rest) :
    float (written ++ rest) = (Binary64.read? written).map fun x => (x, rest) := by
  have hne {d : Char} (hd : Text.isDigit d = false) : c ≠ d := by
    rintro rfl
    rw [hc] at hd
    cases hd
  have hword : ∀ name ∈ floatWords, word name (written ++ rest) = none := by
    have hi := hne (d := 'i') (by decide)
    have hN := hne (d := 'N') (by decide)
    have hplus := hne (d := '+') (by decide)
    have hminus := hne (d := '-') (by decide)
    subst hwritten
    simp only [List.mem_cons, List.not_mem_nil, or_false] at hsign
    rcases hsign with rfl | rfl <;>
      simp [floatWords, word, expectRun, hi.symm, hN.symm, hplus.symm, hminus.symm]
  have hnamed : (floatWords.findSome? fun name => do
      let after ← word name (written ++ rest)
      let x ← Binary64.read? name.toList
      return (x, after)) = none := by
    rw [List.findSome?_eq_none_iff]
    intro name hname
    rw [hword name hname]
    rfl
  obtain ⟨htake, hdrop⟩ := Text.span_append hchars (hrest.head (by decide))
  simp only [float, hnamed, htake, hdrop, Option.none_or]

/-- A word for what digits cannot write is not taken for another one. -/
theorem float_of_word {name : String} (hname : name ∈ ["inf", "-inf", "NaN"]) {x : Binary64}
    (hx : Binary64.read? name.toList = some x) {rest : List Char} (hrest : Ends rest) :
    float (name.toList ++ rest) = some (x, rest) := by
  have hword := word_append name hrest
  have hother : ∀ other ∈ floatWords, other ≠ name → word other (name.toList ++ rest) = none := by
    simp only [List.mem_cons, List.not_mem_nil, or_false] at hname
    rcases hname with rfl | rfl | rfl <;> simp [floatWords, word, expectRun]
  have hmem : name ∈ floatWords := by
    revert hname
    simp only [List.mem_cons, List.not_mem_nil, or_false]
    rintro (rfl | rfl | rfl) <;> decide
  obtain ⟨before, after, hwords, hnew⟩ := List.eq_append_cons_of_mem hmem
  have hfind : (floatWords.findSome? fun other => do
      let rest ← word other (name.toList ++ rest)
      let y ← Binary64.read? other.toList
      return (y, rest)) = some (x, rest) := by
    refine List.findSome?_eq_some_iff.mpr ⟨before, name, after, hwords, by simp [hword, hx], ?_⟩
    intro other hbefore
    have hne : other ≠ name := fun h => hnew (h ▸ hbefore)
    rw [hother other (hwords ▸ List.mem_append_left _ hbefore) hne]
    rfl
  simp only [float, hfind, Option.some_or]

theorem reads_float {layout : Layout} (hlayout : layout.Readable) (x : Binary64) :
    Reads float (layout.write x) x.withoutPayload := by
  have hread := Binary64.read?_write hlayout x
  obtain ⟨-, hwrite⟩ | ⟨-, -, hwrite⟩ | ⟨-, hfinite, hwrite⟩ := Binary64.write_cases hlayout x
  · rw [hwrite] at hread ⊢
    exact ⟨⟨'N', _, rfl, by decide⟩, fun rest hrest => float_of_word (by decide) hread hrest⟩
  · rw [hwrite] at hread ⊢
    split at hread
    · next hnegative =>
      rw [if_pos hnegative]
      exact ⟨⟨'-', _, rfl, by decide⟩, fun rest hrest => float_of_word (by decide) hread hrest⟩
    · next hpositive =>
      rw [if_neg hpositive]
      exact ⟨⟨'i', _, rfl, by decide⟩, fun rest hrest => float_of_word (by decide) hread hrest⟩
  · have hform := Layout.isFractional_magnitude (by decide) hfinite hlayout.exponentMark
    obtain ⟨c, cs, hmagnitude, hc⟩ := hform.begins
    let sign : List Char := if x.decode.negative then ['-'] else []
    have hsign : sign ∈ [[], ['-']] := by
      simp only [sign]
      split <;> decide
    have hchars : ∀ d ∈ layout.write x, isFloatChar d := by
      intro d hd
      rw [hwrite, List.mem_append] at hd
      rcases hd with hd | hd
      · split at hd
        · rw [List.mem_singleton] at hd
          subst hd
          decide
        · cases hd
      · rcases hform.among d hd with hd | rfl | rfl | rfl
        · simp [isFloatChar, hd]
        all_goals decide
    rw [hmagnitude] at hwrite
    refine ⟨?_, fun rest hrest => ?_⟩
    · rw [hwrite]
      split
      · exact ⟨'-', _, rfl, by decide⟩
      · exact .of_kind hc (by decide) cs
    · rw [float_of_digits hsign hc hwrite hchars hrest, hread]
      rfl

end Numbers

section Strings

/-- A code in hexadecimal digits, up to the brace behind it. -/
theorem escape_code (c : Char) (rest : List Char) :
    escape ('u' :: '\x7b' :: (Text.digits 16 c.toNat ++ '}' :: rest)) = some (c, rest) := by
  have hvalid : c.toNat.isValidChar := c.valid
  have hcode : c.toNat < 16 ^ 6 := by
    rcases hvalid with h | h <;> omega
  have hlength := Text.length_digits_le (by decide : 2 ≤ 16) (by decide) hcode
  have hdigits : ∀ d ∈ Text.digits 16 c.toNat, (d != '}') := by
    intro d hd
    have hsome := Text.isSome_digitValue?_of_mem_digits (by decide : 2 ≤ 16) (by decide) hd
    rw [bne_iff_ne]
    rintro rfl
    exact absurd hsome (by decide)
  have htake : ((Text.digits 16 c.toNat ++ '}' :: rest).take 6).takeWhile (· != '}') =
      Text.digits 16 c.toNat := by
    rw [List.take_append, List.take_of_length_le hlength]
    refine (Text.span_append hdigits fun d hd => ?_).1
    generalize 6 - (Text.digits 16 c.toNat).length = count at hd
    cases count with
    | zero => cases hd
    | succ count =>
      cases hd
      rfl
  have hread : charOfHex? (Text.digits 16 c.toNat) = some c := by
    rw [charOfHex?, Text.readNat?_digits (by decide) (by decide), Option.bind_some, if_pos hvalid,
      Char.ofNat_toNat]
  simp only [escape, htake, hread, Option.bind_some, List.drop_left, expect, if_true,
    Option.map_some]

/-- A character is written by itself, or it is what the escape behind a backslash stands for. -/
theorem writeChar_cases (c : Char) :
    (writeChar c = [c] ∧ c ≠ '"' ∧ c ≠ '\\') ∨
    ∃ escaped, writeChar c = '\\' :: escaped ∧
      ∀ rest, escape (escaped ++ rest) = some (c, rest) := by
  unfold writeChar
  split
  · next h => exact .inr ⟨_, rfl, fun _ => by rw [h]; rfl⟩
  split
  · next h => exact .inr ⟨_, rfl, fun _ => by rw [h]; rfl⟩
  split
  · next h => exact .inr ⟨_, rfl, fun _ => by rw [h]; rfl⟩
  split
  · next h => exact .inr ⟨_, rfl, fun _ => by rw [h]; rfl⟩
  split
  · next h =>
    rcases h with rfl | rfl | rfl <;> exact .inr ⟨_, rfl, fun _ => rfl⟩
  split
  · next h _ =>
    rw [not_or, not_or] at h
    exact .inl ⟨rfl, h.2⟩
  · refine .inr ⟨'u' :: '\x7b' :: (Text.digits 16 c.toNat ++ ['}']), rfl, fun rest => ?_⟩
    rw [List.cons_append, List.cons_append, List.append_assoc]
    exact escape_code c rest

theorem stringBody_writeChar (text : List Char) {rest : List Char} {fuel : Nat}
    (hfuel : (text.flatMap writeChar).length < fuel) :
    stringBody fuel (text.flatMap writeChar ++ '"' :: rest) = some (text, rest) := by
  induction text generalizing fuel with
  | nil =>
    obtain ⟨fuel, rfl⟩ := Nat.exists_eq_add_one.mpr (Nat.zero_lt_of_lt hfuel)
    rfl
  | cons c text ih =>
    obtain ⟨fuel, rfl⟩ := Nat.exists_eq_add_one.mpr (Nat.zero_lt_of_lt hfuel)
    rw [List.flatMap_cons, List.length_append] at hfuel
    rw [List.flatMap_cons, List.append_assoc]
    obtain ⟨hself, hquote, hbackslash⟩ | ⟨escaped, hescaped, hread⟩ := writeChar_cases c
    · rw [hself, List.length_singleton] at hfuel
      rw [hself, List.singleton_append, stringBody, if_neg hquote, if_neg hbackslash,
        ih (by omega)]
      rfl
    · rw [hescaped, List.length_cons] at hfuel
      rw [hescaped, List.cons_append, stringBody, if_neg (by decide), if_pos rfl, hread,
        Option.bind_some]
      dsimp only
      rw [ih (by omega)]
      rfl

theorem reads_string (text : String) : Reads string (writeString text) text.toList where
  begins := ⟨'"', _, rfl, by decide⟩
  reads rest _ := by
    have hfuel : (text.toList.flatMap writeChar).length <
        (text.toList.flatMap writeChar ++ '"' :: rest).length := by
      rw [List.length_append, List.length_cons]
      omega
    rw [writeString, List.cons_append, List.append_assoc]
    exact stringBody_writeChar text.toList hfuel

end Strings

section Groups

variable {α : Type} {item : Reader α}

theorem Reads.parenthesized {written : List Char} {a : α} (hitem : Reads item written a)
    (rest : List Char) : parenthesized item ('(' :: (written ++ ')' :: rest)) = some (a, rest) := by
  have hopen : skipBlank ('(' :: (written ++ ')' :: rest)) = some ('(' :: (written ++ ')' :: rest)) :=
    skipBlank_of_begins ⟨'(', _, rfl, by decide⟩
  have hinner := skipBlank_of_begins (hitem.begins.append (')' :: rest))
  have hread := hitem.reads (')' :: rest) (ends_cons (by decide) rest)
  have hcomma := comma_of_close (show ')' ∈ [')', ']'] by decide) rest
  simp [Ron.parenthesized, hopen, expect, hinner, hread, hcomma]

/-- What is written begins with no closing character. -/
theorem Begins.head?_ne {cs : List Char} (hcs : Begins cs) {close : Char}
    (hclose : close ∈ [')', ']']) : cs.head? ≠ some close := by
  obtain ⟨c, rest, rfl, hc⟩ := hcs
  rintro h
  cases h
  exact hc (List.mem_append_right _ (List.mem_cons_of_mem _ hclose))

theorem items_of_close {close : Char} (hclose : close ∈ [')', ']']) (rest : List Char) (fuel : Nat)
    (mayBegin : Bool) :
    items item close (fuel + 1) mayBegin (close :: rest) = some ([], close :: rest) := by
  have hskip : skipBlank (close :: rest) = some (close :: rest) :=
    skipBlank_of_ends (ends_cons (List.mem_cons_of_mem _ hclose) rest)
  simp [items, hskip]

theorem Begins.intercalate {text : List Char} (htext : Begins text) (texts : List (List Char)) :
    Begins ([','].intercalate (text :: texts)) := by
  cases texts with
  | nil => rwa [List.intercalate_singleton]
  | cons next texts =>
    rw [List.intercalate_cons_cons, List.append_assoc]
    exact htext.append _

/-- Items that are written with commas between them are read in order. -/
theorem items_intercalate {close : Char} (hclose : close ∈ [')', ']']) (rest : List Char)
    {texts : List (List Char)} {as : List α} (hitems : List.Forall₂ (Reads item) texts as)
    {fuel : Nat} (hfuel : texts.length < fuel) :
    items item close fuel true ([','].intercalate texts ++ close :: rest) =
      some (as, close :: rest) := by
  induction hitems generalizing fuel with
  | nil =>
    obtain ⟨fuel, rfl⟩ := Nat.exists_eq_add_one.mpr (Nat.zero_lt_of_lt hfuel)
    exact items_of_close hclose rest fuel true
  | @cons text a texts as hitem hitems ih =>
    obtain ⟨fuel, rfl⟩ := Nat.exists_eq_add_one.mpr (Nat.zero_lt_of_lt hfuel)
    have hfuel : texts.length < fuel := Nat.lt_of_succ_lt_succ hfuel
    -- The comma tells whether another item has to follow.
    obtain ⟨after, more, next, htext, hends, hcomma, hrest⟩ : ∃ after more next,
        [','].intercalate (text :: texts) ++ close :: rest = text ++ after ∧ Ends after ∧
        comma after = some (more, next) ∧
        items item close fuel more next = some (as, close :: rest) := by
      cases hitems with
      | nil =>
        obtain ⟨fuel, rfl⟩ := Nat.exists_eq_add_one.mpr (Nat.zero_lt_of_lt hfuel)
        refine ⟨close :: rest, false, close :: rest, ?_, ?_, comma_of_close hclose rest,
          items_of_close hclose rest fuel false⟩
        · simp [List.intercalate]
        · exact ends_cons (List.mem_cons_of_mem _ hclose) rest
      | @cons text' a' texts as hnext hitems =>
        refine ⟨',' :: ([','].intercalate (text' :: texts) ++ close :: rest), true, _, ?_,
          ends_cons (by decide) _, comma_of_begins ?_, ih hfuel⟩
        · simp [List.intercalate]
        · exact (hnext.begins.intercalate texts).append _
    have hbegins := hitem.begins.append after
    have hhead := hbegins.head?_ne hclose
    have hread := hitem.reads after hends
    rw [htext]
    simp only [items, skipBlank_of_begins hbegins, Option.bind_eq_bind, Option.bind_some, hhead,
      if_false, Bool.not_true, Bool.false_eq_true, hread, hcomma, hrest]
    rfl

/-- Written items are no more than there are characters in them. -/
theorem length_le_intercalate {texts : List (List Char)} {as : List α}
    (hitems : List.Forall₂ (Reads item) texts as) :
    texts.length ≤ ([','].intercalate texts).length := by
  induction hitems with
  | nil => exact Nat.zero_le _
  | @cons text a texts as hitem hitems ih =>
    obtain ⟨c, rest, htext, -⟩ := hitem.begins
    have hpositive : 0 < text.length := by simp [htext]
    cases texts with
    | nil =>
      rw [List.intercalate_singleton]
      exact hpositive
    | cons next texts =>
      simp only [List.intercalate_cons_cons, List.length_append, List.length_cons,
        List.length_nil] at ih ⊢
      omega

theorem enclosed_intercalate {first last : Char} (hlast : last ∈ [')', ']'])
    {texts : List (List Char)} {as : List α} (hitems : List.Forall₂ (Reads item) texts as)
    (rest : List Char) :
    enclosed first last item (first :: ([','].intercalate texts ++ last :: rest)) =
      some (as, rest) := by
  have hfuel : texts.length < ([','].intercalate texts ++ last :: rest).length + 1 := by
    have hle := length_le_intercalate hitems
    rw [List.length_append]
    omega
  have hread := items_intercalate hlast rest hitems hfuel
  simp only [enclosed, expect, if_true, Option.bind_eq_bind, Option.bind_some, hread]
  rfl

theorem begins_of_isName {name : List Char} (hname : isName name) : Begins name := by
  match name, hname with
  | c :: d :: cs, hname =>
    rw [isName, Bool.and_eq_true] at hname
    exact .of_kind hname.1 (by decide) _

/-- A field is read by the reader that its name tells. -/
theorem Reads.named {name : String} {content : List Char} {value : List Char → Reader α} {a : α}
    (hname : isName name.toList) (hvalue : Reads (value name.toList) content a) :
    Reads (named value) (writeField name content) a where
  begins := (begins_of_isName hname).append _
  reads rest hrest := by
    have hcolon : isRawPart ':' = false := rfl
    have hidentifier := identifier_append hname
      (Text.forall_mem_head?_cons hcolon (content ++ rest))
    have hskip : skipBlank (':' :: (content ++ rest)) = some (':' :: (content ++ rest)) :=
      skipBlank_of_begins ⟨':', _, rfl, by decide⟩
    have hcontent := skipBlank_of_begins (hvalue.begins.append rest)
    simp [Ron.named, writeField, hidentifier, hskip, expect, hcontent, hvalue.reads rest hrest]

end Groups

end DualCall.Ron
