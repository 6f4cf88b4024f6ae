import DualCall.Proofs.Ron.Lexeme
import DualCall.Proofs.Signature.Fields
import DualCall.Ron.Reader

namespace DualCall

theorem mapM_eq_some_iff {α β : Type} {f : α → Option β} {as : List α} {bs : List β} :
    as.mapM f = some bs ↔ List.Forall₂ (fun a b => f a = some b) as bs := by
  induction as generalizing bs with
  | nil => simp [eq_comm]
  | cons a as ih =>
    rw [List.mapM_cons, List.forall₂_cons_left_iff]
    constructor
    · intro h
      obtain ⟨b, hb, h⟩ := Option.bind_eq_some_iff.mp h
      obtain ⟨rest, hrest, h⟩ := Option.bind_eq_some_iff.mp h
      cases h
      exact ⟨b, rest, hb, ih.mp hrest, rfl⟩
    · rintro ⟨b, rest, hb, hrest, rfl⟩
      simp [hb, ih.mpr hrest]

namespace Ron

theorem readable_layout : layout.Readable := ⟨rfl, rfl, rfl, rfl⟩

section Parts

/-- A reader that goes by a name and then reads something in parentheses takes what is written
    behind that name. -/
theorem Reads.tagged {α β : Type} {inner : Reader α} {content : List Char} {a : α}
    (hinner : Reads inner content a) {name : String} (hname : isName name.toList)
    {reader : Reader β} (build : α → β)
    (hreader : ∀ cs after, identifier cs = some (name.toList, after) →
      reader cs = (Ron.parenthesized inner after).map fun (a, rest) => (build a, rest)) :
    Reads reader (writeTagged name content) (build a) where
  begins := (begins_of_isName hname).append _
  reads rest _ := by
    have hopen : isRawPart '(' = false := rfl
    have hidentifier := identifier_append hname
      (Text.forall_mem_head?_cons hopen (content ++ ')' :: rest))
    rw [writeTagged, List.append_assoc, List.cons_append, List.append_assoc, List.singleton_append,
      hreader _ _ hidentifier, hinner.parenthesized, Option.map_some]

theorem reads_type (t : NativeType) : Reads type (writeType t) t := by
  have hname : isName t.tag.toList := by cases t <;> decide
  have htag : NativeType.ofTag? t.tag = some t := by cases t <;> decide
  refine ⟨begins_of_isName hname, fun rest hrest => ?_⟩
  simp [type, writeType, identifier_append hname (hrest.head (by decide)), htag]

theorem reads_bool (b : Bool) : Reads bool (if b then "true" else "false").toList b := by
  cases b with
  | true =>
    refine ⟨⟨'t', _, rfl, by decide⟩, fun rest hrest => ?_⟩
    have hword : word "true" ("true".toList ++ rest) = some rest := word_append "true" hrest
    simp only [if_true, bool, hword]
  | false =>
    refine ⟨⟨'f', _, rfl, by decide⟩, fun rest hrest => ?_⟩
    have hword : word "false" ("false".toList ++ rest) = some rest := word_append "false" hrest
    have hother : word "true" ("false".toList ++ rest) = none := by simp [word, expectRun]
    simp only [Bool.false_eq_true, if_false, bool, hword, hother]

/-- A value is what its kind tells. -/
theorem value_of_kind {cs kind after : List Char} (hkind : identifier cs = some (kind, after)) :
    value cs =
      if kind = "Null".toList then some (.null, after)
      else if kind = "Bool".toList then
        (parenthesized bool after).map fun (b, rest) => (.bool b, rest)
      else if kind = "Int".toList then
        (parenthesized int64 after).map fun (n, rest) => (.int n, rest)
      else if kind = "Float".toList then
        (parenthesized float after).map fun (x, rest) => (.float x, rest)
      else if kind = "Pointer".toList then
        (parenthesized uint64 after).map fun (address, rest) => (.pointer address, rest)
      else none := by
  rw [value, hkind]
  rfl

theorem spec_of_kind {cs kind after : List Char} (hkind : identifier cs = some (kind, after)) :
    spec cs =
      if kind = "Bare".toList then
        (parenthesized type after).map fun (t, rest) => (.bare t, rest)
      else if kind = "WithDefault".toList then
        (parenthesized pair after).map fun (content, rest) =>
          (.paired content.1 content.2, rest)
      else none := by
  rw [spec, hkind]
  rfl

/-- Data is read as it was written, up to the payload of what is no number. -/
theorem reads_value {v : Value} {written : List Char} (hwritten : writeValue? v = some written) :
    Reads value written v.withoutPayload := by
  cases v with
  | null =>
    cases hwritten
    have hname : isName "Null".toList := by decide
    refine ⟨begins_of_isName hname, fun rest hrest => ?_⟩
    have hidentifier := identifier_append hname (hrest.head (by decide))
    rw [value_of_kind hidentifier, if_pos rfl]
    rfl
  | bool b =>
    cases hwritten
    have hname : isName "Bool".toList := by decide
    refine (reads_bool b).tagged hname Value.bool fun cs after hkind => ?_
    rw [value_of_kind hkind, if_neg (by decide), if_pos rfl]
  | int n =>
    cases hwritten
    have hname : isName "Int".toList := by decide
    refine (reads_int64 n).tagged hname Value.int fun cs after hkind => ?_
    rw [value_of_kind hkind, if_neg (by decide), if_neg (by decide), if_pos rfl]
  | float x =>
    cases hwritten
    have hname : isName "Float".toList := by decide
    refine (reads_float readable_layout x).tagged hname Value.float fun cs after hkind => ?_
    rw [value_of_kind hkind, if_neg (by decide), if_neg (by decide), if_neg (by decide), if_pos rfl]
  | pointer address =>
    cases hwritten
    have hname : isName "Pointer".toList := by decide
    refine (reads_uint64 address).tagged hname Value.pointer fun cs after hkind => ?_
    rw [value_of_kind hkind, if_neg (by decide), if_neg (by decide), if_neg (by decide),
      if_neg (by decide), if_pos rfl]
  | procedure p => cases hwritten
  | unified c => cases hwritten

theorem reads_pair (t : NativeType) {v : Value} {written : List Char}
    (hwritten : writeValue? v = some written) :
    Reads pair (writeType t ++ ',' :: written) (t, v.withoutPayload) where
  begins := (reads_type t).begins.append _
  reads rest hrest := by
    have hvalue := reads_value hwritten
    have htype := (reads_type t).reads (',' :: (written ++ rest)) (ends_cons (by decide) _)
    have hcomma := comma_of_begins (hvalue.begins.append rest)
    rw [List.append_assoc, List.cons_append, pair, htype]
    simp only [Option.bind_eq_bind, Option.bind_some, hcomma, hvalue.reads rest hrest]
    rfl

theorem reads_spec {s : ArgSpec} {written : List Char} (hwritten : writeSpec? s = some written) :
    Reads spec written s.withoutPayload := by
  cases s with
  | bare t =>
    cases hwritten
    have hname : isName "Bare".toList := by decide
    refine (reads_type t).tagged hname ArgSpec.bare fun cs after hkind => ?_
    rw [spec_of_kind hkind, if_pos rfl]
  | paired t default =>
    obtain ⟨written, hdefault, rfl⟩ := Option.map_eq_some_iff.mp hwritten
    have hname : isName "WithDefault".toList := by decide
    refine (reads_pair t hdefault).tagged hname (fun content => ArgSpec.paired content.1 content.2)
      fun cs after hkind => ?_
    rw [spec_of_kind hkind, if_neg (by decide), if_pos rfl]

/-- Written forms of items are read one by one as the items. -/
theorem forall_reads_of_mapM {α β : Type} {write? : α → Option (List Char)} {item : Reader β}
    {value : α → β} (hitem : ∀ a written, write? a = some written → Reads item written (value a))
    {as : List α} {texts : List (List Char)} (htexts : as.mapM write? = some texts) :
    List.Forall₂ (Reads item) texts (as.map value) := by
  rw [List.forall₂_map_right_iff]
  exact ((mapM_eq_some_iff.mp htexts).imp hitem).flip

theorem reads_specs {specs : List ArgSpec} {texts : List (List Char)}
    (htexts : specs.mapM writeSpec? = some texts) :
    Reads (list spec) (writeList texts) (specs.map ArgSpec.withoutPayload) where
  begins := ⟨'[', _, rfl, by decide⟩
  reads rest _ := by
    have hspecs := forall_reads_of_mapM (fun _ _ => reads_spec) htexts
    rw [writeList, List.cons_append, List.append_assoc]
    exact enclosed_intercalate (by decide) hspecs rest

theorem reads_optional (extensions : Extensions) (text : Option String) :
    Reads (optional extensions string) (writeOptional text) (text.map String.toList) := by
  cases text with
  | none =>
    refine ⟨⟨'N', _, rfl, by decide⟩, fun rest _ => ?_⟩
    rw [writeOptional, optional]
    simp only [expectRun_append]
    rfl
  | some text =>
    refine ⟨⟨'S', _, rfl, by decide⟩, fun rest _ => ?_⟩
    have hwritten : writeOptional (some text) ++ rest =
        "Some".toList ++ '(' :: (writeString text ++ ')' :: rest) := by
      simp [writeOptional, writeTagged]
    have hnone : expectRun "None" ("Some".toList ++ '(' :: (writeString text ++ ')' :: rest)) =
        none := by simp [expectRun]
    have hskip : skipBlank ('(' :: (writeString text ++ ')' :: rest)) =
        some ('(' :: (writeString text ++ ')' :: rest)) := skipBlank_of_begins ⟨'(', _, rfl, by decide⟩
    rw [hwritten, optional]
    simp only [hnone, expectRun_append, hskip, Option.bind_eq_bind, Option.bind_some,
      List.head?_cons, if_true, (reads_string text).parenthesized, Option.map_some]

end Parts

section Fields

/-- A field as it is written; a field of another name is none of the signature's. -/
def writeSignatureField? : SignatureField → Option (List Char)
  | .symbol name => some (writeField "symbol" (writeString name))
  | .library path => some (writeField "library" (writeOptional path))
  | .returns type => some (writeField "returns" (writeType type))
  | .args specs =>
    (specs.mapM writeSpec?).map fun texts => writeField "args" (writeList texts)
  | .unknown => none

/-- A written field is read as the field. -/
theorem reads_field (extensions : Extensions) {field : SignatureField} {written : List Char}
    (hwritten : writeSignatureField? field = some written) :
    Reads (named (signatureField extensions)) written field.withoutPayload := by
  cases field with
  | symbol name =>
    cases hwritten
    have hstring := reads_string name
    refine Reads.named (by decide) ⟨hstring.begins, fun rest hrest => ?_⟩
    rw [signatureField, if_pos rfl, hstring.reads rest hrest, Option.map_some]
    dsimp only
    rw [String.ofList_toList]
    rfl
  | library path =>
    cases hwritten
    have hoptional := reads_optional extensions path
    have hpath : (path.map String.toList).map String.ofList = path := by
      cases path <;> simp
    refine Reads.named (by decide) ⟨hoptional.begins, fun rest hrest => ?_⟩
    rw [signatureField, if_neg (by decide), if_pos rfl, hoptional.reads rest hrest, Option.map_some]
    dsimp only
    rw [hpath]
    rfl
  | returns t =>
    cases hwritten
    have htype := reads_type t
    refine Reads.named (by decide) ⟨htype.begins, fun rest hrest => ?_⟩
    rw [signatureField, if_neg (by decide), if_neg (by decide), if_pos rfl, htype.reads rest hrest]
    rfl
  | args specs =>
    obtain ⟨texts, htexts, rfl⟩ := Option.map_eq_some_iff.mp hwritten
    have hspecs := reads_specs htexts
    refine Reads.named (by decide) ⟨hspecs.begins, fun rest hrest => ?_⟩
    rw [signatureField, if_neg (by decide), if_neg (by decide), if_neg (by decide), if_pos rfl,
      hspecs.reads rest hrest]
    rfl
  | unknown => cases hwritten

/-- The fields of a signature, before they are put together. -/
def signatureFields (extensions : Extensions) : Reader (List SignatureField) := fun cs => do
  let cs ←
    if cs.head?.any isIdentPart then
      match identifier cs with
      | some (name, rest) => if name = "Signature".toList then some rest else none
      | none => none
    else some cs
  let cs ← skipBlank cs
  enclosed '(' ')' (named (signatureField extensions)) cs

/-- The fields that a text in the notation holds, whatever they are. -/
def fields? (text : String) : Option (List SignatureField) := document? signatureFields text

theorem signature_eq (extensions : Extensions) (cs : List Char) :
    signature extensions cs = (signatureFields extensions cs).bind fun (fields, rest) =>
      (Signature.ofFields? fields).map fun s => (s, rest) := by
  have hfields (cs : List Char) :
      (do
        let cs ← skipBlank cs
        let (fields, cs) ← enclosed '(' ')' (named (signatureField extensions)) cs
        let result ← Signature.ofFields? fields
        return (result, cs)) =
      (do
        let cs ← skipBlank cs
        enclosed '(' ')' (named (signatureField extensions)) cs : Option _).bind
        fun (fields, rest) => (Signature.ofFields? fields).map fun s => (s, rest) := by
    cases skipBlank cs with
    | none => rfl
    | some cs =>
      cases hread : enclosed '(' ')' (named (signatureField extensions)) cs with
      | none => simp [hread]
      | some result =>
        simp only [hread, Option.bind_eq_bind, Option.bind_some]
        cases Signature.ofFields? result.1 <;> rfl
  rw [signature, signatureFields]
  split
  · cases identifier cs with
    | none => rfl
    | some result =>
      dsimp only
      split
      · exact hfields result.2
      · rfl
  · exact hfields cs

/-- A text holds a signature when its fields are those of one. -/
theorem ofRon?_eq (text : String) :
    Signature.ofRon? text = (fields? text).bind Signature.ofFields? := by
  unfold Signature.ofRon? fields? document?
  simp only [Option.bind_eq_bind]
  cases skipBlank text.toList with
  | none => rfl
  | some cs =>
    simp only [Option.bind_some]
    cases attributes (cs.length + 1) ⟨false⟩ cs with
    | none => rfl
    | some attributes =>
      simp only [Option.bind_some, signature_eq]
      cases signatureFields attributes.1 attributes.2 with
      | none => rfl
      | some result =>
        obtain ⟨fields, rest⟩ := result
        simp only [Option.bind_some]
        cases hblank : skipBlank rest with
        | none => cases Signature.ofFields? fields <;> simp [hblank]
        | some rest' =>
          cases hresult : Signature.ofFields? fields <;> by_cases hend : rest' = [] <;>
            simp [hblank, hresult, hend]

/-- Fields that are written one after the other are read in this order, whichever they are. -/
theorem fields?_writeFields {fields : List SignatureField} {texts : List (List Char)}
    (htexts : fields.mapM writeSignatureField? = some texts) :
    fields? (String.ofList (writeFields texts)) =
      some (fields.map SignatureField.withoutPayload) := by
  have hfields := forall_reads_of_mapM (fun _ _ => reads_field ⟨false⟩) htexts
  have hhead : ¬ (writeFields texts).head?.any isIdentPart := by
    show ¬ isIdentPart '('
    decide
  have hskip : skipBlank (writeFields texts) = some (writeFields texts) :=
    skipBlank_of_begins ⟨'(', _, rfl, by decide⟩
  have hattributes : attributes ((writeFields texts).length + 1) ⟨false⟩ (writeFields texts) =
      some (⟨false⟩, writeFields texts) := rfl
  have hsignature : signatureFields ⟨false⟩ (writeFields texts) =
      some (fields.map SignatureField.withoutPayload, []) := by
    rw [signatureFields, if_neg hhead]
    simp only [Option.bind_eq_bind, Option.bind_some, hskip]
    exact enclosed_intercalate (by decide) hfields []
  rw [fields?, document?, String.toList_ofList]
  simp only [Option.bind_eq_bind, Option.bind_some, hskip, hattributes, hsignature]
  rfl

end Fields

section Writing

theorem exists_mapM_eq_some {α β : Type} {f : α → Option β} {as : List α}
    (hf : ∀ a ∈ as, ∃ b, f a = some b) : ∃ bs, as.mapM f = some bs := by
  induction as with
  | nil => exact ⟨[], rfl⟩
  | cons a as ih =>
    obtain ⟨ha, has⟩ := List.forall_mem_cons.mp hf
    obtain ⟨b, hb⟩ := ha
    obtain ⟨bs, hbs⟩ := ih has
    exact ⟨b :: bs, by simp [List.mapM_cons, hb, hbs]⟩

theorem exists_writeValue? {v : Value} (hv : v.isData) : ∃ written, writeValue? v = some written := by
  cases v with
  | procedure p => cases hv
  | unified c => cases hv
  | _ => exact ⟨_, rfl⟩

/-- Every specification of data can be written. -/
theorem exists_writeSpecs? {specs : List ArgSpec} (hspecs : ∀ spec ∈ specs, spec.isData) :
    ∃ texts, specs.mapM writeSpec? = some texts := by
  refine exists_mapM_eq_some fun spec hspec => ?_
  cases spec with
  | bare t => exact ⟨_, rfl⟩
  | paired t default =>
    have hdefault : default.isData := by simpa [ArgSpec.isData, ArgSpec.default?] using hspecs _ hspec
    obtain ⟨written, hwritten⟩ := exists_writeValue? hdefault
    exact ⟨_, by rw [writeSpec?, hwritten]; rfl⟩

end Writing

end Ron

namespace Signature

variable {s : Signature} {fields : List SignatureField}

/-- Fields that describe a signature of data can be written. -/
theorem DescribedBy.exists_write? (hfields : s.DescribedBy fields) (hdata : s.IsData) :
    ∃ texts, fields.mapM Ron.writeSignatureField? = some texts := by
  obtain ⟨library, args, hperm, hlibrary, hargs⟩ := hfields
  obtain ⟨specs, hspecs⟩ := Ron.exists_writeSpecs? hdata
  have hwritten : ∃ written, Ron.writeSignatureField? (.args s.args) = some written :=
    ⟨_, by rw [Ron.writeSignatureField?, hspecs]; rfl⟩
  refine Ron.exists_mapM_eq_some fun field hfield => ?_
  have hmem := hperm.mem_iff.mp hfield
  rcases List.mem_cons.mp hmem with rfl | hmem
  · exact ⟨_, rfl⟩
  rcases List.mem_cons.mp hmem with rfl | hmem
  · exact ⟨_, rfl⟩
  rcases List.mem_append.mp hmem with hmem | hmem
  · rcases hlibrary with rfl | ⟨-, rfl⟩
    · rw [List.mem_singleton.mp hmem]
      exact ⟨_, rfl⟩
    · cases hmem
  · rcases hargs with rfl | ⟨-, rfl⟩
    · rw [List.mem_singleton.mp hmem]
      exact hwritten
    · cases hmem

/-- A signature is written field by field. -/
theorem writeSignature?_eq (s : Signature) :
    Ron.writeSignature? s = ([.symbol s.symbol, .library s.library, .returns s.returns,
      .args s.args].mapM Ron.writeSignatureField?).map Ron.writeFields := by
  rw [Ron.writeSignature?]
  cases hargs : s.args.mapM Ron.writeSpec? <;> simp [List.mapM_cons, Ron.writeSignatureField?, hargs]

/-- What is written of a signature of data is read as it, up to the payload of what is no number:
    all four fields in their order, or in any other one, where a library that there is not and
    arguments that there are not may be left out. Fields of which the symbol or the returned type is
    missing, or one is doubled, are refused, written in this way or in any other. -/
theorem ron_round_trip :
    (∀ s : Signature, s.IsData → ∃ text, Ron.writeSignature? s = some text ∧
      ofRon? (String.ofList text) = some s.withoutPayload) ∧
    (∀ (s : Signature) (fields : List SignatureField), s.IsData → s.DescribedBy fields →
      ∃ texts, fields.mapM Ron.writeSignatureField? = some texts ∧
        ofRon? (String.ofList (Ron.writeFields texts)) = some s.withoutPayload) ∧
    (∀ (fields : List SignatureField) texts, fields.mapM Ron.writeSignatureField? = some texts →
      Faulty fields →
      ofRon? (String.ofList (Ron.writeFields texts)) = none) ∧
    (∀ text, ofRon? text = none ↔ ∀ fields, Ron.fields? text = some fields → Faulty fields) := by
  have hdescribed : ∀ (s : Signature) (fields : List SignatureField), s.IsData →
      s.DescribedBy fields →
      ∃ texts, fields.mapM Ron.writeSignatureField? = some texts ∧
        ofRon? (String.ofList (Ron.writeFields texts)) = some s.withoutPayload := by
    intro s fields hdata hfields
    obtain ⟨texts, htexts⟩ := hfields.exists_write? hdata
    refine ⟨texts, htexts, ?_⟩
    rw [Ron.ofRon?_eq, Ron.fields?_writeFields htexts, Option.bind_some,
      hfields.withoutPayload.ofFields?_eq]
  have hrefused : ∀ text, ofRon? text = none ↔
      ∀ fields, Ron.fields? text = some fields → Faulty fields := by
    intro text
    rw [Ron.ofRon?_eq, Option.bind_eq_none_iff]
    exact forall₂_congr fun fields _ => ofFields?_eq_none_iff
  refine ⟨fun s hdata => ?_, hdescribed, fun fields texts htexts hfaulty => ?_, hrefused⟩
  · have hall : s.DescribedBy [.symbol s.symbol, .library s.library, .returns s.returns,
        .args s.args] :=
      ⟨[.library s.library], [.args s.args], .cons _ (.swap _ _ _), .inl rfl, .inl rfl⟩
    obtain ⟨texts, htexts, hread⟩ := hdescribed s _ hdata hall
    exact ⟨_, by rw [writeSignature?_eq, htexts]; rfl, hread⟩
  · rw [hrefused, Ron.fields?_writeFields htexts]
    intro read hread
    cases hread
    exact faulty_withoutPayload.mpr hfaulty

/-- A symbol with quotes and a line break, the least integer and no number come back from a text
    whose fields are turned around and that has no library. The same text with its returned type
    written twice does not hold a signature. -/
theorem ron_round_trip_extremes :
    let s : Signature := ⟨"a\"\\\n'é", none, .f32,
      [.paired .i64 (.int Int64.minValue), .paired .f64 (.float Binary64.nan)]⟩
    let fields : List SignatureField := [.args s.args, .returns .f32, .symbol s.symbol]
    let args := "args:[WithDefault(I64,Int(-9223372036854775808)),WithDefault(F64,Float(NaN))]"
    let symbol := "symbol:\"a\\\"\\\\\\n\\'é\""
    s.IsData ∧ s.DescribedBy fields ∧ Faulty (.returns .f32 :: fields) ∧
      ofRon? ("(" ++ args ++ ",returns:F32," ++ symbol ++ ")") = some s ∧
      ofRon? ("(returns:F32," ++ args ++ ",returns:F32," ++ symbol ++ ")") = none := by
  intro s fields args symbol
  have hdata : s.IsData := by decide
  have hfields : s.DescribedBy fields :=
    ⟨[], [.args s.args],
      List.reverse_perm [SignatureField.symbol s.symbol, .returns .f32, .args s.args],
      .inr ⟨rfl, rfl⟩, .inl rfl⟩
  have hfaulty : Faulty (.returns .f32 :: fields) := by
    simp [Faulty, fields, SignatureField.returns?]
  have hsame : s.withoutPayload = s := by rfl
  have hdecimal : Text.signedDecimal Int64.minValue.toInt = "-9223372036854775808".toList := by
    simp [Text.signedDecimal, Text.decimal, Text.digits, Text.digitChar]
  have hint : Ron.writeSpec? (.paired .i64 (.int Int64.minValue)) =
      some "WithDefault(I64,Int(-9223372036854775808))".toList := by
    rw [Ron.writeSpec?, Ron.writeValue?, hdecimal]
    rfl
  have hnan : Ron.writeSpec? (.paired .f64 (.float Binary64.nan)) =
      some "WithDefault(F64,Float(NaN))".toList := by decide +kernel
  have hargs : Ron.writeSignatureField? (.args s.args) = some args.toList := by
    simp only [s, Ron.writeSignatureField?, List.mapM_cons, hint, hnan]
    decide +kernel
  have hsymbol : Ron.writeSignatureField? (.symbol s.symbol) = some symbol.toList := by decide +kernel
  have hwritten : fields.mapM Ron.writeSignatureField? =
      some [args.toList, "returns:F32".toList, symbol.toList] := by
    rw [List.mapM_cons, List.mapM_cons, List.mapM_cons, hargs, hsymbol]
    rfl
  have htwice : (SignatureField.returns .f32 :: fields).mapM Ron.writeSignatureField? =
      some ["returns:F32".toList, args.toList, "returns:F32".toList, symbol.toList] := by
    rw [List.mapM_cons, hwritten]
    rfl
  have htext : String.ofList (Ron.writeFields [args.toList, "returns:F32".toList, symbol.toList]) =
      "(" ++ args ++ ",returns:F32," ++ symbol ++ ")" := by decide +kernel
  have htext' : String.ofList (Ron.writeFields ["returns:F32".toList, args.toList,
      "returns:F32".toList, symbol.toList]) =
      "(returns:F32," ++ args ++ ",returns:F32," ++ symbol ++ ")" := by decide +kernel
  obtain ⟨-, hdescribed, hrefused, -⟩ := ron_round_trip
  obtain ⟨texts, htexts, hread⟩ := hdescribed s fields hdata hfields
  rw [hwritten, Option.some.injEq] at htexts
  refine ⟨hdata, hfields, hfaulty, ?_, ?_⟩
  · rw [← htext, htexts, hread, hsame]
  · rw [← htext']
    exact hrefused _ _ htwice hfaulty

end Signature

end DualCall
