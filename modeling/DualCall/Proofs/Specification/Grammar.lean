import DualCall.Proofs.Specification
import DualCall.Proofs.Value.Grammar

namespace DualCall

namespace NativeType

/-- The texts of types. A star anywhere makes an address; otherwise the words, with one space
    between neighbours, are one of the names of the type. -/
inductive Written : List Char → NativeType → Prop
  | star {cs : List Char} (hstar : '*' ∈ cs) : Written cs .pointer
  | name {cs : List Char} {ws : List (List Char)} {type : NativeType} (hstar : '*' ∉ cs)
      (hwords : Text.HasWords cs ws) (hname : String.ofList (Text.unwords ws) ∈ type.names) :
      Written cs type

theorem mem_all (type : NativeType) : type ∈ all := by
  cases type <;> decide

/-- No name has two meanings. -/
theorem eq_of_mem_names {a b : NativeType} {name : String} (ha : name ∈ a.names)
    (hb : name ∈ b.names) : a = b := by
  have hall : ∀ a ∈ all, ∀ b ∈ all, ∀ name ∈ a.names, name ∈ b.names → a = b := by decide +kernel
  exact hall a (mem_all a) b (mem_all b) name ha hb

theorem ofName?_eq_some_iff {name : String} {type : NativeType} :
    ofName? name = some type ↔ name ∈ type.names := by
  have hmeans {type : NativeType} (htype : ofName? name = some type) : name ∈ type.names := by
    simpa using List.find?_some htype
  constructor
  · exact hmeans
  · intro hname
    have hsome : (ofName? name).isSome :=
      List.find?_isSome.mpr ⟨type, mem_all type, by simpa using hname⟩
    obtain ⟨found, hfound⟩ := Option.isSome_iff_exists.mp hsome
    rw [hfound, eq_of_mem_names (hmeans hfound) hname]

theorem read?_eq_some_iff {cs : List Char} {type : NativeType} :
    read? cs = some type ↔ Written cs type := by
  unfold read?
  split
  · next hstar =>
    constructor
    · intro htype
      cases htype
      exact .star hstar
    · rintro (_ | ⟨hnone, -, -⟩)
      · rfl
      · exact absurd hstar hnone
  · next hstar =>
    rw [ofName?_eq_some_iff]
    constructor
    · exact .name hstar (Text.hasWords_words cs)
    · rintro (hsome | ⟨-, hwords, hname⟩)
      · exact absurd hsome hstar
      · rwa [Text.hasWords_iff.mp hwords]

theorem read?_eq_none_iff {cs : List Char} : read? cs = none ↔ ∀ type, ¬ Written cs type := by
  rw [Option.eq_none_iff_forall_ne_some]
  exact forall_congr' fun type => not_congr read?_eq_some_iff

/-- The blanks between and around the words of a type do not matter. -/
theorem Written.of_sameWords {cs ds : List Char} {type : NativeType} (hcs : Written cs type)
    (hsame : Text.SameWords cs ds) : Written ds type := by
  have hstar : '*' ∈ cs ↔ '*' ∈ ds := hsame.mem_iff (by decide)
  cases hcs with
  | star hmem => exact .star (hstar.mp hmem)
  | name hmem hwords hname =>
    obtain ⟨words, hcs, hds⟩ := hsame
    obtain rfl := (Text.hasWords_iff.mp hwords).symm.trans (Text.hasWords_iff.mp hcs)
    exact .name (mt hstar.mpr hmem) hds hname

end NativeType

namespace ArgSpec

/-- The texts of specifications. The first equals sign, if there is one, stands between the type and
    the default. -/
inductive Written : List Char → ArgSpec → Prop
  | bare {cs : List Char} {type : NativeType} (hequals : '=' ∉ cs)
      (htype : NativeType.Written cs type) : Written cs (.bare type)
  | paired {left right literal : List Char} {type : NativeType} {default : Value}
      (hequals : '=' ∉ left) (htype : NativeType.Written left type)
      (htrimmed : Text.Trimmed right literal) (hdefault : Value.Literal literal default) :
      Written (left ++ '=' :: right) (.paired type default)

/-- The texts that are none, and why. What is reported of a type or of a default is its text without
    the blanks at its ends. -/
inductive Refused : List Char → ReadError → Prop
  | bare {cs name : List Char} (hequals : '=' ∉ cs) (htype : ∀ type, ¬ NativeType.Written cs type)
      (htrimmed : Text.Trimmed cs name) : Refused cs (.unknownType ⟨String.ofList name⟩)
  | type {left right name : List Char} (hequals : '=' ∉ left)
      (htype : ∀ type, ¬ NativeType.Written left type) (htrimmed : Text.Trimmed left name) :
      Refused (left ++ '=' :: right) (.unknownType ⟨String.ofList name⟩)
  | default {left right literal : List Char} {type : NativeType} (hequals : '=' ∉ left)
      (htype : NativeType.Written left type) (htrimmed : Text.Trimmed right literal)
      (hdefault : ∀ v, ¬ Value.Literal literal v) :
      Refused (left ++ '=' :: right) (.invalidDefault (String.ofList literal))

/-- Two texts that differ only in their layout: in the blanks at their ends, on either side of the
    first equals sign and between the words of the type. -/
inductive Relaid : List Char → List Char → Prop
  | bare {cs ds : List Char} (hequals : '=' ∉ cs) (hwords : Text.SameWords cs ds) : Relaid cs ds
  | paired {left right left' right' literal : List Char} (hequals : '=' ∉ left)
      (hwords : Text.SameWords left left') (htrimmed : Text.Trimmed right literal)
      (htrimmed' : Text.Trimmed right' literal) :
      Relaid (left ++ '=' :: right) (left' ++ '=' :: right')

theorem Relaid.symm {cs ds : List Char} (hrelaid : Relaid cs ds) : Relaid ds cs := by
  have hequals {cs ds : List Char} (hsame : Text.SameWords cs ds) (hcs : '=' ∉ cs) : '=' ∉ ds :=
    mt (hsame.mem_iff (by decide)).mpr hcs
  cases hrelaid with
  | bare hcs hwords => exact .bare (hequals hwords hcs) hwords.symm
  | paired hleft hwords htrimmed htrimmed' =>
    exact .paired (hequals hwords hleft) hwords.symm htrimmed' htrimmed

theorem read_of_not_mem {text : String} (hequals : '=' ∉ text.toList) :
    read text = match NativeType.read? text.toList with
      | some type => .ok (.bare type)
      | none => .error (.unknownType ⟨String.ofList (Text.trim text.toList)⟩) := by
  rw [read, cut_of_not_mem hequals]
  dsimp only
  rw [NativeType.read, String.toList_ofList]
  cases NativeType.read? text.toList <;> rfl

theorem read_of_cut {text : String} {left right : List Char} (hequals : '=' ∉ left)
    (htext : text.toList = left ++ '=' :: right) :
    read text = match NativeType.read? left, Value.readTrimmed? (Text.trim right) with
      | some type, some default => .ok (.paired type default)
      | some _, none => .error (.invalidDefault (String.ofList (Text.trim right)))
      | none, _ => .error (.unknownType ⟨String.ofList (Text.trim left)⟩) := by
  rw [read, htext, cut_append hequals]
  dsimp only
  rw [NativeType.read, String.toList_ofList]
  cases NativeType.read? left with
  | none => rfl
  | some type => cases Value.readTrimmed? (Text.trim right) <;> rfl

theorem read_of_written {text : String} {spec : ArgSpec} (hwritten : Written text.toList spec) :
    read text = .ok spec := by
  generalize htext : text.toList = cs at hwritten
  cases hwritten with
  | bare hequals htype =>
    rw [read_of_not_mem (htext ▸ hequals), htext, NativeType.read?_eq_some_iff.mpr htype]
  | paired hequals htype htrimmed hdefault =>
    rw [read_of_cut hequals htext, NativeType.read?_eq_some_iff.mpr htype, htrimmed.trim_eq,
      Value.readTrimmed?_eq_some_iff.mpr hdefault]

theorem read_of_refused {text : String} {e : ReadError} (hrefused : Refused text.toList e) :
    read text = .error e := by
  generalize htext : text.toList = cs at hrefused
  cases hrefused with
  | bare hequals htype htrimmed =>
    rw [read_of_not_mem (htext ▸ hequals), htext, NativeType.read?_eq_none_iff.mpr htype,
      htrimmed.trim_eq]
  | type hequals htype htrimmed =>
    rw [read_of_cut hequals htext, NativeType.read?_eq_none_iff.mpr htype, htrimmed.trim_eq]
  | default hequals htype htrimmed hdefault =>
    have hnone : Value.readTrimmed? (Text.trim _) = none :=
      Option.eq_none_iff_forall_ne_some.mpr fun v hv =>
        hdefault v (htrimmed.trim_eq ▸ Value.readTrimmed?_eq_some_iff.mp hv)
    rw [read_of_cut hequals htext, NativeType.read?_eq_some_iff.mpr htype, hnone, htrimmed.trim_eq]

/-- There is no third kind of text. -/
theorem written_or_refused (cs : List Char) : (∃ spec, Written cs spec) ∨ ∃ e, Refused cs e := by
  by_cases hequals : '=' ∈ cs
  · obtain ⟨left, right, rfl, hleft⟩ := List.eq_append_cons_of_mem hequals
    by_cases htype : ∃ type, NativeType.Written left type
    · obtain ⟨type, htype⟩ := htype
      by_cases hdefault : ∃ v, Value.Literal (Text.trim right) v
      · obtain ⟨default, hdefault⟩ := hdefault
        exact .inl ⟨_, .paired hleft htype (Text.trimmed_trim right) hdefault⟩
      · exact .inr ⟨_, .default hleft htype (Text.trimmed_trim right) (not_exists.mp hdefault)⟩
    · exact .inr ⟨_, .type hleft (not_exists.mp htype) (Text.trimmed_trim left)⟩
  · by_cases htype : ∃ type, NativeType.Written cs type
    · obtain ⟨type, htype⟩ := htype
      exact .inl ⟨_, .bare hequals htype⟩
    · exact .inr ⟨_, .bare hequals (not_exists.mp htype) (Text.trimmed_trim cs)⟩

theorem written_append_iff {left right : List Char} (hequals : '=' ∉ left) {spec : ArgSpec} :
    Written (left ++ '=' :: right) spec ↔ ∃ type default, spec = .paired type default ∧
      NativeType.Written left type ∧ Value.Literal (Text.trim right) default := by
  constructor
  · intro hwritten
    generalize htext : left ++ '=' :: right = cs at hwritten
    cases hwritten with
    | bare hnone => exact absurd (htext ▸ List.mem_append_right _ List.mem_cons_self) hnone
    | paired hequals' htype htrimmed hdefault =>
      -- Both equals signs are the first one of the text.
      have hcut := congrArg cut htext
      rw [cut_append hequals, cut_append hequals'] at hcut
      cases hcut
      exact ⟨_, _, rfl, htype, htrimmed.trim_eq ▸ hdefault⟩
  · rintro ⟨type, default, rfl, htype, hdefault⟩
    exact .paired hequals htype (Text.trimmed_trim right) hdefault

theorem Relaid.written {cs ds : List Char} (hrelaid : Relaid cs ds) {spec : ArgSpec}
    (hcs : Written cs spec) : Written ds spec := by
  cases hrelaid with
  | bare hequals hwords =>
    have hequals' : '=' ∉ ds := mt (hwords.mem_iff (by decide)).mpr hequals
    cases hcs with
    | bare _ htype => exact .bare hequals' (htype.of_sameWords hwords)
    | paired => simp at hequals
  | @paired left right left' right' literal hequals hwords htrimmed htrimmed' =>
    have hequals' : '=' ∉ left' := mt (hwords.mem_iff (by decide)).mpr hequals
    obtain ⟨type, default, rfl, htype, hdefault⟩ := (written_append_iff hequals).mp hcs
    refine (written_append_iff hequals').mpr
      ⟨type, default, rfl, htype.of_sameWords hwords, ?_⟩
    rwa [htrimmed'.trim_eq, ← htrimmed.trim_eq]

/-- The texts that the grammar has are read, each as the specification that it stands for, and all
    others are refused: for the type, if it is unknown, and otherwise for the default. Layout does
    not count: whether a text is read, and as what, is the same for every text that differs from it
    only in the blanks at its ends, around the first equals sign and between the words of the
    type. -/
theorem read_exact (text : String) :
    (∀ spec, read text = .ok spec ↔ Written text.toList spec) ∧
    (∀ e, read text = .error e ↔ Refused text.toList e) ∧
    ∀ other : String, Relaid text.toList other.toList →
      ∀ spec, read text = .ok spec ↔ read other = .ok spec := by
  have hiff (text : String) (spec : ArgSpec) :
      read text = .ok spec ↔ Written text.toList spec := by
    refine ⟨fun hread => ?_, read_of_written⟩
    obtain ⟨found, hfound⟩ | ⟨e, he⟩ := written_or_refused text.toList
    · cases hread.symm.trans (read_of_written hfound)
      exact hfound
    · cases hread.symm.trans (read_of_refused he)
  refine ⟨hiff text, fun e => ⟨fun hread => ?_, read_of_refused⟩, fun other hrelaid spec => ?_⟩
  · obtain ⟨found, hfound⟩ | ⟨e', he'⟩ := written_or_refused text.toList
    · cases hread.symm.trans (read_of_written hfound)
    · cases hread.symm.trans (read_of_refused he')
      exact he'
  · rw [hiff, hiff]
    exact ⟨hrelaid.written, hrelaid.symm.written⟩

/-- Blanks of several kinds make no difference. A type that is not known is reported as it stands,
    though the default is no literal either; behind a star any type will do, and the default is
    reported. -/
theorem read_exact_blanks :
    let plain := "unsigned int=0x1F"
    let spread := "\t unsigned \u3000int \n=\u00a00x1F "
    Relaid plain.toList spread.toList ∧ read spread = .ok (.paired .u32 (.pointer 0x1f)) ∧
      read " struct  foo = 12z" = .error (.unknownType ⟨"struct  foo"⟩) ∧
      read "struct  foo* =12z " = .error (.invalidDefault "12z") := by
  intro plain spread
  have hplain : plain.toList = "unsigned int".toList ++ '=' :: "0x1F".toList := by decide +kernel
  have hspread : spread.toList =
      "\t unsigned \u3000int \n".toList ++ '=' :: "\u00a00x1F ".toList := by decide +kernel
  have hliteral : Text.Trimmed "0x1F".toList "0x1F".toList := Text.trimmed_trim _
  have hliteral' : Text.Trimmed "\u00a00x1F ".toList "0x1F".toList := Text.trimmed_trim _
  have hrelaid : Relaid plain.toList spread.toList := by
    rw [hplain, hspread]
    refine .paired (by decide) ⟨["unsigned".toList, "int".toList], ?_, ?_⟩ hliteral hliteral'
    · exact Text.hasWords_iff.mpr (by decide +kernel)
    · exact Text.hasWords_iff.mpr (by decide +kernel)
  have hwritten : Written plain.toList (.paired .u32 (.pointer 0x1f)) := by
    have haddress : Address "1F".toList 0x1f := readAddress?_eq_some_iff.mp (by decide +kernel)
    rw [hplain, written_append_iff (by decide)]
    refine ⟨.u32, .pointer 0x1f, rfl, NativeType.read?_eq_some_iff.mp (by decide +kernel), ?_⟩
    exact .pointer (.inl rfl) haddress
  have hunknown : Refused (" struct  foo ".toList ++ '=' :: " 12z".toList)
      (.unknownType ⟨String.ofList "struct  foo".toList⟩) := by
    refine .type (by decide) ?_ (Text.trimmed_trim _)
    exact NativeType.read?_eq_none_iff.mp (by decide +kernel)
  have hinvalid : Refused ("struct  foo* ".toList ++ '=' :: "12z ".toList)
      (.invalidDefault (String.ofList "12z".toList)) := by
    refine .default (by decide) (.star (by decide)) (Text.trimmed_trim _) fun v hv => ?_
    have hnone : Value.readTrimmed? "12z".toList = none := by decide +kernel
    rw [← Value.readTrimmed?_eq_some_iff, hnone] at hv
    cases hv
  refine ⟨hrelaid, ?_, ((read_exact _).2.1 _).mpr hunknown, ((read_exact _).2.1 _).mpr hinvalid⟩
  exact ((read_exact plain).2.2 spread hrelaid _).mp (((read_exact plain).1 _).mpr hwritten)

end ArgSpec

end DualCall
