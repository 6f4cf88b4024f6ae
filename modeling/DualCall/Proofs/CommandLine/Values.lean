import DualCall.CommandLine.Grammar
import DualCall.Proofs.Specification
import DualCall.Proofs.Value.Grammar

namespace DualCall

/-- What follows a minus sign is what it is the sign of. -/
theorem Text.Sign.eq_of_append {sign body cs : List Char} {negative : Bool}
    (hsign : Sign sign negative) (htext : sign ++ body = '-' :: cs)
    (hbody : ∀ c ∈ body.head?, c ≠ '-') : body = cs := by
  cases hsign with
  | none =>
    rw [List.nil_append] at htext
    exact absurd rfl (hbody '-' (htext ▸ rfl))
  | plus => cases htext
  | minus =>
    cases htext
    rfl

/-- Behind a hyphen a literal goes on with a digit, a point or a word for what is not finite. -/
theorem Value.Literal.behind_hyphen {cs : List Char} {v : Value} (hliteral : Literal ('-' :: cs) v) :
    ∃ c rest, cs = c :: rest ∧
      (Text.isDigit c ∨ c = '.' ∨ c.toLower = 'i' ∨ c.toLower = 'n') := by
  have hnumber {sign body : List Char} {negative : Bool} {c : Char} {rest : List Char}
      (hsign : Text.Sign sign negative) (htext : '-' :: cs = sign ++ body) (hbody : body = c :: rest)
      (hc : Text.isDigit c ∨ c = '.' ∨ c.toLower = 'i' ∨ c.toLower = 'n') :
      ∃ c rest, cs = c :: rest ∧
        (Text.isDigit c ∨ c = '.' ∨ c.toLower = 'i' ∨ c.toLower = 'n') := by
    subst hbody
    refine ⟨c, rest, (hsign.eq_of_append htext.symm ?_).symm, hc⟩
    rintro d hd rfl
    cases hd
    exact absurd hc (by decide)
  generalize htext : '-' :: cs = text at hliteral
  cases hliteral with
  | null hcs => rcases hcs with rfl | rfl <;> cases htext
  | true => cases htext
  | false => cases htext
  | pointer hmark => rcases hmark with rfl | rfl <;> cases htext
  | @int _ n hinteger =>
    generalize n.toInt = k at hinteger
    obtain ⟨hsign, hdigits, hne⟩ := hinteger
    obtain ⟨c, rest, hcs⟩ := List.exists_cons_of_ne_nil hne
    exact hnumber hsign htext hcs (.inl (hdigits.isDigit (hcs ▸ List.mem_cons_self)))
  | float _ _ hnumeral =>
    cases hnumeral with
    | infinity hsign hword =>
      obtain ⟨rest, hword⟩ : ∃ rest, List.map Char.toLower _ = 'i' :: rest :=
        hword.elim (⟨_, ·⟩) (⟨_, ·⟩)
      obtain ⟨c, tail, hcs, hc, -⟩ := List.map_eq_cons_iff.mp hword
      exact hnumber hsign htext hcs (.inr (.inr (.inl hc)))
    | nan hsign hword =>
      obtain ⟨c, tail, hcs, hc, -⟩ := List.map_eq_cons_iff.mp hword
      exact hnumber hsign htext hcs (.inr (.inr (.inr hc)))
    | decimal hsign hdecimal =>
      obtain ⟨c, rest, hcs, hc⟩ := hdecimal.head
      exact hnumber hsign htext hcs (hc.imp_right .inl)

namespace CommandLine

theorem short?_behind_hyphen {c : Char}
    (hc : Text.isDigit c ∨ c = '.' ∨ c.toLower = 'i' ∨ c.toLower = 'n') :
    short? c = none ∧ c ≠ '-' := by
  constructor
  · unfold short?
    split
    case h_7 => rfl
    all_goals exact absurd hc (by decide)
  · rintro rfl
    exact absurd hc (by decide)

theorem Shape.ofToken_plain {token : String} (htoken : ∀ c ∈ token.toList.head?, c ≠ '-') :
    Shape.ofToken token = .plain := by
  unfold Shape.ofToken
  split
  · next heq => exact absurd rfl (htoken '-' (heq ▸ rfl))
  · next heq => exact absurd rfl (htoken '-' (heq ▸ rfl))
  · next heq => exact absurd rfl (htoken '-' (heq ▸ rfl))
  · rfl

theorem Shape.ofToken_cluster {token : String} {c : Char} {rest : List Char}
    (htoken : token.toList = '-' :: c :: rest) (hc : c ≠ '-') :
    Shape.ofToken token = .cluster (c :: rest) := by
  unfold Shape.ofToken
  rw [htoken]
  split
  · next heq =>
    cases heq
    exact absurd rfl hc
  · next heq =>
    cases heq
    exact absurd rfl hc
  · next heq =>
    cases heq
    rfl
  · next hnone => exact absurd rfl (hnone c rest)

/-- A literal is no option of a call, though it may begin with a hyphen. -/
theorem Subcommand.token_literal {text : String} {v : Value} (hread : Value.read? text = some v) :
    Subcommand.call.token text = .text := by
  by_cases hhyphen : ∀ c ∈ text.toList.head?, c ≠ '-'
  · rw [token, Shape.ofToken_plain hhyphen]
  · obtain ⟨cs, hcs⟩ : ∃ cs, text.toList = '-' :: cs := by
      simpa [List.head?_eq_some_iff] using hhyphen
    have hliteral := Value.readTrimmed?_eq_some_iff.mp hread
    obtain ⟨front, back, hfront, -, htext⟩ := (Text.trimmed_trim text.toList).blanks
    generalize Text.trim text.toList = trimmed at hliteral htext
    rw [hcs] at htext
    obtain rfl : front = [] := by
      cases front with
      | nil => rfl
      | cons b front =>
        cases htext
        exact absurd (hfront '-' List.mem_cons_self) (by decide)
    cases trimmed with
    | nil =>
      have hnone : Value.readTrimmed? [] = none := by decide +kernel
      cases hnone.symm.trans (Value.readTrimmed?_eq_some_iff.mpr hliteral)
    | cons d rest =>
      cases htext
      obtain ⟨c, tail, rfl, hc⟩ := hliteral.behind_hyphen
      obtain ⟨hshort, hne⟩ := short?_behind_hyphen hc
      rw [token, Shape.ofToken_cluster hcs hne]
      simp [hshort]

theorem Shape.ofToken_long {token : String} {c : Char} {rest : List Char}
    (htoken : token.toList = '-' :: '-' :: c :: rest) :
    Shape.ofToken token = .long (String.ofList (ArgSpec.cut (c :: rest)).1)
      ((ArgSpec.cut (c :: rest)).2.map String.ofList) := by
  unfold Shape.ofToken
  rw [htoken]
  rfl

theorem Subcommand.token_joined (option : ValueOption) (text : String) :
    Subcommand.call.token ("--" ++ option.name ++ "=" ++ text) = .option option (some text) := by
  have hequals : '=' ∉ option.name.toList := by cases option <;> decide
  have hlong : Subcommand.call.long? option.name = some (.value option) := by
    cases option <;> decide +kernel
  obtain ⟨c, tail, hname⟩ : ∃ c tail, option.name.toList = c :: tail := by
    cases option <;> exact ⟨_, _, rfl⟩
  have htoken : ("--" ++ option.name ++ "=" ++ text).toList =
      '-' :: '-' :: c :: (tail ++ '=' :: text.toList) := by
    simp [hname]
  have hcut : ArgSpec.cut (c :: (tail ++ '=' :: text.toList)) =
      (option.name.toList, some text.toList) := by
    rw [← ArgSpec.cut_append hequals, hname, List.cons_append]
  rw [token, Shape.ofToken_long htoken, hcut]
  simp [hlong]

theorem Subcommand.token_long (option : ValueOption) :
    Subcommand.call.token ("--" ++ option.name) = .option option none := by
  cases option <;> decide +kernel

/-- An option in front of the values of a call: one with a value, or the flag that asks for a
    log. -/
inductive Entry where
  | value (option : ValueOption) (text : String)
  | verbose
deriving DecidableEq

namespace Entry

/-- The options that have a short name. -/
def shortNames : List (Char × ValueOption) :=
  [('s', .symbol), ('l', .library), ('r', .returns), ('a', .arg)]

/-- The tokens of an option. Its value is not empty. It is joined to the long name, or it is a token
    of its own that does not begin with a hyphen. -/
inductive Tokens : Entry → List String → Prop
  | joined {option : ValueOption} {text : String} (hne : text ≠ "") :
      Tokens (.value option text) ["--" ++ option.name ++ "=" ++ text]
  | long {option : ValueOption} {text : String} (hne : text ≠ "")
      (hplain : ∀ c ∈ text.toList.head?, c ≠ '-') :
      Tokens (.value option text) ["--" ++ option.name, text]
  | short {letter : Char} {option : ValueOption} {text : String}
      (hletter : (letter, option) ∈ shortNames) (hne : text ≠ "")
      (hplain : ∀ c ∈ text.toList.head?, c ≠ '-') :
      Tokens (.value option text) [String.ofList ['-', letter], text]
  | verbose : Tokens .verbose ["--verbose"]
  | shortVerbose : Tokens .verbose ["-v"]

/-- The values that are given for an option, in order. -/
def texts (option : ValueOption) (entries : List Entry) : List String :=
  entries.filterMap fun
    | .value given text => if given = option then some text else none
    | .verbose => none

/-- Nothing is given twice but arguments. -/
structure Once (entries : List Entry) : Prop where
  texts : ∀ option, option ≠ .arg → (texts option entries).length ≤ 1
  verbose : entries.count .verbose ≤ 1

/-- What options say about a signature. -/
def signature (entries : List Entry) : SignatureFlags where
  file := (texts .file entries).head?
  symbol := (texts .symbol entries).head?
  library := (texts .library entries).head?
  returns := (texts .returns entries).head?
  args := texts .arg entries

theorem texts_concat (option given : ValueOption) (text : String) (entries : List Entry) :
    texts option (entries ++ [.value given text]) =
      texts option entries ++ if given = option then [text] else [] := by
  rw [texts, List.filterMap_append]
  by_cases hsame : given = option <;> simp [texts, hsame]

theorem texts_concat_verbose (option : ValueOption) (entries : List Entry) :
    texts option (entries ++ [.verbose]) = texts option entries := by
  simp [texts]

theorem Once.of_append {entries others : List Entry} (honce : Once (entries ++ others)) :
    Once entries := by
  refine ⟨fun option hoption => ?_, ?_⟩
  · have hle := honce.texts option hoption
    rw [Entry.texts, List.filterMap_append, List.length_append] at hle
    exact Nat.le_trans (Nat.le_add_right _ _) hle
  · have hle := honce.verbose
    rw [List.count_append] at hle
    exact Nat.le_trans (Nat.le_add_right _ _) hle

/-- What is given now was not given before. -/
theorem Once.texts_eq_nil {entries : List Entry} {option : ValueOption} {text : String}
    (honce : Once (entries ++ [.value option text])) (hoption : option ≠ .arg) :
    Entry.texts option entries = [] := by
  have hle := honce.texts option hoption
  rw [texts_concat, if_pos rfl, List.length_append, List.length_singleton] at hle
  exact List.eq_nil_of_length_eq_zero (by omega)

theorem Once.not_mem_verbose {entries : List Entry} (honce : Once (entries ++ [.verbose])) :
    .verbose ∉ entries := by
  have hle := honce.verbose
  rw [List.count_append, List.count_singleton_self] at hle
  exact List.count_eq_zero.mp (by omega)

end Entry

theorem Subcommand.token_short {letter : Char} {option : ValueOption}
    (hletter : (letter, option) ∈ Entry.shortNames) :
    Subcommand.call.token (String.ofList ['-', letter]) = .cluster [letter] ∧
      short? letter = some (.value option) := by
  have hall : ∀ pair ∈ Entry.shortNames,
      Subcommand.call.token (String.ofList ['-', pair.1]) = .cluster [pair.1] ∧
        short? pair.1 = some (.value pair.2) := by decide +kernel
  exact hall (letter, option) hletter

namespace Options

/-- The options that entries describe. -/
def ofEntries (entries : List Entry) : Options where
  signature := Entry.signature entries
  verbose := decide (.verbose ∈ entries)

theorem assign_ofEntries {entries : List Entry} {option : ValueOption} {text : String}
    (honce : Entry.Once (entries ++ [.value option text])) (hne : text ≠ "") :
    (ofEntries entries).assign option text = .ok (ofEntries (entries ++ [.value option text])) := by
  cases option with
  | arg => simp [assign, ofEntries, Entry.signature, Entry.texts_concat, pure, Except.pure]
  | _ =>
    have hnil := honce.texts_eq_nil (by decide)
    simp [assign, once, ofEntries, Entry.signature, Entry.texts_concat, hnil, hne, bind,
      Except.bind, pure, Except.pure]

section

variable {token : String} (o : Options) (rest : List String)

theorem read_flag {flag : Flag} (htoken : Subcommand.call.token token = .flag flag none) :
    read .call o (token :: rest) = o.raise flag >>= fun o => read .call o rest := by
  rw [read.eq_def]
  simp only [htoken]

theorem read_option {option : ValueOption} {value : Option String}
    (htoken : Subcommand.call.token token = .option option value) :
    read .call o (token :: rest) = o.start option value >>= fun o => read .call o rest := by
  rw [read.eq_def]
  simp only [htoken]

theorem read_cluster {letters : List Char}
    (htoken : Subcommand.call.token token = .cluster letters) :
    read .call o (token :: rest) =
      o.readCluster token letters >>= fun o => read .call o rest := by
  rw [read.eq_def]
  simp only [htoken]

/-- What is no option is the value of the option that waits for one, or the first of the values. -/
theorem read_text (htoken : Subcommand.call.token token = .text) :
    read .call o (token :: rest) = match o.awaiting? with
      | some option => read .call { o with pending := some (option, some token) } rest
      | none => o.settle >>= fun o => .ok (o, token :: rest) := by
  rw [read.eq_def]
  simp only [htoken]
  cases o.awaiting? <;> rfl

end

/-- The options that were read are those that entries describe, the last one perhaps still apart. -/
def Holds (o : Options) (entries : List Entry) : Prop := o.settle = .ok (ofEntries entries)

theorem holds_ofEntries (entries : List Entry) : (ofEntries entries).Holds entries := rfl

section

variable {o : Options} {entries : List Entry} (hholds : o.Holds entries)
include hholds

theorem Holds.start_none (option : ValueOption) :
    o.start option none = .ok { ofEntries entries with pending := some (option, none) } := by
  rw [start, hholds]
  rfl

theorem Holds.start_some {option : ValueOption} {text : String}
    (honce : Entry.Once (entries ++ [.value option text])) (hne : text ≠ "") :
    o.start option (some text) = .ok (ofEntries (entries ++ [.value option text])) := by
  rw [start, hholds]
  exact assign_ofEntries honce hne

theorem Holds.raise_verbose (honce : Entry.Once (entries ++ [.verbose])) :
    o.raise .verbose = .ok (ofEntries (entries ++ [.verbose])) := by
  have hfirst := decide_eq_false honce.not_mem_verbose
  rw [raise, hholds]
  simp [ofEntries, hfirst, Entry.signature, Entry.texts_concat_verbose, bind, Except.bind, pure,
    Except.pure]

theorem Holds.awaiting? : o.awaiting? = none := by
  unfold Options.awaiting?
  split
  · next hpending =>
    rw [Holds, settle, hpending] at hholds
    cases hholds
  · rfl

end

/-- An option that waits takes the next token for its value. -/
theorem read_pending {entries : List Entry} {option : ValueOption} {text : String}
    (honce : Entry.Once (entries ++ [.value option text])) (hne : text ≠ "")
    (hplain : ∀ c ∈ text.toList.head?, c ≠ '-') (rest : List String) :
    ∃ o : Options, o.Holds (entries ++ [.value option text]) ∧
      read .call { ofEntries entries with pending := some (option, none) } (text :: rest) =
        read .call o rest := by
  refine ⟨{ ofEntries entries with pending := some (option, some text) },
    assign_ofEntries honce hne, ?_⟩
  have htoken : Subcommand.call.token text = .text := by
    rw [Subcommand.token, Shape.ofToken_plain hplain]
  rw [read_text _ _ htoken]
  rfl

/-- One option more is read. -/
theorem Holds.read_tokens {o : Options} {entries : List Entry} (hholds : o.Holds entries)
    {entry : Entry} {tokens : List String} (htokens : entry.Tokens tokens)
    (honce : Entry.Once (entries ++ [entry])) (rest : List String) :
    ∃ o' : Options, o'.Holds (entries ++ [entry]) ∧
      read .call o (tokens ++ rest) = read .call o' rest := by
  cases htokens with
  | joined hne =>
    refine ⟨_, holds_ofEntries _, ?_⟩
    rw [List.singleton_append, read_option _ _ (Subcommand.token_joined _ _),
      hholds.start_some honce hne]
    rfl
  | long hne hplain =>
    obtain ⟨o', ho', hread⟩ := read_pending honce hne hplain rest
    refine ⟨o', ho', ?_⟩
    rw [List.cons_append, List.singleton_append, read_option _ _ (Subcommand.token_long _),
      hholds.start_none]
    exact hread
  | short hletter hne hplain =>
    obtain ⟨o', ho', hread⟩ := read_pending honce hne hplain rest
    obtain ⟨htoken, hshort⟩ := Subcommand.token_short hletter
    refine ⟨o', ho', ?_⟩
    rw [List.cons_append, List.singleton_append, read_cluster _ _ htoken, readCluster, hshort]
    dsimp only
    rw [hholds.start_none]
    exact hread
  | verbose =>
    have htoken : Subcommand.call.token "--verbose" = .flag .verbose none := by decide +kernel
    refine ⟨_, holds_ofEntries _, ?_⟩
    rw [List.singleton_append, read_flag _ _ htoken, hholds.raise_verbose honce]
    rfl
  | shortVerbose =>
    have htoken : Subcommand.call.token "-v" = .cluster ['v'] := by decide +kernel
    refine ⟨_, holds_ofEntries _, ?_⟩
    rw [List.singleton_append, read_cluster _ _ htoken, readCluster, short?]
    dsimp only
    rw [hholds.raise_verbose honce]
    rfl

/-- All options in front of the values are read. -/
theorem Holds.read_rows {more : List Entry} {rows : List (List String)}
    (hrows : List.Forall₂ Entry.Tokens more rows) {o : Options} {entries : List Entry}
    (hholds : o.Holds entries) (honce : Entry.Once (entries ++ more)) (rest : List String) :
    ∃ o' : Options, o'.Holds (entries ++ more) ∧
      read .call o (rows.flatten ++ rest) = read .call o' rest := by
  induction hrows generalizing o entries with
  | nil => exact ⟨o, by rwa [List.append_nil], rfl⟩
  | @cons entry tokens more rows htokens _ ih =>
    rw [List.append_cons] at honce ⊢
    obtain ⟨next, hnext, hread⟩ :=
      hholds.read_tokens htokens honce.of_append (rows.flatten ++ rest)
    obtain ⟨last, hlast, hread'⟩ := ih hnext honce
    refine ⟨last, hlast, ?_⟩
    rw [List.flatten_cons, List.append_assoc, hread, hread']

/-- The first literal ends the options, and all that follows it is left as it is. -/
theorem Holds.read_literal {o : Options} {entries : List Entry} (hholds : o.Holds entries)
    {text : String} {v : Value} (hread : Value.read? text = some v) (rest : List String) :
    read .call o (text :: rest) = .ok (ofEntries entries, text :: rest) := by
  rw [read_text _ _ (Subcommand.token_literal hread), hholds.awaiting?]
  dsimp only
  rw [hholds]
  rfl

end Options

theorem Invocation.ofTokens_subcommand (tokens : List String) :
    ofTokens ("call" :: tokens) = ofSubcommand .call false tokens := by
  have hshape : Shape.ofToken "call" = .plain := by decide +kernel
  have hname : Subcommand.ofName? "call" = some .call := by decide +kernel
  rw [ofTokens, readFrom.eq_def]
  simp only [hshape, hname]

/-- In a call the tokens behind the options are values from the first literal on, in order and as
    they are, be they options, flags or further negative numbers. The signature and whether a log is
    asked for are what the options in front of them say. -/
theorem Invocation.ofTokens_call {entries : List Entry} {rows : List (List String)}
    (hrows : List.Forall₂ Entry.Tokens entries rows) (honce : Entry.Once entries) {first : String}
    {v : Value} (hfirst : Value.read? first = some v) (rest : List String) :
    ofTokens ("call" :: (rows.flatten ++ first :: rest)) =
      .ok ⟨decide (.verbose ∈ entries), .call (Entry.signature entries) (first :: rest)⟩ := by
  obtain ⟨o, ho, hread⟩ := (Options.holds_ofEntries []).read_rows hrows
    (by rwa [List.nil_append]) (first :: rest)
  rw [List.nil_append] at ho
  have hall : Options.read .call {} (rows.flatten ++ first :: rest) = _ :=
    hread.trans (ho.read_literal hfirst rest)
  rw [ofTokens_subcommand, ofSubcommand, hall]
  rfl

/-- A negative infinity is a value though it looks like a row of short names, and so is everything
    behind it, even what would be an option in front of it. -/
theorem Invocation.ofTokens_call_infinite :
    let entries : List Entry := [.value .symbol "abs", .value .arg "double=-1", .verbose,
      .value .arg "int"]
    let rows := [["-s", "abs"], ["--arg=double=-1"], ["-v"], ["--arg", "int"]]
    List.Forall₂ Entry.Tokens entries rows ∧ Entry.Once entries ∧
      (∃ v, Value.read? "-inf" = some v) ∧
      ofTokens ["call", "-s", "abs", "--arg=double=-1", "-v", "--arg", "int", "-inf", "-v", "--",
        "-s", "-42"] = .ok ⟨true, .call { symbol := some "abs", args := ["double=-1", "int"] }
          ["-inf", "-v", "--", "-s", "-42"]⟩ := by
  intro entries rows
  have hsymbol : Entry.Tokens (.value .symbol "abs") ["-s", "abs"] :=
    .short (by decide) (by decide) (by simp)
  have harg : Entry.Tokens (.value .arg "int") ["--arg", "int"] :=
    .long (by decide) (by simp)
  have hrows : List.Forall₂ Entry.Tokens entries rows :=
    .cons hsymbol (.cons (.joined (by decide)) (.cons .shortVerbose (.cons harg .nil)))
  have honce : Entry.Once entries := by
    refine ⟨fun option hoption => ?_, by decide⟩
    cases option with
    | arg => exact absurd rfl hoption
    | _ => decide
  have hsome : (Value.read? "-inf").isSome := by decide +kernel
  obtain ⟨v, hv⟩ := Option.isSome_iff_exists.mp hsome
  exact ⟨hrows, honce, ⟨v, hv⟩, ofTokens_call hrows honce hv ["-v", "--", "-s", "-42"]⟩

end CommandLine

end DualCall
