import DualCall.Ron.Lexeme
import DualCall.Signature.Basic

namespace DualCall.Ron

/-- The extensions of the notation that a text can turn on at its start, as far as they matter for
    what is read here. -/
structure Extensions where
  /-- An optional value that is there may be written without `Some`. -/
  implicitSome : Bool
deriving DecidableEq, Repr

/-- What the name of an extension turns on. -/
def extension? (name : List Char) (extensions : Extensions) : Option Extensions :=
  if name = "implicit_some".toList then some { extensions with implicitSome := true }
  else if name = "unwrap_newtypes".toList ∨ name = "unwrap_variant_newtypes".toList then
    some extensions
  else none

/-- The names of extensions. A name may follow only a comma. -/
def extensionNames : Nat → Extensions → Reader Extensions
  | 0, _, _ => none
  | fuel + 1, extensions, cs => do
    let (name, cs) ← identifier cs
    let extensions ← extension? name extensions
    let (more, cs) ← comma cs
    if cs.head?.any isIdentPart then
      if more then extensionNames fuel extensions cs else none
    else return (extensions, cs)

/-- Take characters off the text, with blanks behind each. -/
def expectAll : List String → List Char → Option (List Char)
  | [], cs => some cs
  | mark :: rest, cs => do
    let cs ← expectRun mark cs
    let cs ← skipBlank cs
    expectAll rest cs

/-- The lines at the start of a text that turn extensions on. -/
def attributes : Nat → Extensions → Reader Extensions
  | 0, _, _ => none
  | fuel + 1, extensions, cs => do
    if cs.head? ≠ some '#' then return (extensions, cs)
    let cs ← expectAll ["#", "!", "[", "enable", "("] cs
    let (extensions, cs) ← extensionNames (cs.length + 1) extensions cs
    let cs ← expectAll [")", "]"] cs
    attributes fuel extensions cs

/-- The type that a tag names. -/
def type : Reader NativeType := fun cs => do
  let (name, cs) ← identifier cs
  let type ← NativeType.ofTag? (String.ofList name)
  return (type, cs)

def bool : Reader Bool := fun cs =>
  match word "true" cs, word "false" cs with
  | some rest, _ => some (true, rest)
  | _, some rest => some (false, rest)
  | none, none => none

/-- A value that is data: the null value, or the kind of a value with its content. -/
def value : Reader Value := fun cs => do
  let (kind, cs) ← identifier cs
  let content {α : Type} (reader : Reader α) (build : α → Value) : Option (Value × List Char) :=
    (parenthesized reader cs).map fun (a, rest) => (build a, rest)
  if kind = "Null".toList then return (.null, cs)
  else if kind = "Bool".toList then content bool .bool
  else if kind = "Int".toList then content int64 .int
  else if kind = "Float".toList then content float .float
  else if kind = "Pointer".toList then content uint64 .pointer
  else none

/-- The type and the default of a paired specification. -/
def pair : Reader (NativeType × Value) := fun cs => do
  let (type, cs) ← type cs
  let (more, cs) ← comma cs
  if !more then none
  let (default, cs) ← value cs
  return ((type, default), cs)

def spec : Reader ArgSpec := fun cs => do
  let (kind, cs) ← identifier cs
  if kind = "Bare".toList then
    (parenthesized type cs).map fun (t, rest) => (.bare t, rest)
  else if kind = "WithDefault".toList then
    (parenthesized pair cs).map fun ((t, default), rest) => (.paired t default, rest)
  else none

/-- A list in brackets. -/
def list {α : Type} (item : Reader α) : Reader (List α) :=
  enclosed '[' ']' item

/-- An optional value: `None`, or `Some` with a value in parentheses. If that is turned on, a value
    may stand without the parentheses and without `Some`. Neither name has to end where it ends
    here, so a value may follow `Some` at once. -/
def optional {α : Type} (extensions : Extensions) (item : Reader α) : Reader (Option α) := fun cs =>
  let bare (cs : List Char) : Option (Option α × List Char) :=
    if extensions.implicitSome then (item cs).map fun (a, rest) => (some a, rest) else none
  match expectRun "None" cs, expectRun "Some" cs with
  | some rest, _ => some (none, rest)
  | none, some rest => do
    let rest ← skipBlank rest
    if rest.head? = some '(' then
      (parenthesized item rest).map fun (a, after) => (some a, after)
    else bare rest
  | none, none => bare cs

/-- The text after a number: one with a point or an exponent, or else an integer. An integer that is
    too large is read as a number with a point would be. -/
def skipNumber (cs : List Char) : Option (List Char) :=
  let unsigned := (Text.takeSign cs).2
  let asFloat := (float cs).map (·.2)
  if (unsigned.takeWhile isIntChar).length < (unsigned.takeWhile isFloatChar).length then asFloat
  else
    let asInteger :=
      if cs.head? = some '+' ∨ cs.head? = some '-' then (int64 cs).map (·.2)
      else (uint64 cs).map (·.2)
    asInteger.or asFloat

/-- The text after a word that stands for a value by itself. -/
def skipWord (cs : List Char) : Option (List Char) :=
  (["true", "false", "None"] ++ floatWords).findSome? fun name => word name cs

/-- Whether what follows an opening parenthesis is the name of a field. -/
def startsField (cs : List Char) : Bool :=
  match skipBlank cs with
  | none => false
  | some cs =>
    match identifier cs with
    | none => false
    | some (_, rest) =>
      match skipBlank rest with
      | some (':' :: _) => true
      | _ => false

/-- The greatest number of levels that a text may nest. A structure, a list or a map is one level
    and each of its items another; a value behind `Some` is one level. -/
def levelLimit : Nat := 128

/-- The text after a value of any shape, where `levels` more levels may be opened. -/
def skipValue (extensions : Extensions) (levels : Nat) (cs : List Char) : Option (List Char) :=
  let content : Reader Unit := fun rest =>
    match levels with
    | levels + 1 => (skipValue extensions levels rest).map fun after => ((), after)
    | 0 => none
  let item : Reader Unit := fun rest =>
    match levels with
    | levels + 2 => (skipValue extensions levels rest).map fun after => ((), after)
    | _ => none
  let entry : Reader Unit := fun cs => do
    let (_, cs) ← item cs
    let cs ← skipBlank cs
    let cs ← expect ':' cs
    let cs ← skipBlank cs
    item cs
  let container (first last : Char) (part : Reader Unit) (cs : List Char) : Option (List Char) :=
    if levels = 0 then none else (enclosed first last part cs).map (·.2)
  let structure? (cs : List Char) : Option (List Char) :=
    container '(' ')' (if startsField (cs.drop 1) then named fun _ => item else item) cs
  match skipWord cs, word "Some" cs, identifier cs with
  | some rest, _, _ => some rest
  | none, some _, _ => (optional extensions content cs).map (·.2)
  | none, none, some (_, rest) => do
    let rest ← skipBlank rest
    if rest.head? = some '(' then structure? rest else some rest
  | none, none, none =>
    match cs with
    | '(' :: ')' :: rest => some rest
    | '(' :: _ => structure? cs
    | '[' :: _ => container '[' ']' item cs
    | '{' :: _ => container '{' '}' entry cs
    | '"' :: _ | 'r' :: _ => (string cs).map (·.2)
    | '\'' :: _ => (character cs).map (·.2)
    | _ => skipNumber cs

/-- A field of a signature, by its name. The signature and the field are two levels around what the
    field holds. -/
def signatureField (extensions : Extensions) (name : List Char) : Reader SignatureField := fun cs =>
  if name = "symbol".toList then
    (string cs).map fun (text, rest) => (.symbol (String.ofList text), rest)
  else if name = "library".toList then
    (optional extensions string cs).map fun (text, rest) =>
      (.library (text.map String.ofList), rest)
  else if name = "returns".toList then
    (type cs).map fun (t, rest) => (.returns t, rest)
  else if name = "args".toList then
    (list spec cs).map fun (specs, rest) => (.args specs, rest)
  else (skipValue extensions (levelLimit - 2) cs).map fun rest => (.unknown, rest)

/-- A signature: fields between parentheses, perhaps behind the name of the structure. -/
def signature (extensions : Extensions) : Reader Signature := fun cs => do
  let cs ←
    if cs.head?.any isIdentPart then
      match identifier cs with
      | some (name, rest) => if name = "Signature".toList then some rest else none
      | none => none
    else some cs
  let cs ← skipBlank cs
  let (fields, cs) ← enclosed '(' ')' (named (signatureField extensions)) cs
  let result ← Signature.ofFields? fields
  return (result, cs)

/-- Read a whole text: extensions, something, and nothing more. -/
def document? {α : Type} (item : Extensions → Reader α) (text : String) : Option α := do
  let cs := text.toList
  let cs ← skipBlank cs
  let (extensions, cs) ← attributes (cs.length + 1) ⟨false⟩ cs
  let (result, cs) ← item extensions cs
  let cs ← skipBlank cs
  if cs = [] then some result else none

end DualCall.Ron

/-- The signature that a text in the RON notation holds. -/
def DualCall.Signature.ofRon? (text : String) : Option DualCall.Signature :=
  DualCall.Ron.document? DualCall.Ron.signature text
