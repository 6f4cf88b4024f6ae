import DualCall.Json.Tree
import DualCall.Signature.Basic

namespace DualCall.Json

/-- A reader of something at the start of a text. -/
abbrev Reader (α : Type) := List Char → Option (α × List Char)

def isBlank (c : Char) : Bool :=
  c = ' ' || c = '\n' || c = '\t' || c = '\r'

def skipBlank (cs : List Char) : List Char :=
  cs.dropWhile isBlank

/-- The digits at the start of a text, of which there is at least one. -/
def digits : Reader (List Char) := fun cs =>
  let run := cs.takeWhile Text.isDigit
  if run = [] then none else some (run, cs.dropWhile Text.isDigit)

/-- The exponent part of a number, if there is one. -/
def exponent : Reader (Option (Bool × List Char))
  | c :: rest =>
    if c = 'e' ∨ c = 'E' then
      let (down, unsigned) := Text.takeSign rest
      (digits unsigned).map fun (ds, after) => (some (down, ds), after)
    else some (none, c :: rest)
  | [] => some (none, [])

/-- The part behind the point of a number, if there is one. -/
def fraction : Reader (Option (List Char))
  | '.' :: rest => (digits rest).map fun (ds, after) => (some ds, after)
  | cs => some (none, cs)

/-- A number; it has no plus sign, and no zeros in front. -/
def number : Reader JsonNumber := fun cs => do
  let (negative, cs) := match cs with
    | '-' :: rest => (true, rest)
    | _ => (false, cs)
  let (whole, cs) ← digits cs
  if whole.head? = some '0' ∧ whole.length ≠ 1 then none
  let (behind, cs) ← fraction cs
  let (power, cs) ← exponent cs
  return (.ofText negative whole behind power, cs)

/-- The number of four hexadecimal digits. -/
def hexWord : Reader Nat
  | a :: b :: c :: d :: rest => (Text.readNat? 16 [a, b, c, d]).map fun n => (n, rest)
  | _ => none

/-- A code unit of an escape: a character, with the second half of its pair if it needs one, or
    nothing for a half that stands alone. -/
def unicodeEscape : Reader (Option Char) := fun cs => do
  let (unit, rest) ← hexWord cs
  if 0xd800 ≤ unit ∧ unit < 0xdc00 then
    match rest with
    | '\\' :: 'u' :: after =>
      let (second, last) ← hexWord after
      if 0xdc00 ≤ second ∧ second < 0xe000 then
        return (some (Char.ofNat (0x10000 + (unit - 0xd800) * 0x400 + (second - 0xdc00))), last)
      else return (none, rest)
    | _ => return (none, rest)
  else if 0xdc00 ≤ unit ∧ unit < 0xe000 then return (none, rest)
  else return (some (Char.ofNat unit), rest)

/-- What follows a backslash. -/
def escape : Reader (Option Char)
  | '"' :: rest => some (some '"', rest)
  | '\\' :: rest => some (some '\\', rest)
  | '/' :: rest => some (some '/', rest)
  | 'b' :: rest => some (some '\x08', rest)
  | 'f' :: rest => some (some '\x0c', rest)
  | 'n' :: rest => some (some '\n', rest)
  | 'r' :: rest => some (some '\r', rest)
  | 't' :: rest => some (some '\t', rest)
  | 'u' :: rest => unicodeEscape rest
  | _ => none

/-- The rest of a string behind its first quote. `fuel` is at least the number of characters. -/
def stringBody : Nat → Reader (Option (List Char))
  | fuel + 1, c :: rest =>
    if c = '"' then some (some [], rest)
    else if c = '\\' then do
      let (d, after) ← escape rest
      let (text, last) ← stringBody fuel after
      return (d.bind fun d => text.map (d :: ·), last)
    else if c.toNat < 0x20 then none
    else do
      let (text, last) ← stringBody fuel rest
      return (text.map (c :: ·), last)
  | _, _ => none

mutual

/-- A document after blanks. `fuel` bounds the depth of the calls. -/
def tree : Nat → Reader JsonTree
  | 0, _ => none
  | fuel + 1, cs =>
    match skipBlank cs with
    | 'n' :: 'u' :: 'l' :: 'l' :: rest => some (.null, rest)
    | 't' :: 'r' :: 'u' :: 'e' :: rest => some (.bool true, rest)
    | 'f' :: 'a' :: 'l' :: 's' :: 'e' :: rest => some (.bool false, rest)
    | '"' :: rest => (stringBody rest.length rest).map fun (text, after) => (.string text, after)
    | '[' :: rest =>
      match skipBlank rest with
      | ']' :: after => some (.array [], after)
      | _ => (elements fuel rest).map fun (items, after) => (.array items, after)
    | '\x7b' :: rest =>
      match skipBlank rest with
      | '\x7d' :: after => some (.object [], after)
      | _ => (members fuel rest).map fun (fields, after) => (.object fields, after)
    | cs => (number cs).map fun (n, after) => (.number n, after)

/-- The elements of an array that is not empty, up to its end. -/
def elements : Nat → Reader (List JsonTree)
  | 0, _ => none
  | fuel + 1, cs => do
    let (first, cs) ← tree fuel cs
    match skipBlank cs with
    | ']' :: rest => return ([first], rest)
    | ',' :: rest =>
      let (others, rest) ← elements fuel rest
      return (first :: others, rest)
    | _ => none

/-- The fields of an object that is not empty, up to its end. -/
def members : Nat → Reader (List (Option (List Char) × JsonTree))
  | 0, _ => none
  | fuel + 1, cs =>
    match skipBlank cs with
    | '"' :: rest => do
      let (name, cs) ← stringBody rest.length rest
      match skipBlank cs with
      | ':' :: rest =>
        let (value, cs) ← tree fuel rest
        match skipBlank cs with
        | '\x7d' :: rest => return ([(name, value)], rest)
        | ',' :: rest =>
          let (others, rest) ← members fuel rest
          return ((name, value) :: others, rest)
        | _ => none
      | _ => none
    | _ => none

end

/-- Read a whole text as one document. -/
def read? (text : String) : Option JsonTree := do
  let cs := text.toList
  let (result, rest) ← tree (cs.length + 1) cs
  if skipBlank rest = [] then some result else none

end DualCall.Json

namespace DualCall.JsonTree

/-- The name and the content of a variant: a lone string is a variant without content, and an object
    with one field is a variant with the content of the field. -/
def variant? : JsonTree → Option (String × Option JsonTree)
  | .string (some name) => some (String.ofList name, none)
  | .object [(some name, content)] => some (String.ofList name, some content)
  | _ => none

/-- Whether a variant without content is written as it can be. -/
def isUnit : Option JsonTree → Bool
  | none => true
  | some .null => true
  | some _ => false

def toType? (document : JsonTree) : Option NativeType := do
  let (tag, content) ← document.variant?
  if isUnit content then NativeType.ofTag? tag else none

def toBool? : JsonTree → Option Bool
  | .bool b => some b
  | _ => none

def toInt64? : JsonTree → Option Int64
  | .number (.natural n) =>
    if (n : Int) ≤ Int64.maxValue.toInt then some (Int64.ofNat n) else none
  | .number (.negative n) => some (Int64.ofInt (-(n : Int)))
  | _ => none

def toUInt64? : JsonTree → Option UInt64
  | .number (.natural n) => some (UInt64.ofNat n)
  | _ => none

def toFloat? : JsonTree → Option Binary64
  | .number (.natural n) => some (.ofInt n)
  | .number (.negative n) => some (.ofInt (-(n : Int)))
  | .number (.float x) => some x
  | _ => none

def toText? : JsonTree → Option String
  | .string text => text.map String.ofList
  | _ => none

def toList? : JsonTree → Option (List JsonTree)
  | .array items => some items
  | _ => none

def toValue? (document : JsonTree) : Option Value := do
  match ← document.variant? with
  | ("Null", content) => if isUnit content then some .null else none
  | ("Bool", some content) => content.toBool?.map .bool
  | ("Int", some content) => content.toInt64?.map .int
  | ("Float", some content) => content.toFloat?.map .float
  | ("Pointer", some content) => content.toUInt64?.map .pointer
  | _ => none

def toSpec? (document : JsonTree) : Option ArgSpec := do
  match ← document.variant? with
  | ("Bare", some content) => content.toType?.map .bare
  | ("WithDefault", some (.array [type, default])) =>
    return .paired (← type.toType?) (← default.toValue?)
  | _ => none

def toSpecs? (document : JsonTree) : Option (List ArgSpec) := do
  (← document.toList?).mapM toSpec?

/-- An optional text, which is null when there is none. -/
def toOptional? : JsonTree → Option (Option String)
  | .null => some none
  | document => document.toText?.map some

/-- A field of a signature, by its name. -/
def toField? (name : Option (List Char)) (content : JsonTree) : Option SignatureField := do
  match String.ofList (← name) with
  | "symbol" => content.toText?.map .symbol
  | "library" => content.toOptional?.map .library
  | "returns" => content.toType?.map .returns
  | "args" => content.toSpecs?.map .args
  | _ => some .unknown

/-- A signature: an object of fields, or an array of their values in order, of which the last may
    be left out. -/
def toSignature? : JsonTree → Option Signature
  | .object fields => do
    Signature.ofFields? (← fields.mapM fun (name, content) => toField? name content)
  | .array (symbol :: library :: returns :: rest) => do
    let args ← match rest with
      | [] => some []
      | [args] => args.toSpecs?
      | _ => none
    return ⟨← symbol.toText?, ← library.toOptional?, ← returns.toType?, args⟩
  | _ => none

end DualCall.JsonTree
