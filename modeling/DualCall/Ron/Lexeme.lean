import DualCall.Binary.Decimal

namespace DualCall.Ron

/-- A reader takes something off the front of a text and yields the rest. -/
abbrev Reader (α : Type) := List Char → Option (α × List Char)

def isBlank (c : Char) : Bool :=
  c = ' ' || c = '\n' || c = '\t' || c = '\r'

/-- Where a reader of blanks is: between comments, in a comment up to the end of the line, or in a
    block comment with a number of others around it. -/
inductive BlankState where
  | between
  | line
  | block (outer : Nat)

/-- The text after blanks and comments. Block comments nest; a slash that begins no comment and a
    comment that does not end are errors. -/
def skipFrom : BlankState → List Char → Option (List Char)
  | .between, [] => some []
  | .between, '/' :: '/' :: rest => skipFrom .line rest
  | .between, '/' :: '*' :: rest => skipFrom (.block 0) rest
  | .between, '/' :: _ => none
  | .between, c :: rest => if isBlank c then skipFrom .between rest else some (c :: rest)
  | .line, [] => some []
  | .line, c :: rest => skipFrom (if c = '\n' then .between else .line) rest
  | .block _, [] => none
  | .block outer, '/' :: '*' :: rest => skipFrom (.block (outer + 1)) rest
  | .block 0, '*' :: '/' :: rest => skipFrom .between rest
  | .block (outer + 1), '*' :: '/' :: rest => skipFrom (.block outer) rest
  | .block outer, _ :: rest => skipFrom (.block outer) rest

/-- The text after any blanks and comments at its start. -/
def skipBlank (cs : List Char) : Option (List Char) :=
  skipFrom .between cs

/-- Take one character off the text. -/
def expect (c : Char) : List Char → Option (List Char)
  | d :: rest => if c = d then some rest else none
  | [] => none

def isIdentStart (c : Char) : Bool :=
  ('a' ≤ c && c ≤ 'z') || ('A' ≤ c && c ≤ 'Z') || c = '_'

def isIdentPart (c : Char) : Bool :=
  isIdentStart c || Text.isDigit c

/-- A character of a raw identifier. -/
def isRawPart (c : Char) : Bool :=
  isIdentPart c || c = '.' || c = '+' || c = '-'

/-- An identifier. A raw one stands behind `r#`; what would be the start of a raw string, and a run
    of characters that only a raw identifier can have, is none. -/
def identifier : Reader (List Char)
  | 'r' :: '#' :: rest =>
    let name := rest.takeWhile isRawPart
    if name = [] then none else some (name, rest.dropWhile isRawPart)
  | 'r' :: '"' :: _ => none
  | ['r'] => none
  | 'r' :: rest => some ('r' :: rest.takeWhile isIdentPart, rest.dropWhile isIdentPart)
  | c :: rest =>
    let after := rest.dropWhile isIdentPart
    if isIdentStart c && !after.head?.any isRawPart then
      some (c :: rest.takeWhile isIdentPart, after)
    else none
  | [] => none

/-- Take a run of characters off the text. -/
def expectRun (run : String) (cs : List Char) : Option (List Char) :=
  if run.toList.isPrefixOf cs then some (cs.drop run.length) else none

/-- The text after a word that is not only the start of a longer one. -/
def word (name : String) (cs : List Char) : Option (List Char) :=
  (expectRun name cs).bind fun rest => if rest.head?.any isIdentPart then none else some rest

/-- A digit of any base, or a mark between digits. -/
def isIntChar (c : Char) : Bool :=
  (Text.digitValue? 16 c).isSome || c = '_'

/-- The base that the start of a number tells, and the text after the mark of the base. -/
def numberBase : List Char → Nat × List Char
  | '0' :: 'x' :: rest => (16, rest)
  | '0' :: 'b' :: rest => (2, rest)
  | '0' :: 'o' :: rest => (8, rest)
  | cs => (10, cs)

/-- A number without sign; underscores may stand anywhere behind the first digit. -/
def natural : Reader Nat := fun cs =>
  let (base, body) := numberBase cs
  let run := body.takeWhile isIntChar
  if run.head? = some '_' then none
  else (Text.readNat? base (run.filter (· != '_'))).map fun n => (n, body.dropWhile isIntChar)

/-- A number with an optional sign. -/
def integer : Reader Int := fun cs =>
  let (negative, unsigned) := Text.takeSign cs
  (natural unsigned).map fun (n, rest) => (if negative then -(n : Int) else (n : Int), rest)

/-- An integer of 64 bits. -/
def int64 : Reader Int64 := fun cs =>
  (integer cs).bind fun (n, rest) =>
    if Int64.minValue.toInt ≤ n ∧ n ≤ Int64.maxValue.toInt then some (Int64.ofInt n, rest) else none

/-- A natural number of 64 bits; it has no sign. -/
def uint64 : Reader UInt64 := fun cs =>
  (natural cs).bind fun (n, rest) =>
    if n < UInt64.size then some (UInt64.ofNat n, rest) else none

def isFloatChar (c : Char) : Bool :=
  Text.isDigit c || c = '.' || c = 'e' || c = 'E' || c = '+' || c = '-'

/-- The words for the infinities and for no number. No number has a sign too. -/
def floatWords : List String :=
  ["inf", "+inf", "-inf", "NaN", "+NaN", "-NaN"]

/-- A floating-point number, or one of the words for what digits cannot write. -/
def float : Reader Binary64 := fun cs =>
  let named? (name : String) : Option (Binary64 × List Char) := do
    let rest ← word name cs
    let x ← Binary64.read? name.toList
    return (x, rest)
  let digits : Option (Binary64 × List Char) :=
    (Binary64.read? (cs.takeWhile isFloatChar)).map fun x => (x, cs.dropWhile isFloatChar)
  (floatWords.findSome? named?).or digits

/-- The character with a code in hexadecimal digits. -/
def charOfHex? (ds : List Char) : Option Char :=
  (Text.readNat? 16 ds).bind fun n => if n.isValidChar then some (Char.ofNat n) else none

/-- What follows a backslash, as the character it stands for. -/
def escape : Reader Char
  | '\'' :: rest => some ('\'', rest)
  | '"' :: rest => some ('"', rest)
  | '\\' :: rest => some ('\\', rest)
  | 'n' :: rest => some ('\n', rest)
  | 'r' :: rest => some ('\r', rest)
  | 't' :: rest => some ('\t', rest)
  | '0' :: rest => some ('\x00', rest)
  | 'x' :: a :: b :: rest => (charOfHex? [a, b]).map fun c => (c, rest)
  | 'u' :: '{' :: rest =>
    let ds := (rest.take 6).takeWhile (· != '}')
    (charOfHex? ds).bind fun c => (expect '}' (rest.drop ds.length)).map fun after => (c, after)
  | _ => none

/-- The rest of a string with escapes, behind its first quote. `fuel` is at least the number of
    characters of the text. -/
def stringBody : Nat → Reader (List Char)
  | fuel + 1, c :: rest =>
    if c = '"' then some ([], rest)
    else if c = '\\' then
      (escape rest).bind fun (d, after) =>
        (stringBody fuel after).map fun (text, last) => (d :: text, last)
    else (stringBody fuel rest).map fun (text, last) => (c :: text, last)
  | _, _ => none

/-- The text up to a mark, and the text behind the mark. -/
def upTo (mark : List Char) : Reader (List Char)
  | [] => none
  | c :: rest =>
    if mark.isPrefixOf (c :: rest) then some ([], (c :: rest).drop mark.length)
    else (upTo mark rest).map fun (text, after) => (c :: text, after)

/-- A string: with escapes between quotes, or raw behind the letter `r`, where as many number signs
    as stand before the first quote follow the last. -/
def string : Reader (List Char)
  | '"' :: rest => stringBody rest.length rest
  | 'r' :: rest =>
    let signs := rest.takeWhile (· = '#')
    (expect '"' (rest.dropWhile (· = '#'))).bind (upTo ('"' :: signs))
  | _ => none

/-- A character between single quotes. A single quote as the character has a backslash. -/
def character : Reader Char
  | '\'' :: '\\' :: rest =>
    (escape rest).bind fun (c, after) => (expect '\'' after).map fun last => (c, last)
  | '\'' :: c :: '\'' :: rest => if c = '\'' then none else some (c, rest)
  | _ => none

/-- The text after an optional comma with blanks around it, and whether the comma was there. -/
def comma (cs : List Char) : Option (Bool × List Char) :=
  (skipBlank cs).bind fun
    | ',' :: rest => (skipBlank rest).map fun after => (true, after)
    | after => some (false, after)

/-- Something between parentheses, perhaps with a comma behind it. -/
def parenthesized {α : Type} (inner : Reader α) : Reader α := fun cs => do
  let cs ← skipBlank cs
  let cs ← expect '(' cs
  let cs ← skipBlank cs
  let (result, cs) ← inner cs
  let (_, cs) ← comma cs
  let cs ← expect ')' cs
  return (result, cs)

/-- Items with commas between them, up to a closing character that is not taken. An item may begin
    only if `open?` says so or a comma came before it. `fuel` bounds the number of items. -/
def items {α : Type} (item : Reader α) (close : Char) : Nat → Bool → Reader (List α)
  | 0, _, _ => none
  | fuel + 1, mayBegin, cs => do
    let cs ← skipBlank cs
    if cs.head? = some close then return ([], cs)
    if !mayBegin then none
    let (first, cs) ← item cs
    let (more, cs) ← comma cs
    let (rest, cs) ← items item close fuel more cs
    return (first :: rest, cs)

/-- Items with commas between them, between two characters. -/
def enclosed {α : Type} (first last : Char) (item : Reader α) : Reader (List α) := fun cs => do
  let cs ← expect first cs
  let (result, cs) ← items item last (cs.length + 1) true cs
  let cs ← expect last cs
  return (result, cs)

/-- Something named: an identifier, a colon and a value that depends on the identifier. -/
def named {α : Type} (value : List Char → Reader α) : Reader α := fun cs => do
  let (name, cs) ← identifier cs
  let cs ← skipBlank cs
  let cs ← expect ':' cs
  let cs ← skipBlank cs
  value name cs

end DualCall.Ron
