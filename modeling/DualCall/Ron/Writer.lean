import DualCall.Binary.Layout
import DualCall.Signature.Basic
import DualCall.Text.Printable

namespace DualCall.Ron

/-- Numbers are written in full, however long that is. -/
def layout : Layout where
  leastFull := none
  leastScientific := none
  exponentMark := "e"
  halfUp := true
  infinity := "inf"
  negativeInfinity := "-inf"
  nan := "NaN"

/-- A character as it is written in a string. Quotes, backslashes and the usual control characters
    have short escapes; other characters that cannot be shown are written by their code. -/
def writeChar (c : Char) : List Char :=
  if c = '\x00' then ['\\', '0']
  else if c = '\t' then ['\\', 't']
  else if c = '\r' then ['\\', 'r']
  else if c = '\n' then ['\\', 'n']
  else if c = '\'' ∨ c = '"' ∨ c = '\\' then ['\\', c]
  else if Text.isShown c then [c]
  else "\\u\x7b".toList ++ Text.digits 16 c.toNat ++ ['}']

def writeString (text : String) : List Char :=
  '"' :: (text.toList.flatMap writeChar ++ ['"'])

def writeType (type : NativeType) : List Char :=
  type.tag.toList

/-- A name with something in parentheses behind it. -/
def writeTagged (name : String) (content : List Char) : List Char :=
  name.toList ++ '(' :: (content ++ [')'])

def writeValue? : Value → Option (List Char)
  | .null => some "Null".toList
  | .bool b => some (writeTagged "Bool" (if b then "true" else "false").toList)
  | .int n => some (writeTagged "Int" (Text.signedDecimal n.toInt))
  | .float x => some (writeTagged "Float" (layout.write x))
  | .pointer address => some (writeTagged "Pointer" (Text.decimal address.toNat))
  | .procedure _ => none
  | .unified _ => none

def writeSpec? : ArgSpec → Option (List Char)
  | .bare type => some (writeTagged "Bare" (writeType type))
  | .paired type default =>
    (writeValue? default).map fun written =>
      writeTagged "WithDefault" (writeType type ++ ',' :: written)

/-- A list in brackets with commas between its items. -/
def writeList (items : List (List Char)) : List Char :=
  '[' :: ([','].intercalate items ++ [']'])

def writeOptional : Option String → List Char
  | none => "None".toList
  | some text => writeTagged "Some" (writeString text)

/-- A field with its name. -/
def writeField (name : String) (content : List Char) : List Char :=
  name.toList ++ ':' :: content

/-- Fields in parentheses with commas between them. -/
def writeFields (fields : List (List Char)) : List Char :=
  '(' :: ([','].intercalate fields ++ [')'])

def writeSignature? (s : Signature) : Option (List Char) :=
  (s.args.mapM writeSpec?).map fun args => writeFields [
    writeField "symbol" (writeString s.symbol),
    writeField "library" (writeOptional s.library),
    writeField "returns" (writeType s.returns),
    writeField "args" (writeList args)]

end DualCall.Ron
