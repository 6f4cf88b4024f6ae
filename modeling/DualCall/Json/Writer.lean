import DualCall.Binary.Layout
import DualCall.Signature.Basic

namespace DualCall.Json

/-- Numbers are written in full from `1e-5` and below `1e16`; what is no number is null. -/
def layout : Layout where
  leastFull := some (-5)
  leastScientific := some 16
  exponentMark := "e+"
  halfUp := false
  infinity := "null"
  negativeInfinity := "null"
  nan := "null"

/-- A character as it is written in a string. -/
def writeChar (c : Char) : List Char :=
  if c = '"' ∨ c = '\\' then ['\\', c]
  else if c = '\x08' then ['\\', 'b']
  else if c = '\x0c' then ['\\', 'f']
  else if c = '\n' then ['\\', 'n']
  else if c = '\r' then ['\\', 'r']
  else if c = '\t' then ['\\', 't']
  else if c.toNat < 0x20 then '\\' :: 'u' :: Text.paddedHex 4 c.toNat
  else [c]

def writeString (text : String) : List Char :=
  '"' :: (text.toList.flatMap writeChar ++ ['"'])

def writeType (type : NativeType) : List Char :=
  writeString type.tag

/-- An object with fields in order. -/
def writeObject (fields : List (String × List Char)) : List Char :=
  '\x7b' :: ([','].intercalate (fields.map fun (name, content) =>
    writeString name ++ ':' :: content) ++ ['\x7d'])

def writeList (items : List (List Char)) : List Char :=
  '[' :: ([','].intercalate items ++ [']'])

def writeBool (b : Bool) : List Char :=
  (if b then "true" else "false").toList

def writeValue? : Value → Option (List Char)
  | .null => some (writeString "Null")
  | .bool b => some (writeObject [("Bool", writeBool b)])
  | .int n => some (writeObject [("Int", Text.signedDecimal n.toInt)])
  | .float x => some (writeObject [("Float", layout.write x)])
  | .pointer address => some (writeObject [("Pointer", Text.decimal address.toNat)])
  | .procedure _ => none
  | .unified _ => none

def writeSpec? : ArgSpec → Option (List Char)
  | .bare type => some (writeObject [("Bare", writeType type)])
  | .paired type default =>
    (writeValue? default).map fun written =>
      writeObject [("WithDefault", writeList [writeType type, written])]

def writeOptional : Option String → List Char
  | none => "null".toList
  | some text => writeString text

def writeSignature? (s : Signature) : Option (List Char) :=
  (s.args.mapM writeSpec?).map fun args => writeObject [
    ("symbol", writeString s.symbol),
    ("library", writeOptional s.library),
    ("returns", writeType s.returns),
    ("args", writeList args)]

/-- Items on lines of their own, indented to a depth, between two characters; nothing stands between
    the characters if there are no items. -/
def writeLines (depth : Nat) (first last : Char) (items : List (List Char)) : List Char :=
  let line (depth : Nat) : List Char := '\n' :: List.replicate (2 * depth) ' '
  if items = [] then [first, last]
  else
    first :: ([','].intercalate (items.map fun item => line (depth + 1) ++ item) ++ line depth ++
      [last])

/-- A list on lines at a depth. -/
def writeListLines (depth : Nat) (items : List (List Char)) : List Char :=
  writeLines depth '[' ']' items

/-- An object on lines at a depth. -/
def writeObjectLines (depth : Nat) (fields : List (String × List Char)) : List Char :=
  writeLines depth '\x7b' '\x7d' (fields.map fun (name, content) =>
    writeString name ++ ':' :: ' ' :: content)

end DualCall.Json
