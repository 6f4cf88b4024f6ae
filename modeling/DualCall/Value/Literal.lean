import DualCall.Binary.Decimal
import DualCall.Text.Blank
import DualCall.Value.Basic

namespace DualCall

/-- The address behind the mark of a hexadecimal number: an optional plus sign and digits. -/
def readAddress? (cs : List Char) : Option UInt64 :=
  let digits := match cs with
    | '+' :: rest => rest
    | _ => cs
  (Text.readNat? 16 digits).bind fun n => if n < UInt64.size then some (UInt64.ofNat n) else none

/-- An integer of 64 bits in decimal digits with an optional sign. -/
def readInt64? (cs : List Char) : Option Int64 :=
  (Text.readInt? cs).bind fun n =>
    if Int64.minValue.toInt ≤ n ∧ n ≤ Int64.maxValue.toInt then some (Int64.ofInt n) else none

/-- What follows the mark of a hexadecimal number. -/
def afterHexMark? : List Char → Option (List Char)
  | '0' :: 'x' :: rest => some rest
  | '0' :: 'X' :: rest => some rest
  | _ => none

/-- The value of a literal without blanks at its ends. A text with the mark of a hexadecimal number
    is an address or nothing; an integer that does not fit is read as a floating-point number. -/
def Value.readTrimmed? (cs : List Char) : Option Value :=
  if cs = "null".toList ∨ cs = "nil".toList then some .null
  else if cs = "true".toList then some (.bool true)
  else if cs = "false".toList then some (.bool false)
  else match afterHexMark? cs with
    | some digits => (readAddress? digits).map .pointer
    | none =>
      match readInt64? cs with
      | some n => some (.int n)
      | none => (Binary64.read? cs).map .float

/-- The value of a literal; blanks at its ends do not count. -/
def Value.read? (text : String) : Option Value :=
  readTrimmed? (Text.trim text.toList)

end DualCall
