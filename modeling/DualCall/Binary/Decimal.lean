import DualCall.Binary.Number
import DualCall.Text.Numeral

namespace DualCall

-- Powers are those of the core library, whatever other instances are in scope.
attribute [local instance (2000)] instPowNat

/-- The number `coefficient · 10 ^ exponent`. -/
structure Decimal where
  coefficient : Nat
  exponent : Int
deriving DecidableEq, Repr

namespace Decimal

/-- The exponent of the least power of ten above the number, for a coefficient that is not zero. -/
def order (d : Decimal) : Int :=
  d.exponent + (Text.decimal d.coefficient).length

/-- The magnitude nearest to a decimal, a tie to the even significand. A number of too high an
    order is larger than every finite one, and a number of too low an order is less than half a
    unit; both are answered before a power of ten is computed. -/
def nearest (f : Format) (d : Decimal) : Nat :=
  if d.coefficient = 0 then 0
  else if ((2 ^ (f.exponentBits - 1) : Nat) : Int) < 3 * (d.order - 1) then f.infinity
  else if 3 * d.order < -((f.scale : Int) + 1) then 0
  else if 0 ≤ d.exponent then f.nearest (d.coefficient * 10 ^ d.exponent.natAbs * f.one) 1
  else f.nearest (d.coefficient * f.one) (10 ^ d.exponent.natAbs)

/-- The exponent part of a numeral: nothing, or the letter `e` and an integer. -/
def readExponent? : List Char → Option Int
  | [] => some 0
  | c :: rest => if c = 'e' ∨ c = 'E' then Text.readInt? rest else none

/-- A decimal without sign: digits on at least one side of an optional point, and an exponent. -/
def read? (cs : List Char) : Option Decimal :=
  let whole := cs.takeWhile Text.isDigit
  let afterWhole := cs.dropWhile Text.isDigit
  let (fraction, rest) :=
    match afterWhole with
    | '.' :: tail => (tail.takeWhile Text.isDigit, tail.dropWhile Text.isDigit)
    | _ => ([], afterWhole)
  if whole = [] ∧ fraction = [] then none
  else (readExponent? rest).map fun exponent =>
    ⟨Text.natOfDigits 10 (whole ++ fraction), exponent - fraction.length⟩

end Decimal

/-- The lower-case form of an ASCII letter; other characters are kept. -/
def Text.lowerAscii (c : Char) : Char :=
  if 'A' ≤ c ∧ c ≤ 'Z' then Char.ofNat (c.toNat + 32) else c

namespace Binary64

/-- The number nearest to a decimal. -/
def ofDecimal (negative : Bool) (d : Decimal) : Binary64 :=
  encode ⟨negative, d.nearest .double⟩

/-- A number from its text: an optional sign, then a decimal or one of the words for the
    infinities and for no number, in any case. -/
def read? (cs : List Char) : Option Binary64 :=
  let (negative, unsigned) := Text.takeSign cs
  let word := unsigned.map Text.lowerAscii
  if word = "inf".toList ∨ word = "infinity".toList then
    some (encode ⟨negative, Format.double.infinity⟩)
  else if word = "nan".toList then some (encode ⟨negative, Format.double.quiet⟩)
  else (Decimal.read? unsigned).map (ofDecimal negative)

end Binary64

end DualCall
