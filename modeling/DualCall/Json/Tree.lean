import DualCall.Binary.Decimal

namespace DualCall

/-- A number of a document. A number without point and exponent that fits into 64 bits is kept as an
    integer; the others are floating-point numbers, if they are in range. -/
inductive JsonNumber where
  | natural (n : Nat)
  | negative (n : Nat)
  | float (x : Binary64)
  | outOfRange
deriving DecidableEq, Repr

inductive JsonTree where
  | null
  | bool (b : Bool)
  | number (n : JsonNumber)
  /-- A string; it has no text when an escape in it stands for no character. -/
  | string (text : Option (List Char))
  | array (items : List JsonTree)
  | object (fields : List (Option (List Char) × JsonTree))

namespace JsonNumber

/-- Read digits behind a number as long as it stays below two to the power of sixty-four. Yields the
    number and the digits that were not read. -/
def takeDigits (seed : Nat) : List Char → Nat × List Char
  | [] => (seed, [])
  | c :: rest =>
    let next := Text.natOfDigitsFrom 10 seed [c]
    if next < UInt64.size then takeDigits next rest else (seed, c :: rest)

/-- A power of ten as a floating-point number. -/
def powerOfTen (exponent : Nat) : Signed :=
  ⟨false, Decimal.nearest .double ⟨1, exponent⟩⟩

/-- A number scaled by a power of ten, with a rounding after every product and quotient. A power
    beyond the range of the format is divided off in steps, of which few lead to zero. -/
def scale (x : Signed) : Nat → Int → Option Signed
  | 0, _ => some x
  | steps + 1, exponent =>
    if exponent.natAbs ≤ 308 then
      if 0 ≤ exponent then
        let product := x.mul .double (powerOfTen exponent.natAbs)
        if product.isInfinite .double then none else some product
      else some (x.div .double (powerOfTen exponent.natAbs))
    else if x.magnitude = 0 then some x
    else if 0 ≤ exponent then none
    else scale (x.div .double (powerOfTen 308)) steps (exponent + 308)

/-- The floating-point number of significant digits and an exponent. The digits are rounded first,
    and scaled then. -/
def ofParts (negative : Bool) (significand : Nat) (exponent : Int) : JsonNumber :=
  match scale (Signed.ofInt .double significand) 4 exponent with
  | none => .outOfRange
  | some x => .float (.encode ⟨negative, x.magnitude⟩)

/-- The largest exponent that is computed with. -/
def exponentBound : Int := Int32.maxValue.toInt

/-- A number from its parts: the digits before the point, those after it if there is one, and the
    sign and the digits of the exponent if there is one. Only as many digits count as fit into 64
    bits. -/
def ofText (negative : Bool) (whole : List Char) (fraction : Option (List Char))
    (exponent : Option (Bool × List Char)) : JsonNumber :=
  let (integer, unread) := takeDigits 0 whole
  match fraction, exponent with
  | none, none =>
    if unread ≠ [] then ofParts negative integer unread.length
    else if !negative then .natural integer
    else if 0 < integer ∧ Int64.minValue.toInt ≤ -(integer : Int) then .negative integer
    else .float (.encode ⟨true, (Signed.ofInt .double integer).magnitude⟩)
  | _, _ =>
    let behind := fraction.getD []
    let (significand, dropped) := takeDigits integer behind
    let place : Int := (unread.length : Int) - (behind.length - dropped.length : Nat)
    match exponent with
    | none => ofParts negative significand place
    | some (down, ds) =>
      let size := Text.natOfDigits 10 ds
      if exponentBound < size then
        if significand ≠ 0 ∧ !down then .outOfRange else .float (.encode ⟨negative, 0⟩)
      else ofParts negative significand (if down then place - size else place + size)

end JsonNumber

end DualCall
