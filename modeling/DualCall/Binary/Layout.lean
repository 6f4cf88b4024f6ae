import DualCall.Binary.Shortest

namespace DualCall

/-- How a written form lays out the shortest digits of a number. A number is written in full when
    the exponent of its first digit is in range, and otherwise as digits with an exponent. -/
structure Layout where
  /-- The least exponent of a number that is written in full, if there is one. -/
  leastFull : Option Int
  /-- The least exponent from which numbers are not written in full, if there is one. -/
  leastScientific : Option Int
  /-- What stands before an exponent that is not negative. -/
  exponentMark : String
  /-- Of two shortest decimals at the same distance, the upper is written. -/
  halfUp : Bool
  infinity : String
  negativeInfinity : String
  nan : String

namespace Layout

/-- Digits without the zeros at their end. -/
def stripZeros (ds : List Char) : List Char :=
  (ds.reverse.dropWhile (· == '0')).reverse

/-- Digits with a point after the first `point` of them; a whole number has a zero after it. -/
def full (ds : List Char) (point : Int) : List Char :=
  if point ≤ 0 then '0' :: '.' :: (List.replicate point.natAbs '0' ++ ds)
  else
    let whole := point.natAbs
    if whole < ds.length then ds.take whole ++ '.' :: ds.drop whole
    else ds ++ List.replicate (whole - ds.length) '0' ++ ['.', '0']

/-- Digits with a point after the first and an exponent; a single digit has no point. -/
def scientific (layout : Layout) (ds : List Char) (exponent : Int) : List Char :=
  let mantissa :=
    match ds with
    | first :: second :: rest => first :: '.' :: second :: rest
    | _ => ds
  mantissa ++ (if exponent < 0 then ['e'] else layout.exponentMark.toList) ++
    Text.signedDecimal exponent

/-- The text of a finite magnitude. -/
def magnitude (layout : Layout) (f : Format) (size : Nat) : List Char :=
  if size = 0 then ['0', '.', '0']
  else
    let d := f.shortest layout.halfUp size
    let written := Text.decimal d.coefficient
    let ds := stripZeros written
    let point := d.exponent + written.length
    let exponent := point - 1
    if layout.leastFull.all (· ≤ exponent) ∧ layout.leastScientific.all (exponent < ·) then
      full ds point
    else scientific layout ds exponent

/-- The text of a number. -/
def write (layout : Layout) (x : Binary64) : List Char :=
  let datum := x.decode
  if datum.isNaN .double then layout.nan.toList
  else if datum.isInfinite .double then
    (if datum.negative then layout.negativeInfinity else layout.infinity).toList
  else
    let size := layout.magnitude .double datum.magnitude
    if datum.negative then '-' :: size else size

end Layout

/-- The display of floating-point values: in full from `1e-4` and below `1e16`. -/
def Layout.display : Layout where
  leastFull := some (-4)
  leastScientific := some 16
  exponentMark := "e"
  halfUp := true
  infinity := "inf"
  negativeInfinity := "-inf"
  nan := "NaN"

end DualCall
