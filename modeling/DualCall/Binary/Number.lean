import DualCall.Binary.Format

namespace DualCall

-- Powers are those of the core library, whatever other instances are in scope.
attribute [local instance (2000)] instPowNat

/-- A number of the 64-bit format, or an infinity, or no number at all. -/
structure Binary64 where
  bits : UInt64
deriving DecidableEq, Inhabited, Repr

/-- A number of the 32-bit format, or an infinity, or no number at all. -/
structure Binary32 where
  bits : UInt32
deriving DecidableEq, Inhabited, Repr

/-- A floating-point datum of a format, decoded: a sign and a magnitude. The operations on it are
    exact on units and round once. -/
structure Signed where
  negative : Bool
  magnitude : Nat
deriving DecidableEq, Inhabited, Repr

namespace Signed

variable (f : Format)

/-- No number, of either sign. -/
def isNaN (x : Signed) : Bool := f.infinity < x.magnitude

/-- An infinity of either sign. -/
def isInfinite (x : Signed) : Bool := x.magnitude == f.infinity

/-- The result of an operation that has none. -/
def nan : Signed := ⟨false, f.quiet⟩

/-- The whole number of units of a finite datum. -/
def units (x : Signed) : Int :=
  if x.negative then -(f.units x.magnitude : Int) else (f.units x.magnitude : Int)

/-- The nearest datum to a quotient of units; a result of zero has the sign given for it. -/
def nearest (num : Int) (den : Nat) (zeroNegative : Bool) : Signed :=
  if num = 0 then ⟨zeroNegative, 0⟩
  else ⟨decide (num < 0), f.nearest num.natAbs den⟩

/-- Equality of numbers: the two zeros are equal, and a missing number equals nothing. -/
def numericallyEqual (x y : Signed) : Bool :=
  !x.isNaN f && !y.isNaN f && (x == y || (x.magnitude == 0 && y.magnitude == 0))

def negate (x : Signed) : Signed := ⟨!x.negative, x.magnitude⟩

def add (x y : Signed) : Signed :=
  if x.isNaN f || y.isNaN f then nan f
  else if x.isInfinite f then
    if y.isInfinite f && x.negative != y.negative then nan f else x
  else if y.isInfinite f then y
  else nearest f (x.units f + y.units f) 1 (x.negative && y.negative)

def sub (x y : Signed) : Signed :=
  add f x (negate y)

def mul (x y : Signed) : Signed :=
  let sign := x.negative != y.negative
  if x.isNaN f || y.isNaN f then nan f
  else if x.isInfinite f then
    if y.magnitude == 0 then nan f else ⟨sign, f.infinity⟩
  else if y.isInfinite f then
    if x.magnitude == 0 then nan f else ⟨sign, f.infinity⟩
  else nearest f (x.units f * y.units f) f.one sign

def div (x y : Signed) : Signed :=
  let sign := x.negative != y.negative
  if x.isNaN f || y.isNaN f then nan f
  else if x.isInfinite f then
    if y.isInfinite f then nan f else ⟨sign, f.infinity⟩
  else if y.isInfinite f then ⟨sign, 0⟩
  else if y.magnitude == 0 then
    if x.magnitude == 0 then nan f else ⟨sign, f.infinity⟩
  else ⟨sign, f.nearest (f.units x.magnitude * f.one) (f.units y.magnitude)⟩

/-- The largest whole number whose square is at most `n`. -/
def squareRoot (n : Nat) : Nat :=
  (List.range (Nat.log2 n / 2 + 1)).foldr
    (fun bit root => if (root + 2 ^ bit) * (root + 2 ^ bit) ≤ n then root + 2 ^ bit else root) 0

/-- The square root. The whole square root of the scaled units has far more digits than a
    significand, and a half is added when it is not exact, so rounding it rounds the true root. -/
def sqrt (x : Signed) : Signed :=
  if x.isNaN f then nan f
  else if x.magnitude == 0 then x
  else if x.negative then nan f
  else if x.isInfinite f then x
  else
    let scaled := f.units x.magnitude * f.one
    let root := squareRoot scaled
    let sticky := if root * root = scaled then 0 else 1
    ⟨false, f.nearest (2 * root + sticky) 2⟩

/-- The remainder of a division that rounds toward zero; it has the sign of the dividend. -/
def remainder (x y : Signed) : Signed :=
  if x.isNaN f || y.isNaN f || x.isInfinite f || y.magnitude == 0 then nan f
  else if y.isInfinite f then x
  else ⟨x.negative, f.nearest (f.units x.magnitude % f.units y.magnitude) 1⟩

/-- Drop the part after the point, and add one to the size of the rest if `away` says so of the
    sign of a number that was not whole. -/
def toWhole (away : Bool → Bool) (x : Signed) : Signed :=
  if x.isNaN f then nan f
  else if x.isInfinite f then x
  else
    let whole := f.units x.magnitude / f.one
    let isWhole := f.units x.magnitude % f.one = 0
    let size := if isWhole || !away x.negative then whole else whole + 1
    ⟨x.negative, f.nearest (size * f.one) 1⟩

/-- The largest whole number that is not above. -/
def floor (x : Signed) : Signed := toWhole f (fun negative => negative) x

/-- The least whole number that is not below. -/
def ceil (x : Signed) : Signed := toWhole f (fun negative => !negative) x

/-- The whole number toward zero. -/
def trunc (x : Signed) : Signed := toWhole f (fun _ => false) x

/-- The product with a power of two. Beyond the width of the format's exponents the power no
    longer matters, and it is cut there. -/
def scaleByPower (x : Signed) (power : Int) : Signed :=
  if x.isNaN f then nan f
  else if x.isInfinite f then x
  else
    let bound := 2 * f.scale + 2 * f.fractionBits + 8
    if 0 ≤ power then
      ⟨x.negative, f.nearest (f.units x.magnitude * 2 ^ min power.natAbs bound) 1⟩
    else ⟨x.negative, f.nearest (f.units x.magnitude) (2 ^ min power.natAbs bound)⟩

/-- The size of the first with the sign of the second. -/
def copySign (x y : Signed) : Signed := ⟨y.negative, x.magnitude⟩

/-- The same number in another format, rounded if it does not fit. A missing number keeps its sign
    and the leading part of its fraction and becomes quiet. -/
def convert (source target : Format) (x : Signed) : Signed :=
  if x.isNaN source then
    let fraction := x.magnitude - source.infinity
    let moved := fraction * 2 ^ target.fractionBits / 2 ^ source.fractionBits
    ⟨x.negative, target.infinity + (moved ||| 2 ^ (target.fractionBits - 1))⟩
  else if x.isInfinite source then ⟨x.negative, target.infinity⟩
  else ⟨x.negative, target.nearest (source.units x.magnitude * target.one) source.one⟩

/-- The nearest datum to a whole number. -/
def ofInt (n : Int) : Signed :=
  nearest f (n * f.one) 1 false

end Signed

namespace Binary64

/-- The sign and the magnitude. -/
def decode (x : Binary64) : Signed :=
  ⟨decide (Format.double.signWeight ≤ x.bits.toNat), x.bits.toNat % Format.double.signWeight⟩

/-- The word of a sign and a magnitude. -/
def encode (x : Signed) : Binary64 :=
  ⟨UInt64.ofNat ((if x.negative then Format.double.signWeight else 0) + x.magnitude)⟩

def isNaN (x : Binary64) : Bool := x.decode.isNaN .double

/-- Equality of numbers, by which a missing number differs from itself. -/
def numericallyEqual (x y : Binary64) : Bool := x.decode.numericallyEqual .double y.decode

def add (x y : Binary64) : Binary64 := encode (x.decode.add .double y.decode)

def mul (x y : Binary64) : Binary64 := encode (x.decode.mul .double y.decode)

/-- The number nearest to a whole number. -/
def ofInt (n : Int) : Binary64 := encode (Signed.ofInt .double n)

def zero : Binary64 := ⟨0⟩

end Binary64

namespace Binary32

/-- The sign and the magnitude. -/
def decode (x : Binary32) : Signed :=
  ⟨decide (Format.single.signWeight ≤ x.bits.toNat), x.bits.toNat % Format.single.signWeight⟩

/-- The word of a sign and a magnitude. -/
def encode (x : Signed) : Binary32 :=
  ⟨UInt32.ofNat ((if x.negative then Format.single.signWeight else 0) + x.magnitude)⟩

/-- The same number with 64 bits; no number is lost. -/
def widen (x : Binary32) : Binary64 := .encode (x.decode.convert .single .double)

end Binary32

/-- The number of 32 bits nearest to one of 64. -/
def Binary64.narrow (x : Binary64) : Binary32 := .encode (x.decode.convert .double .single)

end DualCall
