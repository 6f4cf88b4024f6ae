import DualCall.Binary.Decimal

namespace DualCall.Format

-- Powers are those of the core library, whatever other instances are in scope.
attribute [local instance (2000)] instPowNat

/-- The exponent of the least power of ten above a finite magnitude that is not zero. -/
def decimalOrder (f : Format) (magnitude : Nat) : Int :=
  let units := f.units magnitude
  if f.one ≤ units then (Text.decimal (units / f.one)).length
  else
    let length := (Text.decimal (f.one / units)).length
    if f.one ≤ units * 10 ^ (length - 1) then 2 - (length : Int) else 1 - (length : Int)

/-- A magnitude as a quotient of natural numbers, counted in a power of ten. -/
def inPowers (f : Format) (magnitude : Nat) (exponent : Int) : Nat × Nat :=
  if 0 ≤ exponent then (f.units magnitude, f.one * 10 ^ exponent.natAbs)
  else (f.units magnitude * 10 ^ exponent.natAbs, f.one)

/-- Of the two neighbours of a magnitude among the multiples of a power of ten, the one that reads
    back as it, and the nearer one if both do. `halfUp` tells of two at the same distance whether
    the upper one is taken; otherwise the even one is. -/
def readsBack? (f : Format) (halfUp : Bool) (magnitude : Nat) (exponent : Int) : Option Decimal :=
  let (num, den) := f.inPowers magnitude exponent
  let below : Decimal := ⟨num / den, exponent⟩
  let above : Decimal := ⟨num / den + 1, exponent⟩
  let belowReads := below.nearest f = magnitude
  let aboveReads := above.nearest f = magnitude
  let twice := 2 * (num % den)
  let preferAbove :=
    if twice = den then halfUp || num / den % 2 == 1 else decide (den < twice)
  if belowReads ∧ aboveReads then some (if preferAbove then above else below)
  else if belowReads then some below
  else if aboveReads then some above
  else none

/-- The decimal that is equal to a finite magnitude. -/
def exactDecimal (f : Format) (magnitude : Nat) : Decimal :=
  ⟨f.units magnitude * 5 ^ f.scale, -(f.scale : Int)⟩

/-- The decimal of fewest digits that reads back as a finite magnitude. Seventeen digits are
    enough for the wider format; the equal decimal stands for the case that they were not. -/
def shortest (f : Format) (halfUp : Bool) (magnitude : Nat) : Decimal :=
  let order := f.decimalOrder magnitude
  ((List.range 17).findSome? fun (n : Nat) => f.readsBack? halfUp magnitude (order - (n + 1))).getD
    (f.exactDecimal magnitude)

end DualCall.Format
