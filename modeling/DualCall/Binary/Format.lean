namespace DualCall

-- Powers are those of the core library, whatever other instances are in scope.
attribute [local instance (2000)] instPowNat

/-- A binary interchange format with a hidden leading bit. -/
structure Format where
  fractionBits : Nat
  exponentBits : Nat
deriving DecidableEq, Repr

namespace Format

/-- The format of 64 bits. -/
def double : Format := ⟨52, 11⟩

/-- The format of 32 bits. -/
def single : Format := ⟨23, 8⟩

/-- The weight of the sign bit. -/
def signWeight (f : Format) : Nat := 2 ^ (f.fractionBits + f.exponentBits)

/-- The magnitude of the infinities; larger magnitudes are no numbers. -/
def infinity (f : Format) : Nat := (2 ^ f.exponentBits - 1) * 2 ^ f.fractionBits

/-- The magnitude of the quiet non-number that operations give. -/
def quiet (f : Format) : Nat := f.infinity + 2 ^ (f.fractionBits - 1)

/-- The power of two that a unit divides one into. -/
def scale (f : Format) : Nat := 2 ^ (f.exponentBits - 1) - 2 + f.fractionBits

/-- The number one, in units. -/
def one (f : Format) : Nat := 2 ^ f.scale

/-- The significand of a finite magnitude: the fraction, with the hidden bit unless the number is
    subnormal. -/
def significand (f : Format) (magnitude : Nat) : Nat :=
  if magnitude < 2 ^ f.fractionBits then magnitude
  else 2 ^ f.fractionBits + magnitude % 2 ^ f.fractionBits

/-- The power of two, in units, that the significand of a finite magnitude counts. -/
def binade (f : Format) (magnitude : Nat) : Nat :=
  magnitude / 2 ^ f.fractionBits - 1

/-- The number of units that a finite magnitude stands for. A magnitude is the word of a number
    without its sign bit, and a unit is the least positive number of the format, so that arithmetic
    on magnitudes is arithmetic of natural numbers. -/
def units (f : Format) (magnitude : Nat) : Nat :=
  f.significand magnitude * 2 ^ f.binade magnitude

/-- A quotient rounded to the nearest whole number, a tie to the even one. -/
def roundQuotient (num den : Nat) : Nat :=
  let quotient := num / den
  let remainder := num % den
  if 2 * remainder < den then quotient
  else if den < 2 * remainder then quotient + 1
  else quotient + quotient % 2

/-- The magnitude nearest to a quotient of units, a tie to the even significand; a quotient that
    rounds past the largest finite number gives infinity. Rounding the significand up to the next
    power of two carries into the exponent by itself, because magnitudes are consecutive. -/
def nearest (f : Format) (num den : Nat) : Nat :=
  let binade := Nat.log2 (num / den) - f.fractionBits
  min (binade * 2 ^ f.fractionBits + roundQuotient num (den * 2 ^ binade)) f.infinity

end Format

end DualCall
