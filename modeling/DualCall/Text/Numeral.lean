namespace DualCall.Text

/-- The digit with a value below sixteen, in lower case. -/
def digitChar (value : Nat) : Char :=
  if value < 10 then Char.ofNat (48 + value) else Char.ofNat (87 + value)

/-- The value of an ASCII digit of a base up to thirty-six; letters of both cases count from ten. -/
def digitValue? (base : Nat) (c : Char) : Option Nat :=
  let value :=
    if '0' ≤ c ∧ c ≤ '9' then c.toNat - 48
    else if 'a' ≤ c ∧ c ≤ 'z' then c.toNat - 87
    else if 'A' ≤ c ∧ c ≤ 'Z' then c.toNat - 55
    else base
  if value < base then some value else none

/-- An ASCII decimal digit. -/
def isDigit (c : Char) : Bool :=
  (digitValue? 10 c).isSome

/-- The number read from digits of a base, after those that gave `seed`. Characters that are no
    digits count as zeros. -/
def natOfDigitsFrom (base seed : Nat) (cs : List Char) : Nat :=
  cs.foldl (fun total c => total * base + (digitValue? base c).getD 0) seed

/-- The number that a run of digits stands for. -/
def natOfDigits (base : Nat) (cs : List Char) : Nat :=
  natOfDigitsFrom base 0 cs

/-- A number from a text of one or more digits of a base and nothing else. -/
def readNat? (base : Nat) (cs : List Char) : Option Nat :=
  if cs ≠ [] ∧ cs.all (fun c => (digitValue? base c).isSome) then some (natOfDigits base cs)
  else none

/-- The digits of a number, most significant first; zero has one digit. -/
def digits (base n : Nat) : List Char :=
  if h : n < base ∨ base < 2 then [digitChar n]
  else
    have : n / base < n := Nat.div_lt_self (by omega) (by omega)
    digits base (n / base) ++ [digitChar (n % base)]
termination_by n

/-- The decimal numeral of a natural number. -/
def decimal (n : Nat) : List Char :=
  digits 10 n

/-- The decimal numeral of an integer, with a sign only when it is negative. -/
def signedDecimal (n : Int) : List Char :=
  if n < 0 then '-' :: decimal n.natAbs else decimal n.natAbs

/-- The lower-case hexadecimal numeral of a natural number behind the mark of its base. -/
def hexadecimal (n : Nat) : List Char :=
  '0' :: 'x' :: digits 16 n

/-- A hexadecimal numeral of at least `width` digits, filled with zeros and without a mark. -/
def paddedHex (width n : Nat) : List Char :=
  let written := digits 16 n
  List.replicate (width - written.length) '0' ++ written

/-- An optional sign, `-` for true, and what follows it. -/
def takeSign : List Char → Bool × List Char
  | '-' :: rest => (true, rest)
  | '+' :: rest => (false, rest)
  | cs => (false, cs)

/-- An integer from an optional sign and one or more decimal digits. -/
def readInt? (cs : List Char) : Option Int :=
  let (negative, unsigned) := takeSign cs
  (readNat? 10 unsigned).map fun n => if negative then -(n : Int) else (n : Int)

end DualCall.Text
