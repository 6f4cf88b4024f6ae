import DualCall.Binary.Number
import DualCall.NativeType

namespace DualCall

/-- What keeps the code behind a pointer alive. -/
inductive Owner where
  /-- The handle of the code that was generated at an address. -/
  | generated (address : UInt64)
  /-- Something else, which generated code does not depend on. -/
  | other
deriving DecidableEq, Repr

/-- The address of a native function, perhaps with an owner of the code there. -/
structure NativePointer where
  address : UInt64
  owner : Option Owner := none
deriving DecidableEq, Repr

/-- The numbers of arguments that are accepted: from `required` to `total`. -/
structure Arity where
  required : Nat
  total : Nat
deriving DecidableEq, Repr

/-- Which facet of a callable was given; the other one was made from it. -/
inductive Origin where
  | managed
  | native
deriving DecidableEq, Repr

mutual

/-- A value on the managed side of a call. -/
inductive Value where
  | null
  | bool (b : Bool)
  | int (n : Int64)
  | float (x : Binary64)
  /-- A bare address, which keeps nothing alive. -/
  | pointer (address : UInt64)
  | procedure (p : Procedure)
  | unified (c : Callable)

/-- Copies of a procedure share its identity, by which procedures are told apart. -/
structure Procedure where
  identity : Nat
  name : String
  body : Body

/-- What a procedure does when it is called. -/
inductive Body where
  /-- A routine of the managed program, found by the identity of the procedure. The values are
      those that the routine has captured and so keeps alive. -/
  | routine (captured : List Value)
  /-- A native call of a pointer with exactly the arguments of a signature. -/
  | invoker (ret : NativeType) (pointer : NativePointer) (types : List NativeType)
  /-- A procedure behind an arity check, with the defaults of its optional arguments. -/
  | adapter (raw : Procedure) (arity : Arity) (optional : List Value)

/-- One behavior with two facets: a procedure and a native pointer. -/
structure Callable where
  identity : Nat
  procedure : Procedure
  pointer : NativePointer
  /-- For each argument its default, if it has one. -/
  defaults : List (Option Value)
  ret : NativeType
  types : List NativeType
  arity : Arity
  origin : Origin

end

instance : Inhabited Value := ⟨.null⟩

namespace Arity

def accepts (arity : Arity) (count : Nat) : Bool :=
  arity.required ≤ count && count ≤ arity.total

/-- The bounds as a range, or the one number if they are equal. -/
def display (arity : Arity) : String :=
  if arity.required = arity.total then toString arity.total
  else toString arity.required ++ "..=" ++ toString arity.total

end Arity

/-- A bare pointer to an address other than zero. -/
def NativePointer.ofAddress? (address : UInt64) : Option NativePointer :=
  if address = 0 then none else some ⟨address, none⟩

namespace Value

/-- The integer that a value stands for; truth values count as one and zero. -/
def asInt? : Value → Option Int64
  | .int n => some n
  | .bool b => some (if b then 1 else 0)
  | _ => none

/-- The floating-point number that a value stands for; an integer is rounded to the nearest. -/
def asFloat? : Value → Option Binary64
  | .float x => some x
  | .int n => some (.ofInt n.toInt)
  | _ => none

/-- The address that a value stands for; the null value has address zero. -/
def asPointer? : Value → Option UInt64
  | .pointer address => some address
  | .null => some 0
  | _ => none

/-- Equality of values: numbers by value, callables and procedures by identity, and values of
    different kinds never. -/
def equal : Value → Value → Bool
  | .null, .null => true
  | .bool a, .bool b => a == b
  | .int a, .int b => a == b
  | .float a, .float b => a.numericallyEqual b
  | .pointer a, .pointer b => a == b
  | .procedure a, .procedure b => a.identity == b.identity
  | .unified a, .unified b => a.identity == b.identity
  | _, _ => false

/-- Values that can be written to a file: all but procedures and callables. -/
def isData : Value → Bool
  | .procedure _ => false
  | .unified _ => false
  | _ => true

end Value

end DualCall
