import DualCall.Call.Machine

namespace DualCall

/-- A value as a step writes it. -/
inductive Term where
  | value (v : Value)
  /-- A new procedure that returns the null value. -/
  | newProcedure (name : String)
  /-- The content of a register; a pointer gives its address. -/
  | register (name : String)
  /-- The address of the pointer in a register, or of the pointer facet of a callable there. -/
  | address (register : String)
  /-- The address of a byte of the memory in a register. -/
  | memory (register : String) (offset : Nat)

inductive SpecTerm where
  | bare (type : NativeType)
  | paired (type : NativeType) (default : Term)

/-- An error that a routine raises, or that is only shown. -/
inductive ErrorTerm where
  | malformedSpecification (position : Nat) (specs : List SpecTerm)
  | arity (required total actual : Nat) (args : List Term)
  | invalidBehavior (found : String)
  | notUnified (found : String)
  | typeMismatch (position : Nat) (expected : NativeType) (found : Term)
  | unsupportedType (context : String) (type : NativeType)
  | native (context detail : String)
  | routine (message : String)

/-- What a routine does. -/
inductive RoutineTerm where
  /-- Return the argument at an index. -/
  | argument (index : Nat)
  /-- Return the number of arguments. -/
  | count
  | constant (value : Term)
  /-- Add up the arguments that stand for integers. -/
  | sum
  /-- Read the arguments that stand for integers as the digits of one. -/
  | digits
  /-- Add up the arguments that stand for floating-point numbers. -/
  | floatSum
  | raise (error : ErrorTerm)
  | panic
  /-- Pass the arguments on to the procedure in a register. -/
  | forward (register : String)
  /-- Compare the integers of 32 bits at two addresses. -/
  | compare (descending : Bool)

end DualCall
