import DualCall.Specification

namespace DualCall

inductive CallError where
  /-- A bare specification follows a paired one. -/
  | malformedSpecification (position : Nat) (specs : List ArgSpec)
  | arity (required total actual : Nat) (args : List Value)
  /-- A value that is neither a procedure nor an address cannot be unified. -/
  | invalidBehavior (found : String)
  | notUnified (found : String)
  | typeMismatch (position : Nat) (expected : NativeType) (found : String)
  | unsupportedType (context : String) (type : NativeType)
  /-- The native side reports a failure. -/
  | native (context : String) (detail : String)
  /-- A routine of the managed program reports a failure. -/
  | routine (message : String)

namespace CallError

def message : CallError → String
  | .malformedSpecification position specs =>
    "malformed argument specification: required argument at position " ++ toString position ++
      " follows an optional one in " ++ bracketed (specs.map ArgSpec.display)
  | .arity required total actual args =>
    let bounds :=
      if required = total then toString required
      else toString required ++ " to " ++ toString total
    "wrong number of arguments: expected " ++ bounds ++ ", got " ++ toString actual ++
      " (" ++ bracketed (args.map Value.display) ++ ")"
  | .invalidBehavior found =>
    "cannot unify " ++ found ++ ": expected a procedure or a native pointer"
  | .notUnified found => found ++ " is not a unified callable"
  | .typeMismatch position expected found =>
    "argument " ++ toString position ++ ": cannot convert " ++ found ++ " to " ++ expected.display
  | .unsupportedType context type => context ++ ": unsupported type " ++ type.display
  | .native context detail => context ++ ": " ++ detail
  | .routine text => text

end CallError

end DualCall
