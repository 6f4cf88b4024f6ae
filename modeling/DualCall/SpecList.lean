import DualCall.CallError

namespace DualCall

/-- A well-formed list of specifications, in which the bare ones come first, taken apart. -/
structure SplitSpec where
  types : List NativeType
  defaults : List (Option Value)
  arity : Arity

/-- The defaults of the arguments that may be omitted, in order. -/
def SplitSpec.optional (split : SplitSpec) : List Value :=
  (split.defaults.drop split.arity.required).filterMap id

/-- The position of the first bare specification that follows a paired one, counted from
    `position`; `seenPaired` tells whether one came before. -/
def firstMisplaced (seenPaired : Bool) (position : Nat) : List ArgSpec → Option Nat
  | [] => none
  | .bare _ :: rest =>
    if seenPaired then some position else firstMisplaced false (position + 1) rest
  | .paired _ _ :: rest => firstMisplaced true (position + 1) rest

/-- Take a list of specifications apart, or tell where it is not well formed. -/
def splitSpecs (specs : List ArgSpec) : Except CallError SplitSpec :=
  match firstMisplaced false 0 specs with
  | some position => .error (.malformedSpecification position specs)
  | none => .ok {
      types := specs.map ArgSpec.type
      defaults := specs.map ArgSpec.default?
      arity := ⟨specs.countP (fun spec => !spec.isPaired), specs.length⟩ }

end DualCall
