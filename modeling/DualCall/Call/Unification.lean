import DualCall.Call.Ownership

namespace DualCall

/-- What a callable is made from. -/
inductive Behavior where
  | procedure (p : Procedure)
  | native (pointer : NativePointer)

/-- The addresses of generated code that a behavior holds an owner of. -/
def Behavior.owned : Behavior → List UInt64
  | .procedure p => p.owned
  | .native pointer => pointer.owned

/-- The behavior that a value stands for: a procedure, the procedure facet of a callable, or the
    code at an address other than zero. -/
def Value.behavior? : Value → Option Behavior
  | .procedure p => some (.procedure p)
  | .unified c => some (.procedure c.procedure)
  | .pointer address => (NativePointer.ofAddress? address).map .native
  | _ => none

namespace Machine

/-- A procedure that checks the number of its arguments and fills in defaults, in front of one that
    takes all of them. -/
def adapt (raw : Procedure) (split : SplitSpec) : Act Procedure :=
  newProcedure raw.name (.adapter raw split.arity split.optional)

/-- The two facets of a behavior under a signature. -/
def facets (ret : NativeType) (behavior : Behavior) (split : SplitSpec) :
    Act (Except CallError (Procedure × NativePointer × Origin)) := do
  match behavior with
  | .procedure p =>
    match ← derive ret p split.types with
    | .error e => return .error e
    | .ok pointer => return .ok (p, pointer, .managed)
  | .native pointer =>
    match ← invoker ret pointer split.types with
    | .error e => return .error e
    | .ok raw => return .ok (← adapt raw split, pointer, .native)

/-- Make a callable with both facets of a behavior under a signature. Only a behavior given by a
    pointer gets an arity check; a procedure takes its arguments as they are. Nothing is made when
    this fails. The callable has a copy of the behavior, and whoever asks keeps another one. -/
def unify (ret : NativeType) (behavior : Behavior) (specs : List ArgSpec) :
    Act (Except CallError Callable) := do
  match splitSpecs specs with
  | .error e => return .error e
  | .ok split =>
    match ← facets ret behavior split with
    | .error e => return .error e
    | .ok (procedure, pointer, origin) =>
      let s ← get
      set { s with nextIdentity := s.nextIdentity + 1 }
      return .ok ⟨s.nextIdentity, procedure, pointer, split.defaults, ret, split.types,
        split.arity, origin⟩

/-- Unify a behavior that is handed over, while other owners are held outside. The callable keeps
    the behavior; a request that fails gives it up. -/
def unifyTaken (outside : List UInt64) (ret : NativeType) (behavior : Behavior)
    (specs : List ArgSpec) : Act (Except CallError Callable) := do
  match ← unify ret behavior specs with
  | .ok c => return .ok c
  | .error e =>
    release outside behavior.owned
    return .error e

/-- Unify what a value stands for, while the value keeps it. A value without behavior is reported
    before anything else. -/
def unifyValue (ret : NativeType) (value : Value) (specs : List ArgSpec) :
    Act (Except CallError Callable) :=
  match value.behavior? with
  | some behavior => unify ret behavior specs
  | none => return .error (.invalidBehavior value.describe)

end Machine

end DualCall
