import DualCall.Native.Memory
import DualCall.Native.Scalar

namespace DualCall

/-- How the call of a procedure ends. -/
inductive Outcome where
  | value (v : Value)
  | failure (e : CallError)
  | panic

/-- What a routine does with its arguments: it ends, or calls a procedure and goes on with what
    the result leads to. A call that panics ends the run in a panic. -/
inductive RoutineRun where
  | finish (outcome : Outcome)
  | call (p : Procedure) (args : List Value) (resume : Except CallError Value → RoutineRun)

/-- A procedure of the managed program. -/
structure Routine where
  /-- Whether entries into the routine are recorded. -/
  traced : Bool := true
  run : List Value → Memory → RoutineRun

/-- The routine that returns the null value. -/
def Routine.null : Routine where
  run _ _ := .finish (.value .null)

/-- What native code does: it yields a result and a memory, or first calls the code at an address.
    A call yields the content of the return slot. -/
inductive NativeRun (α : Type) where
  | finish (result : α) (memory : Memory)
  | call (address : UInt64) (args : List Scalar) (memory : Memory)
      (resume : UInt64 → Memory → NativeRun α)

/-- A native function: from its arguments and the memory to the content of its return slot. -/
abbrev NativeFunction := List Scalar → Memory → NativeRun UInt64

/-- Continue a run with what its result leads to. -/
def NativeRun.andThen {α β : Type} (run : NativeRun α) (next : α → Memory → NativeRun β) :
    NativeRun β :=
  match run with
  | .finish result memory => next result memory
  | .call address args memory resume =>
    .call address args memory fun slot memory => andThen (resume slot memory) next

/-- Why a run of the whole program cannot go on. -/
inductive Abort where
  /-- The depth of nested calls is used up. -/
  | exhausted
  /-- The registry is locked by the operation that waits for it. -/
  | deadlock
  /-- Nothing that can be executed is at an address that is entered. -/
  | wildJump (address : UInt64)
deriving DecidableEq, Repr

/-- An entry into a traced routine. -/
structure Entry where
  name : String
  args : List Value

/-- What calls change: the memory, and the record of the routines that were entered. -/
structure Activity where
  memory : Memory := {}
  entered : List Entry := []

/-- A computation of calls. -/
abbrev Effect := StateT Activity (Except Abort)

end DualCall
