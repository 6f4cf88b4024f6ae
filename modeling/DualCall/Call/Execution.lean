import DualCall.Call.Machine

namespace DualCall

/-- The arguments of a call that was accepted, completed by the defaults of those left out. -/
def padArguments (arity : Arity) (optional args : List Value) : List Value :=
  args ++ optional.drop (args.length - arity.required)

/-- A return slot after the call of a procedure through native code. The slot is cleared first, so
    that a result that does not convert, a failure and a panic all leave zero. -/
def fillSlot (ret : NativeType) (outcome : Outcome) (slot : UInt64) : UInt64 :=
  let cleared := slot &&& 0
  match outcome with
  | .value v =>
    match Scalar.ofValue? ret v with
    | some scalar => scalar.store cleared
    | none => cleared
  | .failure _ => cleared
  | .panic => cleared

/-- Follow the run of a routine. -/
def followRoutine (call : Procedure → List Value → Effect Outcome) : RoutineRun → Effect Outcome
  | .finish outcome => pure outcome
  | .call p args resume => do
    match ← call p args with
    | .value v => followRoutine call (resume (.ok v))
    | .failure e => followRoutine call (resume (.error e))
    | .panic => pure .panic

/-- Follow the run of a native function. -/
def followNative (enter : UInt64 → List Scalar → Effect UInt64) :
    NativeRun UInt64 → Effect UInt64
  | .finish slot memory => do
    modify fun activity => { activity with memory := memory }
    pure slot
  | .call address args memory resume => do
    modify fun activity => { activity with memory := memory }
    let slot ← enter address args
    let activity ← get
    followNative enter (resume slot activity.memory)

/-- Enter the code that stands for a procedure, with the words of its arguments and the return
    slot of its caller. No failure of the procedure gets past this point. -/
def enterCode (call : Procedure → List Value → Effect Outcome) (code : Code)
    (words : List UInt64) (slot : UInt64) : Effect UInt64 := do
  let outcome ← call code.procedure (List.zipWith Value.ofWord code.types words)
  return fillSlot code.ret outcome slot

/-- Call a routine, and record the entry if it is traced. -/
def enterRoutine (call : Procedure → List Value → Effect Outcome) (name : String)
    (routine : Routine) (args : List Value) : Effect Outcome := do
  if routine.traced then
    modify fun activity => { activity with entered := activity.entered ++ [⟨name, args⟩] }
  let activity ← get
  followRoutine call (routine.run args activity.memory)

/-- Call the procedure that an address stands for in the in-memory backend. The registry is
    locked only while the procedure is looked up. -/
def invokeInMemory (s : Machine) (call : Procedure → List Value → Effect Outcome)
    (pointer : NativePointer) (types : List NativeType) (args : List Value) : Effect Outcome :=
  if args.length ≠ types.length then
    pure (.failure (.native "invoke" ("expected " ++ toString types.length ++ " arguments, got " ++
      toString args.length)))
  else if s.locked then throw .deadlock
  else
    match s.code? pointer.address with
    | some code => call code.procedure args
    | none => pure (.failure (.native "invoke" ("no function at " ++ pointer.display)))

/-- Call the machine code at an address with arguments of declared types, and read its result. -/
def invokeNative (enter : UInt64 → List Scalar → Effect UInt64) (ret : NativeType)
    (pointer : NativePointer) (types : List NativeType) (args : List Value) : Effect Outcome :=
  if args.length ≠ types.length then
    pure (.failure (.native "call" ("expected " ++ toString types.length ++ " arguments, got " ++
      toString args.length)))
  else
    match Scalar.marshalFrom 0 types args with
    | .error e => pure (.failure e)
    | .ok scalars => do
      let slot ← enter pointer.address scalars
      return .value (Value.ofSlot ret slot)

namespace Machine

/-- How deep calls may be nested. -/
def callDepth : Nat := 10000

mutual

/-- Call a procedure. The first number bounds the depth of nested calls. -/
def call (s : Machine) : Nat → Procedure → List Value → Effect Outcome
  | 0, _, _ => throw .exhausted
  | depth + 1, p, args =>
    match p.body with
    | .routine _ => enterRoutine (call s depth) p.name (s.routines p.identity) args
    | .adapter raw arity optional =>
      if arity.accepts args.length then call s depth raw (padArguments arity optional args)
      else pure (.failure (.arity arity.required arity.total args.length args))
    | .invoker ret pointer types =>
      match s.backend with
      | .inMemory => invokeInMemory s (call s depth) pointer types args
      | .native => invokeNative (enter s depth) ret pointer types args

/-- Enter the machine code at an address and yield the content of the return slot. -/
def enter (s : Machine) : Nat → UInt64 → List Scalar → Effect UInt64
  | 0, _, _ => throw .exhausted
  | depth + 1, address, args =>
    match s.code? address with
    | some code => enterCode (call s depth) code (args.map Scalar.word) 0
    | none =>
      match s.functions address with
      | some function => do
        let activity ← get
        followNative (enter s depth) (function args activity.memory)
      | none => throw (.wildJump address)

end

end Machine

end DualCall
