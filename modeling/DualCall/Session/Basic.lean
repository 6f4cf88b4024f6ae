import DualCall.Call.Execution
import DualCall.Call.Ownership
import DualCall.Call.Unification
import DualCall.Native.Samples
import DualCall.Session.Term

namespace DualCall

/-- What a register can hold. -/
inductive Handle where
  | value (v : Value)
  | pointer (p : NativePointer)
  /-- Memory, by its start. -/
  | memory (start : UInt64)

structure Session where
  machine : Machine
  memory : Memory
  /-- Where the next memory starts. -/
  nextMemory : UInt64
  registers : List (String × Handle)

/-- Why a session cannot go on. -/
inductive Stop where
  /-- A step uses a register that is empty or holds something of another kind. -/
  | badRegister (name : String)
  | abort (cause : Abort)
deriving DecidableEq, Repr

/-- A computation on a session. -/
abbrev SessionM := StateT Session (Except Stop)

namespace Handle

/-- The value that a handle stands for; pointers and memory give their address. -/
def toValue : Handle → Value
  | .value v => v
  | .pointer p => .pointer p.address
  | .memory start => .pointer start

/-- The native pointer that a handle holds itself or as a facet. -/
def pointer? : Handle → Option NativePointer
  | .pointer p => some p
  | .value (.unified c) => some c.pointer
  | _ => none

/-- The procedure that a handle holds itself or as a facet. -/
def procedure? : Handle → Option Procedure
  | .value (.procedure p) => some p
  | .value (.unified c) => some c.procedure
  | _ => none

/-- What a handle can be unified as. -/
def behavior? : Handle → Option Behavior
  | .pointer p => some (.native p)
  | handle => handle.procedure?.map .procedure

def owned : Handle → List UInt64
  | .value v => v.owned
  | .pointer p => p.owned
  | .memory _ => []

end Handle

namespace Session

def ofMachine (machine : Machine) : Session where
  machine := machine
  memory := {}
  nextMemory := 0x570000000000
  registers := []

/-- A session with the in-memory backend. -/
def inMemory : Session := ofMachine .inMemory

/-- The native functions of a session: the libraries and the samples. -/
def functions (address : UInt64) : Option NativeFunction :=
  match Library.function? address with
  | some function => some function
  | none => Library.functionIn? Samples.start Samples.all address

/-- A session with native code. -/
def native : Session := ofMachine (.native functions)

def register? (session : Session) (name : String) : Option Handle :=
  (session.registers.find? fun entry => entry.1 = name).map (·.2)

/-- The owners that the registers hold. -/
def held (session : Session) : List UInt64 :=
  session.registers.flatMap fun entry => entry.2.owned

/-- Do something on the machine of the session. -/
def onMachine {α : Type} (act : Act α) : SessionM α := do
  let session ← get
  match act.run session.machine with
  | .error cause => throw (.abort cause)
  | .ok (result, machine) =>
    set { session with machine := machine }
    return result

/-- The content of a register. -/
def read (name : String) : SessionM Handle := do
  match (← get).register? name with
  | some handle => return handle
  | none => throw (.badRegister name)

/-- What a register holds, seen in a certain way. -/
def readAs {α : Type} (view : Handle → Option α) (name : String) : SessionM α := do
  match view (← read name) with
  | some result => return result
  | none => throw (.badRegister name)

/-- Give up owners that the session held until now. -/
def release (owners : List UInt64) : SessionM Unit := do
  let session ← get
  onMachine (Machine.release session.held owners)

/-- Empty a register, and tell whether it held something. -/
def erase (name : String) : SessionM Bool := do
  let session ← get
  match session.register? name with
  | none => return false
  | some handle =>
    set { session with registers := session.registers.filter fun entry => entry.1 ≠ name }
    release handle.owned
    return true

/-- Put a handle into a register in place of what it held. -/
def store (name : String) (handle : Handle) : SessionM Unit := do
  let session ← get
  let former := session.register? name
  let others := session.registers.filter fun entry => entry.1 ≠ name
  set { session with registers := (name, handle) :: others }
  match former with
  | some old => release old.owned
  | none => return

/-- The value that a term gives. -/
def eval : Term → SessionM Value
  | .value v => return v
  | .newProcedure name => do
    let routine := { Routine.null with traced := false }
    return .procedure (← onMachine (Machine.newRoutine name [] routine))
  | .register name => return (← read name).toValue
  | .address name => return .pointer (← readAs Handle.pointer? name).address
  | .memory name offset => do
    match ← read name with
    | .memory start => return .pointer (start + UInt64.ofNat offset)
    | _ => throw (.badRegister name)

def evalSpec : SpecTerm → SessionM ArgSpec
  | .bare type => return .bare type
  | .paired type default => return .paired type (← eval default)

def evalError : ErrorTerm → SessionM CallError
  | .malformedSpecification position specs =>
    return .malformedSpecification position (← specs.mapM evalSpec)
  | .arity required total actual args => return .arity required total actual (← args.mapM eval)
  | .invalidBehavior found => return .invalidBehavior found
  | .notUnified found => return .notUnified found
  | .typeMismatch position expected found =>
    return .typeMismatch position expected (← eval found).describe
  | .unsupportedType context type => return .unsupportedType context type
  | .native context detail => return .native context detail
  | .routine message => return .routine message

/-- Allocate memory for words. -/
def allocate (words : List UInt64) : SessionM UInt64 := do
  let session ← get
  let start := session.nextMemory
  set { session with
    memory := ⟨⟨start, Block.bytesOfWords words⟩ :: session.memory.blocks⟩
    nextMemory := start + UInt64.ofNat (8 * words.length + 64) }
  return start

end Session

namespace CallError

/-- The values that an error carries. -/
def values : CallError → List Value
  | .malformedSpecification _ specs => specs.filterMap ArgSpec.default?
  | .arity _ _ _ args => args
  | _ => []

end CallError

namespace RoutineTerm

/-- Add up the integers among values; the sum wraps around. -/
def sumOf (args : List Value) : Int64 :=
  (args.filterMap Value.asInt?).foldl (· + ·) 0

/-- The integers among values read as decimal digits; the number wraps around. -/
def digitsOf (args : List Value) : Int64 :=
  (args.filterMap Value.asInt?).foldl (fun total digit => total * 10 + digit) 0

/-- Add up the floating-point numbers among values from the left. -/
def floatSumOf (args : List Value) : Binary64 :=
  (args.filterMap Value.asFloat?).foldl Binary64.add .zero

/-- The sign of the order of the integers of 32 bits at two addresses. -/
def compareAt (descending : Bool) (memory : Memory) (args : List Value) : Int64 :=
  let at32 (i : Nat) : Int32 := memory.int32 ((args[i]?.bind Value.asPointer?).getD 0)
  let order : Int64 := if at32 0 < at32 1 then -1 else if at32 1 < at32 0 then 1 else 0
  if descending then -order else order

/-- A routine that always ends with a value. -/
def returning (f : List Value → Value) : Routine where
  run args _ := .finish (.value (f args))

/-- The values that a routine captures, and the routine. -/
def build : RoutineTerm → SessionM (List Value × Routine)
  | .argument index => return ([], {
      run := fun args _ => .finish (match args[index]? with
        | some v => .value v
        | none => .failure (.routine ("no argument " ++ toString index))) })
  | .count => return ([], returning fun args => .int (Int64.ofNat args.length))
  | .constant value => do
    let v ← Session.eval value
    return ([v], returning fun _ => v)
  | .sum => return ([], returning fun args => .int (sumOf args))
  | .digits => return ([], returning fun args => .int (digitsOf args))
  | .floatSum => return ([], returning fun args => .float (floatSumOf args))
  | .raise error => do
    let e ← Session.evalError error
    return (e.values, { run := fun _ _ => .finish (.failure e) })
  | .panic => return ([], { run := fun _ _ => .finish .panic })
  | .forward register => do
    let p ← Session.readAs Handle.procedure? register
    return ([.procedure p], { run := fun args _ => .call p args fun
      | .ok v => .finish (.value v)
      | .error e => .finish (.failure e) })
  | .compare descending => return ([], {
      traced := false
      run := fun args memory => .finish (.value (.int (compareAt descending memory args))) })

end RoutineTerm

end DualCall
