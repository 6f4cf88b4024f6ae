import DualCall.Call.Run

namespace DualCall

/-- How native pointers are realised. -/
inductive Backend where
  /-- Addresses are keys of a registry of procedures, and a call looks its address up. -/
  | inMemory
  /-- Addresses are those of machine code, and a call enters it. -/
  | native
deriving DecidableEq, Repr

/-- Code at an address that stands for a procedure. -/
structure Code where
  procedure : Procedure
  ret : NativeType
  types : List NativeType
  /-- Registered code stays for ever; generated code goes with the last copy of its owner. -/
  registered : Bool

structure Machine where
  backend : Backend
  /-- The code that stands for procedures, by address, the newest first. -/
  codes : List (UInt64 × Code)
  /-- The address that the next code gets. -/
  nextAddress : UInt64
  /-- How often the in-memory backend was asked for an invoker. -/
  requests : Nat
  /-- Whether the registry of the in-memory backend is locked. -/
  locked : Bool
  /-- The identity that the next procedure or callable gets. -/
  nextIdentity : Nat
  /-- The routines of the managed program, by the identity of their procedure. -/
  routines : Nat → Routine
  /-- The native functions, by address. -/
  functions : UInt64 → Option NativeFunction

namespace Machine

/-- The code that stands for a procedure at an address. -/
def code? (s : Machine) (address : UInt64) : Option Code :=
  (s.codes.find? fun entry => entry.1 == address).map (·.2)

/-- The distance of the addresses of two codes that follow each other. -/
def addressStep : UInt64 := 0x10

/-- An in-memory backend without any function. -/
def inMemory : Machine where
  backend := .inMemory
  codes := []
  nextAddress := 0x1000
  requests := 0
  locked := false
  nextIdentity := 0
  routines _ := .null
  functions _ := none

/-- A native backend with given functions. -/
def native (functions : UInt64 → Option NativeFunction) : Machine where
  backend := .native
  codes := []
  nextAddress := 0x580000000000
  requests := 0
  locked := false
  nextIdentity := 0
  routines _ := .null
  functions := functions

end Machine

/-- A computation on the machine. -/
abbrev Act := StateT Machine (Except Abort)

namespace Machine

/-- Do something with the registry locked. Whoever holds the lock waits for ever to get it again;
    the native backend has no lock. -/
def guarded {α : Type} (action : Act α) : Act α := do
  let s ← get
  match s.backend with
  | .native => action
  | .inMemory =>
    if s.locked then throw .deadlock
    set { s with locked := true }
    let result ← action
    modify fun s => { s with locked := false }
    return result

/-- Put code at the next address. -/
def insert (code : Code) : Act UInt64 := do
  let address := (← get).nextAddress
  modify fun s => { s with nextAddress := address + addressStep }
  guarded (modify fun s => { s with codes := (address, code) :: s.codes })
  return address

/-- A new procedure. -/
def newProcedure (name : String) (body : Body) : Act Procedure := do
  let s ← get
  set { s with nextIdentity := s.nextIdentity + 1 }
  return ⟨s.nextIdentity, name, body⟩

/-- A new procedure of the managed program, with the values that its routine has captured. -/
def newRoutine (name : String) (captured : List Value) (routine : Routine) : Act Procedure := do
  let p ← newProcedure name (.routine captured)
  modify fun s =>
    { s with routines := fun identity =>
        if identity = p.identity then routine else s.routines identity }
  return p

/-- A function of the in-memory backend that stays for ever. -/
def register (p : Procedure) : Act NativePointer := do
  return ⟨← insert ⟨p, .void, [], true⟩, none⟩

/-- A procedure that calls a native pointer with exactly the arguments of a signature. -/
def invoker (ret : NativeType) (pointer : NativePointer) (types : List NativeType) :
    Act (Except CallError Procedure) := do
  let name := "native@" ++ pointer.display
  match (← get).backend with
  | .inMemory =>
    modify fun s => { s with requests := s.requests + 1 }
    let known ← guarded (return ((← get).code? pointer.address).isSome)
    if known then return .ok (← newProcedure name (.invoker ret pointer types))
    else return .error (.native "invoke" ("no function at " ++ pointer.display))
  | .native =>
    match checkArgTypes "invoke" types with
    | .error e => return .error e
    | .ok () => return .ok (← newProcedure name (.invoker ret pointer types))

/-- A native pointer to new code that stands for a procedure; the pointer owns the code. -/
def derive (ret : NativeType) (p : Procedure) (types : List NativeType) :
    Act (Except CallError NativePointer) := do
  let check : Except CallError Unit :=
    match (← get).backend with
    | .inMemory => .ok ()
    | .native => checkArgTypes "derive" types
  match check with
  | .error e => return .error e
  | .ok () =>
    let address ← insert ⟨p, ret, types, false⟩
    return .ok ⟨address, some (.generated address)⟩

end Machine

end DualCall
