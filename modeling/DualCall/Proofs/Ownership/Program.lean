import DualCall.Proofs.Ownership.Parts

namespace DualCall

/-- A program that works on a machine, one operation after the other, in any order. All that its
    handles are made of is within its reach; so is what live code is made of, since a call can
    return it. -/
structure Program where
  machine : Machine
  /-- The handles that the program holds, each as often as it holds a copy of it. -/
  handles : List Handle
  /-- Every code that was ever put at an address, the newest first. -/
  issued : List (UInt64 × Code)

/-- What a program does. An operation that a routine performs in the course of a call is an
    operation of the program of its own, and so is the copy that is made of what a call returns. -/
inductive Operation where
  | routine (name : String) (captured : List Value) (body : Routine)
  | register (p : Procedure)
  | derive (ret : NativeType) (p : Procedure) (types : List NativeType)
  | invoker (ret : NativeType) (pointer : NativePointer) (types : List NativeType)
  /-- Hand over a copy of a behavior. -/
  | unify (ret : NativeType) (behavior : Behavior) (specs : List ArgSpec)
  /-- Hand over the behavior at a place among the handles itself. -/
  | unifyTaken (ret : NativeType) (place : Nat) (specs : List ArgSpec)
  | unifyValue (ret : NativeType) (value : Value) (specs : List ArgSpec)
  | call (depth : Nat) (p : Procedure) (args : List Value) (before : Activity)
  | copy (handle : Handle)
  /-- Give up the copy at a place among the handles. -/
  | drop (place : Nat)

def Behavior.handle : Behavior → Handle
  | .procedure p => .value (.procedure p)
  | .native pointer => .pointer pointer

/-- The behavior that a handle is, which it is handed over as. -/
def Handle.asBehavior? : Handle → Option Behavior
  | .value (.procedure p) => some (.procedure p)
  | .pointer q => some (.native q)
  | _ => none

theorem Behavior.asBehavior?_handle (behavior : Behavior) :
    behavior.handle.asBehavior? = some behavior := by
  cases behavior <;> rfl

theorem Handle.eq_of_asBehavior? {h : Handle} {behavior : Behavior}
    (hbehavior : h.asBehavior? = some behavior) : h = behavior.handle := by
  cases h with
  | pointer =>
    cases hbehavior
    rfl
  | memory => cases hbehavior
  | value v =>
    cases v with
    | procedure =>
      cases hbehavior
      rfl
    | null | bool | int | float | pointer | unified => cases hbehavior

theorem Behavior.owned_handle (behavior : Behavior) : behavior.handle.owned = behavior.owned := by
  cases behavior <;> rfl

namespace Operation

/-- The handles that an operation is given, apart from the one that it takes. -/
def inputs : Operation → List Handle
  | .routine _ captured _ => captured.map .value
  | .register p => [.value (.procedure p)]
  | .derive _ p _ => [.value (.procedure p)]
  | .invoker _ pointer _ => [.pointer pointer]
  | .unify _ behavior specs => behavior.handle :: (specs.filterMap ArgSpec.default?).map .value
  | .unifyTaken _ _ specs => (specs.filterMap ArgSpec.default?).map .value
  | .unifyValue _ value specs => .value value :: (specs.filterMap ArgSpec.default?).map .value
  | .call _ p args _ => .value (.procedure p) :: args.map .value
  | .copy handle => [handle]
  | .drop _ => []

/-- The place of the handle that an operation takes from the program. -/
def place? : Operation → Option Nat
  | .unifyTaken _ place _ => some place
  | .drop place => some place
  | _ => none

/-- The handles that are held after something that may fail was made. -/
def receive {α : Type} (handle : α → Handle) (handles : List Handle) :
    Except CallError α → List Handle
  | .ok a => handle a :: handles
  | .error _ => handles

/-- Perform an operation while handles are held, and yield those that are held then. -/
def act (handles : List Handle) : Operation → Act (List Handle)
  | .routine name captured body => do
    return .value (.procedure (← Machine.newRoutine name captured body)) :: handles
  | .register p => do
    return .pointer (← Machine.register p) :: handles
  | .derive ret p types => do
    return receive .pointer handles (← Machine.derive ret p types)
  | .invoker ret pointer types => do
    return receive (.value ∘ .procedure) handles (← Machine.invoker ret pointer types)
  | .unify ret behavior specs => do
    return receive (.value ∘ .unified) handles (← Machine.unify ret behavior specs)
  | .unifyTaken ret place specs => do
    match handles[place]?.bind Handle.asBehavior? with
    | none => return handles
    | some behavior =>
      let others := handles.eraseIdx place
      let result ← Machine.unifyTaken (heldBy others) ret behavior specs
      return receive (.value ∘ .unified) others result
  | .unifyValue ret value specs => do
    return receive (.value ∘ .unified) handles (← Machine.unifyValue ret value specs)
  | .call depth p args before => do
    match ((← get).call depth p args).run before with
    | .ok _ => return handles
    | .error cause => throw cause
  | .copy handle => return handle :: handles
  | .drop place => do
    match handles[place]? with
    | none => return handles
    | some handle =>
      Machine.release (heldBy (handles.eraseIdx place)) handle.owned
      return handles.eraseIdx place

def isRegister : Operation → Bool
  | .register _ => true
  | _ => false

end Operation

namespace Program

/-- The code that was last put at an address. -/
def issued? (p : Program) (address : UInt64) : Option Code :=
  (p.issued.find? fun entry => entry.1 == address).map (·.2)

def start (machine : Machine) : Program where
  machine := machine
  handles := []
  issued := []

/-- What can be reached from the handles of a program, from registered code, and from generated code
    through its owner. -/
inductive Reaches (p : Program) : Handle → Prop where
  | held {h : Handle} (hheld : h ∈ p.handles) : Reaches p h
  | registered {address : UInt64} {code : Code} (hcode : p.machine.code? address = some code)
    (hregistered : code.registered = true) : Reaches p (.value (.procedure code.procedure))
  | part {h h' : Handle} (hreach : Reaches p h) (hpart : h.Part h') : Reaches p h'
  | generated {pointer : NativePointer} {address : UInt64} {code : Code}
    (hreach : Reaches p (.pointer pointer)) (howner : pointer.owner = some (.generated address))
    (hcode : p.machine.code? address = some code) : Reaches p (.value (.procedure code.procedure))

/-- Some copy of the owner of the code at an address can be reached. -/
def ReachesOwner (p : Program) (address : UInt64) : Prop :=
  ∃ pointer, p.Reaches (.pointer pointer) ∧ pointer.owner = some (.generated address)

/-- What a program can give to an operation: what it reaches, and what owns no code. -/
inductive Available (p : Program) : Handle → Prop where
  | reached {h : Handle} (hreach : p.Reaches h) : Available p h
  | data {v : Value} (hdata : v.isData = true) : Available p (.value v)
  | bare (address : UInt64) : Available p (.pointer ⟨address, none⟩)
  | foreign (address : UInt64) : Available p (.pointer ⟨address, some .other⟩)
  | memory (start : UInt64) : Available p (.memory start)

/-- A program without one of its handles, while no code has gone yet. -/
def without (p : Program) (place : Nat) : Program :=
  { p with handles := p.handles.eraseIdx place }

/-- What a program still holds while it performs an operation. -/
def keeping (p : Program) (op : Operation) : Program :=
  match op.place? with
  | some place => p.without place
  | none => p

/-- Perform an operation. A call leaves the codes as they are. Code that is new on the machine is
    noted as issued. -/
def perform (p : Program) (op : Operation) : Except Abort Program := do
  let (handles, machine) ← (op.act p.handles).run p.machine
  let new := machine.codes.take (machine.codes.length - p.machine.codes.length)
  return ⟨machine, handles, new ++ p.issued⟩

/-- Where new code can be put: in memory at the address that comes next, on native code wherever no
    code is at the time. -/
def Places (p : Program) (address : UInt64) : Prop :=
  match p.machine.backend with
  | .inMemory => address = p.machine.nextAddress
  | .native => address ∉ p.machine.codes.map Prod.fst

/-- The program before new code is put at an address. -/
def placing (p : Program) (address : UInt64) : Program :=
  { p with machine := { p.machine with nextAddress := address } }

/-- An operation that is given what is available leads from one program to another. -/
structure Step (p : Program) (op : Operation) (p' : Program) : Prop where
  inputs : ∀ h ∈ op.inputs, (p.keeping op).Available h
  performed : ∃ address, p.Places address ∧ (p.placing address).perform op = .ok p'

/-- The programs to which operations lead. -/
inductive Run (start : Program) : List Operation → Program → Prop where
  | refl : Run start [] start
  | step {ops : List Operation} {op : Operation} {p p' : Program} (hrun : Run start ops p)
    (hstep : p.Step op p') : Run start (ops ++ [op]) p'

end Program

end DualCall
