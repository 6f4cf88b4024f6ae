import DualCall.Session.Basic

namespace DualCall

/-- A step. The register that `into` names gets the result. -/
inductive Step where
  | procedure (into name : String) (routine : RoutineTerm)
  | value (into : String) (value : Term)
  /-- A function of the in-memory backend that stays for ever. -/
  | register (into name : String) (routine : RoutineTerm)
  /-- A sample of native code. -/
  | sample (into name : String)
  | symbol (into name : String) (library : Option String)
  | pointer (into : String) (address : UInt64)
  /-- A copy of a pointer with an owner in place of its former one. -/
  | own (into pointer : String)
  | memory (into : String) (words : List UInt64)
  | peek (memory : String)
  | unify (into : String) (ret : NativeType) (behavior : String) (specs : List SpecTerm)
  | unifyValue (into : String) (ret : NativeType) (value : Term) (specs : List SpecTerm)
  | invoker (into : String) (ret : NativeType) (pointer : String) (types : List NativeType)
  | derive (into : String) (ret : NativeType) (procedure : String) (types : List NativeType)
  | takeProcedure (into : String) (source : String)
  | takePointer (into : String) (source : String)
  | call (target : String) (args : List Term)
  | introspect (value : Term)
  | facets (callable : String)
  | inspect (value : Term)
  | equal (left right : Term)
  | samePointer (left right : String)
  | serializable (value : Term)
  | stats
  | drop (register : String)

/-- What a step answers. -/
inductive Reply where
  /-- A handle that was put into a register. -/
  | stored (handle : Handle)
  /-- The address zero, which makes no pointer. -/
  | absent
  | value (v : Value)
  | panicked
  | words (words : List UInt64)
  | introspection (unified : Bool) (pointer : Except CallError NativePointer)
      (defaults : Except CallError (List (Option Value)))
  | facets (c : Callable)
  | inspected (v : Value)
  | flag (b : Bool)
  /-- Two pointers compared: they agree in everything when their addresses do. -/
  | samePointer (b : Bool)
  | stats (live requests : Nat)

/-- The callable that a value is. -/
def Value.callable (v : Value) : Except CallError Callable :=
  match v with
  | .unified c => .ok c
  | _ => .error (.notUnified v.describe)

/-- A step's answer or failure, and the entries into traced routines that happened during it. -/
structure StepResult where
  answer : Except CallError Reply
  entered : List Entry := []

namespace Session

/-- Store the result of a step that may fail. -/
def storeResult {α : Type} (into : String) (handle : α → Handle) (result : Except CallError α) :
    SessionM StepResult := do
  match result with
  | .error e => return { answer := .error e }
  | .ok a =>
    store into (handle a)
    return { answer := .ok (.stored (handle a)) }

/-- Store the result of a step that cannot fail. -/
def storeHandle (into : String) (handle : Handle) : SessionM StepResult :=
  storeResult into id (.ok handle)

def answer (reply : Reply) : SessionM StepResult :=
  return { answer := .ok reply }

/-- Call a procedure of the session. -/
def callProcedure (p : Procedure) (args : List Value) : SessionM StepResult := do
  let session ← get
  match (session.machine.call Machine.callDepth p args).run { memory := session.memory } with
  | .error cause => throw (.abort cause)
  | .ok (outcome, activity) =>
    set { session with memory := activity.memory }
    return {
      entered := activity.entered
      answer := match outcome with
        | .value v => .ok (.value v)
        | .failure e => .error e
        | .panic => .ok .panicked }

def unifiedHandle (c : Callable) : Handle := .value (.unified c)

/-- Perform a step. One that fails stores nothing. -/
def perform : Step → SessionM StepResult
  | .procedure into name routine => do
    let (captured, routine) ← routine.build
    let p ← onMachine (Machine.newRoutine name captured routine)
    storeHandle into (.value (.procedure p))
  | .value into value => do
    storeHandle into (.value (← eval value))
  | .register into name routine => do
    let (captured, routine) ← routine.build
    let p ← onMachine (Machine.newRoutine name captured routine)
    storeHandle into (.pointer (← onMachine (Machine.register p)))
  | .sample into name => do
    match Samples.lookup? name with
    | some p => storeHandle into (.pointer p)
    | none => throw (.badRegister name)
  | .symbol into name library => storeResult into .pointer (Library.lookup name library)
  | .pointer into address =>
    match NativePointer.ofAddress? address with
    | some p => storeHandle into (.pointer p)
    | none => answer .absent
  | .own into pointer => do
    let p ← readAs Handle.pointer? pointer
    storeHandle into (.pointer ⟨p.address, some .other⟩)
  | .memory into words => do
    storeHandle into (.memory (← allocate words))
  | .peek memory => do
    match ← read memory with
    | .memory start => answer (.words ((← get).memory.words start))
    | _ => throw (.badRegister memory)
  | .unify into ret behavior specs => do
    let specs ← specs.mapM evalSpec
    let behavior ← readAs Handle.behavior? behavior
    -- What is handed over is a copy, for the register keeps the behavior.
    let outside := (← get).held
    storeResult into unifiedHandle (← onMachine (Machine.unifyTaken outside ret behavior specs))
  | .unifyValue into ret value specs => do
    let specs ← specs.mapM evalSpec
    let value ← eval value
    storeResult into unifiedHandle (← onMachine (Machine.unifyValue ret value specs))
  | .invoker into ret pointer types => do
    let p ← readAs Handle.pointer? pointer
    storeResult into (.value ∘ .procedure) (← onMachine (Machine.invoker ret p types))
  | .derive into ret procedure types => do
    let p ← readAs Handle.procedure? procedure
    storeResult into .pointer (← onMachine (Machine.derive ret p types))
  | .takeProcedure into source => do
    storeHandle into (.value (.procedure (← readAs Handle.procedure? source)))
  | .takePointer into source => do
    let v := (← read source).toValue
    storeResult into .pointer (v.callable.map Callable.pointer)
  | .call target args => do
    let p ← readAs Handle.procedure? target
    callProcedure p (← args.mapM eval)
  | .introspect value => do
    let v ← eval value
    answer (.introspection v.callable.toBool (v.callable.map Callable.pointer)
      (v.callable.map Callable.defaults))
  | .facets callable => do
    match (← read callable).toValue with
    | .unified c => answer (.facets c)
    | _ => throw (.badRegister callable)
  | .inspect value => do
    answer (.inspected (← eval value))
  | .equal left right => do
    let l ← eval left
    let r ← eval right
    answer (.flag (l.equal r))
  | .samePointer left right => do
    let l ← readAs Handle.pointer? left
    let r ← readAs Handle.pointer? right
    answer (.samePointer (l.address == r.address))
  | .serializable value => do
    answer (.flag (← eval value).isData)
  | .stats => do
    let machine := (← get).machine
    answer (.stats machine.codes.length machine.requests)
  | .drop register => do
    answer (.flag (← erase register))

end Session

end DualCall
