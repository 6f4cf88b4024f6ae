import DualCall.Call.Machine

namespace DualCall

/-- The addresses of generated code that an owner keeps alive. -/
def Owner.owned : Owner → List UInt64
  | .generated address => [address]
  | .other => []

def NativePointer.owned (p : NativePointer) : List UInt64 :=
  match p.owner with
  | some owner => owner.owned
  | none => []

mutual

/-- The addresses of generated code that a value holds an owner of, in the order in which its parts
    are given up. -/
def Value.owned : Value → List UInt64
  | .procedure p => Procedure.owned p
  | .unified c => Callable.owned c
  | .null | .bool _ | .int _ | .float _ | .pointer _ => []

def Procedure.owned : Procedure → List UInt64
  | ⟨_, _, body⟩ => Body.owned body

def Body.owned : Body → List UInt64
  | .routine captured => ownedByAll captured
  | .invoker _ pointer _ => pointer.owned
  | .adapter raw _ optional => Procedure.owned raw ++ ownedByAll optional

def Callable.owned : Callable → List UInt64
  | ⟨_, procedure, pointer, defaults, _, _, _, _⟩ =>
    Procedure.owned procedure ++ pointer.owned ++ ownedByDefaults defaults

def ownedByAll : List Value → List UInt64
  | [] => []
  | v :: rest => Value.owned v ++ ownedByAll rest

def ownedByDefaults : List (Option Value) → List UInt64
  | [] => []
  | none :: rest => ownedByDefaults rest
  | some v :: rest => Value.owned v ++ ownedByDefaults rest

end

namespace Machine

/-- Whether the procedure of some code holds an owner of the code at an address. -/
def holds (s : Machine) (address : UInt64) : Bool :=
  s.codes.any fun entry => entry.2.procedure.owned.contains address

/-- Take away the code at an address. -/
def remove (address : UInt64) : Act Unit :=
  modify fun s => { s with codes := s.codes.filter fun entry => entry.1 != address }

/-- Give up owners one after the other. `outside` are the owners that are held elsewhere, apart from
    the procedures of code. The code of an owner that is held nowhere any more is removed, and its
    procedure is given up by `nested` before the registry is unlocked. -/
def releaseEach (nested : List UInt64 → List UInt64 → Act Unit) (outside : List UInt64) :
    List UInt64 → Act Unit
  | [] => return
  | address :: rest => do
    let s ← get
    if !(outside.contains address || rest.contains address || s.holds address) then
      match s.code? address with
      | none => pure ()
      | some code =>
        guarded do
          remove address
          nested (outside ++ rest) code.procedure.owned
    releaseEach nested outside rest

/-- Give up owners while at most `depth` codes are left that can be removed. -/
def releaseUpTo : Nat → List UInt64 → List UInt64 → Act Unit
  | 0, _, _ => return
  | depth + 1, outside, owners => releaseEach (releaseUpTo depth) outside owners

/-- Give up owners, while others are held outside. -/
def release (outside owners : List UInt64) : Act Unit := do
  releaseUpTo (← get).codes.length outside owners

end Machine

end DualCall
