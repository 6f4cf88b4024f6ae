import DualCall.Binary.Layout
import DualCall.Value.Basic

namespace DualCall

/-- An address in hexadecimal. -/
def displayAddress (address : UInt64) : String :=
  String.ofList (Text.hexadecimal address.toNat)

def NativePointer.display (p : NativePointer) : String :=
  displayAddress p.address

def NativePointer.debug (p : NativePointer) : String :=
  "NativePointer(" ++ p.display ++ ")"

def Procedure.debug (p : Procedure) : String :=
  "Procedure(" ++ p.name ++ ")"

/-- A bracketed list with commas between its items. -/
def bracketed (items : List String) : String :=
  "[" ++ ", ".intercalate items ++ "]"

namespace Value

def displayBool (b : Bool) : String :=
  if b then "true" else "false"

def displayInt (n : Int64) : String :=
  String.ofList (Text.signedDecimal n.toInt)

def displayFloat (x : Binary64) : String :=
  String.ofList (Layout.display.write x)

/-- The text of a value. The text of data is a literal that reads back as the value. -/
def display : Value → String
  | .null => "null"
  | .bool b => displayBool b
  | .int n => displayInt n
  | .float x => displayFloat x
  | .pointer address => displayAddress address
  | .procedure p => "<procedure " ++ p.name ++ ">"
  | .unified c => "<unified " ++ c.procedure.name ++ " @ " ++ c.pointer.display ++ ">"

/-- A value together with the name of its kind. -/
def describe : Value → String
  | .null => "null"
  | .bool b => "boolean " ++ displayBool b
  | .int n => "integer " ++ displayInt n
  | .float x => "float " ++ displayFloat x
  | .pointer address => "pointer " ++ displayAddress address
  | .procedure p => "procedure " ++ p.name
  | .unified c => "unified callable " ++ c.procedure.name

end Value

def Origin.debug : Origin → String
  | .managed => "Managed"
  | .native => "Native"

mutual

/-- The constructor and the contents of a value. -/
def Value.debug : Value → String
  | .null => "Null"
  | .bool b => "Bool(" ++ Value.displayBool b ++ ")"
  | .int n => "Int(" ++ Value.displayInt n ++ ")"
  | .float x => "Float(" ++ Value.displayFloat x ++ ")"
  | .pointer address => "Pointer(" ++ toString address.toNat ++ ")"
  | .procedure p => "Procedure(" ++ p.debug ++ ")"
  | .unified c => "Unified(" ++ Callable.debug c ++ ")"

/-- The fields of a callable. -/
def Callable.debug : Callable → String
  | ⟨_, procedure, pointer, defaults, ret, types, _, origin⟩ =>
    "UnifiedCallable \x7b procedure: " ++ procedure.debug ++ ", pointer: " ++ pointer.debug ++
      ", defaults: " ++ bracketed (debugDefaults defaults) ++ ", ret: " ++ ret.tag ++
      ", types: " ++ bracketed (types.map NativeType.tag) ++ ", origin: " ++ origin.debug ++ " \x7d"

def debugDefaults : List (Option Value) → List String
  | [] => []
  | none :: rest => "None" :: debugDefaults rest
  | some value :: rest => ("Some(" ++ Value.debug value ++ ")") :: debugDefaults rest

end

end DualCall
