import DualCall.Value.Display
import DualCall.Value.Literal

namespace DualCall

inductive ArgSpec where
  | bare (type : NativeType)
  | paired (type : NativeType) (default : Value)

namespace ArgSpec

def type : ArgSpec → NativeType
  | .bare type => type
  | .paired type _ => type

def default? : ArgSpec → Option Value
  | .bare _ => none
  | .paired _ default => some default

def isPaired (spec : ArgSpec) : Bool :=
  spec.default?.isSome

/-- The name of the type, and the default after an equals sign. -/
def display : ArgSpec → String
  | .bare type => type.display
  | .paired type default => type.display ++ "=" ++ default.display

/-- Why a text is no argument specification. -/
inductive ReadError where
  | unknownType (e : UnknownType)
  /-- The text after the first equals sign, without blanks at its ends, is no literal. -/
  | invalidDefault (text : String)
deriving DecidableEq, Repr

def ReadError.message : ReadError → String
  | .unknownType e => e.message
  | .invalidDefault text => "invalid default value '" ++ text ++ "'"

/-- The text before the first equals sign and the text after it, if there is one. -/
def cut : List Char → List Char × Option (List Char)
  | [] => ([], none)
  | c :: rest =>
    if c = '=' then ([], some rest)
    else
      let (left, right) := cut rest
      (c :: left, right)

/-- A specification from its text. An unknown type is reported before an invalid default. -/
def read (text : String) : Except ReadError ArgSpec :=
  match cut text.toList with
  | (left, none) =>
    match NativeType.read (String.ofList left) with
    | .ok type => .ok (.bare type)
    | .error e => .error (.unknownType e)
  | (left, some right) =>
    match NativeType.read (String.ofList left) with
    | .error e => .error (.unknownType e)
    | .ok type =>
      match Value.readTrimmed? (Text.trim right) with
      | some default => .ok (.paired type default)
      | none => .error (.invalidDefault (String.ofList (Text.trim right)))

end ArgSpec

end DualCall
