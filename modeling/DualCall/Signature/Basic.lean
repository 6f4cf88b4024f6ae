import DualCall.Specification

namespace DualCall

structure Signature where
  symbol : String
  /-- The library to load; the process itself is searched when there is none. -/
  library : Option String
  returns : NativeType
  args : List ArgSpec

/-- A field of a written signature. -/
inductive SignatureField where
  | symbol (name : String)
  | library (path : Option String)
  | returns (type : NativeType)
  | args (specs : List ArgSpec)
  /-- A field of another name, whose value does not count. -/
  | unknown

namespace SignatureField

def symbol? : SignatureField → Option String
  | .symbol name => some name
  | _ => none

def library? : SignatureField → Option (Option String)
  | .library path => some path
  | _ => none

def returns? : SignatureField → Option NativeType
  | .returns type => some type
  | _ => none

def args? : SignatureField → Option (List ArgSpec)
  | .args specs => some specs
  | _ => none

end SignatureField

/-- The signature with given fields in any order. No field may occur twice; the library and the
    arguments may be left out. -/
def Signature.ofFields? (fields : List SignatureField) : Option Signature :=
  match fields.filterMap SignatureField.symbol?, fields.filterMap SignatureField.library?,
    fields.filterMap SignatureField.returns?, fields.filterMap SignatureField.args? with
  | [symbol], libraries, [returns], args =>
    if libraries.length ≤ 1 ∧ args.length ≤ 1 then
      some ⟨symbol, libraries.head?.getD none, returns, args.head?.getD []⟩
    else none
  | _, _, _, _ => none

end DualCall
