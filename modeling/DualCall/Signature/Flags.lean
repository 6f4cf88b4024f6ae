import DualCall.Ron.Reader

namespace DualCall

/-- What flags say about a signature, in the words of the user. -/
structure SignatureFlags where
  /-- The file with the signature that the other flags change. -/
  file : Option String := none
  symbol : Option String := none
  library : Option String := none
  returns : Option String := none
  args : List String := []
deriving DecidableEq, Repr

/-- Why flags describe no signature. -/
inductive SignatureError where
  | missingSymbol
  | unreadable (path reason : String)
  | invalidFile
  | returns (e : UnknownType)
  /-- The text of an argument is no specification. -/
  | arg (text : String) (e : ArgSpec.ReadError)
deriving DecidableEq, Repr

def SignatureError.message : SignatureError → String
  | .missingSymbol => "a symbol is required: pass --symbol or --sig"
  | .unreadable path reason => "Error reading file '" ++ path ++ "': " ++ reason
  | .invalidFile => "invalid signature"
  | .returns e => "--returns: " ++ e.message
  | .arg text e => "--arg " ++ text ++ ": " ++ e.message

/-- The content of a file by its path, or why it cannot be read. -/
abbrev Source := String → Except String String

/-- The signature that a file holds. -/
def Signature.load (source : Source) (path : String) : Except SignatureError Signature :=
  match source path with
  | .error reason => .error (.unreadable path reason)
  | .ok text =>
    match Signature.ofRon? text with
    | some signature => .ok signature
    | none => .error .invalidFile

namespace SignatureFlags

/-- The signature that the other flags change: the content of the file or, without one, a function
    of no arguments that returns a number of 32 bits. -/
def initial (flags : SignatureFlags) (source : Source) : Except SignatureError Signature :=
  match flags.file, flags.symbol with
  | some path, _ => Signature.load source path
  | none, some symbol => .ok ⟨symbol, none, .i32, []⟩
  | none, none => .error .missingSymbol

/-- The specifications of arguments; the first text that is none is reported. -/
def readArgs : List String → Except SignatureError (List ArgSpec)
  | [] => .ok []
  | text :: rest =>
    match ArgSpec.read text with
    | .error e => .error (.arg text e)
    | .ok spec => (readArgs rest).map (spec :: ·)

/-- The return type: what a flag says, or else a given one. -/
def readReturns (given : NativeType) : Option String → Except SignatureError NativeType
  | none => .ok given
  | some text => (NativeType.read text).mapError .returns

/-- The signature that flags describe. -/
def resolve (flags : SignatureFlags) (source : Source) : Except SignatureError Signature := do
  let start ← flags.initial source
  let returns ← readReturns start.returns flags.returns
  let args ← if flags.args = [] then pure start.args else readArgs flags.args
  return {
    symbol := flags.symbol.getD start.symbol
    library := flags.library.or start.library
    returns := returns
    args := args }

end SignatureFlags

end DualCall
