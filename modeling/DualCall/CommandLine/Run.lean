import DualCall.Call.Execution
import DualCall.Call.Unification
import DualCall.CommandLine.Grammar
import DualCall.CommandLine.Report
import DualCall.Native.Library

namespace DualCall.CommandLine

/-- Why a command fails. -/
inductive CommandError where
  | signature (e : SignatureError)
  /-- A text is no literal. -/
  | invalidValue (text : String)
  | call (e : CallError)
  /-- A routine of the managed program panics. -/
  | panic
  /-- The call does not come back. -/
  | abort (cause : Abort)

def CommandError.message : CommandError → String
  | .signature e => e.message
  | .invalidValue text => "invalid value '" ++ text ++ "'"
  | .call e => e.message
  | .panic => "a routine panicked"
  | .abort .exhausted => "the calls are nested too deep"
  | .abort .deadlock => "the registry is locked"
  | .abort (.wildJump address) => "no code at " ++ displayAddress address

/-- The values of literals; the first text that is none is reported. -/
def readValues : List String → Except CommandError (List Value)
  | [] => .ok []
  | text :: rest =>
    match Value.read? text with
    | none => .error (.invalidValue text)
    | some v => (readValues rest).map (v :: ·)

/-- Call a callable in a memory without blocks. -/
def callWith (s : Machine) (c : Callable) (args : List Value) : Except CommandError Value :=
  match (s.call Machine.callDepth c.procedure args).run {} with
  | .error cause => .error (.abort cause)
  | .ok (.value v, _) => .ok v
  | .ok (.failure e, _) => .error (.call e)
  | .ok (.panic, _) => .error .panic

/-- What commands find around them. -/
structure Environment where
  /-- The contents of files; a hyphen stands for the standard input. -/
  source : Source
  /-- The pointer to a symbol of the process, or of a library by its path. -/
  lookup : String → Option String → Except CallError NativePointer
  /-- The native functions, by address. -/
  functions : UInt64 → Option NativeFunction

namespace Environment

/-- The libraries that can be loaded, beside the files of a source. -/
def standard (source : Source) : Environment where
  source := source
  lookup := Library.lookup
  functions := Library.function?

def find (env : Environment) (signature : Signature) : Except CommandError NativePointer :=
  (env.lookup signature.symbol signature.library).mapError .call

/-- Unify the function of a signature. -/
def unify (env : Environment) (signature : Signature) (pointer : NativePointer) :
    Except CommandError (Callable × Machine) :=
  match (Machine.unify signature.returns (.native pointer) signature.args).run
    (.native env.functions) with
  | .error cause => .error (.abort cause)
  | .ok (.error e, _) => .error (.call e)
  | .ok (.ok c, s) => .ok (c, s)

/-- Call the function that flags describe. The values are read before the function is looked for. -/
def evaluate (env : Environment) (flags : SignatureFlags) (texts : List String) :
    Except CommandError Value := do
  let signature ← (flags.resolve env.source).mapError .signature
  let args ← readValues texts
  let pointer ← env.find signature
  let (c, s) ← env.unify signature pointer
  callWith s c args

/-- Report on the function that flags describe, without calling it. -/
def report (env : Environment) (flags : SignatureFlags) : Except CommandError Report := do
  let signature ← (flags.resolve env.source).mapError .signature
  let pointer ← env.find signature
  let (c, _) ← env.unify signature pointer
  return .ofCallable signature c

end Environment

def evaluate (source : Source) : SignatureFlags → List String → Except CommandError Value :=
  (Environment.standard source).evaluate

def report (source : Source) : SignatureFlags → Except CommandError Report :=
  (Environment.standard source).report

/-- What is printed for the result of a call; the null value is not shown. -/
def resultLines : Value → List String
  | .null => []
  | v => [v.display]

/-- Run a command and yield the lines that it prints. -/
def Command.run (source : Source) : Command → Except CommandError (List String)
  | .call flags texts => (evaluate source flags texts).map resultLines
  | .inspect flags json =>
    (report source flags).map fun r => [if json then r.toJson else r.render]

/-- The file that a command reads. -/
def Command.file? : Command → Option String
  | .call flags _ => flags.file
  | .inspect flags _ => flags.file

end DualCall.CommandLine
