import DualCall.Signature.Flags

namespace DualCall.CommandLine

/-- The options that take a value. -/
inductive ValueOption where
  | file
  | symbol
  | library
  | returns
  | arg
deriving DecidableEq, Repr

/-- The options that take none. -/
inductive Flag where
  | verbose
  | json
  | help
deriving DecidableEq, Repr

inductive Subcommand where
  | call
  | inspect
deriving DecidableEq, Repr

/-- Why a line is no command line. -/
inductive UsageError where
  | emptyLine
  | missingSubcommand
  | unknownSubcommand (token : String)
  | unknownArgument (token : String)
  /-- An option has no value, or one that it does not take. -/
  | invalidValue (option : ValueOption)
  /-- A flag has a value. -/
  | unexpectedValue (token : String)
  /-- An option that may be given once is given again. -/
  | repeated (name : String)
  | helpRequested
  | versionRequested
deriving DecidableEq, Repr

/-- An option by either kind. -/
inductive Switch where
  | value (option : ValueOption)
  | flag (flag : Flag)
deriving DecidableEq, Repr

/-- The name of an option, which follows two hyphens. -/
def ValueOption.name : ValueOption → String
  | .file => "sig"
  | .symbol => "symbol"
  | .library => "lib"
  | .returns => "returns"
  | .arg => "arg"

def Flag.name : Flag → String
  | .verbose => "verbose"
  | .json => "json"
  | .help => "help"

def UsageError.message : UsageError → String
  | .emptyLine | .missingSubcommand => "a subcommand is required: call or inspect"
  | .unknownSubcommand token => "unrecognized subcommand '" ++ token ++ "'"
  | .unknownArgument token => "unexpected argument '" ++ token ++ "'"
  | .invalidValue option => "a value is required for '--" ++ option.name ++ "'"
  | .unexpectedValue token => "unexpected value in '" ++ token ++ "'"
  | .repeated name => "the argument '--" ++ name ++ "' cannot be used multiple times"
  | .helpRequested => "usage: [--verbose] (call | inspect) [options] [values]"
  | .versionRequested => "0.1.0"

/-- Whether a text is printed because it was asked for. -/
def UsageError.isRequested : UsageError → Bool
  | .helpRequested | .versionRequested => true
  | _ => false

namespace Subcommand

def name : Subcommand → String
  | .call => "call"
  | .inspect => "inspect"

def ofName? (name : String) : Option Subcommand :=
  [call, inspect].find? (·.name = name)

def flags : Subcommand → List Flag
  | .call => [.verbose, .help]
  | .inspect => [.verbose, .json, .help]

def valueOptions : List ValueOption :=
  [.file, .symbol, .library, .returns, .arg]

/-- The option of a subcommand with a long name. -/
def long? (s : Subcommand) (name : String) : Option Switch :=
  match valueOptions.find? (·.name = name) with
  | some option => some (.value option)
  | none => (s.flags.find? (·.name = name)).map .flag

end Subcommand

/-- The option with a short name, which is the same for all subcommands. -/
def short? : Char → Option Switch
  | 's' => some (.value .symbol)
  | 'l' => some (.value .library)
  | 'r' => some (.value .returns)
  | 'a' => some (.value .arg)
  | 'v' => some (.flag .verbose)
  | 'h' => some (.flag .help)
  | _ => none

/-- What kind of token a text is by its hyphens. -/
inductive Shape where
  /-- Two hyphens alone end the options. -/
  | separator
  /-- A long name, and the text after an equals sign. -/
  | long (name : String) (value : Option String)
  /-- A row of short names. -/
  | cluster (letters : List Char)
  | plain
deriving DecidableEq, Repr

def Shape.ofToken (token : String) : Shape :=
  match token.toList with
  | ['-', '-'] => .separator
  | '-' :: '-' :: rest =>
    let (name, value) := ArgSpec.cut rest
    .long (String.ofList name) (value.map String.ofList)
  | '-' :: c :: rest => .cluster (c :: rest)
  | _ => .plain

/-- What a token is for a subcommand. -/
inductive Token where
  | separator
  | flag (flag : Flag) (value : Option String)
  | option (option : ValueOption) (value : Option String)
  | cluster (letters : List Char)
  /-- Not an option. -/
  | text
  /-- An option that the subcommand does not have. -/
  | unknown
deriving DecidableEq, Repr

/-- A call takes what is no option of its own for a value; otherwise that is an error. -/
def Subcommand.token (s : Subcommand) (token : String) : Token :=
  match Shape.ofToken token with
  | .plain => .text
  | .separator => .separator
  | .long name value =>
    match s.long? name, s with
    | some (.value option), _ => .option option value
    | some (.flag flag), _ => .flag flag value
    | none, .call => .text
    | none, .inspect => .unknown
  | .cluster letters =>
    match s with
    | .call => if letters.all fun c => (short? c).isSome then .cluster letters else .text
    | .inspect => .cluster letters

/-- The options that were read. The last option is kept apart until the next one is complete, since
    its value may be still to come. -/
structure Options where
  signature : SignatureFlags := {}
  verbose : Bool := false
  json : Bool := false
  pending : Option (ValueOption × Option String) := none
deriving DecidableEq, Repr

namespace Options

/-- A value for an option that may be given once. -/
def once (option : ValueOption) (former : Option String) (value : String) :
    Except UsageError (Option String) :=
  if former.isSome then .error (.repeated option.name) else .ok (some value)

/-- Give an option its value. The library has a path, which is not empty. -/
def assign (o : Options) (option : ValueOption) (value : String) : Except UsageError Options := do
  let s := o.signature
  match option with
  | .file => return { o with signature := { s with file := ← once option s.file value } }
  | .symbol => return { o with signature := { s with symbol := ← once option s.symbol value } }
  | .library =>
    let library ← once option s.library value
    if value = "" then throw (.invalidValue option)
    return { o with signature := { s with library := library } }
  | .returns => return { o with signature := { s with returns := ← once option s.returns value } }
  | .arg => return { o with signature := { s with args := s.args ++ [value] } }

/-- Complete the last option, which must have its value now. -/
def settle (o : Options) : Except UsageError Options :=
  match o.pending with
  | none => .ok o
  | some (option, none) => .error (.invalidValue option)
  | some (option, some value) => { o with pending := none }.assign option value

/-- Set a flag. -/
def raise (o : Options) (flag : Flag) : Except UsageError Options := do
  let o ← o.settle
  match flag with
  | .verbose => if o.verbose then throw (.repeated flag.name) else return { o with verbose := true }
  | .json => if o.json then throw (.repeated flag.name) else return { o with json := true }
  | .help => throw .helpRequested

/-- Begin an option; a value that is joined to it completes it. -/
def start (o : Options) (option : ValueOption) (value : Option String) :
    Except UsageError Options := do
  let o ← o.settle
  match value with
  | some value => o.assign option value
  | none => return { o with pending := some (option, none) }

/-- Read a row of short names. Behind an option with a value the rest of the row is the value, with
    or without an equals sign in front. -/
def readCluster (token : String) (o : Options) : List Char → Except UsageError Options
  | [] => .ok o
  | c :: rest =>
    match short? c with
    | none => .error (.unknownArgument token)
    | some (.flag flag) => do readCluster token (← o.raise flag) rest
    | some (.value option) =>
      match rest with
      | [] => o.start option none
      | '=' :: value => o.start option (some (String.ofList value))
      | value => o.start option (some (String.ofList value))

/-- The option that waits for its value. -/
def awaiting? (o : Options) : Option ValueOption :=
  match o.pending with
  | some (option, none) => some option
  | _ => none

/-- Read the tokens behind a subcommand, up to the values of a call, which are yielded as they
    are. -/
def read (s : Subcommand) (o : Options) : List String → Except UsageError (Options × List String)
  | [] => do return (← o.settle, [])
  | token :: rest =>
    match s.token token with
    | .separator =>
      match s, rest with
      | .inspect, extra :: _ => .error (.unknownArgument extra)
      | _, _ => do return (← o.settle, rest)
    | .unknown => .error (.unknownArgument token)
    | .flag _ (some _) => .error (.unexpectedValue token)
    | .flag flag none => do read s (← o.raise flag) rest
    | .option option value => do read s (← o.start option value) rest
    | .cluster letters => do read s (← o.readCluster token letters) rest
    | .text =>
      match o.awaiting?, s with
      | some option, _ => read s { o with pending := some (option, some token) } rest
      | none, .call => do return (← o.settle, token :: rest)
      | none, .inspect => .error (.unknownArgument token)

end Options

/-- What is to be done. -/
inductive Command where
  | call (signature : SignatureFlags) (values : List String)
  | inspect (signature : SignatureFlags) (json : Bool)
deriving DecidableEq, Repr

/-- A command line. -/
structure Invocation where
  /-- Whether a log is asked for. -/
  verbose : Bool
  command : Command
deriving DecidableEq, Repr

namespace Invocation

/-- Read the tokens behind the name of a subcommand. -/
def ofSubcommand (s : Subcommand) (verbose : Bool) (tokens : List String) :
    Except UsageError Invocation := do
  let (o, values) ← Options.read s {} tokens
  return {
    verbose := verbose || o.verbose
    command := match s with
      | .call => .call o.signature values
      | .inspect => .inspect o.signature o.json }

/-- The end of a line that names no subcommand. -/
def atEnd (verbose : Bool) : UsageError :=
  if verbose then .missingSubcommand else .emptyLine

/-- Read a row of short names in front of the subcommand. Yields whether a log is asked for. -/
def readCluster (token : String) (verbose : Bool) : List Char → Except UsageError Bool
  | [] => .ok verbose
  | 'v' :: rest =>
    if verbose then .error (.repeated Flag.verbose.name) else readCluster token true rest
  | 'h' :: _ => .error .helpRequested
  | 'V' :: _ => .error .versionRequested
  | _ :: _ => .error (.unknownArgument token)

/-- Read a line of which only flags were read so far. -/
def readFrom (verbose : Bool) : List String → Except UsageError Invocation
  | [] => .error (atEnd verbose)
  | token :: rest =>
    match Shape.ofToken token with
    | .plain =>
      match Subcommand.ofName? token with
      | some s => ofSubcommand s verbose rest
      | none => .error (.unknownSubcommand token)
    | .separator =>
      match rest with
      | [] => .error (atEnd verbose)
      | next :: _ =>
        if (Subcommand.ofName? next).isSome then .error (.unknownArgument next)
        else .error (.unknownSubcommand next)
    | .long name value =>
      if name = "verbose" ∨ name = "help" ∨ name = "version" then
        if value.isSome then .error (.unexpectedValue token)
        else if name = "help" then .error .helpRequested
        else if name = "version" then .error .versionRequested
        else if verbose then .error (.repeated name)
        else readFrom true rest
      else .error (.unknownArgument token)
    | .cluster letters => do readFrom (← readCluster token verbose letters) rest

/-- Read a command line. -/
def ofTokens (tokens : List String) : Except UsageError Invocation :=
  readFrom false tokens

end Invocation

end DualCall.CommandLine
