import DualCall.CommandLine.Run

namespace DualCall.CommandLine

/-- Read a file, or the standard input for a hyphen. -/
def readSource (path : String) : IO (Except String String) := do
  try
    if path = "-" then return .ok (← (← IO.getStdin).readToEnd)
    else
      match String.fromUTF8? (← IO.FS.readBinFile path) with
      | some text => return .ok text
      | none => return .error "stream did not contain valid UTF-8"
  catch e =>
    match e with
    | .noFileOrDirectory .. => return .error FileError.missing.message
    | .inappropriateType _ code _ =>
      return .error (if code = 20 then FileError.notDirectory else .isDirectory).message
    | .permissionDenied .. => return .error "Permission denied (os error 13)"
    | e => return .error (toString e)

/-- Run a command line and yield the exit code. -/
def run (tokens : List String) : IO UInt32 := do
  match Invocation.ofTokens tokens with
  | .error e =>
    if e.isRequested then
      IO.println e.message
      return 0
    else
      IO.eprintln ("error: " ++ e.message)
      return 2
  | .ok invocation =>
    let content ← match invocation.command.file? with
      | some path => readSource path
      | none => pure (.ok "")
    match invocation.command.run fun _ => content with
    | .error e =>
      IO.eprintln ("Error: " ++ e.message)
      return 1
    | .ok lines =>
      lines.forM IO.println
      return 0

end DualCall.CommandLine

def main (args : List String) : IO UInt32 :=
  DualCall.CommandLine.run args
