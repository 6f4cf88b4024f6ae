import DualCall.Json.Writer

namespace DualCall

/-- What a unified native function looks like to the managed program. -/
structure Report where
  symbol : String
  pointer : String
  returns : String
  args : List String
  arity : String
  defaults : List (Option String)
  unified : Bool
deriving DecidableEq, Repr

namespace Report

def ofCallable (signature : Signature) (c : Callable) : Report where
  symbol := signature.symbol
  pointer := c.pointer.display
  returns := signature.returns.display
  args := signature.args.map fun spec => spec.type.display
  arity := c.arity.display
  defaults := c.defaults.map fun default => default.map Value.display
  unified := true

/-- A line for each facet. An argument without default has a hyphen in its place. -/
def render (r : Report) : String :=
  "\n".intercalate [
    r.symbol ++ " at " ++ r.pointer,
    "  signature: (" ++ ", ".intercalate r.args ++ ") -> " ++ r.returns,
    "  arity: " ++ r.arity,
    "  defaults: " ++ bracketed (r.defaults.map fun default => default.getD "-")]

/-- An object with a field on every line. -/
def toJson (r : Report) : String :=
  String.ofList (Json.writeObjectLines 0 [
    ("symbol", Json.writeString r.symbol),
    ("pointer", Json.writeString r.pointer),
    ("returns", Json.writeString r.returns),
    ("args", Json.writeListLines 1 (r.args.map Json.writeString)),
    ("arity", Json.writeString r.arity),
    ("defaults", Json.writeListLines 1 (r.defaults.map Json.writeOptional)),
    ("unified", Json.writeBool r.unified)])

end Report

end DualCall
