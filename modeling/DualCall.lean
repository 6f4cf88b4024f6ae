import DualCall.Json.Reader
import DualCall.Main
import DualCall.Proofs.Call.Chain
import DualCall.Proofs.Call.CodeEntry
import DualCall.Proofs.Call.Reunified
import DualCall.Proofs.Call.StandIn
import DualCall.Proofs.CommandLine.Agreement
import DualCall.Proofs.CommandLine.Results
import DualCall.Proofs.CommandLine.Values
import DualCall.Proofs.Native.Promotion
import DualCall.Proofs.Ownership.Unification
import DualCall.Proofs.Ron.RoundTrip
import DualCall.Proofs.Session.Steps
import DualCall.Proofs.Specification.Grammar
import DualCall.Proofs.Value.Grammar
