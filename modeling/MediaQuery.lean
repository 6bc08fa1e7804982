import MediaQuery.Json.Reader
import MediaQuery.Query.Event
import MediaQuery.Query.Grammar
import MediaQuery.Query.Render
import MediaQuery.Wire.Decode
import MediaQuery.Wire.Encode
import MediaQuery.Wire.Faults
import MediaQuery.Wire.Format
import MediaQuery.Proofs.Token.Munch
import MediaQuery.Proofs.Token.Numeral
import MediaQuery.Proofs.Token.Boundary
import MediaQuery.Proofs.Query.Run
import MediaQuery.Proofs.Query.Reached
import MediaQuery.Proofs.Query.Derived
import MediaQuery.Proofs.Query.Shape
import MediaQuery.Proofs.Query.Placed
import MediaQuery.Proofs.Query.Exact
import MediaQuery.Proofs.Query.Comma
import MediaQuery.Proofs.Query.Feature
import MediaQuery.Proofs.Query.Output
import MediaQuery.Proofs.Query.Rendered
import MediaQuery.Proofs.Query.Path
import MediaQuery.Proofs.Token.Order
import MediaQuery.Proofs.Token.Gaps
import MediaQuery.Proofs.Token.Priority
import MediaQuery.Proofs.Query.InRange
import MediaQuery.Proofs.Query.Mirrored
import MediaQuery.Proofs.Query.Outline
import MediaQuery.Proofs.Query.Refusal
import MediaQuery.Proofs.Query.FirstFault
import MediaQuery.Proofs.Query.Viable
import MediaQuery.Proofs.Query.Spaced
import MediaQuery.Proofs.Query.Respaced
import MediaQuery.Proofs.Token.Lowered
import MediaQuery.Proofs.Query.Lowered
import MediaQuery.Proofs.Query.Reported
import MediaQuery.Proofs.Wire.Accepted
import MediaQuery.Proofs.Wire.RoundTrip
import MediaQuery.Proofs.Json.ReadBack
import MediaQuery.Proofs.Query.Endless
import MediaQuery.Proofs.Query.Provenance
import MediaQuery.Proofs.Query.Fragment
import MediaQuery.Proofs.Query.Alike
import MediaQuery.Proofs.Query.Resumed
import MediaQuery.Proofs.Query.Conjunction
import MediaQuery.Proofs.Query.Keyword
import MediaQuery.Proofs.Query.Remainder
import MediaQuery.Proofs.Query.Named
import MediaQuery.Proofs.Wire.Precedence
import MediaQuery.Proofs.Query.Modifier
