import Patchbay.About
import Patchbay.Exchange
import Patchbay.Journal.Output
import Patchbay.Value.Tagged
import Patchbay.Canvas.Snapshot
import Patchbay.Proofs.Identifier.RoundTrip
import Patchbay.Proofs.Token.RoundTrip
import Patchbay.Proofs.Rebuild.Accounts
import Patchbay.Proofs.Decimal.Plain
import Patchbay.Proofs.Layout.Disjoint
import Patchbay.Proofs.Layout.LongestPath
import Patchbay.Proofs.Rebuild.Validated
import Patchbay.Proofs.Property.Restoring
import Patchbay.Proofs.Capture
import Patchbay.Proofs.Document.Reading
import Patchbay.Proofs.Rebuild.RoundTrip
import Patchbay.Proofs.Identifier.Distinct
import Patchbay.Proofs.Document.Stable
import Patchbay.Proofs.Rebuild.Hints
import Patchbay.Proofs.Validation.Reporting
import Patchbay.Proofs.Token.Accepted
import Patchbay.Proofs.Canvas.Editing
import Patchbay.Proofs.Capture.Wires
import Patchbay.Proofs.Capture.Loading
import Patchbay.Proofs.Rebuild.SourceOrder
import Patchbay.Proofs.Layout.Unordered
import Patchbay.Proofs.Layout.Feedback
import Patchbay.Proofs.Layout.Gapless
import Patchbay.Proofs.Layout.Shifting
import Patchbay.Proofs.Slider.Repacking
import Patchbay.Proofs.Signature.Injecting
import Patchbay.Proofs.Rebuild.ScriptParameters
import Patchbay.Proofs.Validation.Spelling
import Patchbay.Proofs.Rebuild.Agreement
import Patchbay.Proofs.Token.Registering
import Patchbay.Proofs.Canvas.Naming
import Patchbay.Proofs.Double.Exact
import Patchbay.Proofs.Geometry.Turning
import Patchbay.Proofs.Token.Arc
import Patchbay.Proofs.DataTree.Lossless
import Patchbay.Proofs.Identifier.Usable
import Patchbay.Proofs.DataTree.Reordering
import Patchbay.Proofs.Rebuild.Counting
import Patchbay.Proofs.Document.Repairing
import Patchbay.Proofs.TypeHint.Wrapping
import Patchbay.Proofs.Validation.Aliases
import Patchbay.Proofs.Exchange.Files
import Patchbay.Proofs.Property.InPlace
import Patchbay.Proofs.Signature.Nesting
import Patchbay.Proofs.DataTree.Paths
import Patchbay.Proofs.Validation.Ancestors
