import CanonTree.Config.Document
import CanonTree.Json.Codec
import CanonTree.Node.Dump
import CanonTree.Node.Edit
import CanonTree.Node.Shape
import CanonTree.Normalize.Batch
import CanonTree.Proofs.Binding.Declarations
import CanonTree.Proofs.Binding.Nesting
import CanonTree.Proofs.Binding.Counter
import CanonTree.Proofs.FixedPoint
import CanonTree.Proofs.Reduced
import CanonTree.Proofs.Conservation
import CanonTree.Proofs.Annotations
import CanonTree.Proofs.SpanNesting
import CanonTree.Proofs.Batch
import CanonTree.Proofs.Failure
import CanonTree.Proofs.Binding.Resolution
import CanonTree.Proofs.Placeholder
import CanonTree.Proofs.DepthLimit
import CanonTree.Proofs.Rule.Acceptance
import CanonTree.Proofs.History
import CanonTree.Proofs.RoundTrip
import CanonTree.Proofs.Rule.Occurrences
import CanonTree.Proofs.Rule.VariableList
import CanonTree.Proofs.Binding.Positions
import CanonTree.Proofs.Counters
import CanonTree.Proofs.Rule.Restructuring
import CanonTree.Proofs.Growth
import CanonTree.Proofs.Binding.Frame
import CanonTree.Proofs.Outward
import CanonTree.Proofs.Dump
import CanonTree.Proofs.Covering
import CanonTree.Proofs.Rule.DeclaredNames
import CanonTree.Proofs.Log.Binding
import CanonTree.Proofs.Log
import CanonTree.Proofs.Settings
import CanonTree.Proofs.Traversal
