import TensorGraph.Main
import TensorGraph.Proofs.Resolution
import TensorGraph.TypeJson
import TensorGraph.Proofs.Validation
import TensorGraph.Proofs.Symbolic.Agreement
import TensorGraph.Proofs.Symbolic.Instance
import TensorGraph.Proofs.Symbolic.Sound
import TensorGraph.Proofs.Symbolic.Elementwise
import TensorGraph.Proofs.Symbolic.Layout
import TensorGraph.Proofs.Symbolic.Extent
import TensorGraph.Proofs.Symbolic.Join
import TensorGraph.Proofs.Symbolic.Window
import TensorGraph.Proofs.Symbolic.Registry
import TensorGraph.Proofs.Aborts
import TensorGraph.Proofs.RepairValidity
import TensorGraph.Proofs.NormalizedInputs
import TensorGraph.Proofs.StructureErrors
import TensorGraph.Proofs.Wire.Numbers
import TensorGraph.Proofs.Wire.Conformance
import TensorGraph.Proofs.Wire.Reading
import TensorGraph.Proofs.Wire.Writing
import TensorGraph.Proofs.Wire.RoundTrip
import TensorGraph.Proofs.Wire.PositiveZero
import TensorGraph.Proofs.Storage.Assembly
import TensorGraph.Proofs.Storage.Types
import TensorGraph.Proofs.Storage.Constants
import TensorGraph.Proofs.Storage.Nodes
import TensorGraph.Proofs.Storage.Models
import TensorGraph.Proofs.Propagation.Merging
import TensorGraph.Proofs.Propagation.Gains
import TensorGraph.Proofs.Propagation.Sequence
import TensorGraph.Proofs.Propagation.Order
import TensorGraph.Proofs.Propagation.Records
import TensorGraph.Proofs.Propagation.Run
import TensorGraph.Proofs.Propagation.Names
import TensorGraph.Proofs.Names.Types
import TensorGraph.Proofs.Names.Rules
import TensorGraph.Proofs.ValidModels
import TensorGraph.Proofs.NodeOrder
import TensorGraph.Proofs.RepeatedRepair
import TensorGraph.Proofs.StoredRepair
import TensorGraph.Proofs.Refinement
import TensorGraph.Proofs.Propagation.Declarations
import TensorGraph.Proofs.Revisions
import TensorGraph.Proofs.Revealed.Contexts
import TensorGraph.Proofs.Revealed.Rules
import TensorGraph.Proofs.Revealed.Registry
import TensorGraph.Proofs.SliceOverrun
import TensorGraph.Proofs.Strict.Basic
import TensorGraph.Proofs.Strict.Broadcast
import TensorGraph.Proofs.Strict.Layout
import TensorGraph.Proofs.Strict.Join
import TensorGraph.Proofs.Strict.Extent
import TensorGraph.Proofs.Strict.MatrixProduct
import TensorGraph.Proofs.Strict.Window
import TensorGraph.Proofs.Strict.Registry
import TensorGraph.Proofs.Strict.Propagation
import TensorGraph.Proofs.Propagation.Parts
import TensorGraph.Proofs.Propagation.RuleChange
import TensorGraph.Proofs.RepairScope
import TensorGraph.Proofs.Sources
import TensorGraph.Proofs.Wire.Rewriting
import TensorGraph.Proofs.Kept.Values
import TensorGraph.Proofs.Kept.Constants
import TensorGraph.Proofs.Kept.Nodes
import TensorGraph.Proofs.Kept.Models
import TensorGraph.Proofs.Storage.Integers
import TensorGraph.Pool
import TensorGraph.Files.Saving
import TensorGraph.Proofs.Files.PathOrder
import TensorGraph.Proofs.Files.PathText
import TensorGraph.Proofs.Files.CopyNames
import TensorGraph.Proofs.Files.Places
import TensorGraph.Proofs.Files.Copies
import TensorGraph.Proofs.Files.Saving
import TensorGraph.Proofs.Pool.Batches
import TensorGraph.Proofs.Pool.Runs
import TensorGraph.Proofs.Pool.Functions
import TensorGraph.Proofs.Pool.Repairs
import TensorGraph.Proofs.SortedEntries
import TensorGraph.Proofs.ManifestKeys
import TensorGraph.Proofs.Types.Merge
import TensorGraph.Proofs.Types.Broadcast
import TensorGraph.Proofs.RepairedManifest
import TensorGraph.Proofs.Operators.ListForms
import TensorGraph.Proofs.Operators.FoldedValues
import TensorGraph.Proofs.Operators.Unsqueezing
import TensorGraph.Proofs.Operators.Transposing
import TensorGraph.Proofs.Operators.ElementCount
import TensorGraph.Proofs.Operators.Regrouping
import TensorGraph.Proofs.Operators.Steps
import TensorGraph.Proofs.Operators.Slicing
import TensorGraph.Proofs.Operators.Placements
import TensorGraph.Proofs.Operators.TransposedWindows
import TensorGraph.Proofs.Operators.MatrixChains
import TensorGraph.Proofs.Operators.Splitting
import TensorGraph.Proofs.Operators.OmittedKernels
import TensorGraph.Proofs.Wide.Basic
import TensorGraph.Proofs.Wide.Window
import TensorGraph.Proofs.Wide.Convolution
import TensorGraph.Proofs.Files.PathSteps
import TensorGraph.Proofs.Files.RecognisedCopies
import TensorGraph.Proofs.ListedOrder
import TensorGraph.Proofs.RequiredOperands
