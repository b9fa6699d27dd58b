import TemplateBlocks.Builders
import TemplateBlocks.Decimal.Binary64
import TemplateBlocks.Decimal.Layout
import TemplateBlocks.Decimal.Numeral
import TemplateBlocks.Decimal.Shortest
import TemplateBlocks.Declaration
import TemplateBlocks.Desugar
import TemplateBlocks.Diagnostic.Basic
import TemplateBlocks.Diagnostic.Cause
import TemplateBlocks.Diagnostic.Wire
import TemplateBlocks.Invocation.Dispatch
import TemplateBlocks.Invocation.FanOut
import TemplateBlocks.Invocation.Metadata
import TemplateBlocks.Json.Basic
import TemplateBlocks.Json.Fields
import TemplateBlocks.Json.Number
import TemplateBlocks.Json.Reader
import TemplateBlocks.Names
import TemplateBlocks.Options
import TemplateBlocks.Proofs.Calls
import TemplateBlocks.Proofs.Checks
import TemplateBlocks.Proofs.Context
import TemplateBlocks.Proofs.Decimal.Counts
import TemplateBlocks.Proofs.Declaration
import TemplateBlocks.Proofs.Desugar.Asked
import TemplateBlocks.Proofs.Desugar.Blockwise
import TemplateBlocks.Proofs.Desugar.Carried
import TemplateBlocks.Proofs.Desugar.Content
import TemplateBlocks.Proofs.Desugar.Declarations
import TemplateBlocks.Proofs.Desugar.Entering
import TemplateBlocks.Proofs.Desugar.Frames
import TemplateBlocks.Proofs.Desugar.Freshness
import TemplateBlocks.Proofs.Desugar.Idempotence
import TemplateBlocks.Proofs.Desugar.Inherited
import TemplateBlocks.Proofs.Desugar.Locations
import TemplateBlocks.Proofs.Desugar.LoneDefault
import TemplateBlocks.Proofs.Desugar.Ordinary
import TemplateBlocks.Proofs.Desugar.OwnParams
import TemplateBlocks.Proofs.Desugar.Placement
import TemplateBlocks.Proofs.Desugar.Places
import TemplateBlocks.Proofs.Desugar.PlainForm
import TemplateBlocks.Proofs.Desugar.Remainder
import TemplateBlocks.Proofs.Desugar.Replacing
import TemplateBlocks.Proofs.Desugar.Settled
import TemplateBlocks.Proofs.Desugar.Settling
import TemplateBlocks.Proofs.Desugar.Shielded
import TemplateBlocks.Proofs.Desugar.Termination
import TemplateBlocks.Proofs.Invocation.Chain
import TemplateBlocks.Proofs.Invocation.Children
import TemplateBlocks.Proofs.Invocation.Fanned
import TemplateBlocks.Proofs.Invocation.Metadata
import TemplateBlocks.Proofs.Invocation.Slots
import TemplateBlocks.Proofs.Json.Fields
import TemplateBlocks.Proofs.Render.Dispatch
import TemplateBlocks.Proofs.Render.Evaluation
import TemplateBlocks.Proofs.Render.HelperCalls
import TemplateBlocks.Proofs.Render.Markers
import TemplateBlocks.Proofs.Render.Nesting
import TemplateBlocks.Proofs.Render.Queries
import TemplateBlocks.Proofs.Reports
import TemplateBlocks.Proofs.Standard
import TemplateBlocks.Proofs.Traversal.Parts
import TemplateBlocks.Proofs.Traversal.Preorder
import TemplateBlocks.Proofs.Traversal.Recording
import TemplateBlocks.Proofs.Traversal.Spans
import TemplateBlocks.Proofs.Traversal.Weights
import TemplateBlocks.Proofs.Tree.Legible
import TemplateBlocks.Proofs.Tree.Loosened
import TemplateBlocks.Proofs.Tree.Paths
import TemplateBlocks.Proofs.Tree.RoundTrip
import TemplateBlocks.Query
import TemplateBlocks.Render.Helper
import TemplateBlocks.Render.Session
import TemplateBlocks.Render.Value
import TemplateBlocks.Scope
import TemplateBlocks.Text
import TemplateBlocks.Transform
import TemplateBlocks.Traversal.Basic
import TemplateBlocks.Traversal.Weight
import TemplateBlocks.Tree.Decode
import TemplateBlocks.Tree.Encode
import TemplateBlocks.Tree.Expr
import TemplateBlocks.Tree.Statement
import TemplateBlocks.Yield
