import Layering.Data.Json.Value
import Layering.Main
import Layering.Proofs.Graph.Cycle
import Layering.Proofs.Graph.Search
import Layering.Proofs.Admission.Greedy
import Layering.Proofs.Projection
import Layering.Proofs.Analysis
import Layering.Proofs.Admission.Conflict
import Layering.Proofs.Admission.Scale
import Layering.Proofs.Admission.Ranks
import Layering.Proofs.Agreement
import Layering.Proofs.Collect
import Layering.Proofs.Corpus
import Layering.Proofs.Order.Renaming
import Layering.Proofs.Partition
import Layering.Proofs.Strictness
import Layering.Proofs.Path
import Layering.Proofs.Closure
import Layering.Proofs.Companion
import Layering.Proofs.Order.Grouping
import Layering.Proofs.Order.Reference
import Layering.Proofs.Dependency
import Layering.Proofs.Order.Dependency
import Layering.Proofs.Order.Analysis
import Layering.Proofs.Json.Scalar
import Layering.Proofs.Json.Value
import Layering.Proofs.Record
import Layering.Proofs.Document
import Layering.Proofs.Command
import Layering.Proofs.Lookup
import Layering.Proofs.Splice
import Layering.Proofs.Report.Size
import Layering.Proofs.Report.Document
import Layering.Proofs.Rules
import Layering.Proofs.Graph.State
import Layering.Proofs.Outcome
import Layering.Proofs.Text.Utf8
import Layering.Proofs.Walk
import Layering.Proofs.Extractor
import Layering.Proofs.Scan
import Layering.Proofs.HeaderChain
import Layering.Proofs.Meaning
import Layering.Proofs.NormalPath
import Layering.Proofs.NormalForm
import Layering.Proofs.Name
import Layering.Proofs.Graph.Circular
import Layering.Proofs.Pairing
import Layering.Proofs.Sibling
import Layering.Graph.Parents
import Layering.Proofs.Graph.Parents
import Layering.Proofs.Graph.Shortest
import Layering.Proofs.Occurrence
import Layering.Proofs.Weight
import Layering.Proofs.Depth
import Layering.Proofs.Admission.Listing
import Layering.Proofs.Nesting
import Layering.Proofs.Config.Document
import Layering.Proofs.Acceptance
import Layering.Proofs.Order.Sorted
import Layering.Graph.Arrival
import Layering.Proofs.Graph.Table
import Layering.Proofs.Text.Lowercase
import Layering.Proofs.Needle
import Layering.Proofs.Include
import Layering.Admission.Table
import Layering.Proofs.Admission.Table
import Layering.Proofs.Capacity
import Layering.Proofs.Text.Runs
import Layering.Proofs.FunctionHead
import Layering.Proofs.Regex.Leads
import Layering.Proofs.Regex.Block
import Layering.Proofs.Regex.Compile
import Layering.Proofs.Regex.Search
import Layering.Proofs.Regex.Anchored
import Layering.Proofs.Regex.Spans
import Layering.Proofs.HeadPattern
import Layering.Proofs.Definition
import Layering.Path.Bytes
import Layering.Proofs.Path.Parts
import Layering.Graph.Lookup
import Layering.Proofs.Graph.Trace
import Layering.Proofs.Graph.Log
import Layering.Proofs.Graph.Run
import Layering.Proofs.Graph.Reweigh
import Layering.Proofs.Comparison
import Layering.Proofs.IncludePattern
