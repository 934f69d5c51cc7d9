import Layering.Config.Document
import Layering.Data.Json.Reader
import Layering.Data.Json.Writer
import Layering.Report

/-!
# Reports as documents

A weighted edge and a rejected edge are written with the fields of their edge
spliced in, and a rejected edge also with those of its reason.
-/

namespace Layering

open Data

/-- A number as a document. -/
def natNode (n : Nat) : Node := .int n

/-- Edges in documents. -/
def Edge.schema : Schema Edge where
  name := "DependencyEdge"
  initial := ⟨0, 0⟩
  fields := [
    .word "source" true Edge.source fun x r => { r with source := x },
    .word "target" true Edge.target fun x r => { r with target := x }]

/-- A set as a document: the list of its elements. -/
def OrdSet.write {α : Type} [LT α] (write : α → Node) (s : OrdSet α) : Node :=
  .ofList (s.toList.map write)

/-- Reads a set. -/
def OrdSet.read {α : Type} [LT α] [DecidableLT α] [StrictOrder α] (read : Decoder α) :
    Decoder (OrdSet α) :=
  fun c room n => (decodeList read c room n).map OrdSet.ofList

/-- A field that holds a set. -/
def OrdSet.field {R α : Type} [LT α] [DecidableLT α] [StrictOrder α] (name : String)
    (get : R → OrdSet α) (set : OrdSet α → R → R) (write : α → Node) (read : Decoder α) : RecordField R :=
  .ofLens name true get set (OrdSet.write write) (OrdSet.read read)

/-- Groups in documents. -/
def Group.schema : Schema Group where
  name := "Group"
  initial := .empty 0 ⟨.entities, ""⟩
  fields := [
    .word "id" true Group.id fun x r => { r with id := x },
    .ofLens "layer" true Group.layer (fun x r => { r with layer := x }) Layer.write Layer.read,
    .text "responsibility" true Group.responsibility fun x r => { r with responsibility := x },
    OrdSet.field "units" Group.units (fun x r => { r with units := x }) .text decodeText,
    .count "symbol_count" true Group.symbolCount fun x r => { r with symbolCount := x },
    .count "private_symbol_count" true Group.privateSymbolCount
      fun x r => { r with privateSymbolCount := x },
    .bool "externally_called" true Group.externallyCalled fun x r => { r with externallyCalled := x }]

namespace WeightedEdge

/-- The fields of its own. -/
def schema : Schema WeightedEdge where
  name := "WeightedEdge"
  initial := ⟨⟨0, 0⟩, 0⟩
  fields := [.word "weight" true WeightedEdge.weight fun x r => { r with weight := x }]

/-- A weighted edge as a document. -/
def write (e : WeightedEdge) : Node := (Edge.schema.write e.edge).splice (schema.write e)

/-- Reads a weighted edge. -/
def read : Decoder WeightedEdge := fun c room n => do
  let (e, aside) ← schema.readSpliced c room n
  return { e with edge := ← Edge.schema.readPart room aside }

end WeightedEdge

namespace RejectReason

/-- Layers that forbid an edge, in documents. -/
def layersSchema : Schema (Layer × Layer) where
  name := "LayerIllegal"
  initial := (.entities, .entities)
  fields := [
    .ofLens "source_layer" true Prod.fst (fun x r => (x, r.2)) Layer.write Layer.read,
    .ofLens "target_layer" true Prod.snd (fun x r => (r.1, x)) Layer.write Layer.read]

/-- The path of a cycle in documents. -/
def pathSchema : Schema (List GroupId) where
  name := "CycleAvoidance"
  initial := []
  fields := [.list "path" true id (fun x _ => x) natNode decodeWord]

/-- The field that names the reason. -/
def tag : String := "reason"

/-- A reason as a document. -/
def write : RejectReason → Node
  | layerIllegal s t =>
    (Node.ofFields [(tag, .text "layer_illegal")]).splice (layersSchema.write (s, t))
  | cycleAvoidance path =>
    (Node.ofFields [(tag, .text "cycle_avoidance")]).splice (pathSchema.write path)

/-- Reads the fields of the reason with a name. -/
def variants : List (Variant (List (Node × Node) → Except Mismatch RejectReason)) := [
  .unit "layer_illegal" fun es => do
    let (s, t) ← layersSchema.readMap .buffered fullRoom es true
    return layerIllegal s t,
  .unit "cycle_avoidance" fun es => do
    return cycleAvoidance (← pathSchema.readMap .buffered fullRoom es true)]

/-- Reads the name of a reason off the entries, of which only one may give it. -/
def readTag : List (Node × Node) →
    Option (List (Node × Node) → Except Mismatch RejectReason) →
      Except Mismatch (List (Node × Node) → Except Mismatch RejectReason)
  | [], some read => .ok read
  | [], none => .error (.missingField tag)
  | (key, n) :: es, found =>
    if key.text? .buffered == some tag then
      match found with
      | some _ => .error (.duplicateField tag)
      | none => do readTag es (some (← (← Variant.byKey variants .buffered n).alone))
    else readTag es found

/-- Reads a reason off entries that were set aside. -/
def readPart (aside : List (Node × Node)) : Except Mismatch RejectReason := do
  let read ← readTag aside none
  read (aside.filter fun e => e.1.text? .buffered != some tag)

end RejectReason

namespace RejectedEdge

/-- The fields of its own. -/
def schema : Schema RejectedEdge where
  name := "RejectedEdge"
  initial := ⟨⟨0, 0⟩, 0, .cycleAvoidance []⟩
  fields := [.word "weight" true RejectedEdge.weight fun x r => { r with weight := x }]

/-- A rejected edge as a document. -/
def write (e : RejectedEdge) : Node :=
  ((Edge.schema.write e.edge).splice (schema.write e)).splice e.reason.write

/-- Reads a rejected edge. -/
def read : Decoder RejectedEdge := fun c room n => do
  let (e, aside) ← schema.readSpliced c room n
  let edge ← Edge.schema.readPart room aside
  return { e with edge, reason := ← RejectReason.readPart (Edge.schema.without aside) }

end RejectedEdge

/-- The name of a reason why a reference means no unit. -/
def UnresolvedReason.name : UnresolvedReason → String
  | notFound => "not_found"
  | ambiguous => "ambiguous"

/-- Reads a reason why a reference means no unit. -/
def UnresolvedReason.read : Decoder UnresolvedReason :=
  decodeVariant ([notFound, ambiguous].map fun r => .unit r.name r)

/-- Unresolved references in documents. Candidates are left out where there are
none. -/
def UnresolvedReference.schema : Schema UnresolvedReference where
  name := "UnresolvedReference"
  initial := ⟨"", "", .notFound, []⟩
  fields := [
    .text "unit" true UnresolvedReference.unit fun x r => { r with unit := x },
    .text "token" true UnresolvedReference.token fun x r => { r with token := x },
    .ofLens "reason" true UnresolvedReference.reason (fun x r => { r with reason := x })
      (fun x => .text x.name) UnresolvedReason.read,
    { name := "candidates"
      required := false
      write := fun r =>
        if r.candidates.isEmpty then none else some (.ofList (r.candidates.map .text))
      read := fun c room n =>
        (decodeList decodeText c room n).map fun x r => { r with candidates := x } }]

/-- Cycle reports in documents. -/
def CycleReport.schema : Schema CycleReport where
  name := "CycleReport"
  initial := ⟨[], .empty⟩
  fields := [
    .list "sccs" true CycleReport.components (fun x r => { r with components := x })
      (OrdSet.write natNode) (OrdSet.read decodeWord),
    OrdSet.field "circular_edges" CycleReport.circularEdges
      (fun x r => { r with circularEdges := x }) Edge.schema.write Edge.schema.read]

/-- Rejection counts in documents. -/
def RejectionCounts.schema : Schema RejectionCounts where
  name := "RejectionCounts"
  initial := ⟨0, 0, 0⟩
  fields := [
    .count "unresolved_references" true RejectionCounts.unresolvedReferences
      fun x r => { r with unresolvedReferences := x },
    .count "layer_illegal" true RejectionCounts.layerIllegal fun x r => { r with layerIllegal := x },
    .count "cycle_avoidance" true RejectionCounts.cycleAvoidance
      fun x r => { r with cycleAvoidance := x }]

/-- Counts by layer as a document. -/
def writeLayerCounts (m : OrdMap Layer Nat) : Node :=
  .ofFields (m.entries.map fun e => (e.1.name, .int e.2))

/-- Reads counts by layer; of several for one layer the last one counts. -/
def readLayerCounts : Decoder (OrdMap Layer Nat) := fun c room n => do
  let es ← decodeEntries Layer.read decodeCount c room n
  return es.foldl (fun m e => m.insert e.1 e.2) .empty

/-- Totals in documents. -/
def ReportSummary.schema : Schema ReportSummary where
  name := "ReportSummary"
  initial := ⟨0, 0, .empty, 0, 0, 0, 0, 0, ⟨0, 0, 0⟩, 0, 0, 0⟩
  fields := [
    .count "units" true ReportSummary.units fun x r => { r with units := x },
    .count "groups" true ReportSummary.groups fun x r => { r with groups := x },
    .ofLens "groups_by_layer" true ReportSummary.groupsByLayer
      (fun x r => { r with groupsByLayer := x }) writeLayerCounts readLayerCounts,
    .count "direct_dependencies" true ReportSummary.directDependencies
      fun x r => { r with directDependencies := x },
    .count "transitive_dependencies" true ReportSummary.transitiveDependencies
      fun x r => { r with transitiveDependencies := x },
    .count "raw_edges" true ReportSummary.rawEdges fun x r => { r with rawEdges := x },
    .count "admitted_edges" true ReportSummary.admittedEdges fun x r => { r with admittedEdges := x },
    .count "rejected_edges" true ReportSummary.rejectedEdges fun x r => { r with rejectedEdges := x },
    .record "rejections" true ReportSummary.rejections (fun x r => { r with rejections := x })
      RejectionCounts.schema,
    .count "raw_cycles" true ReportSummary.rawCycles fun x r => { r with rawCycles := x },
    .count "circular_edges" true ReportSummary.circularEdges fun x r => { r with circularEdges := x },
    .count "residual_cycles" true ReportSummary.residualCycles
      fun x r => { r with residualCycles := x }]

namespace Report

/-- Reports in documents. -/
def schema : Schema Report where
  name := "GraphReport"
  initial := ⟨ReportSummary.schema.initial, [], [], [], [], [], ⟨[], .empty⟩⟩
  fields := [
    .record "summary" true summary (fun x r => { r with summary := x }) ReportSummary.schema,
    .list "groups" true groups (fun x r => { r with groups := x })
      Group.schema.write Group.schema.read,
    .list "raw_edges" true rawEdges (fun x r => { r with rawEdges := x })
      WeightedEdge.write WeightedEdge.read,
    .list "admitted_edges" true admittedEdges (fun x r => { r with admittedEdges := x })
      WeightedEdge.write WeightedEdge.read,
    .list "rejected_edges" true rejectedEdges (fun x r => { r with rejectedEdges := x })
      RejectedEdge.write RejectedEdge.read,
    .list "unresolved_references" true unresolvedReferences
      (fun x r => { r with unresolvedReferences := x })
      UnresolvedReference.schema.write UnresolvedReference.schema.read,
    .record "cycle_report" true cycleReport (fun x r => { r with cycleReport := x })
      CycleReport.schema]

/-- A report as JSON. -/
def toJson (r : Report) : String := Json.pretty (schema.write r)

/-- The report in a JSON text. -/
def ofJson (json : String) : Except Mismatch Report := Json.decode schema.read json

end Report

end Layering
