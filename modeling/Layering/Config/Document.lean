import Layering.Config.Basic
import Layering.Data.RecordField

/-!
# Configurations as documents

Every field of a configuration has a default, which counts where the field is
absent.
-/

namespace Layering

open Data

/-- Layers by name. -/
def Layer.variants : List (Variant Layer) := Layer.all.map fun l => .unit l.name l

/-- Reads a layer. -/
def Layer.read : Decoder Layer := decodeVariant Layer.variants

/-- A layer as a document. -/
def Layer.write (l : Layer) : Node := .text l.name

namespace PathPredicate

mutual

/-- A predicate as a document: a mapping from its kind to what it is made of. -/
def write : PathPredicate → Node
  | contains needles => .ofFields [("contains", .ofList (needles.map .text))]
  | glob pattern => .ofFields [("glob", .text pattern)]
  | all ps => .ofFields [("all", .ofList (writeAll ps))]
  | any ps => .ofFields [("any", .ofList (writeAll ps))]
  | not p => .ofFields [("not", write p)]

/-- Predicates as documents. -/
def writeAll : List PathPredicate → List Node
  | [] => []
  | p :: ps => write p :: writeAll ps

end

/-- Reads a predicate with at most `depth` predicates inside one another. -/
def readWithin : (depth : Nat) → Decoder PathPredicate
  | 0 => fun _ _ _ => .error .malformed
  | depth + 1 => decodeVariant [
      .holding "contains" fun c room n => (decodeList decodeText c room n).map contains,
      .holding "glob" fun c room n => (decodeText c room n).map glob,
      .holding "all" fun c room n => (decodeList (readWithin depth) c room n).map all,
      .holding "any" fun c room n => (decodeList (readWithin depth) c room n).map any,
      .holding "not" fun c room n => (readWithin depth c room n).map not]

/-- Reads a predicate. It nests no deeper than there is room. -/
def read : Decoder PathPredicate := fun c room n => readWithin (room + 1) c room n

end PathPredicate

/-- Rules for layers in documents. -/
def Rule.layerSchema : Schema (Rule Layer) where
  name := "LayerRule"
  initial := ⟨.all [], .entities⟩
  fields := [
    .ofLens "when" true Rule.condition (fun x r => { r with condition := x })
      PathPredicate.write PathPredicate.read,
    .ofLens "layer" true Rule.outcome (fun x r => { r with outcome := x }) Layer.write Layer.read]

/-- Rules for responsibilities in documents. -/
def Rule.responsibilitySchema : Schema (Rule String) where
  name := "ResponsibilityRule"
  initial := ⟨.all [], ""⟩
  fields := [
    .ofLens "when" true Rule.condition (fun x r => { r with condition := x })
      PathPredicate.write PathPredicate.read,
    .text "responsibility" true Rule.outcome fun x r => { r with outcome := x }]

/-- Rule sets in documents. -/
def RuleSet.schema : Schema RuleSet where
  name := "RuleSet"
  initial := .standard
  fields := [
    .ofLens "default_layer" false RuleSet.defaultLayer (fun x r => { r with defaultLayer := x })
      Layer.write Layer.read,
    .text "default_responsibility" false RuleSet.defaultResponsibility
      fun x r => { r with defaultResponsibility := x },
    .list "layer_rules" false RuleSet.layerRules (fun x r => { r with layerRules := x })
      Rule.layerSchema.write Rule.layerSchema.read,
    .list "responsibility_rules" false RuleSet.responsibilityRules
      (fun x r => { r with responsibilityRules := x })
      Rule.responsibilitySchema.write Rule.responsibilitySchema.read]

/-- A field that holds a rank. -/
def LayerRanks.field (name : String) (get : LayerRanks → UInt32)
    (set : UInt32 → LayerRanks → LayerRanks) : RecordField LayerRanks :=
  .ofLens name false get set (fun n => .int n.toNat) fun c room n =>
    (decodeWord c room n).map UInt32.ofNat

/-- Ranks in documents. -/
def LayerRanks.schema : Schema LayerRanks where
  name := "LayerRanks"
  initial := .standard
  fields := [
    field "frameworks" frameworks fun x r => { r with frameworks := x },
    field "adapters" adapters fun x r => { r with adapters := x },
    field "use_cases" useCases fun x r => { r with useCases := x },
    field "entities" entities fun x r => { r with entities := x },
    field "infrastructure" infrastructure fun x r => { r with infrastructure := x },
    field "code_management" codeManagement fun x r => { r with codeManagement := x }]

/-- Policies in documents. -/
def LayerPolicy.schema : Schema LayerPolicy where
  name := "LayerPolicy"
  initial := .standard
  fields := [
    .record "ranks" false LayerPolicy.ranks (fun x r => { r with ranks := x }) LayerRanks.schema,
    .list "same_rank_layers" false LayerPolicy.sameRankLayers
      (fun x r => { r with sameRankLayers := x }) Layer.write Layer.read,
    .list "admission_order" false LayerPolicy.admissionOrder
      (fun x r => { r with admissionOrder := x }) Layer.write Layer.read]

/-- The name of a mode. -/
def ResolutionMode.name : ResolutionMode → String
  | firstMatch => "first_match"
  | strict => "strict"

/-- Reads a mode. -/
def ResolutionMode.read : Decoder ResolutionMode :=
  decodeVariant ([firstMatch, strict].map fun m => .unit m.name m)

/-- Resolution configurations in documents. -/
def ResolutionConfig.schema : Schema ResolutionConfig where
  name := "ResolutionConfig"
  initial := .standard
  fields := [
    .ofLens "mode" false ResolutionConfig.mode (fun x r => { r with mode := x })
      (fun m => .text m.name) ResolutionMode.read,
    .texts "header_extensions" false ResolutionConfig.headerExtensions
      fun x r => { r with headerExtensions := x },
    .texts "source_extensions" false ResolutionConfig.sourceExtensions
      fun x r => { r with sourceExtensions := x },
    .bool "pair_companion_headers" false ResolutionConfig.pairCompanionHeaders
      fun x r => { r with pairCompanionHeaders := x },
    .texts "include_roots" false ResolutionConfig.includeRoots
      fun x r => { r with includeRoots := x }]

/-- Configurations in documents. -/
def AnalysisConfig.schema : Schema AnalysisConfig where
  name := "AnalysisConfig"
  initial := .standard
  fields := [
    .record "rules" false AnalysisConfig.rules (fun x r => { r with rules := x }) RuleSet.schema,
    .record "layers" false AnalysisConfig.layers (fun x r => { r with layers := x })
      LayerPolicy.schema,
    .record "resolution" false AnalysisConfig.resolution (fun x r => { r with resolution := x })
      ResolutionConfig.schema,
    .ofLens "transitive_depth_limit" false AnalysisConfig.transitiveDepthLimit
      (fun x r => { r with transitiveDepthLimit := x }) (fun n => .int n.toNat)
      fun c room n => (decodeCount c room n).map UInt64.ofNat]

end Layering
