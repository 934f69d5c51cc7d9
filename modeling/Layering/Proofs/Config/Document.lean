import Layering.Config.Document
import Layering.Config.Load
import Layering.Proofs.Document
import Layering.Proofs.Name
import Layering.Proofs.Nesting
import Layering.Proofs.Text.Utf8
import Layering.Proofs.Walk

/-!
# Configurations in JSON

A configuration is read back from its JSON text if the containers of the text nest up to
127 levels, whatever predicates its rules are made of; a text that nests deeper is refused
(`AnalysisConfig.loadConfig_json`). No value of a field stands for a missing field, so the
defaults never take the place of what was written.
-/

namespace Layering

open Data

variable {limit : Nat}

/-! ## Predicates -/

/-- A layer is read back from its name. -/
theorem Layer.reads {c : Carrier} (l : Layer) : Reads c 0 Layer.read l.write l :=
  Reads.variant (by cases l <;> rfl)

namespace PathPredicate

theorem writeAll_eq_map (ps : List PathPredicate) : writeAll ps = ps.map write := by
  induction ps with
  | nil => rfl
  | cons p ps ih => rw [writeAll, ih, List.map_cons]

mutual

theorem faithful_write : (p : PathPredicate) → Json.Faithful p.write
  | contains _ => .ofFields (List.forall_mem_singleton.2 (.list fun t _ => .text t))
  | glob pattern => .ofFields (List.forall_mem_singleton.2 (.text pattern))
  | all ps => .ofFields (List.forall_mem_singleton.2 (.ofList (faithful_writeAll ps)))
  | any ps => .ofFields (List.forall_mem_singleton.2 (.ofList (faithful_writeAll ps)))
  | not p => .ofFields (List.forall_mem_singleton.2 p.faithful_write)

theorem faithful_writeAll : (ps : List PathPredicate) → ∀ n ∈ writeAll ps, Json.Faithful n
  | [] => List.forall_mem_nil _
  | p :: ps => List.forall_mem_cons.2 ⟨p.faithful_write, faithful_writeAll ps⟩

end

mutual

/-- A predicate is read back by a reader that goes as deep as there is room. -/
theorem readsWithin : (p : PathPredicate) → (depth : Nat) →
    ReadsUpTo depth (readWithin depth) p.write p
  | p, 0 => ⟨fun h => absurd h (Nat.not_lt_zero _), fun room hroom _ hle => by omega⟩
  | contains needles, _ + 1 =>
    .holding rfl (.map contains (.list fun t _ => .of_reads (.text t) rfl))
  | glob pattern, _ + 1 => .holding rfl (.map glob (.of_reads (.text pattern) rfl))
  | all ps, depth + 1 => .holding rfl (.map all (readsAllWithin ps depth))
  | any ps, depth + 1 => .holding rfl (.map any (readsAllWithin ps depth))
  | not p, depth + 1 => .holding rfl (.map not (p.readsWithin depth))

theorem readsAllWithin (ps : List PathPredicate) (depth : Nat) :
    ReadsUpTo depth (decodeList (readWithin depth)) (.ofList (writeAll ps)) ps := by
  rw [writeAll_eq_map]
  exact .list fun p hp => p.readsWithin depth

end

/-- A predicate takes as much room as its document has levels. -/
theorem readsUpTo (p : PathPredicate) : ReadsUpTo limit read p.write p where
  fits _ room hroom := (p.readsWithin (room + 1)).fits (by omega) room hroom
  tooDeep room hroom hle _ := (p.readsWithin (room + 1)).tooDeep room hroom hle (by omega)

end PathPredicate

/-! ## Rules -/

namespace Rule

theorem readsUpTo_layerSchema (r : Rule Layer) :
    ReadsUpTo limit layerSchema.read (layerSchema.write r) r :=
  Schema.readsUpTo (by decide) <|
    .ofLens r.condition.readsUpTo <| .ofLens (.of_reads r.outcome.reads rfl) .done

theorem readsUpTo_responsibilitySchema (r : Rule String) :
    ReadsUpTo limit responsibilitySchema.read (responsibilitySchema.write r) r :=
  Schema.readsUpTo (by decide) <| .ofLens r.condition.readsUpTo <| .text .done

theorem faithful_layerSchema (r : Rule Layer) : Json.Faithful (layerSchema.write r) := by
  refine Schema.faithful_write ?_
  simp only [layerSchema, List.forall_mem_cons]
  exact ⟨RecordField.faithful_ofLens r.condition.faithful_write,
    RecordField.faithful_ofLens (.text _), List.forall_mem_nil _⟩

theorem faithful_responsibilitySchema (r : Rule String) :
    Json.Faithful (responsibilitySchema.write r) := by
  refine Schema.faithful_write ?_
  simp only [responsibilitySchema, List.forall_mem_cons, RecordField.faithful_text]
  exact ⟨RecordField.faithful_ofLens r.condition.faithful_write, trivial, List.forall_mem_nil _⟩

end Rule

namespace RuleSet

theorem readsUpTo (r : RuleSet) : ReadsUpTo limit schema.read (schema.write r) r :=
  Schema.readsUpTo (by decide) <|
    .ofLens (.of_reads r.defaultLayer.reads rfl) <| .text <|
    .list (fun x _ => x.readsUpTo_layerSchema) <|
    .list (fun x _ => x.readsUpTo_responsibilitySchema) .done

theorem faithful_write (r : RuleSet) : Json.Faithful (schema.write r) := by
  refine Schema.faithful_write ?_
  simp only [schema, List.forall_mem_cons, RecordField.faithful_text]
  exact ⟨RecordField.faithful_ofLens (.text _), trivial,
    RecordField.faithful_list fun x _ => x.faithful_layerSchema,
    RecordField.faithful_list fun x _ => x.faithful_responsibilitySchema, List.forall_mem_nil _⟩

end RuleSet

/-! ## Policies -/

namespace LayerRanks

theorem restores_field {r s : LayerRanks} {fs : List (RecordField LayerRanks)} {name : String}
    {get : LayerRanks → UInt32} {set : UInt32 → LayerRanks → LayerRanks}
    (hrest : RestoresUpTo limit r fs (set (get r) s)) :
    RestoresUpTo limit r (field name get set :: fs) s := by
  have hread : Reads .text 0 (fun c room n => (decodeWord c room n).map UInt32.ofNat)
      (.int (get r).toNat) (UInt32.ofNat (get r).toNat) :=
    (Reads.nat _ (get r).toNat_lt).map UInt32.ofNat
  rw [UInt32.ofNat_toNat] at hread
  exact .ofLens (.of_reads hread rfl) hrest

theorem faithful_field (name : String) (get : LayerRanks → UInt32)
    (set : UInt32 → LayerRanks → LayerRanks) (r : LayerRanks) : (field name get set).Faithful r := by
  have hlt := (get r).toNat_lt
  exact RecordField.faithful_ofLens (.int (by omega) (by omega))

theorem readsUpTo (r : LayerRanks) : ReadsUpTo limit schema.read (schema.write r) r :=
  Schema.readsUpTo (by decide) <|
    restores_field <| restores_field <| restores_field <| restores_field <| restores_field <|
    restores_field .done

theorem faithful_write (r : LayerRanks) : Json.Faithful (schema.write r) := by
  refine Schema.faithful_write ?_
  simp [schema, faithful_field]

end LayerRanks

namespace LayerPolicy

theorem readsUpTo (p : LayerPolicy) : ReadsUpTo limit schema.read (schema.write p) p :=
  Schema.readsUpTo (by decide) <|
    .record p.ranks.readsUpTo <| .list (fun l _ => .of_reads l.reads rfl) <|
    .list (fun l _ => .of_reads l.reads rfl) .done

theorem faithful_write (p : LayerPolicy) : Json.Faithful (schema.write p) := by
  refine Schema.faithful_write ?_
  simp only [schema, List.forall_mem_cons]
  exact ⟨RecordField.faithful_ofLens p.ranks.faithful_write,
    RecordField.faithful_list fun l _ => .text l.name,
    RecordField.faithful_list fun l _ => .text l.name, List.forall_mem_nil _⟩

end LayerPolicy

/-! ## Resolution -/

namespace ResolutionConfig

theorem readsUpTo (r : ResolutionConfig) : ReadsUpTo limit schema.read (schema.write r) r := by
  have hmode : Reads .text 0 ResolutionMode.read (.text r.mode.name) r.mode :=
    Reads.variant (by cases r.mode <;> rfl)
  exact Schema.readsUpTo (by decide) <|
    .ofLens (.of_reads hmode rfl) <| .texts <| .texts <| .bool <| .texts .done

theorem faithful_write (r : ResolutionConfig) : Json.Faithful (schema.write r) := by
  refine Schema.faithful_write ?_
  simp only [schema, List.forall_mem_cons, RecordField.faithful_texts, RecordField.faithful_bool]
  exact ⟨RecordField.faithful_ofLens (.text _), trivial, trivial, trivial, trivial,
    List.forall_mem_nil _⟩

end ResolutionConfig

/-! ## Configurations -/

namespace AnalysisConfig

theorem readsUpTo (c : AnalysisConfig) : ReadsUpTo limit schema.read (schema.write c) c := by
  have hlimit : Reads .text 0 (fun c room n => (decodeCount c room n).map UInt64.ofNat)
      (.int c.transitiveDepthLimit.toNat) (UInt64.ofNat c.transitiveDepthLimit.toNat) :=
    (Reads.nat _ c.transitiveDepthLimit.toNat_lt).map UInt64.ofNat
  rw [UInt64.ofNat_toNat] at hlimit
  exact Schema.readsUpTo (by decide) <|
    .record c.rules.readsUpTo <| .record c.layers.readsUpTo <|
    .record c.resolution.readsUpTo <| .ofLens (.of_reads hlimit rfl) .done

theorem faithful_write (c : AnalysisConfig) : Json.Faithful (schema.write c) := by
  have hlimit := c.transitiveDepthLimit.toNat_lt
  refine Schema.faithful_write ?_
  simp only [schema, List.forall_mem_cons]
  exact ⟨RecordField.faithful_ofLens c.rules.faithful_write,
    RecordField.faithful_ofLens c.layers.faithful_write,
    RecordField.faithful_ofLens c.resolution.faithful_write,
    RecordField.faithful_ofLens (.int (by omega) (by omega)), List.forall_mem_nil _⟩

end AnalysisConfig

/-! ## Names of files -/

namespace ConfigFormat

/-- What ends with `.json` is in JSON, if something stands in front of that in the last
component of the path. -/
theorem ofFile?_json {stem : String} (h : stem.toList.getLast?.any (· ≠ '/')) :
    ofFile? (stem ++ ".json") = some .json := by
  obtain ⟨c, hc, hslash⟩ : ∃ c, stem.toList.getLast? = some c ∧ c ≠ '/' := by
    simpa [Option.any_eq_true] using h
  obtain ⟨l, hl⟩ := List.getLast?_eq_some_iff.1 hc
  have hname : (stem ++ ".json").toList = l ++ (c :: '.' :: "json".toList) := by
    rw [String.toList_append, hl, List.append_assoc]
    rfl
  have hbyte : Text.encodeChar '/' = [0x2F] := rfl
  have hnone : 0x2F ∉ Text.encode (c :: '.' :: "json".toList) := by
    rw [Text.mem_encode_iff hbyte (by decide)]
    simp [hslash.symm]
  obtain ⟨ps, p, -, hps⟩ := Text.splitOn_append hnone (Text.encode l)
  have hlast : (Files.components (Text.encode (stem ++ ".json").toList)).getLastD [] =
      (p ++ Text.encodeChar c) ++ 0x2E :: Text.encode "json".toList := by
    rw [hname, Text.encode_append, Files.components, hps, List.getLastD_concat, List.append_assoc]
    rfl
  have hext : Files.extension? ((p ++ Text.encodeChar c) ++ 0x2E :: Text.encode "json".toList) =
      some (Text.encode "json".toList) :=
    Files.extension?_eq_some_iff.2 ⟨_, by simp [Text.encodeChar_ne_nil], rfl, by decide⟩
  have hjson : Text.decode? (Text.encode "json".toList) = some "json" :=
    Text.decode?_eq_some_iff.2 rfl
  simp only [ofFile?, hlast, hext, Option.bind_some, hjson]

end ConfigFormat

namespace AnalysisConfig

/-- The JSON text of a configuration, in either layout, is read back as that configuration
if its containers nest up to 127 levels, and refused if they nest deeper. -/
theorem loadConfig_json {stem : String} (hstem : stem.toList.getLast?.any (· ≠ '/'))
    (y : Json.Layout) (c : AnalysisConfig) :
    loadConfig schema.read (stem ++ ".json")
        (.ok (String.ofList (Json.write y 0 (schema.write c)))) =
      if (schema.write c).levels ≤ 127 then .ok c else .error (.json .malformed) := by
  have hblanks : ∀ c ∈ "".toList, Json.isSpace c := List.forall_mem_nil _
  have hdecode := Json.decode_write schema.read c.faithful_write y hblanks
  rw [String.append_empty] at hdecode
  have hload : loadConfig schema.read (stem ++ ".json")
      (.ok (String.ofList (Json.write y 0 (schema.write c)))) =
        (schema.read .text fullRoom (schema.write c)).mapError .json := by
    simp only [loadConfig, Except.mapError, bind, Except.bind, ConfigFormat.ofFile?_json hstem,
      ConfigFormat.decode, hdecode]
  have hread : ReadsUpTo (fullRoom + 1) schema.read (schema.write c) c := c.readsUpTo
  rw [hload]
  split
  · next h =>
    rw [hread.fits (Nat.lt_succ_of_le (Nat.le_succ_of_le h)) fullRoom (Nat.lt_succ_of_le h)]
    rfl
  · next h =>
    rw [hread.tooDeep fullRoom (by decide) (Nat.lt_of_not_le h) (Nat.le_succ _)]
    rfl

/-- A condition inside a number of negations. -/
def negations : Nat → PathPredicate
  | 0 => .all [.any [], .contains [], .contains ["é\"\\", ""], .glob ""]
  | n + 1 => .not (negations n)

/-- A configuration that differs from the built-in one in every field, with a condition
inside a number of negations. -/
def negatedConfig (n : Nat) : AnalysisConfig where
  rules := ⟨.codeManagement, "", [⟨negations n, .useCases⟩], []⟩
  layers := ⟨⟨4294967295, 0, 0, 0, 0, 0⟩, [], []⟩
  resolution := ⟨.strict, [], [], false, []⟩
  transitiveDepthLimit := 18446744073709551615

/-- Four containers lie around the condition and four in it, so that there is room for 119
negations. -/
theorem loadConfig_json_negated :
    loadConfig schema.read "/.json/..json" (.ok (Json.pretty (schema.write (negatedConfig 119)))) =
        .ok (negatedConfig 119) ∧
      loadConfig schema.read "/.json/..json"
          (.ok (Json.compact (schema.write (negatedConfig 120)))) = .error (.json .malformed) := by
  have hstem : "/.json/.".toList.getLast?.any (· ≠ '/') := by decide
  exact ⟨(loadConfig_json hstem ⟨true⟩ (negatedConfig 119)).trans (if_pos (by decide +kernel)),
    (loadConfig_json hstem ⟨false⟩ (negatedConfig 120)).trans (if_neg (by decide +kernel))⟩

end AnalysisConfig

end Layering
