import Layering.Proofs.Config.Document
import Layering.Proofs.Report.Size
import Layering.Proofs.Splice
import Layering.Report.Document

/-!
# Reports in JSON

A report whose numbers fit their words is read back from its JSON text
(`Report.json_restored`): sets from lists in order, counts from a mapping by the name
of the layer, and edges from mappings that also hold their weights and what was wrong
with them.
-/

namespace Layering

open Data

variable {c : Carrier} {depth : Nat}

/-! ## Numbers, sets and counts -/

namespace Data.RecordField

variable {R : Type} {r : R} {name : String} {required : Bool}

theorem faithful_natNode {n : Nat} (h : n < 2 ^ 64) : Json.Faithful (natNode n) :=
  .int (by omega) (by omega)

theorem faithful_word {get : R → Nat} {set : Nat → R → R} (h : get r < 2 ^ 32) :
    (word name required get set).Faithful r :=
  faithful_ofLens (faithful_natNode (h.trans (by decide)))

theorem faithful_count {get : R → Nat} {set : Nat → R → R} (h : get r < 2 ^ 64) :
    (count name required get set).Faithful r :=
  faithful_ofLens (faithful_natNode h)

end Data.RecordField

/-- JSON holds a mapping with the entries of two that it holds. -/
theorem Data.Json.Faithful.splice {m n : Node} (hm : Json.Faithful m) (hn : Json.Faithful n) :
    Json.Faithful (m.splice n) := by
  cases hm with
  | @ofFields fields hfields =>
    cases hn with
    | @ofFields more hmore =>
      have happend : (Node.ofFields fields).splice (.ofFields more) = .ofFields (fields ++ more) := by
        simp only [Node.ofFields, Node.splice, List.map_append]
      rw [happend]
      exact .ofFields (List.forall_mem_append.2 ⟨hfields, hmore⟩)
    | _ => exact .ofFields hfields
  | null => exact .null
  | bool b => exact .bool b
  | int hle hlt => exact .int hle hlt
  | text t => exact .text t
  | ofList h => exact .ofList h

open Data.RecordField

namespace OrdSet

variable {α : Type} [LT α] [DecidableLT α] [StrictOrder α] {read : Decoder α} {write : α → Node}
  {s : OrdSet α}

theorem ofList_toList (s : OrdSet α) : ofList s.toList = s := ext_mem fun _ => mem_ofList

/-- A set is read back if its elements are. -/
theorem reads (h : ∀ x ∈ s, Reads c depth read (write x) x) :
    Reads c (depth + 1) (OrdSet.read read) (s.write write) s := by
  intro room hroom
  have hlist : Reads c (depth + 1) (decodeList read) (.ofList (s.toList.map write)) s.toList :=
    Reads.list h
  rw [OrdSet.read, OrdSet.write, hlist room hroom]
  exact congrArg Except.ok (ofList_toList s)

omit [DecidableLT α] [StrictOrder α] in
theorem faithful_write (h : ∀ x ∈ s, Json.Faithful (write x)) : Json.Faithful (s.write write) :=
  .list h

end OrdSet

theorem UnresolvedReason.reads (r : UnresolvedReason) :
    Reads c 0 UnresolvedReason.read (.text r.name) r :=
  Reads.variant (by cases r <;> rfl)

/-- The entries of a map, put into a map, make the same map. -/
theorem OrdMap.foldl_insert_entries {κ β : Type} [LT κ] [DecidableLT κ] [StrictOrder κ]
    [DecidableEq κ] (m : OrdMap κ β) : m.entries.foldl (fun m e => m.insert e.1 e.2) .empty = m := by
  have h : ∀ (l : List (κ × β)), (l.map Prod.fst).Nodup → ∀ (n : OrdMap κ β) (k : κ),
      (l.foldl (fun m e => m.insert e.1 e.2) n).get? k = (l.lookup k).or (n.get? k) := by
    intro l
    induction l with
    | nil => exact fun _ _ _ => rfl
    | cons e l ih =>
      intro hl n k
      obtain ⟨he, hl⟩ := List.nodup_cons.1 hl
      rw [List.foldl_cons, ih hl, get?_insert, lookup_cons_ite]
      split
      · next hk =>
        have hnone : l.lookup k = none := by
          rw [List.lookup_eq_none_iff]
          intro p hp
          rw [hk, bne_iff_ne]
          exact fun hkey => he (hkey ▸ List.mem_map_of_mem hp)
        rw [hnone]
        rfl
      · rfl
  refine ext_get? fun k => ?_
  rw [h m.entries m.keys.nodup_toList, get?_empty, Option.or_none]
  rfl

namespace Data

theorem mapM_map_of_forall {α β : Type} {f : β → Except Mismatch α} {g : α → β} (xs : List α)
    (h : ∀ x ∈ xs, f (g x) = .ok x) : (xs.map g).mapM f = .ok xs := by
  induction xs with
  | nil => rfl
  | cons x xs ih =>
    obtain ⟨hx, hxs⟩ := List.forall_mem_cons.1 h
    rw [List.map_cons, List.mapM_cons, hx, ih hxs]
    rfl

/-- Entries with text keys are read back if their keys and values are. -/
theorem Reads.entries {κ β : Type} {key : Decoder κ} {value : Decoder β} {name : κ → String}
    {write : β → Node} {es : List (κ × β)} (hkey : ∀ k, Reads c 0 key (.text (name k)) k)
    (hvalue : ∀ e ∈ es, Reads c depth value (write e.2) e.2) :
    Reads c (depth + 1) (decodeEntries key value)
      (.ofFields (es.map fun e => (name e.1, write e.2))) es := by
  intro room hroom
  have hentries? : (Node.ofFields (es.map fun e => (name e.1, write e.2))).entries? c =
      some (es.map fun e => (.text (name e.1), write e.2), true) := by
    rw [Node.ofFields, List.map_map]
    rfl
  simp only [decodeEntries, hentries?, enter_of_lt hroom, bind, Except.bind]
  rw [mapM_map_of_forall es fun e he => ?_]
  · rfl
  · have htext : (Node.text (name e.1)).text? c = some (name e.1) := rfl
    simp only [htext, hkey e.1 (room - 1) (by omega), hvalue e he (room - 1) (by omega)]
    simp [pure, Except.pure]

end Data

/-- Counts by layer are read back. -/
theorem reads_layerCounts {m : OrdMap Layer Nat} (h : ∀ e ∈ m.entries, e.2 < 2 ^ 64) :
    Reads c 1 readLayerCounts (writeLayerCounts m) m := by
  intro room hroom
  have hentries : Reads c 1 (decodeEntries Layer.read decodeCount)
      (.ofFields (m.entries.map fun e => (e.1.name, natNode e.2))) m.entries :=
    Reads.entries (fun l => l.reads) fun e he => Reads.nat _ (h e he)
  have hwrite : writeLayerCounts m = .ofFields (m.entries.map fun e => (e.1.name, natNode e.2)) := rfl
  rw [readLayerCounts, hwrite, hentries room hroom]
  exact congrArg Except.ok m.foldl_insert_entries

theorem faithful_layerCounts {m : OrdMap Layer Nat} (h : ∀ e ∈ m.entries, e.2 < 2 ^ 64) :
    Json.Faithful (writeLayerCounts m) :=
  .ofFields (List.forall_mem_map.2 fun e he => faithful_natNode (h e he))

/-! ## Groups -/

theorem Group.faithful_write {g : Group} (h : g.Fits) : Json.Faithful (schema.write g) := by
  refine Schema.faithful_write ?_
  simp only [schema, List.forall_mem_cons]
  exact ⟨faithful_word h.id, faithful_ofLens (.text _), faithful_text _ _,
    faithful_ofLens (OrdSet.faithful_write fun p _ => .text p), faithful_count h.symbolCount,
    faithful_count h.privateSymbolCount, faithful_bool _ _, List.forall_mem_nil _⟩

theorem Group.reads {g : Group} (h : g.Fits) : Reads c 2 schema.read (schema.write g) g :=
  Schema.reads (by decide) <|
    .word h.id <| .ofLens (g.layer.reads.mono (by decide)) <| .text <|
    .ofLens (OrdSet.reads fun p _ => Reads.text p) <| .count h.symbolCount <|
    .count h.privateSymbolCount <| .bool .done

/-! ## Edges -/

namespace Edge

theorem restores {e : Edge} (h : e.Fits) : Restores c 0 e schema.fields schema.initial :=
  .word h.1 <| .word h.2 .done

theorem faithful_write {e : Edge} (h : e.Fits) : Json.Faithful (schema.write e) := by
  refine Schema.faithful_write ?_
  simp only [schema, List.forall_mem_cons]
  exact ⟨faithful_word h.1, faithful_word h.2, List.forall_mem_nil _⟩

theorem reads {e : Edge} (h : e.Fits) : Reads c 1 schema.read (schema.write e) e :=
  Schema.reads (by decide) (restores h)

/-- The entries of an edge. -/
theorem entriesOf_eq (e : Edge) : Schema.entriesOf schema.fields e =
    [(.text "source", natNode e.source), (.text "target", natNode e.target)] := rfl

end Edge

/-! ## Edges with weights -/

namespace Edge

/-- The entries of an edge stay as they are when they are set aside. -/
theorem kept (e : Edge) : ∀ x ∈ Schema.entriesOf schema.fields e, Kept c 0 x.2 := by
  rw [entriesOf_eq]
  simp only [List.forall_mem_cons]
  exact ⟨Kept.int _, Kept.int _, List.forall_mem_nil _⟩

end Edge

namespace WeightedEdge

theorem faithful_write {e : WeightedEdge} (h : e.Fits) : Json.Faithful e.write := by
  refine (Edge.faithful_write h.1).splice (Schema.faithful_write ?_)
  simp only [schema, List.forall_mem_cons]
  exact ⟨faithful_word h.2, List.forall_mem_nil _⟩

/-- The weight is read first, then the edge off the entries that were set aside. -/
theorem read_of_readOwn {room : Nat} {n : Node} {own : WeightedEdge} {aside : List (Node × Node)}
    {edge : Edge} (hown : schema.readSpliced c room n = .ok (own, aside))
    (hedge : Edge.schema.readPart room aside = .ok edge) :
    read c room n = .ok { own with edge } := by
  simp only [read, hown, hedge, bind, Except.bind]
  rfl

/-- A weighted edge is read back from a mapping with the fields of the edge. -/
theorem reads {e : WeightedEdge} (h : e.Fits) : Reads c 1 read e.write e := by
  intro room hroom
  have hentries : e.write.entries? c = some (Schema.entriesOf Edge.schema.fields e.edge ++
      (Schema.entriesOf schema.fields e ++ []), true) := by
    rw [List.append_nil]
    rfl
  have hedge : ∀ x ∈ Schema.entriesOf Edge.schema.fields e.edge, schema.Avoids x ∧ Kept c 0 x.2 :=
    fun x hx => ⟨(Schema.names_of_mem_entriesOf hx).avoids (by decide), e.edge.kept x hx⟩
  have hweight : Restores c 0 { schema.initial with weight := e.weight } schema.fields
      schema.initial := .word (by exact h.2) .done
  have hown : schema.readSpliced c room e.write =
      .ok ({ schema.initial with weight := e.weight },
        Schema.entriesOf Edge.schema.fields e.edge ++ []) :=
    Schema.readSpliced_of_restores (by decide) hweight hentries hedge
      (List.forall_mem_nil _) hroom
  have hpart : Edge.schema.readPart room (Schema.entriesOf Edge.schema.fields e.edge ++ []) =
      .ok e.edge :=
    Schema.readPart_of_restores (by decide) (Edge.restores h.1) (List.forall_mem_nil _) hroom
  have hread := read_of_readOwn hown hpart
  exact hread

end WeightedEdge

/-! ## Rejected edges -/

namespace RejectReason

/-- The entries of a reason. -/
def entries : RejectReason → List (Node × Node)
  | layerIllegal s t =>
    (.text tag, .text "layer_illegal") :: Schema.entriesOf layersSchema.fields (s, t)
  | cycleAvoidance path =>
    (.text tag, .text "cycle_avoidance") :: Schema.entriesOf pathSchema.fields path

theorem write_eq (r : RejectReason) : r.write = .map r.entries true := by
  cases r <;> rfl

theorem faithful_write {r : RejectReason} (h : r.Fits) : Json.Faithful r.write := by
  have htag : ∀ name, Json.Faithful (Node.ofFields [(tag, .text name)]) := fun name =>
    .ofFields (List.forall_mem_singleton.2 (.text name))
  cases r with
  | layerIllegal s t =>
    refine (htag _).splice (Schema.faithful_write ?_)
    simp only [layersSchema, List.forall_mem_cons]
    exact ⟨faithful_ofLens (.text _), faithful_ofLens (.text _), List.forall_mem_nil _⟩
  | cycleAvoidance path =>
    refine (htag _).splice (Schema.faithful_write ?_)
    simp only [pathSchema, List.forall_mem_cons]
    exact ⟨faithful_list fun n hn => faithful_natNode ((h n hn).trans (by decide)),
      List.forall_mem_nil _⟩

/-- The entries of a reason stay as they are when they are set aside. -/
theorem kept (r : RejectReason) : ∀ x ∈ r.entries, Kept c 1 x.2 := by
  cases r with
  | layerIllegal s t =>
    have hentries : Schema.entriesOf layersSchema.fields (s, t) =
        [(.text "source_layer", s.write), (.text "target_layer", t.write)] := rfl
    have htext : ∀ name, Kept c 1 (.text name) := fun name => (Kept.text name).mono (Nat.zero_le 1)
    simp only [entries, hentries, List.forall_mem_cons]
    exact ⟨htext _, htext _, htext _, List.forall_mem_nil _⟩
  | cycleAvoidance path =>
    have hentries : Schema.entriesOf pathSchema.fields path =
        [(.text "path", .ofList (path.map natNode))] := rfl
    simp only [entries, hentries, List.forall_mem_cons]
    exact ⟨(Kept.text _).mono (Nat.zero_le 1),
      .list (List.forall_mem_map.2 fun n _ => Kept.int n), List.forall_mem_nil _⟩

/-- The entries of a reason have names of its own. -/
theorem avoids {R : Type} {s : Schema R} (r : RejectReason)
    (h : ∀ k ∈ [tag, "source_layer", "target_layer", "path"], k ∉ s.fields.map RecordField.name) :
    ∀ x ∈ r.entries, s.Avoids x := by
  have htag : ∀ n, s.Avoids (.text tag, n) := fun n => ⟨tag, rfl, h tag (by simp)⟩
  cases r with
  | layerIllegal _ _ =>
    refine List.forall_mem_cons.2 ⟨htag _, fun x hx => ?_⟩
    refine (Schema.names_of_mem_entriesOf hx).avoids fun k hk => h k ?_
    have hnames : layersSchema.fields.map RecordField.name = ["source_layer", "target_layer"] := rfl
    rw [hnames] at hk
    simp only [List.mem_cons, List.not_mem_nil, or_false] at hk ⊢
    tauto
  | cycleAvoidance _ =>
    refine List.forall_mem_cons.2 ⟨htag _, fun x hx => ?_⟩
    refine (Schema.names_of_mem_entriesOf hx).avoids fun k hk => h k ?_
    have hnames : pathSchema.fields.map RecordField.name = ["path"] := rfl
    rw [hnames] at hk
    simp only [List.mem_cons, List.not_mem_nil, or_false] at hk ⊢
    tauto

/-- Entries with other keys do not change the reason that was named. -/
theorem readTag_eq_of_avoids {read : List (Node × Node) → Except Mismatch RejectReason}
    {es : List (Node × Node)} (h : ∀ e ∈ es, e.1.text? .buffered ≠ some tag) :
    readTag es (some read) = .ok read := by
  induction es with
  | nil => rfl
  | cons e es ih =>
    obtain ⟨he, hes⟩ := List.forall_mem_cons.1 h
    obtain ⟨key, n⟩ := e
    rw [readTag, if_neg (by simpa using he), ih hes]

/-- A reason is read in the way that its name calls for. -/
theorem readPart_eq {name : String} {read : List (Node × Node) → Except Mismatch RejectReason}
    {es : List (Node × Node)} (hname : Variant.byName variants name = .ok (.unit name read))
    (h : ∀ e ∈ es, e.1.text? .buffered ≠ some tag) :
    readPart ((.text tag, .text name) :: es) = read es := by
  have htag : readTag ((.text tag, .text name) :: es) none = .ok read := by
    have hkey : Variant.byKey variants .buffered (.text name) = .ok (.unit name read) := hname
    have hname? : (Node.text tag).text? .buffered = some tag := rfl
    simp only [readTag, hname?, beq_self_eq_true, if_true, hkey, bind, Except.bind, Variant.alone,
      readTag_eq_of_avoids h]
  have hfilter : ((.text tag, .text name) :: es).filter
      (fun e => e.1.text? .buffered != some tag) = es := by
    rw [List.filter_cons_of_neg (by simp [Node.text?]), List.filter_eq_self]
    exact fun e he => bne_iff_ne.2 (h e he)
  rw [readPart, htag]
  exact congrArg read hfilter

/-- A reason is read back from its entries. -/
theorem readPart_entries {r : RejectReason} (h : r.Fits) : readPart r.entries = .ok r := by
  have hother : ∀ {R : Type} {s : Schema R} {x : R}, tag ∉ s.fields.map RecordField.name →
      ∀ e ∈ Schema.entriesOf s.fields x, e.1.text? .buffered ≠ some tag := by
    intro R s x hs e he htag
    obtain ⟨f, hf, hname⟩ := Schema.names_of_mem_entriesOf he
    rw [hname] at htag
    exact hs (Option.some_inj.1 htag ▸ List.mem_map_of_mem hf)
  cases r with
  | layerIllegal s t =>
    have hrestores : Restores .buffered 0 (s, t) layersSchema.fields layersSchema.initial :=
      .ofLens s.reads <| .ofLens t.reads .done
    have hread : layersSchema.readMap .buffered fullRoom (Schema.entriesOf layersSchema.fields (s, t))
        true = .ok (s, t) := Schema.readMap_of_restores (by decide) hrestores (by decide)
    rw [entries, readPart_eq rfl (hother (by decide)), hread]
    rfl
  | cycleAvoidance path =>
    have hrestores : Restores .buffered 1 path pathSchema.fields pathSchema.initial :=
      .list (fun n hn => Reads.nat _ (h n hn)) .done
    have hread : pathSchema.readMap .buffered fullRoom (Schema.entriesOf pathSchema.fields path)
        true = .ok path := Schema.readMap_of_restores (by decide) hrestores (by decide)
    rw [entries, readPart_eq rfl (hother (by decide)), hread]
    rfl

end RejectReason

namespace RejectedEdge

theorem faithful_write {e : RejectedEdge} (h : e.Fits) : Json.Faithful e.write := by
  have hown : Json.Faithful (schema.write e) := by
    refine Schema.faithful_write ?_
    simp only [schema, List.forall_mem_cons]
    exact ⟨faithful_word h.2.1, List.forall_mem_nil _⟩
  exact ((Edge.faithful_write h.1).splice hown).splice (RejectReason.faithful_write h.2.2)

/-- The weight is read first, then the edge and the reason off the entries that were set
aside. -/
theorem read_of_readOwn {room : Nat} {n : Node} {own : RejectedEdge} {aside : List (Node × Node)}
    {edge : Edge} {reason : RejectReason} (hown : schema.readSpliced c room n = .ok (own, aside))
    (hedge : Edge.schema.readPart room aside = .ok edge)
    (hreason : RejectReason.readPart (Edge.schema.without aside) = .ok reason) :
    read c room n = .ok { own with edge, reason } := by
  simp only [read, hown, hedge, hreason, bind, Except.bind]
  rfl

/-- A rejected edge is read back from a mapping with the fields of the edge and those of
the reason. -/
theorem reads {e : RejectedEdge} (h : e.Fits) : Reads c 2 read e.write e := by
  intro room hroom
  have hentries : e.write.entries? c = some (Schema.entriesOf Edge.schema.fields e.edge ++
      (Schema.entriesOf schema.fields e ++ e.reason.entries), true) := by
    rw [write, RejectReason.write_eq, ← List.append_assoc]
    rfl
  have hedge : ∀ x ∈ Schema.entriesOf Edge.schema.fields e.edge, schema.Avoids x ∧ Kept c 1 x.2 :=
    fun x hx => ⟨(Schema.names_of_mem_entriesOf hx).avoids (by decide),
      (e.edge.kept x hx).mono (Nat.zero_le 1)⟩
  have hreason : ∀ x ∈ e.reason.entries, schema.Avoids x ∧ Kept c 1 x.2 :=
    fun x hx => ⟨e.reason.avoids (by decide) x hx, e.reason.kept x hx⟩
  have hweight : Restores c 1 { schema.initial with weight := e.weight } schema.fields
      schema.initial := .word (by exact h.2.1) .done
  have hown : schema.readSpliced c room e.write =
      .ok ({ schema.initial with weight := e.weight },
        Schema.entriesOf Edge.schema.fields e.edge ++ e.reason.entries) :=
    Schema.readSpliced_of_restores (by decide) hweight hentries hedge hreason hroom
  have hother : ∀ x ∈ e.reason.entries, Edge.schema.Avoids x := e.reason.avoids (by decide)
  have hpart : Edge.schema.readPart room
      (Schema.entriesOf Edge.schema.fields e.edge ++ e.reason.entries) = .ok e.edge :=
    Schema.readPart_of_restores (by decide) (Edge.restores h.1) hother (by omega)
  have hrest := (Schema.filter_owns (s := Edge.schema)
    (fun x hx => Schema.names_of_mem_entriesOf (r := e.edge) hx) hother).2
  have hpartReason : RejectReason.readPart (Edge.schema.without
      (Schema.entriesOf Edge.schema.fields e.edge ++ e.reason.entries)) = .ok e.reason := by
    rw [hrest, RejectReason.readPart_entries h.2.2]
  have hread := read_of_readOwn hown hpart hpartReason
  exact hread

end RejectedEdge

/-! ## Unresolved references -/

namespace UnresolvedReference

theorem faithful_write (u : UnresolvedReference) : Json.Faithful (schema.write u) := by
  have hcandidates : ∀ n, (if u.candidates.isEmpty then none
      else some (.ofList (u.candidates.map .text))) = some n → Json.Faithful n := fun n hn => by
    split at hn
    · cases hn
    · exact Option.some_inj.1 hn ▸ .list fun t _ => .text t
  refine Schema.faithful_write ?_
  simp only [schema, List.forall_mem_cons]
  exact ⟨faithful_text _ _, faithful_text _ _, faithful_ofLens (.text _), hcandidates,
    List.forall_mem_nil _⟩

/-- An unresolved reference is read back, also where it leaves out that it has no
candidates. -/
theorem reads (u : UnresolvedReference) : Reads c 2 schema.read (schema.write u) u := by
  refine Schema.reads (by decide) (.text (.text (.ofLens (u.reason.reads.mono (by decide)) ?_)))
  obtain ⟨unit, token, reason, candidates⟩ := u
  cases candidates with
  | nil => exact .omitted rfl rfl .done
  | cons t ts =>
    have hlist : Reads c 1 (decodeList decodeText) (.ofList ((t :: ts).map .text)) (t :: ts) :=
      Reads.list fun t _ => Reads.text t
    exact .written rfl (hlist.map _) .done

end UnresolvedReference

/-! ## Cycles and totals -/

namespace CycleReport

theorem faithful_write {r : CycleReport} (h : r.Fits) : Json.Faithful (schema.write r) := by
  refine Schema.faithful_write ?_
  simp only [schema, List.forall_mem_cons]
  exact ⟨faithful_list fun s hs => OrdSet.faithful_write fun n hn =>
      faithful_natNode ((h.components s hs n hn).trans (by decide)),
    faithful_ofLens (OrdSet.faithful_write fun e he => Edge.faithful_write (h.circularEdges e he)),
    List.forall_mem_nil _⟩

theorem reads {r : CycleReport} (h : r.Fits) : Reads c 3 schema.read (schema.write r) r :=
  Schema.reads (by decide) <|
    .list (fun s hs => OrdSet.reads fun n hn => Reads.nat _ (h.components s hs n hn)) <|
    .ofLens (OrdSet.reads fun e he => Edge.reads (h.circularEdges e he)) .done

end CycleReport

namespace RejectionCounts

theorem faithful_write {r : RejectionCounts} (h : r.Fits) : Json.Faithful (schema.write r) := by
  refine Schema.faithful_write ?_
  simp only [schema, List.forall_mem_cons]
  exact ⟨faithful_count h.unresolvedReferences, faithful_count h.layerIllegal,
    faithful_count h.cycleAvoidance, List.forall_mem_nil _⟩

theorem reads {r : RejectionCounts} (h : r.Fits) : Reads c 1 schema.read (schema.write r) r :=
  Schema.reads (by decide) <|
    .count h.unresolvedReferences <| .count h.layerIllegal <| .count h.cycleAvoidance .done

end RejectionCounts

namespace ReportSummary

theorem faithful_write {s : ReportSummary} (h : s.Fits) : Json.Faithful (schema.write s) := by
  refine Schema.faithful_write ?_
  simp only [schema, List.forall_mem_cons]
  exact ⟨faithful_count h.units, faithful_count h.groups,
    faithful_ofLens (faithful_layerCounts h.groupsByLayer), faithful_count h.directDependencies,
    faithful_count h.transitiveDependencies, faithful_count h.rawEdges,
    faithful_count h.admittedEdges, faithful_count h.rejectedEdges,
    faithful_ofLens (RejectionCounts.faithful_write h.rejections), faithful_count h.rawCycles,
    faithful_count h.circularEdges, faithful_count h.residualCycles, List.forall_mem_nil _⟩

theorem reads {s : ReportSummary} (h : s.Fits) : Reads c 2 schema.read (schema.write s) s :=
  Schema.reads (by decide) <|
    .count h.units <| .count h.groups <| .ofLens (reads_layerCounts h.groupsByLayer) <|
    .count h.directDependencies <| .count h.transitiveDependencies <| .count h.rawEdges <|
    .count h.admittedEdges <| .count h.rejectedEdges <|
    .ofLens (RejectionCounts.reads h.rejections) <| .count h.rawCycles <|
    .count h.circularEdges <| .count h.residualCycles .done

end ReportSummary

/-! ## Reports -/

namespace Report

theorem faithful_write {r : Report} (h : r.Fits) : Json.Faithful (schema.write r) := by
  refine Schema.faithful_write ?_
  simp only [schema, List.forall_mem_cons]
  exact ⟨faithful_ofLens (ReportSummary.faithful_write h.summary),
    faithful_list fun g hg => Group.faithful_write (h.groups g hg),
    faithful_list fun e he => WeightedEdge.faithful_write (h.rawEdges e he),
    faithful_list fun e he => WeightedEdge.faithful_write (h.admittedEdges e he),
    faithful_list fun e he => RejectedEdge.faithful_write (h.rejectedEdges e he),
    faithful_list fun u _ => u.faithful_write,
    faithful_ofLens (CycleReport.faithful_write h.cycleReport), List.forall_mem_nil _⟩

/-- A report is read back from its mapping. -/
theorem reads {r : Report} (h : r.Fits) : Reads c 4 schema.read (schema.write r) r :=
  Schema.reads (by decide) <|
    .ofLens ((ReportSummary.reads h.summary).mono (by decide)) <|
    .list (fun g hg => (Group.reads (h.groups g hg)).mono (by decide)) <|
    .list (fun e he => (WeightedEdge.reads (h.rawEdges e he)).mono (by decide)) <|
    .list (fun e he => (WeightedEdge.reads (h.admittedEdges e he)).mono (by decide)) <|
    .list (fun e he => RejectedEdge.reads (h.rejectedEdges e he)) <|
    .list (fun u _ => u.reads) <|
    .ofLens (CycleReport.reads h.cycleReport) .done

/-- The JSON text of a report is read as that report. -/
theorem ofJson_toJson {r : Report} (h : r.Fits) : ofJson r.toJson = .ok r := by
  have hblanks : ∀ b ∈ "".toList, Json.isSpace b := List.forall_mem_nil _
  have hdecode := Json.decode_pretty schema.read (faithful_write h) hblanks
  rw [String.append_empty] at hdecode
  rw [ofJson, toJson, hdecode]
  exact reads h fullRoom (by decide)

/-- Every report whose numbers fit their words is what its JSON text is read as. This
holds of the report of every run, as far as its weights fit. -/
theorem json_restored :
    (∀ r : Report, r.Fits → ofJson r.toJson = .ok r) ∧
      ∀ (corpus : Corpus) (config : AnalysisConfig) (a : Analysis),
        Analysis.run corpus config = .ok a → corpus.Fits →
        (∀ e ∈ a.report.rawEdges, e.weight < 2 ^ 32) →
        a.report.Fits ∧ ofJson a.report.toJson = .ok a.report := by
  refine ⟨fun r h => ofJson_toJson h, fun corpus config a h hc hw => ?_⟩
  have hfits : a.report.Fits := Analysis.fits_of_run h hc hw
  exact ⟨hfits, ofJson_toJson hfits⟩

/-- A report with the greatest id, weight and count, both reasons for a rejection, and
references with and without candidates. -/
def extremeReport : Report where
  summary := ⟨2, 1, (OrdMap.empty.insert .adapters 1).insert .entities 0, 0, 0, 2, 0, 2, ⟨2 ^ 64 - 1, 1, 1⟩, 1, 2, 0⟩
  groups := [⟨2 ^ 32 - 1, .adapters, "a \"b\"", .ofList ["é.c", "a.c"], 3, 1, true⟩]
  rawEdges := [⟨⟨0, 2 ^ 32 - 1⟩, 2 ^ 32 - 1⟩, ⟨⟨2 ^ 32 - 1, 0⟩, 1⟩]
  admittedEdges := []
  rejectedEdges := [⟨⟨0, 2 ^ 32 - 1⟩, 2 ^ 32 - 1, .layerIllegal .entities .adapters⟩,
    ⟨⟨2 ^ 32 - 1, 0⟩, 1, .cycleAvoidance [0, 2 ^ 32 - 1]⟩]
  unresolvedReferences := [⟨"a.c", "x.h", .notFound, []⟩, ⟨"a.c", "\n", .ambiguous, ["p/y.h", "q/y.h"]⟩]
  cycleReport := ⟨[.ofList [0, 2 ^ 32 - 1]], .ofList [⟨0, 2 ^ 32 - 1⟩, ⟨2 ^ 32 - 1, 0⟩]⟩

theorem fits_extremeReport : extremeReport.Fits where
  summary := by
    constructor
    case rejections => constructor <;> decide
    all_goals decide
  groups := List.forall_mem_singleton.2 ⟨by decide, by decide, by decide⟩
  rawEdges := by decide
  admittedEdges := List.forall_mem_nil _
  rejectedEdges := by decide
  cycleReport := ⟨by decide, by decide⟩

/-- The report is restored, and so is that of a run that rejects edges for either
reason. -/
theorem json_restored_extreme : ofJson extremeReport.toJson = .ok extremeReport ∧
    ∃ a, Analysis.run Analysis.sampleCorpus Analysis.sampleConfig = .ok a ∧
      a.report.summary.rejections = ⟨1, 2, 1⟩ ∧ ofJson a.report.toJson = .ok a.report := by
  have h : Analysis.run Analysis.sampleCorpus Analysis.sampleConfig =
      .ok (Analysis.build Analysis.sampleCorpus Analysis.sampleConfig _) := rfl
  have hrun := json_restored.2 _ _ _ h ⟨by decide +kernel, by decide +kernel, by decide +kernel⟩
    (by decide +kernel)
  exact ⟨json_restored.1 extremeReport fits_extremeReport, _, h, by decide +kernel, hrun.2⟩

end Report

end Layering
