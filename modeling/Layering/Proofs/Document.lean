import Layering.Corpus.Document
import Layering.Proofs.Json.Value
import Layering.Proofs.Record

/-!
# Corpora in JSON

The JSON text of a corpus holds exactly that corpus, whatever characters are in its
paths, names and references, and in the order that it has (`Corpus.ofJson_append`). So
writing and reading units changes nothing in how they are accepted
(`Corpus.json_lossless`).
-/

namespace Layering

open Data

/-! ## Records in JSON -/

namespace Data

variable {α R : Type} {r : R} {name : String} {required : Bool}

theorem Json.Faithful.list {write : α → Node} {xs : List α} (h : ∀ x ∈ xs, Faithful (write x)) :
    Faithful (.ofList (xs.map write)) :=
  .ofList (List.forall_mem_map.2 h)

namespace RecordField

/-- What a field writes for a record, JSON holds. -/
def Faithful (f : RecordField R) (r : R) : Prop := ∀ n, f.write r = some n → Json.Faithful n

theorem faithful_ofLens {get : R → α} {set : α → R → R} {write : α → Node} {read : Decoder α}
    (h : Json.Faithful (write (get r))) : (ofLens name required get set write read).Faithful r :=
  fun _ hn => Option.some_inj.1 hn ▸ h

@[simp] theorem faithful_text (get : R → String) (set : String → R → R) :
    (text name required get set).Faithful r := faithful_ofLens (.text _)

@[simp] theorem faithful_bool (get : R → Bool) (set : Bool → R → R) :
    (bool name required get set).Faithful r := faithful_ofLens (.bool _)

theorem faithful_list {get : R → List α} {set : List α → R → R} {write : α → Node}
    {read : Decoder α} (h : ∀ x ∈ get r, Json.Faithful (write x)) :
    (list name required get set write read).Faithful r := faithful_ofLens (.list h)

@[simp] theorem faithful_texts (get : R → List String) (set : List String → R → R) :
    (texts name required get set).Faithful r := faithful_list fun t _ => .text t

end RecordField

/-- JSON holds a record if it holds what the fields write. -/
theorem Schema.faithful_write {s : Schema R} (h : ∀ f ∈ s.fields, f.Faithful r) :
    Json.Faithful (s.write r) := by
  refine .ofFields fun e he => ?_
  obtain ⟨f, hf, he⟩ := List.mem_filterMap.1 he
  obtain ⟨n, hn, rfl⟩ := Option.map_eq_some_iff.1 he
  exact h f hf n hn

end Data

/-! ## Units and corpora -/

variable {c : Carrier}

namespace Symbol

theorem faithful_write (s : Symbol) : Json.Faithful (schema.write s) :=
  Schema.faithful_write (by simp [schema])

theorem reads (s : Symbol) : Reads c 1 schema.read (schema.write s) s :=
  Schema.reads (by decide) (.text (.bool .done))

end Symbol

namespace SourceUnit

theorem faithful_write (u : SourceUnit) : Json.Faithful (schema.write u) := by
  have hcalled : ∀ n, (if u.externallyCalled then some (Node.bool true) else none) = some n →
      Json.Faithful n := fun n hn => by
    split at hn
    · exact Option.some_inj.1 hn ▸ .bool true
    · cases hn
  refine Schema.faithful_write ?_
  simp only [schema, List.forall_mem_cons, RecordField.faithful_text, RecordField.faithful_texts,
    RecordField.faithful_list fun s _ => Symbol.faithful_write s, true_and]
  exact ⟨hcalled, List.forall_mem_nil _⟩

/-- A unit is read back, also where it leaves out that it is not called from outside. -/
theorem reads (u : SourceUnit) : Reads c 3 schema.read (schema.write u) u := by
  refine Schema.reads (by decide) (.text (.list (fun s _ => s.reads) (.texts ?_)))
  obtain ⟨path, symbols, references, externallyCalled⟩ := u
  cases externallyCalled
  · exact .omitted rfl rfl .done
  · exact .written rfl (((Reads.bool true).mono (Nat.zero_le 2)).map _) .done

end SourceUnit

namespace Corpus

theorem faithful_unitsNode (us : List SourceUnit) : Json.Faithful (unitsNode us) :=
  .list fun u _ => u.faithful_write

theorem reads_unitsNode (us : List SourceUnit) :
    Reads c 4 (decodeList SourceUnit.schema.read) (unitsNode us) us :=
  .list fun u _ => u.reads

/-- The JSON text of some units, with blanks after it, is read as these units. -/
theorem unitsOfJson_append (us : List SourceUnit) {blanks : String}
    (hb : ∀ b ∈ blanks.toList, Json.isSpace b) :
    unitsOfJson (Json.pretty (unitsNode us) ++ blanks) = .ok us := by
  rw [unitsOfJson, Json.decode_pretty _ (faithful_unitsNode us) hb,
    reads_unitsNode us fullRoom (by decide)]

/-- The JSON text of a corpus, with blanks after it, is read as that corpus. -/
theorem ofJson_append (c : Corpus) {blanks : String} (hb : ∀ b ∈ blanks.toList, Json.isSpace b) :
    ofJson (c.toJson ++ blanks) = .ok c := by
  rw [ofJson, toJson, unitsOfJson_append c.units hb]
  exact ofUnits_eq_ok_iff.2 rfl

/-- Units in JSON are accepted or refused as they are without: the JSON text of a
corpus is read as a corpus with the same units in the same order, so with the same
ids, whose JSON text is the same again. -/
theorem json_lossless (us : List SourceUnit) :
    ofJson (Json.pretty (unitsNode us)) = ofUnits us ∧
      ∀ c, ofUnits us = .ok c → ∃ d, ofJson c.toJson = .ok d ∧ d.units = us ∧
        (∀ path, d.idOf? path = c.idOf? path) ∧ d.toJson = c.toJson := by
  have hblanks : ∀ b ∈ "".toList, Json.isSpace b := List.forall_mem_nil _
  refine ⟨?_, fun c hc => ?_⟩
  · have hunits := unitsOfJson_append us hblanks
    rw [String.append_empty] at hunits
    rw [ofJson, hunits]
    rfl
  · have hread := c.ofJson_append hblanks
    rw [String.append_empty] at hread
    exact ⟨c, hread, ofUnits_eq_ok_iff.1 hc, fun _ => rfl, rfl⟩

/-- Two units whose texts hold quotation marks, a backslash, control characters and
a replacement character. -/
def escapedUnits : List SourceUnit := [
  ⟨"a\"b\\.c", [⟨"\t\x01", true⟩, ⟨"é", false⟩], ["<x\n.h>", "\uFFFD"], true⟩,
  ⟨"\x7f.h", [], [], false⟩]

/-- The two units, written and read, are the corpus that they were. -/
theorem json_lossless_escaped : ∃ c, ofUnits escapedUnits = .ok c ∧
    ∃ d, ofJson c.toJson = .ok d ∧ d.units = escapedUnits ∧
      (∀ path, d.idOf? path = c.idOf? path) ∧ d.toJson = c.toJson := by
  have hc : ofUnits escapedUnits = .ok ⟨escapedUnits, by decide +kernel⟩ :=
    ofUnits_eq_ok_iff.2 rfl
  exact ⟨_, hc, (json_lossless escapedUnits).2 _ hc⟩

end Corpus

end Layering
