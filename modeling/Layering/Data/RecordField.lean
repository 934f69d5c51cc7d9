import Layering.Data.Decode

/-!
# Fields of common types

Records are built from fields that hold texts, truth values, numbers, lists and
other records. Each field here knows how its value is written and read.
-/

namespace Layering.Data.RecordField

variable {R : Type}

/-- A field that holds a text. -/
def text (name : String) (required : Bool) (get : R → String) (set : String → R → R) : RecordField R :=
  ofLens name required get set .text decodeText

/-- A field that holds a truth value. -/
def bool (name : String) (required : Bool) (get : R → Bool) (set : Bool → R → R) : RecordField R :=
  ofLens name required get set .bool decodeBool

/-- A field that holds a number below `2 ^ 32`. -/
def word (name : String) (required : Bool) (get : R → Nat) (set : Nat → R → R) : RecordField R :=
  ofLens name required get set (fun n => .int n) decodeWord

/-- A field that holds a count. -/
def count (name : String) (required : Bool) (get : R → Nat) (set : Nat → R → R) : RecordField R :=
  ofLens name required get set (fun n => .int n) decodeCount

/-- A field that holds a list. -/
def list {α : Type} (name : String) (required : Bool) (get : R → List α) (set : List α → R → R)
    (write : α → Node) (read : Decoder α) : RecordField R :=
  ofLens name required get set (fun xs => .ofList (xs.map write)) (decodeList read)

/-- A field that holds a list of texts. -/
def texts (name : String) (required : Bool) (get : R → List String)
    (set : List String → R → R) : RecordField R :=
  list name required get set .text decodeText

/-- A field that holds a record. -/
def record {S : Type} (name : String) (required : Bool) (get : R → S) (set : S → R → R)
    (schema : Schema S) : RecordField R :=
  ofLens name required get set schema.write schema.read

end Layering.Data.RecordField
