import Layering.Data.Scalar

/-!
# Reading values from documents

A decoder reads a value of some type off a node. The notations differ in details:
which scalars a type accepts, what is wrong with a surplus item, what a variant
looks like. A `Carrier` names the form in which a node has reached the decoder,
and the differences are settled here, once for every type.
-/

namespace Layering.Data

/-- The form in which a node reaches a decoder. -/
inductive Carrier
  /-- While a JSON text is read, from left to right. -/
  | text
  /-- In a JSON value that has been read as a whole. -/
  | value
  /-- In entries set aside until the fields of their own have been read. -/
  | buffered
  | toml
  | yaml
  deriving DecidableEq

/-- Reads a value off a node that may open `room - 1` more levels of containers. -/
abbrev Decoder (α : Type) := Carrier → (room : Nat) → Node → Except Mismatch α

/-- The deepest room: containers nest up to 127 levels. -/
def fullRoom : Nat := 128

/-- The room inside a container. -/
def enter (room : Nat) : Except Mismatch Nat :=
  if room ≤ 1 then .error .malformed else .ok (room - 1)

namespace Node

/-- The text of a scalar, where a text is expected. -/
def text? (c : Carrier) : Node → Option String
  | text s => some s
  | plain s => if c = .yaml then some s else none
  | tagged _ (text s) => if c = .yaml then some s else none
  | tagged _ (plain s) => if c = .yaml then some s else none
  | _ => none

/-- The scalar without quotes, in a notation that has them. -/
def plain? (c : Carrier) : Node → Option String
  | plain s => if c = .yaml then some s else none
  | tagged _ (plain s) => if c = .yaml then some s else none
  | _ => none

/-- The items of a sequence, and whether they are all there. Nothing at all is an
empty sequence. -/
def items? (c : Carrier) : Node → Option (List Node × Bool)
  | list items whole => some (items, whole)
  | tagged _ (list items whole) => if c = .yaml then some (items, whole) else none
  | n => if n.plain? c = some "" then some ([], true) else none

/-- The entries of a mapping, and whether they are all there. Nothing at all is
an empty mapping. -/
def entries? (c : Carrier) : Node → Option (List (Node × Node) × Bool)
  | map entries whole => some (entries, whole)
  | tagged _ (map entries whole) => if c = .yaml then some (entries, whole) else none
  | n => if n.plain? c = some "" then some ([], true) else none

/-- Passes over a node without reading it. -/
def skip : Node → Except Mismatch Unit
  | broken | list _ false | map _ false => .error .malformed
  | _ => .ok ()

end Node

/-- Refuses what breaks off. -/
def requireWhole (whole : Bool) : Except Mismatch Unit :=
  if whole then .ok () else .error .malformed

/-! ## Scalars -/

/-- Reads a text. -/
def decodeText : Decoder String := fun c _ n =>
  match n.text? c with
  | some s => .ok s
  | none => .error (n.mismatch "a string")

/-- Reads a truth value. -/
def decodeBool : Decoder Bool := fun c _ n =>
  match n with
  | .bool b => .ok b
  | _ =>
    match (n.plain? c).bind Scalar.bool? with
    | some b => .ok b
    | none => .error (n.mismatch "a boolean")

/-- Reads a natural number below `2 ^ bits`, known by the name of its kind. -/
def decodeNat (bits : Nat) (kind : String) : Decoder Nat := fun c _ n =>
  match n with
  | .int k =>
    if 0 ≤ k ∧ k < Nat.pow 2 bits then .ok k.toNat
    else .error (.invalidValue n.describe kind)
  | _ =>
    match (n.plain? c).bind Scalar.nat? with
    | some k => if k < Nat.pow 2 bits then .ok k else .error (.invalidValue n.describe kind)
    | none => .error (n.mismatch kind)

/-- Reads a 32-bit word. -/
def decodeWord : Decoder Nat := decodeNat 32 "u32"

/-- Reads a count. -/
def decodeCount : Decoder Nat := decodeNat 64 "usize"

/-! ## Sequences -/

/-- Reads items in order up to the first mismatch. -/
def decodeItems {α : Type} (item : Node → Except Mismatch α) : List Node → Except Mismatch (List α)
  | [] => .ok []
  | n :: l => do
    let x ← item n
    let xs ← decodeItems item l
    return x :: xs

/-- Reads a sequence. -/
def decodeList {α : Type} (item : Decoder α) : Decoder (List α) := fun c room n =>
  match n.items? c with
  | some (items, whole) => do
    let room ← enter room
    let xs ← decodeItems (item c room) items
    requireWhole whole
    return xs
  | none => .error (n.mismatch "a sequence")

/-! ## Variants -/

/-- A variant of a type: its name, and its value or how to read what it holds. -/
inductive Variant (α : Type)
  | unit (name : String) (value : α)
  | holding (name : String) (read : Decoder α)

namespace Variant

variable {α : Type}

/-- The name of a variant. -/
def name : Variant α → String
  | unit name _ => name
  | holding name _ => name

/-- The variant of a name. -/
def byName (vs : List (Variant α)) (s : String) : Except Mismatch (Variant α) :=
  match vs.find? (·.name == s) with
  | some v => .ok v
  | none => .error (.unknownVariant s (vs.map name))

/-- The variant that a key selects. Keys of entries that were set aside may be
positions. -/
def byKey (vs : List (Variant α)) (c : Carrier) (key : Node) : Except Mismatch (Variant α) :=
  match key, c with
  | .text s, _ => byName vs s
  | .int k, .buffered =>
    if k < 0 then .error (key.mismatch "variant identifier")
    else
      match vs[k.toNat]? with
      | some v => .ok v
      | none => .error (.invalidValue key.describe s!"variant index 0 <= i < {vs.length}")
  | _, _ => .error (key.mismatch "variant identifier")

/-- The value of a variant that is given by its name alone. -/
def alone : Variant α → Except Mismatch α
  | unit _ a => .ok a
  | holding _ _ => .error (.invalidType "unit variant" "newtype variant")

/-- Whether a node stands for "nothing is held". -/
def holdsNothing (c : Carrier) (n : Node) : Bool :=
  match c, n with
  | .toml, .map [] _ | .toml, .list [] _ => true
  | .toml, _ => false
  | .yaml, .plain s => Scalar.isNull s
  | .yaml, _ => false
  | .buffered, .map [] _ => true
  | _, .null => true
  | _, _ => false

/-- The value of a variant that comes with a node. -/
def holdingNode (v : Variant α) (c : Carrier) (room : Nat) (n : Node) : Except Mismatch α :=
  match v with
  | unit _ a => if holdsNothing c n then .ok a else .error (n.mismatch "unit")
  | holding _ read => read c room n

end Variant

/-- Reads one of some variants: a name, or a mapping from a name to what the
variant holds. -/
def decodeVariant {α : Type} (vs : List (Variant α)) : Decoder α := fun c room n =>
  match c with
  | .text =>
    match n with
    | .text s => do (← Variant.byName vs s).alone
    | .map ((key, held) :: rest) whole => do
      let room ← enter room
      let a ← (← Variant.byKey vs c key).holdingNode c room held
      requireWhole (whole && rest.isEmpty)
      return a
    | _ => .error .malformed
  | .yaml =>
    match n with
    | .tagged tag held =>
      match tag.toList, held.text? .yaml with
      | '!' :: name, _ => do
        (← Variant.byName vs (String.ofList name)).holdingNode c room held
      | _, some s => do (← Variant.byName vs s).alone
      | _, none => .error (n.mismatch "a tag")
    | _ =>
      match n.text? .yaml with
      | some s => do (← Variant.byName vs s).alone
      | none => .error (n.mismatch "a tag")
  | _ =>
    match n with
    | .text s => do (← Variant.byName vs s).alone
    | .map [(key, held)] _ => do
      let room ← enter room
      (← Variant.byKey vs c key).holdingNode c room held
    | .map _ _ => .error (.invalidValue "map" "map with a single key")
    | _ => .error (n.mismatch "string or map")

/-! ## Entries set aside -/

/-- What a scalar with the tag of a kind stands for. -/
def taggedScalar (tag s : String) : Except Mismatch Node :=
  let wanted : Node → Bool := fun n =>
    match tag, n with
    | "tag:yaml.org,2002:null", .null => true
    | "tag:yaml.org,2002:bool", .bool _ => true
    | "tag:yaml.org,2002:int", .int _ => true
    | "tag:yaml.org,2002:float", .float _ => true
    | "tag:yaml.org,2002:float", .int _ => true
    | _, _ => false
  let kinds := ["null", "bool", "int", "float"].map ("tag:yaml.org,2002:" ++ ·)
  if kinds.contains tag then
    if wanted (Scalar.value s) then .ok (Scalar.value s) else .error .malformed
  else .ok (.text s)

/-- A scalar that stands for a value. -/
def valued : Node → Except Mismatch Node
  | .unvalued => .error .malformed
  | n => .ok n

mutual

/-- Sets a node aside: reads it as far as its notation fixes its type. -/
def buffer (c : Carrier) (room : Nat) : Node → Except Mismatch Node
  | .broken => .error .malformed
  | .unvalued => .error .malformed
  | .list items whole => do
    let room ← enter room
    let items ← bufferItems c room items
    requireWhole whole
    return .list items true
  | .map entries whole => do
    let room ← enter room
    let entries ← bufferEntries c room entries
    requireWhole whole
    return .map entries true
  | .plain s => valued (Scalar.value s)
  | .tagged tag n =>
    if "!".toList.isPrefixOf tag.toList then .error .malformed
    else
      match n with
      | .plain s => taggedScalar tag s
      | .text s => taggedScalar tag s
      | n => buffer c room n
  | n => .ok n

/-- Sets the items of a sequence aside. -/
def bufferItems (c : Carrier) (room : Nat) : List Node → Except Mismatch (List Node)
  | [] => .ok []
  | n :: l => do
    let n ← buffer c room n
    let l ← bufferItems c room l
    return n :: l

/-- Sets the entries of a mapping aside. -/
def bufferEntries (c : Carrier) (room : Nat) :
    List (Node × Node) → Except Mismatch (List (Node × Node))
  | [] => .ok []
  | (k, v) :: l => do
    let k ← buffer c room k
    let v ← buffer c room v
    let l ← bufferEntries c room l
    return (k, v) :: l

end

/-! ## Records -/

/-- A field of a record: how to write it (`none` where it is left out), and what
a node does to the record. -/
structure RecordField (R : Type) where
  name : String
  required : Bool
  write : R → Option Node
  read : Carrier → (room : Nat) → Node → Except Mismatch (R → R)

/-- A field with a way to get and set it. -/
def RecordField.ofLens {R α : Type} (name : String) (required : Bool) (get : R → α) (set : α → R → R)
    (write : α → Node) (read : Decoder α) : RecordField R where
  name := name
  required := required
  write := fun r => some (write (get r))
  read := fun c room n => (read c room n).map set

/-- A record type in documents: its name, its fields in order, and the record
with every field at its default. -/
structure Schema (R : Type) where
  name : String
  fields : List (RecordField R)
  initial : R

namespace Schema

variable {R : Type}

/-- A record as a mapping. -/
def write (s : Schema R) (r : R) : Node :=
  .ofFields (s.fields.filterMap fun f => (f.write r).map fun n => (f.name, n))

/-- What a record is called where something else stands. -/
def kind (s : Schema R) : String := "struct " ++ s.name

/-- The field that a key names. The keys of mappings that were set aside may
also be positions. -/
def fieldOf (s : Schema R) (c : Carrier) (key : Node) : Except Mismatch (Option (RecordField R)) :=
  match key.text? c with
  | some k => .ok (s.fields.find? (·.name == k))
  | none =>
    match c, key with
    | .buffered, .int k =>
      if 0 ≤ k then .ok s.fields[k.toNat]? else .error (key.mismatch "field identifier")
    | .buffered, _ => .error (key.mismatch "field identifier")
    | _, _ => .error .malformed

/-- Reads the entries of a mapping one after the other into a record. `seen` are
the fields read before; unknown keys are passed over. -/
def readEntries (s : Schema R) (c : Carrier) (room : Nat) :
    List (Node × Node) → (seen : List String) → R → Except Mismatch (List String × R)
  | [], seen, r => .ok (seen, r)
  | (key, n) :: l, seen, r => do
    match ← s.fieldOf c key with
    | some f =>
      if f.name ∈ seen then throw (.duplicateField f.name)
      let change ← f.read c room n
      readEntries s c room l (f.name :: seen) (change r)
    | none => do
      n.skip
      readEntries s c room l seen r

/-- Refuses a record that lacks a required field. -/
def requireFields (s : Schema R) (seen : List String) : Except Mismatch Unit :=
  match s.fields.find? fun f => f.required && !(f.name ∈ seen) with
  | some f => .error (.missingField f.name)
  | none => .ok ()

/-- Reads a mapping. -/
def readMap (s : Schema R) (c : Carrier) (room : Nat) (entries : List (Node × Node)) (whole : Bool) :
    Except Mismatch R := do
  let (seen, r) ← s.readEntries c room entries [] s.initial
  requireWhole whole
  s.requireFields seen
  return r

/-- How many fields a record has, in words. -/
def arity (s : Schema R) : String :=
  s.kind ++ " with " ++ toString s.fields.length ++
    (if s.fields.length = 1 then " element" else " elements")

/-- Reads the fields of a record by position, the first of them standing at
position `i`. Fields with a default may be missing at the end. -/
def readPositions (s : Schema R) (c : Carrier) (room : Nat) (whole : Bool) :
    (i : Nat) → List (RecordField R) → List Node → R → Except Mismatch R
  | _, [], rest, r => do
    match c, rest with
    | .toml, _ => return r
    | _, [] => do
      requireWhole whole
      return r
    | .value, _ =>
      throw (.invalidLength (s.fields.length + rest.length) "fewer elements in array")
    | .buffered, _ =>
      let n := s.fields.length
      throw (.invalidLength (n + rest.length)
        (toString n ++ (if n = 1 then " element" else " elements") ++ " in sequence"))
    | _, _ => throw .malformed
  | i, f :: fs, [], r => do
    requireWhole whole
    if f.required then throw (.invalidLength i s.arity)
    readPositions s c room whole (i + 1) fs [] r
  | i, f :: fs, n :: rest, r => do
    let change ← f.read c room n
    readPositions s c room whole (i + 1) fs rest (change r)

/-- Reads a record from a mapping, or from a sequence of its fields in order. -/
def read (s : Schema R) : Decoder R := fun c room n =>
  match n.entries? c, n.items? c with
  | some (entries, whole), _ => do s.readMap c (← enter room) entries whole
  | none, some (items, whole) => do
    let room ← enter room
    s.readPositions c room whole 0 s.fields items s.initial
  | none, none => .error (n.mismatch s.kind)

/-! ### Records with parts spliced in -/

/-- Reads the fields of a record's own; all other entries are set aside. -/
def readOwn (s : Schema R) (c : Carrier) (room : Nat) :
    List (Node × Node) → (seen : List String) → (aside : List (Node × Node)) → R →
      Except Mismatch (List String × List (Node × Node) × R)
  | [], seen, aside, r => .ok (seen, aside.reverse, r)
  | (key, n) :: l, seen, aside, r => do
    match key.text? c with
    | none => throw (if c = .text then .malformed else key.mismatch "field identifier")
    | some k =>
      match s.fields.find? (·.name == k) with
      | some f => do
        if f.name ∈ seen then throw (.duplicateField f.name)
        let change ← f.read c room n
        readOwn s c room l (f.name :: seen) aside (change r)
      | none => do
        let n ← buffer c room n
        readOwn s c room l seen ((.text k, n) :: aside) r

/-- Reads a record whose mapping also holds the fields of its parts: the record's
own fields, and the entries set aside for the parts. -/
def readSpliced (s : Schema R) (c : Carrier) (room : Nat) (n : Node) :
    Except Mismatch (R × List (Node × Node)) :=
  match n.entries? c with
  | some (entries, whole) => do
    let room ← enter room
    let (seen, aside, r) ← s.readOwn c room entries [] [] s.initial
    requireWhole whole
    s.requireFields seen
    return (r, aside)
  | none => .error (n.mismatch s.kind)

/-- Whether an entry that was set aside belongs to a part. -/
def owns (s : Schema R) (e : Node × Node) : Bool :=
  s.fields.any fun f => e.1.text? .buffered == some f.name

/-- Reads a part of a record from the entries set aside. -/
def readPart (s : Schema R) (room : Nat) (aside : List (Node × Node)) : Except Mismatch R :=
  s.readMap .buffered (room - 1) (aside.filter s.owns) true

/-- The entries that a part leaves. -/
def without (s : Schema R) (aside : List (Node × Node)) : List (Node × Node) :=
  aside.filter (!s.owns ·)

end Schema

/-! ## Mappings -/

/-- Reads a mapping as its entries in order. -/
def decodeEntries {κ β : Type} (key : Decoder κ) (value : Decoder β) : Decoder (List (κ × β)) :=
  fun c room n =>
    match n.entries? c with
    | some (entries, whole) => do
      let room ← enter room
      let es ← entries.mapM fun (k, v) => do
        if c = .text ∧ k.text? c = none then throw .malformed
        return (← key c room k, ← value c room v)
      requireWhole whole
      return es
    | none => .error (n.mismatch "a map")

end Layering.Data
