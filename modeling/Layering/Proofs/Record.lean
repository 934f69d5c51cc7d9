import Layering.Data.RecordField
import Layering.Proofs.Collect
import Mathlib.Algebra.Ring.Nat
import Mathlib.Data.List.Nodup

/-!
# Reading back what was written

A decoder that reads back values of one type reads back lists of them (`Reads.list`),
and a record is read back from its mapping if its fields have different names and each
restores its part of the record, or is left out when the default stands for it
(`Schema.reads`). A value takes the room of the containers that it is written with, so
that records may hold each other.
-/

namespace Layering.Data

variable {α R : Type} {c : Carrier} {depth room : Nat}

/-- A decoder reads a value off a node in any room for `depth` levels of containers. -/
def Reads (c : Carrier) (depth : Nat) (read : Decoder α) (n : Node) (a : α) : Prop :=
  ∀ room, depth < room → read c room n = .ok a

theorem enter_of_lt (h : depth + 1 < room) : enter room = .ok (room - 1) := by
  rw [enter, if_neg (by omega)]

theorem decodeItems_map {item : Node → Except Mismatch α} {write : α → Node} {xs : List α}
    (h : ∀ x ∈ xs, item (write x) = .ok x) : decodeItems item (xs.map write) = .ok xs := by
  induction xs with
  | nil => rfl
  | cons x xs ih =>
    obtain ⟨hx, hxs⟩ := List.forall_mem_cons.1 h
    rw [List.map_cons, decodeItems, hx, ih hxs]
    rfl

namespace Reads

variable {read : Decoder α} {n : Node} {a : α}

theorem mono {depth' : Nat} (h : Reads c depth read n a) (hle : depth ≤ depth') :
    Reads c depth' read n a :=
  fun room hroom => h room (Nat.lt_of_le_of_lt hle hroom)

theorem map {β : Type} (f : α → β) (h : Reads c depth read n a) :
    Reads c depth (fun c room n => (read c room n).map f) n (f a) := by
  intro room hroom
  dsimp only
  rw [h room hroom]
  rfl

theorem text (s : String) : Reads c 0 decodeText (.text s) s := fun _ _ => rfl

theorem bool (b : Bool) : Reads c 0 decodeBool (.bool b) b := fun _ _ => rfl

/-- A number below `2 ^ bits` is read back. -/
theorem nat {bits k : Nat} (kind : String) (h : k < 2 ^ bits) :
    Reads c 0 (decodeNat bits kind) (.int k) k := by
  intro room _
  have hrange : 0 ≤ (k : Int) ∧ (k : Int) < Nat.pow 2 bits := ⟨Int.natCast_nonneg k, by exact_mod_cast h⟩
  simp only [decodeNat, if_pos hrange, Int.toNat_natCast]

/-- A variant that is given by its name alone is read back. -/
theorem variant {vs : List (Variant α)} {name : String}
    (h : Variant.byName vs name = .ok (.unit name a)) :
    Reads c 0 (decodeVariant vs) (.text name) a := by
  intro room _
  have halone : (do (← Variant.byName vs name).alone) = Except.ok a := by
    rw [h]
    rfl
  cases c <;> exact halone

/-- A list is read back if its items are. -/
theorem list {write : α → Node} {xs : List α} (h : ∀ x ∈ xs, Reads c depth read (write x) x) :
    Reads c (depth + 1) (decodeList read) (.ofList (xs.map write)) xs := by
  intro room hroom
  have hitems := decodeItems_map fun x hx => h x hx (room - 1) (by omega)
  have hitems? : (Node.ofList (xs.map write)).items? c = some (xs.map write, true) := rfl
  simp only [decodeList, hitems?, enter_of_lt hroom, bind, Except.bind, hitems]
  rfl

end Reads

/-! ## Records -/

/-- Reading the fields that were written for the record `r` leads to it from what the
fields before have led to. -/
inductive Restores (c : Carrier) (depth : Nat) (r : R) : List (RecordField R) → R → Prop
  | done : Restores c depth r [] r
  | written {f : RecordField R} {fs : List (RecordField R)} {s : R} {n : Node} {change : R → R}
    (hwrite : f.write r = some n) (hread : Reads c depth f.read n change)
    (hrest : Restores c depth r fs (change s)) : Restores c depth r (f :: fs) s
  | omitted {f : RecordField R} {fs : List (RecordField R)} {s : R} (hwrite : f.write r = none)
    (hrequired : f.required = false) (hrest : Restores c depth r fs s) :
    Restores c depth r (f :: fs) s

namespace Restores

variable {r s : R} {fs : List (RecordField R)}

/-- A field that holds a value restores it if the value is read back. -/
theorem ofLens {name : String} {required : Bool} {get : R → α} {set : α → R → R} {write : α → Node}
    {read : Decoder α} (hread : Reads c depth read (write (get r)) (get r))
    (hrest : Restores c depth r fs (set (get r) s)) :
    Restores c depth r (.ofLens name required get set write read :: fs) s :=
  .written rfl (hread.map set) hrest

variable {name : String} {required : Bool}

theorem text {get : R → String} {set : String → R → R}
    (hrest : Restores c depth r fs (set (get r) s)) :
    Restores c depth r (.text name required get set :: fs) s :=
  ofLens ((Reads.text _).mono (Nat.zero_le _)) hrest

theorem bool {get : R → Bool} {set : Bool → R → R}
    (hrest : Restores c depth r fs (set (get r) s)) :
    Restores c depth r (.bool name required get set :: fs) s :=
  ofLens ((Reads.bool _).mono (Nat.zero_le _)) hrest

theorem word {get : R → Nat} {set : Nat → R → R} (h : get r < 2 ^ 32)
    (hrest : Restores c depth r fs (set (get r) s)) :
    Restores c depth r (.word name required get set :: fs) s :=
  ofLens ((Reads.nat _ h).mono (Nat.zero_le _)) hrest

theorem count {get : R → Nat} {set : Nat → R → R} (h : get r < 2 ^ 64)
    (hrest : Restores c depth r fs (set (get r) s)) :
    Restores c depth r (.count name required get set :: fs) s :=
  ofLens ((Reads.nat _ h).mono (Nat.zero_le _)) hrest

theorem list {get : R → List α} {set : List α → R → R} {write : α → Node} {read : Decoder α}
    (hread : ∀ x ∈ get r, Reads c depth read (write x) x)
    (hrest : Restores c (depth + 1) r fs (set (get r) s)) :
    Restores c (depth + 1) r (.list name required get set write read :: fs) s :=
  ofLens (.list hread) hrest

theorem texts {get : R → List String} {set : List String → R → R}
    (hrest : Restores c (depth + 1) r fs (set (get r) s)) :
    Restores c (depth + 1) r (.texts name required get set :: fs) s :=
  list (fun t _ => (Reads.text t).mono (Nat.zero_le _)) hrest

end Restores

namespace Schema

variable {s : Schema R} {r t : R} {fs : List (RecordField R)} {seen : List String}

/-- The entries that are written for some fields of a record. -/
def entriesOf (fs : List (RecordField R)) (r : R) : List (Node × Node) :=
  (fs.filterMap fun f => (f.write r).map fun n => (f.name, n)).map fun e => (.text e.1, e.2)

theorem fieldOf_text (hnames : (s.fields.map RecordField.name).Nodup) {f : RecordField R}
    (hf : f ∈ s.fields) : s.fieldOf c (.text f.name) = .ok (some f) := by
  have hfind : s.fields.find? (·.name == f.name) = some f :=
    find?_eq_some_of_unique hf (beq_self_eq_true _) fun g hg hname =>
      List.inj_on_of_nodup_map hnames hg hf (eq_of_beq hname)
  exact congrArg Except.ok hfind

/-- Reading the entries of some fields restores the record and sees all of the fields
that it needs. -/
theorem readEntries_of_restores (hnames : (s.fields.map RecordField.name).Nodup)
    (h : Restores c depth r fs t) (hroom : depth < room) (hfs : ∀ f ∈ fs, f ∈ s.fields)
    (hnodup : (fs.map RecordField.name).Nodup) (hseen : ∀ f ∈ fs, f.name ∉ seen) :
    ∃ seen', s.readEntries c room (entriesOf fs r) seen t = .ok (seen', r) ∧
      (∀ x ∈ seen, x ∈ seen') ∧ ∀ f ∈ fs, f.required → f.name ∈ seen' := by
  induction h generalizing seen with
  | done => exact ⟨seen, rfl, fun _ => id, by simp⟩
  | @written f fs t n change hwrite hread hrest ih =>
    obtain ⟨hf, hfs⟩ := List.forall_mem_cons.1 hfs
    obtain ⟨hfseen, hseen⟩ := List.forall_mem_cons.1 hseen
    obtain ⟨hnew, hnodup⟩ := List.nodup_cons.1 hnodup
    -- The fields still to come have other names than this one.
    have hseen' : ∀ g ∈ fs, g.name ∉ f.name :: seen := fun g hg hmem => by
      rcases List.mem_cons.1 hmem with hname | hmem
      · exact hnew (hname ▸ List.mem_map_of_mem hg)
      · exact hseen g hg hmem
    obtain ⟨seen', hentries, hold, hrequired⟩ := ih hfs hnodup hseen'
    refine ⟨seen', ?_, fun x hx => hold x (List.mem_cons_of_mem _ hx),
      List.forall_mem_cons.2 ⟨fun _ => hold _ (List.mem_cons_self ..), hrequired⟩⟩
    have hcons : entriesOf (f :: fs) r = (.text f.name, n) :: entriesOf fs r := by
      rw [entriesOf, List.filterMap_cons, hwrite]
      rfl
    rw [hcons, readEntries, fieldOf_text hnames hf]
    simp only [bind, Except.bind, if_neg hfseen, hread room hroom]
    exact hentries
  | @omitted f fs t hwrite hrequired hrest ih =>
    obtain ⟨-, hfs⟩ := List.forall_mem_cons.1 hfs
    obtain ⟨-, hseen⟩ := List.forall_mem_cons.1 hseen
    obtain ⟨seen', hentries, hold, hfields⟩ := ih hfs (List.nodup_cons.1 hnodup).2 hseen
    have hcons : entriesOf (f :: fs) r = entriesOf fs r := by
      rw [entriesOf, List.filterMap_cons, hwrite]
      rfl
    rw [hcons]
    refine ⟨seen', hentries, hold, List.forall_mem_cons.2 ⟨fun h => ?_, hfields⟩⟩
    rw [hrequired] at h
    cases h

theorem requireFields_of_seen (h : ∀ f ∈ s.fields, f.required → f.name ∈ seen) :
    s.requireFields seen = .ok () := by
  have hfind : s.fields.find? (fun f => f.required && !(f.name ∈ seen)) = none := by
    refine List.find?_eq_none.2 fun f hf hmissing => ?_
    simp only [Bool.and_eq_true, Bool.not_eq_true', decide_eq_false_iff_not] at hmissing
    exact hmissing.2 (h f hf hmissing.1)
  rw [requireFields, hfind]

/-- A record is read back from its entries. -/
theorem readMap_of_restores (hnames : (s.fields.map RecordField.name).Nodup)
    (h : Restores c depth r s.fields s.initial) (hroom : depth < room) :
    s.readMap c room (entriesOf s.fields r) true = .ok r := by
  have hseen : ∀ f ∈ s.fields, f.name ∉ [] := fun _ _ => List.not_mem_nil
  obtain ⟨seen, hentries, -, hrequired⟩ := readEntries_of_restores hnames h hroom (fun _ => id)
    hnames hseen
  simp only [readMap, bind, Except.bind, hentries, requireFields_of_seen hrequired]
  rfl

/-- A record is read back from the mapping that was written for it. -/
theorem reads (hnames : (s.fields.map RecordField.name).Nodup)
    (h : Restores c depth r s.fields s.initial) : Reads c (depth + 1) s.read (s.write r) r := by
  intro room hroom
  have hentries? : (s.write r).entries? c = some (entriesOf s.fields r, true) := rfl
  simp only [read, hentries?, enter_of_lt hroom, bind, Except.bind]
  exact readMap_of_restores hnames h (by omega)

end Schema

end Layering.Data
