import Layering.Proofs.Record

/-!
# How deep documents nest

A reader of JSON gives up where containers nest too deep. So a value is read back from its
document in the rooms that hold all levels of the document, and in the smaller ones the text
is refused as malformed (`ReadsUpTo`). This holds of sequences (`ReadsUpTo.list`), variants
(`ReadsUpTo.holding`) and records (`Schema.readsUpTo`) if it holds of what they are made of.
-/

namespace Layering.Data

variable {α R : Type} {limit room : Nat}

/-! ## Levels -/

mutual

/-- How many containers stand inside one another in a node. -/
def Node.levels : Node → Nat
  | .list items _ => levelsOfItems items + 1
  | .map entries _ => levelsOfEntries entries + 1
  | .tagged _ n => n.levels
  | _ => 0

/-- The most levels that one of some items has. -/
def levelsOfItems : List Node → Nat
  | [] => 0
  | n :: l => max n.levels (levelsOfItems l)

/-- The most levels that one of some keys and values has. -/
def levelsOfEntries : List (Node × Node) → Nat
  | [] => 0
  | (k, n) :: l => max (max k.levels n.levels) (levelsOfEntries l)

end

theorem levels_ofList (items : List Node) :
    (Node.ofList items).levels = levelsOfItems items + 1 := rfl

theorem le_levelsOfItems {n : Node} {items : List Node} (h : n ∈ items) :
    n.levels ≤ levelsOfItems items := by
  induction items with
  | nil => cases h
  | cons m items ih =>
    rw [levelsOfItems]
    rcases List.mem_cons.1 h with rfl | h
    · exact Nat.le_max_left ..
    · exact Nat.le_trans (ih h) (Nat.le_max_right ..)

theorem levelsOfEntries_cons_text (k : String) (n : Node) (l : List (Node × Node)) :
    levelsOfEntries ((.text k, n) :: l) = max n.levels (levelsOfEntries l) := by
  have hk : (Node.text k).levels = 0 := rfl
  rw [levelsOfEntries, hk, Nat.zero_max]

theorem levels_ofFields_singleton (k : String) (n : Node) :
    (Node.ofFields [(k, n)]).levels = n.levels + 1 := by
  have hentries : (Node.ofFields [(k, n)]).levels = levelsOfEntries [(.text k, n)] + 1 := rfl
  rw [hentries, levelsOfEntries_cons_text, levelsOfEntries, Nat.max_zero]

/-! ## Rooms that are too small -/

/-- Up to a limit, a decoder reads a value off a node in every room for the levels of the
node, and refuses the node as malformed in smaller rooms. -/
structure ReadsUpTo (limit : Nat) (read : Decoder α) (n : Node) (a : α) : Prop where
  fits : n.levels < limit → Reads .text n.levels read n a
  tooDeep : ∀ room, 0 < room → room ≤ n.levels → room ≤ limit →
    read .text room n = .error .malformed

theorem enter_of_le_one (h : room ≤ 1) : enter room = .error .malformed := if_pos h

namespace ReadsUpTo

variable {read : Decoder α} {n : Node} {a : α}

/-- What has no levels is read in every room. -/
theorem of_reads (h : Reads .text 0 read n a) (hn : n.levels = 0) : ReadsUpTo limit read n a where
  fits _ := hn ▸ h
  tooDeep room hroom hle _ := by omega

theorem map {β : Type} (f : α → β) (h : ReadsUpTo limit read n a) :
    ReadsUpTo limit (fun c room n => (read c room n).map f) n (f a) where
  fits hn := (h.fits hn).map f
  tooDeep room hroom hle hlimit := by
    rw [h.tooDeep room hroom hle hlimit]
    rfl

/-- The first item that is too deep for a room is where the reading ends. -/
theorem decodeItems_tooDeep {write : α → Node} {xs : List α}
    (h : ∀ x ∈ xs, ReadsUpTo limit read (write x) x) (hroom : 0 < room)
    (hdeep : room ≤ levelsOfItems (xs.map write)) (hlimit : room ≤ limit) :
    decodeItems (read .text room) (xs.map write) = .error .malformed := by
  induction xs with
  | nil => exact absurd hdeep (Nat.not_le.2 hroom)
  | cons x xs ih =>
    obtain ⟨hx, hxs⟩ := List.forall_mem_cons.1 h
    rw [List.map_cons, levelsOfItems] at hdeep
    rw [List.map_cons, decodeItems]
    by_cases hn : room ≤ (write x).levels
    · rw [hx.tooDeep room hroom hn hlimit]
      rfl
    · rw [hx.fits (by omega) room (by omega), ih hxs (by omega)]
      rfl

/-- A list takes one level more than its items. -/
theorem list {write : α → Node} {xs : List α} (h : ∀ x ∈ xs, ReadsUpTo limit read (write x) x) :
    ReadsUpTo limit (decodeList read) (.ofList (xs.map write)) xs where
  fits hn := by
    rw [levels_ofList] at hn ⊢
    refine Reads.list fun x hx => ?_
    have hle := le_levelsOfItems (List.mem_map_of_mem (f := write) hx)
    exact ((h x hx).fits (by omega)).mono hle
  tooDeep room hroom hle hlimit := by
    have hitems? : (Node.ofList (xs.map write)).items? .text = some (xs.map write, true) := rfl
    rw [levels_ofList] at hle
    simp only [decodeList, hitems?]
    by_cases hone : room ≤ 1
    · rw [enter_of_le_one hone]
      rfl
    · have hitems := decodeItems_tooDeep h (show 0 < room - 1 by omega) (by omega) (by omega)
      simp only [enter_of_lt (show 0 + 1 < room by omega), bind, Except.bind, hitems]

/-- A variant takes one level more than what it holds. -/
theorem holding {vs : List (Variant α)} {name : String}
    (hname : Variant.byName vs name = .ok (.holding name read)) (h : ReadsUpTo limit read n a) :
    ReadsUpTo (limit + 1) (decodeVariant vs) (.ofFields [(name, n)]) a := by
  have hkey : Variant.byKey vs .text (.text name) = .ok (.holding name read) := hname
  have hlevels := levels_ofFields_singleton name n
  constructor
  · intro hn room hroom
    have hheld := h.fits (by omega) (room - 1) (by omega)
    simp only [decodeVariant, Node.ofFields, List.map_cons, List.map_nil,
      enter_of_lt (show 0 + 1 < room by omega), bind, Except.bind, hkey, Variant.holdingNode, hheld]
    rfl
  · intro room hroom hle hlimit
    simp only [decodeVariant, Node.ofFields, List.map_cons, List.map_nil]
    by_cases hone : room ≤ 1
    · rw [enter_of_le_one hone]
      rfl
    · have hheld := h.tooDeep (room - 1) (by omega) (by omega) (by omega)
      simp only [enter_of_lt (show 0 + 1 < room by omega), bind, Except.bind, hkey,
        Variant.holdingNode, hheld]

end ReadsUpTo

/-! ## Records -/

/-- Each field of the record `r` is written, and read back up to a limit; reading them in
order leads to `r` from what the fields before have led to. -/
inductive RestoresUpTo (limit : Nat) (r : R) : List (RecordField R) → R → Prop
  | done : RestoresUpTo limit r [] r
  | written {f : RecordField R} {fs : List (RecordField R)} {s : R} {n : Node} {change : R → R}
    (hwrite : f.write r = some n) (hread : ReadsUpTo limit f.read n change)
    (hrest : RestoresUpTo limit r fs (change s)) : RestoresUpTo limit r (f :: fs) s

namespace RestoresUpTo

variable {r s : R} {fs : List (RecordField R)} {name : String} {required : Bool}

theorem ofLens {get : R → α} {set : α → R → R} {write : α → Node} {read : Decoder α}
    (hread : ReadsUpTo limit read (write (get r)) (get r))
    (hrest : RestoresUpTo limit r fs (set (get r) s)) :
    RestoresUpTo limit r (.ofLens name required get set write read :: fs) s :=
  .written rfl (hread.map set) hrest

theorem text {get : R → String} {set : String → R → R}
    (hrest : RestoresUpTo limit r fs (set (get r) s)) :
    RestoresUpTo limit r (.text name required get set :: fs) s :=
  ofLens (.of_reads (.text _) rfl) hrest

theorem bool {get : R → Bool} {set : Bool → R → R}
    (hrest : RestoresUpTo limit r fs (set (get r) s)) :
    RestoresUpTo limit r (.bool name required get set :: fs) s :=
  ofLens (.of_reads (.bool _) rfl) hrest

theorem list {get : R → List α} {set : List α → R → R} {write : α → Node} {read : Decoder α}
    (hread : ∀ x ∈ get r, ReadsUpTo limit read (write x) x)
    (hrest : RestoresUpTo limit r fs (set (get r) s)) :
    RestoresUpTo limit r (.list name required get set write read :: fs) s :=
  ofLens (.list hread) hrest

theorem texts {get : R → List String} {set : List String → R → R}
    (hrest : RestoresUpTo limit r fs (set (get r) s)) :
    RestoresUpTo limit r (.texts name required get set :: fs) s :=
  list (fun t _ => .of_reads (.text t) rfl) hrest

end RestoresUpTo

namespace Schema

variable {s : Schema R} {r t : R} {fs : List (RecordField R)} {seen : List String}

theorem levels_write (s : Schema R) (r : R) :
    (s.write r).levels = levelsOfEntries (entriesOf s.fields r) + 1 := rfl

theorem entriesOf_cons {f : RecordField R} {n : Node} (h : f.write r = some n) :
    entriesOf (f :: fs) r = (.text f.name, n) :: entriesOf fs r := by
  rw [entriesOf, List.filterMap_cons, h]
  rfl

/-- In a room for the levels of all their values, the fields restore the record. -/
theorem restores_of_restoresUpTo {depth : Nat} (h : RestoresUpTo limit r fs t)
    (hdepth : levelsOfEntries (entriesOf fs r) ≤ depth) (hlimit : depth < limit) :
    Restores .text depth r fs t := by
  induction h with
  | done => exact .done
  | written hwrite hread hrest ih =>
    rw [entriesOf_cons hwrite, levelsOfEntries_cons_text] at hdepth
    exact .written hwrite ((hread.fits (by omega)).mono (by omega)) (ih (by omega))

/-- The first value that is too deep for a room is where the reading ends. -/
theorem readEntries_tooDeep (hnames : (s.fields.map RecordField.name).Nodup)
    (h : RestoresUpTo limit r fs t) (hroom : 0 < room)
    (hdeep : room ≤ levelsOfEntries (entriesOf fs r)) (hlimit : room ≤ limit)
    (hfs : ∀ f ∈ fs, f ∈ s.fields) (hnodup : (fs.map RecordField.name).Nodup)
    (hseen : ∀ f ∈ fs, f.name ∉ seen) :
    s.readEntries .text room (entriesOf fs r) seen t = .error .malformed := by
  induction h generalizing seen with
  | done => exact absurd hdeep (Nat.not_le.2 hroom)
  | @written f fs t n change hwrite hread hrest ih =>
    obtain ⟨hf, hfs⟩ := List.forall_mem_cons.1 hfs
    obtain ⟨hfseen, hseen⟩ := List.forall_mem_cons.1 hseen
    obtain ⟨hnew, hnodup⟩ := List.nodup_cons.1 hnodup
    rw [entriesOf_cons hwrite, levelsOfEntries_cons_text] at hdeep
    rw [entriesOf_cons hwrite, readEntries, fieldOf_text hnames hf]
    simp only [bind, Except.bind, if_neg hfseen]
    by_cases hn : room ≤ n.levels
    · rw [hread.tooDeep room hroom hn hlimit]
    · rw [hread.fits (by omega) room (by omega)]
      refine ih (by omega) hfs hnodup fun g hg hmem => ?_
      -- The fields still to come have other names than this one.
      rcases List.mem_cons.1 hmem with hname | hmem
      · exact hnew (hname ▸ List.mem_map_of_mem hg)
      · exact hseen g hg hmem

/-- A record takes one level more than its fields. -/
theorem readsUpTo (hnames : (s.fields.map RecordField.name).Nodup)
    (h : RestoresUpTo limit r s.fields s.initial) : ReadsUpTo limit s.read (s.write r) r where
  fits hn := by
    rw [levels_write] at hn ⊢
    exact reads hnames (restores_of_restoresUpTo h le_rfl (by omega))
  tooDeep room hroom hle hlimit := by
    have hentries? : (s.write r).entries? .text = some (entriesOf s.fields r, true) := rfl
    rw [levels_write] at hle
    simp only [read, hentries?]
    by_cases hone : room ≤ 1
    · rw [enter_of_le_one hone]
      rfl
    · have hentries : s.readEntries .text (room - 1) (entriesOf s.fields r) [] s.initial =
          .error .malformed :=
        readEntries_tooDeep hnames h (by omega) (by omega) (by omega) (fun _ => id) hnames
          fun _ _ => List.not_mem_nil
      simp only [enter_of_lt (show 0 + 1 < room by omega), readMap, bind, Except.bind, hentries]

end Schema

theorem RestoresUpTo.record {S : Type} {r s : R} {fs : List (RecordField R)} {name : String}
    {required : Bool} {get : R → S} {set : S → R → R} {schema : Schema S}
    (hread : ReadsUpTo limit schema.read (schema.write (get r)) (get r))
    (hrest : RestoresUpTo limit r fs (set (get r) s)) :
    RestoresUpTo limit r (.record name required get set schema :: fs) s :=
  ofLens hread hrest

end Layering.Data
