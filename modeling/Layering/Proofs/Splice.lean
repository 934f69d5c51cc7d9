import Layering.Proofs.Document

/-!
# Reading back records with parts

A record whose mapping also holds the fields of its parts is read in two steps: its
own fields are read where they stand, and all other entries are set aside
(`Schema.readSpliced_of_restores`). Each part is then read off the entries that bear
the names of its fields (`Schema.readPart_of_restores`).
-/

namespace Layering.Data

variable {R : Type} {c : Carrier} {depth room : Nat}

/-- A node stays as it is when it is set aside, in any room for `depth` levels of
containers. -/
def Kept (c : Carrier) (depth : Nat) (n : Node) : Prop :=
  ∀ room, depth < room → buffer c room n = .ok n

namespace Kept

theorem int (k : Int) : Kept c 0 (.int k) := fun _ _ => by rw [buffer] <;> simp

theorem text (t : String) : Kept c 0 (.text t) := fun _ _ => by rw [buffer] <;> simp

theorem mono {n : Node} {depth' : Nat} (h : Kept c depth n) (hle : depth ≤ depth') :
    Kept c depth' n :=
  fun room hroom => h room (Nat.lt_of_le_of_lt hle hroom)

theorem bufferItems_eq {items : List Node} (h : ∀ n ∈ items, Kept c depth n) (hroom : depth < room) :
    bufferItems c room items = .ok items := by
  induction items with
  | nil => rw [bufferItems]
  | cons n items ih =>
    obtain ⟨hn, hitems⟩ := List.forall_mem_cons.1 h
    rw [bufferItems, hn room hroom, ih hitems]
    rfl

/-- A sequence is kept if its items are. -/
theorem list {items : List Node} (h : ∀ n ∈ items, Kept c depth n) :
    Kept c (depth + 1) (.ofList items) := by
  intro room hroom
  rw [Node.ofList, buffer, enter_of_lt hroom]
  simp only [bind, Except.bind, bufferItems_eq h (show depth < room - 1 by omega)]
  rfl

end Kept

namespace Schema

variable {s : Schema R} {r t : R} {seen seen' : List String} {es l aside : List (Node × Node)}

/-- An entry has the name of a field. -/
def Names (s : Schema R) (e : Node × Node) : Prop := ∃ f ∈ s.fields, e.1 = .text f.name

/-- An entry has a name that is that of no field. -/
def Avoids (s : Schema R) (e : Node × Node) : Prop :=
  ∃ k, e.1 = .text k ∧ k ∉ s.fields.map RecordField.name

theorem names_of_mem_entriesOf {e : Node × Node} (he : e ∈ entriesOf s.fields r) : s.Names e := by
  obtain ⟨p, hp, rfl⟩ := List.mem_map.1 he
  obtain ⟨f, hf, hp⟩ := List.mem_filterMap.1 hp
  obtain ⟨n, -, rfl⟩ := Option.map_eq_some_iff.1 hp
  exact ⟨f, hf, rfl⟩

/-- Names that two schemas do not share are avoided by the one where they stand in the
other. -/
theorem Names.avoids {S : Type} {t : Schema S} {e : Node × Node} (h : t.Names e)
    (hnot : ∀ k ∈ t.fields.map RecordField.name, k ∉ s.fields.map RecordField.name) : s.Avoids e := by
  obtain ⟨f, hf, he⟩ := h
  exact ⟨f.name, he, hnot f.name (List.mem_map_of_mem hf)⟩

theorem Avoids.find?_eq_none {k : String} (h : k ∉ s.fields.map RecordField.name) :
    s.fields.find? (·.name == k) = none := by
  refine List.find?_eq_none.2 fun f hf hname => h ?_
  exact eq_of_beq hname ▸ List.mem_map_of_mem hf

/-! ## Own fields -/

/-- Entries that bear other names are set aside, last first. -/
theorem readOwn_append_of_avoids (h : ∀ e ∈ es, s.Avoids e ∧ Kept c depth e.2)
    (hroom : depth < room) :
    s.readOwn c room (es ++ l) seen aside r = s.readOwn c room l seen (es.reverse ++ aside) r := by
  induction es generalizing aside with
  | nil => rfl
  | cons e es ih =>
    obtain ⟨⟨k, hk, hnot⟩, hkept⟩ := h e (List.mem_cons_self ..)
    obtain ⟨key, n⟩ := e
    dsimp only at hk hkept
    subst hk
    have htext : (Node.text k).text? c = some k := rfl
    rw [List.cons_append, readOwn, htext]
    simp only [Avoids.find?_eq_none hnot, hkept room hroom, bind, Except.bind]
    rw [ih fun e he => h e (List.mem_cons_of_mem _ he), List.reverse_cons, List.append_assoc]
    rfl

/-- Entries that bear the names of fields are read as those of a record without
parts. -/
theorem readOwn_append_of_names (hnames : (s.fields.map RecordField.name).Nodup)
    (hes : ∀ e ∈ es, s.Names e) (h : s.readEntries c room es seen t = .ok (seen', r)) :
    s.readOwn c room (es ++ l) seen aside t = s.readOwn c room l seen' aside r := by
  induction es generalizing seen t with
  | nil =>
    rw [readEntries] at h
    obtain ⟨rfl, rfl⟩ := Prod.mk.inj (Except.ok.inj h)
    rfl
  | cons e es ih =>
    obtain ⟨⟨f, hf, hkey⟩, hrest⟩ := List.forall_mem_cons.1 hes
    obtain ⟨key, n⟩ := e
    dsimp only at hkey
    subst hkey
    have htext : (Node.text f.name).text? c = some f.name := rfl
    have hfind : s.fields.find? (·.name == f.name) = some f := by
      simpa [fieldOf, htext] using fieldOf_text (c := c) hnames hf
    rw [readEntries, fieldOf_text hnames hf] at h
    rw [List.cons_append, readOwn, htext]
    simp only [hfind, bind, Except.bind] at h ⊢
    split at h
    · cases h
    · next hseen =>
      rw [if_neg hseen]
      cases hread : f.read c room n with
      | error e =>
        rw [hread] at h
        cases h
      | ok change =>
        rw [hread] at h
        exact ih hrest h

/-- A record's own fields are read back, and what stands around them is set aside. -/
theorem readSpliced_of_restores (hnames : (s.fields.map RecordField.name).Nodup)
    (h : Restores c depth r s.fields s.initial) {n : Node} {before after : List (Node × Node)}
    (hn : n.entries? c = some (before ++ (entriesOf s.fields r ++ after), true))
    (hbefore : ∀ e ∈ before, s.Avoids e ∧ Kept c depth e.2)
    (hafter : ∀ e ∈ after, s.Avoids e ∧ Kept c depth e.2) (hroom : depth + 1 < room) :
    s.readSpliced c room n = .ok (r, before ++ after) := by
  have hdepth : depth < room - 1 := by omega
  have hseen : ∀ f ∈ s.fields, f.name ∉ [] := fun _ _ => List.not_mem_nil
  obtain ⟨seen, hentries, -, hrequired⟩ := readEntries_of_restores hnames h hdepth (fun _ => id)
    hnames hseen
  have hown : s.readOwn c (room - 1) (before ++ (entriesOf s.fields r ++ after)) [] [] s.initial =
      .ok (seen, before ++ after, r) := by
    rw [readOwn_append_of_avoids hbefore hdepth,
      readOwn_append_of_names hnames (fun e he => names_of_mem_entriesOf he) hentries,
      ← List.append_nil after, readOwn_append_of_avoids hafter hdepth, readOwn]
    simp
  rw [readSpliced, hn]
  simp only [enter_of_lt hroom, bind, Except.bind, hown, requireFields_of_seen hrequired]
  rfl

/-! ## Parts -/

theorem owns_of_names {e : Node × Node} (h : s.Names e) : s.owns e := by
  obtain ⟨f, hf, he⟩ := h
  rw [owns, List.any_eq_true]
  exact ⟨f, hf, by rw [he]; exact beq_self_eq_true _⟩

theorem not_owns_of_avoids {e : Node × Node} (h : s.Avoids e) : ¬ s.owns e := by
  obtain ⟨k, he, hk⟩ := h
  rw [owns, List.any_eq_true]
  rintro ⟨f, hf, hname⟩
  rw [he] at hname
  exact hk (Option.some_inj.1 (eq_of_beq hname) ▸ List.mem_map_of_mem hf)

/-- The entries of a part are told from others by their names. -/
theorem filter_owns (hes : ∀ e ∈ es, s.Names e) (hl : ∀ e ∈ l, s.Avoids e) :
    (es ++ l).filter s.owns = es ∧ s.without (es ++ l) = l := by
  constructor
  · rw [List.filter_append, List.filter_eq_self.2 fun e he => owns_of_names (hes e he),
      List.filter_eq_nil_iff.2 fun e he => not_owns_of_avoids (hl e he), List.append_nil]
  · have hnone : es.filter (!s.owns ·) = [] := by
      refine List.filter_eq_nil_iff.2 fun e he => ?_
      simp [owns_of_names (hes e he)]
    have hall : l.filter (!s.owns ·) = l := by
      refine List.filter_eq_self.2 fun e he => ?_
      simpa using not_owns_of_avoids (hl e he)
    rw [without, List.filter_append, hnone, hall, List.nil_append]

/-- A part is read back from its entries and others. -/
theorem readPart_of_restores (hnames : (s.fields.map RecordField.name).Nodup)
    (h : Restores .buffered depth r s.fields s.initial) (hl : ∀ e ∈ l, s.Avoids e)
    (hroom : depth + 1 < room) : s.readPart room (entriesOf s.fields r ++ l) = .ok r := by
  rw [readPart, (filter_owns (fun e he => names_of_mem_entriesOf he) hl).1]
  exact readMap_of_restores hnames h (by omega)

end Schema

end Layering.Data
