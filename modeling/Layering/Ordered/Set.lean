/-!
# Ordered sets

A finite set over a strict linear order, held as its ascending list of
elements. The list is determined by the elements, so two sets with the same
elements are equal, and reading a set in order is reading its list.

* `OrdSet.mem_insert`: what an insertion adds;
* `OrdSet.ext_mem`: a set is its elements.
-/

namespace Layering

/-- A strict linear order on `α`, given by its `<`. -/
class StrictOrder (α : Type) [LT α] : Prop where
  irrefl : ∀ a : α, ¬ a < a
  trans : ∀ {a b c : α}, a < b → b < c → a < c
  trichotomy : ∀ a b : α, a < b ∨ a = b ∨ b < a

instance : StrictOrder Nat where
  irrefl := Nat.lt_irrefl
  trans := Nat.lt_trans
  trichotomy := Nat.lt_trichotomy

/-- Texts are ordered by their code points, which is the order of their UTF-8
bytes. -/
instance : StrictOrder String where
  irrefl := String.lt_irrefl
  trans := String.lt_trans
  trichotomy a b := by
    by_cases h : a < b
    · exact .inl h
    · by_cases h' : b < a
      · exact .inr (.inr h')
      · exact .inr (.inl (String.le_antisymm (String.not_lt.1 h') (String.not_lt.1 h)))

/-- The lexicographic order of two keys. -/
def LexLt {γ α β : Type} [LT α] [LT β] (f : γ → α) (g : γ → β) (a b : γ) : Prop :=
  f a < f b ∨ (f a = f b ∧ g a < g b)

namespace LexLt

variable {γ α β : Type} [LT α] [LT β] [StrictOrder α] [StrictOrder β] {f : γ → α} {g : γ → β}

theorem irrefl (a : γ) : ¬ LexLt f g a a := fun h =>
  h.elim (StrictOrder.irrefl _) fun h => StrictOrder.irrefl _ h.2

theorem trans {a b c : γ} (h : LexLt f g a b) (h' : LexLt f g b c) : LexLt f g a c := by
  rcases h with h | h
  · rcases h' with h' | h'
    · exact .inl (StrictOrder.trans h h')
    · exact .inl (h'.1 ▸ h)
  · rcases h' with h' | h'
    · exact .inl (h.1 ▸ h')
    · exact .inr ⟨h.1.trans h'.1, StrictOrder.trans h.2 h'.2⟩

theorem trichotomy (inj : ∀ a b, f a = f b → g a = g b → a = b) (a b : γ) :
    LexLt f g a b ∨ a = b ∨ LexLt f g b a := by
  rcases StrictOrder.trichotomy (f a) (f b) with h | h | h
  · exact .inl (.inl h)
  · rcases StrictOrder.trichotomy (g a) (g b) with h' | h' | h'
    · exact .inl (.inr ⟨h, h'⟩)
    · exact .inr (.inl (inj a b h h'))
    · exact .inr (.inr (.inr ⟨h.symm, h'⟩))
  · exact .inr (.inr (.inl h))

end LexLt

/-- A finite set, as the ascending list of its elements. -/
structure OrdSet (α : Type) [LT α] where
  toList : List α
  ascending : toList.Pairwise (· < ·)

namespace OrdSet

variable {α : Type} [LT α]

theorem toList_injective {s t : OrdSet α} (h : s.toList = t.toList) : s = t := by
  cases s; cases t; cases h; rfl

instance [DecidableEq α] : DecidableEq (OrdSet α) := fun s t =>
  if h : s.toList = t.toList then isTrue (toList_injective h)
  else isFalse fun e => h (e ▸ rfl)

/-- The set without elements. -/
def empty : OrdSet α := ⟨[], .nil⟩

instance : Inhabited (OrdSet α) := ⟨empty⟩

instance : Membership α (OrdSet α) := ⟨fun s a => a ∈ s.toList⟩

instance [DecidableEq α] (a : α) (s : OrdSet α) : Decidable (a ∈ s) :=
  inferInstanceAs (Decidable (a ∈ s.toList))

@[simp] theorem mem_toList {a : α} {s : OrdSet α} : a ∈ s.toList ↔ a ∈ s := Iff.rfl

@[simp] theorem not_mem_empty (a : α) : a ∉ (empty : OrdSet α) := List.not_mem_nil

/-- The number of elements. -/
def size (s : OrdSet α) : Nat := s.toList.length

/-- Puts `a` at its place in an ascending list, unless it is there. -/
def insertList [DecidableLT α] (a : α) : List α → List α
  | [] => [a]
  | b :: l => if a < b then a :: b :: l else if b < a then b :: insertList a l else b :: l

/-- The set without `a`. -/
def erase [DecidableEq α] (s : OrdSet α) (a : α) : OrdSet α :=
  ⟨s.toList.filter (· ≠ a), s.ascending.filter _⟩

@[simp] theorem mem_erase [DecidableEq α] {a x : α} {s : OrdSet α} :
    x ∈ s.erase a ↔ x ∈ s ∧ x ≠ a := by
  rw [← mem_toList, erase, List.mem_filter, decide_eq_true_eq, mem_toList]

theorem nodup_toList [StrictOrder α] (s : OrdSet α) : s.toList.Nodup :=
  s.ascending.imp fun {a b} h (e : a = b) => StrictOrder.irrefl a (e ▸ h)

variable [DecidableLT α] [StrictOrder α]

theorem mem_insertList {a x : α} {l : List α} : x ∈ insertList a l ↔ x = a ∨ x ∈ l := by
  induction l with
  | nil => simp [insertList]
  | cons b l ih =>
    rw [insertList]
    split
    · simp
    · split
      · simp only [List.mem_cons, ih]
        exact or_left_comm
      · next h₁ h₂ =>
        have : a = b := ((StrictOrder.trichotomy a b).resolve_left h₁).resolve_right h₂
        simp [this]

theorem ascending_insertList {a : α} {l : List α} (h : l.Pairwise (· < ·)) :
    (insertList a l).Pairwise (· < ·) := by
  induction l with
  | nil => simp [insertList]
  | cons b l ih =>
    rw [insertList]
    have hb := List.pairwise_cons.1 h
    split
    · next hab =>
      refine List.pairwise_cons.2 ⟨fun x hx => ?_, h⟩
      cases List.mem_cons.1 hx with
      | inl e => exact e ▸ hab
      | inr hx => exact StrictOrder.trans hab (hb.1 x hx)
    · split
      · next hba =>
        refine List.pairwise_cons.2 ⟨fun x hx => ?_, ih hb.2⟩
        cases mem_insertList.1 hx with
        | inl e => exact e ▸ hba
        | inr hx => exact hb.1 x hx
      · exact h

/-- The set with `a` added. -/
def insert (a : α) (s : OrdSet α) : OrdSet α := ⟨insertList a s.toList, ascending_insertList s.ascending⟩

/-- The set of a list's elements. -/
def ofList (l : List α) : OrdSet α := l.foldl (fun s a => s.insert a) empty

@[simp] theorem mem_insert {a x : α} {s : OrdSet α} : x ∈ s.insert a ↔ x = a ∨ x ∈ s :=
  mem_insertList

theorem mem_foldl_insert {x : α} (l : List α) (s : OrdSet α) :
    x ∈ l.foldl (fun s a => s.insert a) s ↔ x ∈ l ∨ x ∈ s := by
  induction l generalizing s with
  | nil => simp
  | cons a l ih =>
    rw [List.foldl_cons, ih, mem_insert, List.mem_cons, or_assoc]
    exact or_left_comm

@[simp] theorem mem_ofList {x : α} {l : List α} : x ∈ ofList l ↔ x ∈ l := by
  simp [ofList, mem_foldl_insert]

omit [DecidableLT α] in
theorem eq_of_ascending {l m : List α} (hl : l.Pairwise (· < ·)) (hm : m.Pairwise (· < ·))
    (h : ∀ x, x ∈ l ↔ x ∈ m) : l = m := by
  induction l generalizing m with
  | nil =>
    cases m with
    | nil => rfl
    | cons b m => exact absurd ((h b).2 (List.mem_cons_self ..)) List.not_mem_nil
  | cons a l ih =>
    cases m with
    | nil => exact absurd ((h a).1 (List.mem_cons_self ..)) List.not_mem_nil
    | cons b m =>
      have hl' := List.pairwise_cons.1 hl
      have hm' := List.pairwise_cons.1 hm
      have hab : a = b := by
        cases List.mem_cons.1 ((h a).1 (List.mem_cons_self ..)) with
        | inl e => exact e
        | inr ha =>
          cases List.mem_cons.1 ((h b).2 (List.mem_cons_self ..)) with
          | inl e => exact e.symm
          | inr hb =>
            exact absurd (StrictOrder.trans (hl'.1 b hb) (hm'.1 a ha)) (StrictOrder.irrefl a)
      subst hab
      rw [ih hl'.2 hm'.2 fun x => ?_]
      have hx := h x
      simp only [List.mem_cons] at hx
      constructor
      · intro hxl
        cases hx.1 (.inr hxl) with
        | inl e => exact absurd (e ▸ hl'.1 x hxl) (StrictOrder.irrefl a)
        | inr hm => exact hm
      · intro hxm
        cases hx.2 (.inr hxm) with
        | inl e => exact absurd (e ▸ hm'.1 x hxm) (StrictOrder.irrefl a)
        | inr hl => exact hl

omit [DecidableLT α] in
/-- A set is its elements. -/
theorem ext_mem {s t : OrdSet α} (h : ∀ x, x ∈ s ↔ x ∈ t) : s = t :=
  toList_injective (eq_of_ascending s.ascending t.ascending h)

end OrdSet

end Layering
