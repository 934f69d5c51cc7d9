import Layering.Ordered.Set

/-!
# Ordered maps

A finite map from a strict linear order, held as its entries in ascending
order of the keys. The list is determined by the map, so two maps with the same
look-ups are equal.

* `OrdMap.get?_alter`: what a change at one key does to every look-up;
* `OrdMap.ext_get?`: a map is its look-ups.
-/

namespace Layering

/-- A finite map, as the list of its entries in ascending order of the keys. -/
structure OrdMap (κ β : Type) [LT κ] where
  entries : List (κ × β)
  ascending : (entries.map Prod.fst).Pairwise (· < ·)

namespace OrdMap

variable {κ β : Type} [LT κ]

theorem entries_injective {m n : OrdMap κ β} (h : m.entries = n.entries) : m = n := by
  cases m; cases n; cases h; rfl

instance [DecidableEq κ] [DecidableEq β] : DecidableEq (OrdMap κ β) := fun m n =>
  if h : m.entries = n.entries then isTrue (entries_injective h)
  else isFalse fun e => h (e ▸ rfl)

theorem ascending_nil : (([] : List (κ × β)).map Prod.fst).Pairwise (· < ·) := .nil

/-- The map without entries. -/
def empty : OrdMap κ β := ⟨[], ascending_nil⟩

instance : Inhabited (OrdMap κ β) := ⟨empty⟩

/-- The number of entries. -/
def size (m : OrdMap κ β) : Nat := m.entries.length

/-- The set of keys. -/
def keys (m : OrdMap κ β) : OrdSet κ := ⟨m.entries.map Prod.fst, m.ascending⟩

/-- The value at a key. -/
def get? [DecidableEq κ] (m : OrdMap κ β) (k : κ) : Option β := m.entries.lookup k

/-- Puts `f` of what stands at `k` (if anything) at `k`, in an ascending list. -/
def alterList [DecidableLT κ] (k : κ) (f : Option β → β) : List (κ × β) → List (κ × β)
  | [] => [(k, f none)]
  | e :: l =>
    if k < e.1 then (k, f none) :: e :: l
    else if e.1 < k then e :: alterList k f l
    else (k, f (some e.2)) :: l

variable [DecidableLT κ]

variable [StrictOrder κ]

theorem map_fst_alterList (k : κ) (f : Option β → β) (l : List (κ × β)) :
    (alterList k f l).map Prod.fst = OrdSet.insertList k (l.map Prod.fst) := by
  induction l with
  | nil => rfl
  | cons e l ih =>
    rw [alterList, List.map_cons, OrdSet.insertList]
    split
    · rfl
    · split
      · rw [List.map_cons, ih]
      · next h₁ h₂ =>
        have : k = e.1 := ((StrictOrder.trichotomy k e.1).resolve_left h₁).resolve_right h₂
        simp [this]

/-- The map with `f` of what stood at `k` at `k`. -/
def alter (m : OrdMap κ β) (k : κ) (f : Option β → β) : OrdMap κ β :=
  ⟨alterList k f m.entries, by
    rw [map_fst_alterList]
    exact OrdSet.ascending_insertList m.ascending⟩

/-- The map with `v` at `k`. -/
def insert (m : OrdMap κ β) (k : κ) (v : β) : OrdMap κ β := m.alter k fun _ => v

@[simp] theorem keys_alter (m : OrdMap κ β) (k : κ) (f : Option β → β) :
    (m.alter k f).keys = m.keys.insert k :=
  OrdSet.toList_injective (map_fst_alterList k f m.entries)

omit [StrictOrder κ] in
theorem perm_alterList {k : κ} (f : Option β → β) {l : List (κ × β)}
    (h : ∀ e ∈ l, k < e.1 ∨ e.1 < k) : (alterList k f l).Perm ((k, f none) :: l) := by
  induction l with
  | nil => exact .refl _
  | cons e l ih =>
    rw [alterList]
    split
    · exact .refl _
    · next hk =>
      have he : e.1 < k := (h e (List.mem_cons_self ..)).resolve_left hk
      rw [if_pos he]
      exact ((ih fun x hx => h x (List.mem_cons_of_mem _ hx)).cons e).trans (.swap ..)

/-- A change at a new key adds an entry. -/
theorem perm_entries_alter {m : OrdMap κ β} {k : κ} (h : k ∉ m.keys) (f : Option β → β) :
    (m.alter k f).entries.Perm ((k, f none) :: m.entries) :=
  perm_alterList f fun e he => by
    rcases StrictOrder.trichotomy k e.1 with hk | hk | hk
    · exact .inl hk
    · exact absurd (List.mem_map.2 ⟨e, he, hk.symm⟩) h
    · exact .inr hk

variable [DecidableEq κ]

omit [DecidableLT κ] in
theorem lookup_eq_none {l : List (κ × β)} {k : κ} (h : ∀ x ∈ l.map Prod.fst, k < x) :
    l.lookup k = none := by
  induction l with
  | nil => rfl
  | cons e l ih =>
    have hk : k ≠ e.1 := fun q => StrictOrder.irrefl k (by
      have := h e.1 (by simp)
      rwa [← q] at this)
    rw [List.lookup_cons, beq_eq_false_iff_ne.2 hk]
    exact ih fun x hx => h x (List.mem_cons_of_mem _ hx)

omit [LT κ] [DecidableLT κ] [StrictOrder κ] in
theorem lookup_cons_ite (e : κ × β) (l : List (κ × β)) (k : κ) :
    (e :: l).lookup k = if k = e.1 then some e.2 else l.lookup k := by
  rw [List.lookup_cons]
  by_cases h : k = e.1
  · rw [if_pos h, beq_iff_eq.2 h]
  · rw [if_neg h, beq_eq_false_iff_ne.2 h]

theorem lookup_alterList {l : List (κ × β)} (hl : (l.map Prod.fst).Pairwise (· < ·)) (k x : κ)
    (f : Option β → β) :
    (alterList k f l).lookup x = if x = k then some (f (l.lookup k)) else l.lookup x := by
  induction l with
  | nil => simp only [alterList, lookup_cons_ite, List.lookup_nil]
  | cons e l ih =>
    have hp := List.pairwise_cons.1 hl
    rw [alterList]
    split
    · next hk =>
      have hn : (e :: l).lookup k = none := lookup_eq_none fun y hy => by
        rcases List.mem_cons.1 hy with rfl | hy
        · exact hk
        · exact StrictOrder.trans hk (hp.1 y hy)
      rw [hn, lookup_cons_ite]
    · split
      · next _ hk =>
        have hne : k ≠ e.1 := fun q => StrictOrder.irrefl k (by rw [← q] at hk; exact hk)
        simp only [lookup_cons_ite, ih hp.2, if_neg hne]
        by_cases h : x = k
        · simp only [h, if_neg hne, if_true]
        · simp only [h, if_false]
      · next h₁ h₂ =>
        have hke : k = e.1 := ((StrictOrder.trichotomy k e.1).resolve_left h₁).resolve_right h₂
        simp only [lookup_cons_ite, hke, if_true]
        by_cases h : x = e.1 <;> simp only [h, if_true, if_false]

/-- A change at `k` is seen at `k` only. -/
@[simp] theorem get?_alter (m : OrdMap κ β) (k x : κ) (f : Option β → β) :
    (m.alter k f).get? x = if x = k then some (f (m.get? k)) else m.get? x :=
  lookup_alterList m.ascending k x f

@[simp] theorem get?_insert (m : OrdMap κ β) (k x : κ) (v : β) :
    (m.insert k v).get? x = if x = k then some v else m.get? x := get?_alter ..

omit [DecidableLT κ] [StrictOrder κ] in
@[simp] theorem get?_empty (k : κ) : (empty : OrdMap κ β).get? k = none := rfl

omit [DecidableLT κ] in
/-- The entries are the look-ups that succeed. -/
theorem mem_entries_iff {m : OrdMap κ β} {k : κ} {v : β} :
    (k, v) ∈ m.entries ↔ m.get? k = some v := by
  obtain ⟨l, hl⟩ := m
  show (k, v) ∈ l ↔ l.lookup k = some v
  induction l with
  | nil => simp
  | cons e l ih =>
    have hp := List.pairwise_cons.1 hl
    rw [List.mem_cons, List.lookup_cons, ih hp.2]
    by_cases h : k = e.1
    · subst h
      have hn : l.lookup e.1 = none := lookup_eq_none hp.1
      rw [beq_self_eq_true]
      constructor
      · rintro (h | h)
        · rw [← h]
        · rw [hn] at h; cases h
      · intro h
        exact .inl (by cases e; cases h; rfl)
    · rw [beq_eq_false_iff_ne.2 h]
      exact ⟨fun o => o.resolve_left fun q => h (congrArg Prod.fst q), .inr⟩

omit [DecidableLT κ] in
@[simp] theorem mem_keys {m : OrdMap κ β} {k : κ} : k ∈ m.keys ↔ (m.get? k).isSome := by
  rw [Option.isSome_iff_exists]
  constructor
  · intro h
    obtain ⟨e, he, rfl⟩ := List.mem_map.1 h
    exact ⟨e.2, mem_entries_iff.1 he⟩
  · rintro ⟨v, h⟩
    exact List.mem_map.2 ⟨(k, v), mem_entries_iff.2 h, rfl⟩

omit [DecidableLT κ] in
/-- A map is its look-ups. -/
theorem ext_get? {m n : OrdMap κ β} (h : ∀ k, m.get? k = n.get? k) : m = n := by
  have hk : m.keys = n.keys := OrdSet.ext_mem fun k => by rw [mem_keys, mem_keys, h]
  have hl : m.entries.map Prod.fst = n.entries.map Prod.fst := congrArg OrdSet.toList hk
  have hg : ∀ k v, (k, v) ∈ m.entries ↔ (k, v) ∈ n.entries := fun k v => by
    rw [mem_entries_iff, mem_entries_iff, h]
  obtain ⟨l, hm⟩ := m
  obtain ⟨r, hn⟩ := n
  refine entries_injective ?_
  have hlen : l.length = r.length := by simpa using congrArg List.length hl
  refine List.ext_getElem hlen fun i h₁ h₂ => ?_
  have hf : l[i].1 = r[i].1 := by
    have := congrArg (·[i]?) hl
    simpa [h₁, h₂] using this
  have hv : (⟨l, hm⟩ : OrdMap κ β).get? r[i].1 = some l[i].2 :=
    mem_entries_iff.1 (by rw [← hf]; exact List.getElem_mem h₁)
  have hw : (⟨r, hn⟩ : OrdMap κ β).get? r[i].1 = some r[i].2 := mem_entries_iff.1 (List.getElem_mem h₂)
  rw [h] at hv
  exact Prod.ext hf (Option.some_inj.1 (hv.symm.trans hw))

end OrdMap

end Layering
