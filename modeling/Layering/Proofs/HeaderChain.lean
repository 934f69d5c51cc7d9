import Layering.Proofs.Order.Dependency
import Mathlib.Data.List.Chain
import Mathlib.Data.List.GetD

/-!
# Chains of headers

What a unit depends on through headers, said without the search for it: what a
chain of headers leads to that starts from the unit and is at most `limit`
headers long (`Closure.transitive_exact`).

* `Closure.exists_within_iff`: the headers within reach of the search are those
  that end a chain;
* `Closure.follow_eq_foldl`: the search takes headers one after the other and
  collects what they depend on;
* `Closure.nodup_taken`: it takes none twice, so it ends where headers include
  each other.
-/

namespace Layering

/-! ## Lists without repetitions -/

theorem nodup_eraseDups {α : Type} [DecidableEq α] (l : List α) : l.eraseDups.Nodup := by
  cases l with
  | nil => exact .nil
  | cons a l =>
    have ha : a ∉ (l.filter fun b => !b == a).eraseDups := by
      rw [List.mem_eraseDups, List.mem_filter]
      simp
    rw [List.eraseDups_cons]
    exact List.nodup_cons.2 ⟨ha, nodup_eraseDups _⟩
termination_by l.length
decreasing_by exact Nat.lt_succ_of_le (List.length_filter_le _ l)

theorem lt_length_of_getD_eq_true {l : List Bool} {i : Nat} (h : l.getD i false = true) :
    i < l.length := by
  by_contra hn
  rw [List.getD_eq_default _ _ (Nat.le_of_not_lt hn)] at h
  cases h

/-- Distinct places of a list that hold `true` are no more than the times it stands there. -/
theorem length_le_count_true {l : List Bool} {is : List Nat} (hnodup : is.Nodup)
    (h : ∀ i ∈ is, l.getD i false = true) : is.length ≤ l.count true := by
  have hmap : (List.range l.length).map (l.getD · false) = l := by
    refine List.ext_getElem (by simp) fun i hi hi' => ?_
    rw [List.getElem_map, List.getElem_range, List.getD_eq_getElem _ _ hi']
  have hsub : is ⊆ (List.range l.length).filter (l.getD · false) := fun i hi => by
    have hi := h i hi
    exact List.mem_filter.2 ⟨List.mem_range.2 (lt_length_of_getD_eq_true hi), hi⟩
  have hle := (List.subperm_of_subset hnodup hsub).length_le
  have hcount : ((List.range l.length).filter (l.getD · false)).length = l.count true := by
    conv => rhs; rw [← hmap, List.count_eq_countP, List.countP_map]
    rw [← List.countP_eq_length_filter]
    exact List.countP_congr fun i _ => by simp
  omega

namespace Closure

variable {c : Closure} {n limit : Nat} {x h : UnitId} {hs visited level : List UnitId}
  {reached : OrdSet UnitId}

/-! ## Chains -/

/-- A chain of headers from the unit to another: the first is a direct dependency of
the unit, each further one of the header before it, and the other unit of the last. -/
structure ChainTo (c : Closure) (hs : List UnitId) (x : UnitId) : Prop where
  headers : ∀ h ∈ hs, c.isHeader h
  linked : (c.unit :: (hs ++ [x])).IsChain fun a b => b ∈ c.direct.of a

/-- No header stands between a unit and its direct dependencies. -/
theorem chainTo_nil : c.ChainTo [] x ↔ x ∈ c.direct.of c.unit := by
  constructor
  · intro hc
    exact (List.isChain_cons_cons.1 hc.linked).1
  · intro hx
    exact ⟨fun _ hh => absurd hh List.not_mem_nil, List.isChain_pair.2 hx⟩

/-- A chain is one header longer than the chain to its last header. -/
theorem chainTo_concat :
    c.ChainTo (hs ++ [h]) x ↔ c.ChainTo hs h ∧ c.isHeader h ∧ x ∈ c.direct.of h := by
  have hsplit : (c.unit :: (hs ++ [h] ++ [x])).IsChain (fun a b => b ∈ c.direct.of a) ↔
      (c.unit :: (hs ++ [h])).IsChain (fun a b => b ∈ c.direct.of a) ∧ x ∈ c.direct.of h := by
    rw [← List.cons_append, List.isChain_append, ← List.cons_append, List.getLast?_concat]
    simp
  constructor
  · rintro ⟨hheaders, hlinked⟩
    obtain ⟨hlinked, hx⟩ := hsplit.1 hlinked
    have hh : h ∈ hs ++ [h] := by simp
    exact ⟨⟨fun y hy => hheaders y (List.mem_append_left _ hy), hlinked⟩, hheaders h hh, hx⟩
  · rintro ⟨⟨hheaders, hlinked⟩, hh, hx⟩
    refine ⟨fun y hy => ?_, hsplit.2 ⟨hlinked, hx⟩⟩
    rcases List.mem_append.1 hy with hy | hy
    · exact hheaders y hy
    · rwa [List.mem_singleton.1 hy]

theorem within_unit (c : Closure) (n : Nat) : c.Within n c.unit := by
  induction n with
  | zero => rfl
  | succ n ih => exact ih.succ

/-- What units within `n` headers depend on is what chains of at most `n` headers lead
to. -/
theorem exists_within_iff : (∃ h, c.Within n h ∧ x ∈ c.direct.of h) ↔
    ∃ hs : List UnitId, hs.length ≤ n ∧ c.ChainTo hs x := by
  induction n generalizing x with
  | zero =>
    constructor
    · rintro ⟨h, rfl, hx⟩
      exact ⟨[], Nat.le_refl 0, chainTo_nil.2 hx⟩
    · rintro ⟨hs, hlen, hc⟩
      obtain rfl := List.length_eq_zero_iff.1 (Nat.le_zero.1 hlen)
      exact ⟨c.unit, rfl, chainTo_nil.1 hc⟩
  | succ n ih =>
    constructor
    · rintro ⟨h, hh | ⟨hheader, hy⟩, hx⟩
      · obtain ⟨hs, hlen, hc⟩ := ih.1 ⟨h, hh, hx⟩
        exact ⟨hs, Nat.le_succ_of_le hlen, hc⟩
      · obtain ⟨hs, hlen, hc⟩ := ih.1 hy
        refine ⟨hs ++ [h], ?_, chainTo_concat.2 ⟨hc, hheader, hx⟩⟩
        rw [List.length_append, List.length_singleton]
        omega
    · rintro ⟨hs, hlen, hc⟩
      rcases List.eq_nil_or_concat' hs with rfl | ⟨hs, h, rfl⟩
      · exact ⟨c.unit, c.within_unit (n + 1), chainTo_nil.1 hc⟩
      · obtain ⟨hc, hheader, hx⟩ := chainTo_concat.1 hc
        rw [List.length_append, List.length_singleton] at hlen
        have hlen : hs.length ≤ n := by omega
        exact ⟨h, .inr ⟨hheader, ih.2 ⟨hs, hlen, hc⟩⟩, hx⟩

/-- The further dependencies of a unit are the ends of chains of at most `limit`
headers, and of at least one. -/
theorem mem_transitive_iff_chainTo : x ∈ c.transitive limit ↔
    x ≠ c.unit ∧ x ∉ c.direct.of c.unit ∧
      ∃ hs : List UnitId, 1 ≤ hs.length ∧ hs.length ≤ limit ∧ c.ChainTo hs x := by
  rw [mem_transitive, Reaches, isNew_iff, exists_within_iff, and_assoc]
  refine and_congr_right fun _ => and_congr_right fun hdirect => exists_congr fun hs => ?_
  constructor
  · rintro ⟨hlen, hc⟩
    have hpos : 1 ≤ hs.length := by
      refine List.length_pos_iff.2 ?_
      rintro rfl
      exact hdirect (chainTo_nil.1 hc)
    exact ⟨hpos, hlen, hc⟩
  · rintro ⟨-, hlen, hc⟩
    exact ⟨hlen, hc⟩

/-! ## The headers that are taken -/

/-- The headers that a search takes, in the order in which it takes them. -/
def taken (c : Closure) : (limit : Nat) → (visited level : List UnitId) → List UnitId
  | _, _, [] => []
  | 0, _, _ :: _ => []
  | limit + 1, visited, h :: hs =>
    let level := c.unvisited visited ((h :: hs).flatMap fun h => (c.direct.of h).toList)
    (h :: hs) ++ c.taken limit (level ++ visited) level

/-- A search collects what the headers that it takes depend on. -/
theorem follow_eq_foldl : c.follow limit visited level reached =
    (((c.taken limit visited level).flatMap fun h => (c.direct.of h).toList).filter c.isNew).foldl
      (fun s u => s.insert u) reached := by
  induction limit generalizing visited level reached with
  | zero => cases level <;> rfl
  | succ limit ih =>
    cases level with
    | nil => rfl
    | cons h hs =>
      rw [follow, ih, taken, List.flatMap_append, List.filter_append, List.foldl_append]

theorem mem_or_not_mem_of_mem_taken (hx : x ∈ c.taken limit visited level) :
    x ∈ level ∨ x ∉ visited := by
  induction limit generalizing visited level with
  | zero => cases level <;> exact absurd hx List.not_mem_nil
  | succ limit ih =>
    cases level with
    | nil => exact absurd hx List.not_mem_nil
    | cons h hs =>
      rcases List.mem_append.1 hx with hx | hx
      · exact .inl hx
      · rcases ih hx with hx | hx
        · exact .inr (mem_unvisited.1 hx).2.2
        · exact .inr fun hv => hx (List.mem_append_right _ hv)

theorem isHeader_of_mem_taken (hlevel : ∀ h ∈ level, c.isHeader h)
    (hx : x ∈ c.taken limit visited level) : c.isHeader x := by
  induction limit generalizing visited level with
  | zero => cases level <;> exact absurd hx List.not_mem_nil
  | succ limit ih =>
    cases level with
    | nil => exact absurd hx List.not_mem_nil
    | cons h hs =>
      rcases List.mem_append.1 hx with hx | hx
      · exact hlevel x hx
      · exact ih (fun y hy => (mem_unvisited.1 hy).2.1) hx

/-- No header is taken twice. -/
theorem nodup_taken (hnodup : level.Nodup) (hvisited : level ⊆ visited) :
    (c.taken limit visited level).Nodup := by
  induction limit generalizing visited level with
  | zero => cases level <;> exact .nil
  | succ limit ih =>
    cases level with
    | nil => exact .nil
    | cons h hs =>
      have hrest := @ih
        (c.unvisited visited ((h :: hs).flatMap fun h => (c.direct.of h).toList) ++ visited)
        (c.unvisited visited ((h :: hs).flatMap fun h => (c.direct.of h).toList))
        (nodup_eraseDups _) (List.subset_append_left _ _)
      refine List.nodup_append.2 ⟨hnodup, hrest, ?_⟩
      -- What the level holds has been visited, and what is taken later has not.
      rintro x hx y hy rfl
      rcases mem_or_not_mem_of_mem_taken hy with hy | hy
      · exact (mem_unvisited.1 hy).2.2 (hvisited hx)
      · exact hy (List.mem_append_right _ (hvisited hx))

/-- The headers that the search for the further dependencies of the unit takes. -/
def headersTaken (c : Closure) (limit : Nat) : List UnitId :=
  let level := c.unvisited [c.unit] (c.direct.of c.unit).toList
  c.taken limit (level ++ [c.unit]) level

theorem transitive_eq_ofList : c.transitive limit =
    .ofList (((c.headersTaken limit).flatMap fun h => (c.direct.of h).toList).filter c.isNew) := by
  rw [transitive, follow_eq_foldl]
  rfl

theorem isHeader_of_mem_headersTaken (hx : x ∈ c.headersTaken limit) : c.isHeader x :=
  isHeader_of_mem_taken (fun _ hy => (mem_unvisited.1 hy).2.1) hx

/-- However deep a search may go, it takes no more headers than there are. -/
theorem length_headersTaken_le (c : Closure) (limit : Nat) :
    (c.headersTaken limit).length ≤ c.headers.count true := by
  have hnodup : (c.headersTaken limit).Nodup :=
    nodup_taken (nodup_eraseDups _) (List.subset_append_left _ _)
  exact length_le_count_true hnodup fun h hh => isHeader_of_mem_headersTaken hh

/-- The ids are places in the lists of dependencies and of headers. -/
structure InRange (c : Closure) : Prop where
  unit : c.unit < c.direct.length
  length : c.headers.length = c.direct.length
  direct : ∀ h, ∀ x ∈ c.direct.of h, x < c.direct.length

/-- What a search looks up is there: the dependencies of the unit and of the headers
that it takes, and whether these dependencies are headers. -/
theorem InRange.lookups (hc : c.InRange) (hh : h ∈ c.unit :: c.headersTaken limit) :
    h < c.direct.length ∧ ∀ x ∈ c.direct.of h, x < c.headers.length := by
  constructor
  · rcases List.mem_cons.1 hh with rfl | hh
    · exact hc.unit
    · rw [← hc.length]
      exact lt_length_of_getD_eq_true (isHeader_of_mem_headersTaken hh)
  · intro x hx
    rw [hc.length]
    exact hc.direct h x hx

/-! ## The search as a whole -/

/-- The further dependencies of a unit are the other units, apart from its direct
dependencies, to which a chain of at least one and at most `limit` headers leads. The
search for them collects the dependencies of no more headers than there are, it looks
up nothing that is missing, and what it finds follows a renaming of the ids. -/
theorem transitive_exact (c : Closure) (limit : Nat) :
    (∀ x, x ∈ c.transitive limit ↔ x ≠ c.unit ∧ x ∉ c.direct.of c.unit ∧
      ∃ hs : List UnitId, 1 ≤ hs.length ∧ hs.length ≤ limit ∧ c.ChainTo hs x) ∧
    (c.transitive limit =
        .ofList (((c.headersTaken limit).flatMap fun h => (c.direct.of h).toList).filter c.isNew) ∧
      (c.headersTaken limit).length ≤ c.headers.count true) ∧
    (c.InRange → ∀ h ∈ c.unit :: c.headersTaken limit,
      h < c.direct.length ∧ ∀ x ∈ c.direct.of h, x < c.headers.length) ∧
    ∀ σ d, c.Renamed σ d → ∀ x, σ x ∈ d.transitive limit ↔ x ∈ c.transitive limit := by
  refine ⟨fun x => mem_transitive_iff_chainTo,
    ⟨transitive_eq_ofList, length_headersTaken_le c limit⟩,
    fun hc h hh => hc.lookups hh, fun σ d hd x => ?_⟩
  rw [mem_transitive, mem_transitive]
  exact hd.reaches_iff

/-- Two headers that include each other, and one of them the unit that includes it. -/
def mutualHeaders : Closure :=
  ⟨0, [.ofList [1], .ofList [2], .ofList [0, 1, 3], .empty], [false, true, true, false]⟩

/-- The same with the headers in the other order. -/
def mutualHeadersSwapped : Closure :=
  ⟨0, [.ofList [2], .ofList [0, 2, 3], .ofList [1], .empty], [false, true, true, false]⟩

theorem swap_add_four (i : Nat) : Equiv.swap 1 2 (i + 4) = i + 4 :=
  Equiv.swap_apply_of_ne_of_ne (by omega) (by omega)

theorem renamed_mutualHeaders : mutualHeaders.Renamed (.swap 1 2) mutualHeadersSwapped where
  unit := rfl
  direct i x := by
    match i with
    | 0 =>
      show Equiv.swap 1 2 x ∈ [2] ↔ x ∈ [1]
      grind
    | 1 =>
      show Equiv.swap 1 2 x ∈ [1] ↔ x ∈ [2]
      grind
    | 2 =>
      show Equiv.swap 1 2 x ∈ [0, 2, 3] ↔ x ∈ [0, 1, 3]
      grind
    | 3 => exact iff_of_false (OrdSet.not_mem_empty _) (OrdSet.not_mem_empty _)
    | i + 4 =>
      rw [swap_add_four]
      exact iff_of_false (OrdSet.not_mem_empty _) (OrdSet.not_mem_empty _)
  isHeader x := by
    match x with
    | 0 => rfl
    | 1 => rfl
    | 2 => rfl
    | 3 => rfl
    | x + 4 =>
      rw [swap_add_four]
      rfl

theorem inRange_mutualHeaders : mutualHeaders.InRange where
  unit := by decide
  length := rfl
  direct h := by
    match h with
    | 0 => decide
    | 1 => decide
    | 2 => decide
    | 3 => decide
    | h + 4 => exact fun x hx => absurd hx (OrdSet.not_mem_empty x)

theorem transitive_exact_mutual :
    mutualHeaders.InRange ∧ mutualHeaders.Renamed (.swap 1 2) mutualHeadersSwapped ∧
      mutualHeaders.ChainTo [1, 2] 3 ∧ 3 ∈ mutualHeadersSwapped.transitive 2 ∧
      ∀ h ∈ 0 :: mutualHeaders.headersTaken 2, h < 4 := by
  have hchain : mutualHeaders.ChainTo [1, 2] 3 := ⟨by decide, by decide⟩
  obtain ⟨hmem, -, hlookups, hrenamed⟩ := transitive_exact mutualHeaders 2
  have h : 3 ∈ mutualHeaders.transitive 2 :=
    (hmem 3).2 ⟨by decide, by decide, [1, 2], by decide, by decide, hchain⟩
  exact ⟨inRange_mutualHeaders, renamed_mutualHeaders, hchain,
    (hrenamed _ _ renamed_mutualHeaders 3).2 h, fun h hh => (hlookups inRange_mutualHeaders h hh).1⟩

end Closure

end Layering
