import Layering.Reference
import Layering.Proofs.Collect
import Layering.Proofs.Corpus
import Mathlib.Data.List.Pairwise

/-!
# What references mean

What a reference means can be said without the names that are gathered to look it
up: the candidates are the units that satisfy the first of four conditions that
any unit satisfies (`Resolver.resolve_ofCorpus`). A list of candidates counts
without its repetitions, so each index may list a unit once for every name it
has.
-/

namespace Layering

/-! ## Repetitions -/

section EraseReps

variable {l : List Nat} {a x : Nat}

theorem eraseReps_loop (a : Nat) (l rs : List Nat) :
    List.eraseRepsBy.loop (· == ·) a l rs = rs.reverse ++ (a :: l).eraseReps := by
  induction l generalizing a rs with
  | nil => exact List.reverse_cons
  | cons b l ih =>
    have hcons : (a :: b :: l).eraseReps = List.eraseRepsBy.loop (· == ·) a (b :: l) [] := rfl
    rw [hcons, List.eraseRepsBy.loop, List.eraseRepsBy.loop]
    split
    · rw [ih, ih, List.reverse_nil, List.nil_append]
    · rw [ih, ih, List.reverse_cons, List.append_assoc, List.reverse_singleton]

theorem eraseReps_cons (a : Nat) (l : List Nat) :
    (a :: l).eraseReps = if l.head? = some a then l.eraseReps else a :: l.eraseReps := by
  cases l with
  | nil => rfl
  | cons b l =>
    have hcons : (a :: b :: l).eraseReps = List.eraseRepsBy.loop (· == ·) a (b :: l) [] := rfl
    rw [hcons, List.eraseRepsBy.loop, eraseReps_loop, eraseReps_loop, List.head?_cons]
    by_cases h : a = b
    · simp [h]
    · have hbeq : (a == b) = false := beq_eq_false_iff_ne.2 h
      simp [hbeq, Ne.symm h]

theorem mem_eraseReps : x ∈ l.eraseReps ↔ x ∈ l := by
  induction l with
  | nil => exact Iff.rfl
  | cons a l ih =>
    rw [eraseReps_cons]
    split
    · next h =>
      rw [ih, List.mem_cons]
      refine ⟨.inr, fun hx => hx.elim (fun e => ?_) id⟩
      exact e ▸ List.mem_of_mem_head? h
    · rw [List.mem_cons, List.mem_cons, ih]

theorem head?_eraseReps (l : List Nat) : l.eraseReps.head? = l.head? := by
  induction l with
  | nil => rfl
  | cons a l ih =>
    rw [eraseReps_cons]
    split
    · next h => rw [ih, h, List.head?_cons]
    · rfl

/-- An ascending list without its repetitions is strictly ascending. -/
theorem ascending_eraseReps (h : l.Pairwise (· ≤ ·)) : l.eraseReps.Pairwise (· < ·) := by
  induction l with
  | nil => exact .nil
  | cons a l ih =>
    obtain ⟨ha, hl⟩ := List.pairwise_cons.1 h
    rw [eraseReps_cons]
    split
    · exact ih hl
    · next hhead =>
      refine List.pairwise_cons.2 ⟨fun x hx => ?_, ih hl⟩
      have hx := mem_eraseReps.1 hx
      refine Nat.lt_of_le_of_ne (ha x hx) ?_
      rintro rfl
      -- The list ascends from `a`, so `a` can only stand at its head.
      cases l with
      | nil => exact List.not_mem_nil hx
      | cons b l =>
        have hab := ha b (List.mem_cons_self ..)
        rcases List.mem_cons.1 hx with rfl | hx
        · exact hhead rfl
        · have hba := (List.pairwise_cons.1 hl).1 _ hx
          exact hhead (by rw [List.head?_cons, Nat.le_antisymm hab hba])

theorem eraseReps_eq_self (h : l.Pairwise (· < ·)) : l.eraseReps = l :=
  OrdSet.eq_of_ascending (ascending_eraseReps (h.imp Nat.le_of_lt)) h fun _ => mem_eraseReps

end EraseReps

/-! ## Units that satisfy a condition -/

namespace Corpus

variable {c : Corpus} {p : SourceUnit → Bool} {f : SourceUnit → List String} {i : UnitId}
  {n : String}

/-- The ids of the units that satisfy a condition, in corpus order. -/
def idsWhere (c : Corpus) (p : SourceUnit → Bool) : List UnitId :=
  (c.indexed.filter fun u => p u.2).map Prod.fst

theorem mem_idsWhere : i ∈ c.idsWhere p ↔ ∃ u, c.units[i]? = some u ∧ p u := by
  simp only [idsWhere, List.mem_map, List.mem_filter]
  constructor
  · rintro ⟨⟨i, u⟩, ⟨hu, hp⟩, rfl⟩
    exact ⟨u, mem_indexed.1 hu, hp⟩
  · rintro ⟨u, hu, hp⟩
    exact ⟨(i, u), ⟨mem_indexed.2 hu, hp⟩, rfl⟩

theorem ascending_idsWhere (c : Corpus) (p : SourceUnit → Bool) :
    (c.idsWhere p).Pairwise (· < ·) :=
  List.pairwise_map.2 (c.ascending_indexed.filter _)

theorem nodup_idsWhere (c : Corpus) (p : SourceUnit → Bool) : (c.idsWhere p).Nodup :=
  (c.ascending_idsWhere p).imp Nat.ne_of_lt

/-- Names of the units, each with the id of its unit, in corpus order. -/
def namesBy (c : Corpus) (f : SourceUnit → List String) : List (String × UnitId) :=
  c.indexed.flatMap fun u => (f u.2).map fun n => (n, u.1)

theorem mem_namesBy : (n, i) ∈ c.namesBy f ↔ ∃ u, c.units[i]? = some u ∧ n ∈ f u := by
  simp only [namesBy, List.mem_flatMap, List.mem_map]
  constructor
  · rintro ⟨⟨i, u⟩, hu, n, hn, he⟩
    cases he
    exact ⟨u, mem_indexed.1 hu, hn⟩
  · rintro ⟨u, hu, hn⟩
    exact ⟨(i, u), mem_indexed.2 hu, n, hn, rfl⟩

theorem ascending_namesBy (c : Corpus) (f : SourceUnit → List String) :
    (c.namesBy f).Pairwise fun p q => p.2 ≤ q.2 := by
  refine List.pairwise_flatMap.2 ⟨fun u _ => ?_, c.ascending_indexed.imp fun {u v} huv => ?_⟩
  · exact List.pairwise_map.2 (List.pairwise_of_forall fun _ _ => Nat.le_refl _)
  · intro p hp q hq
    obtain ⟨_, -, rfl⟩ := List.mem_map.1 hp
    obtain ⟨_, -, rfl⟩ := List.mem_map.1 hq
    exact Nat.le_of_lt huv

/-- A name that was not collected is borne by no unit. -/
theorem get?_collect_namesBy_eq_none :
    (OrdMap.collect (c.namesBy f)).get? n = none ↔ c.idsWhere (n ∈ f ·) = [] := by
  have hmem : n ∈ (c.namesBy f).map Prod.fst ↔ ∃ i, i ∈ c.idsWhere (n ∈ f ·) := by
    simp only [List.mem_map, Prod.exists, exists_and_right, exists_eq_right, mem_namesBy,
      mem_idsWhere, decide_eq_true_eq]
  rw [OrdMap.get?_collect, ite_eq_right_iff, hmem, List.eq_nil_iff_forall_not_mem]
  simp

/-- Names that fit find the units that bear one of them. -/
theorem eraseReps_filter_namesBy (q : String → Bool) :
    (((c.namesBy f).filter (q ·.1)).map Prod.snd).eraseReps = c.idsWhere fun u => (f u).any q := by
  have hle : (((c.namesBy f).filter (q ·.1)).map Prod.snd).Pairwise (· ≤ ·) :=
    List.pairwise_map.2 ((c.ascending_namesBy f).filter _)
  refine OrdSet.eq_of_ascending (ascending_eraseReps hle) (c.ascending_idsWhere _) fun i => ?_
  rw [mem_eraseReps, List.mem_map, mem_idsWhere]
  simp only [List.mem_filter, Prod.exists, exists_eq_right, mem_namesBy, List.any_eq_true]
  constructor
  · rintro ⟨n, ⟨u, hu, hn⟩, hq⟩
    exact ⟨u, hu, n, hn, hq⟩
  · rintro ⟨u, hu, n, hn, hq⟩
    exact ⟨n, ⟨u, hu, hn⟩, hq⟩

/-- A collected name finds the units that bear it. -/
theorem eraseReps_of_get?_collect {ids : List UnitId}
    (h : (OrdMap.collect (c.namesBy f)).get? n = some ids) :
    ids.eraseReps = c.idsWhere (n ∈ f ·) := by
  rw [OrdMap.get?_collect] at h
  split at h
  · obtain rfl := Option.some_inj.1 h
    have hany : ∀ l : List String, l.any (decide <| · = n) = decide (n ∈ l) := fun l => by
      rw [Bool.eq_iff_iff, List.any_eq_true]
      simp
    simp only [eraseReps_filter_namesBy (decide <| · = n), hany]
  · cases h

theorem idsWhere_path (c : Corpus) (p : String) : c.idsWhere (·.path = p) = (c.idOf? p).toList := by
  refine OrdSet.eq_of_ascending (c.ascending_idsWhere _) ?_ fun i => ?_
  · cases c.idOf? p with
    | none => exact .nil
    | some i => exact List.pairwise_singleton _ i
  · rw [mem_idsWhere, Option.mem_toList, idOf?_eq_some_iff]
    simp only [decide_eq_true_eq]

/-- The units that satisfy the first of some conditions that any unit
satisfies. -/
def idsWhereFirst (c : Corpus) : List (SourceUnit → Bool) → List UnitId
  | [] => []
  | p :: ps => if c.idsWhere p = [] then c.idsWhereFirst ps else c.idsWhere p

theorem ascending_idsWhereFirst (c : Corpus) (ps : List (SourceUnit → Bool)) :
    (c.idsWhereFirst ps).Pairwise (· < ·) := by
  induction ps with
  | nil => exact .nil
  | cons p ps ih =>
    rw [idsWhereFirst]
    split
    · exact ih
    · exact c.ascending_idsWhere p

end Corpus

/-! ## The names of a corpus -/

open Reference

namespace SourceUnit

/-- The path in its normal form. -/
def normalPath (u : SourceUnit) : String := normalize u.path

/-- The names of a unit: its path, the last component of it, and the path below
each include root. -/
def names (roots : List String) (u : SourceUnit) : List String :=
  (u.normalPath :: if Path.basename u.normalPath = u.normalPath then [] else
    [Path.basename u.normalPath]) ++ includeNames roots u.normalPath

end SourceUnit

namespace NameIndex

variable {c : Corpus} {roots : List String}

theorem byIncludeName_add (x : NameIndex) (u : UnitId × SourceUnit) :
    (add roots x u).byIncludeName =
      (includeNames roots u.2.normalPath).foldl (fun m n => m.add n u.1) x.byIncludeName := by
  rw [add, SourceUnit.normalPath]

theorem byBasename_add (x : NameIndex) (u : UnitId × SourceUnit) :
    (add roots x u).byBasename = x.byBasename.add (Path.basename u.2.normalPath) u.1 := by
  rw [add, SourceUnit.normalPath]

theorem names_add (x : NameIndex) (u : UnitId × SourceUnit) :
    (add roots x u).names = x.names ++ (u.2.names roots).map fun n => (n, u.1) := by
  rw [add, SourceUnit.names, List.map_append, List.map_cons, SourceUnit.normalPath]
  split <;> rfl

/-- Names added unit by unit are collected. -/
theorem foldl_add_eq_collect (c : Corpus) (f : SourceUnit → List String) :
    c.indexed.foldl (fun m u => (f u.2).foldl (fun m n => Names.add m n u.1) m) .empty =
      OrdMap.collect (c.namesBy f) := by
  rw [OrdMap.collect, Corpus.namesBy, List.foldl_flatMap]
  simp only [List.foldl_map]
  rfl

theorem byIncludeName_ofCorpus : (ofCorpus c roots).byIncludeName =
    OrdMap.collect (c.namesBy fun u => includeNames roots u.normalPath) := by
  rw [← foldl_add_eq_collect]
  exact (List.foldl_hom byIncludeName fun x u => by rw [byIncludeName_add]).symm

theorem byBasename_ofCorpus : (ofCorpus c roots).byBasename =
    OrdMap.collect (c.namesBy fun u => [Path.basename u.normalPath]) := by
  rw [← foldl_add_eq_collect]
  exact (List.foldl_hom byBasename fun x u => by rw [byBasename_add]; rfl).symm

theorem names_ofCorpus : (ofCorpus c roots).names = c.namesBy (SourceUnit.names roots) := by
  rw [Corpus.namesBy, List.flatMap_eq_foldl]
  exact (List.foldl_hom names fun x u => by rw [names_add]).symm

end NameIndex

/-! ## Candidates -/

namespace Resolver

variable {r : Resolver} {c : Corpus} {config : ResolutionConfig} {token : String} {x : UnitId}
  {ids found : List UnitId} {ns : List (String × UnitId)}

theorem pick_congr {ids' : List UnitId} (h : ids.eraseReps = ids'.eraseReps) :
    r.pick ids = r.pick ids' := by
  rw [pick, pick, h]

theorem pick_strict (h : r.mode = .strict) : r.pick ids =
    match ids.eraseReps with
    | [] => .unresolved
    | [id] => .resolved id
    | ids => .ambiguous ids := by
  rw [pick, h]
  rcases ids.eraseReps with _ | ⟨a, _ | ⟨b, l⟩⟩ <;> rfl

/-- If the earliest unit is meant, only the first candidate counts. -/
theorem pick_firstMatch (h : r.mode = .firstMatch) : r.pick ids =
    match ids.head? with
    | some id => .resolved id
    | none => .unresolved := by
  rw [pick, h, ← head?_eraseReps]
  rcases ids.eraseReps with _ | ⟨a, _ | ⟨b, l⟩⟩ <;> rfl

/-- If the earliest unit is meant, the search ends at the first name that fits. -/
theorem fitting_firstMatch (h : r.mode = .firstMatch) :
    r.fitting token [] ns = ((ns.filter (fits token ·.1)).map Prod.snd).head?.toList := by
  induction ns with
  | nil => rfl
  | cons p ns ih =>
    obtain ⟨n, i⟩ := p
    rw [fitting, List.filter_cons]
    cases hn : fits token n with
    | true => simp [h]
    | false => simpa using ih

/-- In strict mode the units found are those before and those with names that
fit. -/
theorem mem_fitting (h : r.mode = .strict) :
    x ∈ r.fitting token found ns ↔ x ∈ found ∨ ∃ n, (n, x) ∈ ns ∧ fits token n := by
  induction ns generalizing found with
  | nil => simp [fitting]
  | cons p ns ih =>
    obtain ⟨n, i⟩ := p
    have hcons : (∃ m, (m, x) ∈ (n, i) :: ns ∧ fits token m) ↔
        (x = i ∧ fits token n) ∨ ∃ m, (m, x) ∈ ns ∧ fits token m := by
      simp only [List.mem_cons, Prod.mk.injEq, or_and_right, exists_or, and_assoc, exists_eq_left]
    rw [fitting, hcons]
    split
    · next hn =>
      have hfits := (Bool.and_eq_true_iff.1 hn).1
      simp only [h, ih, List.mem_append, List.mem_singleton, or_assoc, hfits, and_true]
    · next hn =>
      -- The name does not fit, or its unit has been found already.
      have hfound : x = i ∧ fits token n → x ∈ found := by
        rintro ⟨rfl, hfits⟩
        simpa [hfits] using hn
      rw [ih, ← or_assoc, or_iff_left_of_imp hfound]

/-- The names stand in corpus order, so the units are found in that order. -/
theorem ascending_fitting (h : r.mode = .strict) (hfound : found.Pairwise (· < ·))
    (hns : ns.Pairwise fun p q => p.2 ≤ q.2) (hle : ∀ x ∈ found, ∀ p ∈ ns, x ≤ p.2) :
    (r.fitting token found ns).Pairwise (· < ·) := by
  induction ns generalizing found with
  | nil => exact hfound
  | cons p ns ih =>
    obtain ⟨n, i⟩ := p
    obtain ⟨hi, hns⟩ := List.pairwise_cons.1 hns
    rw [fitting]
    split
    · next hn =>
      -- The units found come no later than `i`, and `i` is not among them.
      have hni : i ∉ found := by
        simp only [Bool.and_eq_true, Bool.not_eq_true', List.contains_eq_mem,
          decide_eq_false_iff_not] at hn
        exact hn.2
      rw [h]
      refine ih ?_ hns fun x hx q hq => ?_
      · refine List.pairwise_append.2 ⟨hfound, List.pairwise_singleton _ i, fun x hx y hy => ?_⟩
        obtain rfl := List.mem_singleton.1 hy
        refine Nat.lt_of_le_of_ne (hle x hx _ (List.mem_cons_self ..)) ?_
        rintro rfl
        exact hni hx
      · rcases List.mem_append.1 hx with hx | hx
        · exact hle x hx q (List.mem_cons_of_mem _ hq)
        · obtain rfl := List.mem_singleton.1 hx
          exact hi q hq
    · exact ih hfound hns fun x hx q hq => hle x hx q (List.mem_cons_of_mem _ hq)

/-- Of the names that fit, it counts which units bear them. -/
theorem pick_fitting (hns : ns.Pairwise fun p q => p.2 ≤ q.2) :
    r.pick (r.fitting token [] ns) = r.pick ((ns.filter (fits token ·.1)).map Prod.snd) := by
  cases h : r.mode with
  | strict =>
    refine pick_congr (OrdSet.eq_of_ascending ?_ ?_ fun x => ?_)
    · have hlt : (r.fitting token [] ns).Pairwise (· < ·) :=
        ascending_fitting h .nil hns (by simp)
      exact ascending_eraseReps (hlt.imp Nat.le_of_lt)
    · exact ascending_eraseReps (List.pairwise_map.2 (hns.filter _))
    · rw [mem_eraseReps, mem_eraseReps, mem_fitting h]
      simp
  | firstMatch =>
    rw [pick_firstMatch h, pick_firstMatch h, fitting_firstMatch h]
    cases ((ns.filter (fits token ·.1)).map Prod.snd).head? <;> rfl

theorem pick_fitting_namesBy (f : SourceUnit → List String) :
    r.pick (r.fitting token [] (c.namesBy f)) =
      r.pick (c.idsWhere fun u => (f u).any (fits token)) := by
  rw [pick_fitting (c.ascending_namesBy f)]
  refine pick_congr ?_
  rw [Corpus.eraseReps_filter_namesBy, eraseReps_eq_self (c.ascending_idsWhere _)]

/-- A name that was collected means the units that bear it. -/
theorem match_get?_collect (f : SourceUnit → List String) (other : Resolution) :
    (match (OrdMap.collect (c.namesBy f)).get? token with
      | some ids => r.pick ids
      | none => other) =
    if c.idsWhere (token ∈ f ·) = [] then other else r.pick (c.idsWhere (token ∈ f ·)) := by
  cases h : (OrdMap.collect (c.namesBy f)).get? token with
  | none => rw [if_pos (Corpus.get?_collect_namesBy_eq_none.1 h)]
  | some ids =>
    have hne : c.idsWhere (token ∈ f ·) ≠ [] := fun hnil => by
      rw [Corpus.get?_collect_namesBy_eq_none.2 hnil] at h
      cases h
    rw [if_neg hne]
    refine pick_congr ?_
    rw [Corpus.eraseReps_of_get?_collect h, eraseReps_eq_self (c.ascending_idsWhere _)]

/-- A path means the unit that has it. -/
theorem match_idOf? (p : String) (other : Resolution) :
    (match c.idOf? p with
      | some id => .resolved id
      | none => other) =
    if c.idsWhere (·.path = p) = [] then other else r.pick (c.idsWhere (·.path = p)) := by
  rw [Corpus.idsWhere_path]
  cases c.idOf? p <;> rfl

theorem pick_idsWhereFirst_cons (p : SourceUnit → Bool) (ps : List (SourceUnit → Bool)) :
    r.pick (c.idsWhereFirst (p :: ps)) =
      if c.idsWhere p = [] then r.pick (c.idsWhereFirst ps) else r.pick (c.idsWhere p) := by
  rw [Corpus.idsWhereFirst]
  split <;> rfl

/-- What a token can mean: the unit at that path; the units of that name below an
include root; the units with its last component; the units with a name that
fits. -/
def meanings (roots : List String) (token : String) : List (SourceUnit → Bool) :=
  [fun u => u.path = token,
    fun u => token ∈ includeNames roots u.normalPath,
    fun u => Path.basename token = Path.basename u.normalPath,
    fun u => (u.names roots).any (fits token)]

/-- A reference means the units that satisfy the first condition that any unit
satisfies. -/
theorem resolve_ofCorpus (c : Corpus) (config : ResolutionConfig) (reference : String) :
    (ofCorpus c config).resolve reference =
      if (normalize reference).isEmpty then .unresolved
      else (ofCorpus c config).pick
        (c.idsWhereFirst (meanings config.includeRoots (normalize reference))) := by
  have hcorpus : (ofCorpus c config).corpus = c := rfl
  have hindex : (ofCorpus c config).index = .ofCorpus c config.includeRoots := rfl
  have hlast : ∀ p, c.idsWhereFirst [p] = c.idsWhere p := fun p => by
    rw [Corpus.idsWhereFirst, Corpus.idsWhereFirst]
    split <;> simp [*]
  -- An equation of last components is said as membership, as of any other name.
  simp only [meanings, ← List.mem_singleton (a := Path.basename _)]
  rw [resolve, hcorpus, hindex, NameIndex.byIncludeName_ofCorpus, NameIndex.byBasename_ofCorpus,
    NameIndex.names_ofCorpus, pick_idsWhereFirst_cons, pick_idsWhereFirst_cons,
    pick_idsWhereFirst_cons, hlast, ← pick_fitting_namesBy, ← match_get?_collect,
    ← match_get?_collect]
  exact if_congr Iff.rfl rfl (match_idOf? _ _)

end Resolver

end Layering
