import Layering.Proofs.NormalForm
import Layering.Proofs.Text.Runs
import Layering.Source.Facts

/-!
# Include directives in parts of a text

A directive may go on over the end of a line, since blanks and names may hold line feeds. So the
references of a text are those of its first part and those of the rest if the first part does not
end inside a directive (`Source.EndsInside`), whatever the rest is, and only then
(`Extractor.references_append_iff`). A reference with a line feed in it is left where a line ends
inside a directive.
-/

namespace Layering

namespace Source

variable {a b d d' l m name name' r t u : List Char} {c o : Char} {n : Nat}

/-! ## Directives -/

/-- What follows the number sign of an include directive with some name. -/
inductive IsDirective : (name : List Char) → List Char → Prop
  | mk {gap gap' name : List Char} {o c : Char} (gap_blank : ∀ x ∈ gap, Text.isBlank x)
    (gap'_blank : ∀ x ∈ gap', Text.isBlank x) (gap'_ne : gap' ≠ []) (opens : opensName o)
    (name_ne : name ≠ []) (name_open : ∀ x ∈ name, closesName x = false) (closes : closesName c) :
    IsDirective name (gap ++ ("include".toList ++ (gap' ++ o :: (name ++ [c]))))

theorem isBlank_of_opensName (h : opensName o) : Text.isBlank o = false := by
  rw [opensName, Bool.or_eq_true, beq_iff_eq, beq_iff_eq] at h
  rcases h with rfl | rfl <;> rfl

theorem delimitedName?_of_open (h : ∀ x ∈ l, closesName x = false) (o : Char) :
    delimitedName? (o :: l) = none := by
  have htake : l.takeWhile (!closesName ·) = l :=
    List.takeWhile_eq_self_iff.2 (by simpa using h)
  simp [delimitedName?, htake]

theorem delimitedName?_of_closed (h : ∀ x ∈ m, closesName x = false) (hc : closesName c)
    (o : Char) (r : List Char) : delimitedName? (o :: (m ++ c :: r)) =
      if opensName o && !m.isEmpty then some (m, m.length + 2) else none := by
  have htake : (m ++ c :: r).takeWhile (!closesName ·) = m :=
    Text.takeWhile_append_cons (by simpa using h) (by simp [hc]) r
  simp [delimitedName?, htake]

theorem delimitedName?_eq_some_iff : delimitedName? l = some (name, n) ↔
    ∃ o c r, l = o :: (name ++ c :: r) ∧ n = name.length + 2 ∧ opensName o ∧ name ≠ [] ∧
      (∀ x ∈ name, closesName x = false) ∧ closesName c := by
  constructor
  · intro h
    cases l with
    | nil => cases h
    | cons o l =>
      obtain hopen | ⟨m, c, r, rfl, hm, hc⟩ := Text.forall_or_exists_first (!closesName ·) l
      · rw [delimitedName?_of_open (by simpa using hopen)] at h
        cases h
      · simp only [Bool.not_eq_true', Bool.not_eq_false'] at hm hc
        rw [delimitedName?_of_closed hm hc] at h
        split at h
        · next hcond =>
          cases h
          simp only [Bool.and_eq_true, Bool.not_eq_true', List.isEmpty_eq_false_iff] at hcond
          exact ⟨o, c, r, rfl, rfl, hcond.1, hcond.2, hm, hc⟩
        · cases h
  · rintro ⟨o, c, r, rfl, rfl, ho, hne, hopen, hc⟩
    rw [delimitedName?_of_closed hopen hc, if_pos (by simp [ho, hne])]

/-- After the keyword there are blanks and a name. -/
theorem directive?_of_keyword {gap : List Char} (hgap : ∀ x ∈ gap, Text.isBlank x)
    (after : List Char) : directive? (gap ++ ("include".toList ++ after)) =
      if (after.dropWhile Text.isBlank).length < after.length then
        (delimitedName? (after.dropWhile Text.isBlank)).map fun p =>
          (p.1, (gap ++ ("include".toList ++ after)).length -
            (after.dropWhile Text.isBlank).length + p.2)
      else none := by
  have hkeyword : (gap ++ ("include".toList ++ after)).dropWhile Text.isBlank =
      "include".toList ++ after := Text.dropWhile_append_cons hgap rfl _
  have hdrop : ("include".toList ++ after).drop "include".length = after := rfl
  simp only [directive?, hkeyword, hdrop]
  exact if_pos (List.isPrefixOf_iff_prefix.2 (List.prefix_append ..))

/-- What is read as a directive starts with one. -/
theorem directive?_eq_some_iff :
    directive? l = some (name, n) ↔ ∃ d r, l = d ++ r ∧ n = d.length ∧ IsDirective name d := by
  constructor
  · intro h
    obtain hblank | ⟨gap, x, k, rfl, hgap, hx⟩ := Text.forall_or_exists_first Text.isBlank l
    · rw [directive?, List.dropWhile_eq_nil_iff.2 hblank] at h
      cases h
    by_cases hkeyword : "include".toList.isPrefixOf (x :: k)
    · obtain ⟨after, hafter⟩ := List.isPrefixOf_iff_prefix.1 hkeyword
      rw [← hafter] at h ⊢
      obtain hblank | ⟨gap', o, q, rfl, hgap', ho⟩ :=
        Text.forall_or_exists_first Text.isBlank after
      · rw [directive?_of_keyword hgap, List.dropWhile_eq_nil_iff.2 hblank] at h
        simp [delimitedName?] at h
      · rw [directive?_of_keyword hgap, Text.dropWhile_append_cons hgap' ho] at h
        split at h
        · next hlt =>
          obtain ⟨⟨m, k⟩, hname, hpair⟩ := Option.map_eq_some_iff.1 h
          cases hpair
          obtain ⟨o, c, r, hrest, rfl, hopens, hne, hopen, hc⟩ := delimitedName?_eq_some_iff.1 hname
          cases hrest
          have hne' : gap' ≠ [] := by
            rintro rfl
            exact Nat.lt_irrefl _ hlt
          exact ⟨_, r, by simp, by simp; omega, .mk hgap hgap' hne' hopens hne hopen hc⟩
        · cases h
    · rw [directive?, Text.dropWhile_append_cons hgap hx, if_neg hkeyword] at h
      cases h
  · rintro ⟨_, r, rfl, rfl, @⟨gap, gap', name, o, c, hgap, hgap', hne', ho, hne, hopen, hc⟩⟩
    have hname : delimitedName? (o :: (name ++ c :: r)) = some (name, name.length + 2) :=
      delimitedName?_eq_some_iff.2 ⟨o, c, r, rfl, rfl, ho, hne, hopen, hc⟩
    have hpos := List.length_pos_of_ne_nil hne'
    have hlist : gap ++ ("include".toList ++ (gap' ++ o :: (name ++ [c]))) ++ r =
        gap ++ ("include".toList ++ (gap' ++ o :: (name ++ c :: r))) := by simp
    rw [hlist, directive?_of_keyword hgap,
      Text.dropWhile_append_cons hgap' (isBlank_of_opensName ho), hname, if_pos (by simp; omega)]
    simp
    omega

/-- No directive is a proper beginning of another. -/
theorem IsDirective.eq_nil_of_append (h : IsDirective name d) (h' : IsDirective name' (d ++ u)) :
    u = [] := by
  have hshort : directive? (d ++ u) = some (name, d.length) :=
    directive?_eq_some_iff.2 ⟨d, u, rfl, rfl, h⟩
  have hlong : directive? (d ++ u) = some (name', (d ++ u).length) :=
    directive?_eq_some_iff.2 ⟨d ++ u, [], (List.append_nil _).symm, rfl, h'⟩
  have hlength := congrArg Prod.snd (Option.some.inj (hshort.symm.trans hlong))
  rw [List.length_append] at hlength
  exact List.length_eq_zero_iff.1 (by omega)

/-! ## Reading from left to right -/

/-- A directive stands at the start of a text. -/
def StartsDirective (l : List Char) : Prop :=
  ∃ name d r, l = '#' :: (d ++ r) ∧ IsDirective name d

theorem includesAfter_skip (d l : List Char) :
    includesAfter d.length (d ++ l) = includesAfter 0 l := by
  induction d with
  | nil => rfl
  | cons c d ih => exact ih

theorem includesAfter_directive (h : IsDirective name d) (l : List Char) :
    includesAfter 0 ('#' :: (d ++ l)) = name :: includesAfter 0 l := by
  have hd : directive? (d ++ l) = some (name, d.length) :=
    directive?_eq_some_iff.2 ⟨d, l, rfl, rfl, h⟩
  simp only [includesAfter, if_true, hd, includesAfter_skip]

theorem includesAfter_cons (h : ¬ StartsDirective (c :: l)) :
    includesAfter 0 (c :: l) = includesAfter 0 l := by
  rw [includesAfter]
  split
  · next hc =>
    split
    · next hd =>
      obtain ⟨d, r, rfl, -, hd⟩ := directive?_eq_some_iff.1 hd
      exact absurd ⟨_, d, r, by rw [hc], hd⟩ h
    · rfl
  · rfl

theorem includesAfter_of_not_mem (h : '#' ∉ m) (l : List Char) :
    includesAfter 0 (m ++ l) = includesAfter 0 l := by
  induction m with
  | nil => rfl
  | cons c m ih =>
    rw [List.cons_append, includesAfter_cons, ih (List.not_mem_of_not_mem_cons h)]
    rintro ⟨_, _, _, heq, -⟩
    exact h (by simp [(List.cons.inj heq).1])

/-- There is no directive in a text in which nothing ends a name. -/
theorem includesAfter_of_open (h : ∀ x ∈ l, closesName x = false) : includesAfter 0 l = [] := by
  induction l with
  | nil => rfl
  | cons c l ih =>
    rw [includesAfter_cons, ih fun x hx => h x (List.mem_cons_of_mem c hx)]
    rintro ⟨_, _, r, heq, @⟨gap, gap', name, o, x, _, _, _, _, _, _, hx⟩⟩
    have hmem : x ∈ c :: l := by simp [heq]
    rw [h x hmem] at hx
    cases hx

/-! ## Texts that end inside a directive -/

/-- A text goes on as a directive that is not yet complete. -/
def BeginsDirective (t : List Char) : Prop := ∃ u name, u ≠ [] ∧ IsDirective name (t ++ u)

/-- A text ends inside a directive. Directives are passed over from left to right. -/
inductive EndsInside : List Char → Prop
  | inside {t : List Char} : BeginsDirective t → EndsInside ('#' :: t)
  | directive {name d l : List Char} : IsDirective name d → EndsInside l →
    EndsInside ('#' :: (d ++ l))
  | char {c : Char} {l : List Char} : ¬ StartsDirective (c :: l) → EndsInside l →
    EndsInside (c :: l)

/-- A directive that starts in the first part of a text ends there, or the first part ends inside
it. -/
theorem StartsDirective.of_append (h : StartsDirective (c :: (l ++ b))) :
    StartsDirective (c :: l) ∨ c = '#' ∧ BeginsDirective l := by
  obtain ⟨name, d, r, heq, hd⟩ := h
  obtain ⟨rfl, hl⟩ := List.cons.inj heq
  obtain ⟨u, rfl, -⟩ | ⟨u, rfl, -⟩ := List.append_eq_append_iff.1 hl
  · by_cases hu : u = []
    · subst hu
      rw [List.append_nil] at hd
      exact .inl ⟨name, l, [], by simp, hd⟩
    · exact .inr ⟨rfl, u, name, hu, hd⟩
  · exact .inl ⟨name, d, u, rfl, hd⟩

/-- The names of a text are those of its first part and those of the rest, unless the first part
ends inside a directive. -/
theorem includesAfter_append (b : List Char) : (a : List Char) → ¬ EndsInside a →
    includesAfter 0 (a ++ b) = includesAfter 0 a ++ includesAfter 0 b
  | [], _ => rfl
  | c :: l, h => by
    by_cases hstart : StartsDirective (c :: l)
    · obtain ⟨name, d, r, heq, hd⟩ := hstart
      obtain ⟨rfl, rfl⟩ := List.cons.inj heq
      have ih := includesAfter_append b r fun hr => h (.directive hd hr)
      rw [List.cons_append, List.append_assoc, includesAfter_directive hd,
        includesAfter_directive hd, ih, List.cons_append]
    · have ih := includesAfter_append b l fun hl => h (.char hstart hl)
      have hlong : ¬ StartsDirective (c :: (l ++ b)) := fun hlong => by
        obtain hshort | ⟨rfl, hbegins⟩ := hlong.of_append
        · exact hstart hshort
        · exact h (.inside hbegins)
      rw [List.cons_append, includesAfter_cons hlong, includesAfter_cons hstart, ih]
termination_by a => a.length

/-! ## Texts that go on -/

theorem not_mem_of_blank (h : ∀ x ∈ l, Text.isBlank x) : '#' ∉ l := fun hmem => by
  have hblank := h _ hmem
  revert hblank
  decide

/-- What has been read of a name holds no character that ends it. -/
theorem forall_open_of_append (hopen : ∀ x ∈ name, closesName x = false)
    (h : name ++ [c] = t ++ u) (hu : u ≠ []) : ∀ x ∈ t, closesName x = false := by
  obtain rfl | hbegins := List.prefix_concat_iff.1 ⟨u, h.symm⟩
  · exact absurd (List.append_cancel_left (h.symm.trans (List.append_nil _).symm)) hu
  · exact fun x hx => hopen x (hbegins.subset hx)

/-- Nothing has been read of a directive that is not complete. -/
theorem BeginsDirective.includesAfter_eq_nil (h : BeginsDirective t) :
    includesAfter 0 ('#' :: t) = [] := by
  obtain ⟨u, name, hu, hd⟩ := h
  have hstart : ¬ StartsDirective ('#' :: t) := by
    rintro ⟨name', d, r, heq, hd'⟩
    obtain rfl := (List.cons.inj heq).2
    rw [List.append_assoc] at hd
    exact hu (List.append_eq_nil_iff.1 (hd'.eq_nil_of_append hd)).2
  rw [includesAfter_cons hstart]
  generalize ht : t ++ u = d at hd
  obtain @⟨gap, gap', name, o, c, hgap, hgap', hne', ho, hne, hopen, hc⟩ := hd
  have hfront : '#' ∉ gap ++ ("include".toList ++ (gap' ++ [o])) := by
    have ho' : '#' ≠ o := by
      rintro rfl
      cases ho
    simp [not_mem_of_blank hgap, not_mem_of_blank hgap', ho']
  have hparts : t ++ u = (gap ++ ("include".toList ++ (gap' ++ [o]))) ++ (name ++ [c]) := by
    simpa using ht
  obtain ⟨v, hv, -⟩ | ⟨m, rfl, hm⟩ := List.append_eq_append_iff.1 hparts
  · rw [hv] at hfront
    simpa [includesAfter] using
      includesAfter_of_not_mem (fun hx => hfront (List.mem_append_left v hx)) []
  · rw [includesAfter_of_not_mem hfront]
    exact includesAfter_of_open (forall_open_of_append hopen hm hu)

/-- The rest of a directive after its keyword, where some blanks have been read. -/
theorem isDirective_of_blank {gap : List Char} (hgap : ∀ x ∈ gap, Text.isBlank x)
    (gap' : List Char) (hgap' : ∀ x ∈ gap', Text.isBlank x) :
    IsDirective ['x'] (gap ++ ("include".toList ++ (gap' ++ " <x>".toList))) := by
  have h : IsDirective ['x']
      (gap ++ ("include".toList ++ ((gap' ++ [' ']) ++ '<' :: (['x'] ++ ['>'])))) :=
    .mk hgap (by simpa [or_imp, forall_and] using ⟨hgap', rfl⟩) (by simp) rfl (by simp)
      (List.forall_mem_singleton.2 rfl) rfl
  simpa using h

/-- A directive can be completed without another number sign. -/
theorem BeginsDirective.exists_completion (h : BeginsDirective t) :
    ∃ u name, '#' ∉ u ∧ IsDirective name (t ++ u) := by
  obtain ⟨u, name, hu, hd⟩ := h
  generalize ht : t ++ u = d at hd
  obtain @⟨gap, gap', name, o, c, hgap, hgap', hne', ho, hne, hopen, hc⟩ := hd
  -- the text ends in one of the parts of the directive
  obtain ⟨v, hv, -⟩ | ⟨t, rfl, h₁⟩ := List.append_eq_append_iff.1 ht
  · refine ⟨"include <x>".toList, ['x'], by decide, ?_⟩
    exact isDirective_of_blank (fun x hx => hgap x (by simp [hv, hx])) [] (List.forall_mem_nil _)
  obtain ⟨t, rfl, h₂⟩ | ⟨v, hv, -⟩ := List.append_eq_append_iff.1 h₁
  swap
  · refine ⟨v ++ " <x>".toList, ['x'], ?_, ?_⟩
    · have hmem : '#' ∉ "include".toList := by decide
      rw [hv] at hmem
      simpa using fun hx => hmem (List.mem_append_right t hx)
    · have hd := isDirective_of_blank hgap [] (List.forall_mem_nil _)
      rw [hv] at hd
      simpa using hd
  obtain ⟨t, rfl, h₃⟩ | ⟨v, hv, -⟩ := List.append_eq_append_iff.1 h₂
  swap
  · refine ⟨" <x>".toList, ['x'], by decide, ?_⟩
    simpa using isDirective_of_blank hgap t fun x hx => hgap' x (by simp [hv, hx])
  cases t with
  | nil =>
    refine ⟨"<x>".toList, ['x'], by decide, ?_⟩
    have hd : IsDirective ['x'] (gap ++ ("include".toList ++ (gap' ++ '<' :: (['x'] ++ ['>'])))) :=
      .mk hgap hgap' hne' rfl (by simp) (List.forall_mem_singleton.2 rfl) rfl
    simpa using hd
  | cons o' t =>
    obtain ⟨rfl, h₄⟩ := List.cons.inj h₃
    have ht := forall_open_of_append hopen h₄ hu
    refine ⟨"x>".toList, t ++ ['x'], by decide, ?_⟩
    have hd : IsDirective (t ++ ['x'])
        (gap ++ ("include".toList ++ (gap' ++ o :: ((t ++ ['x']) ++ ['>'])))) :=
      .mk hgap hgap' hne' ho (by simp) (by simpa [or_imp, forall_and] using ⟨ht, rfl⟩) rfl
    simpa using hd

/-- What follows a text that ends inside a directive may complete it. -/
theorem EndsInside.exists_append (h : EndsInside a) : ∃ b name, '#' ∉ b ∧
    includesAfter 0 (a ++ b) = includesAfter 0 a ++ [name] := by
  have hbegins : ∀ {t}, BeginsDirective t → ∃ b name, '#' ∉ b ∧
      includesAfter 0 ('#' :: t ++ b) = includesAfter 0 ('#' :: t) ++ [name] := by
    intro t ht
    obtain ⟨u, name, hu, hd⟩ := ht.exists_completion
    have hcomplete := includesAfter_directive hd []
    rw [List.append_nil] at hcomplete
    exact ⟨u, name, hu, by rw [ht.includesAfter_eq_nil, List.cons_append, hcomplete]; rfl⟩
  induction h with
  | inside ht => exact hbegins ht
  | @directive name d l hd _ ih =>
    obtain ⟨b, name', hb, heq⟩ := ih
    refine ⟨b, name', hb, ?_⟩
    rw [List.cons_append, List.append_assoc, includesAfter_directive hd, includesAfter_directive hd,
      heq, List.cons_append]
  | @char c l hstart _ ih =>
    -- an earlier directive may be incomplete as well, and is then completed first
    by_cases hearlier : c = '#' ∧ BeginsDirective l
    · obtain ⟨rfl, hl⟩ := hearlier
      exact hbegins hl
    · obtain ⟨b, name, hb, heq⟩ := ih
      have hlong : ¬ StartsDirective (c :: (l ++ b)) := fun hlong =>
        hlong.of_append.elim hstart hearlier
      exact ⟨b, name, hb, by
        rw [List.cons_append, includesAfter_cons hlong, includesAfter_cons hstart, heq]⟩

/-- A line feed is in a name only if the text up to a line feed ends inside a directive. -/
theorem endsInside_of_mem_includesAfter : {l : List Char} → name ∈ includesAfter 0 l →
    '\n' ∈ name → ∃ s r, l = s ++ '\n' :: r ∧ EndsInside (s ++ ['\n'])
  | [], h, _ => nomatch h
  | c :: l, h, hline => by
    by_cases hstart : StartsDirective (c :: l)
    · obtain ⟨name', d, r, heq, hd⟩ := hstart
      obtain ⟨rfl, rfl⟩ := List.cons.inj heq
      rw [includesAfter_directive hd] at h
      obtain rfl | h := List.mem_cons.1 h
      · obtain ⟨p, q, rfl⟩ := List.append_of_mem hline
        obtain @⟨gap, gap', _, o, c, hgap, hgap', hne', ho, hne, hopen, hc⟩ := hd
        refine ⟨'#' :: (gap ++ ("include".toList ++ (gap' ++ o :: p))), q ++ c :: r, by simp, ?_⟩
        refine .inside (t := gap ++ ("include".toList ++ (gap' ++ o :: p)) ++ ['\n'])
          ⟨q ++ [c], p ++ '\n' :: q, by simp, ?_⟩
        simpa using IsDirective.mk hgap hgap' hne' ho hne hopen hc
      · obtain ⟨s, r, rfl, hs⟩ := endsInside_of_mem_includesAfter h hline
        exact ⟨'#' :: (d ++ s), r, by simp, by simpa using EndsInside.directive hd hs⟩
    · rw [includesAfter_cons hstart] at h
      obtain ⟨s, r, rfl, hs⟩ := endsInside_of_mem_includesAfter h hline
      refine ⟨c :: s, r, rfl, .char (fun hshort => hstart ?_) hs⟩
      obtain ⟨name', d, r', heq, hd⟩ := hshort
      exact ⟨name', d, r' ++ r, by simpa using congrArg (· ++ r) heq, hd⟩
termination_by l => l.length

theorem length_includes (text : String) :
    (includes text).length = (includesAfter 0 text.toList).length := List.length_map _

end Source

/-! ## References -/

namespace Extractor

open Source

/-- The references of a text and of what follows it are those of both together, whatever follows
and whatever is left out, just if the text does not end inside a directive. A reference with a
line feed in it shows that a line ends inside one. -/
theorem references_append_iff (a : String) :
    ((∀ (x : Extractor) (b : String), (x.extract (a ++ b)).references =
        (x.extract a).references ++ (x.extract b).references) ↔ ¬ EndsInside a.toList) ∧
    ∀ (x : Extractor) (token : String), token ∈ (x.extract a).references →
      '\n' ∈ token.toList → ∃ s r, a.toList = s ++ '\n' :: r ∧ EndsInside (s ++ ['\n']) := by
  refine ⟨⟨fun h hends => ?_, fun h x b => ?_⟩, fun x token htoken hline => ?_⟩
  · -- nothing is left out, so that the completed directive shows
    obtain ⟨b, name, hb, heq⟩ := hends.exists_append
    have hnone : includesAfter 0 b = [] := by
      simpa [includesAfter] using includesAfter_of_not_mem hb []
    let x : Extractor := ⟨{ ScanConfig.standard with skipStandardHeaders := false }, []⟩
    have hall : ∀ text, (x.extract text).references = includes text := fun text =>
      List.filter_eq_self.2 fun _ _ => rfl
    have hlength := congrArg List.length (h x (.ofList b))
    simp only [hall, List.length_append, length_includes, String.toList_append,
      String.toList_ofList, heq, hnone] at hlength
    simp at hlength
  · simp only [extract, includes, String.toList_append, includesAfter_append _ _ h, List.map_append,
      List.filter_append]
  · obtain ⟨name, hname, rfl⟩ := List.mem_map.1 (List.mem_of_mem_filter htoken)
    refine endsInside_of_mem_includesAfter hname ?_
    rw [String.toList_ofList] at hline
    exact (Text.stripWhile_isInfix _ _).subset hline

/-- A directive without its closing delimiter. -/
def openLine : String := "#include <foo\n"

/-- The name of the directive that is left open goes on to the next quote. -/
theorem references_append_openLine :
    ∃ s r, (openLine ++ "#include \"bar.h\"\n").toList = s ++ '\n' :: r ∧
      EndsInside (s ++ ['\n']) := by
  have htoken : "foo\n#include" ∈
      ((⟨.standard, []⟩ : Extractor).extract (openLine ++ "#include \"bar.h\"\n")).references := by
    decide +kernel
  exact (references_append_iff _).2 _ _ htoken (by decide)

/-- The next line is not read as the directive that it is by itself. -/
theorem openLine_hides_next :
    ¬ ∀ (x : Extractor) (a b : String), (a = "" ∨ a.toList.getLast? = some '\n') →
      (x.extract (a ++ b)).references = (x.extract a).references ++ (x.extract b).references := by
  intro h
  have heq := h ⟨.standard, []⟩ openLine "#include \"bar.h\"\n" (.inr rfl)
  revert heq
  decide +kernel

end Extractor

end Layering
