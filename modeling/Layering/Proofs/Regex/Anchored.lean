import Layering.Proofs.Regex.Search
import Layering.Regex

/-!
# Anchored patterns

A pattern that matches nothing but beginnings of a text is found once in it at most
(`Regex.groups_of_anchored`).
-/

namespace Layering.Regex

variable {e : Expr} {text : Array Char}

/-- A compiled expression. -/
def ofExpr (e : Expr) : Regex := ⟨(Program.ofExpr e).1, (Program.ofExpr e).2⟩

theorem ofPattern?_of_parse {pattern : String} (h : parse pattern = some e) :
    ofPattern? pattern = some (ofExpr e) := by
  rw [ofPattern?, h]
  rfl

/-- The start of a text. -/
def Cursor.start : Cursor := ⟨0, none, none⟩

/-- Only beginnings of a text match. -/
def Expr.Anchored (text : Array Char) (e : Expr) : Prop :=
  ∀ c d, e.Leads text c d → c.place = 0 ∧ 0 < d.place

theorem leads_of_findFrom {count place s : Nat} {found : Found}
    (h : findFrom (ofExpr e).program (ofExpr e).start text count place ∅ = some (s, found)) :
    place ≤ s ∧ ∃ d, e.Leads text ⟨s, none, none⟩ d ∧ found = ⟨d.place, d.group⟩ :=
  ⟨(finds_of_findFrom h).1, finds_ofExpr_iff.1 (finds_of_findFrom h).2⟩

/-- Nothing starts to match at a place that a search has passed. -/
theorem not_leads_of_findFrom {place s : Nat} (hplace : place ≤ s) (hsize : s ≤ text.size)
    (h : ∀ r ∈ findFrom (ofExpr e).program (ofExpr e).start text (text.size + 1 - place) place ∅,
      s < r.1) (d : Cursor) : ¬ e.Leads text ⟨s, none, none⟩ d := by
  intro hd
  have hempty : Explored (ofExpr e).program text ∅ [] := fun s _ hs => by simp at hs
  exact not_finds_of_findFrom (closed_ofExpr e) (start_lt_ofExpr e) (by omega) hempty h hplace
    (by omega) (finds_ofExpr_iff.2 ⟨d, hd, rfl⟩)

/-- Nothing is found behind the beginning of the text. -/
theorem findAll_behind (he : e.Anchored text) (fuel : Nat) {place : Nat} (hplace : 0 < place)
    (last : Option Nat) :
    findAll (ofExpr e).program (ofExpr e).start text fuel place last = [] := by
  cases fuel with
  | zero => rfl
  | succ fuel =>
    rw [findAll]
    split
    · rfl
    · split
      · rfl
      · next s found hfind =>
        obtain ⟨hle, d, hd, -⟩ := leads_of_findFrom hfind
        have hzero : s = 0 := (he _ _ hd).1
        omega

/-- What is found is a match at the beginning of the text, if there is one. -/
theorem findAll_of_anchored (he : e.Anchored text) (fuel : Nat) :
    let all := findAll (ofExpr e).program (ofExpr e).start text (fuel + 1) 0 none
    (all = [] ∧ ∀ d, ¬ e.Leads text .start d) ∨
      ∃ d, e.Leads text .start d ∧ all = [⟨d.place, d.group⟩] := by
  rw [findAll, if_neg (Nat.not_lt_zero _)]
  split
  · next hnone =>
    exact .inl ⟨rfl, not_leads_of_findFrom (Nat.le_refl 0) (Nat.zero_le _) (hnone ▸ nofun)⟩
  · next s found hfind =>
    obtain ⟨-, d, hd, rfl⟩ := leads_of_findFrom hfind
    obtain ⟨hzero, hpos⟩ := he _ _ hd
    obtain rfl : s = 0 := hzero
    refine .inr ⟨d, hd, ?_⟩
    rw [findAll_behind he fuel hpos]
    exact if_neg (by simp)

/-- The group is that of a match at the beginning of the text, if there is one. -/
theorem groups_of_anchored {l : List Char} (he : e.Anchored l.toArray) :
    ((ofExpr e).groups (String.ofList l) = [] ∧ ∀ d, ¬ e.Leads l.toArray .start d) ∨
      ∃ d, e.Leads l.toArray .start d ∧ (ofExpr e).groups (String.ofList l) =
        (d.group.map fun g => String.ofList ((l.drop g.1).take (g.2 - g.1))).toList := by
  rw [groups, String.toList_ofList]
  rcases findAll_of_anchored he (2 * l.toArray.size + 1) with ⟨hall, hnone⟩ | ⟨d, hd, hall⟩
  · exact .inl ⟨by rw [hall]; rfl, hnone⟩
  · refine .inr ⟨d, hd, ?_⟩
    rw [hall]
    cases hgroup : d.group with
    | none => simp
    | some g => simp [List.extract_eq_take_drop]

end Layering.Regex
