/-!
# Occurrences of a text in another

* `occurs_iff`: `occurs` decides "is a contiguous part of".
-/

namespace Layering.Text

/-- Whether `needle` is a contiguous part of a text. -/
def occurs (needle : List Char) : List Char → Bool
  | [] => needle.isEmpty
  | c :: l => needle.isPrefixOf (c :: l) || occurs needle l

theorem occurs_iff {needle l : List Char} : occurs needle l ↔ needle <:+: l := by
  induction l with
  | nil => cases needle <;> simp [occurs]
  | cons c l ih => rw [occurs, Bool.or_eq_true, List.isPrefixOf_iff_prefix, ih, List.infix_cons_iff]

/-- Whether `t` is a contiguous part of `s`. -/
def contains (s t : String) : Bool := occurs t.toList s.toList

/-- Whether `s` ends with `t`. -/
def endsWith (s t : String) : Bool := t.toList.isSuffixOf s.toList

/-- Whether two texts are equal when the case of ASCII letters is ignored. -/
def eqIgnoreAsciiCase (s t : String) : Bool :=
  s.toList.map Char.toLower == t.toList.map Char.toLower

end Layering.Text
