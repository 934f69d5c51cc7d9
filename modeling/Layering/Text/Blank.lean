/-!
# Blanks, words and lines

The white space of a text, and the cuts made at it: `trim` takes it off both
ends, `words` splits at runs of it, `lines` splits at line feeds and drops the
carriage return in front of one.

* `trim_eq_self`: a text whose ends are not blank is its own trim.
-/

namespace Layering.Text

/-- The characters with the property `White_Space`. -/
def isBlank (c : Char) : Bool :=
  let n := c.toNat
  (9 ≤ n && n ≤ 13) || n == 0x20 || n == 0x85 || n == 0xA0 || n == 0x1680 ||
    (0x2000 ≤ n && n ≤ 0x200A) || n == 0x2028 || n == 0x2029 || n == 0x202F || n == 0x205F ||
    n == 0x3000

/-- A text without the characters of a class at its end. -/
def dropEndWhile (p : Char → Bool) (l : List Char) : List Char := (l.reverse.dropWhile p).reverse

/-- A text without the characters of a class at its ends. -/
def stripWhile (p : Char → Bool) (l : List Char) : List Char := dropEndWhile p (l.dropWhile p)

/-- A text without the blanks at its ends. -/
def trim (l : List Char) : List Char := stripWhile isBlank l

/-- The maximal runs of characters outside a class, in order. `run` is the run
under way, last character first. -/
def splitRuns (p : Char → Bool) (run : List Char) : List Char → List (List Char)
  | [] => if run.isEmpty then [] else [run.reverse]
  | c :: l =>
    if p c then (if run.isEmpty then splitRuns p [] l else run.reverse :: splitRuns p [] l)
    else splitRuns p (c :: run) l

/-- The words of a text: its maximal runs without a blank. -/
def words (l : List Char) : List (List Char) := splitRuns isBlank [] l

/-- The pieces between the separators `sep`; one more piece than separators. -/
def splitOn {α : Type} [DecidableEq α] (sep : α) : List α → List (List α)
  | [] => [[]]
  | c :: l =>
    if c = sep then [] :: splitOn sep l
    else
      match splitOn sep l with
      | [] => [[c]]
      | p :: ps => (c :: p) :: ps

/-- A line without a carriage return at its end. -/
def dropReturn (l : List Char) : List Char :=
  match l.reverse with
  | '\r' :: r => r.reverse
  | _ => l

/-- Lines from the pieces between line feeds: a piece that a line feed follows
loses its carriage return, the last one counts only if it is not empty. -/
def closeLines : List (List Char) → List (List Char)
  | [] => []
  | [p] => if p.isEmpty then [] else [p]
  | p :: q :: ps => dropReturn p :: closeLines (q :: ps)

/-- The lines of a text: each ends with a line feed, the last may also end with
the text. A carriage return in front of the line feed is left out. -/
def lines (l : List Char) : List (List Char) := closeLines (splitOn '\n' l)

theorem splitOn_ne_nil {α : Type} [DecidableEq α] (sep : α) (l : List α) : splitOn sep l ≠ [] := by
  cases l with
  | nil => simp [splitOn]
  | cons c l =>
    rw [splitOn]
    split
    · simp
    · split <;> simp

theorem stripWhile_eq_self {p : Char → Bool} {l : List Char} (h : ∀ c ∈ l.head?, p c = false)
    (h' : ∀ c ∈ l.getLast?, p c = false) : stripWhile p l = l := by
  have hd : ∀ m : List Char, (∀ c ∈ m.head?, p c = false) → m.dropWhile p = m := fun m hm => by
    cases m with
    | nil => rfl
    | cons c m => rw [List.dropWhile_cons, if_neg (by simp [hm c rfl])]
  rw [stripWhile, hd l h, dropEndWhile, hd, List.reverse_reverse]
  simpa using h'

/-- A text whose ends are not blank is its own trim. -/
theorem trim_eq_self {l : List Char} (h : ∀ c ∈ l.head?, isBlank c = false)
    (h' : ∀ c ∈ l.getLast?, isBlank c = false) : trim l = l := stripWhile_eq_self h h'

end Layering.Text
