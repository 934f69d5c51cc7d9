import Layering.Config.Basic
import Layering.Corpus
import Layering.Ordered.Map

/-!
# References

What a reference in a unit's text means: a unit of the corpus, none, or several.

Every unit goes by several names: its path, the last component of it, and the
path below each directory that the configuration names as an include root. The
names are gathered once; a reference is then looked up as a path, as a name
below an include root, by its last component, and at last as a part or an end.
-/

namespace Layering

/-- What a reference means. -/
inductive Resolution
  | resolved (id : UnitId)
  | unresolved
  | ambiguous (ids : List UnitId)
  deriving DecidableEq

namespace Reference

/-- Quotes and angle brackets around a reference. -/
def isDelimiter (c : Char) : Bool := c == '"' || c == '<' || c == '>'

/-- A path without the references to the current directory in front of it. -/
def dropHere : List Char → List Char
  | '.' :: '/' :: l => dropHere l
  | l => l

/-- A name in its normal form: no delimiters, slashes between components, no
`./` in front. -/
def normalize (s : String) : String :=
  let bare := Text.trim (Text.stripWhile isDelimiter (Text.trim s.toList))
  String.ofList (dropHere (bare.map fun c => if c = '\\' then '/' else c))

/-- Components with slashes between them. -/
def join : List (List Char) → List Char
  | [] => []
  | [p] => p
  | p :: ps => p ++ '/' :: join ps

/-- The paths below each component that is an include root. -/
def namesBelow (roots : List String) : List (List Char) → List String
  | [] | [_] => []
  | p :: q :: ps =>
    (if roots.contains (String.ofList p) then [String.ofList (join (q :: ps))] else []) ++
      namesBelow roots (q :: ps)

/-- The names of a path below include roots. -/
def includeNames (roots : List String) (path : String) : List String :=
  namesBelow roots (Text.splitOn '/' path.toList)

end Reference

open Reference

/-- Units by name, each list in corpus order. -/
abbrev Names := OrdMap String (List UnitId)

/-- The names with a unit added to those of a name. -/
def Names.add (m : Names) (name : String) (id : UnitId) : Names :=
  m.alter name fun ids => ids.getD [] ++ [id]

/-- The names of the units of a corpus. -/
structure NameIndex where
  byIncludeName : Names
  byBasename : Names
  /-- All names in corpus order. -/
  names : List (String × UnitId)

namespace NameIndex

/-- The index without names. -/
def empty : NameIndex := ⟨.empty, .empty, []⟩

/-- The index with the names of a unit added. -/
def add (roots : List String) (x : NameIndex) (unit : UnitId × SourceUnit) : NameIndex :=
  let (id, u) := unit
  let path := normalize u.path
  let base := Path.basename path
  let below := includeNames roots path
  { byIncludeName := below.foldl (fun m n => m.add n id) x.byIncludeName
    byBasename := x.byBasename.add base id
    names := x.names ++ ((path, id) :: (if base = path then [] else [(base, id)]) ++
      below.map fun n => (n, id)) }

/-- The names of all units of a corpus. -/
def ofCorpus (c : Corpus) (roots : List String) : NameIndex := c.indexed.foldl (add roots) empty

end NameIndex

/-- What looks up references: a corpus, the names of its units, and what to do
with several candidates. -/
structure Resolver where
  corpus : Corpus
  mode : ResolutionMode
  index : NameIndex

namespace Resolver

/-- The resolver of a corpus. -/
def ofCorpus (c : Corpus) (config : ResolutionConfig) : Resolver :=
  ⟨c, config.mode, .ofCorpus c config.includeRoots⟩

/-- What candidates in corpus order mean. -/
def pick (r : Resolver) (ids : List UnitId) : Resolution :=
  match ids.eraseReps, r.mode with
  | [], _ => .unresolved
  | id :: [], _ => .resolved id
  | id :: _, .firstMatch => .resolved id
  | ids, .strict => .ambiguous ids

/-- Whether a name fits a token: it contains it, or the token ends with it. -/
def fits (token : String) (name : String) : Bool :=
  Text.contains name token || Text.endsWith token name

/-- The units with a name that fits a token, each once; the first is enough if
the earliest unit is meant. -/
def fitting (r : Resolver) (token : String) : (found : List UnitId) → List (String × UnitId) →
    List UnitId
  | found, [] => found
  | found, (name, id) :: rest =>
    if fits token name && !found.contains id then
      match r.mode with
      | .firstMatch => [id]
      | .strict => r.fitting token (found ++ [id]) rest
    else r.fitting token found rest

/-- What a reference means. -/
def resolve (r : Resolver) (reference : String) : Resolution :=
  let token := normalize reference
  if token.isEmpty then .unresolved
  else
    match r.corpus.idOf? token with
    | some id => .resolved id
    | none =>
      match r.index.byIncludeName.get? token with
      | some ids => r.pick ids
      | none =>
        match r.index.byBasename.get? (Path.basename token) with
        | some ids => r.pick ids
        | none => r.pick (r.fitting token [] r.index.names)

end Resolver

end Layering
