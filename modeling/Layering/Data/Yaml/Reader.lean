import Layering.Data.Decode
import Layering.Data.Yaml.Lexer

/-!
# Reading YAML

A text holds one document at most. An alias stands for the node with its anchor; a
node that holds an alias of itself stands for no value there. No reason is ever
shown for why a text is no document.
-/

namespace Layering.Data.Yaml

/-- The nodes that have an anchor, the last one first, each by number and name. -/
abbrev Anchors := List (Nat × String × Node)

/-- What is left to read, the anchors so far, and the handles of tags. -/
structure Feed where
  tokens : List Token
  anchors : Anchors
  handles : List (String × String)

/-- Reads something off the tokens. -/
abbrev Parse := StateT Feed Option

/-- The next token. -/
def peek : Parse (Option Token) := fun f => some (f.tokens.head?, f)

/-- Drops the next token. -/
def next : Parse Unit := fun f => some ((), { f with tokens := f.tokens.tail })

/-- Whether the next token is one of some. -/
def isNext (ts : List Token) : Parse Bool := do
  match ← peek with
  | some t => return ts.contains t
  | none => return false

/-- Drops the next token if it is the one given. -/
def skipIf (t : Token) : Parse Bool := do
  if ← isNext [t] then
    next
    return true
  return false

/-- A node that is not written. -/
def missing : Node := .plain ""

/-- The handles that every document knows. -/
def standardHandles : List (String × String) := [("!", "!"), ("!!", "tag:yaml.org,2002:")]

/-- The tag of a handle and a suffix. -/
def fullTag (handle suffix : String) : Parse String := fun f =>
  if handle.isEmpty then some (suffix, f)
  else (f.handles.lookup handle).map fun start => (start ++ suffix, f)

/-- Reads an anchor, if there is one. -/
def readAnchor : Parse (Option String) := do
  match ← peek with
  | some (.anchor name) => do
    next
    return some name
  | _ => return none

/-- Reads a tag, if there is one. -/
def readNodeTag : Parse (Option String) := do
  match ← peek with
  | some (.tag handle suffix) => do
    next
    return some (← fullTag handle suffix)
  | _ => return none

/-- Reads an anchor and a tag, in any order. -/
def readProperties : Parse (Option String × Option String) := do
  match ← readAnchor with
  | some a => return (some a, ← readNodeTag)
  | none => do
    match ← readNodeTag with
    | some tag => return (← readAnchor, some tag)
    | none => return (none, none)

/-- Notes that a node with an anchor begins. Until it ends it has no value. -/
def openAnchor (anchor : Option String) : Parse (Option Nat) := fun f =>
  match anchor with
  | some name =>
    let number := f.anchors.length
    some (some number, { f with anchors := (number, name, .unvalued) :: f.anchors })
  | none => some (none, f)

/-- Notes that a node with an anchor has ended. -/
def closeAnchor (number : Option Nat) (n : Node) : Parse Node := fun f =>
  match number with
  | some k =>
    some (n, { f with
      anchors := f.anchors.map fun a => if a.1 = k then (a.1, a.2.1, n) else a })
  | none => some (n, f)

/-- The node that an alias stands for. -/
def resolveAlias (name : String) : Parse Node := fun f =>
  (f.anchors.find? (·.2.1 == name)).map fun a => (a.2.2, f)

/-- A node with a tag. The tag `!` on a scalar that is written counts for nothing. -/
def tagged (tag : Option String) (written : Bool) (n : Node) : Node :=
  match tag, n with
  | some "!", .plain s => if written then .plain s else .tagged "!" (.plain s)
  | some "!", .text s => .text s
  | some t, n => .tagged t n
  | none, n => n

mutual

/-- Reads a node: in a block, or within brackets, or as the value of a key, where
the items of a sequence need not be indented. -/
def readNode : (fuel : Nat) → (block unindented : Bool) → Parse Node
  | 0, _, _ => failure
  | fuel + 1, block, unindented => do
    match ← peek with
    | some (.alias name) => do
      next
      resolveAlias name
    | _ => do
      let (anchor, tag) ← readProperties
      let number ← openAnchor anchor
      let token ← peek
      let n ← match token with
        | some (.scalar s plain) => do
          next
          pure (if plain then .plain s else .text s)
        | some .flowSequence => do
          next
          Node.ofList <$> readFlowItems fuel true
        | some .flowMapping => do
          next
          (Node.map · true) <$> readFlowEntries fuel true
        | some .blockEntry =>
          if unindented then Node.ofList <$> readItems fuel [.blockEntry, .key, .value, .blockEnd]
          else if anchor.isSome || tag.isSome then pure missing
          else failure
        | some .blockSequence =>
          if block then do
            next
            let items ← readItems fuel [.blockEntry, .blockEnd]
            if ← skipIf .blockEnd then pure (Node.ofList items) else failure
          else if anchor.isSome || tag.isSome then pure missing
          else failure
        | some .blockMapping =>
          if block then do
            next
            (Node.map · true) <$> readEntries fuel
          else if anchor.isSome || tag.isSome then pure missing
          else failure
        | _ => if anchor.isSome || tag.isSome then pure missing else failure
      let written := match token with
        | some (.scalar _ _) => true
        | _ => false
      closeAnchor number (tagged tag written n)

/-- Reads a node unless one of some tokens comes next. -/
def readUnless : (fuel : Nat) → (block unindented : Bool) → List Token → Parse Node
  | 0, _, _, _ => failure
  | fuel + 1, block, unindented, ts => do
    if ← isNext ts then return missing
    readNode fuel block unindented

/-- Reads the items of a sequence without brackets. An item is missing in front of
some tokens. -/
def readItems : (fuel : Nat) → List Token → Parse (List Node)
  | 0, _ => failure
  | fuel + 1, ends => do
    if ← skipIf .blockEntry then
      let n ← readUnless fuel true false ends
      return n :: (← readItems fuel ends)
    return []

/-- Reads the entries of a mapping without brackets. -/
def readEntries : (fuel : Nat) → Parse (List (Node × Node))
  | 0 => failure
  | fuel + 1 => do
    if ← skipIf .blockEnd then return []
    if ← skipIf .key then
      let k ← readUnless fuel true true [.key, .value, .blockEnd]
      let v ←
        if ← skipIf .value then readUnless fuel true true [.key, .value, .blockEnd]
        else pure missing
      return (k, v) :: (← readEntries fuel)
    failure

/-- Reads the items of a sequence in brackets. -/
def readFlowItems : (fuel : Nat) → (first : Bool) → Parse (List Node)
  | 0, _ => failure
  | fuel + 1, first => do
    if ← skipIf .flowSequenceEnd then return []
    if !first then
      if !(← skipIf .flowEntry) then failure
      if ← skipIf .flowSequenceEnd then return []
    if ← skipIf .key then
      let k ←
        if ← isNext [.value, .flowEntry, .flowSequenceEnd] then do
          next
          pure missing
        else readNode fuel false false
      let v ←
        if ← skipIf .value then readUnless fuel false false [.flowEntry, .flowSequenceEnd]
        else pure missing
      return .map [(k, v)] true :: (← readFlowItems fuel false)
    let n ← readNode fuel false false
    return n :: (← readFlowItems fuel false)

/-- Reads the entries of a mapping in braces. -/
def readFlowEntries : (fuel : Nat) → (first : Bool) → Parse (List (Node × Node))
  | 0, _ => failure
  | fuel + 1, first => do
    if ← skipIf .flowMappingEnd then return []
    if !first then
      if !(← skipIf .flowEntry) then failure
      if ← skipIf .flowMappingEnd then return []
    if ← skipIf .key then
      let k ← readUnless fuel false false [.value, .flowEntry, .flowMappingEnd]
      let v ←
        if ← skipIf .value then readUnless fuel false false [.flowEntry, .flowMappingEnd]
        else pure missing
      return (k, v) :: (← readFlowEntries fuel false)
    let k ← readNode fuel false false
    return (k, missing) :: (← readFlowEntries fuel false)

end

/-- Reads the directives in front of a document. There may be one version, and each
handle once. -/
def readDirectives : (fuel : Nat) → (versioned : Bool) → (own : List (String × String)) →
    Parse (List (String × String))
  | 0, _, _ => failure
  | fuel + 1, versioned, own => do
    match ← peek with
    | some (.version major minor) => do
      next
      if versioned || major != 1 || (minor != 1 && minor != 2) then failure
      readDirectives fuel true own
    | some (.tagHandle handle start) => do
      next
      if (own.lookup handle).isSome then failure
      readDirectives fuel versioned ((handle, start) :: own)
    | _ => return own

/-- Drops the marks at the end of a document. -/
def dropEnds : List Token → List Token
  | .documentEnd :: ts => dropEnds ts
  | ts => ts

/-- Whether the content of a document is missing in front of a token. -/
def endsDocument : Option Token → Bool
  | none => true
  | some (.version _ _) | some (.tagHandle _ _) | some .documentStart | some .documentEnd => true
  | _ => false

/-- Reads the directives of a document and the mark of its start, which may be left
out if there are none. The answer is whether it is there. -/
def readStart (fuel : Nat) : Parse Bool := do
  let before := (← get).tokens.length
  let own ← readDirectives fuel false []
  let bare := (← get).tokens.length = before
  modify fun f => { f with handles := own ++ standardHandles }
  let marked ← skipIf .documentStart
  if marked || bare then return marked
  failure

/-- Reads the document. -/
def readDocument (fuel : Nat) : Parse Node := do
  if (← peek).isNone then return missing
  let marked ← readStart fuel
  let n ← if marked && endsDocument (← peek) then pure missing else readNode fuel true false
  if (dropEnds (← get).tokens).isEmpty then return n else failure

/-- The document in a text. -/
def read? (s : String) : Option Node := do
  let ts ← tokens? s
  let (n, _) ← (readDocument (4 * ts.length + 4)).run ⟨ts, [], []⟩
  return n

/-- The room of a document: containers nest up to 128 levels. -/
def documentRoom : Nat := fullRoom + 1

/-- Reads a value of a type off a YAML text. -/
def decode {α : Type} (d : Decoder α) (s : String) : Except Mismatch α :=
  match read? s with
  | some n => d .yaml documentRoom n
  | none => .error .malformed

end Layering.Data.Yaml
