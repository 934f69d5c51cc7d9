import Layering.Config.Basic
import Layering.Corpus
import Layering.Scan.Walk
import Layering.Source.Facts

/-!
# Scanning a tree

A scan turns the files below a directory into a corpus: those with one of the
configured extensions whose path is text and is not excluded. Each file becomes a
unit that is called by its path from the directory, and the corpus is in the order
of these paths.
-/

namespace Layering

/-- Why a tree is not scanned. -/
inductive ScanError
  | notADirectory (root : String)
  | invalidExclude (pattern : String) (cause : Glob.GlobError)
  | invalidPattern (pattern : String)
  | corpus (cause : CorpusError)
  deriving DecidableEq

/-- The text of an error. -/
def ScanError.message : ScanError → String
  | notADirectory root => "scan root " ++ root ++ " is not a directory"
  | invalidExclude p e => "invalid exclude pattern " ++ Text.quoted p ++ ": " ++ Glob.describeError p e
  | invalidPattern _ => "invalid pattern"
  | corpus e => e.message

/-- Whether files with a name are scanned. -/
def ScanConfig.wantsName (c : ScanConfig) (name : Files.Name) : Bool :=
  match (Files.extension? name).bind Text.decode? with
  | some ext => c.wantsExtension ext
  | none => false

/-- Whether a scan looks at the content of files with a name. -/
def ScanConfig.reads (c : ScanConfig) (name : Files.Name) : Bool :=
  c.wantsName name || IgnoreRules.isIgnoreFile name

/-- A scan configuration whose patterns have been compiled. -/
structure Scanner where
  exclude : List Glob
  extractor : Extractor

namespace Scanner

/-- How excluded paths are matched: case matters, and a star goes across slashes. -/
def excludeOptions : Glob.Options := ⟨false, false, false⟩

/-- Reads globs up to the first that is none. -/
def readExclude : List String → Except ScanError (List Glob)
  | [] => .ok []
  | p :: ps =>
    match Glob.parse excludeOptions p with
    | .ok g => (readExclude ps).map (g :: ·)
    | .error e => .error (.invalidExclude p e)

/-- The scanner of a configuration. -/
def ofConfig (c : ScanConfig) : Except ScanError Scanner := do
  let exclude ← readExclude c.exclude
  let extractor ← (Extractor.ofConfig c).mapError .invalidPattern
  return ⟨exclude, extractor⟩

/-- The configuration of a scanner. -/
def config (s : Scanner) : ScanConfig := s.extractor.config

/-- Texts as a list of quotations. -/
def quotedList (texts : List String) : String :=
  "[" ++ ", ".intercalate (texts.map Text.quoted) ++ "]"

/-- A scanner in words. -/
def describe (s : Scanner) : String :=
  "Scanner \x7b extensions: " ++ quotedList s.config.extensions ++ ", exclude: " ++
    quotedList s.config.exclude ++ " \x7d"

/-- Names as a path, if they are text. -/
def pathText? (path : List Files.Name) : Option String :=
  (path.mapM Text.decode?).map fun names => "/".intercalate names

/-- Whether a path is excluded. -/
def excludes (s : Scanner) (path : String) : Bool := s.exclude.any (·.isMatch path)

/-- The unit of a file, if the file is scanned. Bytes of its content that are not
text are replaced. -/
def unit? (s : Scanner) (f : Files.FoundFile) : Option SourceUnit :=
  if s.config.wantsName (f.path.getLastD []) then
    match pathText? f.path with
    | some path =>
      if s.excludes path then none
      else some (s.extractor.unit path (Text.decodeLossy f.content))
    | none => none
  else none

/-- The corpus of the files below a directory. -/
def scanPlace (s : Scanner) (p : Files.Place) : Except ScanError Corpus :=
  (Corpus.sorted ((p.files s.config.respectIgnoreFiles).filterMap s.unit?)).mapError .corpus

/-- The corpus of the files below a root, if that leads to a directory. -/
def scan (s : Scanner) (root : String) (dir : Option Files.Place) : Except ScanError Corpus :=
  match dir with
  | some p => s.scanPlace p
  | none => .error (.notADirectory root)

end Scanner

end Layering
