import Layering.Analysis
import Layering.Command.Args
import Layering.Config.Load
import Layering.Corpus.Document
import Layering.Data.Toml.Writer
import Layering.Report.Document
import Layering.Scanner
import Layering.Settings

/-!
# Running commands

What a command makes of the files it is given: a text, and where that goes. Reading
and writing files is left to the caller.
-/

namespace Layering

open Data

/-- Why a command fails. -/
inductive CommandError
  | settings (file : String) (cause : LoadError)
  | unreadableCorpus (file : String) (cause : Files.FileError)
  | malformedCorpus (file : String) (cause : CorpusError)
  | scanner (cause : ScanError)
  | scan (root : String) (cause : ScanError)
  | analysis (cause : AnalysisError)
  | unwritable (file : String) (cause : Files.FileError)
  /-- The notation cannot hold the settings. -/
  | unwrittenSettings
  deriving DecidableEq

namespace CommandError

/-- What the program was doing. -/
def message : CommandError → String
  | settings file _ => "loading settings from " ++ file
  | unreadableCorpus file _ => "reading corpus " ++ file
  | malformedCorpus file _ => "parsing corpus " ++ file
  | scanner _ => "building scanner"
  | scan root _ => "scanning " ++ root
  | analysis _ => "analysis failed"
  | unwritable file _ => "writing " ++ file
  | unwrittenSettings => "serializing settings"

/-- What went wrong. -/
def cause : CommandError → String
  | settings _ e => e.message
  | unreadableCorpus _ e => e.message
  | malformedCorpus _ e => e.message
  | scanner e => e.message
  | scan _ e => e.message
  | analysis e => e.message
  | unwritable _ e => e.message
  | unwrittenSettings => "serializing nested enums in YAML is not supported yet"

end CommandError

/-- The files that a command may look at. -/
structure CommandInput where
  text : String → Except Files.FileError String
  dir? : String → Option Files.Place

/-- What a command writes, to a file or to the standard output, and what it tells
beside it. -/
structure CommandOutput where
  file : Option String
  text : String
  summary : Option String

/-- Who writes a report. -/
def programName : String := "stratify"

/-- The version of the program. -/
def programVersion : String := "0.1.0"

/-- A report with what wrote it and when. -/
def Report.envelope (r : Report) (time : String) : Node := .ofFields [
  ("tool", .text programName),
  ("version", .text programVersion),
  ("generated_at", .text time),
  ("report", Report.schema.write r)]

namespace Command

/-- The settings in a file, or the built-in ones. -/
def loadSettings (input : CommandInput) : Option String → Except CommandError Settings
  | some file => (loadConfig Settings.read file (input.text file)).mapError (.settings file)
  | none => .ok .standard

/-- The corpus of a tree. -/
def scanTree (input : CommandInput) (settings : Settings) (root : String) :
    Except CommandError Corpus := do
  let s ← (Scanner.ofConfig settings.scan).mapError .scanner
  (s.scan root (input.dir? root)).mapError (.scan root)

/-- The corpus in a file. -/
def loadCorpus (input : CommandInput) (file : String) : Except CommandError Corpus := do
  let json ← (input.text file).mapError (.unreadableCorpus file)
  (Corpus.ofJson json).mapError (.malformedCorpus file)

/-- Analyzes a corpus. -/
def report (settings : Settings) (c : Corpus) (time : String) (file : Option String) :
    Except CommandError CommandOutput := do
  let a ← (Analysis.run c settings.analysis).mapError fun e => .analysis (.config e)
  return ⟨file, Json.pretty (a.report.envelope time), some a.report.summary.text⟩

/-- The built-in settings in a notation. -/
def settingsText : SettingsFormat → Except CommandError String
  | .toml => .ok (Toml.write Settings.standard.write)
  | .json => .ok (Json.pretty Settings.standard.write)
  | .yaml => .error .unwrittenSettings

/-- Runs a command at some time. -/
def execute (input : CommandInput) (time : String) : Command → Except CommandError CommandOutput
  | scan root files => do
    let settings ← loadSettings input files.settings
    let c ← scanTree input settings root
    return ⟨files.output, c.toJson, none⟩
  | analyze corpus files => do
    let settings ← loadSettings input files.settings
    report settings (← loadCorpus input corpus) time files.output
  | run root files => do
    let settings ← loadSettings input files.settings
    report settings (← scanTree input settings root) time files.output
  | rules format => do return ⟨none, ← settingsText format, none⟩

end Command

end Layering
