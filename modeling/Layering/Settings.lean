import Layering.Config.Document
import Layering.Scan.Document

/-!
# Settings

What a settings file holds: the configuration of the analysis at the top level and
that of the scan under a name of its own.
-/

namespace Layering

open Data

/-- The configurations of the analysis and of the scan. -/
structure Settings where
  analysis : AnalysisConfig
  scan : ScanConfig

namespace Settings

/-- The settings that are used where no file gives others. -/
def standard : Settings := ⟨.standard, .standard⟩

/-- The fields of its own. -/
def schema : Schema Settings where
  name := "Settings"
  initial := standard
  fields := [.record "scan" false Settings.scan (fun x r => { r with scan := x }) ScanConfig.schema]

/-- Settings as a document. -/
def write (s : Settings) : Node := (AnalysisConfig.schema.write s.analysis).splice (schema.write s)

/-- Reads settings. -/
def read : Decoder Settings := fun c room n => do
  let (s, aside) ← schema.readSpliced c room n
  return { s with analysis := ← AnalysisConfig.schema.readPart room aside }

end Settings

end Layering
