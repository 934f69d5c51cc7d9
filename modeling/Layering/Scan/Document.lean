import Layering.Data.RecordField
import Layering.Scan.Config

/-!
# Scan configurations as documents

Every field has a default, which counts where the field is absent.
-/

namespace Layering

open Data

/-- Scan configurations in documents. -/
def ScanConfig.schema : Schema ScanConfig where
  name := "ScanConfig"
  initial := .standard
  fields := [
    .texts "extensions" false ScanConfig.extensions fun x r => { r with extensions := x },
    .texts "exclude" false ScanConfig.exclude fun x r => { r with exclude := x },
    .bool "respect_ignore_files" false ScanConfig.respectIgnoreFiles
      fun x r => { r with respectIgnoreFiles := x },
    .bool "skip_standard_headers" false ScanConfig.skipStandardHeaders
      fun x r => { r with skipStandardHeaders := x },
    .texts "standard_headers" false ScanConfig.standardHeaders
      fun x r => { r with standardHeaders := x },
    .texts "system_prefixes" false ScanConfig.systemPrefixes
      fun x r => { r with systemPrefixes := x },
    .texts "entry_patterns" false ScanConfig.entryPatterns fun x r => { r with entryPatterns := x }]

end Layering
