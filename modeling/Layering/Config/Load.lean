import Layering.Data.Json.Reader
import Layering.Data.Toml.Reader
import Layering.Data.Yaml.Reader
import Layering.Files.Lookup

/-!
# Loading configuration files

A configuration file is in one of three notations, which the extension of its name
tells. The file is read before its notation is known.
-/

namespace Layering

open Data

/-- Why a configuration file does not hold a configuration. -/
inductive LoadError
  | unreadable (file : String) (cause : Files.FileError)
  | unsupportedFormat (file : String)
  | toml (cause : Mismatch)
  | yaml (cause : Mismatch)
  | json (cause : Mismatch)
  deriving DecidableEq

/-- The text of an error. Only the mismatches of JSON texts are told. -/
def LoadError.message : LoadError → String
  | unreadable file e => "cannot read config file " ++ file ++ ": " ++ e.message
  | unsupportedFormat file => "unsupported config format: " ++ file
  | toml _ => "TOML config error"
  | yaml _ => "YAML config error"
  | json e =>
    match e.message? with
    | some m => "JSON config error: " ++ m
    | none => "JSON config error"

/-- A notation of configuration files. -/
inductive ConfigFormat
  | toml
  | yaml
  | json
  deriving DecidableEq

namespace ConfigFormat

/-- The notation of a file, by the extension of its name. -/
def ofFile? (file : String) : Option ConfigFormat :=
  let name := (Files.components (Text.encode file.toList)).getLastD []
  match (Files.extension? name).bind Text.decode? with
  | some "toml" => some toml
  | some "yaml" | some "yml" => some yaml
  | some "json" => some json
  | _ => none

/-- Reads a value of a type off a text. -/
def decode {α : Type} (f : ConfigFormat) (d : Decoder α) (text : String) : Except LoadError α :=
  match f with
  | toml => (Toml.decode d text).mapError .toml
  | yaml => (Yaml.decode d text).mapError .yaml
  | json => (Json.decode d text).mapError .json

end ConfigFormat

/-- The value of a type that a file holds, whose text is given unless it cannot be
read. -/
def loadConfig {α : Type} (d : Decoder α) (file : String) (text : Except Files.FileError String) :
    Except LoadError α := do
  let text ← text.mapError (.unreadable file)
  match ConfigFormat.ofFile? file with
  | some f => f.decode d text
  | none => throw (.unsupportedFormat file)

end Layering
