import Layering.Rules.Basic

/-!
# The built-in rules

Keyword tables for a runtime written in C: layers from the inside out, and one
responsibility for each kind of work.
-/

namespace Layering

namespace PathPredicate

/-- Directories and files that talk to the operating system. -/
def system : PathPredicate := .contains ["sys/", "sys_"]

/-- Encoding and decoding of big numbers. -/
def bigCodec : PathPredicate := .all [.contains ["big"], .contains ["encode", "decode"]]

/-- Tracing. -/
def trace : PathPredicate := .contains ["trace"]

end PathPredicate

namespace RuleSet

open PathPredicate (system bigCodec trace)

/-- The built-in rules for layers. -/
def standardLayers : List (Rule Layer) := [
  ⟨.all [
      .contains ["atom", "term", "binary", "bits", "map", "big", "export", "register"],
      .not (.contains ["erl_interface"])],
    .entities⟩,
  ⟨.contains ["bif_", "process", "sched", "gc", "alloc", "heap"], .useCases⟩,
  ⟨.contains ["io", "port", "dist", "external", "nif", "driver"], .adapters⟩,
  ⟨.contains ["sys/", "win32", "unix", "sys_", "erl_sys", "erts_sys"], .frameworks⟩,
  ⟨.contains ["utils", "common", "hash", "time", "debug", "trace", "erl_interface"],
    .infrastructure⟩,
  ⟨.all [
      .contains ["code", "module", "beam_load", "code_ix"],
      .not trace,
      .not bigCodec],
    .codeManagement⟩]

/-- The built-in rules for responsibilities. -/
def standardResponsibilities : List (Rule String) := [
  ⟨.all [system, .contains ["win32"]], "system_integration_win32"⟩,
  ⟨.all [system, .contains ["unix"]], "system_integration_unix"⟩,
  ⟨.all [system, .contains ["common"]], "system_integration_common"⟩,
  ⟨system, "system_integration"⟩,
  ⟨.all [bigCodec, .contains ["bignum"]], "bignum_encoding_gmp"⟩,
  ⟨bigCodec, "bignum_encoding"⟩,
  ⟨.all [trace, .contains ["encode", "decode"]], "trace_encoding"⟩,
  ⟨.contains ["alloc", "gc", "heap", "memory"], "memory_management"⟩,
  ⟨.contains ["process", "sched"], "process_management"⟩,
  ⟨.contains ["term", "binary", "bits", "atom", "map"], "data_handling"⟩,
  ⟨.contains ["io", "port"], "io_operations"⟩,
  ⟨.contains ["dist", "external"], "distribution"⟩,
  ⟨.all [.contains ["code", "module", "export", "beam_load"], .not trace], "code_loading"⟩,
  ⟨.contains ["bif"], "bifs"⟩,
  ⟨.contains ["db", "ets"], "ets_tables"⟩,
  ⟨.contains ["time", "timer"], "time_management"⟩,
  ⟨.contains ["debug", "trace"], "debugging"⟩,
  ⟨.contains ["nif"], "nifs"⟩,
  ⟨.contains ["driver"], "drivers"⟩]

/-- The built-in rules. -/
def standard : RuleSet :=
  { empty with layerRules := standardLayers, responsibilityRules := standardResponsibilities }

end RuleSet

end Layering
