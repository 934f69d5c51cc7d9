import Layering.Command.Run
import Layering.Proofs.Document

/-!
# From a tree to a report

A report on a tree comes about in one step, or in two with the corpus in a file between
them. A corpus in a file is the one that was written, in the same order
(`Corpus.ofJson_append`), so the two ways end alike, in a report or in an error
(`Command.routes_agree`).
-/

namespace Layering

open Data

/-- The files after a text has been put into one of them. -/
def CommandInput.withText (input : CommandInput) (file text : String) : CommandInput :=
  { input with text := fun f => if f = file then .ok text else input.text f }

namespace Command

variable {input : CommandInput} {time corpus blanks : String} {settings : Settings} {c : Corpus}

/-- Runs a command whose settings have been loaded. -/
def executeWith (settings : Settings) (input : CommandInput) (time : String) :
    Command → Except CommandError CommandOutput
  | scan root files => do return ⟨files.output, (← scanTree input settings root).toJson, none⟩
  | analyze corpus files => do report settings (← loadCorpus input corpus) time files.output
  | run root files => do report settings (← scanTree input settings root) time files.output
  | rules format => do return ⟨none, ← settingsText format, none⟩

theorem execute_of_ok {command : Command}
    (h : loadSettings input command.files.settings = .ok settings) :
    execute input time command = executeWith settings input time command := by
  cases command with
  | rules => rfl
  | scan | analyze | run =>
    rw [files] at h
    rw [execute, h]
    rfl

/-- Settings in another file stay as they are. -/
theorem loadSettings_withText (input : CommandInput) {settings : Option String}
    (h : settings ≠ some corpus) (json : String) :
    loadSettings (input.withText corpus json) settings = loadSettings input settings := by
  cases settings with
  | none => rfl
  | some file =>
    have htext : (input.withText corpus json).text file = input.text file :=
      if_neg fun hfile => h (congrArg some hfile)
    rw [loadSettings, loadSettings, htext]

theorem loadCorpus_withText (hb : ∀ b ∈ blanks.toList, Json.isSpace b) :
    loadCorpus (input.withText corpus (c.toJson ++ blanks)) corpus = .ok c := by
  have htext : (input.withText corpus (c.toJson ++ blanks)).text corpus =
    .ok (c.toJson ++ blanks) := if_pos rfl
  rw [loadCorpus, htext]
  simp only [Except.mapError, bind, Except.bind, Corpus.ofJson_append c hb]

/-- Analyzing what a scan has written, with or without blanks after it, ends as running
does, and where there is no scan, running ends in the same error. -/
structure Agree (scanned ran : Except CommandError CommandOutput)
    (analyzed : String → Except CommandError CommandOutput) : Prop where
  of_ok : ∀ o, scanned = .ok o → ∀ blanks : String, (∀ b ∈ blanks.toList, Json.isSpace b) →
    analyzed (o.text ++ blanks) = ran
  of_error : ∀ e, scanned = .error e → ran = .error e

theorem Agree.of_errors (e : CommandError)
    (analyzed : String → Except CommandError CommandOutput) : Agree (.error e) (.error e) analyzed :=
  ⟨fun _ h => (nomatch h), fun _ => id⟩

theorem agree_executeWith (settings : Settings) (input : CommandInput) (time root corpus : String)
    (scanFiles files : CommandFiles) :
    Agree (executeWith settings input time (.scan root scanFiles))
      (executeWith settings input time (.run root files))
      fun json => executeWith settings (input.withText corpus json) time (.analyze corpus files) := by
  simp only [executeWith]
  cases scanTree input settings root with
  | error e => exact .of_errors e _
  | ok c =>
    refine ⟨fun o h blanks hb => ?_, fun _ h => nomatch h⟩
    obtain rfl := Except.ok.inj h
    rw [loadCorpus_withText hb]

/-- The two ways from a tree to a report agree, whatever the settings are, and also if
they are loaded each time from a file that is not the one for the corpus. -/
theorem routes_agree (input : CommandInput) (time root corpus : String)
    (output output' : Option String) :
    (∀ settings : Settings,
      Agree (executeWith settings input time (.scan root ⟨none, output⟩))
        (executeWith settings input time (.run root ⟨none, output'⟩))
        fun json => executeWith settings (input.withText corpus json) time
          (.analyze corpus ⟨none, output'⟩)) ∧
    ∀ file, file ≠ some corpus →
      Agree (execute input time (.scan root ⟨file, output⟩))
        (execute input time (.run root ⟨file, output'⟩))
        fun json => execute (input.withText corpus json) time (.analyze corpus ⟨file, output'⟩) := by
  refine ⟨fun settings => agree_executeWith settings _ _ _ _ _ _, fun file hfile => ?_⟩
  cases h : loadSettings input file with
  | error e =>
    rw [execute, execute, h]
    exact .of_errors e _
  | ok settings =>
    have hload := fun json => (loadSettings_withText input hfile json).trans h
    have hanalyze : ∀ json,
        execute (input.withText corpus json) time (.analyze corpus ⟨file, output'⟩) =
          executeWith settings (input.withText corpus json) time (.analyze corpus ⟨file, output'⟩) :=
      fun json => execute_of_ok (hload json)
    rw [execute_of_ok h, execute_of_ok h, funext hanalyze]
    exact agree_executeWith settings _ _ _ _ _ _

/-- Settings that leave no file out and look for no entry points. -/
def plainSettings : Settings :=
  { Settings.standard with
    scan := { ScanConfig.standard with exclude := [], entryPatterns := [] } }

/-- A tree with a quotation mark in a name and with a reference that is not text. -/
def quotedTree : Files.Place := .top [
  (Text.encode "a\".c".toList,
    .file (Text.encode "#include \"".toList ++ [0xFF] ++ Text.encode ".h\"\n".toList)),
  (Text.encode "é.h".toList, .file [])]

/-- The tree as the directory of the command. -/
def quotedInput : CommandInput where
  text _ := .error .notFound
  dir? root := if root = "." then some quotedTree else none

/-- The corpus of the tree. -/
def quotedCorpus : Corpus where
  units := [⟨"a\".c", [], ["\uFFFD.h"], false⟩, ⟨"é.h", [], [], false⟩]
  sound := by decide +kernel

theorem scanTree_quotedInput : scanTree quotedInput plainSettings "." = .ok quotedCorpus := by
  have hscanner : Scanner.ofConfig plainSettings.scan = .ok ⟨[], plainSettings.scan, []⟩ := rfl
  have hunits : (quotedTree.files true).filterMap
      (Scanner.unit? ⟨[], plainSettings.scan, []⟩) = quotedCorpus.units := by decide +kernel
  have hsorted : quotedCorpus.units.mergeSort Corpus.byPath = quotedCorpus.units :=
    List.mergeSort_of_pairwise (by decide +kernel)
  have hcorpus : Corpus.sorted quotedCorpus.units = .ok quotedCorpus := by
    rw [Corpus.sorted, hsorted]
    exact Corpus.ofUnits_eq_ok_iff.2 rfl
  have hplace : Scanner.scanPlace ⟨[], plainSettings.scan, []⟩ quotedTree = .ok quotedCorpus := by
    have hfiles : quotedTree.files
      (Scanner.config ⟨[], plainSettings.scan, []⟩).respectIgnoreFiles = quotedTree.files true := rfl
    rw [Scanner.scanPlace, hfiles, hunits, hcorpus]
    rfl
  have hdir : quotedInput.dir? "." = some quotedTree := rfl
  rw [scanTree, hscanner, hdir]
  simp only [Except.mapError, bind, Except.bind, Scanner.scan, hplace]

/-- The corpus of the tree goes through a file, and without its settings file neither
command runs. -/
theorem routes_agree_quoted :
    executeWith plainSettings (quotedInput.withText "corpus.json" (quotedCorpus.toJson ++ "\n")) ""
        (.analyze "corpus.json" ⟨none, none⟩) =
      executeWith plainSettings quotedInput "" (.run "." ⟨none, none⟩) ∧
    execute quotedInput "" (.run "." ⟨some "rules.toml", none⟩) =
      .error (.settings "rules.toml" (.unreadable "rules.toml" .notFound)) := by
  have hscan : executeWith plainSettings quotedInput "" (.scan "." ⟨none, none⟩) =
      .ok ⟨none, quotedCorpus.toJson, none⟩ := by
    rw [executeWith, scanTree_quotedInput]
    rfl
  have hmissing : execute quotedInput "" (.scan "." ⟨some "rules.toml", none⟩) =
      .error (.settings "rules.toml" (.unreadable "rules.toml" .notFound)) := rfl
  obtain ⟨hsettings, hfile⟩ := routes_agree quotedInput "" "." "corpus.json" none none
  exact ⟨(hsettings plainSettings).of_ok _ hscan "\n" (List.all_eq_true.1 rfl),
    (hfile (some "rules.toml") (by decide)).of_error _ hmissing⟩

end Command

end Layering
