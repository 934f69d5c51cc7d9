/-!
# Command lines

The commands of the program and how they are given. A command takes at most one
plain argument, and options by letter or by name; an option is given once at most.
Arguments are read from left to right, and the first that is wrong, or asks for
help, decides.
-/

namespace Layering

/-- A notation in which settings are printed. -/
inductive SettingsFormat
  | toml
  | yaml
  | json
  deriving DecidableEq

/-- The settings file and the output file of a command, as far as they are given. -/
structure CommandFiles where
  settings : Option String
  output : Option String
  deriving DecidableEq

/-- A command. -/
inductive Command
  /-- Scans a tree and writes its corpus. -/
  | scan (root : String) (files : CommandFiles)
  /-- Analyzes the corpus in a file. -/
  | analyze (corpus : String) (files : CommandFiles)
  /-- Scans a tree and analyzes its corpus. -/
  | run (root : String) (files : CommandFiles)
  /-- Prints the built-in settings. -/
  | rules (format : SettingsFormat)
  deriving DecidableEq

namespace Command

/-- The settings file and the output file of a command. -/
def files : Command → CommandFiles
  | scan _ f | analyze _ f | run _ f => f
  | rules _ => ⟨none, none⟩

/-- The tree that a command scans. -/
def root? : Command → Option String
  | scan root _ | run root _ => some root
  | analyze _ _ | rules _ => none

/-- The corpus file that a command reads. -/
def corpus? : Command → Option String
  | analyze corpus _ => some corpus
  | _ => none

/-- Why a command line gives no command. -/
inductive ArgsError
  | help
  | wrong
  deriving DecidableEq

/-- An option that takes a value: its letter, its name, and the values it takes, any
but the empty one if there are none here. -/
structure OptionSpec where
  letter : Char
  name : String
  values : List String

/-- What has been read of a command line: the plain argument, the values of options
by name, and whether the program should tell more. -/
structure Given where
  argument : Option String
  values : List (String × String)
  verbose : Bool
  deriving DecidableEq

/-- What arguments a command takes. -/
structure ArgsSpec where
  takesArgument : Bool
  options : List OptionSpec

namespace ArgsSpec

/-- Takes a plain argument. -/
def plain (spec : ArgsSpec) (g : Given) (a : String) : Except ArgsError Given :=
  if spec.takesArgument && g.argument.isNone && !a.isEmpty then .ok { g with argument := some a }
  else .error .wrong

/-- Takes a flag that is given by a letter or a name. -/
def flag (isHelp isVerbose : Bool) (g : Given) : Except ArgsError Given :=
  if isHelp then .error .help
  else if isVerbose && !g.verbose then .ok { g with verbose := true }
  else .error .wrong

/-- Takes the value of an option. -/
def value (o : OptionSpec) (v : String) (g : Given) : Except ArgsError Given :=
  if v.isEmpty || (g.values.lookup o.name).isSome || !(o.values.isEmpty || o.values.contains v) then
    .error .wrong
  else .ok { g with values := g.values ++ [(o.name, v)] }

/-- What a group of letters after a dash gives: all of it, or all but the value of
its last letter. -/
inductive Letters
  | done (g : Given)
  | owing (g : Given) (o : OptionSpec)

/-- Takes letters. What follows the letter of an option is its value, with an equals
sign in front or without. -/
def letters (spec : ArgsSpec) (g : Given) : List Char → Except ArgsError Letters
  | [] => .ok (.done g)
  | c :: l =>
    match spec.options.find? (·.letter == c) with
    | some o =>
      match l with
      | [] => .ok (.owing g o)
      | '=' :: v => (value o (String.ofList v) g).map .done
      | v => (value o (String.ofList v) g).map .done
    | none =>
      match flag (c == 'h') (c == 'v') g with
      | .ok g => letters spec g l
      | .error e => .error e

/-- Whether an argument is an option, and so no value of one. -/
def isOption (a : String) : Bool :=
  match a.toList with
  | '-' :: _ :: _ => true
  | _ => false

/-- Reads arguments. After two dashes alone all are plain. -/
def read (spec : ArgsSpec) : (plainOnly : Bool) → Given → List String → Except ArgsError Given
  | _, g, [] => .ok g
  | true, g, a :: as => do read spec true (← spec.plain g a) as
  | false, g, a :: as =>
    match a.toList with
    | ['-', '-'] => read spec true g as
    | '-' :: '-' :: l =>
      let name := String.ofList (l.takeWhile (· != '='))
      match spec.options.find? (·.name == name), l.dropWhile (· != '=') with
      | some o, _ :: v => do read spec false (← value o (String.ofList v) g) as
      | some o, [] =>
        match as with
        | v :: as => if isOption v then .error .wrong else do read spec false (← value o v g) as
        | [] => .error .wrong
      | none, [] => do read spec false (← flag (name == "help") (name == "verbose") g) as
      | none, _ :: _ => .error .wrong
    | '-' :: c :: l =>
      match spec.letters g (c :: l) with
      | .ok (.done g) => read spec false g as
      | .ok (.owing g o) =>
        match as with
        | v :: as => if isOption v then .error .wrong else do read spec false (← value o v g) as
        | [] => .error .wrong
      | .error e => .error e
    | _ => do read spec false (← spec.plain g a) as

end ArgsSpec

/-- Nothing read yet. -/
def Given.nothing : Given := ⟨none, [], false⟩

/-- The arguments of the commands that work on a file or a tree. -/
def fileSpec : ArgsSpec := ⟨true, [⟨'c', "config", []⟩, ⟨'o', "output", []⟩]⟩

/-- The arguments of the command that prints settings. -/
def rulesSpec : ArgsSpec := ⟨false, [⟨'f', "format", ["toml", "yaml", "json"]⟩]⟩

/-- Reads the arguments of a command that works on a file or a tree. -/
def readFile (make : String → CommandFiles → Command) (args : List String) :
    Except ArgsError Command := do
  let g ← fileSpec.read false .nothing args
  match g.argument with
  | some a => return make a ⟨g.values.lookup "config", g.values.lookup "output"⟩
  | none => throw .wrong

/-- Reads the arguments of the command that prints settings. -/
def readRules (args : List String) : Except ArgsError Command := do
  let g ← rulesSpec.read false .nothing args
  return rules (match g.values.lookup "format" with
    | some "yaml" => .yaml
    | some "json" => .json
    | _ => .toml)

/-- Reads the arguments of the command with a name. -/
def readNamed (name : String) (args : List String) : Except ArgsError Command :=
  match name with
  | "scan" => readFile scan args
  | "analyze" => readFile analyze args
  | "run" => readFile run args
  | "rules" => readRules args
  | "help" =>
    match args with
    | [] => .error .help
    | [a] =>
      .error (if ["scan", "analyze", "run", "rules", "help"].contains a then .help else .wrong)
    | _ => .error .wrong
  | _ => .error .wrong

/-- Reads a command line: options of the program, the name of a command, and its
arguments. -/
def ofArgs (g : Given) : List String → Except ArgsError Command
  | [] => .error .wrong
  | a :: as =>
    match a.toList with
    | '-' :: '-' :: l => do
      ofArgs (← ArgsSpec.flag (l == "help".toList) (l == "verbose".toList) g) as
    | '-' :: c :: l => do
      match ← (ArgsSpec.mk false []).letters g (c :: l) with
      | .done g => ofArgs g as
      | .owing _ _ => throw .wrong
    | _ => readNamed a as

end Command

end Layering
