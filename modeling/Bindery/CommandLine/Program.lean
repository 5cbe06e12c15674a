import Bindery.About
import Bindery.CommandLine.Help
import Bindery.Config.Load
import Bindery.Layout
import Bindery.Loggers
import Bindery.Sink

/-!
# The program

The subcommands, what each of them answers, and what a run of the program shows: the answer on the
standard output, records and complaints on the standard error. `answer` is the answer alone, without
regard to what is shown of records; `run` is a whole run.
-/

namespace Bindery.CommandLine

/-! ## Forms of the commands -/

/-- The switch that every command has. -/
def helpSwitch : Switch := ⟨["-h", "--help"], .help, "show this help message and exit"⟩

/-- The subcommands with what is said of them. -/
def commands : List (String × String) :=
  [("camel", "Convert a snake_case name to camel case"),
    ("java-name", "Convert a binary class name to source form"),
    ("android-id", "Extract the identifier of a resource reference"),
    ("layout", "Show the binding class for a layout"), ("version", "Show version")]

/-- The form of the program. -/
def mainForm : Form :=
  { program := About.package
    about := "Naming helpers for data-binding code generation"
    switches := [helpSwitch, ⟨["-v", "--verbose"], .flag, "Enable debug logging"⟩]
    word := .subcommand "command" "Commands" commands }

/-- The form of a subcommand. -/
def subform (name : String) (switches : List Switch) (word : Word) : Form :=
  { program := About.package ++ " " ++ name, about := "", switches := helpSwitch :: switches,
    word := word }

def camelForm : Form :=
  subform "camel" [⟨["--var"], .flag, "Keep the first word lowercase (variable style)"⟩]
    (.one "name" "snake_case name")

def sourceNameForm : Form :=
  subform "java-name" [] (.one "name" "Binary class name, e.g. a.b.Outer$Inner")

def resourceForm : Form :=
  subform "android-id" [] (.one "resource" "Resource reference, e.g. @+id/title")

def layoutForm : Form :=
  subform "layout"
    [⟨["--package"], .value "PACKAGE", "Module package (defaults to configuration)"⟩,
      ⟨["--config"], .value "CONFIG", "Path to a YAML configuration file"⟩,
      ⟨["--path"], .flag, "Print the output file path instead of the class name"⟩]
    (.one "name" "Layout file name without extension")

def versionForm : Form := subform "version" [] .nothing

/-! ## What is asked for -/

/-- What a run is asked to do. -/
inductive Job where
  | camel (name : String) (asVariable : Bool)
  | sourceName (name : String)
  | resourceId (reference : String)
  | layout (name : String) (package config : Option String) (asPath : Bool)
  | version
  deriving DecidableEq, Repr

/-- The form of a subcommand and the job that it is, as far as it exists. -/
def jobOf (command : String) : Option (Form × (Given → Job)) :=
  let word (g : Given) := g.word.getD ""
  match command with
  | "camel" => some (camelForm, fun g => .camel (word g) (g.has "--var"))
  | "java-name" => some (sourceNameForm, fun g => .sourceName (word g))
  | "android-id" => some (resourceForm, fun g => .resourceId (word g))
  | "layout" =>
    some (layoutForm, fun g =>
      .layout (word g) (g.value? "--package") (g.value? "--config") (g.has "--path"))
  | "version" => some (versionForm, fun _ => .version)
  | _ => none

/-- What the arguments ask for. -/
structure Wish where
  verbose : Bool
  job : Option Job
  deriving DecidableEq, Repr

/-- The complaint about what fits nowhere, if there is such a thing. -/
def checkUnknown (unknown : List String) (w : Wish) : Except Stop Wish :=
  if unknown.isEmpty then .ok w
  else
    .error (.mistake mainForm ("unrecognized arguments: " ++ String.intercalate " " unknown))

/-- What the arguments of the program ask for. -/
def wishOf (arguments : List String) : Except Stop Wish :=
  match mainForm.read arguments with
  | .error e => .error e
  | .ok g =>
    let verbose := g.has "--verbose"
    match g.word.bind jobOf with
    | none => checkUnknown g.unknown ⟨verbose, none⟩
    | some (form, job) =>
      match form.read g.rest with
      | .error e => .error e
      | .ok sub => checkUnknown (g.unknown ++ sub.unknown) ⟨verbose, some (job sub)⟩

/-! ## Answers -/

/-- Why a job has no answer. -/
inductive Failure where
  | malformed (e : MalformedReference)
  | load (e : Config.LoadFailure)
  deriving Repr

/-- What is said of a failure; what breaks down says nothing. -/
def Failure.message? (wording : Config.Wording) : Failure → Option String
  | malformed e => some e.message
  | load e => e.message? wording

/-- The surroundings of a run: what is found at paths, the environment, and how others word what is
wrong with a configuration. -/
structure Surroundings where
  find : String → FileTree.Finding
  env : Environment
  wording : Config.Wording

/-- The class of a layout, or the path of its file, under some settings. -/
def layoutAnswer (settings : Settings) (name : String) (package : Option String)
    (asPath : Bool) : String × LayoutNames :=
  let names := LayoutNames.fresh settings.classSuffix
  let (qualified, names) := names.qualifiedName (package.getD settings.modulePackage) name
  let path := TreeSink.fileFor (.ofText settings.outputDir) TreeSink.defaultExtension qualified
  (if asPath then path.text else qualified, names)

/-- The records of a layout whose name is derived. -/
def layoutRecords (settings : Settings) (names : LayoutNames) : List Record :=
  (LayoutNames.fresh settings.classSuffix).recordsSince names

/-- The answer to a job. -/
def answer (around : Surroundings) : Job → Except Failure String
  | .camel name asVariable =>
    .ok (if asVariable then Naming.variableName name else Naming.className name)
  | .sourceName name => .ok (Naming.dottedName name)
  | .resourceId reference => (Naming.resourceId reference).mapError .malformed
  | .layout name package config asPath =>
    match (Config.load around.find around.env config Config.defaultMark).1 with
    | .error e => .error (.load e)
    | .ok settings => .ok (layoutAnswer settings name package asPath).1
  | .version => .ok (About.package ++ " " ++ About.version)

/-- The path at which a job looks for settings, if it needs them. -/
def pathOf (env : Environment) : Job → Option String
  | .layout _ _ config _ => some (Config.choosePath config Config.defaultMark env)
  | _ => none

/-! ## Runs -/

/-- What a run ends with: an exit code, or a breakdown that nothing is said of. What a run ends with
whose configuration is not judged here is not told. -/
inductive Ending where
  | code (n : Nat)
  | breakdown (b : Config.Breakdown)
  | untold
  deriving DecidableEq, Repr

/-- What a run shows. The records come before the complaint on the standard error, and so does the
line on usage, if there is one. -/
structure Outcome where
  ending : Ending
  output : String
  records : List Record
  usage : String
  complaint : String
  deriving DecidableEq, Repr

/-- The outcome of a run that stopped over its arguments. -/
def stopped : Stop → Outcome
  | .help f => ⟨.code 0, f.help, [], "", ""⟩
  | .mistake f text => ⟨.code 2, "", [], f.usage, f.program ++ ": error: " ++ text ++ "\n"⟩

/-- The outcome of a job. -/
def finished (wording : Config.Wording) (records : List Record) :
    Except Failure String → Outcome
  | .ok text => ⟨.code 0, text ++ "\n", records, "", ""⟩
  | .error (.load (.file (.breakdown b))) => ⟨.breakdown b, "", records, "", ""⟩
  | .error (.load .unjudged) => ⟨.untold, "", records, "", ""⟩
  | .error e => ⟨.code 1, "", records, "", "Error: " ++ (e.message? wording).getD "" ++ "\n"⟩

/-- The loggers during a job, and the records that it shows. The settings say how much is shown of a
layout, unless the run is verbose. -/
def watched (around : Surroundings) (verbose : Bool) (job : Job) (loggers : Loggers) :
    List Record × Loggers :=
  match job with
  | .layout name package config asPath =>
    let (outcome, records) := Config.load around.find around.env config Config.defaultMark
    let loaded := loggers.shown records
    match outcome with
    | .error _ => (loaded, loggers)
    | .ok settings =>
      -- a verbose run keeps its level, whatever the settings say
      let loggers :=
        if verbose then loggers else (loggers.configure false (.text settings.level.name)).2
      let (_, names) := layoutAnswer settings name package asPath
      (loaded ++ loggers.shown (layoutRecords settings names), loggers)
  | _ => ([], loggers)

/-- One run of the program. The levels of the loggers outlive it. -/
def run (around : Surroundings) (arguments : List String) (loggers : Loggers) :
    Outcome × Loggers :=
  match wishOf arguments with
  | .error stop => (stopped stop, loggers)
  | .ok ⟨_, none⟩ => (⟨.code 2, mainForm.help, [], "", ""⟩, loggers)
  | .ok ⟨verbose, some job⟩ =>
    let loggers := if verbose then (loggers.configure true .null).2 else loggers
    let (records, loggers) := watched around verbose job loggers
    (finished around.wording records (answer around job), loggers)

end Bindery.CommandLine
