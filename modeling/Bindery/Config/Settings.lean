import Bindery.Config.Check
import Bindery.Config.Level

/-!
# Settings

The settings of the program, with what they are unless something else is given. A mapping is taken
for settings only if every key in it is the name of one, so that a slip of the pen does not go
unnoticed.
-/

namespace Bindery

/-- The settings. -/
structure Settings where
  classSuffix : String
  modulePackage : String
  outputDir : String
  level : Level
  deriving DecidableEq, Repr

namespace Settings

/-- The settings where nothing is given. -/
def standard : Settings :=
  { classSuffix := "Binding", modulePackage := "", outputDir := "generated", level := .warning }

/-- The names of the settings, that of the section last. -/
def names : List String := ["class_suffix", "module_package", "output_dir", "logging"]

/-- The level that a value asks for. -/
def checkLevel (v : Value) : Checked Level :=
  match Level.ofValue? v with
  | some level => .ok level
  | none => Checked.refuse (.unknownLevel (Level.unknownText v))

/-- The section on logging, which holds nothing but a level. -/
def checkLogging (v : Value) : Checked Level :=
  match Check.mapping "LoggingConfig" v with
  | .error e => .error e
  | .ok m =>
    Checked.both (fun level _ => level)
      (Check.optional checkLevel standard.level "level" m)
      (Check.onlyNames ["level"] m)

/-- The settings that a mapping gives. -/
def ofMapping (m : Mapping) : Checked Settings :=
  let classSuffix := Check.optional Check.text standard.classSuffix "class_suffix" m
  let modulePackage := Check.optional Check.text standard.modulePackage "module_package" m
  let outputDir := Check.optional Check.text standard.outputDir "output_dir" m
  let level := Check.optional checkLogging standard.level "logging" m
  let texts := Checked.both (fun s p => (s, p)) classSuffix modulePackage
  let places := Checked.both (fun d l => (d, l)) outputDir level
  let given := Checked.both (fun (s, p) (d, l) => Settings.mk s p d l) texts places
  Checked.both (fun settings _ => settings) given (Check.onlyNames names m)

/-- The settings that a value gives. -/
def ofValue (v : Value) : Checked Settings :=
  match Check.mapping "BindgenConfig" v with
  | .error e => .error e
  | .ok m => ofMapping m

/-- The mapping that gives the settings. -/
def toMapping (s : Settings) : Mapping :=
  [(.text "class_suffix", .text s.classSuffix), (.text "module_package", .text s.modulePackage),
    (.text "output_dir", .text s.outputDir),
    (.text "logging", .mapping [(.text "level", .text s.level.name)])]

end Settings

end Bindery
