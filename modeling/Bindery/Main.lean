import Bindery.CommandLine.Program

/-!
# The executable

Reads the arguments, the environment and the configuration file, and shows the outcome of the run.
-/

namespace Bindery.Executable

/-- The variables that a list of definitions gives, each ended by a null character. -/
def variablesOf (definitions : String) : Environment :=
  Ledger.ofEntries <|
    (Text.segments '\x00' definitions.toList).filterMap fun cs =>
      match cs.dropWhile (· ≠ '=') with
      | [] => none
      | _ :: value => some (String.ofList (cs.takeWhile (· ≠ '=')), String.ofList value)

/-- The variables of this process. -/
def processVariables : IO Environment := do
  let bytes ← IO.FS.readBinFile "/proc/self/environ"
  return variablesOf ((Text.decode? bytes.toList).getD "")

/-- The fault that a failure to read tells of. -/
def faultOf : IO.Error → Fault
  | .noFileOrDirectory .. => .missing
  | .noSuchThing .. => .missing
  | .alreadyExists .. => .taken
  | .invalidArgument .. => .nameTooLong
  | e => if (toString e).contains "not a directory" then .notAFolder else .isAFolder

/-- What is found at a path. -/
def look (path : String) : IO FileTree.Finding := do
  if FileTree.hasNull path then return .unnamable
  try
    let contents ← IO.FS.readBinFile path
    return .found (.file contents.toList)
  catch e =>
    match faultOf e with
    | .isAFolder => return .found .folder
    | fault => return .fault fault

/-- What is found at the one path that a run looks at. -/
def lookFor (env : Environment) (arguments : List String) : IO FileTree.Finding :=
  match CommandLine.wishOf arguments with
  | .ok ⟨_, some job⟩ =>
    match CommandLine.pathOf env job with
    | some path => look path
    | none => return .fault .missing
  | _ => return .fault .missing

/-- Shows an outcome; the number is the exit code. -/
def present (outcome : CommandLine.Outcome) : IO UInt32 := do
  IO.print outcome.output
  for record in outcome.records do
    IO.eprintln (toString (← IO.monoMsNow) ++ " " ++ record.line)
  IO.eprint (outcome.usage ++ outcome.complaint)
  match outcome.ending with
  | .code n => return n.toUInt32
  | .breakdown _ | .untold =>
    IO.eprintln "The configuration could not be understood."
    return 1

/-- Words for what is wrong with a configuration. -/
def wording : Config.Wording where
  ofDocument _ _ := "the document breaks the rules"
  ofData _ := "the settings do not pass"

/-- One run with the given arguments. -/
def run (arguments : List String) : IO UInt32 := do
  let env ← processVariables
  let finding ← lookFor env arguments
  let (outcome, _) := CommandLine.run ⟨fun _ => finding, env, wording⟩ arguments .initial
  present outcome

end Bindery.Executable

def main (arguments : List String) : IO UInt32 := Bindery.Executable.run arguments
