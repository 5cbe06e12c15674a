import Bindery.Config.Address
import Bindery.Config.File
import Bindery.Config.Merge
import Bindery.Config.Settings

/-!
# Loading the settings

The settings come from a file and from the environment, which wins. References to the environment
are replaced when the two have been laid over each other, and what results is checked.
-/

namespace Bindery.Config

/-- Why there are no settings. -/
inductive LoadFailure where
  | file (fault : FileFault)
  /-- The layers are values, and what was made of them does not pass. -/
  | invalid (data : Mapping) (complaints : List Complaint)
  /-- The layers hold what is no value, though nothing stands in the way of replacing references.
  The check may take that or refuse it, which is not told here. -/
  | unjudged
  deriving Repr

namespace LoadFailure

/-- The failure of a section clash. -/
def clash : LoadFailure := .file (.breakdown .sectionClash)

/-- The kind of a failure, if that is told. -/
def kind? : LoadFailure → Option FailureKind
  | file (.breakdown b) => some b.kind
  | file (.unreadable ..) | file (.malformed ..) | file (.notAMapping _) | invalid .. =>
    some .configuration
  | unjudged => none

end LoadFailure

/-- How others word what is wrong: a parser, with a document, given its path and what the file
holds, and a check, with data. -/
structure Wording where
  ofDocument : String → List UInt8 → String
  ofData : Mapping → String

/-- What is said of a failure. What breaks down says nothing of the configuration. -/
def LoadFailure.message? (wording : Wording) : LoadFailure → Option String
  | file (.unreadable path fault) =>
    some ("Error reading " ++ path ++ ": " ++ fault.message path)
  | file (.malformed path contents) =>
    some ("Invalid YAML in " ++ path ++ ": " ++ wording.ofDocument path contents)
  | file (.notAMapping path) => some ("Expected a mapping at the top of " ++ path)
  | invalid data _ => some ("Invalid configuration: " ++ wording.ofData data)
  | file (.breakdown _) | unjudged => none

/-- Where the settings are looked for, unless something else is given. -/
def defaultPath : String := "bindgen.yaml"

/-- The path of the file: the one asked for, or the one in the environment, or the usual one. -/
def choosePath (asked : Option String) (mark : String) (env : Environment) : String :=
  match asked with
  | none | some "" =>
    (env.get? (String.ofList (markText mark ++ pathVariable.toList))).getD defaultPath
  | some path => path

/-- The record of a file that is there. -/
def loadingRecord (path : String) : Record :=
  ⟨.loader, "Loading configuration from " ++ path⟩

/-- The draft in the file at a path, if anything is there, and what is noted about it. -/
def fileLayer (path : String) (finding : FileTree.Finding) :
    Except FileFault Draft × List Record :=
  if finding.isFound then ((fileMapping path finding).map Draft.overNothing, [loadingRecord path])
  else (.ok .empty, [])

/-- The draft of the file with what the environment gives laid over it, and what is noted on the
way; `find` says what is found at a path. -/
def layers (find : String → FileTree.Finding) (env : Environment) (asked : Option String)
    (mark : String) : Except LoadFailure Draft × List Record :=
  let path := choosePath asked mark env
  match fileLayer path (find path) with
  | (.error fault, records) => (.error (.file fault), records)
  | (.ok draft, records) =>
    match ofEnvironment mark env with
    | (.error _, noted) => (.error .clash, records ++ noted)
    | (.ok overrides, noted) => (.ok (draft.under overrides), records ++ noted)

/-- The settings of two layers that are values. -/
def settle (env : Environment) (file overrides : Mapping) : Checked Settings :=
  Settings.ofMapping (expandEntries env (merge file overrides))

/-- The settings of a draft: its references are replaced, and what results is checked. -/
def judge (env : Environment) (draft : Draft) : Except LoadFailure Settings :=
  match draft.obstacle? with
  | some o => .error (.file (.breakdown (.obstacle o)))
  | none =>
    match draft.value? with
    | some m =>
      let data := expandEntries env m
      (Settings.ofMapping data).mapError (.invalid data)
    | none => .error .unjudged

/-- Loads the settings. -/
def load (find : String → FileTree.Finding) (env : Environment) (asked : Option String)
    (mark : String) : Except LoadFailure Settings × List Record :=
  match layers find env asked mark with
  | (.error failure, records) => (.error failure, records)
  | (.ok draft, records) => (judge env draft, records)

end Bindery.Config
