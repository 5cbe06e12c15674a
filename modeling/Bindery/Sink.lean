import Bindery.FailureKind
import Bindery.FileTree
import Bindery.Journal
import Bindery.Text.Encoded

/-!
# Sinks for generated sources

A sink takes the source of each class once, under the qualified name of the class. `MemorySink`
keeps the sources in the order in which they came; `TreeSink` writes each to a file below its root,
one folder for each segment of the package.

A sink that refuses or fails to take a source keeps the names it has accepted, so that a name whose
file could not be written can be tried again. Sources and names are texts that can be encoded.
-/

namespace Bindery

open Bindery.Text

/-- Why a source is not taken. -/
inductive SinkFault where
  | alreadyWritten (name : String)
  | notWritten (path : Path) (cause : Fault) (met : Path)
  | brokenOff (path : Path) (cause : Fault)
  | nullInPath
  | tooDeep
  deriving DecidableEq, Repr

namespace SinkFault

/-- What is said of a fault. When too many calls are nested it is not the library that speaks. -/
def message? : SinkFault → Option String
  | alreadyWritten name => some ("Source for " ++ name ++ " was already written")
  | notWritten path cause met =>
    some ("Could not write " ++ path.text ++ ": " ++ cause.message met.text)
  | brokenOff path cause => some ("Could not write " ++ path.text ++ ": " ++ cause.notice)
  | nullInPath => some "embedded null byte"
  | tooDeep => none

/-- A path that no file can have is an invalid value, and folders can be missing too deep for the
calls that are to make them; all else is a failure of processing. -/
def kind : SinkFault → FailureKind
  | alreadyWritten _ | notWritten .. | brokenOff .. => .processing
  | nullInPath => .invalidValue
  | tooDeep => .tooDeep

end SinkFault

/-- A write to a sink: the record of the source that was taken, and the sink afterwards. -/
abbrev Writing (κ : Type) := String → String → κ → Except SinkFault Record × κ

/-! ## In memory -/

/-- The sources by their qualified names. -/
structure MemorySink where
  files : Ledger String String
  deriving Repr

def MemorySink.empty : MemorySink := ⟨[]⟩

def MemorySink.write : Writing MemorySink := fun name contents sink =>
  if sink.files.contains name then (.error (.alreadyWritten name), sink)
  else
    (.ok ⟨.writer, "Collected source for " ++ name⟩, ⟨sink.files.put name contents⟩)

theorem MemorySink.write_taken {name : String} {sink : MemorySink}
    (h : name ∈ sink.files.map Prod.fst) (contents : String) :
    write name contents sink = (.error (.alreadyWritten name), sink) :=
  if_pos (Ledger.contains_iff_mem.mpr h)

theorem MemorySink.write_new {name : String} {sink : MemorySink}
    (h : name ∉ sink.files.map Prod.fst) (contents : String) :
    write name contents sink = (.ok ⟨.writer, "Collected source for " ++ name⟩,
      ⟨sink.files ++ [(name, contents)]⟩) := by
  have hnew : ¬ sink.files.contains name = true := fun hold => h (Ledger.contains_iff_mem.mp hold)
  have hnone : sink.files.get? name = none := by
    rw [← Option.not_isSome_iff_eq_none]
    exact hnew
  unfold write
  rw [if_neg hnew, Ledger.put_of_get?_eq_none hnone]

/-! ## In files -/

/-- Where the files go, what their names end in, the names accepted so far, and the files. -/
structure TreeSink where
  root : Path
  extension : String
  written : List String
  tree : FileTree
  deriving Repr

namespace TreeSink

/-- What the names of source files end in, unless something else is given. -/
def defaultExtension : String := ".java"

/-- The segments of a qualified name. -/
def segmentsOf (name : String) : List String :=
  (segments '.' name.toList).map String.ofList

/-- The file of a class below a root. -/
def fileFor (root : Path) (extension name : String) : Path :=
  let parts := segmentsOf name
  root.joinAll (parts.dropLast ++ [parts.getLast?.getD "" ++ extension])

/-- The file of a class. -/
def pathFor (sink : TreeSink) (name : String) : Path :=
  fileFor sink.root sink.extension name

/-- Writes a file and makes the folders above it. What was made before a failure stays. -/
def place (host : Host) (p : Path) (contents : String) (tree : FileTree) :
    Except SinkFault Unit × FileTree :=
  if FileTree.hasNull p.parent.text then (.error .nullInPath, tree)
  else
    match tree.makeFolders host p.parent with
    | (.error .tooDeep, tree) => (.error .tooDeep, tree)
    | (.error (.met cause path), tree) => (.error (.notWritten p cause path), tree)
    | (.ok (), tree) =>
      -- the folders are there by now, and stay
      if FileTree.hasNull p.text then (.error .nullInPath, tree)
      else
        match tree.writeFile host p (encode contents) with
        | (.error (.notOpened cause), tree) => (.error (.notWritten p cause p), tree)
        | (.error (.brokenOff cause), tree) => (.error (.brokenOff p cause), tree)
        | (.ok (), tree) => (.ok (), tree)

/-- Writes the file of a class that has not been written, whatever the host makes of it. -/
def writeOn (host : Host) : Writing TreeSink := fun name contents sink =>
  if sink.written.contains name then (.error (.alreadyWritten name), sink)
  else
    let p := sink.pathFor name
    match place host p contents sink.tree with
    | (.error fault, tree) => (.error fault, { sink with tree := tree })
    | (.ok (), tree) =>
      (.ok ⟨.writer, "Wrote " ++ p.text⟩,
        { sink with tree := tree, written := sink.written ++ [name] })

/-- Writes the file of a class on the usual host. -/
def write : Writing TreeSink := writeOn .usual

end TreeSink

/-! ## Either -/

/-- A sink of one of the two kinds. -/
inductive Sink where
  | memory (sink : MemorySink)
  | files (sink : TreeSink)
  deriving Repr

def Sink.write : Writing Sink := fun name contents sink =>
  match sink with
  | .memory s =>
    let (outcome, s) := MemorySink.write name contents s
    (outcome, .memory s)
  | .files s =>
    let (outcome, s) := TreeSink.write name contents s
    (outcome, .files s)

end Bindery
