import Bindery.Config.Draft
import Bindery.FileTree
import Bindery.Yaml.Document

/-!
# Configuration files

A configuration file is a document whose value is a mapping. A file that is missing, or whose
document says nothing, is an empty mapping.
-/

namespace Bindery.Config

/-- Why a file gives no mapping. -/
inductive FileFault where
  | unreadable (path : String) (fault : Fault)
  | malformed (path : String) (contents : List UInt8)
  | notAMapping (path : String)
  | breakdown (b : Breakdown)
  deriving DecidableEq, Repr

/-- The mapping that a document is. -/
def mappingOf (path : String) (d : Yaml.Document) : Except FileFault Draft :=
  match d.top with
  | .mapping entries => .ok ⟨entries, d.parts⟩
  | top => if top.truthy then .error (.notAMapping path) else .ok .empty

/-- The mapping that the contents of a file write. -/
def readContents (path : String) (contents : List UInt8) : Except FileFault Draft :=
  match Yaml.document (.ofBytes contents) with
  | .ok d => mappingOf path d
  | .error .malformed => .error (.malformed path contents)
  | .error (.mishap m) => .error (.breakdown (.document m))

/-- The mapping in a file, given what was found at its path. -/
def fileMapping (path : String) : FileTree.Finding → Except FileFault Draft
  | .found (.file contents) => readContents path contents
  | .found .folder => .error (.unreadable path .isAFolder)
  | .fault .missing => .ok .empty
  | .fault fault => .error (.unreadable path fault)
  | .unnamable => .error (.breakdown .nullInPath)

end Bindery.Config
