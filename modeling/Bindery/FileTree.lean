import Bindery.Ledger
import Bindery.Path
import Bindery.Text.Quoted

/-!
# File trees

A tree of folders and files, and what can be done with it: look at a path, make a folder with the
folders above it, and write a file. Names are taken one at a time from the folder reached so far; a
double dot leads back up.

Names have at most 255 bytes and paths fewer than 4096, and all of them are texts that can be encoded.
What else can go wrong is not for the tree to say but for the `Host` that it is on.
-/

namespace Bindery

/-- Why a path cannot be used. -/
inductive Fault where
  | missing
  | taken
  | notAFolder
  | isAFolder
  | nameTooLong
  /-- Any other trouble of the system, by its number and with its text. -/
  | other (number : Nat) (words : String)
  deriving DecidableEq, Repr

namespace Fault

def code : Fault → Nat
  | missing => 2
  | taken => 17
  | notAFolder => 20
  | isAFolder => 21
  | nameTooLong => 36
  | other number _ => number

def text : Fault → String
  | missing => "No such file or directory"
  | taken => "File exists"
  | notAFolder => "Not a directory"
  | isAFolder => "Is a directory"
  | nameTooLong => "File name too long"
  | other _ words => words

/-- A fault that is not met at a path. -/
def notice (f : Fault) : String :=
  "[Errno " ++ toString f.code ++ "] " ++ f.text

/-- A fault with the path that it was met at. -/
def message (f : Fault) (path : String) : String :=
  f.notice ++ ": " ++ Text.quoted path

end Fault

/-- What is found at a path. -/
inductive Node where
  | file (contents : List UInt8)
  | folder
  deriving DecidableEq, Repr

/-- A place in a tree: the names on the way from the top. -/
abbrev Location := List String

/-- A tree, with the folder from which paths without anchor start. The top is not listed: it is
always a folder. -/
structure FileTree where
  nodes : Ledger Location Node
  here : Location
  deriving Repr

/-- What a file tree is on. It may refuse or break off what the tree itself would allow, and calls can
be nested in one another up to a limit. -/
structure Host where
  /-- How many calls that make folders can be nested. -/
  room : Nat
  /-- What keeps a folder from being made, and from being found there. -/
  refusesFolder : FileTree → Path → Option Fault
  /-- What keeps a file from being opened. -/
  refusesFile : FileTree → Path → Option Fault
  /-- After how many bytes the writing of a file breaks off that has been opened, and why. -/
  breaksOff : FileTree → Path → Option (Nat × Fault)

/-- A host that goes along with everything. Of the thousand calls that can be nested in a running
program some are open when it comes to make folders. -/
def Host.usual : Host := ⟨980, fun _ _ => none, fun _ _ => none, fun _ _ => none⟩

namespace FileTree

/-- What stands at a place. -/
def node? (t : FileTree) (place : Location) : Option Node :=
  if place = [] then some .folder else t.nodes.get? place

/-- The tree with a node at a place. -/
def set (place : Location) (node : Node) (t : FileTree) : FileTree :=
  { t with nodes := t.nodes.put place node }

/-- Whether a name has too many bytes. -/
def tooLong (name : String) : Bool :=
  255 < name.utf8ByteSize

/-- Whether a path has too many bytes. -/
def pathTooLong (path : String) : Bool :=
  4096 ≤ path.utf8ByteSize

/-- Follows names from a place on. -/
def walk (t : FileTree) : Location → List String → Except Fault Location
  | place, [] => .ok place
  | place, name :: rest =>
    match t.node? place with
    | none => .error .missing
    | some (.file _) => .error .notAFolder
    | some .folder =>
      if name = "" || name = "." then walk t place rest
      else if name = ".." then walk t place.dropLast rest
      else if tooLong name then .error .nameTooLong
      else if (t.node? (place ++ [name])).isNone then .error .missing
      else walk t (place ++ [name]) rest

/-- Where a path starts. -/
def start (t : FileTree) : Anchor → Location
  | .here => t.here
  | .top | .doubleTop => []

/-! ## Looking -/

/-- What a path leads to. No file has a path with a null character. -/
inductive Finding where
  | found (node : Node)
  | fault (f : Fault)
  | unnamable
  deriving DecidableEq, Repr

/-- Whether a path leads anywhere. -/
def Finding.isFound : Finding → Bool
  | found _ => true
  | fault _ | unnamable => false

/-- Whether a text can be no path. -/
def hasNull (path : String) : Bool :=
  path.toList.contains '\x00'

/-- What a written path leads to. Other than for a `Path`, a slash at its end asks for a folder. -/
def find (t : FileTree) (path : String) : Finding :=
  if hasNull path then .unnamable
  else if path.isEmpty then .fault .missing
  else if pathTooLong path then .fault .nameTooLong
  else
    let names := (Text.segments Path.separator path.toList).map String.ofList
    match t.walk (t.start (Path.anchorOf path.toList)) names with
    | .error f => .fault f
    | .ok place =>
      match t.node? place with
      | some node => .found node
      | none => .fault .missing

/-! ## Making folders and writing files -/

/-- The folder in which the last name of a path is to be made, and that name; a path without a last
name, or with a double dot there, is a folder that exists. -/
inductive Target where
  | folder
  | entry (parent : Location) (name : String)

/-- Finds where the last name of a path belongs. -/
def target (t : FileTree) (p : Path) : Except Fault Target :=
  if pathTooLong p.text then .error .nameTooLong
  else
    match p.parts.getLast? with
    | none => .ok .folder
    | some name =>
      match t.walk (t.start p.anchor) p.parts.dropLast with
      | .error f => .error f
      | .ok place =>
        match t.node? place with
        | none => .error .missing
        | some (.file _) => .error .notAFolder
        | some .folder =>
          if name = ".." then .ok .folder
          else if tooLong name then .error .nameTooLong
          else .ok (.entry place name)

/-- Makes one folder. -/
def makeFolder (t : FileTree) (p : Path) : Except Fault FileTree :=
  match t.target p with
  | .error f => .error f
  | .ok .folder => .error .taken
  | .ok (.entry parent name) =>
    if (t.node? (parent ++ [name])).isSome then .error .taken
    else .ok (t.set (parent ++ [name]) .folder)

/-- Whether a path leads to a folder. -/
def isFolder (t : FileTree) (p : Path) : Bool :=
  t.find p.text == .found .folder

/-- Makes one folder unless it is there. -/
def needFolder (host : Host) (t : FileTree) (p : Path) : Except Fault FileTree :=
  match host.refusesFolder t p with
  | some f => .error f
  | none =>
    match t.makeFolder p with
    | .ok t' => .ok t'
    | .error .missing => .error .missing
    | .error f => if t.isFolder p then .ok t else .error f

/-- Why folders cannot be made: of a fault that is met at a path, or because too many are missing. -/
inductive FolderFault where
  | met (cause : Fault) (path : Path)
  | tooDeep
  deriving DecidableEq, Repr

/-- Makes a folder and what is missing above it, for a path whose parts are given in reverse, where so
many calls can still be nested. The folders made before something goes wrong stay. -/
def makeFoldersFor (host : Host) (anchor : Anchor) :
    Nat → List String → FileTree → Except FolderFault Unit × FileTree
  | 0, _, t => (.error .tooDeep, t)
  | _ + 1, [], t =>
    match t.needFolder host ⟨anchor, []⟩ with
    | .ok t' => (.ok (), t')
    | .error f => (.error (.met f ⟨anchor, []⟩), t)
  | room + 1, name :: above, t =>
    let p : Path := ⟨anchor, (name :: above).reverse⟩
    match t.needFolder host p with
    | .ok t' => (.ok (), t')
    | .error .missing =>
      -- only a folder that is missing above calls for another try
      match makeFoldersFor host anchor room above t with
      | (.error e, t') => (.error e, t')
      | (.ok (), t') =>
        match t'.needFolder host p with
        | .ok t'' => (.ok (), t'')
        | .error f => (.error (.met f p), t')
    | .error f => (.error (.met f p), t)

/-- Makes a folder and what is missing above it. -/
def makeFolders (host : Host) (p : Path) (t : FileTree) : Except FolderFault Unit × FileTree :=
  makeFoldersFor host p.anchor host.room p.parts.reverse t

/-- Opens a file, which empties it, and puts bytes in it. -/
def putFile (t : FileTree) (p : Path) (contents : List UInt8) : Except Fault FileTree :=
  match t.target p with
  | .error f => .error f
  | .ok .folder => .error .isAFolder
  | .ok (.entry parent name) =>
    if t.node? (parent ++ [name]) = some .folder then .error .isAFolder
    else .ok (t.set (parent ++ [name]) (.file contents))

/-- How the writing of a file goes wrong: it is not opened, or it breaks off after that. -/
inductive WriteFault where
  | notOpened (cause : Fault)
  | brokenOff (cause : Fault)
  deriving DecidableEq, Repr

/-- Writes a file, over what it held before. What has been written when it breaks off stays. -/
def writeFile (host : Host) (p : Path) (contents : List UInt8) (t : FileTree) :
    Except WriteFault Unit × FileTree :=
  match host.refusesFile t p with
  | some f => (.error (.notOpened f), t)
  | none =>
    match host.breaksOff t p with
    | none =>
      match t.putFile p contents with
      | .error f => (.error (.notOpened f), t)
      | .ok t' => (.ok (), t')
    | some (count, cause) =>
      match t.putFile p (contents.take count) with
      | .error f => (.error (.notOpened f), t)
      | .ok t' => (.error (.brokenOff cause), t')

/-! ## Filling and listing -/

/-- The tree with nothing but the folder to start from and those above it. -/
def startingAt (here : Location) : FileTree :=
  let folders := (List.range here.length).map fun n => here.take (n + 1)
  ⟨folders.map fun place => (place, .folder), here⟩

/-- The tree with a file at a path and with the folders above it; a path that ends in a slash stands
for a folder. Nothing happens where that is impossible. -/
def supply (path : String) (contents : List UInt8) (t : FileTree) : FileTree :=
  let p := Path.ofText path
  if path.endsWith "/" then (t.makeFolders .usual p).2
  else ((t.makeFolders .usual p.parent).2.writeFile .usual p contents).2

/-- What stands below the starting folder, by path. Folders end in a slash. -/
def listing (t : FileTree) : List (String × Option (List UInt8)) :=
  let below := t.nodes.filterMap fun (place, node) =>
    if t.here.isPrefixOf place && place ≠ t.here then
      let path := String.intercalate "/" (place.drop t.here.length)
      match node with
      | .file contents => some (path, some contents)
      | .folder => some (path ++ "/", none)
    else none
  below.mergeSort fun a b => a.1 ≤ b.1

end FileTree

end Bindery
