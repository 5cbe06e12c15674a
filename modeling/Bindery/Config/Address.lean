import Bindery.Config.Expansion
import Bindery.Journal
import Bindery.Text.LowerCase
import Bindery.Text.Segments
import Bindery.Text.UpperCase

/-!
# Settings in the environment

A variable addresses a setting if its name is the program's mark, an underscore, and the address of
the setting: the names on the way to it with underscores between them, in any case. Variables are
taken in their order, so a later one replaces what an earlier one gave to the same setting.

The one section that there is can be given as a whole or setting by setting. A text given as a whole
has no settings inside, so nothing can be addressed in it afterwards.
-/

namespace Bindery

/-- What a variable can address: a top-level setting or section, or the setting in the section. -/
inductive Address where
  | classSuffix
  | modulePackage
  | outputDir
  | logging
  | level
  deriving DecidableEq, Repr

namespace Address

def all : List Address := [classSuffix, modulePackage, outputDir, logging, level]

/-- The names on the way to a setting. -/
def path : Address → List String
  | classSuffix => ["class_suffix"]
  | modulePackage => ["module_package"]
  | outputDir => ["output_dir"]
  | logging => ["logging"]
  | level => ["logging", "level"]

/-- The address at the end of a way. -/
def ofPath? (path : List String) : Option Address :=
  all.find? (·.path == path)

/-- What stands between two names on the way. -/
def separator : Char := '_'

/-- An address as it stands in the name of a variable, in lower case. -/
def written (a : Address) : List Char :=
  Text.joined separator (a.path.map String.toList)

/-- The address that the end of a variable's name writes: a setting or section by its name, or else
a setting by the name of its section, which ends at the first underscore, and its own. -/
def ofName? (name : List Char) : Option Address :=
  let key := Text.lower name
  match ofPath? [String.ofList key] with
  | some address => some address
  | none =>
    let outer := key.takeWhile (· ≠ separator)
    let inner := (key.dropWhile (· ≠ separator)).drop 1
    ofPath? [String.ofList outer, String.ofList inner]

end Address

namespace Config

/-- The program's mark, unless another is given. -/
def defaultMark : String := "BINDGEN"

/-- The variable that gives the path of the configuration is no setting. -/
def pathVariable : String := "CONFIG"

/-- What the names of the program's variables start with. -/
def markText (mark : String) : List Char :=
  Text.upper mark.toList ++ ['_']

/-- The name of a variable behind the mark, for a variable that may be a setting. -/
def behindMark? (mark name : String) : Option (List Char) :=
  let start := markText mark
  let rest := name.toList.drop start.length
  if start.isPrefixOf name.toList && rest ≠ [] && rest ≠ pathVariable.toList then some rest
  else none

/-- A setting addressed inside a section that was given as a text. -/
inductive SectionClash where
  | inText
  deriving DecidableEq, Repr

/-- The mapping with a value at the end of a path. Mappings on the way are made where there is
nothing; what is there and is no mapping has no room for more. -/
def putAt (value : Value) : List String → Mapping → Except SectionClash Mapping
  | [], m => .ok m
  | [name], m => .ok (m.put (.text name) value)
  | name :: rest, m =>
    match (m.get? (.text name)).getD (.mapping []) with
    | .mapping inner =>
      match putAt value rest inner with
      | .ok inner => .ok (m.put (.text name) (.mapping inner))
      | .error e => .error e
    | _ => .error .inText

/-- What the variables say, taken one after another on top of `m`, and what is noted about those
that address nothing. -/
def readVariables (mark : String) :
    Environment → Mapping → Except SectionClash Mapping × List Record
  | [], m => (.ok m, [])
  | (name, value) :: rest, m =>
    match behindMark? mark name with
    | none => readVariables mark rest m
    | some address =>
      match Address.ofName? address with
      | none =>
        -- an unknown name is noted, but does no harm
        let (outcome, records) := readVariables mark rest m
        (outcome, ⟨.loader, "Ignoring " ++ name ++ ": not a configuration key"⟩ :: records)
      | some a =>
        match putAt (.text value) a.path m with
        | .ok m => readVariables mark rest m
        | .error e => (.error e, [])

/-- The mapping that the environment writes. -/
def ofEnvironment (mark : String) (env : Environment) :
    Except SectionClash Mapping × List Record :=
  readVariables mark env []

end Config

end Bindery
