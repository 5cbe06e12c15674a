import Bindery.Text.Quoted
import Bindery.Text.Segments
import Bindery.Text.UpperCase

/-!
# Names of generated classes and fields

Layouts and views are named in words with an underscore between two of them; the classes and fields
generated for them are named in camel case. `pascalCase` capitalises every word, `camelCase` every
word but the first, and `pascalJoin` and `camelJoin` do the same to words that come as a list.

A view is referred to as `@+id/title`: `resourceId` is the part behind the first slash.
-/

namespace Bindery

open Bindery.Text

/-- A reference that names no resource, perhaps with a note that says more. -/
structure MalformedReference where
  identifier : String
  note : Option String
  deriving DecidableEq, Repr

/-- The note speaks for itself, unless it is empty. -/
def MalformedReference.message (e : MalformedReference) : String :=
  match e.note with
  | none | some "" => "Malformed resource identifier: " ++ quoted e.identifier
  | some note => note

/-- What can be wrong with a list of words. -/
inductive JoinError where
  | noWords
  deriving DecidableEq, Repr

def JoinError.message : JoinError → String
  | noWords => "cannot join an empty token list"

namespace Naming

/-- What stands between two words of a name. -/
def wordSeparator : Char := '_'

/-- What stands between the parts of a resource reference. -/
def referenceSeparator : Char := '/'

/-! ## Words and camel case -/

/-- A word with its first character in upper case and the rest as it is. -/
def capitalized : List Char → List Char
  | [] => []
  | c :: cs => upperChar c ++ cs

/-- The words of a name; some may be empty. -/
def words (name : List Char) : List (List Char) :=
  segments wordSeparator name

/-- A name with every word capitalised. -/
def pascalCase (name : List Char) : List Char :=
  (words name).flatMap capitalized

/-- A name with every word but the first capitalised. -/
def camelCase (name : List Char) : List Char :=
  match words name with
  | [] => []
  | first :: rest => first ++ rest.flatMap capitalized

/-- The names of a list in one, each with every word capitalised. -/
def pascalJoin : List (List Char) → Except JoinError (List Char)
  | [] => .error .noWords
  | names => .ok (names.flatMap pascalCase)

/-- The names of a list in one, with every word capitalised but the first of the first. -/
def camelJoin : List (List Char) → Except JoinError (List Char)
  | [] => .error .noWords
  | first :: rest => .ok (camelCase first ++ rest.flatMap pascalCase)

theorem pascalCase_eq_capitalized {name : List Char} (h : wordSeparator ∉ name) :
    pascalCase name = capitalized name := by
  simp [pascalCase, words, segments_of_not_mem h]

theorem camelCase_eq_self {name : List Char} (h : wordSeparator ∉ name) :
    camelCase name = name := by
  simp [camelCase, words, segments_of_not_mem h]

/-! ## References and source names -/

/-- What stands between the first slash of a reference and the next. -/
def resourceId? (reference : List Char) : Option (List Char) :=
  match segments referenceSeparator reference with
  | _ :: id :: _ => some id
  | _ => none

/-- A text is a reference if it has a slash. -/
theorem resourceId?_eq_none_iff {reference : List Char} :
    resourceId? reference = none ↔ referenceSeparator ∉ reference := by
  constructor
  · intro hnone hslash
    obtain ⟨a, b, rfl⟩ := List.append_of_mem hslash
    -- there is a piece on either side of the slash
    obtain ⟨first, before, hfirst⟩ := List.exists_cons_of_ne_nil (segments_ne_nil referenceSeparator a)
    obtain ⟨next, behind, hnext⟩ := List.exists_cons_of_ne_nil (segments_ne_nil referenceSeparator b)
    rw [resourceId?, segments_append_sep, hfirst, hnext] at hnone
    cases before <;> simp at hnone
  · intro hfree
    rw [resourceId?, segments_of_not_mem hfree]

/-- A binary class name as source code writes it: nested classes follow a dot. -/
def sourceName (name : List Char) : List Char :=
  name.map fun c => if c = '$' then '.' else c

/-! ## The same on strings -/

/-- The capitalised string. -/
def capitalize (word : String) : String :=
  String.ofList (capitalized word.toList)

/-- The name of a class, as in `activity_main` and `ActivityMain`. -/
def className (name : String) : String :=
  String.ofList (pascalCase name.toList)

/-- The name of a variable, as in `user_name` and `userName`. -/
def variableName (name : String) : String :=
  String.ofList (camelCase name.toList)

/-- The name of a class from a list of names. -/
def joinedClassName (names : List String) : Except JoinError String :=
  (pascalJoin (names.map String.toList)).map String.ofList

/-- The name of a variable from a list of names. -/
def joinedVariableName (names : List String) : Except JoinError String :=
  (camelJoin (names.map String.toList)).map String.ofList

/-- The source form of a binary class name. -/
def dottedName (name : String) : String :=
  String.ofList (sourceName name.toList)

/-- The identifier that a reference names. -/
def resourceId (reference : String) : Except MalformedReference String :=
  match resourceId? reference.toList with
  | some id => .ok (String.ofList id)
  | none => .error ⟨reference, none⟩

end Naming

end Bindery
