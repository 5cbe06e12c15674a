import Bindery.Value.Display

/-!
# Complaints about data

What is wrong with a value that should have a given form, and where: the names and positions on the
way to it from the outside.
-/

namespace Bindery

/-- One step on the way to a value. -/
inductive Place where
  | name (s : String)
  | number (n : Int)
  deriving DecidableEq, Repr

/-- The step to a key that is no name: the key itself if it is a whole number of 64 bits, otherwise
the way it is shown. -/
def Place.ofKey : Key → Place
  | .scalar (.bool b) => .number b.toInt
  | .scalar (.int n) =>
    if -(twoTo 63 : Int) ≤ n && n < twoTo 63 then .number n else .name (String.ofList (intText n))
  | key => .name (String.ofList key.display)

/-- What can be wrong. -/
inductive Trouble where
  | notText
  | notUnicode
  | empty
  | missing
  | unknownName
  | keyNotText
  | notAMapping (form : String)
  | unknownLevel (shown : String)
  | notATruthValue
  | unclearTruthValue
  deriving DecidableEq, Repr

namespace Trouble

/-- The short name of a kind of trouble. -/
def code : Trouble → String
  | notText => "string_type"
  | notUnicode => "string_unicode"
  | empty => "string_too_short"
  | missing => "missing"
  | unknownName => "extra_forbidden"
  | keyNotText => "invalid_key"
  | notAMapping _ => "model_type"
  | unknownLevel _ => "value_error"
  | notATruthValue => "bool_type"
  | unclearTruthValue => "bool_parsing"

def message : Trouble → String
  | notText => "Input should be a valid string"
  | notUnicode =>
    "Input should be a valid string, unable to parse raw data as a unicode string"
  | empty => "String should have at least 1 character"
  | missing => "Field required"
  | unknownName => "Extra inputs are not permitted"
  | keyNotText => "Keys should be strings"
  | notAMapping form => "Input should be a valid dictionary or instance of " ++ form
  | unknownLevel shown => "Value error, unknown log level " ++ shown
  | notATruthValue => "Input should be a valid boolean"
  | unclearTruthValue => "Input should be a valid boolean, unable to interpret input"

end Trouble

/-- A trouble and where it is. -/
structure Complaint where
  place : List Place
  trouble : Trouble
  deriving DecidableEq, Repr

/-- A complaint seen from further outside. -/
def Complaint.inside (name : String) (c : Complaint) : Complaint :=
  { c with place := .name name :: c.place }

/-- What a check finds: a value, or what is wrong, at least one complaint. -/
abbrev Checked (α : Type) := Except (List Complaint) α

namespace Checked

/-- Two checks of which both are made, the complaints of the first coming first. -/
def both {α β γ : Type} (combine : α → β → γ) : Checked α → Checked β → Checked γ
  | .ok a, .ok b => .ok (combine a b)
  | .ok _, .error f => .error f
  | .error e, .ok _ => .error e
  | .error e, .error f => .error (e ++ f)

/-- A check of what is under a name. -/
def inside {α : Type} (name : String) : Checked α → Checked α
  | .ok a => .ok a
  | .error e => .error (e.map (·.inside name))

/-- The failure of a check by one complaint. -/
def refuse {α : Type} (trouble : Trouble) : Checked α :=
  .error [⟨[], trouble⟩]

end Checked

end Bindery
