import Bindery.Config.Complaint
import Bindery.Text.Encoded

/-!
# Checks of single values and of the names in a mapping

A text may come as UTF-8 bytes, and a truth value as a number or as one of the usual words.
-/

namespace Bindery.Check

/-- The text that a value is. -/
def text : Value → Checked String
  | .scalar (.text s) => .ok s
  | .scalar (.bytes bs) =>
    match Text.decode? bs with
    | some s => .ok s
    | none => Checked.refuse .notUnicode
  | _ => Checked.refuse .notText

/-- The text that a value is, which must not be empty. -/
def someText (v : Value) : Checked String :=
  match text v with
  | .ok s => if s.isEmpty then Checked.refuse .empty else .ok s
  | .error e => .error e

/-- The words for no and for yes. -/
def noWords : List String := ["0", "f", "n", "no", "off", "false"]
def yesWords : List String := ["1", "t", "y", "on", "yes", "true"]

/-- The truth value that a word stands for, in any case of the ASCII letters. -/
def truthOfWord (s : String) : Checked Bool :=
  let word := s.map Char.toLower
  if noWords.contains word then .ok false
  else if yesWords.contains word then .ok true
  else Checked.refuse .unclearTruthValue

/-- The truth value that a whole number stands for; one beyond 64 bits is none at all. -/
def truthOfInt (n : Int) : Checked Bool :=
  if n < -(twoTo 63 : Int) || twoTo 63 ≤ n then Checked.refuse .notATruthValue
  else if n = 0 then .ok false
  else if n = 1 then .ok true
  else Checked.refuse .unclearTruthValue

/-- The whole number that a finite number is, if it is one. -/
def wholeOf : Binary64.Reading → Option Int
  | .finite negative mantissa exponent =>
    let (n, d) := Binary64.scaled mantissa 1 exponent
    if n % d = 0 then some (Binary64.signed negative (n / d)) else none
  | .infinite _ | .notANumber => none

/-- The truth value that a value stands for. -/
def truth : Value → Checked Bool
  | .scalar (.bool b) => .ok b
  | .scalar (.int n) => truthOfInt n
  | .scalar (.float x) =>
    match wholeOf x.reading with
    | some n => if n = -(twoTo 63 : Int) then Checked.refuse .notATruthValue else truthOfInt n
    | none => Checked.refuse .notATruthValue
  | .scalar (.text s) => truthOfWord s
  | .scalar (.bytes bs) =>
    match Text.decode? bs with
    | some s => truthOfWord s
    | none => Checked.refuse .unclearTruthValue
  | _ => Checked.refuse .notATruthValue

/-- What is under a name, checked if it is there. -/
def optional {α : Type} (check : Value → Checked α) (default : α) (name : String) (m : Mapping) :
    Checked α :=
  match m.get? (.text name) with
  | some v => (check v).inside name
  | none => .ok default

/-- What is under a name, where something must be. -/
def required {α : Type} (check : Value → Checked α) (name : String) (m : Mapping) : Checked α :=
  match m.get? (.text name) with
  | some v => (check v).inside name
  | none => Checked.inside name (Checked.refuse .missing)

/-- What is wrong with a key that should be one of the names. -/
def keyComplaint? (names : List String) : Key → Option Complaint
  | .scalar (.text s) => if names.contains s then none else some ⟨[.name s], .unknownName⟩
  | key => some ⟨[.ofKey key], .keyNotText⟩

/-- Whether a mapping has none but the given names. -/
def onlyNames (names : List String) (m : Mapping) : Checked Unit :=
  match m.filterMap fun entry => keyComplaint? names entry.1 with
  | [] => .ok ()
  | complaints => .error complaints

/-- The mapping that a value is; `form` is what it should describe. -/
def mapping (form : String) : Value → Checked Mapping
  | .mapping entries => .ok entries
  | _ => Checked.refuse (.notAMapping form)

end Bindery.Check
