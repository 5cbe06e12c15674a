import Bindery.Text.UpperCase
import Bindery.Value.Display

/-!
# Names of log levels

The five levels that a configuration can ask for, by name in any case or by number. Whatever else
asks for one does so by its text, and no text but a name asks with success.
-/

namespace Bindery

/-- A named log level. -/
inductive Level where
  | critical
  | error
  | warning
  | info
  | debug
  deriving DecidableEq, Repr

namespace Level

def all : List Level := [critical, error, warning, info, debug]

def name : Level → String
  | critical => "CRITICAL"
  | error => "ERROR"
  | warning => "WARNING"
  | info => "INFO"
  | debug => "DEBUG"

def number : Level → Int
  | critical => 50
  | error => 40
  | warning => 30
  | info => 20
  | debug => 10

/-- The level with a number. -/
def ofNumber? (n : Int) : Option Level :=
  all.find? (·.number == n)

/-- The level with a name, written in any case. -/
def ofName? (s : String) : Option Level :=
  all.find? (·.name.toList == Text.upper s.toList)

/-- What a number is called: the name of its level, or a name that no level has. -/
def numberName (n : Int) : String :=
  match ofNumber? n with
  | some level => level.name
  | none => if n = 0 then "NOTSET" else "Level " ++ toString n

/-- The name by which a value asks for a level: a number by what it is called, all else by its text.
-/
def nameAsked : Value → String
  | .scalar (.int n) => numberName n
  | v => v.toText

/-- The level that a value asks for. -/
def ofValue? (v : Value) : Option Level :=
  ofName? (nameAsked v)

/-- How a value that asks for no level is shown. -/
def unknownText : Value → String
  | .scalar (.int n) => Text.quoted (numberName n)
  | v => String.ofList v.display

end Level

end Bindery
