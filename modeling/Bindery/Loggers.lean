import Bindery.Journal
import Bindery.Text.UpperCase
import Bindery.Value.Display

/-!
# Loggers and their levels

Loggers are named by words with dots between them. A logger whose own level is zero follows the
nearest one that exists above it, and in the end the root.

`Loggers.configure` sets the level of the package as a whole and makes sure that its records are
shown, `Loggers.setComponent` sets the level of one logger inside of the package. A level is given
as a number or by name; a name that means nothing stands for `INFO`.
-/

namespace Bindery

/-- A level as it was set: a number, or a truth value, which counts as one or zero. -/
inductive LevelNumber where
  | int (n : Int)
  | truth (b : Bool)
  deriving DecidableEq, Repr

def LevelNumber.number : LevelNumber → Int
  | int n => n
  | truth b => b.toInt

/-- Why a value is no level. -/
inductive LevelFault where
  | unknownName (name : String)
  | notALevel
  deriving DecidableEq, Repr

def LevelFault.message? : LevelFault → Option String
  | unknownName name => some ("Unknown level: " ++ Text.quoted name)
  | notALevel => none

/-- What shows the records of a logger: the package's own handler, or one that was there before. -/
inductive Handler where
  | own
  | foreign (id : Nat)
  deriving DecidableEq, Repr

/-- The loggers that exist with their own levels, and the handlers of the package. -/
structure Loggers where
  levels : Ledger String LevelNumber
  handlers : List Handler
  deriving Repr

namespace Loggers

/-! ## What a level means -/

/-- The levels by name. -/
def levelNames : List (String × Int) :=
  [("CRITICAL", 50), ("FATAL", 50), ("ERROR", 40), ("WARN", 30), ("WARNING", 30), ("INFO", 20),
    ("DEBUG", 10), ("NOTSET", 0)]

/-- What a name that means nothing stands for. -/
def fallback : Int := 20

/-- Names in capitals that stand for something else than a level: a text and a table. -/
def otherNames : List (String × Value) :=
  [("BASIC_FORMAT", .text "%(levelname)s:%(name)s:%(message)s"), ("_STYLES", .mapping [])]

/-- What a name in capitals stands for. -/
def meaning (name : String) : Value :=
  match levelNames.lookup name, otherNames.lookup name with
  | some n, _ => .int n
  | none, some v => v
  | none, none => .int fallback

/-- What is meant by a level that may be a name in any case. -/
def meant : Value → Value
  | .scalar (.text name) => meaning (String.ofList (Text.upper name.toList))
  | v => v

/-- The level that a value is: a number, or a name exactly as it is known. -/
def toLevel : Value → Except LevelFault LevelNumber
  | .scalar (.int n) => .ok (.int n)
  | .scalar (.bool b) => .ok (.truth b)
  | .scalar (.text name) =>
    match levelNames.lookup name with
    | some n => .ok (.int n)
    | none => .error (.unknownName name)
  | _ => .error .notALevel

/-! ## Levels of loggers -/

/-- The name of the package's logger. -/
def package : String := "bindgen"

/-- Names that mean the root. -/
def isRoot (logger : String) : Bool := logger = "" || logger = "root"

def rootLevel : LevelNumber := .int 30

/-- The loggers at the start: none has a level of its own, and nothing is shown. -/
def initial : Loggers :=
  let parts : List Part := [.memo, .layout, .processing, .writer, .loader]
  ⟨(package :: parts.map Part.logger).map fun name => (name, .int 0), []⟩

/-- The own level of a logger. -/
def level (logger : String) (s : Loggers) : LevelNumber :=
  if isRoot logger then rootLevel else (s.levels.get? logger).getD (.int 0)

/-- The logger exists from now on. -/
def touch (logger : String) (s : Loggers) : Loggers :=
  if isRoot logger || s.levels.contains logger then s
  else { s with levels := s.levels.put logger (.int 0) }

/-- The logger with a level of its own. -/
def setLevel (logger : String) (n : LevelNumber) (s : Loggers) : Loggers :=
  { s with levels := s.levels.put logger n }

/-- The names above a name that is given in reverse: what stands before its dots. No name is empty,
and of two dots side by side only the second counts. -/
def namesAbove : Bool → List Char → List String
  | _, [] => []
  | mayCut, c :: rest =>
    -- the character behind a cut is passed over, so a dot there cuts nothing
    if mayCut && c = '.' then
      if rest.isEmpty then [] else String.ofList rest.reverse :: namesAbove false rest
    else namesAbove true rest

/-- The nearest logger above one. -/
def parent? (logger : String) (s : Loggers) : Option String :=
  (namesAbove true logger.toList.reverse).find? s.levels.contains

/-- The first level other than zero, from a logger on upwards through at most `height` loggers. -/
def levelFrom (s : Loggers) : Nat → String → LevelNumber
  | 0, _ => rootLevel
  | height + 1, logger =>
    let own := s.level logger
    -- zero is no level but the lack of one
    if own.number ≠ 0 then own
    else
      match s.parent? logger with
      | some above => levelFrom s height above
      | none => rootLevel

/-- The level that a logger follows. -/
def effective (logger : String) (s : Loggers) : LevelNumber :=
  if isRoot logger then rootLevel else levelFrom s (logger.length + 1) logger

/-- Whether a logger passes records of a level on, which has to be a number. -/
def isEnabled (logger : String) (level : Value) (s : Loggers) : Except LevelFault Bool :=
  match level with
  | .scalar x =>
    match x.number? with
    | none => .error .notALevel
    | some n =>
      let above := n.compare? (.ofInt 0) == some .gt
      let reaches := n.compare? (.ofInt (s.effective logger).number)
      .ok (above && (reaches == some .gt || reaches == some .eq))
  | _ => .error .notALevel

/-! ## Setting them -/

/-- Whether the package shows its records. -/
def isShown (s : Loggers) : Bool := s.handlers.contains .own

/-- The package's own handler, once. -/
def attach (s : Loggers) : Loggers :=
  if s.isShown then s else { s with handlers := s.handlers ++ [.own] }

/-- The level of a logger becomes what a value means. -/
def assign (logger : String) (level : Value) (s : Loggers) : Except LevelFault Unit × Loggers :=
  match toLevel (meant level) with
  | .ok n => (.ok (), s.setLevel logger n)
  | .error e => (.error e, s.touch logger)

/-- The level that stands for nothing given. -/
def defaultLevel (verbose : Bool) : Value := .int (if verbose then 10 else 30)

/-- Shows the records of the package from a level on. -/
def configure (verbose : Bool) (level : Value) (s : Loggers) : Except LevelFault Unit × Loggers :=
  let wanted :=
    match level with
    | .scalar .null => defaultLevel verbose
    | v => v
  s.attach.assign package wanted

/-- What the names of loggers inside of the package start with. -/
def inside : List Char := package.toList ++ ['.']

/-- The logger of a component: the package itself, or one inside of it. -/
def componentLogger (component : String) : String :=
  if component = package || inside.isPrefixOf component.toList then component
  else package ++ "." ++ component

/-- Sets the level of a component. -/
def setComponent (component : String) (level : Value) (s : Loggers) :
    Except LevelFault Unit × Loggers :=
  s.assign (componentLogger component) level

/-- The lines that a message gives, one for each handler, without the time in front. -/
def shownLines (levelName logger text : String) (s : Loggers) : List String :=
  s.handlers.map fun _ => levelName ++ " " ++ logger ++ ": " ++ text

/-- Those records of the library that are shown. -/
def shown (records : List Record) (s : Loggers) : List Record :=
  if s.isShown then records.filter fun r => (s.effective r.part.logger).number ≤ 10 else []

end Loggers

end Bindery
