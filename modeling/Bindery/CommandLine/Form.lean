import Bindery.Ledger
import Bindery.Text.Blank
import Bindery.Text.Quoted

/-!
# Forms of command lines

A form says which switches a command takes and which word. Switches are recognised by their names, a
long one also by a beginning that fits no other. Everything behind a double dash is a word.

A command either takes one word, or the name of a subcommand and all that follows it, or nothing.
What fits nowhere is kept, so that it can be complained about in the end.
-/

namespace Bindery.CommandLine

/-- What a switch does. -/
inductive SwitchKind where
  | help
  | flag
  | value (shown : String)
  deriving DecidableEq, Repr

/-- A switch with its names and what is said of it. -/
structure Switch where
  names : List String
  kind : SwitchKind
  about : String
  deriving DecidableEq, Repr

/-- What a command takes besides switches. -/
inductive Word where
  | nothing
  | one (name about : String)
  | subcommand (name about : String) (commands : List (String × String))
  deriving DecidableEq, Repr

/-- The form of a command. -/
structure Form where
  program : String
  about : String
  switches : List Switch
  word : Word
  deriving Repr

/-- Why a command line is not read to its end: help was asked for, or it has a mistake. -/
inductive Stop where
  | help (form : Form)
  | mistake (form : Form) (text : String)
  deriving Repr

/-- What a command line gives: its switches in order, its word, the rest behind the name of a
subcommand, and what fits nowhere. -/
structure Given where
  switches : List (Switch × String)
  word : Option String
  rest : List String
  unknown : List String
  deriving Repr

namespace Given

/-- Nothing given. -/
def none : Given := ⟨[], .none, [], []⟩

/-- Whether a switch of a name was given. -/
def has (name : String) (g : Given) : Bool := g.switches.any fun (s, _) => s.names.contains name

/-- The value that was given last to a switch of a name. -/
def value? (name : String) (g : Given) : Option String :=
  (g.switches.reverse.find? fun (s, _) => s.names.contains name).map Prod.snd

end Given

/-! ## Recognising switches -/

/-- A text attached to the name of a switch, with or without an equality sign. -/
structure Attached where
  equals : Bool
  text : String
  deriving DecidableEq, Repr

/-- What an argument is. -/
inductive Mark where
  | word
  | divider
  | switch (s : Switch) (name : String) (attached : Option Attached)
  | stranger
  deriving Repr

namespace Form

/-- The names of the switches in order, each with its switch. -/
def names (f : Form) : List (String × Switch) :=
  f.switches.flatMap fun s => s.names.map fun name => (name, s)

def find? (name : String) (f : Form) : Option Switch := f.names.lookup name

/-- The complaint about a switch. -/
def mistakeAt (f : Form) (s : Switch) (text : String) : Stop :=
  .mistake f ("argument " ++ String.intercalate "/" s.names ++ ": " ++ text)

/-- An argument cut at its first equality sign. -/
def cutAtEquals (argument : String) : String × Option Attached :=
  let cs := argument.toList
  let name := String.ofList (cs.takeWhile (· ≠ '='))
  match cs.dropWhile (· ≠ '=') with
  | [] => (name, none)
  | _ :: rest => (name, some ⟨true, String.ofList rest⟩)

/-- Whether a text is a number below zero. -/
def isNegativeNumber (argument : String) : Bool :=
  let isDigit (c : Char) := (Text.digitValue? c).isSome
  let digits (cs : List Char) := !cs.isEmpty && cs.all isDigit
  match argument.toList with
  | '-' :: cs =>
    let body := if cs.getLast? = some '\n' then cs.dropLast else cs
    digits body || match body.dropWhile isDigit with
      | '.' :: fraction => digits fraction
      | _ => false
  | _ => false

/-- The switches that an argument can mean which is not the name of one. -/
def candidates (argument : String) (f : Form) : List (String × Switch × Option Attached) :=
  match argument.toList with
  | '-' :: '-' :: _ =>
    let (start, attached) := cutAtEquals argument
    f.names.filterMap fun (name, s) =>
      if start.toList.isPrefixOf name.toList then some (name, s, attached) else none
  | '-' :: c :: rest =>
    f.names.filterMap fun (name, s) =>
      if name = String.ofList ['-', c] then some (name, s, some ⟨false, String.ofList rest⟩)
      else if argument.toList.isPrefixOf name.toList then some (name, s, none)
      else none
  | _ => []

/-- What an argument is that starts with a dash and goes on. -/
def markDashed (f : Form) (argument : String) : Except Stop Mark :=
  let (name, attached) := cutAtEquals argument
  match f.find? argument, attached.bind fun _ => f.find? name with
  | some s, _ => .ok (.switch s argument none)
  | none, some s => .ok (.switch s name attached)
  | none, none =>
    match f.candidates argument with
    | [(name, s, attached)] => .ok (.switch s name attached)
    | [] =>
      .ok (if isNegativeNumber argument || argument.toList.contains ' ' then .word else .stranger)
    | several =>
      .error (.mistake f ("ambiguous option: " ++ argument ++ " could match " ++
        String.intercalate ", " (several.map (·.1))))

/-- What an argument is. -/
def mark (f : Form) (argument : String) : Except Stop Mark :=
  match argument.toList with
  | '-' :: _ :: _ => f.markDashed argument
  | _ => .ok .word

/-- What the arguments are. -/
def markAll (f : Form) : List String → Except Stop (List (String × Mark))
  | [] => .ok []
  | "--" :: rest => .ok (("--", .divider) :: rest.map fun a => (a, .word))
  | a :: rest =>
    match f.mark a, markAll f rest with
    | .ok m, .ok ms => .ok ((a, m) :: ms)
    | .error e, _ => .error e
    | .ok _, .error e => .error e

/-! ## Reading -/

/-- The mistake of a text attached to a switch that takes none. -/
def ignored (f : Form) (s : Switch) (text : String) : Stop :=
  f.mistakeAt s ("ignored explicit argument " ++ Text.quoted text)

/-- What a switch takes from the arguments behind it: its value, if it has one. -/
def takeValue (f : Form) (s : Switch) (behind : List (String × Mark)) :
    Except Stop (String × List (String × Mark)) :=
  match s.kind with
  | .help | .flag => .ok ("", behind)
  | .value _ =>
    match behind with
    | (text, .word) :: rest => .ok (text, rest)
    | _ => .error (f.mistakeAt s "expected one argument")

/-- What came of a switch: the switches it stands for, what of it is unknown, and the arguments
behind. -/
structure Taken where
  switches : List (Switch × String)
  unknown : List String
  behind : List (String × Mark)

/-- Whether a name has a single dash, so that other such names may follow it without one. -/
def isShort (name : String) : Bool :=
  match name.toList with
  | ['-', c] => c ≠ '-'
  | _ => false

/-- Takes switches of one letter written one behind the other, from the one given on. -/
def takeLetters (f : Form) (s : Switch) (behind : List (String × Mark)) :
    List Char → Except Stop Taken
  | [] =>
    match f.takeValue s behind with
    | .ok (value, rest) => .ok ⟨[(s, value)], [], rest⟩
    | .error e => .error e
  | c :: cs =>
    let text := String.ofList (c :: cs)
    match s.kind with
    | .value _ => .ok ⟨[(s, text)], [], behind⟩
    | .help | .flag =>
      if c = '-' then .error (f.ignored s text)
      else
        match f.find? (String.ofList ['-', c]), cs with
        | none, _ => .ok ⟨[(s, "")], ["-" ++ text], behind⟩
        | some next, '=' :: value =>
          match next.kind with
          | .value _ => .ok ⟨[(s, ""), (next, String.ofList value)], [], behind⟩
          | .help | .flag => .error (f.ignored next (String.ofList value))
        | some next, _ =>
          match takeLetters f next behind cs with
          | .ok t => .ok { t with switches := (s, "") :: t.switches }
          | .error e => .error e

/-- Takes a switch with what is attached to it. -/
def takeSwitch (f : Form) (s : Switch) (name : String) (attached : Option Attached)
    (behind : List (String × Mark)) : Except Stop Taken :=
  match attached with
  | none => f.takeLetters s behind []
  | some a =>
    match s.kind with
    | .value _ => .ok ⟨[(s, a.text)], [], behind⟩
    | .help | .flag =>
      if isShort name && a.text ≠ "" && !a.equals then f.takeLetters s behind a.text.toList
      else .error (f.ignored s a.text)

/-- The mistake of a subcommand that does not exist. -/
def noSuchCommand (f : Form) (name : String) (commands : List (String × String))
    (given : String) : Stop :=
  .mistake f ("argument " ++ name ++ ": invalid choice: " ++ Text.quoted given ++
    " (choose from " ++ String.intercalate ", " (commands.map fun c => Text.quoted c.1) ++ ")")

/-- Takes the word of a command: the word, what follows it if it names a subcommand, and the
arguments behind. -/
def takeWord? (f : Form) (items : List (String × Mark)) :
    Except Stop (Option (String × List String × List (String × Mark))) :=
  match f.word, items with
  | .one .., (_, .divider) :: (a, .word) :: rest => .ok (some (a, [], rest))
  | .one .., (a, .word) :: (_, .divider) :: rest => .ok (some (a, [], rest))
  | .one .., (a, .word) :: rest => .ok (some (a, [], rest))
  | .subcommand name _ commands, (a, .word) :: rest =>
    if commands.any (·.1 == a) then .ok (some (a, rest.map Prod.fst, []))
    else .error (f.noSuchCommand name commands a)
  | .subcommand name _ commands, (a, .divider) :: (_, .word) :: _ =>
    .error (f.noSuchCommand name commands a)
  | _, _ => .ok none

/-- Whether an argument is a switch, known or not. -/
def isSwitch : Mark → Bool
  | .switch .. | .stranger => true
  | .word | .divider => false

/-- Reads marked arguments, each turn taking at least one of them. -/
def readMarked (f : Form) : Nat → List (String × Mark) → Given → Except Stop Given
  | 0, _, g => .ok g
  | _, [], g => .ok g
  | turns + 1, (a, m) :: behind, g =>
    match m with
    | .stranger => f.readMarked turns behind { g with unknown := g.unknown ++ [a] }
    | .switch s name attached =>
      match f.takeSwitch s name attached behind with
      | .error e => .error e
      | .ok t =>
        if t.switches.any fun (s, _) => s.kind == .help then .error (.help f)
        else
          f.readMarked turns t.behind
            { g with switches := g.switches ++ t.switches, unknown := g.unknown ++ t.unknown }
    | .word | .divider =>
      let strange :=
        let items := (a, m) :: behind
        f.readMarked turns (items.dropWhile fun i => !isSwitch i.2)
          { g with unknown := g.unknown ++ (items.takeWhile fun i => !isSwitch i.2).map Prod.fst }
      if g.word.isSome then strange
      else
        match f.takeWord? ((a, m) :: behind) with
        | .error e => .error e
        | .ok none => strange
        | .ok (some (word, rest, behind)) =>
          f.readMarked turns behind { g with word := some word, rest := rest }

/-- Whether the word that a command takes is there, if it must be. -/
def checkWord (f : Form) (g : Given) : Except Stop Given :=
  match f.word, g.word with
  | .one name _, none =>
    .error (.mistake f ("the following arguments are required: " ++ name))
  | _, _ => .ok g

/-- Reads the arguments of a command. -/
def read (f : Form) (arguments : List String) : Except Stop Given :=
  match f.markAll arguments with
  | .error e => .error e
  | .ok items =>
    match f.readMarked (items.length + 1) items .none with
    | .error e => .error e
    | .ok g => f.checkWord g

end Form

end Bindery.CommandLine
