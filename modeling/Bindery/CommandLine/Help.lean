import Bindery.CommandLine.Form

/-!
# Help

The help of a command is set from its form: a line on usage, what the command is for, and its words
and switches in two columns. The second column starts behind the widest entry, but not beyond column
24; a wider entry has a line of its own.
-/

namespace Bindery.CommandLine

/-- An entry of the two columns. -/
structure Entry where
  indent : Nat
  label : String
  about : String

/-- Where the second column may start at the latest. -/
def widestColumn : Nat := 24

namespace Form

def padded (width : Nat) (s : String) : String :=
  s ++ String.ofList (List.replicate (width - s.length) ' ')

/-- The names of subcommands as one word. -/
def choices (commands : List (String × String)) : String :=
  "\x7b" ++ String.intercalate "," (commands.map Prod.fst) ++ "\x7d"

/-- A switch as the usage shows it. -/
def switchUsage (s : Switch) : String :=
  let name := s.names.headD ""
  match s.kind with
  | .value shown => "[" ++ name ++ " " ++ shown ++ "]"
  | .help | .flag => "[" ++ name ++ "]"

/-- The line on usage. -/
def usage (f : Form) : String :=
  let word :=
    match f.word with
    | .nothing => []
    | .one name _ => [name]
    | .subcommand _ _ commands => [choices commands, "..."]
  "usage: " ++ String.intercalate " " (f.program :: f.switches.map switchUsage ++ word) ++ "\n"

/-- The entries of what is no switch. -/
def wordEntries : Word → List Entry
  | .nothing => []
  | .one name about => [⟨2, name, about⟩]
  | .subcommand _ about commands =>
    ⟨2, choices commands, about⟩ :: commands.map fun (name, about) => ⟨4, name, about⟩

/-- The entry of a switch. -/
def switchEntry (s : Switch) : Entry :=
  let label := String.intercalate ", " s.names
  match s.kind with
  | .value shown => ⟨2, label ++ " " ++ shown, s.about⟩
  | .help | .flag => ⟨2, label, s.about⟩

/-- One entry with its second column at a given place. -/
def entryText (column : Nat) (e : Entry) : String :=
  let label := padded e.indent "" ++ e.label
  if label.length + 2 ≤ column then padded column label ++ e.about ++ "\n"
  else label ++ "\n" ++ padded column "" ++ e.about ++ "\n"

/-- A block of entries under a heading, if there are any. -/
def block (column : Nat) (heading : String) (entries : List Entry) : String :=
  if entries.isEmpty then ""
  else "\n" ++ heading ++ ":\n" ++ String.join (entries.map (entryText column))

/-- The whole help. -/
def help (f : Form) : String :=
  let words := wordEntries f.word
  let switches := f.switches.map switchEntry
  let widest := ((words ++ switches).map fun e => e.indent + e.label.length).foldl max 0
  let column := min widestColumn (widest + 2)
  let about := if f.about.isEmpty then "" else "\n" ++ f.about ++ "\n"
  f.usage ++ about ++ block column "positional arguments" words ++
    block column "options" switches

end Form

end Bindery.CommandLine
