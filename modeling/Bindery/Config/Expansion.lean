import Bindery.Value

/-!
# References to the environment

A text of a configuration may refer to a variable as `${NAME}`, the name being anything but empty
and without a closing brace. References are replaced in one pass from left to right: what is put in
is not looked at again. What only looks like the start of a reference stays as it is.

Lists and mappings may be nested as deep as they like: that the calls of a running program cannot is
left out of account.
-/

namespace Bindery

/-- The variables of a process by their names, in the order in which they are listed. -/
abbrev Environment := Ledger String String

namespace Config

/-- Replaces references; `open?` holds the name read so far, in reverse, inside of one. -/
def expandFrom (lookup : List Char → List Char) : Option (List Char) → List Char → List Char
  | none, [] => []
  | some name, [] => '$' :: '\x7b' :: name.reverse
  | none, '$' :: '\x7b' :: cs => expandFrom lookup (some []) cs
  | none, c :: cs => c :: expandFrom lookup none cs
  | some [], '\x7d' :: cs => '$' :: '\x7b' :: '\x7d' :: expandFrom lookup none cs
  | some (n :: name), '\x7d' :: cs => lookup (n :: name).reverse ++ expandFrom lookup none cs
  | some name, c :: cs => expandFrom lookup (some (c :: name)) cs

/-- What a variable stands for: nothing if it is not set. -/
def variableText (env : Environment) (name : List Char) : List Char :=
  ((env.get? (String.ofList name)).getD "").toList

/-- A text with its references replaced. -/
def expandText (env : Environment) (text : String) : String :=
  String.ofList (expandFrom (variableText env) none text.toList)

mutual
/-- A value with the references replaced in every text that it holds, at any depth of lists and
mappings. Keys, tuples and sets stay as they are. -/
def expand (env : Environment) : Value → Value
  | .scalar (.text s) => .text (expandText env s)
  | .list items => .list (expandItems env items)
  | .mapping entries => .mapping (expandEntries env entries)
  | v => v

/-- Items of a list with their references replaced. -/
def expandItems (env : Environment) : List Value → List Value
  | [] => []
  | v :: vs => expand env v :: expandItems env vs

/-- Entries of a mapping with the references in their values replaced. -/
def expandEntries (env : Environment) : List (Key × Value) → Mapping
  | [] => []
  | (key, value) :: rest => (key, expand env value) :: expandEntries env rest
end

end Config

end Bindery
