import Bindery.Number.Shortest
import Bindery.Text.Quoted
import Bindery.Value

/-!
# Values shown in messages

The text of a value inside a message: scalars by their names or digits, texts and bytes between
quotes, and collections in brackets with a comma and a space between two items. A tuple of one item
keeps a comma, so that it is told from a value in parentheses.
-/

namespace Bindery

open Bindery.Text

/-- A whole number in decimal digits. -/
def intText (n : Int) : List Char :=
  if n < 0 then '-' :: Nat.toDigits 10 n.natAbs else Nat.toDigits 10 n.natAbs

/-- Texts with a comma and a space between two neighbours. -/
def listed : List (List Char) → List Char
  | [] => []
  | [item] => item
  | item :: next :: rest => item ++ ',' :: ' ' :: listed (next :: rest)

/-- Items between parentheses, as a tuple shows them. -/
def tupled : List (List Char) → List Char
  | [item] => '(' :: item ++ [',', ')']
  | items => '(' :: listed items ++ [')']

/-- A call with its arguments, as calendar values show themselves. -/
def called (name : String) (arguments : List (List Char)) : List Char :=
  name.toList ++ '(' :: listed arguments ++ [')']

/-- An offset from universal time, split into whole days and the seconds beyond them. -/
def offsetText (minutes : Int) : List Char :=
  if minutes = 0 then "datetime.timezone.utc".toList
  else
    let days := "days=-1".toList
    let seconds := "seconds=".toList ++ intText ((minutes % 1440) * 60)
    called "datetime.timezone"
      [called "datetime.timedelta" (if minutes < 0 then [days, seconds] else [seconds])]

def Date.display (d : Date) : List Char :=
  called "datetime.date" [intText d.year, intText d.month, intText d.day]

/-- A moment leaves out the seconds and the microseconds as long as nothing but zeros follows. -/
def Moment.display (m : Moment) : List Char :=
  let fine :=
    if m.microsecond ≠ 0 then [intText m.second, intText m.microsecond]
    else if m.second ≠ 0 then [intText m.second]
    else []
  let offset :=
    match m.offset with
    | none => []
    | some o => ["tzinfo=".toList ++ offsetText o]
  called "datetime.datetime"
    ([intText m.date.year, intText m.date.month, intText m.date.day, intText m.hour,
      intText m.minute] ++ fine ++ offset)

def Scalar.display : Scalar → List Char
  | .null => "None".toList
  | .bool true => "True".toList
  | .bool false => "False".toList
  | .int n => intText n
  | .float x => x.display
  | .text s => (quoted s).toList
  | .bytes bs => (quotedBytes bs).toList
  | .date d => d.display
  | .moment m => m.display

mutual
/-- A key inside a message. -/
def Key.display : Key → List Char
  | .scalar s => s.display
  | .tuple items => tupled (Key.displayAll items)

def Key.displayAll : List Key → List (List Char)
  | [] => []
  | k :: ks => k.display :: Key.displayAll ks
end

mutual
/-- A value inside a message. -/
def Value.display : Value → List Char
  | .scalar s => s.display
  | .tuple items => tupled (Value.displayAll items)
  | .list items => '[' :: listed (Value.displayAll items) ++ [']']
  | .set [] => "set()".toList
  | .set items => '\x7b' :: listed (Key.displayAll items) ++ ['\x7d']
  | .mapping entries => '\x7b' :: listed (Value.displayEntries entries) ++ ['\x7d']

def Value.displayAll : List Value → List (List Char)
  | [] => []
  | v :: vs => v.display :: Value.displayAll vs

def Value.displayEntries : List (Key × Value) → List (List Char)
  | [] => []
  | (k, v) :: rest => (k.display ++ ':' :: ' ' :: v.display) :: Value.displayEntries rest
end

/-- A value turned into text: a text is itself, all else as it is shown in a message. -/
def Value.toText : Value → String
  | .scalar (.text s) => s
  | .scalar (.date d) => String.ofList d.isoText
  | .scalar (.moment m) =>
    String.ofList (m.isoText.map fun c => if c = 'T' then ' ' else c)
  | v => String.ofList v.display

end Bindery
