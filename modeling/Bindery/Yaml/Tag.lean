import Bindery.Number.Numeral

/-!
# Tags

The tag of a node says what it is. A plain scalar without a tag is what it looks like: the rules by
which it looks like a number, a date, a truth value or nothing at all are in `Tag.implied`. Each
rule is also satisfied by a text with one line feed at its end.
-/

namespace Bindery.Yaml

/-- What a node is. -/
inductive Tag where
  | null
  | bool
  | int
  | float
  | binary
  | timestamp
  | omap
  | pairs
  | set
  | str
  | seq
  | map
  | merge
  | value
  | other
  deriving DecidableEq, Repr

namespace Tag

/-- What the addresses of the known tags start with. -/
def home : String := "tag:yaml.org,2002:"

/-- The known tags by their names. -/
def known : List (String × Tag) :=
  [("null", .null), ("bool", .bool), ("int", .int), ("float", .float), ("binary", .binary),
    ("timestamp", .timestamp), ("omap", .omap), ("pairs", .pairs), ("set", .set), ("str", .str),
    ("seq", .seq), ("map", .map), ("merge", .merge), ("value", .value)]

/-- The tag with an address. -/
def ofAddress (address : String) : Tag :=
  match known.find? fun (name, _) => home ++ name == address with
  | some (_, tag) => tag
  | none => .other

end Tag

/-! ## Looks -/

/-- What is left of a text behind a pattern at its start, if the pattern is there. -/
abbrev Pattern := List Char → Option (List Char)

namespace Pattern

/-- One character of a class. -/
def one (p : Char → Bool) : Pattern
  | c :: cs => if p c then some cs else none
  | [] => none

/-- Any number of characters of a class. -/
def many (p : Char → Bool) : Pattern := fun cs => some (cs.dropWhile p)

/-- One pattern behind another. -/
def andThen (a b : Pattern) : Pattern := fun cs => (a cs).bind b

/-- At least one character of a class. -/
def some1 (p : Char → Bool) : Pattern := andThen (one p) (many p)

/-- A pattern that may be missing. -/
def optional (a : Pattern) : Pattern := fun cs =>
  match a cs with
  | some rest => some rest
  | none => some cs

/-- One of several patterns, the first that is there. -/
def oneOf (as : List Pattern) : Pattern := fun cs => as.findSome? (· cs)

/-- Patterns one behind the other. -/
def inOrder (as : List Pattern) : Pattern := as.foldr andThen some

/-- A word. -/
def word (s : String) : Pattern := fun cs =>
  if s.toList.isPrefixOf cs then some (cs.drop s.length) else none

/-- Whether a pattern takes all of a text but perhaps a line feed at its end. -/
def fits (a : Pattern) (cs : List Char) : Bool :=
  match a cs with
  | some [] | some ['\n'] => true
  | _ => false

end Pattern

namespace Tag

open Pattern

def isSign (c : Char) : Bool := c == '-' || c == '+'

def isDigitOr (c : Char) : Bool := c.isDigit || c == '_'

def isHexDigitOr (c : Char) : Bool :=
  c.isDigit || ('a' ≤ c && c ≤ 'f') || ('A' ≤ c && c ≤ 'F') || c == '_'

def isOctalOr (c : Char) : Bool := ('0' ≤ c && c ≤ '7') || c == '_'

def isBinaryOr (c : Char) : Bool := c == '0' || c == '1' || c == '_'

def isFirstDigit (c : Char) : Bool := '1' ≤ c && c ≤ '9'

/-- A colon and a number below sixty. -/
def sixtieth : Pattern :=
  andThen (one (· == ':'))
    (oneOf [andThen (one fun c => '0' ≤ c && c ≤ '5') (one Char.isDigit), one Char.isDigit])

/-- Numbers below sixty, each behind a colon, as many as there are. -/
def moreSixtieths : Nat → Pattern
  | 0 => some
  | limit + 1 => fun cs =>
    match sixtieth cs with
    | some rest => moreSixtieths limit rest
    | none => some cs

/-- At least one number below sixty behind a colon. -/
def sixtieths : Pattern := fun cs => andThen sixtieth (moreSixtieths cs.length) cs

def sign : Pattern := optional (one isSign)

/-- An exponent with its sign, if there is one. -/
def exponent : Pattern :=
  optional (inOrder [one fun c => c == 'e' || c == 'E', one isSign, some1 Char.isDigit])

def looksLikeInt (cs : List Char) : Bool :=
  [inOrder [sign, word "0b", some1 isBinaryOr], inOrder [sign, word "0", some1 isOctalOr],
    inOrder [sign, word "0"], inOrder [sign, one isFirstDigit, many isDigitOr],
    inOrder [sign, word "0x", some1 isHexDigitOr],
    inOrder [sign, one isFirstDigit, many isDigitOr, sixtieths]].any (fits · cs)

def looksLikeFloat (cs : List Char) : Bool :=
  [inOrder [sign, one Char.isDigit, many isDigitOr, word ".", many isDigitOr, exponent],
    inOrder [word ".", one Char.isDigit, many isDigitOr, exponent],
    inOrder [sign, one Char.isDigit, many isDigitOr, sixtieths, word ".", many isDigitOr],
    inOrder [sign, oneOf [word ".inf", word ".Inf", word ".INF"]],
    oneOf [word ".nan", word ".NaN", word ".NAN"]].any (fits · cs)

def twoDigits : Pattern := andThen (one Char.isDigit) (one Char.isDigit)

/-- Four digits. -/
def year : Pattern := andThen twoDigits twoDigits

def oneOrTwoDigits : Pattern := andThen (one Char.isDigit) (optional (one Char.isDigit))

def isBlank (c : Char) : Bool := c == ' ' || c == '\t'

/-- What may stand between the date and the time of a day. -/
def dayGap : Pattern := oneOf [one fun c => c == 'T' || c == 't', some1 isBlank]

/-- An offset from universal time. -/
def offset : Pattern :=
  andThen (many isBlank)
    (oneOf [word "Z",
      inOrder [one isSign, oneOrTwoDigits, optional (andThen (word ":") twoDigits)]])

/-- A time of a day, with a fraction and an offset if there are any. -/
def timeOfDay : Pattern :=
  inOrder [oneOrTwoDigits, word ":", twoDigits, word ":", twoDigits,
    optional (andThen (word ".") (many Char.isDigit)), optional offset]

def looksLikeTimestamp (cs : List Char) : Bool :=
  [inOrder [year, word "-", twoDigits, word "-", twoDigits],
    inOrder [year, word "-", oneOrTwoDigits, word "-", oneOrTwoDigits, dayGap, timeOfDay]].any
      (fits · cs)

/-- The words for truth values. -/
def truthWords : List String :=
  ["yes", "Yes", "YES", "no", "No", "NO", "true", "True", "TRUE", "false", "False", "FALSE", "on",
    "On", "ON", "off", "Off", "OFF"]

/-- The words for nothing. -/
def nullWords : List String := ["~", "null", "Null", "NULL"]

/-- What a plain scalar is by its looks. -/
def implied (text : String) : Tag :=
  let cs := text.toList
  let isWord (words : List String) := words.any fun w => fits (word w) cs
  if cs = [] then .null
  else if isWord truthWords then .bool
  else if looksLikeFloat cs then .float
  else if looksLikeInt cs then .int
  else if isWord ["<<"] then .merge
  else if isWord nullWords then .null
  else if looksLikeTimestamp cs then .timestamp
  else if isWord ["="] then .value
  else if isWord ["!", "&", "*"] then .other
  else .str

end Tag

end Bindery.Yaml
