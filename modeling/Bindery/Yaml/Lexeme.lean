import Bindery.Number.Numeral
import Bindery.Yaml.Lexer

/-!
# The longer tokens

Directives, tags, names, and the three forms of scalars: blocks, quoted scalars and plain ones. Each
function starts at the first character of its token and ends behind the last.

Lines of a scalar are joined: a single line break becomes a space, and of several the first is left
out.
-/

namespace Bindery.Yaml

/-! ## Names, tags and directives -/

/-- A name of at least one character. -/
def takeName : Lex String := do
  let cs ← takeWhile isNameChar
  if cs.isEmpty then malformed
  return String.ofList cs

/-- The name behind the mark of an anchor or of a reference to one. -/
def takeAnchorName : Lex String := do
  skip 1
  let name ← takeName
  expect fun c => isGap c || "?:,]\x7d%@`".toList.contains c
  return name

/-- The number that hexadecimal digits at a distance write, behind what was read of it before. The
digits are asked for one by one. -/
def hexNumber (distance : Nat) : Nat → Nat → Lex Nat
  | 0, number => return number
  | count + 1, number => do
    match hexValue? (← peekAt distance) with
    | none => malformed
    | some digit => hexNumber (distance + 1) count (number * 16 + digit)

/-- The bytes that a row of escapes stands for. -/
def takeEscapedBytes : Nat → Lex (List UInt8)
  | 0 => malformed
  | limit + 1 => do
    if (← peek) == '%' then
      skip 1
      let code ← hexNumber 0 2 0
      skip 2
      return UInt8.ofNat code :: (← takeEscapedBytes limit)
    else return []

/-- An address, with its escapes read as UTF-8. -/
def takeAddressWithin : Nat → Lex (List Char)
  | 0 => malformed
  | limit + 1 => do
    let cs ← takeWhile fun c => isAddressChar c && c != '%'
    if (← peek) == '%' then
      match Text.decode? (← takeEscapedBytes limit) with
      | none => malformed
      | some s => return cs ++ s.toList ++ (← takeAddressWithin limit)
    else return cs

/-- An address of at least one character. -/
def takeAddress : Lex String := do
  expect isAddressChar
  return String.ofList (← takeAddressWithin ((← get).rest.length + 1))

/-- The handle of a tag: an exclamation mark, or a name between two. -/
def takeHandle : Lex String := do
  expect (· == '!')
  if (← peekAt 1) == ' ' then
    skip 1
    return "!"
  let name := ((← get).rest.drop 1).takeWhile isNameChar
  if (← peekAt (name.length + 1)) != '!' then malformed
  skip (name.length + 2)
  return String.ofList ('!' :: name ++ ['!'])

/-- Whether another exclamation mark follows the one here in the same word. -/
def hasHandle : Lex Bool := do
  let before := ((← get).rest.drop 1).takeWhile fun c => !endsWord c && c != '!'
  return (← peekAt (before.length + 1)) == '!'

/-- A tag. -/
def takeTag : Lex Token := do
  let next ← peekAt 1
  let token ←
    if next == '<' then do
      skip 2
      let suffix ← takeAddress
      expect (· == '>')
      skip 1
      pure (Token.tag none suffix)
    else if isGap next then do
      skip 1
      pure (Token.tag none "!")
    else if ← hasHandle then do
      let handle ← takeHandle
      pure (Token.tag (some handle) (← takeAddress))
    else do
      skip 1
      pure (Token.tag (some "!") (← takeAddress))
  expect endsWord
  return token

/-- A number of at least one decimal digit, and not too many. -/
def takeNumber : Lex Nat := do
  let digits ← takeWhile Char.isDigit
  if digits.isEmpty then malformed
  if digitLimit < digits.length then throw (.mishap .badValue)
  return digits.foldl (fun n d => n * 10 + (d.toNat - '0'.toNat)) 0

/-- What a directive says, behind its name. -/
def takeDirectiveValue (name : String) : Lex Directive := do
  if name = "YAML" then
    skipSpaces
    let major ← takeNumber
    expect (· == '.')
    skip 1
    discard takeNumber
    expect endsWord
    return .version major
  else if name = "TAG" then
    skipSpaces
    let handle ← takeHandle
    expect (· == ' ')
    skipSpaces
    let address ← takeAddress
    expect endsWord
    return .tagHandle handle address
  else
    discard (takeWhile (!endsLine ·))
    return .other

/-- A directive, with its line. -/
def takeDirective : Lex Token := do
  skip 1
  let name ← takeName
  expect endsWord
  let d ← takeDirectiveValue name
  finishLine
  return .directive d

/-! ## Blocks -/

/-- What happens to the line breaks at the end of a block. -/
inductive Chomping where
  | clip
  | strip
  | keep
  deriving DecidableEq, Repr

/-- Reads the sign that says what happens to the line breaks at the end. -/
def chompingOf? (c : Char) : Option Chomping :=
  if c == '+' then some .keep else if c == '-' then some .strip else none

/-- Reads the digit that gives the indentation of a block. -/
def incrementOf? (c : Char) : Option Nat :=
  if c.isDigit then some (c.toNat - '0'.toNat) else none

/-- A digit that gives the indentation, if there is one; it is not zero. -/
def takeIncrement? : Lex (Option Nat) := do
  match incrementOf? (← peek) with
  | none => return none
  | some 0 => malformed
  | some n => do
    skip 1
    return some n

/-- The header of a block: a sign and a digit, in either order, each of which may be missing. -/
def takeHeader : Lex (Chomping × Option Nat) := do
  let header ←
    match chompingOf? (← peek) with
    | some chomping => do
      skip 1
      pure (chomping, ← takeIncrement?)
    | none =>
      match ← takeIncrement? with
      | some n =>
        match chompingOf? (← peek) with
        | some chomping => do
          skip 1
          pure (chomping, some n)
        | none => pure (.clip, some n)
      | none => pure (.clip, none)
  expect endsWord
  return header

/-- Goes over spaces up to a column. -/
def skipSpacesTo (column : Nat) : Lex Unit := do
  let s ← get
  skip ((s.rest.take (column - s.column)).takeWhile (· == ' ')).length

/-- The line breaks of the empty lines here, and the column of the widest one. -/
def emptyLines : Nat → Nat → Lex (List Char × Nat)
  | 0, _ => malformed
  | limit + 1, widest => do
    skipSpaces
    let widest := max widest (← get).column
    if isBreak (← peek) then
      let first ← takeBreak
      let (others, widest) ← emptyLines limit widest
      return (first ++ others, widest)
    else return ([], widest)

/-- The line breaks of the empty lines here, in a block of known indentation. -/
def emptyLinesTo (indent : Nat) : Nat → Lex (List Char)
  | 0 => malformed
  | limit + 1 => do
    skipSpacesTo indent
    if isBreak (← peek) then
      let first ← takeBreak
      return first ++ (← emptyLinesTo indent limit)
    else return []

/-- The text of a block from a line of it on, given the line breaks before that line. In a folded
block a single line feed between two lines that do not start with a blank becomes a space. -/
def blockLines (folded : Bool) (chomping : Chomping) (indent : Nat) :
    Nat → List Char → List Char → Lex (List Char)
  | 0, _, _ => malformed
  | limit + 1, lineBreak, breaks => do
    let s ← get
    let first ← peek
    if s.column == indent && first != ending then
      let isText (c : Char) := c != ' ' && c != '\t'
      let line ← takeWhile (!endsLine ·)
      let last ← takeBreak
      let empty ← emptyLinesTo indent (s.rest.length + 1)
      let next ← peek
      if (← get).column == indent && next != ending then
        let between :=
          if folded && last == ['\n'] && isText first && isText next then
            if empty.isEmpty then [' '] else []
          else last
        return breaks ++ line ++ between ++ (← blockLines folded chomping indent limit last empty)
      else return breaks ++ line ++ tail last empty
    else return tail lineBreak breaks
where
  /-- What is left of the line breaks at the end. -/
  tail (last empty : List Char) : List Char :=
    match chomping with
    | .strip => []
    | .clip => last
    | .keep => last ++ empty

/-- A block. Its indentation is that of its first line that is not empty, unless the header gives
it, and at least one more than that of the collection around it. -/
def takeBlock (folded : Bool) : Lex Token := do
  skip 1
  let (chomping, increment) ← takeHeader
  finishLine
  let s ← get
  let limit := s.rest.length + 1
  let least := (max 1 (s.indent + 1)).toNat
  match increment with
  | none =>
    let (breaks, widest) ← emptyLines limit 0
    let text ← blockLines folded chomping (max least widest) limit [] breaks
    return .scalar (.text (String.ofList text)) false
  | some n =>
    let indent := least + n - 1
    let breaks ← emptyLinesTo indent limit
    let text ← blockLines folded chomping indent limit [] breaks
    return .scalar (.text (String.ofList text)) false

/-! ## Quoted scalars -/

/-- The characters that an escape of one letter stands for. -/
def escapes : List (Char × Char) :=
  [('0', '\x00'), ('a', '\x07'), ('b', '\x08'), ('t', '\t'), ('\t', '\t'), ('n', '\n'),
    ('v', '\x0b'), ('f', '\x0c'), ('r', '\r'), ('e', '\x1b'), (' ', ' '), ('"', '"'),
    ('\\', '\\'), ('/', '/'), ('N', '\x85'), ('_', '\xa0'), ('L', '\u2028'), ('P', '\u2029')]

/-- How many digits follow the letter of an escape by code. -/
def codeWidth? (c : Char) : Option Nat :=
  if c == 'x' then some 2 else if c == 'u' then some 4 else if c == 'U' then some 8 else none

/-- The line breaks of the empty lines in a quoted scalar, where no document mark may stand. -/
def quotedBreaks : Nat → Lex (List Char)
  | 0 => malformed
  | limit + 1 => do
    if ← atMark then malformed
    discard (takeWhile fun c => c == ' ' || c == '\t')
    if isBreak (← peek) then
      let first ← takeBreak
      return first ++ (← quotedBreaks limit)
    else return []

/-- An escape, behind its backslash. -/
def takeEscape (limit : Nat) : Lex (List Glyph) := do
  let c ← peek
  match escapes.lookup c, codeWidth? c with
  | some d, _ => do
    skip 1
    return [.char d]
  | none, some width => do
    skip 1
    let code ← hexNumber 0 width 0
    if 0x7fffffff < code then throw (.mishap .hugeCharacter)
    if 0x10ffff < code then throw (.mishap .noSuchCharacter)
    skip width
    return [.ofCode code]
  | none, none => do
    if !isBreak c then malformed
    discard takeBreak
    return (← quotedBreaks limit).map .char

/-- Blanks and line breaks inside of a quoted scalar. -/
def quotedGap (limit : Nat) : Lex (List Char) := do
  let blanks ← takeWhile fun c => c == ' ' || c == '\t'
  let c ← peek
  if c == ending then malformed
  if isBreak c then
    let first ← takeBreak
    let others ← quotedBreaks limit
    if first != ['\n'] then return first ++ others
    else if others.isEmpty then return [' ']
    else return others
  else return blanks

/-- Whether a quote comes next that stands for itself, being doubled. -/
def atDoubledQuote (double : Bool) : Lex Bool := do
  if !double && (← peek) == '\'' then return (← peekAt 1) == '\''
  else return false

/-- What a quoted scalar says up to its closing quote. -/
def quotedGlyphs (double : Bool) : Nat → Lex (List Glyph)
  | 0 => malformed
  | limit + 1 => do
    let c ← peek
    if ← atDoubledQuote double then
      skip 2
      return .char '\'' :: (← quotedGlyphs double limit)
    else if c == (if double then '"' else '\'') then
      skip 1
      return []
    else if double && c == '\\' then
      skip 1
      let glyphs ← takeEscape limit
      return glyphs ++ (← quotedGlyphs double limit)
    else if isGap c then
      let gap ← quotedGap limit
      return gap.map .char ++ (← quotedGlyphs double limit)
    else
      skip 1
      return .char c :: (← quotedGlyphs double limit)

/-- A quoted scalar. -/
def takeQuoted (double : Bool) : Lex Token := do
  skip 1
  let limit := 2 * (← get).rest.length + 2
  return .scalar (.ofGlyphs (← quotedGlyphs double limit)) false

/-! ## Plain scalars -/

/-- Whether a plain word ends before `c`, which `rest` follows. -/
def endsPlain (inFlow : Bool) (c : Char) (rest : List Char) : Bool :=
  let next := rest.headD ending
  isGap c || (c == ':' && (isGap next || (inFlow && isFlowMark next))) ||
    (inFlow && (isFlowMark c || c == '?'))

/-- A plain word. -/
def plainWord (inFlow : Bool) : List Char → List Char
  | [] => []
  | c :: cs => if endsPlain inFlow c cs then [] else c :: plainWord inFlow cs

/-- A plain word here; there is none before a comment. Behind a colon one more character is asked
for. -/
def takePlainWord (inFlow : Bool) : Lex (List Char) := do
  if (← peek) == '#' then return []
  let word := plainWord inFlow (← get).rest
  if (← peekAt word.length) == ':' then discard (peekAt (word.length + 1))
  if !word.isEmpty then
    allowKey false
    skip word.length
  return word

/-- The line breaks of the empty lines behind a plain word; nothing if a document mark follows. -/
def plainBreaks : Nat → Lex (Option (List Char))
  | 0 => malformed
  | limit + 1 => do
    if ← atMark then return none
    skipSpaces
    if isBreak (← peek) then
      let first ← takeBreak
      match ← plainBreaks limit with
      | none => return none
      | some others => return some (first ++ others)
    else return some []

/-- What stands for the blanks and line breaks behind a plain word; nothing if the scalar ends
there. A key may start after a line break. -/
def plainGap (limit : Nat) : Lex (Option (List Char)) := do
  let blanks ← takeWhile (· == ' ')
  if isBreak (← peek) then
    let first ← takeBreak
    allowKey true
    match ← plainBreaks limit with
    | none => return none
    | some others =>
      if first != ['\n'] then return some (first ++ others)
      else if others.isEmpty then return some [' ']
      else return some others
  else if blanks.isEmpty then return none
  else return some blanks

/-- The text of a plain scalar, given what stands before its next word. -/
def plainText (inFlow : Bool) (indent : Int) : Nat → List Char → Lex (List Char)
  | 0, _ => malformed
  | limit + 1, gap => do
    let word ← takePlainWord inFlow
    if word.isEmpty then return []
    match ← plainGap limit with
    | none => return gap ++ word
    | some next =>
      if (← peek) == '#' || (!inFlow && (← get).column < indent) then return gap ++ word
      else return gap ++ word ++ (← plainText inFlow indent limit next)

/-- A plain scalar. -/
def takePlain : Lex Token := do
  let s ← get
  let text ← plainText (s.depth != 0) (s.indent + 1) (s.rest.length + 1) []
  return .scalar (.text (String.ofList text)) true

end Bindery.Yaml
