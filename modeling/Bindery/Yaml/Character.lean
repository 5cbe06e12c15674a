/-!
# Characters of a document

The classes of characters that the rules of a document speak of. The end of the text counts as the
null character, which no document holds.
-/

namespace Bindery.Yaml

/-- What stands for the end of the text. -/
def ending : Char := '\x00'

/-- The byte order mark, which takes up no room on a line. -/
def byteOrderMark : Char := '\ufeff'

/-- What ends a line. Carriage returns have been turned into line feeds before. -/
def isBreak (c : Char) : Bool :=
  c == '\n' || c == '\x85' || c == '\u2028' || c == '\u2029'

/-- The end of a line or of the text. -/
def endsLine (c : Char) : Bool :=
  isBreak c || c == ending

/-- A space, or the end of a line or of the text. -/
def endsWord (c : Char) : Bool :=
  c == ' ' || endsLine c

/-- What cannot stand inside of a plain word: besides the ends of words also a tab. -/
def isGap (c : Char) : Bool :=
  c == '\t' || endsWord c

/-- The characters of the names of anchors, of directives and between the marks of a tag. -/
def isNameChar (c : Char) : Bool :=
  c.isAlphanum || c == '-' || c == '_'

/-- The characters of an address, escapes included. -/
def isAddressChar (c : Char) : Bool :=
  c.isAlphanum || "-;/?:@&=+$,_.!~*'()[]%".toList.contains c

/-- The brackets, braces and commas of flow collections. -/
def isFlowMark (c : Char) : Bool :=
  c == ',' || c == '[' || c == ']' || c == '\x7b' || c == '\x7d'

/-- The characters that mean something at the start of a token. -/
def isIndicator (c : Char) : Bool :=
  isFlowMark c || "-?:#&*!|>'\"%@`".toList.contains c

/-- Whether a document may hold a character: no control but the usual three, no delete, no
noncharacter. -/
def isAllowed (c : Char) : Bool :=
  let code := c.toNat
  code == 0x09 || code == 0x0a || code == 0x0d || (0x20 ≤ code && code ≤ 0x7e) || code == 0x85 ||
    (0xa0 ≤ code && code ≤ 0xd7ff) || (0xe000 ≤ code && code ≤ 0xfffd) || 0x10000 ≤ code

/-- The value of a hexadecimal digit. -/
def hexValue? (c : Char) : Option Nat :=
  if c.isDigit then some (c.toNat - '0'.toNat)
  else if 'a' ≤ c && c ≤ 'f' then some (c.toNat - 'a'.toNat + 10)
  else if 'A' ≤ c && c ≤ 'F' then some (c.toNat - 'A'.toNat + 10)
  else none

end Bindery.Yaml
