import Bindery.Text.Printable

/-!
# Quoted texts

How a text or a sequence of bytes is shown inside a message: between quotes, with what cannot be
printed written as an escape. Single quotes are used unless the text holds one and holds no double
quote, so that at most one kind of quote is ever escaped.
-/

namespace Bindery.Text

/-- The lower-case hexadecimal digit of `d < 16`. -/
def hexDigit (d : Nat) : Char :=
  if d < 10 then Char.ofNat (48 + d) else Char.ofNat (87 + d)

/-- The last `width` hexadecimal digits of `n`, the most significant first. -/
def hexDigits : Nat → Nat → List Char
  | 0, _ => []
  | width + 1, n => hexDigits width (n / 16) ++ [hexDigit (n % 16)]

/-- A code point as an escape of the shortest of the three widths that holds it. -/
def escapeCode (code : Nat) : List Char :=
  if code < 0x100 then '\\' :: 'x' :: hexDigits 2 code
  else if code < 0x10000 then '\\' :: 'u' :: hexDigits 4 code
  else '\\' :: 'U' :: hexDigits 8 code

/-- The quote to put around a text: the double one only if that saves an escape. -/
def quoteFor (cs : List Char) : Char :=
  if cs.contains '\'' && !cs.contains '"' then '"' else '\''

/-- One character of a quoted text; `shown` says which characters may stand for themselves. -/
def quoteChar (shown : Char → Bool) (quote c : Char) : List Char :=
  if c = quote || c = '\\' then ['\\', c]
  else if c = '\t' then ['\\', 't']
  else if c = '\n' then ['\\', 'n']
  else if c = '\r' then ['\\', 'r']
  else if shown c then [c]
  else escapeCode c.toNat

/-- The characters of a text between quotes. -/
def quoteWith (shown : Char → Bool) (cs : List Char) : List Char :=
  let quote := quoteFor cs
  quote :: cs.flatMap (quoteChar shown quote) ++ [quote]

/-- A text as it is shown in a message. -/
def quoted (s : String) : String :=
  String.ofList (quoteWith isPrintable s.toList)

/-- Bytes as they are shown in a message: ASCII where it can be printed, else the byte's number. -/
def quotedBytes (bytes : List UInt8) : String :=
  let isShown (c : Char) := 0x20 ≤ c.toNat && c.toNat < 0x7f
  String.ofList ('b' :: quoteWith isShown (bytes.map fun b => Char.ofNat b.toNat))

end Bindery.Text
