/-!
# Texts as bytes

Files hold UTF-8. Decoding is strict: overlong forms, surrogates and numbers beyond the last code
point are no text at all. Where bytes come in pieces, the end of one may cut off a character
(`splitCutOff`).
-/

namespace Bindery.Text

/-- The UTF-8 bytes of a text. -/
def encode (s : String) : List UInt8 :=
  s.toUTF8.data.toList

/-- The text that the bytes encode, if they encode one. -/
def decode? (bytes : List UInt8) : Option String :=
  String.fromUTF8? ⟨bytes.toArray⟩

/-- Every end of line as one line feed: a carriage return, alone or before a line feed, is one. -/
def unixLines : List Char → List Char
  | [] => []
  | '\r' :: '\n' :: cs => '\n' :: unixLines cs
  | '\r' :: cs => '\n' :: unixLines cs
  | c :: cs => c :: unixLines cs

/-! ## Characters that are cut off -/

/-- Whether a byte goes on with a character. -/
def isContinuation (b : UInt8) : Bool :=
  0x80 ≤ b && b ≤ 0xbf

/-- Whether a byte goes on with a character of three or four bytes behind its first one. Some would
make a longer form than needed, a surrogate, or a number beyond the last code point. -/
def isSecond (first b : UInt8) : Bool :=
  isContinuation b && !(first == 0xe0 && b < 0xa0) && !(first == 0xed && 0xa0 ≤ b) &&
    !(first == 0xf0 && b < 0x90) && !(first == 0xf4 && 0x90 ≤ b)

/-- Whether bytes start a character, but are not all of it. -/
def isCutOff : List UInt8 → Bool
  | [a] => 0xc2 ≤ a && a ≤ 0xf4
  | [a, b] => 0xe0 ≤ a && a ≤ 0xf4 && isSecond a b
  | [a, b, c] => 0xf0 ≤ a && a ≤ 0xf4 && isSecond a b && isContinuation c
  | _ => false

/-- Bytes without the character that is cut off at their end, if there is one, and what there is of
it. -/
def splitCutOff (bytes : List UInt8) : List UInt8 × List UInt8 :=
  match [1, 2, 3].find? fun n => isCutOff (bytes.drop (bytes.length - n)) with
  | some n => bytes.splitAt (bytes.length - n)
  | none => (bytes, [])

end Bindery.Text
