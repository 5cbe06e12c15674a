/-!
# Bytes written in letters

Four letters of an alphabet of sixty-four write three bytes. Characters outside of the alphabet do
not count. The equality signs that fill up the last four end the reading as soon as they make them
full.
-/

namespace Bindery.Yaml

/-- The value of a letter. -/
def letterValue? (c : Char) : Option Nat :=
  if 'A' ≤ c && c ≤ 'Z' then some (c.toNat - 'A'.toNat)
  else if 'a' ≤ c && c ≤ 'z' then some (c.toNat - 'a'.toNat + 26)
  else if c.isDigit then some (c.toNat - '0'.toNat + 52)
  else if c = '+' then some 62
  else if c = '/' then some 63
  else none

/-- Reads letters; `place` is how many of the current four are read, `carry` the bits of the last
that are not written yet, and `fill` how many equality signs have followed it. Four that are not
full at the end write nothing. -/
def readLetters (place carry fill : Nat) : List Char → Option (List UInt8)
  | [] => if place = 0 then some [] else none
  | '=' :: cs =>
    if 2 ≤ place then
      if 4 ≤ place + (fill + 1) then some [] else readLetters place carry (fill + 1) cs
    else readLetters place carry fill cs
  | c :: cs =>
    match letterValue? c with
    | none => readLetters place carry fill cs
    | some v =>
      match place with
      | 0 => readLetters 1 v 0 cs
      | 1 => (readLetters 2 (v % 16) 0 cs).map (UInt8.ofNat (carry * 4 + v / 16) :: ·)
      | 2 => (readLetters 3 (v % 4) 0 cs).map (UInt8.ofNat (carry * 16 + v / 4) :: ·)
      | _ => (readLetters 0 0 0 cs).map (UInt8.ofNat (carry * 64 + v) :: ·)

/-- The bytes that a text writes, if it is ASCII and its last four letters are full. -/
def bytesOf? (text : List Char) : Option (List UInt8) :=
  if text.all fun c => c.toNat < 128 then readLetters 0 0 0 text else none

end Bindery.Yaml
