/-!
# What scalars say

An escape in a quoted scalar may ask for half of a surrogate pair, which is no character. A scalar
that holds such a half says something that is no text: it is kept as the row of what it is made of
(`Script.ragged`). Two halves stay two, also where they would make a pair.
-/

namespace Bindery.Yaml

/-- A character, or half of a surrogate pair, by its place among the halves. -/
inductive Glyph where
  | char (c : Char)
  | half (place : Fin 2048)
  deriving DecidableEq, Repr

namespace Glyph

/-- The code of the first half of a surrogate pair. -/
def firstHalf : Nat := 0xd800

/-- What stands for a code point: no character for the halves of surrogate pairs. -/
def ofCode (code : Nat) : Glyph :=
  if h : code - firstHalf < 2048 ∧ firstHalf ≤ code then half ⟨code - firstHalf, h.1⟩
  else char (Char.ofNat code)

def char? : Glyph → Option Char
  | char c => some c
  | half _ => none

/-- Whether the name of a variable may hold it: of the halves only those do that stand for a byte
which is no text. -/
def canBeNamed : Glyph → Bool
  | char _ => true
  | half place => 0x480 ≤ place.val && place.val < 0x500

end Glyph

/-- What a scalar says: a text, or a row that is none. -/
inductive Script where
  | text (s : String)
  | ragged (glyphs : List Glyph)
  deriving DecidableEq, Repr

/-- What a row of glyphs says. -/
def Script.ofGlyphs (glyphs : List Glyph) : Script :=
  match glyphs.mapM Glyph.char? with
  | some cs => .text (String.ofList cs)
  | none => .ragged glyphs

end Bindery.Yaml
