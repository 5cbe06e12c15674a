/-!
# Defects of documents

What keeps a document from being a value. Most defects are of one kind, `malformed`: the text does
not follow the rules, or says something that has no meaning. The others are mishaps: bytes that are
no text, and a single scalar that was declared to be, or looks like, something that it is not.
-/

namespace Bindery.Yaml

/-- A defect that the rules of a document do not speak of. -/
inductive Mishap where
  /-- The bytes of the file are no text, as far as they were read. -/
  | notUnicode
  /-- An escape asks for a code point beyond the last one. -/
  | noSuchCharacter
  /-- An escape asks for a code that does not fit into a word. -/
  | hugeCharacter
  /-- A number is not written as one, or a date is not on the calendar. -/
  | badValue
  /-- A number without any character. -/
  | emptyNumber
  /-- A truth value that is none of the known words. -/
  | unknownTruth
  /-- A date that is not written as one. -/
  | notADate
  /-- A mapping in place of a date. -/
  | mappingForDate
  deriving DecidableEq, Repr

/-- A defect of a document. -/
inductive Defect where
  /-- The text breaks the rules. -/
  | malformed
  | mishap (m : Mishap)
  deriving DecidableEq, Repr

end Bindery.Yaml
