import Bindery.Yaml.Script

/-!
# Tokens of a document

A document as a sequence of tokens. Where a collection of the block style begins and ends is a token
of its own, although it shows only in the indentation.
-/

namespace Bindery.Yaml

/-- What a directive says. -/
inductive Directive where
  | version (major : Nat)
  | tagHandle (handle address : String)
  | other
  deriving DecidableEq, Repr

/-- A token. -/
inductive Token where
  | directive (d : Directive)
  | documentStart
  | documentEnd
  | streamEnd
  | sequenceStart
  | mappingStart
  | blockEnd
  | flowSequenceStart
  | flowSequenceEnd
  | flowMappingStart
  | flowMappingEnd
  | blockEntry
  | flowEntry
  | key
  | value
  | reference (name : String)
  | anchor (name : String)
  | tag (handle : Option String) (suffix : String)
  | scalar (script : Script) (isPlain : Bool)
  deriving DecidableEq, Repr

end Bindery.Yaml
