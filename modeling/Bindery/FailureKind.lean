/-!
# Kinds of failure

Every failure of the library's own belongs to the kind `library`, so that a caller can catch them
all at once. A malformed reference is besides an invalid value. The other kinds are those of what
breaks off without the library having seen to it.
-/

namespace Bindery

/-- The kinds of failure that a caller can tell apart. -/
inductive FailureKind where
  | library
  | configuration
  | malformedReference
  | processing
  | invalidValue
  | wrongType
  | missingKey
  | missingAttribute
  | outOfRange
  | overflow
  | notDecodable
  | notEncodable
  | tooDeep
  deriving DecidableEq, Repr

namespace FailureKind

def name : FailureKind → String
  | library => "BindgenError"
  | configuration => "ConfigError"
  | malformedReference => "MalformedIdentifierError"
  | processing => "ProcessingError"
  | invalidValue => "ValueError"
  | wrongType => "TypeError"
  | missingKey => "KeyError"
  | missingAttribute => "AttributeError"
  | outOfRange => "IndexError"
  | overflow => "OverflowError"
  | notDecodable => "UnicodeDecodeError"
  | notEncodable => "UnicodeEncodeError"
  | tooDeep => "RecursionError"

/-- The library's own kinds and what they are cases of, by their names in alphabetical order. -/
def family : List FailureKind :=
  [library, configuration, malformedReference, processing, invalidValue]

/-- The kinds that a kind is a case of, itself among them. -/
def isA : FailureKind → List FailureKind
  | library => [library]
  | configuration => [library, configuration]
  | malformedReference => [library, malformedReference, invalidValue]
  | processing => [library, processing]
  | notDecodable => [notDecodable, invalidValue]
  | notEncodable => [notEncodable, invalidValue]
  | kind => [kind]

end FailureKind

end Bindery
