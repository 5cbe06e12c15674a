import Bindery.FailureKind
import Bindery.Yaml.Defect

/-!
# Breakdowns

Reading and expanding a configuration may break off in ways that no failure of the configuration
tells of: whoever loads it sees them as they are.
-/

namespace Bindery.Config

/-- What stands in the way of replacing references. -/
inductive Obstacle where
  /-- Lists and mappings lead round in a circle. -/
  | endless
  /-- A reference names what can be the name of no variable. -/
  | unnamable
  deriving DecidableEq, Repr

/-- Why the loading of a configuration breaks off with no failure of its own to tell of it. -/
inductive Breakdown where
  /-- The path has a null character. -/
  | nullInPath
  /-- The bytes of the file are no text, or a scalar of the document is not what it should be. -/
  | document (m : Yaml.Mishap)
  /-- A variable addresses a setting in a section that was given as a text. -/
  | sectionClash
  /-- A reference cannot be replaced. -/
  | obstacle (o : Obstacle)
  deriving DecidableEq, Repr

namespace Breakdown

/-- The kind of failure that a mishap shows itself as. -/
def kindOfMishap : Yaml.Mishap → FailureKind
  | .notUnicode => .notDecodable
  | .noSuchCharacter => .invalidValue
  | .hugeCharacter => .overflow
  | .badValue => .invalidValue
  | .emptyNumber => .outOfRange
  | .unknownTruth => .missingKey
  | .notADate => .missingAttribute
  | .mappingForDate => .wrongType

/-- The kind of failure that a breakdown shows itself as. -/
def kind : Breakdown → FailureKind
  | nullInPath => .invalidValue
  | document m => kindOfMishap m
  | sectionClash => .wrongType
  | obstacle .endless => .tooDeep
  | obstacle .unnamable => .notEncodable

end Breakdown

end Bindery.Config
