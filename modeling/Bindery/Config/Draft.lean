import Bindery.Config.Breakdown
import Bindery.Yaml.Datum

/-!
# Drafts of a configuration

A file gives a draft: the mapping at the top of its document, with the parts to which others lead
back. What the environment gives is laid over it as one mapping is laid over another: `lay` is
`merge` for what documents hold.

When references are then replaced in the texts of a draft, at any depth of lists and mappings, this
breaks off where the lists and mappings lead round in a circle, and at a reference to what can be
the name of no variable (`Draft.obstacle?`). How deep the calls of a running program can be nested is
left out of account: only what is endless breaks off.
-/

namespace Bindery.Config

open Yaml

/-- What a file gives: a mapping, and the parts of the document to which others lead back. -/
structure Draft where
  entries : Fields
  parts : Parts
  deriving Repr

namespace Draft

/-- The draft of a file that gives nothing. -/
def empty : Draft := ⟨[], []⟩

/-- The draft as a mapping of values, if it is one. -/
def value? (d : Draft) : Option Mapping :=
  Datum.entriesWith (d.parts.value? d.parts.length) d.entries

/-! ## Something laid over a draft -/

section

variable (parts : Parts)

/-- The entries of a part, if it is a mapping and leads back fewer than `limit` times. -/
def fieldsOfPart : Nat → Nat → Option Fields
  | 0, _ => none
  | limit + 1, number =>
    match parts.get? number with
    | some (.mapping entries) => some entries
    | some (.back next) => fieldsOfPart limit next
    | _ => none

/-- The entries of a mapping, also of one that is led back to. -/
def fields? : Datum → Option Fields
  | .mapping entries => some entries
  | .back number => fieldsOfPart parts parts.length number
  | _ => none

mutual
/-- What is laid over something else. -/
def overlay (below : Datum) : Datum → Datum
  | .mapping entries =>
    match fields? parts below with
    | some base => .mapping (lay base entries)
    | none => .mapping entries
  | above => above

/-- The entries of a mapping laid over another, one after the other. -/
def lay (base : Fields) : List (Label × Datum) → Fields
  | [] => base
  | (label, datum) :: rest =>
    let laid :=
      match base.get? label with
      | some below => overlay below datum
      | none => datum
    lay (base.put label laid) rest
end

end

/-- A draft laid over nothing. -/
def overNothing (d : Draft) : Draft :=
  { d with entries := lay d.parts [] d.entries }

/-- A draft with a mapping of values laid over it. -/
def under (d : Draft) (overrides : Mapping) : Draft :=
  { d with entries := lay d.parts d.entries (Datum.ofEntries overrides) }

/-! ## What stands in the way of replacing references -/

/-- The names of the variables that a row refers to; `open?` holds the name read so far, in reverse,
inside of a reference. -/
def namesFrom : Option (List Glyph) → List Glyph → List (List Glyph)
  | _, [] => []
  | none, .char '$' :: .char '\x7b' :: rest => namesFrom (some []) rest
  | none, _ :: rest => namesFrom none rest
  | some [], .char '\x7d' :: rest => namesFrom none rest
  | some (n :: name), .char '\x7d' :: rest => (n :: name).reverse :: namesFrom none rest
  | some name, g :: rest => namesFrom (some (g :: name)) rest

/-- Whether every name that a row refers to can be that of a variable. -/
def namesVariables (glyphs : List Glyph) : Bool :=
  (namesFrom none glyphs).all fun name => name.all Glyph.canBeNamed

mutual
/-- What is met first in a datum, given what is met in the parts that it leads back to. Tuples and
sets are left as they are. -/
def obstacleIn (part : Nat → Option Obstacle) : Datum → Option Obstacle
  | .scalar _ | .tuple _ | .set _ => none
  | .ragged glyphs => if namesVariables glyphs then none else some .unnamable
  | .list items => obstacleInItems part items
  | .mapping entries => obstacleInEntries part entries
  | .back number => part number

/-- What is met first in the items of a list. -/
def obstacleInItems (part : Nat → Option Obstacle) : List Datum → Option Obstacle
  | [] => none
  | datum :: rest => (obstacleIn part datum).or (obstacleInItems part rest)

/-- What is met first in the entries of a mapping. -/
def obstacleInEntries (part : Nat → Option Obstacle) : List (Label × Datum) → Option Obstacle
  | [] => none
  | (_, datum) :: rest => (obstacleIn part datum).or (obstacleInEntries part rest)
end

/-- What is met first in a part. It is endless if it leads back too often. -/
def obstacleInPart (parts : Parts) : Nat → Nat → Option Obstacle
  | 0, _ => some .endless
  | limit + 1, number =>
    match parts.get? number with
    | some datum => obstacleIn (obstacleInPart parts limit) datum
    | none => some .endless

/-- What is met first when the references in a draft are replaced. What leads back more often than
there are parts leads round in a circle. -/
def obstacle? (d : Draft) : Option Obstacle :=
  obstacleInEntries (obstacleInPart d.parts d.parts.length) d.entries

end Draft

end Bindery.Config
