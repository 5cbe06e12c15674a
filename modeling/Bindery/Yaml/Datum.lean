import Bindery.Value
import Bindery.Yaml.Script

/-!
# What documents hold

A document can hold more than values: scalars that say no text, and collections that lead back to
themselves. A `Datum` has both. Where it leads back, it gives the number of the part of the document
that it leads to, and the parts are kept beside it (`Parts`).

Such a document has a value if nothing in it is ragged and nothing leads round in a circle
(`Document.value?`): to lead back may also mean to lead to a part that holds no more than a value.
-/

namespace Bindery.Yaml

/-- The key of a mapping, or a member of a set. -/
inductive Label where
  | key (k : Key)
  | ragged (glyphs : List Glyph)
  deriving Repr

namespace Label

/-- Whether two labels are one. -/
def same : Label → Label → Bool
  | key a, key b => a == b
  | ragged a, ragged b => a == b
  | _, _ => false

instance : BEq Label := ⟨same⟩

def key? : Label → Option Key
  | key k => some k
  | ragged _ => none

/-- The label that is a text. -/
def text (s : String) : Label := key (.text s)

end Label

/-- What a document, or a part of it, holds. -/
inductive Datum where
  | scalar (s : Scalar)
  | ragged (glyphs : List Glyph)
  | tuple (items : List Datum)
  | list (items : List Datum)
  | set (items : List Label)
  | mapping (entries : List (Label × Datum))
  | back (part : Nat)
  deriving Repr

instance : Inhabited Datum := ⟨.scalar .null⟩

/-- The entries of a mapping in a document, in the order in which the keys came. -/
abbrev Fields := Ledger Label Datum

/-- The parts of a document to which others may lead back, by their numbers. -/
abbrev Parts := Ledger Nat Datum

namespace Datum

/-- The label that a datum is, unless it can change or holds something that can. -/
def label? : Datum → Option Label
  | scalar s => some (.key (.scalar s))
  | ragged glyphs => some (.ragged glyphs)
  | tuple _ | list _ | set _ | mapping _ | back _ => none

/-- Whether a datum counts as true. -/
def truthy : Datum → Bool
  | scalar s => (Value.scalar s).truthy
  | tuple items | list items => !items.isEmpty
  | set items => !items.isEmpty
  | mapping entries => !entries.isEmpty
  | ragged _ | back _ => true

mutual
/-- A value as a datum. -/
def ofValue : Value → Datum
  | .scalar s => scalar s
  | .tuple items => tuple (ofValues items)
  | .list items => list (ofValues items)
  | .set items => set (items.map .key)
  | .mapping entries => mapping (ofEntries entries)

/-- Values as data. -/
def ofValues : List Value → List Datum
  | [] => []
  | v :: vs => ofValue v :: ofValues vs

/-- The entries of a mapping as those of one in a document. -/
def ofEntries : List (Key × Value) → Fields
  | [] => []
  | (k, v) :: rest => (.key k, ofValue v) :: ofEntries rest
end

/-- A label as a datum. -/
def ofLabel : Label → Datum
  | .key k => ofValue k.value
  | .ragged glyphs => ragged glyphs

/-! ## Values -/

mutual
/-- The value of a datum, given those of the parts that it leads back to. -/
def valueWith (part : Nat → Option Value) : Datum → Option Value
  | scalar s => some (.scalar s)
  | ragged _ => none
  | tuple items => (valuesWith part items).map .tuple
  | list items => (valuesWith part items).map .list
  | set items => (items.mapM Label.key?).map .set
  | mapping entries => (entriesWith part entries).map .mapping
  | back number => part number

/-- The values of some data, if all have one. -/
def valuesWith (part : Nat → Option Value) : List Datum → Option (List Value)
  | [] => some []
  | datum :: rest =>
    match datum.valueWith part, valuesWith part rest with
    | some v, some vs => some (v :: vs)
    | _, _ => none

/-- The entries of a mapping with their values, if all have one. -/
def entriesWith (part : Nat → Option Value) : List (Label × Datum) → Option Mapping
  | [] => some []
  | (label, datum) :: rest =>
    match label.key?, datum.valueWith part, entriesWith part rest with
    | some k, some v, some entries => some ((k, v) :: entries)
    | _, _, _ => none
end

end Datum

/-- The value of a part, if it leads back fewer than `limit` times. -/
def Parts.value? (parts : Parts) : Nat → Nat → Option Value
  | 0, _ => none
  | limit + 1, number => (parts.get? number).bind fun datum => datum.valueWith (value? parts limit)

/-- A document: what it holds at the top, and its parts. -/
structure Document where
  top : Datum
  parts : Parts
  deriving Repr

/-- The value of a document. What leads back more often than there are parts leads round. -/
def Document.value? (d : Document) : Option Value :=
  d.top.valueWith (d.parts.value? d.parts.length)

end Bindery.Yaml
