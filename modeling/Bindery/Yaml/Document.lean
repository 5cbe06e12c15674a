import Bindery.Text.Segments
import Bindery.Yaml.Binary
import Bindery.Yaml.Datum
import Bindery.Yaml.Node
import Bindery.Yaml.Timestamp

/-!
# What a document stands for

What the nodes of a document stand for, by their tags. Mappings may take over the entries of other
mappings, which give way to their own. A loop stands for a way back to the collection that it leads
to.

A document with several defects fails by the one that comes first when its nodes are taken level by
level from the top: a scalar counts where its collection is filled, and so does what is wrong with
the form of a collection, one level further down.

Nodes may be nested as deep as they like here: that the calls of a running program cannot is no
matter of the document.
-/

namespace Bindery.Yaml

/-- A defect and how far from the top it is. -/
structure Flaw where
  level : Nat
  defect : Defect
  deriving DecidableEq, Repr

/-- Something built from nodes, unless one of them is flawed. -/
abbrev Built (α : Type) := Except Flaw α

namespace Built

/-- Of two flaws the one that counts; `f` comes first among those of one level. -/
def worse (f g : Flaw) : Flaw :=
  if f.level ≤ g.level then f else g

/-- Two things, the first of which comes first. -/
def both {α β γ : Type} (combine : α → β → γ) : Built α → Built β → Built γ
  | .ok a, .ok b => .ok (combine a b)
  | .ok _, .error g => .error g
  | .error f, .ok _ => .error f
  | .error f, .error g => .error (worse f g)

end Built

/-! ## Scalars -/

/-- What a finished node is. -/
def Node.tag? : Node → Option Tag
  | .scalar tag _ | .sequence _ tag _ | .mapping _ tag _ => some tag
  | .loop .. => none

/-- What a node says that should be a scalar. A mapping may have a scalar under its value key. -/
def Node.script? : Node → Option Script
  | .scalar _ script => some script
  | .mapping _ _ entries => valueScript entries
  | .sequence .. | .loop .. => none
where
  /-- What is said under the value key of a mapping. -/
  valueScript : List (Node × Node) → Option Script
    | [] => none
    | (k, v) :: rest => if k.tag? = some .value then v.script? else valueScript rest

/-- The truth value of a word in any case. -/
def readBool (text : String) : Except Defect Scalar :=
  let word := Text.lower text.toList
  if ["yes", "true", "on"].any (·.toList == word) then .ok (.bool true)
  else if ["no", "false", "off"].any (·.toList == word) then .ok (.bool false)
  else .error (.mishap .unknownTruth)

/-- A text without underscores. -/
def withoutUnderscores (text : String) : List Char :=
  text.toList.filter (· ≠ '_')

/-- The sum of parts of which each counts sixty times the next. -/
def sixtyfold (parts : List Int) : Int :=
  parts.foldl (fun n part => n * 60 + part) 0

/-- The whole number that a text without sign and underscores writes: in base two or sixteen behind
a letter, in base eight behind a zero, in parts of sixty with colons, and in base ten otherwise. -/
def readNatural (cs : List Char) : Option Int :=
  match cs with
  | ['0'] => some 0
  | '0' :: 'b' :: digits => wholeNumber? 2 digits
  | '0' :: 'x' :: digits => wholeNumber? 16 digits
  | '0' :: _ => wholeNumber? 8 cs
  | _ =>
    if cs.contains ':' then
      ((Text.segments ':' cs).mapM (wholeNumber? 10)).map sixtyfold
    else wholeNumber? 10 cs

/-- The number behind a sign. -/
def readInt (text : String) : Except Defect Scalar :=
  match withoutUnderscores text with
  | [] => .error (.mishap .emptyNumber)
  | c :: cs =>
    let digits := if Tag.isSign c then cs else c :: cs
    if digits.isEmpty then .error (.mishap .emptyNumber)
    else
      match readNatural digits with
      | none => .error (.mishap .badValue)
      | some n => .ok (.int (if c = '-' then -n else n))

/-- The sum of parts of which each counts sixty times the next, from the last part on. -/
def sixtyfoldFraction (parts : List Binary64) : Binary64 :=
  let step (sum : Binary64 × Nat) (part : Binary64) : Binary64 × Nat :=
    (sum.1.add (part.mul (.ofInt sum.2)), sum.2 * 60)
  (parts.reverse.foldl step (.zero false, 1)).1

/-- The fraction behind a sign. -/
def readFloat (text : String) : Except Defect Scalar :=
  match Text.lower (withoutUnderscores text) with
  | [] => .error (.mishap .emptyNumber)
  | c :: cs =>
    let digits := if Tag.isSign c then cs else c :: cs
    let signed (x : Binary64) : Scalar := .float (if c = '-' then x.neg else x)
    if digits = ".inf".toList then .ok (signed (.infinity false))
    else if digits = ".nan".toList then .ok (.float .nan)
    else if digits.contains ':' then
      match (Text.segments ':' digits).mapM Binary64.ofText? with
      | none => .error (.mishap .badValue)
      | some parts => .ok (signed (sixtyfoldFraction parts))
    else
      match Binary64.ofText? digits with
      | none => .error (.mishap .badValue)
      | some x => .ok (signed x)

/-- What a text stands for by its tag. -/
def readText (tag : Tag) (text : String) : Except Defect Scalar :=
  match tag with
  | .null => .ok .null
  | .bool => readBool text
  | .int => readInt text
  | .float => readFloat text
  | .binary =>
    match bytesOf? text.toList with
    | some bs => .ok (.bytes bs)
    | none => .error .malformed
  | .timestamp => readTimestamp text
  | .str => .ok (.text text)
  | _ => .error .malformed

/-- What a row that is no text stands for by its tag: it is no word, no number and no date. -/
def readRagged (tag : Tag) (glyphs : List Glyph) : Except Defect Datum :=
  match tag with
  | .null => .ok (.scalar .null)
  | .bool => .error (.mishap .unknownTruth)
  | .int | .float => .error (.mishap .badValue)
  | .timestamp => .error (.mishap .notADate)
  | .str => .ok (.ragged glyphs)
  | _ => .error .malformed

/-- What a scalar stands for by its tag. -/
def readScript (tag : Tag) : Script → Except Defect Datum
  | .text s => (readText tag s).map .scalar
  | .ragged glyphs => readRagged tag glyphs

/-- Whether a tag is one of scalars. -/
def Tag.isOfScalar : Tag → Bool
  | .null | .bool | .int | .float | .binary | .timestamp | .str => true
  | _ => false

/-- What a node stands for by a tag of scalars. -/
def scalarDatum (level : Nat) (tag : Tag) (node : Node) : Built Datum :=
  match node.script?, node with
  | none, _ => .error ⟨level, .malformed⟩
  | some script, .mapping .. =>
    if tag = .timestamp then .error ⟨level, .mishap .mappingForDate⟩
    else (readScript tag script).mapError (⟨level, ·⟩)
  | some script, _ => (readScript tag script).mapError (⟨level, ·⟩)

/-! ## Collections -/

/-- Whether a tag is one of collections. -/
def Tag.isOfCollection : Tag → Bool
  | .seq | .map | .set | .omap | .pairs => true
  | _ => false

/-- Whether a node stands for a collection, which cannot be a key, whatever is in it. -/
def Node.isCollection (node : Node) : Bool :=
  match node.tag? with
  | some tag => tag.isOfCollection
  | none => true

/-- The key that a node stands for, given what it is. -/
def builtLabel (level : Nat) (node : Node) (datum : Built Datum) : Built Label :=
  if node.isCollection then .error ⟨level, .malformed⟩
  else
    match datum with
    | .error f => .error f
    | .ok d =>
      match d.label? with
      | some label => .ok label
      | none => .error ⟨level, .malformed⟩

/-- Things of a list, the first of which come first. -/
def allBuilt {α : Type} : List (Built α) → Built (List α)
  | [] => .ok []
  | b :: rest => Built.both List.cons b (allBuilt rest)

/-- Whether a key is the one under which a mapping takes over entries. -/
def isMerge (key : Node) : Bool :=
  key.tag? == some .merge

/-- What is wrong with a node that does not have the form of its tag. -/
def misfit (level : Nat) (tag : Tag) : Built Datum :=
  .error ⟨if tag.isOfCollection then level + 1 else level, .malformed⟩

/-- What is known of the collections that loops lead to. A collection that is not built where it
stands is built where a loop leads to it, so its flaws count there. -/
structure Ways where
  flaw? : Nat → Option Flaw
  /-- The entries that a mapping has, taken over or its own. -/
  entries : Nat → Except Defect (List (Built (Label × Datum)))

section

variable (ways : Ways)

/-- The way back that a loop stands for. -/
def wayBack (level number : Nat) : Built Datum :=
  match ways.flaw? number with
  | some f => .error { f with level := level + f.level }
  | none => .ok (.back number)

mutual
/-- What a node at a level stands for. -/
def build (level : Nat) : Node → Built Datum
  | .loop number _ => wayBack ways level number
  | .scalar tag script =>
    if tag.isOfScalar then (readScript tag script).mapError (⟨level, ·⟩) else misfit level tag
  | .sequence _ tag items =>
    match tag with
    | .seq => (buildItems (level + 1) items).map .list
    | .omap | .pairs => (buildPairs (level + 1) items).map .list
    | _ => misfit level tag
  | .mapping number tag entries =>
    if tag.isOfScalar then scalarDatum level tag (.mapping number tag entries)
    else
      match tag with
      | .map | .set =>
        -- entries are taken over before anything is built of any of them
        match taken (level + 1) entries with
        | .error defect => .error ⟨level + 1, defect⟩
        | .ok others =>
          match allBuilt (others ++ own (level + 1) entries) with
          | .error f => .error f
          | .ok all =>
            let m : Fields := Ledger.ofEntries all
            .ok (if tag = .map then .mapping m else .set (m.map Prod.fst))
      | _ => misfit level tag

/-- What the items of a sequence stand for. -/
def buildItems (level : Nat) : List Node → Built (List Datum)
  | [] => .ok []
  | item :: rest => Built.both List.cons (build level item) (buildItems level rest)

/-- The pairs that a sequence of mappings of one entry writes. -/
def buildPairs (level : Nat) : List Node → Built (List Datum)
  | [] => .ok []
  | .mapping _ _ [(key, value)] :: rest =>
    let pair := Built.both (fun k v => Datum.tuple [k, v]) (build level key) (build level value)
    Built.both List.cons pair (buildPairs level rest)
  | .loop number _ :: rest =>
    match ways.entries number with
    | .ok [entry] =>
      let pair := entry.map fun (label, value) => Datum.tuple [.ofLabel label, value]
      Built.both List.cons pair (buildPairs level rest)
    | _ => .error ⟨level, .malformed⟩
  | _ :: _ => .error ⟨level, .malformed⟩

/-- The entries of a mapping itself. The value key has no meaning of its own there. -/
def own (level : Nat) : List (Node × Node) → List (Built (Label × Datum))
  | [] => []
  | (key, value) :: rest =>
    if isMerge key then own level rest
    else
      let asText := key.tag? = some .value
      let name := if asText then scalarDatum level .str key else build level key
      Built.both Prod.mk (builtLabel level key name) (build level value) :: own level rest

/-- The entries that a mapping takes over from others, which come before its own. -/
def taken (level : Nat) : List (Node × Node) → Except Defect (List (Built (Label × Datum)))
  | [] => .ok []
  | (key, value) :: rest =>
    if isMerge key then
      match takenOver level value, taken level rest with
      | .ok first, .ok others => .ok (first ++ others)
      | .error e, _ => .error e
      | .ok _, .error e => .error e
    else taken level rest

/-- The entries that a node gives to a mapping which takes it over: a mapping those that it has, a
list of mappings those of each, the first having the last word. -/
def takenOver (level : Nat) : Node → Except Defect (List (Built (Label × Datum)))
  | .mapping _ _ entries =>
    match taken level entries with
    | .ok others => .ok (others ++ own level entries)
    | .error e => .error e
  | .sequence _ _ items => takenFrom level items
  | .loop number true => ways.entries number
  | .loop _ false | .scalar .. => .error .malformed

/-- The entries that the mappings of a list give, those of the last first. -/
def takenFrom (level : Nat) : List Node → Except Defect (List (Built (Label × Datum)))
  | [] => .ok []
  | .mapping _ _ entries :: rest =>
    match taken level entries, takenFrom level rest with
    | .ok others, .ok later => .ok (later ++ (others ++ own level entries))
    | .error e, _ => .error e
    | .ok _, .error e => .error e
  | .loop number true :: rest =>
    match ways.entries number, takenFrom level rest with
    | .ok entries, .ok later => .ok (later ++ entries)
    | .error e, _ => .error e
    | .ok _, .error e => .error e
  | _ :: _ => .error .malformed
end

end

/-! ## Collections from inside -/

/-- A node as it is seen from inside of the collection that it belongs to. -/
def fromInside (level : Nat) : Node → Built Datum
  | .scalar tag script =>
    if tag.isOfScalar then (readScript tag script).mapError (⟨level, ·⟩) else misfit level tag
  | .sequence number .. | .mapping number .. | .loop number _ => .ok (.back number)

/-- The entries of a mapping itself, seen from inside of it. -/
def ownFromInside : List (Node × Node) → List (Built (Label × Datum))
  | [] => []
  | (key, value) :: rest =>
    if isMerge key then ownFromInside rest
    else
      let asText := key.tag? = some .value
      let name := if asText then scalarDatum 0 .str key else fromInside 0 key
      Built.both Prod.mk (builtLabel 0 key name) (fromInside 0 value) :: ownFromInside rest

namespace Graph

variable (g : Graph)

/-- The entries of the mapping with a number, seen from inside of it. It may take over others that
take it over in turn: what leads round gives nothing new. -/
def entries : Nat → Nat → Except Defect (List (Built (Label × Datum)))
  | limit, number =>
    match g.collections.get? number with
    | some (.mapping _ _ inner) =>
      match limit with
      | 0 => .ok (ownFromInside inner)
      | limit + 1 =>
        match taken ⟨fun _ => none, entries limit⟩ 0 inner with
        | .ok others => .ok (others ++ ownFromInside inner)
        | .error e => .error e
    | _ => .error .malformed

/-- The collections, each built by itself. -/
def builtAlone : Ledger Nat (Built Datum) :=
  let ways : Ways := ⟨fun _ => none, g.entries g.collections.length⟩
  g.collections.map fun (number, node) => (number, build ways 0 node)

/-- The document that the nodes stand for. -/
def document : Built Document :=
  let alone := g.builtAlone
  let flaw? (number : Nat) : Option Flaw :=
    match alone.get? number with
    | some (.error f) => some f
    | _ => none
  match build ⟨flaw?, g.entries g.collections.length⟩ 0 g.top with
  | .error f => .error f
  | .ok top => .ok ⟨top, alone.filterMap fun (number, part) => part.toOption.map (number, ·)⟩

end Graph

/-! ## Documents -/

/-- The one document that a text holds, as far as the text can be read; nothing written is no
value. -/
def document (source : Source) : Except Defect Document :=
  match Graph.ofTokens (.ofSource source) with
  | .error defect => .error defect
  | .ok none => .ok ⟨.scalar .null, []⟩
  | .ok (some g) => g.document.mapError Flaw.defect

end Bindery.Yaml
