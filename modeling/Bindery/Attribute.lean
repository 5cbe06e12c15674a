import Bindery.Memo

/-!
# Attributes computed once per owner

An attribute of an object is computed when it is first read and stored for that object from then on;
it cannot be assigned. One attribute may stand in several classes and under several names: it is the
same attribute everywhere, and all attributes share one memo table whose keys, the slots, tell them
apart.

Objects are the same by identity, or by name. An object that is the same by name is filed under the
name that it has when its value is stored, and is found again as long as it has that name: renaming
it hides its values and renaming it back shows them again.
-/

namespace Bindery

/-- An attribute: the name it goes by in messages, and what its documentation says. -/
structure Attribute where
  label : String
  doc : Option String
  deriving Repr

/-- What can be wrong with the use of an attribute. -/
inductive AttributeFault where
  | missing (shape name : String)
  | missingOnShape (shape name : String)
  | readOnly (label : String)
  deriving DecidableEq, Repr

/-- The name of a class in a message, which shows no more than its first fifty characters. -/
def shapeName (shape : String) : String :=
  String.ofList (shape.toList.take 50)

def AttributeFault.message : AttributeFault → String
  | missing shape name =>
    "'" ++ shapeName shape ++ "' object has no attribute '" ++ name ++ "'"
  | missingOnShape shape name =>
    "type object '" ++ shapeName shape ++ "' has no attribute '" ++ name ++ "'"
  | readOnly label => "can't set attribute " ++ Text.quoted label

/-! ## Classes and their attributes -/

/-- All attributes, and for each class which of them it has under which name. -/
structure Catalog where
  attributes : List Attribute
  shapes : Ledger String (Ledger String Nat)
  deriving Repr

namespace Catalog

/-- The attributes with another label for one of them. -/
def relabel (attributes : List Attribute) (entry : String × Nat) : List Attribute :=
  attributes.modify entry.2 fun a => { a with label := entry.1 }

/-- One more class. The attributes in its body are labelled by their names there, in order; those
that are attached later keep their labels. -/
def declare (shape : String) (body late : List (String × Nat)) (c : Catalog) : Catalog :=
  let own : Ledger String Nat := Ledger.ofEntries body
  { attributes := own.foldl relabel c.attributes
    shapes := c.shapes.put shape (late.foldl (fun all entry => all.put entry.1 entry.2) own) }

/-- The index of the attribute that a class has under a name. -/
def find? (shape name : String) (c : Catalog) : Option Nat :=
  (c.shapes.get? shape).bind (·.get? name)

/-- The attribute itself, as the class shows it. -/
def describe (shape name : String) (c : Catalog) : Except AttributeFault Attribute :=
  match (c.find? shape name).bind (c.attributes[·]?) with
  | some a => .ok a
  | none => .error (.missingOnShape shape name)

end Catalog

/-! ## Objects and slots -/

/-- What makes two objects the same. -/
inductive Sameness where
  | byIdentity
  | byName
  deriving DecidableEq, Repr

/-- An object as it is now. No two objects ever have the same serial number. -/
structure Thing where
  serial : Nat
  label : String
  shape : String
  name : String
  sameness : Sameness
  deriving DecidableEq, Repr

/-- A place for the value of the attribute with the given index on an object, which had the name
`filed` when the value was asked for. -/
structure Slot where
  index : Nat
  owner : Thing
  filed : String
  deriving DecidableEq, Repr

namespace Slot

/-- The slot to ask for now. -/
def of (index : Nat) (owner : Thing) : Slot := ⟨index, owner, owner.name⟩

/-- Whether two slots are one: those of one attribute on the same object. -/
def same (a b : Slot) : Bool :=
  a.index == b.index &&
    match a.owner.sameness, b.owner.sameness with
    | .byIdentity, .byIdentity => a.owner.serial == b.owner.serial
    | .byName, .byName => a.filed == b.filed && a.owner.name == b.owner.name
    | _, _ => false

instance : BEq Slot := ⟨same⟩

/-- An object in a message. -/
def display (slot : Slot) : List Char :=
  '<' :: slot.owner.label.toList ++ ['>']

/-- The slot after its owner got another name. -/
def rename (serial : Nat) (name : String) (slot : Slot) : Slot :=
  if slot.owner.serial = serial then { slot with owner := { slot.owner with name := name } }
  else slot

end Slot

/-! ## The gallery -/

/-- The objects there are, by their labels, and the values stored for them; `made` counts all
objects ever made. -/
structure Gallery (σ ν : Type) where
  catalog : Catalog
  sameness : Sameness
  things : Ledger String Thing
  made : Nat
  table : Memo.Table σ Slot ν

namespace Gallery

variable {σ ν ε : Type}

/-- No objects yet. -/
def empty (catalog : Catalog) (sameness : Sameness) (own : σ) : Gallery σ ν :=
  ⟨catalog, sameness, [], 0, .empty own⟩

/-- A new object; an older one with its label is no longer reached by it. -/
def create (label shape name : String) (g : Gallery σ ν) : Gallery σ ν :=
  { g with
    things := g.things.put label ⟨g.made, label, shape, name, g.sameness⟩
    made := g.made + 1 }

/-- Another name for an object, wherever it is an owner too. -/
def rename (label name : String) (g : Gallery σ ν) : Gallery σ ν :=
  match g.things.get? label with
  | none => g
  | some thing =>
    { g with
      things := g.things.put label { thing with name := name }
      table :=
        { g.table with
          entries := g.table.entries.map fun (slot, value) =>
            (slot.rename thing.serial name, value) } }

/-- How the value of an attribute is computed for an object. -/
abbrev Computation (σ ν ε : Type) := Nat → Thing → Recipe σ Slot ν ε

/-- What reading an attribute can end with besides a value. -/
inductive ReadError (ε : Type) where
  | fault (f : AttributeFault)
  | raised (error : ε)

/-- Reads an attribute of an object. -/
def read (compute : Computation σ ν ε) (tooDeep : ε) (depth : Nat) (thing : Thing)
    (name : String) (g : Gallery σ ν) : Except (ReadError ε) ν × Gallery σ ν :=
  match g.catalog.find? thing.shape name with
  | none => (.error (.fault (.missing thing.shape name)), g)
  | some index =>
    let recipe (slot : Slot) := compute slot.index slot.owner
    match Memo.get recipe tooDeep depth (.of index thing) g.table with
    | (.ok value, table) => (.ok value, { g with table := table })
    | (.error e, table) => (.error (.raised e), { g with table := table })

/-- Why an attribute of an object cannot be assigned. -/
def refusal (thing : Thing) (name : String) (g : Gallery σ ν) : AttributeFault :=
  match (g.catalog.find? thing.shape name).bind (g.catalog.attributes[·]?) with
  | none => .missing thing.shape name
  | some a => .readOnly a.label

end Gallery

end Bindery
