import Bindery.Memo
import Bindery.Naming

/-!
# Names derived from a layout

The names that a generator asks for over and over: the binding class of a layout and the field of a
view. Each is computed once, so a class keeps the suffix that was in force when it was first asked
for, whatever happens to the suffix later.
-/

namespace Bindery

/-- The suffix of the classes, and the names given out so far. -/
structure LayoutNames where
  suffix : String
  classes : Memo.Table Unit String String
  fields : Memo.Table Unit String String

namespace LayoutNames

open Bindery.Memo

/-- The suffix of binding classes, unless another is given. -/
def defaultSuffix : String := "Binding"

/-- The subpackage of the generated classes. -/
def subpackage : String := "databinding"

/-- No name given out yet. -/
def fresh (suffix : String) : LayoutNames :=
  ⟨suffix, .empty (), .empty ()⟩

/-- Another suffix for the classes that are still to come. -/
def setSuffix (suffix : String) (names : LayoutNames) : LayoutNames :=
  { names with suffix := suffix }

/-- The field that a view is bound to. -/
def fieldFor (view : String) : Except MalformedReference String :=
  (Naming.resourceId view).map Naming.variableName

/-- The record of a view that gets its field. -/
def boundRecord (view field : String) : Record :=
  ⟨.layout, "View " ++ view ++ " bound to field " ++ field⟩

/-- Computes the class of a layout. -/
def computeClass (suffix : String) : Request Unit String String Empty := fun layout t =>
  (.ok (Naming.className layout ++ suffix), t)

/-- Computes the field of a view. -/
def computeField : Request Unit String String MalformedReference := fun view t =>
  match fieldFor view with
  | .ok field => (.ok field, t.log (.noted (boundRecord view field)))
  | .error e => (.error e, t)

/-- The binding class of a layout. -/
def className (layout : String) (names : LayoutNames) : String × LayoutNames :=
  match fetch (computeClass names.suffix) layout names.classes with
  | (.ok name, classes) => (name, { names with classes := classes })

/-- The field of a view. -/
def fieldName (view : String) (names : LayoutNames) :
    Except MalformedReference String × LayoutNames :=
  let (outcome, fields) := fetch computeField view names.fields
  (outcome, { names with fields := fields })

/-- A class under a package, if there is one. -/
def qualify (package name : String) : String :=
  if package.isEmpty then name else package ++ "." ++ subpackage ++ "." ++ name

/-- Under one package different classes stay different. -/
theorem qualify_injective {package a b : String} (h : qualify package a = qualify package b) :
    a = b := by
  unfold qualify at h
  split at h
  · exact h
  · rwa [String.append_right_inj] at h

/-- The binding class of a layout under a package. -/
def qualifiedName (package layout : String) (names : LayoutNames) : String × LayoutNames :=
  let (name, names) := names.className layout
  (qualify package name, names)

/-- The records that one request wrote, given the names before it. -/
def recordsSince (before after : LayoutNames) : List Record :=
  let display (name : String) := (Text.quoted name).toList
  (after.classes.journal display).drop (before.classes.journal display).length ++
    (after.fields.journal display).drop (before.fields.journal display).length

end LayoutNames

end Bindery
