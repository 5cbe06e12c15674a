import Bindery.Text.Segments

/-!
# Paths

A path has an anchor and parts. Two slashes at its start are an anchor of their own, more than two
are one; empty parts and single dots are dropped when a path is read, so `a//./b` and `a/b` are one
path. A double dot is kept: what it leads to depends on the files.

Joining puts the parts of a text behind those of a path, unless the text has an anchor, which starts
over.
-/

namespace Bindery

open Bindery.Text

/-- Where a path starts. -/
inductive Anchor where
  | here
  | top
  | doubleTop
  deriving DecidableEq, Repr

/-- A path. No part is empty, a single dot, or has a slash in it. -/
structure Path where
  anchor : Anchor
  parts : List String
  deriving DecidableEq, Repr

namespace Path

/-- What separates the parts in a text. -/
def separator : Char := '/'

/-- Whether a piece of a text is a part of the path that it writes. -/
def counts (piece : List Char) : Bool :=
  piece ≠ [] && piece ≠ ['.']

/-- The parts that a text writes. -/
def partsOf (text : List Char) : List String :=
  ((segments separator text).filter counts).map String.ofList

/-- The anchor that a text starts with. -/
def anchorOf : List Char → Anchor
  | '/' :: '/' :: '/' :: _ => .top
  | '/' :: '/' :: _ => .doubleTop
  | '/' :: _ => .top
  | _ => .here

/-- The path that a text writes. -/
def ofText (text : String) : Path :=
  ⟨anchorOf text.toList, partsOf text.toList⟩

/-- The path of a text as seen from another path. -/
def join (p : Path) (text : String) : Path :=
  let q := ofText text
  if q.anchor = .here then ⟨p.anchor, p.parts ++ q.parts⟩ else q

/-- The texts joined to a path, one after another. -/
def joinAll (p : Path) (texts : List String) : Path :=
  texts.foldl join p

/-- How an anchor is written. -/
def anchorText : Anchor → List Char
  | .here => []
  | .top => ['/']
  | .doubleTop => ['/', '/']

/-- The text of a path; the path without anchor and parts is a single dot. -/
def text (p : Path) : String :=
  match anchorText p.anchor ++ joined separator (p.parts.map String.toList) with
  | [] => "."
  | cs => String.ofList cs

/-- The path without its last part. -/
def parent (p : Path) : Path :=
  ⟨p.anchor, p.parts.dropLast⟩

end Path

end Bindery
