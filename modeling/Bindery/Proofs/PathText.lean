import Bindery.Path
import Mathlib.Tactic

/-!
# Paths and their texts

A path that was read from a text, or joined from such paths, is well formed: its parts are what a
text can have between two slashes, and no part is empty or a single dot. The text of a well-formed
path starts with its anchor (`anchorOf_text`) and has its parts between the slashes behind
(`names_text`); the path of a folder above is written by the beginning of the text (`text_above`).
-/

namespace Bindery.Path

open Bindery.Text

/-- Whether a text can be a part of a path. -/
def IsPart (part : String) : Prop := counts part.toList = true ∧ separator ∉ part.toList

/-- A path whose parts can all be parts. -/
def WellFormed (p : Path) : Prop := ∀ part ∈ p.parts, IsPart part

theorem isPart_iff {part : String} :
    IsPart part ↔ part ≠ "" ∧ part ≠ "." ∧ separator ∉ part.toList := by
  have hempty : part.toList = [] ↔ part = "" := String.toList_eq_nil_iff
  have hdot : part.toList = ['.'] ↔ part = "." := by
    rw [← String.toList_inj]
    rfl
  unfold IsPart counts
  rw [Bool.and_eq_true, decide_eq_true_iff, decide_eq_true_iff, Ne, Ne, hempty, hdot, and_assoc]

/-! ## Well-formed paths -/

theorem isPart_of_mem_partsOf {text : List Char} {part : String} (h : part ∈ partsOf text) :
    IsPart part := by
  unfold partsOf at h
  obtain ⟨piece, hpiece, rfl⟩ := List.mem_map.mp h
  rw [List.mem_filter] at hpiece
  unfold IsPart
  rw [String.toList_ofList]
  exact ⟨hpiece.2, not_mem_of_mem_segments hpiece.1⟩

theorem wellFormed_ofText (text : String) : (ofText text).WellFormed :=
  fun _ h => isPart_of_mem_partsOf h

theorem WellFormed.join {p : Path} (hp : p.WellFormed) (text : String) :
    (p.join text).WellFormed := by
  intro part hpart
  by_cases hanchor : (ofText text).anchor = .here
  · have hjoin : p.join text = ⟨p.anchor, p.parts ++ (ofText text).parts⟩ := if_pos hanchor
    rw [hjoin, List.mem_append] at hpart
    rcases hpart with h | h
    · exact hp part h
    · exact wellFormed_ofText text part h
  · have hjoin : p.join text = ofText text := if_neg hanchor
    rw [hjoin] at hpart
    exact wellFormed_ofText text part hpart

theorem WellFormed.joinAll {p : Path} (hp : p.WellFormed) (texts : List String) :
    (p.joinAll texts).WellFormed := by
  unfold Path.joinAll
  induction texts generalizing p with
  | nil => exact hp
  | cons text rest ih => exact ih (hp.join text)

/-- What is above a path is a path as well. -/
theorem WellFormed.above {p : Path} (hp : p.WellFormed) {above : List String}
    (h : above <+: p.parts) : WellFormed ⟨p.anchor, above⟩ :=
  fun part hpart => hp part (h.subset hpart)

theorem WellFormed.parent {p : Path} (hp : p.WellFormed) : p.parent.WellFormed :=
  hp.above (List.dropLast_prefix p.parts)

/-- A part joined to a path is its last part. -/
theorem join_part (p : Path) {part : String} (h : IsPart part) :
    p.join part = ⟨p.anchor, p.parts ++ [part]⟩ := by
  have hanchor : anchorOf part.toList = .here := by
    have hsep := h.2
    cases hcs : part.toList with
    | nil => rfl
    | cons c cs =>
      rw [hcs, List.mem_cons, not_or] at hsep
      unfold anchorOf
      split <;> simp_all [separator]
  have hparts : partsOf part.toList = [part] := by
    unfold partsOf
    rw [segments_of_not_mem h.2, List.filter_cons_of_pos h.1]
    simp
  unfold join ofText
  simp only [hanchor, hparts, if_true]

/-- Parts joined to a path follow its own. -/
theorem joinAll_parts (p : Path) {parts : List String} (h : ∀ part ∈ parts, IsPart part) :
    p.joinAll parts = ⟨p.anchor, p.parts ++ parts⟩ := by
  induction parts generalizing p with
  | nil => simp [joinAll]
  | cons part rest ih =>
    have hrest : ∀ other ∈ rest, IsPart other := fun other hother =>
      h other (List.mem_cons_of_mem part hother)
    have hstep : p.joinAll (part :: rest) = (p.join part).joinAll rest := rfl
    rw [hstep, join_part p (h part List.mem_cons_self), ih _ hrest]
    simp

/-! ## What a path looks like -/

/-- The characters of a path; the path without anchor and parts has none. -/
def written (p : Path) : List Char :=
  anchorText p.anchor ++ joined separator (p.parts.map String.toList)

theorem text_eq (p : Path) : p.text = if p.written = [] then "." else String.ofList p.written := by
  unfold text written
  split
  · next h => rw [if_pos h]
  · next h => rw [if_neg h]

theorem toList_text (p : Path) :
    p.text.toList = if p.written = [] then ['.'] else p.written := by
  rw [text_eq]
  split
  · rfl
  · exact String.toList_ofList

private theorem joined_map_eq_nil_iff {parts : List String} (h : ∀ part ∈ parts, IsPart part) :
    joined separator (parts.map String.toList) = [] ↔ parts = [] := by
  cases parts with
  | nil => simp [joined]
  | cons part rest =>
    have hpart := (isPart_iff.mp (h part List.mem_cons_self)).1
    cases rest with
    | nil => simpa [joined] using hpart
    | cons next rest => simp [joined]

/-- No part is empty or has a slash, so that the parts do not start with one. -/
private theorem head_joined_ne {parts : List String} (h : ∀ part ∈ parts, IsPart part) {c : Char}
    {cs : List Char} (hjoined : joined separator (parts.map String.toList) = c :: cs) :
    c ≠ separator := by
  cases parts with
  | nil => simp [joined] at hjoined
  | cons part rest =>
    obtain ⟨hcounts, hsep⟩ := h part List.mem_cons_self
    cases hpart : part.toList with
    | nil => simp [counts, hpart] at hcounts
    | cons d ds =>
      have hd : d ≠ separator := by
        rw [hpart, List.mem_cons, not_or] at hsep
        exact Ne.symm hsep.1
      -- the text starts with the first character of the first part
      have hc : c = d := by
        cases rest with
        | nil => simp_all [joined]
        | cons next rest => simp_all [joined]
      rwa [hc]

theorem written_eq_nil_iff {p : Path} (hp : p.WellFormed) :
    p.written = [] ↔ p.anchor = .here ∧ p.parts = [] := by
  unfold written
  rw [List.append_eq_nil_iff, joined_map_eq_nil_iff hp]
  cases p.anchor <;> simp [anchorText]

/-- The text of a path starts with its anchor. -/
theorem anchorOf_text {p : Path} (hp : p.WellFormed) : anchorOf p.text.toList = p.anchor := by
  obtain ⟨anchor, parts⟩ := p
  rw [toList_text]
  have hhead : ∀ c cs, joined separator (parts.map String.toList) = c :: cs → c ≠ '/' :=
    fun c cs hjoined => head_joined_ne hp hjoined
  unfold written
  cases hjoined : joined separator (parts.map String.toList) with
  | nil => cases anchor <;> simp [anchorText, anchorOf]
  | cons c cs =>
    have hc := hhead c cs hjoined
    cases anchor <;> simp [anchorText, anchorOf, hc]

/-- What stands in front of the first part of a path, between slashes. -/
def lead : Anchor → List String
  | .here => []
  | .top => [""]
  | .doubleTop => ["", ""]

/-- What a path without parts has in place of a part. -/
def noPart : Anchor → String
  | .here => "."
  | .top | .doubleTop => ""

theorem segments_anchorText (anchor : Anchor) (cs : List Char) :
    (segments separator (anchorText anchor ++ cs)).map String.ofList =
      lead anchor ++ (segments separator cs).map String.ofList := by
  cases anchor <;> simp [anchorText, segments, separator, lead]

/-- Parts that are joined come back between the slashes, unless there are none. -/
theorem segments_joined_parts {parts : List String} (hne : parts ≠ [])
    (h : ∀ part ∈ parts, IsPart part) :
    (segments separator (joined separator (parts.map String.toList))).map String.ofList = parts := by
  have hpieces : segments separator (joined separator (parts.map String.toList)) =
      parts.map String.toList := by
    apply segments_joined
    · simpa using hne
    · intro piece hpiece
      obtain ⟨part, hpart, rfl⟩ := List.mem_map.mp hpiece
      exact (h part hpart).2
  rw [hpieces, List.map_map]
  simp

/-- What the text of a path has between its slashes. -/
theorem names_text {p : Path} (hp : p.WellFormed) :
    (segments separator p.text.toList).map String.ofList =
      lead p.anchor ++ if p.parts = [] then [noPart p.anchor] else p.parts := by
  obtain ⟨anchor, parts⟩ := p
  rw [toList_text]
  by_cases hparts : parts = []
  · -- the path of the current folder is the one that has a dot for its text
    subst hparts
    cases anchor <;> simp [written, anchorText, joined, segments, separator, lead, noPart]
  · have hne : Path.written ⟨anchor, parts⟩ ≠ [] := by
      rw [Ne, written_eq_nil_iff hp]
      exact fun h => hparts h.2
    rw [if_neg hne, if_neg hparts, written, segments_anchorText, segments_joined_parts hparts hp]

/-! ## Folders above -/

theorem joined_append_prefix (sep : Char) (above below : List (List Char)) :
    joined sep above <+: joined sep (above ++ below) := by
  induction above with
  | nil => exact List.nil_prefix
  | cons piece rest ih =>
    -- a separator stands behind the last piece only if something is below
    by_cases hrest : rest = []
    · subst hrest
      cases below with
      | nil => simp
      | cons next below => simp [joined]
    · rw [List.cons_append, joined_cons_of_ne_nil hrest, joined_cons_of_ne_nil (by simp [hrest]),
        List.prefix_append_right_inj, List.prefix_cons_inj]
      exact ih

/-- What a path has in its text, a path below it has too, in the same place. -/
theorem text_above (anchor : Anchor) (above below : List String) :
    Path.text ⟨anchor, above⟩ = "." ∨
      ∃ rest, Path.text ⟨anchor, above ++ below⟩ = Path.text ⟨anchor, above⟩ ++ rest := by
  have hprefix : Path.written ⟨anchor, above⟩ <+: Path.written ⟨anchor, above ++ below⟩ := by
    unfold written
    rw [List.prefix_append_right_inj, List.map_append]
    exact joined_append_prefix _ _ _
  obtain ⟨rest, hrest⟩ := hprefix
  rw [text_eq, text_eq]
  -- a path without characters shows a dot, which is no beginning of the path below
  by_cases habove : Path.written ⟨anchor, above⟩ = []
  · left
    rw [if_pos habove]
  · right
    have hbelow : Path.written ⟨anchor, above ++ below⟩ ≠ [] := by
      rw [← hrest]
      simp [habove]
    refine ⟨String.ofList rest, ?_⟩
    rw [if_neg habove, if_neg hbelow, ← hrest, String.ofList_append]

end Bindery.Path
