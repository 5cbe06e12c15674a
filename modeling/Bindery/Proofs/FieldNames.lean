import Bindery.Proofs.Capitals
import Bindery.Proofs.LayoutRuns

/-!
# Fields and identifiers

A reference to a view is cut in three at its first slash and the next (`Refers`): what stands in
front, the identifier, and the rest. The field of the view is the identifier as the name of a
variable, whatever stands around it, and whatever was asked for before (`field_of_identifier`).
-/

namespace Bindery

open Bindery.Text

namespace Naming

/-- A reference, cut at its first slash and in front of the next, if there is one. -/
structure Refers (reference space id rest : String) : Prop where
  written : reference = space ++ "/" ++ id ++ rest
  space_free : referenceSeparator ∉ space.toList
  id_free : referenceSeparator ∉ id.toList
  rest_starts : rest = "" ∨ rest.toList.head? = some referenceSeparator

variable {reference space id rest : String}

/-- Every text with a slash can be cut in this way. -/
theorem exists_refers (h : referenceSeparator ∈ reference.toList) :
    ∃ space id rest, Refers reference space id rest := by
  obtain ⟨space, behind, hreference, hspace⟩ := List.eq_append_cons_of_mem h
  -- the identifier ends at the next slash, or with the text
  by_cases hnext : referenceSeparator ∈ behind
  · obtain ⟨id, more, hbehind, hid⟩ := List.eq_append_cons_of_mem hnext
    refine ⟨.ofList space, .ofList id, .ofList (referenceSeparator :: more), ?_, ?_, ?_, .inr ?_⟩
    · rw [← String.toList_inj, hreference, hbehind]
      simp [referenceSeparator]
    · rwa [String.toList_ofList]
    · rwa [String.toList_ofList]
    · rw [String.toList_ofList, List.head?_cons]
  · refine ⟨.ofList space, .ofList behind, "", ?_, ?_, ?_, .inl rfl⟩
    · rw [← String.toList_inj, hreference]
      simp [referenceSeparator]
    · rwa [String.toList_ofList]
    · rwa [String.toList_ofList]

/-- The identifier is what is read from the reference. -/
theorem Refers.resourceId?_eq (h : Refers reference space id rest) :
    resourceId? reference.toList = some id.toList := by
  -- the identifier is the first segment behind the first slash, whatever comes after it
  have hid : ∃ more, segments referenceSeparator (id.toList ++ rest.toList) = id.toList :: more := by
    rcases h.rest_starts with hnone | hslash
    · rw [hnone, String.toList_empty, List.append_nil, segments_of_not_mem h.id_free]
      exact ⟨[], rfl⟩
    · obtain ⟨more, hrest⟩ := List.head?_eq_some_iff.mp hslash
      rw [hrest, segments_append_sep, segments_of_not_mem h.id_free]
      exact ⟨_, rfl⟩
  obtain ⟨more, hmore⟩ := hid
  have hcut : reference.toList =
      space.toList ++ referenceSeparator :: (id.toList ++ rest.toList) := by
    rw [h.written]
    simp [referenceSeparator]
  rw [resourceId?, hcut, segments_append_sep, segments_of_not_mem h.space_free, hmore]
  rfl

theorem Refers.resourceId_eq (h : Refers reference space id rest) :
    resourceId reference = .ok id := by
  unfold resourceId
  simp only [h.resourceId?_eq, String.ofList_toList]

/-- No slash comes into a variable with the capitals. -/
theorem slash_not_mem_camelCase {name : List Char} (h : referenceSeparator ∉ name) :
    referenceSeparator ∉ camelCase name := by
  intro hslash
  obtain ⟨word, hword, hmem⟩ := exists_word_of_mem_camelCase (by decide) (by decide) hslash
  exact h (mem_of_mem_segments hword hmem)

end Naming

namespace LayoutNames

open Bindery.Naming

/-- After any run a view without a slash is refused, and no other. A reference has its identifier as
the name of a variable for its field, whatever stands in front of the identifier and behind it, and
whatever was asked for before. There is no slash and no underscore in a field, and it is empty if
there is nothing but underscores in the identifier. -/
theorem field_of_identifier (start : String) (uses : List Use) (view : String) :
    let answer := ((after (fresh start) uses).fieldName view).1
    (answer = .error ⟨view, none⟩ ↔ referenceSeparator ∉ view.toList) ∧
    (referenceSeparator ∈ view.toList → ∃ space id rest, Refers view space id rest) ∧
    ∀ space id rest, Refers view space id rest →
      answer = .ok (variableName id) ∧
      referenceSeparator ∉ (variableName id).toList ∧ wordSeparator ∉ (variableName id).toList ∧
      (variableName id = "" ↔ ∀ c ∈ id.toList, c = wordSeparator) := by
  intro answer
  have hanswer : answer = fieldFor view := ((recalls_after start uses).fieldName view).1
  rw [hanswer]
  refine ⟨⟨?_, fieldFor_of_not_reference⟩, exists_refers, ?_⟩
  · intro herror hslash
    obtain ⟨id, -, hfield⟩ := fieldFor_of_reference hslash
    rw [hfield] at herror
    contradiction
  · intro space id rest h
    refine ⟨?_, ?_, ?_, ?_⟩
    · rw [fieldFor, h.resourceId_eq]
      rfl
    · rw [variableName, String.toList_ofList]
      exact slash_not_mem_camelCase h.id_free
    · rw [variableName, String.toList_ofList]
      exact separator_not_mem_camelCase id.toList
    · rw [variableName, ← String.toList_eq_nil_iff, String.toList_ofList]
      exact camelCase_eq_nil_iff

/-- The identifier ends at the next slash, and its second word has two capitals in place of one
letter. -/
theorem field_of_identifier_sample :
    let names := after (fresh "Binding") [.fieldName "title", .fieldName "@id/user_ß"]
    Refers "@+id/user_ß/more" "@+id" "user_ß" "/more" ∧
      (names.fieldName "@+id/user_ß/more").1 = .ok "userSS" := by
  intro names
  have hrefers : Refers "@+id/user_ß/more" "@+id" "user_ß" "/more" :=
    ⟨by decide +kernel, by decide +kernel, by decide +kernel, .inr (by decide +kernel)⟩
  obtain ⟨-, -, hfield⟩ := field_of_identifier "Binding" [.fieldName "title", .fieldName "@id/user_ß"]
    "@+id/user_ß/more"
  obtain ⟨hanswer, -⟩ := hfield _ _ _ hrefers
  refine ⟨hrefers, hanswer.trans ?_⟩
  decide +kernel

/-- A slash in front makes a reference too. -/
example : fieldFor "/user_name/more" = fieldFor "@+id/user_name" := by decide +kernel

end LayoutNames

end Bindery
