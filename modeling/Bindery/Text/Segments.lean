/-!
# Texts cut at a separator

A text is the list of its code points. `segments sep` cuts it at every `sep`, and `joined sep`
writes pieces with `sep` between them. The two undo each other: `joined_segments` holds of every
text, and `segments_joined` of every non-empty list of pieces that are free of the separator.
-/

namespace Bindery.Text

/-- The pieces of a text between the occurrences of `sep`: always one more than there are. -/
def segments (sep : Char) : List Char → List (List Char)
  | [] => [[]]
  | c :: cs =>
    if c = sep then [] :: segments sep cs
    else
      match segments sep cs with
      | [] => [[c]]
      | piece :: rest => (c :: piece) :: rest

/-- The pieces in order, with `sep` between two neighbours. -/
def joined (sep : Char) : List (List Char) → List Char
  | [] => []
  | [piece] => piece
  | piece :: next :: rest => piece ++ sep :: joined sep (next :: rest)

theorem segments_ne_nil (sep : Char) (cs : List Char) : segments sep cs ≠ [] := by
  cases cs with
  | nil => simp [segments]
  | cons c cs =>
    unfold segments
    split
    · simp
    · split <;> simp

/-- A separator that is written out cuts the two sides apart, whatever they hold. -/
theorem segments_append_sep (sep : Char) (a b : List Char) :
    segments sep (a ++ sep :: b) = segments sep a ++ segments sep b := by
  induction a with
  | nil => simp [segments]
  | cons c a ih =>
    by_cases h : c = sep
    · simp [segments, h, ih]
    · simp only [List.cons_append, segments, h, if_false, ih]
      cases hs : segments sep a with
      | nil => exact absurd hs (segments_ne_nil sep a)
      | cons piece rest => simp

theorem segments_of_not_mem {sep : Char} {cs : List Char} (h : sep ∉ cs) :
    segments sep cs = [cs] := by
  induction cs with
  | nil => rfl
  | cons c cs ih =>
    simp only [List.mem_cons, not_or] at h
    simp [segments, Ne.symm h.1, ih h.2]

/-- No segment holds the separator. -/
theorem not_mem_of_mem_segments {sep : Char} {cs piece : List Char}
    (h : piece ∈ segments sep cs) : sep ∉ piece := by
  induction cs generalizing piece with
  | nil => simp_all [segments]
  | cons c cs ih =>
    by_cases hc : c = sep
    · simp only [segments, hc, if_true, List.mem_cons] at h
      rcases h with rfl | h
      · simp
      · exact ih h
    · cases hs : segments sep cs with
      | nil => exact absurd hs (segments_ne_nil sep cs)
      | cons first rest =>
        simp only [segments, hc, if_false, hs, List.mem_cons] at h
        rcases h with rfl | h
        · simp [Ne.symm hc, @ih first (by simp [hs])]
        · exact ih (by simp [hs, h])

theorem joined_cons_of_ne_nil {sep : Char} {piece : List Char} {rest : List (List Char)}
    (h : rest ≠ []) : joined sep (piece :: rest) = piece ++ sep :: joined sep rest := by
  cases rest with
  | nil => exact absurd rfl h
  | cons next rest => rfl

/-- A joined text has the characters of its pieces, and separators. -/
theorem mem_joined {sep c : Char} (hc : c ≠ sep) {pieces : List (List Char)} :
    c ∈ joined sep pieces ↔ ∃ piece ∈ pieces, c ∈ piece := by
  induction pieces with
  | nil => simp [joined]
  | cons piece rest ih =>
    cases rest with
    | nil => simp [joined]
    | cons next rest =>
      rw [joined_cons_of_ne_nil (by simp), List.mem_append, List.mem_cons, or_iff_right hc, ih]
      simp

/-- Nothing is lost by cutting. -/
theorem joined_segments (sep : Char) (cs : List Char) : joined sep (segments sep cs) = cs := by
  induction cs with
  | nil => rfl
  | cons c cs ih =>
    by_cases h : c = sep
    · simp [segments, h, joined_cons_of_ne_nil (segments_ne_nil sep cs), ih]
    · cases hs : segments sep cs with
      | nil => exact absurd hs (segments_ne_nil sep cs)
      | cons piece rest =>
        rw [hs] at ih
        cases rest with
        | nil => simp_all [segments, joined]
        | cons next rest => simp_all [segments, joined]

/-- The segments have the characters of the text but the separator. -/
theorem exists_mem_segments {sep c : Char} (hc : c ≠ sep) {cs : List Char} :
    (∃ piece ∈ segments sep cs, c ∈ piece) ↔ c ∈ cs := by
  rw [← mem_joined hc, joined_segments]

theorem mem_of_mem_segments {sep c : Char} {cs piece : List Char} (hpiece : piece ∈ segments sep cs)
    (hc : c ∈ piece) : c ∈ cs := by
  have hne : c ≠ sep := by
    rintro rfl
    exact not_mem_of_mem_segments hpiece hc
  exact (exists_mem_segments hne).mp ⟨piece, hpiece, hc⟩

/-- Cutting a joined text cuts every piece, so nothing but separators is lost by joining. -/
theorem segments_joined_eq_flatMap (sep : Char) {pieces : List (List Char)} (h : pieces ≠ []) :
    segments sep (joined sep pieces) = pieces.flatMap (segments sep) := by
  induction pieces with
  | nil => exact absurd rfl h
  | cons piece rest ih =>
    cases rest with
    | nil => simp [joined]
    | cons next rest =>
      rw [joined_cons_of_ne_nil (by simp), segments_append_sep, ih (by simp)]
      simp

/-- Pieces free of the separator are read back as they are. -/
theorem segments_joined {sep : Char} {pieces : List (List Char)} (h : pieces ≠ [])
    (free : ∀ piece ∈ pieces, sep ∉ piece) : segments sep (joined sep pieces) = pieces := by
  rw [segments_joined_eq_flatMap sep h]
  clear h
  induction pieces with
  | nil => rfl
  | cons piece rest ih =>
    simp [segments_of_not_mem (free piece (by simp)), ih fun q hq => free q (by simp [hq])]

end Bindery.Text
