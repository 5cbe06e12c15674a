import Bindery.Proofs.SourceNames

/-!
# Which files are below the root

A path is below another if it has the same anchor and parts, and then some more, none of which leads
up again (`Path.Below`). The file of a class is below the root if no segment of the name starts with
a slash (`below_of_unanchored`): each segment adds parts without dots, and the last one at least one
part, since it has the extension. A segment with a slash in front starts over, and then the root has
no influence on the path at all (`fileFor_of_anchored`).
-/

namespace Bindery.Path

open Bindery.Text

/-! ## Paths below a path -/

/-- The parts of a path, with the anchor, if there is one, as the first. -/
def trail : Path → List String
  | ⟨.here, parts⟩ => parts
  | ⟨anchor, parts⟩ => String.ofList (anchorText anchor) :: parts

/-- Whether a path goes on from another without ever leading up. -/
def Below (root p : Path) : Prop :=
  root.trail <+: p.trail ∧ root.trail ≠ p.trail ∧ ".." ∉ p.trail.drop root.trail.length

instance (root p : Path) : Decidable (Below root p) :=
  inferInstanceAs (Decidable (_ ∧ _ ∧ _))

theorem trail_append (anchor : Anchor) (parts added : List String) :
    trail ⟨anchor, parts ++ added⟩ = trail ⟨anchor, parts⟩ ++ added := by
  cases anchor <;> rfl

theorem below_append {root : Path} {added : List String} (hne : added ≠ []) (hup : ".." ∉ added) :
    Below root ⟨root.anchor, root.parts ++ added⟩ := by
  unfold Below
  rw [trail_append, List.drop_left]
  refine ⟨List.prefix_append _ _, fun h => hne ?_, hup⟩
  exact List.self_eq_append_right.mp h

/-- What is below a folder without an anchor has no anchor either. -/
theorem Below.anchor_eq_here {folder : String} {parts : List String} {p : Path}
    (h : Below ⟨.here, folder :: parts⟩ p) (hfolder : separator ∉ folder.toList) :
    p.anchor = .here := by
  obtain ⟨anchor, rest⟩ := p
  cases anchor with
  | here => rfl
  | top | doubleTop =>
    -- the folder would have to be the anchor
    obtain ⟨added, hadded⟩ := h.1
    have hsame : folder = _ := List.head_eq_of_cons_eq hadded
    rw [hsame] at hfolder
    exact absurd (by decide) hfolder

/-! ## Texts with and without an anchor -/

theorem anchorOf_eq_here_iff {text : List Char} :
    anchorOf text = .here ↔ text.head? ≠ some separator := by
  cases text with
  | nil => simp [anchorOf]
  | cons c rest =>
    unfold anchorOf
    split <;> simp_all [separator]

/-- Texts without an anchor add their parts to a path. -/
theorem joinAll_of_here (p : Path) {texts : List String}
    (h : ∀ text ∈ texts, anchorOf text.toList = .here) :
    p.joinAll texts = ⟨p.anchor, p.parts ++ texts.flatMap fun text => partsOf text.toList⟩ := by
  induction texts generalizing p with
  | nil => simp [joinAll]
  | cons text rest ih =>
    have hstep : p.joinAll (text :: rest) = (p.join text).joinAll rest := rfl
    have hjoin : p.join text = ⟨p.anchor, p.parts ++ partsOf text.toList⟩ :=
      if_pos (h text List.mem_cons_self)
    rw [hstep, hjoin, ih _ fun other hother => h other (List.mem_cons_of_mem text hother)]
    simp

/-- With one that has an anchor among them, it does not matter what they are joined to. -/
theorem joinAll_of_anchored (p q : Path) {texts : List String}
    (h : ∃ text ∈ texts, anchorOf text.toList ≠ .here) : p.joinAll texts = q.joinAll texts := by
  induction texts generalizing p q with
  | nil => simp at h
  | cons text rest ih =>
    show (p.join text).joinAll rest = (q.join text).joinAll rest
    by_cases hanchor : anchorOf text.toList = .here
    · obtain ⟨other, hother, hanchored⟩ := h
      rcases List.mem_cons.mp hother with rfl | hrest
      · contradiction
      · exact ih _ _ ⟨other, hrest, hanchored⟩
    · -- a text with an anchor starts over, so it does not matter what was there
      have hover : ∀ r : Path, r.join text = ofText text := fun _ => if_neg hanchor
      rw [hover, hover]

/-- And the path that results has an anchor. -/
theorem anchor_joinAll_of_anchored (p : Path) {texts : List String}
    (h : p.anchor ≠ .here ∨ ∃ text ∈ texts, anchorOf text.toList ≠ .here) :
    (p.joinAll texts).anchor ≠ .here := by
  induction texts generalizing p with
  | nil => simpa [joinAll] using h
  | cons text rest ih =>
    show ((p.join text).joinAll rest).anchor ≠ .here
    apply ih
    by_cases hanchor : anchorOf text.toList = .here
    · have hkept : p.join text = ⟨p.anchor, p.parts ++ partsOf text.toList⟩ := if_pos hanchor
      rw [hkept]
      simpa [hanchor] using h
    · have hover : p.join text = ofText text := if_neg hanchor
      left
      rwa [hover]

/-! ## What a text adds -/

/-- A piece stands in the text that it is joined to. -/
theorem infix_joined {sep : Char} {pieces : List (List Char)} {piece : List Char}
    (h : piece ∈ pieces) : piece <:+: joined sep pieces := by
  induction pieces with
  | nil => simp at h
  | cons first rest ih =>
    by_cases hrest : rest = []
    · subst hrest
      rw [List.mem_singleton.mp h]
      exact List.infix_refl _
    · rw [joined_cons_of_ne_nil hrest]
      rcases List.mem_cons.mp h with rfl | hmem
      · exact (List.prefix_append _ _).isInfix
      · exact ((ih hmem).trans (List.suffix_cons sep _).isInfix).trans
          (List.suffix_append first _).isInfix

/-- Two dots in a row take two dots. -/
theorem up_not_mem_partsOf {text : List Char} (h : text.count '.' ≤ 1) : ".." ∉ partsOf text := by
  intro hup
  unfold partsOf at hup
  obtain ⟨piece, hpiece, hname⟩ := List.mem_map.mp hup
  have hdots : piece = ['.', '.'] := by
    rw [← String.toList_ofList (l := piece), hname]
    rfl
  -- the two dots would stand in the text as they are
  have hinfix : piece <:+: text := by
    rw [← joined_segments separator text]
    exact infix_joined (List.mem_of_mem_filter hpiece)
  have hcount := hinfix.sublist.count_le '.'
  rw [hdots] at hcount
  exact absurd (hcount.trans h) (by decide)

/-- A text with a character that is neither a dot nor a slash writes a part. -/
theorem partsOf_ne_nil {text : List Char} {c : Char} (hmem : c ∈ text) (hdot : c ≠ '.')
    (hsep : c ≠ separator) : partsOf text ≠ [] := by
  rw [← joined_segments separator text, mem_joined hsep] at hmem
  obtain ⟨piece, hpiece, hc⟩ := hmem
  have hcounts : counts piece = true := by
    unfold counts
    rw [Bool.and_eq_true, decide_eq_true_iff, decide_eq_true_iff]
    constructor
    · rintro rfl
      simp at hc
    · rintro rfl
      simp [hdot] at hc
  unfold partsOf
  simp only [ne_eq, List.map_eq_nil_iff]
  exact List.ne_nil_of_mem (List.mem_filter.mpr ⟨hpiece, hcounts⟩)

end Bindery.Path

namespace Bindery.TreeSink

open Bindery.Text

variable {root : Path} {name : String}

/-! ## The file of a class -/

/-- The file of a class, joined from a text for each segment. -/
theorem fileFor_eq (root : Path) (extension name : String) :
    fileFor root extension name = root.joinAll (layoutOf extension name) := rfl

/-- The texts that make up the path of a file have an anchor where the segments have a slash. -/
theorem anchored_layoutOf_iff (name : String) :
    (∃ text ∈ layoutOf defaultExtension name, Path.anchorOf text.toList ≠ .here) ↔
      ∃ segment ∈ segmentsOf name, segment.toList.head? = some Path.separator := by
  have hclass : (classOf name ++ defaultExtension).toList.head? = some Path.separator ↔
      (classOf name).toList.head? = some Path.separator := by
    rw [String.toList_append]
    cases (classOf name).toList with
    | nil => decide
    | cons c rest => rfl
  rw [segmentsOf_eq, layoutOf]
  simp only [Ne, Path.anchorOf_eq_here_iff, not_not, List.mem_append, List.mem_singleton, or_and_right,
    exists_or, exists_eq_left, hclass]

/-- None of these texts has two dots. -/
theorem count_dot_le_of_mem_layoutOf {text : String} (h : text ∈ layoutOf defaultExtension name) :
    text.toList.count '.' ≤ 1 := by
  have hnone : ∀ segment ∈ segmentsOf name, segment.toList.count '.' = 0 := fun segment hsegment =>
    List.count_eq_zero.mpr (not_mem_of_mem_segmentsOf hsegment)
  rcases List.mem_append.mp h with hpackage | hfile
  · rw [hnone text (mem_segmentsOf_of_mem_packageOf hpackage)]
    exact Nat.zero_le 1
  · rw [List.mem_singleton.mp hfile, String.toList_append, List.count_append,
      hnone _ (classOf_mem name)]
    decide

/-- If no segment of the name starts with a slash, the file is below the root. -/
theorem below_of_unanchored (root : Path)
    (h : ∀ segment ∈ segmentsOf name, segment.toList.head? ≠ some Path.separator) :
    root.Below (fileFor root defaultExtension name) := by
  have hhere : ∀ text ∈ layoutOf defaultExtension name, Path.anchorOf text.toList = .here := by
    by_contra hanchored
    push Not at hanchored
    obtain ⟨segment, hsegment, hslash⟩ := (anchored_layoutOf_iff name).mp hanchored
    exact h segment hsegment hslash
  rw [fileFor_eq, Path.joinAll_of_here root hhere]
  apply Path.below_append
  · -- the text with the extension adds something
    have hfile : classOf name ++ defaultExtension ∈ layoutOf defaultExtension name :=
      List.mem_append_right _ (List.mem_singleton_self _)
    have hletter : 'j' ∈ (classOf name ++ defaultExtension).toList := by
      rw [String.toList_append]
      exact List.mem_append_right _ (by decide)
    rw [Ne, List.flatMap_eq_nil_iff]
    intro hnone
    exact Path.partsOf_ne_nil hletter (by decide) (by decide) (hnone _ hfile)
  · intro hup
    obtain ⟨text, htext, hpart⟩ := List.mem_flatMap.mp hup
    exact Path.up_not_mem_partsOf (count_dot_le_of_mem_layoutOf htext) hpart

/-- If one does, the path of the file has an anchor of its own, and is the same from every root. -/
theorem fileFor_of_anchored
    (h : ∃ segment ∈ segmentsOf name, segment.toList.head? = some Path.separator) (p q : Path) :
    (fileFor p defaultExtension name).anchor ≠ .here ∧
      fileFor p defaultExtension name = fileFor q defaultExtension name := by
  rw [← anchored_layoutOf_iff] at h
  exact ⟨Path.anchor_joinAll_of_anchored p (.inr h), Path.joinAll_of_anchored p q h⟩

/-- The file of a class is below the root exactly if no segment of the name starts with a slash, or
if the path that the name writes without any root happens to be below it. -/
theorem fileFor_below_iff (root : Path) (name : String) :
    root.Below (fileFor root defaultExtension name) ↔
      (∀ segment ∈ segmentsOf name, segment.toList.head? ≠ some Path.separator) ∨
        root.Below (fileFor ⟨.here, []⟩ defaultExtension name) := by
  -- with such a segment the root is forgotten, so the empty path does as well
  by_cases hslash : ∃ segment ∈ segmentsOf name, segment.toList.head? = some Path.separator
  · obtain ⟨-, hsame⟩ := fileFor_of_anchored hslash root ⟨.here, []⟩
    obtain ⟨segment, hsegment, hhead⟩ := hslash
    rw [hsame]
    exact ⟨.inr, fun h => h.resolve_left fun hnone => hnone segment hsegment hhead⟩
  · push Not at hslash
    exact ⟨fun _ => .inl hslash, fun _ => below_of_unanchored root hslash⟩

/-- The segment with the slash takes the file of this class out of the root. -/
theorem fileFor_not_below :
    let root := Path.ofText "out"
    (fileFor root defaultExtension "/abs/B").text = "/abs/B.java" ∧
      ¬ root.Below (fileFor root defaultExtension "/abs/B") := by
  decide +kernel

/-- So the names that are safe whatever the root is are those without such a segment. -/
theorem fileFor_below_all_iff (name : String) :
    (∀ root : Path, root.Below (fileFor root defaultExtension name)) ↔
      ∀ segment ∈ segmentsOf name, segment.toList.head? ≠ some Path.separator := by
  refine ⟨fun hbelow segment hsegment hslash => ?_, fun h root => below_of_unanchored root h⟩
  obtain ⟨hanchor, -⟩ := fileFor_of_anchored ⟨segment, hsegment, hslash⟩ ⟨.here, ["out"]⟩ ⟨.here, []⟩
  exact hanchor ((hbelow ⟨.here, ["out"]⟩).anchor_eq_here (by decide))

end Bindery.TreeSink
