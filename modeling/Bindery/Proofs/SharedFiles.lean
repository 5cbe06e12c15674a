import Bindery.Proofs.BelowRoot

/-!
# Names that share a file

A segment without a slash is a part of the path of the file, unless it is empty and stands in the
package (`fileFor_of_free`). So all that the path has lost of the name are the empty segments of the
package, and two names share a file exactly if they differ in nothing else (`same_file_iff`).
-/

namespace Bindery.Path

open Bindery.Text

/-- Texts without slashes are parts, if they are neither empty nor a single dot. -/
theorem flatMap_partsOf_of_free {texts : List String}
    (h : ∀ text ∈ texts, separator ∉ text.toList ∧ text ≠ ".") :
    (texts.flatMap fun text => partsOf text.toList) = texts.filter (· ≠ "") := by
  induction texts with
  | nil => rfl
  | cons text rest ih =>
    obtain ⟨⟨hsep, hdot⟩, hrest⟩ := List.forall_mem_cons.mp h
    rw [List.flatMap_cons, ih hrest, partsOf, segments_of_not_mem hsep]
    by_cases hempty : text = ""
    · rw [hempty]
      rfl
    · have hcounts : counts text.toList = true :=
        (isPart_iff.mpr ⟨hempty, hdot, hsep⟩).1
      rw [List.filter_cons_of_pos hcounts, List.filter_cons_of_pos (by simpa using hempty)]
      simp

end Bindery.Path

namespace Bindery.TreeSink

open Bindery.Text

variable {name : String}

/-- The folders that a name stands for: the segments of its package that are not empty. -/
def foldersOf (name : String) : List String := (packageOf name).filter (· ≠ "")

/-- A name without slashes makes up its path without any. -/
theorem free_of_mem_layoutOf (h : Path.separator ∉ name.toList) {text : String}
    (htext : text ∈ layoutOf defaultExtension name) :
    Path.separator ∉ text.toList ∧ text ≠ "." := by
  have hfree : ∀ segment ∈ segmentsOf name, Path.separator ∉ segment.toList := by
    intro segment hsegment hslash
    obtain ⟨piece, hpiece, rfl⟩ := List.mem_map.mp hsegment
    rw [String.toList_ofList] at hslash
    exact h (mem_of_mem_segments hpiece hslash)
  rcases List.mem_append.mp htext with hpackage | hfile
  · have hsegment := mem_segmentsOf_of_mem_packageOf hpackage
    refine ⟨hfree text hsegment, ?_⟩
    rintro rfl
    exact not_mem_of_mem_segmentsOf hsegment (by decide)
  · rw [List.mem_singleton.mp hfile, ← String.toList_inj.ne, String.toList_append]
    constructor
    · rw [List.mem_append, not_or]
      exact ⟨hfree _ (classOf_mem name), by decide⟩
    · -- there are letters in the extension
      intro hdot
      have hletter : 'j' ∈ (classOf name).toList ++ defaultExtension.toList :=
        List.mem_append_right _ (by decide)
      rw [hdot] at hletter
      exact absurd hletter (by decide)

/-- The file of a class without slashes in its name: below the root there is a folder for each
segment of the package that is not empty, and the file has the name of the class. -/
theorem fileFor_of_free (root : Path) (h : Path.separator ∉ name.toList) :
    fileFor root defaultExtension name =
      ⟨root.anchor, root.parts ++ (foldersOf name ++ [classOf name ++ defaultExtension])⟩ := by
  have hhere : ∀ text ∈ layoutOf defaultExtension name, Path.anchorOf text.toList = .here := by
    intro text htext
    rw [Path.anchorOf_eq_here_iff]
    exact fun hslash => (free_of_mem_layoutOf h htext).1 (List.mem_of_mem_head? hslash)
  have hfile : [classOf name ++ defaultExtension].filter (· ≠ "") =
      [classOf name ++ defaultExtension] := by
    rw [List.filter_eq_self, List.forall_mem_singleton, decide_eq_true_iff, Ne,
      String.append_eq_empty_iff]
    exact fun hboth => absurd hboth.2 (by decide)
  rw [fileFor_eq, Path.joinAll_of_here root hhere,
    Path.flatMap_partsOf_of_free fun _ => free_of_mem_layoutOf h, layoutOf, List.filter_append,
    hfile, foldersOf]

/-- Two names without slashes share a file exactly if the classes are the same and the packages
differ in empty segments at most: the parts of the path are those of the root, the segments of the
package that are not empty, and the class with the extension. Without empty segments in their
packages different names have different files. -/
theorem same_file_iff (root : Path) {a b : String} (ha : Path.separator ∉ a.toList)
    (hb : Path.separator ∉ b.toList) :
    let file := fileFor root defaultExtension
    (file a).trail = root.trail ++ foldersOf a ++ [classOf a ++ ".java"] ∧
    (file a = file b ↔ classOf a = classOf b ∧ foldersOf a = foldersOf b) ∧
    ("" ∉ packageOf a → "" ∉ packageOf b → file a = file b → a = b) := by
  intro file
  have hiff : file a = file b ↔ classOf a = classOf b ∧ foldersOf a = foldersOf b := by
    show fileFor root defaultExtension a = fileFor root defaultExtension b ↔ _
    rw [fileFor_of_free root ha, fileFor_of_free root hb]
    constructor
    · -- the class is the last part, and the folders are those before it
      intro hsame
      obtain ⟨hfolders, hfile⟩ :=
        List.append_inj' (List.append_cancel_left (congrArg Path.parts hsame)) rfl
      exact ⟨(String.append_left_inj _).mp (List.singleton_inj.mp hfile), hfolders⟩
    · rintro ⟨hclass, hfolders⟩
      rw [hclass, hfolders]
  refine ⟨?_, hiff, ?_⟩
  · show (fileFor root defaultExtension a).trail = _
    rw [fileFor_of_free root ha, Path.trail_append, ← List.append_assoc]
    rfl
  · intro hfulla hfullb hsame
    obtain ⟨hclass, hfolders⟩ := hiff.mp hsame
    -- where no segment is empty, no folder is left out
    have hkept : ∀ name, "" ∉ packageOf name → foldersOf name = packageOf name := by
      intro name hfull
      rw [foldersOf, List.filter_eq_self]
      exact fun segment hsegment => decide_eq_true fun hempty => hfull (hempty ▸ hsegment)
    rw [hkept a hfulla, hkept b hfullb] at hfolders
    apply segmentsOf_injective
    rw [segmentsOf_eq, segmentsOf_eq, hclass, hfolders]

/-- The empty segments may stand anywhere in the package, but the class is not one of them. -/
theorem same_file_iff_sample :
    let root := Path.ofText "//out/../gen"
    fileFor root defaultExtension "..a.b.C" = fileFor root defaultExtension "a..b.C" ∧
      fileFor root defaultExtension "a.b.C" ≠ fileFor root defaultExtension "a.b.C." := by
  intro root
  obtain ⟨-, hsame, -⟩ := same_file_iff root (a := "..a.b.C") (b := "a..b.C") (by decide +kernel)
    (by decide +kernel)
  obtain ⟨-, hother, -⟩ := same_file_iff root (a := "a.b.C") (b := "a.b.C.") (by decide +kernel)
    (by decide +kernel)
  exact ⟨hsame.mpr (by decide +kernel), fun h => absurd (hother.mp h) (by decide +kernel)⟩

end Bindery.TreeSink
