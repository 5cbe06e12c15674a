import Bindery.Sink
import Bindery.Proofs.TreeGrowth

/-!
# Where the file of a class is

The file of a class stands in a folder for each segment of its package. If every segment can be the
name of a file (`ProperName`) and the extension has no slash, the place of the file is that of the
root with the segments behind (`placeOf_eq`), so that different classes have different files
(`placeOf_injective`). No segment has a dot, which tells folders from files once the extension has
one.
-/

namespace Bindery.TreeSink

open Bindery.Text FileTree

variable {name segment extension : String} {sink : TreeSink}

/-! ## Segments -/

/-- The package of a class. -/
def packageOf (name : String) : List String := (segmentsOf name).dropLast

/-- The class without its package. -/
def classOf (name : String) : String := (segmentsOf name).getLast?.getD ""

/-- Whether all segments of a name can be names of folders and files. -/
def ProperName (name : String) : Prop :=
  ∀ segment ∈ segmentsOf name, segment ≠ "" ∧ Path.separator ∉ segment.toList

theorem segmentsOf_eq (name : String) : segmentsOf name = packageOf name ++ [classOf name] := by
  have hne : segmentsOf name ≠ [] := by
    unfold segmentsOf
    simpa using segments_ne_nil '.' name.toList
  unfold packageOf classOf
  rw [List.getLast?_eq_getLast_of_ne_nil hne, Option.getD_some, List.dropLast_append_getLast hne]

/-- Nothing of a name is lost by cutting it into segments. -/
theorem segmentsOf_injective {a b : String} (h : segmentsOf a = segmentsOf b) : a = b := by
  unfold segmentsOf at h
  have hsegments : segments '.' a.toList = segments '.' b.toList := by
    have hinj : Function.Injective String.ofList := fun x y hxy => by
      rw [← String.toList_ofList (l := x), hxy, String.toList_ofList]
    exact List.map_injective_iff.mpr hinj h
  rw [← String.toList_inj, ← joined_segments '.' a.toList, hsegments, joined_segments]

theorem not_mem_of_mem_segmentsOf (h : segment ∈ segmentsOf name) : '.' ∉ segment.toList := by
  unfold segmentsOf at h
  obtain ⟨piece, hpiece, rfl⟩ := List.mem_map.mp h
  rw [String.toList_ofList]
  exact not_mem_of_mem_segments hpiece

theorem mem_segmentsOf_of_mem_packageOf (h : segment ∈ packageOf name) :
    segment ∈ segmentsOf name := List.mem_of_mem_dropLast h

theorem classOf_mem (name : String) : classOf name ∈ segmentsOf name := by
  rw [segmentsOf_eq]
  simp

/-! ## Paths and places -/

private theorem ne_of_not_mem_dot {text : String} (h : '.' ∉ text.toList) :
    text ≠ "." ∧ text ≠ ".." := by
  constructor
  · rintro rfl
    exact h (by decide)
  · rintro rfl
    exact h (by decide)

/-- The folders of a package have names that lead down. -/
theorem isPart_of_mem_packageOf (hname : ProperName name) (h : segment ∈ packageOf name) :
    Path.IsPart segment ∧ segment ≠ ".." := by
  have hmem := mem_segmentsOf_of_mem_packageOf h
  obtain ⟨hne, hsep⟩ := hname segment hmem
  obtain ⟨hdot, hup⟩ := ne_of_not_mem_dot (not_mem_of_mem_segmentsOf hmem)
  exact ⟨Path.isPart_iff.mpr ⟨hne, hdot, hsep⟩, hup⟩

/-- So does the file, whose name starts with something that is no dot. -/
theorem isPart_file (hname : ProperName name) (hext : Path.separator ∉ extension.toList) :
    Path.IsPart (classOf name ++ extension) ∧ classOf name ++ extension ≠ ".." := by
  obtain ⟨hne, hsep⟩ := hname _ (classOf_mem name)
  have hdot := not_mem_of_mem_segmentsOf (classOf_mem name)
  -- the first character is no dot, so the name is none of the texts that are no parts
  cases hcs : (classOf name).toList with
  | nil => exact absurd (String.toList_eq_nil_iff.mp hcs) hne
  | cons c cs =>
    have hc : c ≠ '.' := by
      rw [hcs, List.mem_cons, not_or] at hdot
      exact Ne.symm hdot.1
    have hother : ∀ text : String, text.toList.head? ≠ some c → classOf name ++ extension ≠ text := by
      rintro text htext rfl
      rw [String.toList_append, hcs] at htext
      exact htext rfl
    refine ⟨Path.isPart_iff.mpr ⟨?_, ?_, ?_⟩, ?_⟩
    · exact hother "" (by simp)
    · exact hother "." (by simpa using Ne.symm hc)
    · rw [String.toList_append, List.mem_append, not_or]
      exact ⟨hsep, hext⟩
    · exact hother ".." (by simpa using Ne.symm hc)

/-- The file of a class as seen from the root: the folders of the package, then the file. -/
def layoutOf (extension name : String) : List String :=
  packageOf name ++ [classOf name ++ extension]

theorem isPart_of_mem_layoutOf (hname : ProperName name)
    (hext : Path.separator ∉ extension.toList) {part : String}
    (hpart : part ∈ layoutOf extension name) : Path.IsPart part ∧ part ≠ ".." := by
  rcases List.mem_append.mp hpart with h | h
  · exact isPart_of_mem_packageOf hname h
  · rw [List.mem_singleton.mp h]
    exact isPart_file hname hext

/-- Different classes have different files, whatever the names are. -/
theorem layoutOf_injective {a b : String} (h : layoutOf extension a = layoutOf extension b) :
    a = b := by
  obtain ⟨hpackage, hfile⟩ := List.append_inj' h rfl
  have hclass : classOf a = classOf b := by
    have hsame : classOf a ++ extension = classOf b ++ extension := List.singleton_inj.mp hfile
    rwa [String.append_left_inj] at hsame
  apply segmentsOf_injective
  rw [segmentsOf_eq, segmentsOf_eq, hpackage, hclass]

theorem pathFor_eq (hname : ProperName name) (hext : Path.separator ∉ sink.extension.toList) :
    sink.pathFor name = ⟨sink.root.anchor, sink.root.parts ++ layoutOf sink.extension name⟩ := by
  apply Path.joinAll_parts
  intro part hpart
  exact (isPart_of_mem_layoutOf hname hext hpart).1

/-- The place of the file of a class. -/
def placeOf (sink : TreeSink) (name : String) : Location :=
  sink.tree.spot (sink.pathFor name)

/-- The file of a class stands below the root, in the folders of the package. -/
theorem placeOf_eq (hname : ProperName name) (hext : Path.separator ∉ sink.extension.toList) :
    sink.placeOf name = sink.tree.spot sink.root ++ layoutOf sink.extension name := by
  unfold placeOf
  rw [pathFor_eq hname hext]
  exact spot_append sink.tree _ fun _ => isPart_of_mem_layoutOf hname hext

/-- So proper names have files of their own. -/
theorem placeOf_injective {a b : String} (ha : ProperName a) (hb : ProperName b)
    (hext : Path.separator ∉ sink.extension.toList) (h : sink.placeOf a = sink.placeOf b) :
    a = b := by
  rw [placeOf_eq ha hext, placeOf_eq hb hext, List.append_cancel_left_eq] at h
  exact layoutOf_injective h

end Bindery.TreeSink
