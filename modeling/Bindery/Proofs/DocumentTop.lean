import Bindery.Proofs.Loading

/-!
# What stands at the top of a file

A configuration file should be a mapping at its top, or hold nothing at all (`wanted`). The reading
looks first whether the value counts as true, so that a file without a document gives the empty
mapping, and only then whether it is a mapping. In between fall the values that count as false though
they are something and no mapping (`Hollow`): they are read as if nothing were there.

`top_wanted_iff` says that these are all that goes wrong: every other value is taken for what it
should be, and whatever is no mapping is refused, by the loading of the settings too.
-/

namespace Bindery.Config

open Yaml

/-- What a document at the top of a file should be taken for. -/
def wanted (path : String) (d : Document) : Except FileFault Draft :=
  match d.top with
  | .mapping entries => .ok ⟨entries, d.parts⟩
  | .scalar .null => .ok .empty
  | _ => .error (.notAMapping path)

/-- What counts as false, but is neither a mapping nor nothing at all. -/
inductive Hollow : Datum → Prop
  | no : Hollow (.scalar (.bool false))
  | zero : Hollow (.scalar (.int 0))
  | fraction (x : Binary64) (h : x.reading.compare? (.ofInt 0) = some .eq) :
    Hollow (.scalar (.float x))
  | text : Hollow (.scalar (.text ""))
  | bytes : Hollow (.scalar (.bytes []))
  | tuple : Hollow (.tuple [])
  | list : Hollow (.list [])
  | set : Hollow (.set [])

/-- Of what should be refused, the hollow is what counts as false. -/
theorem hollow_iff (path : String) {d : Document} {fault : FileFault}
    (h : wanted path d = .error fault) : Hollow d.top ↔ d.top.truthy = false := by
  unfold wanted at h
  constructor
  · intro hhollow
    generalize d.top = top at hhollow
    cases hhollow <;> simp_all [Datum.truthy, Value.truthy]
  · -- the other way: one case for each kind, in which only one value counts as false
    intro hfalse
    generalize d.top = top at h hfalse ⊢
    cases top with
    | mapping entries => contradiction
    | ragged glyphs | back number => contradiction
    | scalar s =>
      cases s with
      | null => contradiction
      | bool b =>
        obtain rfl : b = false := hfalse
        exact .no
      | int n =>
        obtain rfl : n = 0 := by simpa [Datum.truthy, Value.truthy] using hfalse
        exact .zero
      | float x => exact .fraction x (by simpa [Datum.truthy, Value.truthy] using hfalse)
      | text s =>
        obtain rfl : s = "" := by simpa [Datum.truthy, Value.truthy] using hfalse
        exact .text
      | bytes bs =>
        obtain rfl : bs = [] := by simpa [Datum.truthy, Value.truthy] using hfalse
        exact .bytes
      | date _ | moment _ => contradiction
    | tuple items =>
      obtain rfl : items = [] := by simpa [Datum.truthy] using hfalse
      exact .tuple
    | list items =>
      obtain rfl : items = [] := by simpa [Datum.truthy] using hfalse
      exact .list
    | set items =>
      obtain rfl : items = [] := by simpa [Datum.truthy] using hfalse
      exact .set

/-- What is hollow should be refused. -/
theorem Hollow.wanted {d : Document} (h : Hollow d.top) (path : String) :
    wanted path d = .error (.notAMapping path) := by
  unfold Config.wanted
  generalize d.top = top at h
  cases h <;> rfl

theorem wanted_cases (path : String) (d : Document) :
    wanted path d = .error (.notAMapping path) ∨ mappingOf path d = wanted path d := by
  obtain ⟨top, parts⟩ := d
  match top with
  | .mapping entries => exact .inr rfl
  | .scalar .null => exact .inr rfl
  | .scalar (.bool _) | .scalar (.int _) | .scalar (.float _) | .scalar (.text _)
  | .scalar (.bytes _) | .scalar (.date _) | .scalar (.moment _) | .ragged _ | .tuple _ | .list _
  | .set _ | .back _ =>
    exact .inl rfl

/-- What should be refused is refused if it counts as true, and else taken for nothing. -/
theorem mappingOf_of_refused {path : String} {d : Document}
    (h : wanted path d = .error (.notAMapping path)) :
    mappingOf path d = if d.top.truthy then .error (.notAMapping path) else .ok .empty := by
  unfold mappingOf
  split
  · next entries htop =>
    unfold wanted at h
    rw [htop] at h
    contradiction
  · rfl

theorem Hollow.mappingOf {d : Document} (h : Hollow d.top) (path : String) :
    mappingOf path d = .ok .empty := by
  have hrefused := h.wanted path
  rw [mappingOf_of_refused hrefused, (hollow_iff path hrefused).mp h]
  rfl

/-- Which documents are taken for what they should be. -/
theorem mappingOf_eq_wanted_iff (path : String) (d : Document) :
    mappingOf path d = wanted path d ↔ ¬ Hollow d.top := by
  constructor
  · intro h hhollow
    rw [hhollow.mappingOf, hhollow.wanted] at h
    contradiction
  · intro hnot
    rcases wanted_cases path d with hrefused | hsame
    · rw [mappingOf_of_refused hrefused, hrefused, if_pos]
      rwa [hollow_iff path hrefused, Bool.not_eq_false] at hnot
    · exact hsame

/-! ## Reading and loading -/

/-- What a file with a document is taken for is up to the document. -/
theorem fileMapping_of_document {contents : List UInt8} {d : Document} (path : String)
    (hdocument : document (.ofBytes contents) = .ok d) :
    fileMapping path (.found (.file contents)) = mappingOf path d := by
  show readContents path contents = mappingOf path d
  unfold readContents
  rw [hdocument]

section

variable {find : String → FileTree.Finding} {env : Environment} {asked : Option String}
  {mark path : String} {contents : List UInt8}

/-- A file that is read as the empty mapping is like none. -/
theorem load_of_empty (hpath : choosePath asked mark env = path)
    (hfound : find path = .found (.file contents))
    (hempty : fileMapping path (.found (.file contents)) = .ok .empty) :
    (load find env asked mark).1 = (load (fun _ => .fault .missing) env asked mark).1 := by
  have hfile : (fileLayer path (find path)).1 = .ok .empty := by
    rw [hfound]
    exact fileLayer_eq_ok_iff.mpr hempty
  rw [load_eq, load_eq, layers_outcome, layers_outcome, hpath, hfile]
  rfl

/-- The fault of a file is what loading ends with. -/
theorem load_of_fault {fault : FileFault} (hpath : choosePath asked mark env = path)
    (hfound : find path = .found (.file contents))
    (hfault : fileMapping path (.found (.file contents)) = .error fault) :
    (load find env asked mark).1 = .error (.file fault) := by
  have hfile : (fileLayer path (find path)).1 = .error fault := by
    rw [hfound]
    show (fileMapping path (.found (.file contents))).map Draft.overNothing = _
    rw [hfault]
    rfl
  rw [load_eq, layers_outcome, hpath, hfile]
  rfl

end

/-- When a file is taken for what it should be: exactly if its document is not hollow, that is
neither false nor a zero nor an empty text, sequence or set. So everything else that is no mapping
is refused, with a failure of the configuration, by loading too; a list that holds itself is no
exception, and a mapping that does is taken. What is hollow is read as the empty mapping, and
loading goes on as if there were no file. -/
theorem top_wanted_iff (path : String) (contents : List UInt8) :
    let read := fileMapping path (.found (.file contents))
    (∀ d, document (.ofBytes contents) = .ok d →
      (read = wanted path d ↔ ¬ Hollow d.top) ∧ (Hollow d.top → read = .ok .empty)) ∧
    fileMapping path (.fault .missing) = .ok .empty ∧
    ∀ find env asked mark, choosePath asked mark env = path →
      find path = .found (.file contents) →
      ∀ d, document (.ofBytes contents) = .ok d →
        (Hollow d.top →
          (load find env asked mark).1 = (load (fun _ => .fault .missing) env asked mark).1) ∧
        ∀ fault, wanted path d = .error fault → ¬ Hollow d.top →
          (load find env asked mark).1 = .error (.file fault) ∧
            (LoadFailure.file fault).kind? = some .configuration := by
  intro read
  have hread : ∀ d, document (.ofBytes contents) = .ok d → read = mappingOf path d :=
    fun d hd => fileMapping_of_document path hd
  refine ⟨?_, rfl, ?_⟩
  · intro d hd
    rw [hread d hd]
    exact ⟨mappingOf_eq_wanted_iff path d, fun h => h.mappingOf path⟩
  · intro find env asked mark hpath hfound d hd
    refine ⟨?_, ?_⟩
    · intro hhollow
      exact load_of_empty hpath hfound ((hread d hd).trans (hhollow.mappingOf path))
    · intro fault hrefused hsolid
      have htaken := ((mappingOf_eq_wanted_iff path d).mpr hsolid).trans hrefused
      exact ⟨load_of_fault hpath hfound ((hread d hd).trans htaken), kind?_of_mappingOf htaken⟩

/-- Whether a document is a list, empty or with something in it. -/
private def isList (empty : Bool) (d : Document) : Bool :=
  match d.top with
  | .list items => items.isEmpty == empty
  | _ => false

/-- A document that is a list. -/
private theorem exists_list {ε : Type} {x : Except ε Document} {empty : Bool}
    (h : x.toOption.any (isList empty) = true) :
    ∃ d items, x = .ok d ∧ d.top = .list items ∧ items.isEmpty = empty := by
  cases x with
  | error e => contradiction
  | ok d =>
    have hlist : isList empty d = true := h
    unfold isList at hlist
    split at hlist
    · next items htop => exact ⟨d, items, rfl, htop, eq_of_beq hlist⟩
    · contradiction

/-- A list with something in it is refused, and an empty one is read as if nothing were there. -/
theorem top_wanted_iff_sample :
    (fileMapping "c.yaml" (.found (.file (Text.encode "- {}"))) = .error (.notAMapping "c.yaml") ∧
      (load (fun _ => .found (.file (Text.encode "- {}"))) [] (some "c.yaml") defaultMark).1 =
        .error (.file (.notAMapping "c.yaml"))) ∧
    (load (fun _ => .found (.file (Text.encode "--- []"))) [] (some "c.yaml") defaultMark).1 =
      (load (fun _ => .fault .missing) [] (some "c.yaml") defaultMark).1 := by
  obtain ⟨full, items, hfull, htop, hsome⟩ : ∃ d items,
      document (.ofBytes (Text.encode "- {}")) = .ok d ∧ d.top = .list items ∧
        items.isEmpty = false := exists_list (by decide +kernel)
  obtain ⟨bare, nothing, hbare, hbaretop, hnone⟩ : ∃ d items,
      document (.ofBytes (Text.encode "--- []")) = .ok d ∧ d.top = .list items ∧
        items.isEmpty = true := exists_list (by decide +kernel)
  have hrefused : wanted "c.yaml" full = .error (.notAMapping "c.yaml") := by
    unfold wanted
    rw [htop]
  have hsolid : ¬ Hollow full.top := by
    rw [hollow_iff "c.yaml" hrefused, htop]
    simp [Datum.truthy, hsome]
  have hhollow : Hollow bare.top := by
    rw [hbaretop, List.isEmpty_iff.mp hnone]
    exact .list
  have hpath : choosePath (some "c.yaml") defaultMark [] = "c.yaml" := rfl
  obtain ⟨hread, -, hload⟩ := top_wanted_iff "c.yaml" (Text.encode "- {}")
  obtain ⟨-, -, hempty⟩ := top_wanted_iff "c.yaml" (Text.encode "--- []")
  refine ⟨⟨?_, ?_⟩, ?_⟩
  · exact ((hread _ hfull).1.mpr hsolid).trans hrefused
  · exact ((hload _ _ _ _ hpath rfl _ hfull).2 _ hrefused hsolid).1
  · exact (hempty _ _ _ _ hpath rfl _ hbare).1 hhollow

/-- A file with an empty list is read as the empty mapping and not refused, and loading gives what
the settings are where nothing is given. -/
theorem top_not_wanted :
    (∃ d, document (.ofBytes (Text.encode "[]")) = .ok d ∧
      wanted "bindgen.yaml" d = .error (.notAMapping "bindgen.yaml") ∧
      fileMapping "bindgen.yaml" (.found (.file (Text.encode "[]"))) = .ok .empty) ∧
      (load (fun _ => .found (.file (Text.encode "[]"))) [] none defaultMark).1 =
        .ok Settings.standard := by
  obtain ⟨d, items, hdocument, htop, hempty⟩ : ∃ d items,
      document (.ofBytes (Text.encode "[]")) = .ok d ∧ d.top = .list items ∧
        items.isEmpty = true := exists_list (by decide +kernel)
  have hhollow : Hollow d.top := by
    rw [htop, List.isEmpty_iff.mp hempty]
    exact .list
  refine ⟨⟨d, hdocument, hhollow.wanted _, ?_⟩, eq_ok_of_toOption (by decide +kernel)⟩
  rw [fileMapping_of_document "bindgen.yaml" hdocument]
  exact hhollow.mappingOf "bindgen.yaml"

end Bindery.Config
