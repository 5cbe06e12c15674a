import Bindery.FileTree
import Bindery.Proofs.PathText

/-!
# How a file tree grows

Making folders and writing files never takes anything away: what was a folder stays one, and what
was a file stays a file (`Extends`). A path that led somewhere leads to the same place afterwards,
and one that was blocked stays blocked (`locate_stable`). Making folders adds nothing but folders
(`Grows`), whether it succeeds or not; if it does, the path leads to a folder (`makeFolders_spec`).
A file that could be written is where its path leads, and nothing else has changed (`putFile_spec`).

There are no links, so where a path leads can be read off its parts: `spot` is that place.
-/

namespace Bindery.FileTree

open Bindery.Text

variable {t t' u : FileTree} {p : Path} {place parent next : Location} {name : String}
  {host : Host}

/-! ## Where a path leads -/

/-- The place that a name leads to from another place. -/
def descend (place : Location) (name : String) : Location :=
  if name = "" ∨ name = "." then place
  else if name = ".." then place.dropLast
  else place ++ [name]

/-- The place that a path names. -/
def spot (t : FileTree) (p : Path) : Location :=
  p.parts.foldl descend (t.start p.anchor)

/-- Follows a path through the folders on its way. -/
def locate (t : FileTree) (p : Path) : Except Fault Location :=
  t.walk (t.start p.anchor) p.parts

/-- The first step of a walk. -/
def enter (t : FileTree) (place : Location) (name : String) : Except Fault Location :=
  match t.node? place with
  | none => .error .missing
  | some (.file _) => .error .notAFolder
  | some .folder =>
    if name = "" ∨ name = "." then .ok place
    else if name = ".." then .ok place.dropLast
    else if tooLong name then .error .nameTooLong
    else if (t.node? (place ++ [name])).isNone then .error .missing
    else .ok (place ++ [name])

theorem walk_cons (t : FileTree) (place : Location) (name : String) (rest : List String) :
    t.walk place (name :: rest) = (t.enter place name).bind fun next => t.walk next rest := by
  rw [walk]
  unfold enter
  cases t.node? place with
  | none => rfl
  | some node =>
    cases node with
    | file bytes => rfl
    | folder =>
      simp only [Bool.or_eq_true, decide_eq_true_eq]
      split_ifs <;> rfl

theorem walk_append (t : FileTree) (place : Location) (names more : List String) :
    t.walk place (names ++ more) = (t.walk place names).bind fun mid => t.walk mid more := by
  induction names generalizing place with
  | nil => rfl
  | cons name rest ih =>
    rw [List.cons_append, walk_cons, walk_cons]
    cases t.enter place name with
    | error f => rfl
    | ok next => exact ih next

theorem walk_singleton (t : FileTree) (place : Location) (name : String) :
    t.walk place [name] = t.enter place name := by
  rw [walk_cons]
  cases t.enter place name <;> rfl

theorem descend_part (place : Location) {name : String} (h : Path.IsPart name) (hup : name ≠ "..") :
    descend place name = place ++ [name] := by
  obtain ⟨hempty, hdot, -⟩ := Path.isPart_iff.mp h
  unfold descend
  rw [if_neg (by simp [hempty, hdot]), if_neg hup]

/-- Names that lead down lead to the place with these names behind. -/
theorem spot_append (t : FileTree) (p : Path) {names : List String}
    (h : ∀ name ∈ names, Path.IsPart name ∧ name ≠ "..") :
    t.spot ⟨p.anchor, p.parts ++ names⟩ = t.spot p ++ names := by
  unfold spot
  rw [List.foldl_append]
  generalize p.parts.foldl descend (t.start p.anchor) = place
  induction names generalizing place with
  | nil => simp
  | cons name rest ih =>
    obtain ⟨hname, hup⟩ := h name List.mem_cons_self
    rw [List.foldl_cons, descend_part place hname hup,
      ih fun other hother => h other (List.mem_cons_of_mem name hother)]
    simp

/-- A step that is possible is made from a folder, and goes where the name leads. -/
theorem enter_ok (h : t.enter place name = .ok next) :
    t.node? place = some .folder ∧ next = descend place name := by
  unfold enter at h
  unfold descend
  split at h
  · cases h
  · cases h
  · next hfolder =>
    refine ⟨hfolder, ?_⟩
    split_ifs at h ⊢ <;> cases h <;> rfl

/-- A step to something that is there. -/
theorem enter_part (hfolder : t.node? place = some .folder) (hname : Path.IsPart name)
    (hup : name ≠ "..") (hlong : tooLong name = false) {node : Node}
    (hnode : t.node? (place ++ [name]) = some node) :
    t.enter place name = .ok (place ++ [name]) := by
  obtain ⟨hempty, hdot, -⟩ := Path.isPart_iff.mp hname
  unfold enter
  simp [hfolder, hempty, hdot, hup, hlong, hnode]

theorem eq_of_walk {names : List String} {target : Location} (h : t.walk place names = .ok target) :
    target = names.foldl descend place := by
  induction names generalizing place with
  | nil =>
    cases h
    rfl
  | cons name rest ih =>
    rw [walk_cons] at h
    cases hstep : t.enter place name with
    | error f =>
      rw [hstep] at h
      cases h
    | ok next =>
      rw [hstep] at h
      rw [List.foldl_cons, ← (enter_ok hstep).2]
      exact ih h

theorem eq_spot_of_locate (h : t.locate p = .ok place) : place = t.spot p := eq_of_walk h

/-! ## Trees that lose nothing -/

/-- All that stands in `t` stands in `t'` too; files may have other contents. -/
structure Extends (t t' : FileTree) : Prop where
  here : t'.here = t.here
  folder : ∀ place, t.node? place = some .folder → t'.node? place = some .folder
  file : ∀ place bytes, t.node? place = some (.file bytes) →
    ∃ bytes', t'.node? place = some (.file bytes')

/-- `t'` is `t` with some more folders. -/
structure Grows (t t' : FileTree) : Prop where
  here : t'.here = t.here
  node : ∀ place, t'.node? place = t.node? place ∨
    t.node? place = none ∧ t'.node? place = some .folder

theorem Extends.trans (first : Extends t t') (second : Extends t' u) : Extends t u where
  here := second.here.trans first.here
  folder place h := second.folder place (first.folder place h)
  file place bytes h := by
    obtain ⟨bytes', h'⟩ := first.file place bytes h
    exact second.file place bytes' h'

theorem Grows.refl (t : FileTree) : Grows t t := ⟨rfl, fun _ => .inl rfl⟩

theorem Grows.kept (h : Grows t t') {node : Node} (hnode : t.node? place = some node) :
    t'.node? place = some node := by
  rcases h.node place with hsame | ⟨hnone, -⟩
  · rw [hsame, hnode]
  · rw [hnone] at hnode
    contradiction

theorem Grows.trans (first : Grows t t') (second : Grows t' u) : Grows t u := by
  refine ⟨second.here.trans first.here, fun place => ?_⟩
  rcases first.node place with hfirst | ⟨hnone, hfolder⟩
  · rw [← hfirst]
    exact second.node place
  · exact .inr ⟨hnone, second.kept hfolder⟩

theorem Grows.extends (h : Grows t t') : Extends t t' :=
  ⟨h.here, fun _ hnode => h.kept hnode, fun _ bytes hnode => ⟨bytes, h.kept hnode⟩⟩

theorem node?_set (hplace : place ≠ []) (node : Node) (q : Location) :
    (t.set place node).node? q = if q = place then some node else t.node? q := by
  unfold node? set
  by_cases htop : q = []
  · subst htop
    rw [if_pos rfl, if_neg (Ne.symm hplace), if_pos rfl]
  · rw [if_neg htop, if_neg htop, Ledger.get?_put]
    by_cases hq : q = place
    · rw [if_pos hq, if_pos (by simp [hq])]
    · rw [if_neg hq, if_neg (by simpa using Ne.symm hq)]

theorem ne_top_of_node? (h : t.node? place ≠ some .folder) : place ≠ [] := by
  intro htop
  rw [htop] at h
  exact h rfl

theorem grows_set_folder (h : t.node? place = none) : Grows t (t.set place .folder) := by
  have hplace : place ≠ [] := ne_top_of_node? (by rw [h]; simp)
  refine ⟨rfl, fun q => ?_⟩
  rw [node?_set hplace]
  by_cases hq : q = place
  · right
    rw [if_pos hq, hq]
    exact ⟨h, rfl⟩
  · left
    rw [if_neg hq]

theorem extends_set_file (h : t.node? place ≠ some .folder) (bytes : List UInt8) :
    Extends t (t.set place (.file bytes)) := by
  have hset := node?_set (t := t) (ne_top_of_node? h) (.file bytes)
  refine ⟨rfl, fun q hq => ?_, fun q old hq => ?_⟩
  · rw [hset, if_neg]
    · exact hq
    · intro hsame
      rw [hsame] at hq
      exact h hq
  · rw [hset]
    by_cases hsame : q = place
    · exact ⟨bytes, if_pos hsame⟩
    · exact ⟨old, by rw [if_neg hsame, hq]⟩

theorem start_eq (h : t'.here = t.here) (anchor : Anchor) : t'.start anchor = t.start anchor := by
  cases anchor with
  | here => exact h
  | top => rfl
  | doubleTop => rfl

theorem spot_eq (h : t'.here = t.here) (p : Path) : t'.spot p = t.spot p := by
  unfold spot
  rw [start_eq h]

/-- What stands somewhere still stands there, the same or not. -/
theorem Extends.isNone (h : Extends t t') (hthere : (t.node? place).isNone = false) :
    (t'.node? place).isNone = false := by
  obtain ⟨node, hnode⟩ := Option.isSome_iff_exists.mp (by simpa using hthere)
  cases node with
  | folder =>
    rw [h.folder _ hnode]
    rfl
  | file bytes =>
    obtain ⟨bytes', hnode'⟩ := h.file _ bytes hnode
    rw [hnode']
    rfl

/-- A step that misses nothing ends in the same way in a tree that has lost nothing. -/
theorem enter_stable (h : Extends t t') (henter : t.enter place name ≠ .error .missing) :
    t'.enter place name = t.enter place name := by
  unfold enter at henter ⊢
  cases hnode : t.node? place with
  | none => simp [hnode] at henter
  | some node =>
    cases node with
    | file bytes =>
      obtain ⟨bytes', hnode'⟩ := h.file place bytes hnode
      rw [hnode']
    | folder =>
      rw [h.folder place hnode]
      simp only [hnode] at henter ⊢
      -- the tests of the name are the same, and only the last one looks at the tree again
      split_ifs at henter ⊢ with hstay hup hlong hlost hmissing hmissing
      · rfl
      · rfl
      · rfl
      · exact absurd rfl henter
      · have hkept := h.isNone (Bool.eq_false_of_not_eq_true hmissing)
        rw [hlost] at hkept
        contradiction
      · exact absurd rfl henter
      · rfl

/-- A path that misses nothing leads to the same place, or is blocked by the same, in a tree that
has lost nothing. -/
theorem locate_stable (h : Extends t t') (hlocate : t.locate p ≠ .error .missing) :
    t'.locate p = t.locate p := by
  -- both walks take the same steps, up to the one that fails
  have hwalk : ∀ (names : List String) (place : Location), t.walk place names ≠ .error .missing →
      t'.walk place names = t.walk place names := by
    intro names
    induction names with
    | nil => exact fun _ _ => rfl
    | cons name rest ih =>
      intro place hne
      rw [walk_cons] at hne ⊢
      rw [walk_cons]
      cases hstep : t.enter place name with
      | error f =>
        rw [enter_stable h, hstep]
        · rfl
        · rintro hmissing
          rw [hmissing] at hne
          exact hne rfl
      | ok next =>
        rw [hstep] at hne
        rw [enter_stable h (by rw [hstep]; simp), hstep]
        exact ih next hne
  unfold locate
  rw [start_eq h.here]
  exact hwalk _ _ hlocate

/-! ## Looking -/

/-- The path leads to a folder. -/
structure HasFolder (t : FileTree) (p : Path) : Prop where
  located : t.locate p = .ok (t.spot p)
  node : t.node? (t.spot p) = some .folder

/-- The path can be written, and leads to a file with the given contents. -/
structure HasFile (t : FileTree) (p : Path) (bytes : List UInt8) : Prop where
  named : hasNull p.text = false
  fits : pathTooLong p.text = false
  parts_ne : p.parts ≠ []
  located : t.locate p = .ok (t.spot p)
  node : t.node? (t.spot p) = some (.file bytes)

theorem HasFolder.extends (hfolder : HasFolder t p) (h : Extends t t') : HasFolder t' p := by
  have hspot : t'.spot p = t.spot p := spot_eq h.here p
  constructor
  · rw [locate_stable h (by rw [hfolder.located]; simp), hspot, hfolder.located]
  · rw [hspot]
    exact h.folder _ hfolder.node

/-- Nothing but its contents can change for a file. -/
theorem HasFile.extends {bytes bytes' : List UInt8} (hfile : HasFile t p bytes) (h : Extends t t')
    (hnode : t'.node? (t.spot p) = some (.file bytes')) : HasFile t' p bytes' := by
  have hspot : t'.spot p = t.spot p := spot_eq h.here p
  refine ⟨hfile.named, hfile.fits, hfile.parts_ne, ?_, ?_⟩
  · rw [locate_stable h (by rw [hfile.located]; simp), hspot, hfile.located]
  · rw [hspot, hnode]

private theorem walk_lead (t : FileTree) (anchor : Anchor) (rest : List String) :
    t.walk (t.start anchor) (Path.lead anchor ++ rest) = t.walk (t.start anchor) rest := by
  have hstay : t.enter [] "" = .ok [] := rfl
  cases anchor with
  | here => rfl
  | top =>
    show t.walk [] ("" :: rest) = t.walk [] rest
    rw [walk_cons, hstay]
    rfl
  | doubleTop =>
    show t.walk [] ("" :: "" :: rest) = t.walk [] rest
    rw [walk_cons, hstay]
    show t.walk [] ("" :: rest) = t.walk [] rest
    rw [walk_cons, hstay]
    rfl

/-- What is found where a walk has led. -/
def findingAt (t : FileTree) : Except Fault Location → Finding
  | .error f => .fault f
  | .ok place =>
    match t.node? place with
    | some node => .found node
    | none => .fault .missing

theorem findingAt_eq_found_iff (t : FileTree) (led : Except Fault Location) (node : Node) :
    t.findingAt led = .found node ↔ ∃ place, led = .ok place ∧ t.node? place = some node := by
  cases led with
  | error f => simp [findingAt]
  | ok place => cases hnode : t.node? place <;> simp [findingAt, hnode]

/-- What is found at the text of a path. A path without parts has to start at a folder. -/
theorem find_text (t : FileTree) (hp : p.WellFormed) (hnull : hasNull p.text = false)
    (hfits : pathTooLong p.text = false) :
    t.find p.text = t.findingAt
      (if p.parts = [] then t.enter (t.start p.anchor) (Path.noPart p.anchor) else t.locate p) := by
  have hne : p.text.isEmpty = false := by
    rw [Path.text_eq]
    split
    · rfl
    · next h => simpa using h
  have hwalk : t.walk (t.start (Path.anchorOf p.text.toList))
      ((segments Path.separator p.text.toList).map String.ofList) =
      if p.parts = [] then t.enter (t.start p.anchor) (Path.noPart p.anchor) else t.locate p := by
    rw [Path.anchorOf_text hp, Path.names_text hp, walk_lead]
    split
    · exact walk_singleton t _ _
    · rfl
  rw [← hwalk]
  unfold find
  simp only [hnull, hne, hfits, Bool.false_eq_true, if_false]
  rfl

theorem HasFile.find {bytes : List UInt8} (hp : p.WellFormed) (h : HasFile t p bytes) :
    t.find p.text = .found (.file bytes) := by
  rw [find_text t hp h.named h.fits, if_neg h.parts_ne, findingAt_eq_found_iff]
  exact ⟨t.spot p, h.located, h.node⟩

/-- What a path leads to is where its names lead. -/
theorem hasFolder_iff :
    HasFolder t p ↔ ∃ place, t.locate p = .ok place ∧ t.node? place = some .folder := by
  refine ⟨fun h => ⟨_, h.located, h.node⟩, ?_⟩
  rintro ⟨place, hlocate, hnode⟩
  obtain rfl := eq_spot_of_locate hlocate
  exact ⟨hlocate, hnode⟩

/-- What stands in place of a part stays in a folder. -/
theorem enter_noPart_iff (t : FileTree) (anchor : Anchor) :
    t.enter place (Path.noPart anchor) = .ok next ↔
      place = next ∧ t.node? place = some .folder := by
  have hstay : Path.noPart anchor = "" ∨ Path.noPart anchor = "." := by
    cases anchor <;> simp [Path.noPart]
  unfold enter
  rw [if_pos hstay]
  cases hnode : t.node? place with
  | none => simp
  | some node => cases node <;> simp

theorem isFolder_iff (hp : p.WellFormed) :
    t.isFolder p = true ↔
      hasNull p.text = false ∧ pathTooLong p.text = false ∧ HasFolder t p := by
  unfold isFolder
  rw [beq_iff_eq]
  by_cases hnull : hasNull p.text = true
  · simp [find, hnull]
  rw [Bool.not_eq_true] at hnull
  by_cases hfits : pathTooLong p.text = true
  · have hfind : t.find p.text ≠ .found .folder := by
      unfold find
      simp only [hnull, hfits, Bool.false_eq_true, if_false, if_true]
      split <;> simp
    simp [hfind, hfits]
  rw [Bool.not_eq_true] at hfits
  rw [find_text t hp hnull hfits, findingAt_eq_found_iff, hasFolder_iff]
  simp only [hnull, hfits, true_and]
  by_cases hparts : p.parts = []
  · have hlocate : t.locate p = .ok (t.start p.anchor) := by
      unfold locate
      rw [hparts]
      rfl
    rw [if_pos hparts, hlocate]
    constructor
    · rintro ⟨place, henter, hnode⟩
      obtain ⟨rfl, -⟩ := (enter_noPart_iff t p.anchor).mp henter
      exact ⟨_, rfl, hnode⟩
    · rintro ⟨place, hstart, hnode⟩
      obtain rfl := Except.ok.inj hstart
      exact ⟨_, (enter_noPart_iff t p.anchor).mpr ⟨rfl, hnode⟩, hnode⟩
  · rw [if_neg hparts]

/-! ## Folders made -/

/-- A path whose last name is known, by the path of the folder above. -/
theorem locate_child (t : FileTree) (hparts : p.parts = p.parent.parts ++ [name]) :
    t.locate p = (t.locate p.parent).bind fun place => t.enter place name := by
  unfold locate
  rw [hparts, walk_append]
  congr 1
  funext place
  exact walk_singleton t place name

/-- What is to be made is made in a folder that is there, by a name that it can have. -/
theorem target_entry (h : t.target p = .ok (.entry parent name)) :
    p.parts = p.parent.parts ++ [name] ∧ t.locate p.parent = .ok parent ∧
      t.node? parent = some .folder ∧ name ≠ ".." ∧ tooLong name = false ∧
      pathTooLong p.text = false := by
  unfold target at h
  split at h
  · cases h
  · next hfits =>
    split at h
    · cases h
    · next last hlast =>
      split at h
      · cases h
      · next place hwalk =>
        split at h
        · cases h
        · cases h
        · next hfolder =>
          split at h
          · cases h
          · next hup =>
            split at h
            · cases h
            · next hlong =>
              cases h
              refine ⟨?_, hwalk, hfolder, hup, by simpa using hlong, by simpa using hfits⟩
              exact (List.dropLast_append_getLast? name hlast).symm

/-- Once something is made, its path leads to it. -/
theorem located_of_target (hp : p.WellFormed) (h : t.target p = .ok (.entry parent name))
    (hext : Extends t t') {node : Node} (hnode : t'.node? (parent ++ [name]) = some node) :
    t'.locate p = .ok (parent ++ [name]) ∧ t.spot p = parent ++ [name] := by
  obtain ⟨hparts, hparent, hfolder, hup, hlong, -⟩ := target_entry h
  have hname : Path.IsPart name := hp name (by rw [hparts]; simp)
  have hlocate : t'.locate p = .ok (parent ++ [name]) := by
    rw [locate_child t' hparts, locate_stable hext (by rw [hparent]; simp), hparent]
    exact enter_part (hext.folder parent hfolder) hname hup hlong hnode
  refine ⟨hlocate, ?_⟩
  rw [← spot_eq hext.here p]
  exact (eq_spot_of_locate hlocate).symm

theorem makeFolder_spec (hp : p.WellFormed) (h : t.makeFolder p = .ok t') :
    Grows t t' ∧ HasFolder t' p ∧ ∀ q ≠ t.spot p, t'.node? q = t.node? q := by
  unfold makeFolder at h
  split at h
  · cases h
  · cases h
  · next parent name htarget =>
    split at h
    · cases h
    · next hfree =>
      cases h
      have hnone : t.node? (parent ++ [name]) = none := by simpa using hfree
      have hgrows := grows_set_folder hnone
      have hset := @node?_set t (parent ++ [name]) (by simp) .folder
      have hnode : (t.set (parent ++ [name]) .folder).node? (parent ++ [name]) = some .folder := by
        rw [hset, if_pos rfl]
      obtain ⟨hlocate, hspot⟩ := located_of_target hp htarget hgrows.extends hnode
      refine ⟨hgrows, ⟨?_, ?_⟩, fun q hq => ?_⟩
      · rw [hlocate, spot_eq hgrows.here, hspot]
      · rw [spot_eq hgrows.here, hspot, hnode]
      · rw [hspot] at hq
        rw [hset, if_neg hq]

theorem needFolder_spec (hp : p.WellFormed) (h : t.needFolder host p = .ok t') :
    Grows t t' ∧ HasFolder t' p ∧ ∀ q ≠ t.spot p, t'.node? q = t.node? q := by
  unfold needFolder at h
  split at h
  · cases h
  split at h
  · next made hmade =>
    cases h
    exact makeFolder_spec hp hmade
  · cases h
  · split at h
    · next hfolder =>
      cases h
      exact ⟨.refl t, ((isFolder_iff hp).mp hfolder).2.2, fun _ _ => rfl⟩
    · cases h

section

variable {anchor : Anchor} {parts above : List String} {room : Nat}

/-- A folder that is there, or can be made in the one above, needs nothing else. -/
theorem makeFoldersFor_of_ok (h : t.needFolder host ⟨anchor, parts.reverse⟩ = .ok t') :
    makeFoldersFor host anchor (room + 1) parts t = (.ok (), t') := by
  cases parts with
  | nil =>
    rw [List.reverse_nil] at h
    simp only [makeFoldersFor, h]
  | cons name above => simp only [makeFoldersFor, h]

/-- Where more than the folder above is amiss nothing is made. -/
theorem makeFoldersFor_of_error {f : Fault}
    (h : t.needFolder host ⟨anchor, parts.reverse⟩ = .error f) (hf : f ≠ .missing) :
    makeFoldersFor host anchor (room + 1) parts t = (.error (.met f ⟨anchor, parts.reverse⟩), t) := by
  cases parts with
  | nil =>
    rw [List.reverse_nil] at h
    simp only [makeFoldersFor, h, List.reverse_nil]
  | cons name above =>
    cases f with
    | missing => contradiction
    | taken | notAFolder | isAFolder | nameTooLong | other => simp only [makeFoldersFor, h]

/-- A folder that is missing above is made first, with one call less to be nested. -/
theorem makeFoldersFor_of_missing
    (h : t.needFolder host ⟨anchor, (name :: above).reverse⟩ = .error .missing) :
    makeFoldersFor host anchor (room + 1) (name :: above) t =
      match makeFoldersFor host anchor room above t with
      | (.error e, made) => (.error e, made)
      | (.ok (), made) =>
        match made.needFolder host ⟨anchor, (name :: above).reverse⟩ with
        | .ok last => (.ok (), last)
        | .error f => (.error (.met f ⟨anchor, (name :: above).reverse⟩), made) := by
  rw [makeFoldersFor]
  rcases makeFoldersFor host anchor room above t with ⟨e | _, made⟩
  · simp only [h]
  · cases hneed : made.needFolder host ⟨anchor, (name :: above).reverse⟩ with
    | ok last => simp only [h, hneed]
    | error f => simp only [h, hneed]

end

/-- The folders are there once the last one is, which is made at once or after those above it; what
goes wrong leaves the tree as it is by then. -/
theorem makeFoldersFor_cases (host : Host) (t : FileTree) (anchor : Anchor) (room : Nat)
    (parts : List String) :
    (∃ made, t.needFolder host ⟨anchor, parts.reverse⟩ = .ok made ∧
      makeFoldersFor host anchor room parts t = (.ok (), made)) ∨
    (∃ e, makeFoldersFor host anchor room parts t = (.error e, t)) ∨
    ∃ less name above, room = less + 1 ∧ parts = name :: above ∧
      ((∃ e, makeFoldersFor host anchor room parts t =
          (.error e, (makeFoldersFor host anchor less above t).2)) ∨
        ∃ made, (makeFoldersFor host anchor less above t).2.needFolder host
            ⟨anchor, parts.reverse⟩ = .ok made ∧
          makeFoldersFor host anchor room parts t = (.ok (), made)) := by
  cases room with
  | zero => exact .inr (.inl ⟨_, rfl⟩)
  | succ room =>
    cases hneed : t.needFolder host ⟨anchor, parts.reverse⟩ with
    | ok made => exact .inl ⟨made, rfl, makeFoldersFor_of_ok hneed⟩
    | error f =>
      by_cases hmissing : f = .missing
      · subst hmissing
        cases parts with
        | nil =>
          rw [List.reverse_nil] at hneed
          exact .inr (.inl ⟨.met .missing ⟨anchor, []⟩, by simp only [makeFoldersFor, hneed]⟩)
        | cons name above =>
          refine .inr (.inr ⟨room, name, above, rfl, rfl, ?_⟩)
          rw [makeFoldersFor_of_missing hneed]
          rcases makeFoldersFor host anchor room above t with ⟨e | _, mid⟩
          · exact .inl ⟨e, rfl⟩
          · cases hagain : mid.needFolder host ⟨anchor, (name :: above).reverse⟩ with
            | ok made => exact .inr ⟨made, rfl, by simp only [hagain]⟩
            | error f =>
              exact .inl ⟨.met f ⟨anchor, (name :: above).reverse⟩, by simp only [hagain]⟩
      · exact .inr (.inl ⟨_, makeFoldersFor_of_error hneed hmissing⟩)

/-- What is kept by making any folder on the way is kept by making them all. -/
theorem makeFolders_induction {P : FileTree → Prop} {p : Path}
    (hneed : ∀ above, above <+: p.parts →
      ∀ t t', t.needFolder host ⟨p.anchor, above⟩ = .ok t' → P t → P t')
    (h : P t) : P (t.makeFolders host p).2 := by
  suffices hall : ∀ room parts, parts.reverse <+: p.parts →
      P (makeFoldersFor host p.anchor room parts t).2 by
    apply hall
    rw [List.reverse_reverse]
  intro room
  -- the calls that are nested have one part less each
  induction room with
  | zero => exact fun _ _ => h
  | succ room ih =>
    intro parts hparts
    rcases makeFoldersFor_cases host t p.anchor (room + 1) parts with
      ⟨made, hmake, hmade⟩ | ⟨e, hfail⟩ | ⟨less, name, above, hless, rfl, hinner⟩
    · rw [hmade]
      exact hneed _ hparts t made hmake h
    · rw [hfail]
      exact h
    · obtain rfl := Nat.succ.inj hless
      have habove : above.reverse <+: p.parts := by
        refine .trans ?_ hparts
        rw [List.reverse_cons]
        exact List.prefix_append _ _
      rcases hinner with ⟨e, hfail⟩ | ⟨made, hmake, hmade⟩
      · rw [hfail]
        exact ih above habove
      · rw [hmade]
        exact hneed _ hparts _ made hmake (ih above habove)

/-- Folders that could be made are there. -/
theorem hasFolder_makeFolders (hp : p.WellFormed) (h : (t.makeFolders host p).1 = .ok ()) :
    HasFolder (t.makeFolders host p).2 p := by
  have hback : (⟨p.anchor, p.parts.reverse.reverse⟩ : Path) = p := by rw [List.reverse_reverse]
  unfold makeFolders at h ⊢
  rcases makeFoldersFor_cases host t p.anchor host.room p.parts.reverse with
    ⟨made, hneed, hmade⟩ | ⟨e, hfail⟩ | ⟨_, _, _, _, _, ⟨e, hfail⟩ | ⟨made, hneed, hmade⟩⟩
  · rw [hback] at hneed
    rw [hmade]
    exact (needFolder_spec hp hneed).2.1
  · rw [hfail] at h
    cases h
  · rw [hfail] at h
    cases h
  · rw [hback] at hneed
    rw [hmade]
    exact (needFolder_spec hp hneed).2.1

/-- Making folders adds folders and nothing else, and if it succeeds the path leads to one. -/
theorem makeFolders_spec (host : Host) (hp : p.WellFormed) (t : FileTree) :
    Grows t (t.makeFolders host p).2 ∧
      ((t.makeFolders host p).1 = .ok () → HasFolder (t.makeFolders host p).2 p) := by
  refine ⟨?_, hasFolder_makeFolders hp⟩
  apply makeFolders_induction _ (Grows.refl t)
  intro above habove t₁ t₂ hneed hgrows
  exact hgrows.trans (needFolder_spec (hp.above habove) hneed).1

/-- Nothing is new but the folders on the way. -/
theorem makeFolders_elsewhere (hp : p.WellFormed) {q : Location}
    (hq : ∀ above, above <+: p.parts → q ≠ t.spot ⟨p.anchor, above⟩) :
    (t.makeFolders host p).2.node? q = t.node? q := by
  have hkept : (t.makeFolders host p).2.here = t.here ∧
      (t.makeFolders host p).2.node? q = t.node? q := by
    apply makeFolders_induction (P := fun u => u.here = t.here ∧ u.node? q = t.node? q) _ ⟨rfl, rfl⟩
    intro above habove t₁ t₂ hneed ⟨hhere, hnode⟩
    obtain ⟨hgrows, -, helse⟩ := needFolder_spec (hp.above habove) hneed
    refine ⟨hgrows.here.trans hhere, ?_⟩
    rw [helse q, hnode]
    rw [spot_eq hhere]
    exact hq above habove
  exact hkept.2

/-! ## Files written -/

/-- A file that could be written is where its path leads, and nothing else has changed. -/
theorem putFile_spec (hp : p.WellFormed) {bytes : List UInt8} (h : t.putFile p bytes = .ok t')
    (hnull : hasNull p.text = false) :
    t' = t.set (t.spot p) (.file bytes) ∧ t.node? (t.spot p) ≠ some .folder ∧
      HasFile t' p bytes := by
  unfold putFile at h
  split at h
  · cases h
  · cases h
  · next parent name htarget =>
    split at h
    · cases h
    · next hfree =>
      cases h
      obtain ⟨hparts, -, -, -, -, hfits⟩ := target_entry htarget
      have hext := extends_set_file hfree bytes
      have hnode : (t.set (parent ++ [name]) (.file bytes)).node? (parent ++ [name]) =
          some (.file bytes) := by
        rw [node?_set (by simp), if_pos rfl]
      obtain ⟨hlocate, hspot⟩ := located_of_target hp htarget hext hnode
      refine ⟨by rw [hspot], by rw [hspot]; exact hfree, hnull, hfits, ?_, ?_, ?_⟩
      · rw [hparts]
        simp
      · rw [hlocate, spot_eq hext.here, hspot]
      · rw [spot_eq hext.here, hspot, hnode]

/-- A file that cannot be written is not opened, or holds a beginning of what it was to hold. -/
theorem writeFile_cases (host : Host) (t : FileTree) (p : Path) (contents : List UInt8) :
    (∃ cause, t.writeFile host p contents = (.error (.notOpened cause), t)) ∨
    (∃ cause count after, t.writeFile host p contents = (.error (.brokenOff cause), after) ∧
      host.breaksOff t p = some (count, cause) ∧
      t.putFile p (contents.take count) = .ok after) ∨
    ∃ after, t.writeFile host p contents = (.ok (), after) ∧ t.putFile p contents = .ok after := by
  unfold writeFile
  cases host.refusesFile t p with
  | some f => exact .inl ⟨f, rfl⟩
  | none =>
    cases host.breaksOff t p with
    | none =>
      cases hput : t.putFile p contents with
      | error f => exact .inl ⟨f, rfl⟩
      | ok after => exact .inr (.inr ⟨after, rfl, rfl⟩)
    | some broken =>
      obtain ⟨count, cause⟩ := broken
      cases hput : t.putFile p (contents.take count) with
      | error f => exact .inl ⟨f, by simp only [hput]⟩
      | ok after => exact .inr (.inl ⟨cause, count, after, by simp only [hput], rfl, hput⟩)

end Bindery.FileTree
