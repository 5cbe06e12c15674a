import Bindery.Proofs.FoldersMade
import Bindery.Proofs.SourceFiles

/-!
# Files that mirror the sources in memory

On a host that goes along with everything, a sink that writes to files and one that keeps the sources
in memory take and refuse the same sources, if the root is empty and every name can be the name of a
file that is not too deep for the host (`files_mirror_memory`).
What ties the two is the way the tree is laid out below the root (`LaidOut`): a file for each
source and the folders of its package, and nothing else. A new source keeps it that way
(`LaidOut.add`). Nothing is ever in the way of a source: every file has a dot in its name and no
folder has one (`layoutOf_not_above`), so that a class and a package can share a name.
-/

namespace Bindery

open Bindery.Text

/-- What the calls of a run come to, in order. -/
def outcomes {κ : Type} (write : Writing κ) :
    List (String × String) → κ → List (Except SinkFault Unit)
  | [], _ => []
  | call :: rest, sink =>
    let (outcome, sink) := write call.1 call.2 sink
    outcome.map (fun _ => ()) :: outcomes write rest sink

namespace TreeSink

open FileTree

variable {host : Host} {start sink : TreeSink} {files : Ledger String String}
  {name contents : String}

/-! ## What is asked of roots, extensions and names -/

/-- The root can be made, and then nothing is in it. -/
structure EmptyRoot (host : Host) (start : TreeSink) : Prop where
  named : hasNull start.root.text = false
  made : (start.tree.makeFolders host start.root).1 = .ok ()
  empty : ∀ names ≠ [],
    (start.tree.makeFolders host start.root).2.node? (start.tree.spot start.root ++ names) = none

/-- A root with nothing in it, there or not, is empty once it is made, unless its path leads up on
the way: only folders on the way are made with it. -/
theorem EmptyRoot.of_plain (hroot : start.root.WellFormed) (hup : ".." ∉ start.root.parts)
    (hnamed : hasNull start.root.text = false)
    (hmade : (start.tree.makeFolders host start.root).1 = .ok ())
    (hnone : ∀ names ≠ [], start.tree.node? (start.tree.spot start.root ++ names) = none) :
    EmptyRoot host start := by
  have hspot : ∀ above, above <+: start.root.parts →
      start.tree.spot ⟨start.root.anchor, above⟩ = start.tree.start start.root.anchor ++ above := by
    intro above habove
    apply spot_append start.tree ⟨start.root.anchor, []⟩
    intro name hname
    have hmem := habove.subset hname
    exact ⟨hroot name hmem, fun h => hup (h ▸ hmem)⟩
  refine ⟨hnamed, hmade, fun names hne => ?_⟩
  rw [makeFolders_elsewhere hroot, hnone names hne]
  intro above habove hsame
  have hdeeper := congrArg List.length hsame
  have hlength := habove.length_le
  have hpos := List.length_pos_of_ne_nil hne
  have hself := hspot start.root.parts List.prefix_rfl
  rw [hspot above habove, hself, List.length_append, List.length_append, List.length_append]
    at hdeeper
  omega

/-- An extension that tells files from folders and can be part of the name of a file. -/
structure FitExtension (extension : String) : Prop where
  dot : '.' ∈ extension.toList
  sep : Path.separator ∉ extension.toList
  named : '\x00' ∉ extension.toList

/-- A class whose file can be written below the root, with a call for each part of its path. -/
structure FitClass (host : Host) (start : TreeSink) (name : String) : Prop where
  proper : ProperName name
  named : '\x00' ∉ name.toList
  short : ∀ part ∈ layoutOf start.extension name, tooLong part = false
  fits : pathTooLong (start.pathFor name).text = false
  shallow : (start.pathFor name).parts.length ≤ host.room

/-! ## The way a tree is laid out -/

/-- Below the root there is a file for each source and a folder for each package on the way to it,
and nothing else. -/
structure LaidOut (start : TreeSink) (files : Ledger String String) (tree : FileTree) : Prop where
  file : ∀ names ≠ [], ∀ bytes,
    tree.node? (start.tree.spot start.root ++ names) = some (.file bytes) ↔
      ∃ entry ∈ files, layoutOf start.extension entry.1 = names ∧ encode entry.2 = bytes
  folder : ∀ names ≠ [],
    tree.node? (start.tree.spot start.root ++ names) = some .folder ↔
      ∃ entry ∈ files, names <+: packageOf entry.1

theorem layoutOf_ne_nil (extension name : String) : layoutOf extension name ≠ [] := by
  simp [layoutOf]

/-- No file can be taken for the folder of a package: folders have no dot in their names. -/
theorem layoutOf_not_above {extension : String} (hdot : '.' ∈ extension.toList) (a b : String) :
    ¬ layoutOf extension a <+: packageOf b := by
  intro hbegins
  have hmem : classOf a ++ extension ∈ packageOf b := hbegins.subset (by simp [layoutOf])
  apply not_mem_of_mem_segmentsOf (mem_segmentsOf_of_mem_packageOf hmem)
  rw [String.toList_append, List.mem_append]
  exact .inr hdot

/-- A tree with nothing below the root has no source in it. -/
theorem LaidOut.none {tree : FileTree}
    (h : ∀ names ≠ [], tree.node? (start.tree.spot start.root ++ names) = none) :
    LaidOut start [] tree where
  file names hne bytes := by simp [h names hne]
  folder names hne := by simp [h names hne]

/-- What it is to add a source to a tree: there is its file, and the folders above it as far as the
root, and everything else is as it was. -/
def WithSource (start : TreeSink) (name contents : String) (before after : FileTree) : Prop :=
  ∀ q, after.node? q =
    if q = start.tree.spot start.root ++ layoutOf start.extension name then
      some (.file (encode contents))
    else if start.tree.spot start.root <+: q ∧
        q <+: start.tree.spot start.root ++ packageOf name then some .folder
    else before.node? q

section

variable {tree after : FileTree}

/-- What stands below the root, by the names on the way from there. -/
theorem WithSource.node?_below (h : WithSource start name contents tree after)
    (names : List String) :
    after.node? (start.tree.spot start.root ++ names) =
      if names = layoutOf start.extension name then some (.file (encode contents))
      else if names <+: packageOf name then some .folder
      else tree.node? (start.tree.spot start.root ++ names) := by
  rw [h]
  simp only [List.append_cancel_left_eq, List.prefix_append, true_and,
    List.prefix_append_right_inj]

/-- A new source has a file of its own, and no other file has changed. -/
theorem LaidOut.file_add (h : LaidOut start files tree) (hdot : '.' ∈ start.extension.toList)
    (hnew : name ∉ files.map Prod.fst) (hafter : WithSource start name contents tree after)
    {names : List String} (hne : names ≠ []) (bytes : List UInt8) :
    after.node? (start.tree.spot start.root ++ names) = some (.file bytes) ↔
      ∃ entry ∈ files ++ [(name, contents)],
        layoutOf start.extension entry.1 = names ∧ encode entry.2 = bytes := by
  rw [hafter.node?_below]
  by_cases hfile : names = layoutOf start.extension name
  · subst hfile
    rw [if_pos rfl]
    constructor
    · intro hbytes
      refine ⟨(name, contents), by simp, rfl, ?_⟩
      simpa using hbytes
    · rintro ⟨entry, hentry, hlayout, hbytes⟩
      rcases List.mem_append.mp hentry with hold | hlast
      · -- an older source with this file would have the same name
        have hname : entry.1 = name := layoutOf_injective hlayout
        apply absurd _ hnew
        rw [← hname]
        exact List.mem_map_of_mem hold
      · rw [List.mem_singleton.mp hlast] at hbytes
        rw [← hbytes]
  · rw [if_neg hfile]
    have hiff : (∃ entry ∈ files ++ [(name, contents)],
        layoutOf start.extension entry.1 = names ∧ encode entry.2 = bytes) ↔
        ∃ entry ∈ files, layoutOf start.extension entry.1 = names ∧ encode entry.2 = bytes := by
      simp [List.mem_append, or_and_right, exists_or, Ne.symm hfile]
    rw [hiff]
    by_cases hfolder : names <+: packageOf name
    · rw [if_pos hfolder]
      constructor
      · intro hbytes
        cases hbytes
      · rintro ⟨entry, -, hlayout, -⟩
        rw [← hlayout] at hfolder
        exact absurd hfolder (layoutOf_not_above hdot _ _)
    · rw [if_neg hfolder]
      exact h.file names hne bytes

/-- A new source has the folders of its package, and no other folder is new. -/
theorem LaidOut.folder_add (h : LaidOut start files tree) (hdot : '.' ∈ start.extension.toList)
    (hafter : WithSource start name contents tree after) {names : List String}
    (hne : names ≠ []) :
    after.node? (start.tree.spot start.root ++ names) = some .folder ↔
      ∃ entry ∈ files ++ [(name, contents)], names <+: packageOf entry.1 := by
  rw [hafter.node?_below]
  by_cases hfile : names = layoutOf start.extension name
  · subst hfile
    rw [if_pos rfl]
    constructor
    · intro hfolder
      cases hfolder
    · rintro ⟨entry, -, hfolder⟩
      exact absurd hfolder (layoutOf_not_above hdot _ _)
  · rw [if_neg hfile]
    by_cases hfolder : names <+: packageOf name
    · rw [if_pos hfolder]
      exact ⟨fun _ => ⟨(name, contents), by simp, hfolder⟩, fun _ => rfl⟩
    · rw [if_neg hfolder, h.folder names hne]
      simp [List.mem_append, or_and_right, exists_or, hfolder]

/-- A tree that is laid out stays so with a new source. -/
theorem LaidOut.add (h : LaidOut start files tree) (hdot : '.' ∈ start.extension.toList)
    (hnew : name ∉ files.map Prod.fst) (hafter : WithSource start name contents tree after) :
    LaidOut start (files ++ [(name, contents)]) after where
  file _ hne bytes := h.file_add hdot hnew hafter hne bytes
  folder _ hne := h.folder_add hdot hafter hne

end

/-- No file stands where the folder of a package is needed. -/
theorem LaidOut.no_file {tree : FileTree} (h : LaidOut start files tree)
    (hdot : '.' ∈ start.extension.toList)
    (hroot : tree.node? (start.tree.spot start.root) = some .folder) {folder : List String}
    (hbegins : folder <+: packageOf name) (bytes : List UInt8) :
    tree.node? (start.tree.spot start.root ++ folder) ≠ some (.file bytes) := by
  intro hfile
  by_cases hempty : folder = []
  · rw [hempty, List.append_nil, hroot] at hfile
    cases hfile
  · rw [h.file folder hempty] at hfile
    obtain ⟨entry, -, hlayout, -⟩ := hfile
    rw [← hlayout] at hbegins
    exact layoutOf_not_above hdot _ _ hbegins

/-- No folder stands where the file of a class is to be. -/
theorem LaidOut.no_folder {tree : FileTree} (h : LaidOut start files tree)
    (hdot : '.' ∈ start.extension.toList) (name : String) :
    tree.node? (start.tree.spot start.root ++ layoutOf start.extension name) ≠ some .folder := by
  rw [Ne, h.folder _ (layoutOf_ne_nil _ _)]
  rintro ⟨entry, -, hbegins⟩
  exact layoutOf_not_above hdot _ _ hbegins

/-! ## One source -/

/-- The path of a file that can be written has no null character. -/
theorem hasNull_pathFor (hroot : hasNull start.root.text = false)
    (hext : FitExtension start.extension) (hname : FitClass host start name) :
    hasNull (start.pathFor name).text = false := by
  have hsegment : ∀ segment ∈ segmentsOf name, '\x00' ∉ segment.toList := by
    intro segment hsegment hnull
    apply hname.named
    unfold segmentsOf at hsegment
    obtain ⟨piece, hpiece, rfl⟩ := List.mem_map.mp hsegment
    rw [String.toList_ofList] at hnull
    rw [← joined_segments '.' name.toList, mem_joined (by decide)]
    exact ⟨piece, hpiece, hnull⟩
  rw [hasNull_text] at hroot ⊢
  rw [pathFor_eq hname.proper hext.sep]
  intro part hpart
  rcases List.mem_append.mp hpart with habove | hlayout
  · exact hroot part habove
  · rcases List.mem_append.mp hlayout with hpackage | hfile
    · exact hsegment part (mem_segmentsOf_of_mem_packageOf hpackage)
    · rw [List.mem_singleton.mp hfile, String.toList_append, List.mem_append, not_or]
      exact ⟨hsegment _ (classOf_mem name), hext.named⟩

/-- The folder of a class is that of its package. -/
theorem parent_pathFor (hext : FitExtension start.extension) (hname : FitClass host start name) :
    (start.pathFor name).parent =
      ⟨start.root.anchor, start.root.parts ++ packageOf name⟩ := by
  rw [pathFor_eq hname.proper hext.sep, layoutOf, ← List.append_assoc]
  simp [Path.parent]

/-- A call is left besides those for the folder of a class. -/
theorem FitClass.room_above (hext : FitExtension start.extension)
    (hname : FitClass host start name) :
    (start.root.parts ++ packageOf name).length < host.room := by
  have hshallow := hname.shallow
  rw [pathFor_eq hname.proper hext.sep, layoutOf, ← List.append_assoc, List.length_append,
    List.length_singleton] at hshallow
  exact hshallow

/-- The names on the way to the file of a class all fit. -/
theorem FitClass.fitName (hext : FitExtension start.extension) (hname : FitClass host start name)
    {part : String} (hpart : part ∈ layoutOf start.extension name) : FitName part := by
  obtain ⟨hisPart, hup⟩ := isPart_of_mem_layoutOf hname.proper hext.sep hpart
  exact ⟨hisPart, hup, hname.short part hpart⟩

section

variable {tree base last : FileTree}

/-- In a tree that is laid out the folders of a package can be made. -/
theorem makeFolders_package (hcalm : host.IsCalm) (hroot : start.root.WellFormed)
    (hnull : hasNull start.root.text = false) (hext : FitExtension start.extension)
    (hname : FitClass host start name) (hmade : tree.makeFolders host start.root = (.ok (), base))
    (hhere : base.here = start.tree.here) (hlaid : LaidOut start files base) :
    ∃ last, tree.makeFolders host (start.pathFor name).parent = (.ok (), last) ∧
      Chained base last (start.tree.spot start.root) (packageOf name) := by
  have hspot : base.spot start.root = start.tree.spot start.root := spot_eq hhere _
  have hrootnode : base.node? (start.tree.spot start.root) = some .folder := by
    obtain ⟨-, hfolder⟩ := makeFolders_spec host hroot tree
    rw [hmade] at hfolder
    rw [← hspot]
    exact (hfolder rfl).node
  -- the path of the folder is a beginning of that of the file, and fits with it
  have hnamed := hasNull_pathFor hnull hext hname
  have hfits := hname.fits
  rw [pathFor_eq hname.proper hext.sep, layoutOf, ← List.append_assoc] at hnamed hfits
  have hmake := makeFolders_below hcalm (hname.room_above hext) hroot hmade
    (fun folder hfolder => hname.fitName hext (List.mem_append_left _ hfolder))
    (hasNull_above hnamed) (pathTooLong_above hfits) (by
      rw [hspot]
      exact fun folder hbegins => hlaid.no_file hext.dot hrootnode hbegins)
  rwa [hspot, ← parent_pathFor hext hname] at hmake

/-- In the folder of its package the file of a new class can be written. -/
theorem putFile_class (hext : FitExtension start.extension) (hname : FitClass host start name)
    (hhere : base.here = start.tree.here) (hlaid : LaidOut start files base)
    (hchain : Chained base last (start.tree.spot start.root) (packageOf name))
    (hfolder : HasFolder last (start.pathFor name).parent) (bytes : List UInt8) :
    last.putFile (start.pathFor name) bytes =
        .ok (last.set (start.tree.spot start.root ++ layoutOf start.extension name)
          (.file bytes)) ∧
      last.node? (start.tree.spot start.root ++ layoutOf start.extension name) ≠
        some .folder := by
  have hplace : last.spot (start.pathFor name).parent ++ [classOf name ++ start.extension] =
      start.tree.spot start.root ++ layoutOf start.extension name := by
    rw [parent_pathFor hext hname, spot_eq (hchain.here.trans hhere),
      spot_append _ _ fun _ hpart => isPart_of_mem_packageOf hname.proper hpart, List.append_assoc]
    rfl
  have hclear : last.node? (start.tree.spot start.root ++ layoutOf start.extension name) ≠
      some .folder := by
    rw [hchain.node, if_neg]
    · exact hlaid.no_folder hext.dot name
    · rintro ⟨-, hbegins⟩
      exact layoutOf_not_above hext.dot _ _ ((List.prefix_append_right_inj _).mp hbegins)
  refine ⟨?_, hclear⟩
  have hfits := hname.fits
  rw [← hplace] at hclear ⊢
  rw [parent_pathFor hext hname] at hfolder hclear ⊢
  rw [pathFor_eq hname.proper hext.sep, layoutOf, ← List.append_assoc] at hfits ⊢
  exact putFile_child hfolder (hname.fitName hext (by simp [layoutOf])) hfits hclear bytes

/-- In a tree that is laid out a new source can be written. -/
theorem place_new (hcalm : host.IsCalm) (hroot : start.root.WellFormed)
    (hnull : hasNull start.root.text = false)
    (hext : FitExtension start.extension) (hname : FitClass host start name)
    (hmade : tree.makeFolders host start.root = (.ok (), base)) (hhere : base.here = start.tree.here)
    (hlaid : LaidOut start files base) (contents : String) :
    ∃ after, place host (start.pathFor name) contents tree = (.ok (), after) ∧
      WithSource start name contents base after := by
  have hnamed := hasNull_pathFor hnull hext hname
  have hnamed' : hasNull (start.pathFor name).parent.text = false := by
    rw [parent_pathFor hext hname]
    rw [pathFor_eq hname.proper hext.sep, layoutOf, ← List.append_assoc] at hnamed
    exact hasNull_above hnamed
  -- first the folders
  obtain ⟨last, hlast, hchain⟩ := makeFolders_package hcalm hroot hnull hext hname hmade hhere hlaid
  have hfolder : HasFolder last (start.pathFor name).parent := by
    obtain ⟨-, hfolder⟩ := makeFolders_spec host (wellFormed_pathFor hroot name).parent tree
    rw [hlast] at hfolder
    exact hfolder rfl
  -- then the file in the last of them
  obtain ⟨hput, hclear⟩ := putFile_class hext hname hhere hlaid hchain hfolder (encode contents)
  refine ⟨last.set (start.tree.spot start.root ++ layoutOf start.extension name)
    (.file (encode contents)), ?_, ?_⟩
  · unfold place
    simp only [hnamed', hlast, hnamed, writeFile_of_putFile hcalm hput, Bool.false_eq_true,
      if_false]
  · intro q
    rw [node?_set (ne_top_of_node? hclear), hchain.node]

end

/-! ## Runs -/

/-- The sink is what `start` has become after taking the sources that are in memory. -/
structure Mirrors (host : Host) (start : TreeSink) (files : Ledger String String)
    (sink : TreeSink) : Prop where
  root : sink.root = start.root
  extension : sink.extension = start.extension
  here : sink.tree.here = start.tree.here
  written : sink.written = files.map Prod.fst
  nodup : (files.map Prod.fst).Nodup
  fit : ∀ entry ∈ files, FitClass host start entry.1
  there : ∀ entry ∈ files, HasFile sink.tree (start.pathFor entry.1) (encode entry.2)
  made : (sink.tree.makeFolders host start.root).1 = .ok ()
  /-- How the tree will be laid out once the root is made. -/
  ahead : LaidOut start files (sink.tree.makeFolders host start.root).2
  laidOut : LaidOut start files sink.tree

theorem Mirrors.refl (hroot : start.root.WellFormed) (hempty : EmptyRoot host start)
    (hwritten : start.written = []) : Mirrors host start [] start := by
  obtain ⟨hgrows, -⟩ := makeFolders_spec host hroot start.tree
  refine ⟨rfl, rfl, rfl, hwritten, List.nodup_nil, by simp, by simp, hempty.made,
    .none hempty.empty, .none fun names hne => ?_⟩
  rcases hgrows.node (start.tree.spot start.root ++ names) with hsame | ⟨hnone, -⟩
  · rw [← hsame]
    exact hempty.empty names hne
  · exact hnone

/-- Once a source is in its file, the root need not be made. -/
theorem makeFolders_root (hcalm : host.IsCalm) (hroot : start.root.WellFormed)
    (hnull : hasNull start.root.text = false) (hext : FitExtension start.extension)
    (hname : FitClass host start name) {tree : FileTree} {bytes : List UInt8}
    (h : HasFile tree (start.pathFor name) bytes) :
    tree.makeFolders host start.root = (.ok (), tree) := by
  have hpath : start.pathFor name =
      ⟨start.root.anchor, start.root.parts ++ layoutOf start.extension name⟩ :=
    pathFor_eq hname.proper hext.sep
  have hlocated := h.located
  have hfits := hname.fits
  rw [hpath] at hlocated hfits
  exact makeFolders_of_hasFolder hcalm (Nat.zero_lt_of_lt (hname.room_above hext)) hroot hnull
    (pathTooLong_above hfits) (hasFolder_above (layoutOf_ne_nil _ _) hlocated)

/-- A new source in its file. -/
theorem Mirrors.take (hcalm : host.IsCalm) (hroot : start.root.WellFormed)
    (hnull : hasNull start.root.text = false) (hext : FitExtension start.extension)
    (h : Mirrors host start files sink)
    (hname : FitClass host start name) (hnew : name ∉ files.map Prod.fst) {after : FileTree}
    (hplaced : Placed sink.tree after (start.pathFor name) (encode contents))
    (hlaid : LaidOut start (files ++ [(name, contents)]) after) :
    Mirrors host start (files ++ [(name, contents)])
      { sink with tree := after, written := sink.written ++ [name] } := by
  have hfit : ∀ entry ∈ files ++ [(name, contents)], FitClass host start entry.1 := by
    intro entry hentry
    rcases List.mem_append.mp hentry with hold | hlast
    · exact h.fit entry hold
    · rw [List.mem_singleton.mp hlast]
      exact hname
  have hthere : ∀ entry ∈ files ++ [(name, contents)],
      HasFile after (start.pathFor entry.1) (encode entry.2) := by
    intro entry hentry
    have hnode : after.node? (start.placeOf entry.1) = some (.file (encode entry.2)) := by
      rw [placeOf_eq (hfit entry hentry).proper hext.sep, hlaid.file _ (layoutOf_ne_nil _ _)]
      exact ⟨entry, hentry, rfl, rfl⟩
    rcases List.mem_append.mp hentry with hold | hlast
    · apply (h.there entry hold).extends hplaced.lost_nothing
      rw [spot_eq h.here]
      exact hnode
    · rw [List.mem_singleton.mp hlast]
      exact hplaced.there
  have hwritten : sink.written ++ [name] = (files ++ [(name, contents)]).map Prod.fst := by
    rw [h.written, List.map_append]
    rfl
  have hnodup : ((files ++ [(name, contents)]).map Prod.fst).Nodup := by
    rw [List.map_append, List.map_singleton, ← List.concat_eq_append]
    exact h.nodup.concat hnew
  have hmade := makeFolders_root hcalm hroot hnull hext hname hplaced.there
  have hahead : LaidOut start (files ++ [(name, contents)])
      (after.makeFolders host start.root).2 := by
    rw [hmade]
    exact hlaid
  exact ⟨h.root, h.extension, hplaced.lost_nothing.here.trans h.here, hwritten, hnodup, hfit,
    hthere, congrArg Prod.fst hmade, hahead, hlaid⟩

/-- A new source is taken. -/
theorem Mirrors.writeOn_new (hcalm : host.IsCalm) (hroot : start.root.WellFormed)
    (hnull : hasNull start.root.text = false)
    (hext : FitExtension start.extension) (h : Mirrors host start files sink)
    (hname : FitClass host start name) (hnew : name ∉ files.map Prod.fst) (contents : String) :
    ∃ record next, writeOn host name contents sink = (.ok record, next) ∧
      Mirrors host start (files ++ [(name, contents)]) next := by
  have hpath : sink.pathFor name = start.pathFor name := by
    unfold pathFor
    rw [h.root, h.extension]
  obtain ⟨hgrows, -⟩ := makeFolders_spec host hroot sink.tree
  have hmade : sink.tree.makeFolders host start.root =
      (.ok (), (sink.tree.makeFolders host start.root).2) := Prod.ext h.made rfl
  obtain ⟨after, hplace, hnodes⟩ := place_new hcalm hroot hnull hext hname hmade
    (hgrows.here.trans h.here) h.ahead contents
  have hplaced : Placed sink.tree after (start.pathFor name) (encode contents) := by
    rcases place_cases host (wellFormed_pathFor hroot name) contents sink.tree with
      ⟨_, _, hfail, -⟩ | ⟨other, hok, hplaced⟩
    · rw [hplace] at hfail
      cases hfail
    · rw [hplace] at hok
      cases hok
      exact hplaced
  have hunwritten : ¬ sink.written.contains name = true := by
    rw [h.written, List.contains_iff_mem]
    exact hnew
  refine ⟨⟨.writer, "Wrote " ++ (start.pathFor name).text⟩, _, ?_,
    h.take hcalm hroot hnull hext hname hnew hplaced (h.ahead.add hext.dot hnew hnodes)⟩
  unfold writeOn
  rw [if_neg hunwritten]
  simp only [hpath, hplace]

/-- A source for a name that was taken before is refused. -/
theorem Mirrors.writeOn_taken (h : Mirrors host start files sink) (hold : name ∈ files.map Prod.fst)
    (contents : String) :
    writeOn host name contents sink = (.error (.alreadyWritten name), sink) := by
  have hwritten : sink.written.contains name = true := by
    rw [h.written, List.contains_iff_mem]
    exact hold
  exact if_pos hwritten

/-- In any run the two sinks take and refuse the same sources, and nothing but a second source for a
name is refused. -/
theorem Mirrors.writeAll (hcalm : host.IsCalm) (hroot : start.root.WellFormed)
    (hnull : hasNull start.root.text = false) (hext : FitExtension start.extension)
    {memory : MemorySink} (h : Mirrors host start memory.files sink) (calls : List (String × String))
    (hcalls : ∀ call ∈ calls, FitClass host start call.1) :
    outcomes (writeOn host) calls sink = outcomes MemorySink.write calls memory ∧
      (∀ fault, .error fault ∈ outcomes (writeOn host) calls sink →
        ∃ call ∈ calls, fault = .alreadyWritten call.1) ∧
      Mirrors host start (writeAll MemorySink.write calls memory).files
        (writeAll (writeOn host) calls sink) := by
  induction calls generalizing memory sink with
  | nil => exact ⟨rfl, fun _ h => absurd h List.not_mem_nil, h⟩
  | cons call rest ih =>
    obtain ⟨name, contents⟩ := call
    have hrest : ∀ call ∈ rest, FitClass host start call.1 := fun call hcall =>
      hcalls call (List.mem_cons_of_mem _ hcall)
    rw [writeAll_cons, writeAll_cons]
    unfold outcomes
    by_cases hold : name ∈ memory.files.map Prod.fst
    · rw [h.writeOn_taken hold, MemorySink.write_taken hold]
      obtain ⟨hsame, honly, hmirrors⟩ := ih h hrest
      refine ⟨congrArg _ hsame, ?_, hmirrors⟩
      intro fault hfault
      rcases List.mem_cons.mp hfault with hfirst | hlater
      · cases hfirst
        exact ⟨(name, contents), List.mem_cons_self, rfl⟩
      · obtain ⟨call, hcall, hname⟩ := honly fault hlater
        exact ⟨call, List.mem_cons_of_mem _ hcall, hname⟩
    · obtain ⟨record, next, hwrite, hnext⟩ := h.writeOn_new hcalm hroot hnull hext
        (hcalls _ List.mem_cons_self) hold contents
      rw [hwrite, MemorySink.write_new hold]
      obtain ⟨hsame, honly, hmirrors⟩ := @ih next ⟨memory.files ++ [(name, contents)]⟩ hnext hrest
      refine ⟨congrArg _ hsame, ?_, hmirrors⟩
      intro fault hfault
      rcases List.mem_cons.mp hfault with hfirst | hlater
      · cases hfirst
      · obtain ⟨call, hcall, hname⟩ := honly fault hlater
        exact ⟨call, List.mem_cons_of_mem _ hcall, hname⟩

/-- On a host that goes along with everything, a sink that writes below an empty root does what one in
memory does: each call comes to the same, and nothing but a second source for a name is refused. In
the end the tree below the root is laid out
by the sources in memory, and each of them is in a file of its own, found at its path. -/
theorem files_mirror_memory (host : Host) (root extension : String) (tree : FileTree)
    (calls : List (String × String)) (hcalm : host.IsCalm)
    (hempty : EmptyRoot host (fresh root extension tree)) (hext : FitExtension extension)
    (hcalls : ∀ call ∈ calls, FitClass host (fresh root extension tree) call.1) :
    let start := fresh root extension tree
    let sources := (writeAll MemorySink.write calls .empty).files
    let after := (writeAll (writeOn host) calls start).tree
    outcomes (writeOn host) calls start = outcomes MemorySink.write calls .empty ∧
    (∀ fault, .error fault ∈ outcomes (writeOn host) calls start →
      ∃ call ∈ calls, fault = .alreadyWritten call.1) ∧
    LaidOut start sources after ∧
    (sources.map fun entry => start.placeOf entry.1).Nodup ∧
    ∀ entry ∈ sources,
      start.placeOf entry.1 = start.tree.spot start.root ++ layoutOf extension entry.1 ∧
        after.find (start.pathFor entry.1).text = .found (.file (encode entry.2)) := by
  intro start sources after
  have hroot : start.root.WellFormed := Path.wellFormed_ofText root
  obtain ⟨hsame, honly, hmirrors⟩ :=
    (Mirrors.refl hroot hempty rfl).writeAll hcalm hroot hempty.named hext calls hcalls
  have hplaces : (sources.map fun entry => start.placeOf entry.1).Nodup := by
    have hmap : (sources.map fun entry => start.placeOf entry.1) =
        (sources.map Prod.fst).map start.placeOf := by simp
    rw [hmap]
    apply hmirrors.nodup.map_on
    intro a ha b hb hplace
    obtain ⟨first, hfirst, rfl⟩ := List.mem_map.mp ha
    obtain ⟨second, hsecond, rfl⟩ := List.mem_map.mp hb
    exact placeOf_injective (hmirrors.fit first hfirst).proper
      (hmirrors.fit second hsecond).proper hext.sep hplace
  refine ⟨hsame, honly, hmirrors.laidOut, hplaces, fun entry hentry => ⟨?_, ?_⟩⟩
  · exact placeOf_eq (hmirrors.fit entry hentry).proper hext.sep
  · exact (hmirrors.there entry hentry).find (wellFormed_pathFor hroot entry.1)

/-- A class and a package of one name, and a second source for the class. -/
theorem files_mirror_memory_sample :
    let start := fresh "out" defaultExtension (.startingAt ["work"])
    let calls := [("a.B", "first"), ("a", "second"), ("a.B", "third")]
    EmptyRoot .usual start ∧ FitExtension defaultExtension ∧
      (∀ call ∈ calls, FitClass .usual start call.1) ∧
      (writeAll MemorySink.write calls .empty).files = [("a.B", "first"), ("a", "second")] ∧
      (writeAll write calls start).tree.find "out/a/B.java" = .found (.file (encode "first")) := by
  intro start calls
  have hempty : EmptyRoot .usual start := by
    refine .of_plain (Path.wellFormed_ofText _) (by decide +kernel) (by decide +kernel)
      (by decide +kernel) fun names hne => ?_
    have hspot : start.tree.spot start.root = ["work", "out"] := by decide +kernel
    have hnodes : start.tree.nodes = [(["work"], .folder)] := rfl
    obtain ⟨name, rest, rfl⟩ := List.exists_cons_of_ne_nil hne
    rw [hspot]
    unfold node?
    rw [hnodes]
    simp [Ledger.get?]
  have hext : FitExtension defaultExtension := by
    constructor <;> decide +kernel
  have hcalls : ∀ call ∈ calls, FitClass .usual start call.1 := by
    have hproper : ∀ call ∈ calls, ProperName call.1 := by
      unfold ProperName
      decide +kernel
    intro call hcall
    refine ⟨hproper call hcall, ?_, ?_, ?_, ?_⟩ <;> revert call <;> decide +kernel
  have hsources : (writeAll MemorySink.write calls .empty).files =
      [("a.B", "first"), ("a", "second")] := by decide +kernel
  refine ⟨hempty, hext, hcalls, hsources, ?_⟩
  obtain ⟨-, -, -, -, hfound⟩ :=
    files_mirror_memory .usual "out" defaultExtension
    (.startingAt ["work"]) calls Host.isCalm_usual hempty hext hcalls
  have hpath : (start.pathFor "a.B").text = "out/a/B.java" := by decide +kernel
  rw [← hpath]
  refine (hfound ("a.B", "first") ?_).2
  rw [hsources]
  exact List.mem_cons_self

/-- It is not enough that the root is missing and can be made: if its path leads down and up again,
a folder is left where it leads to, and may be in the way of a class. -/
theorem root_not_empty :
    let start := fresh "A.java/.." defaultExtension (.startingAt ["work"])
    let calls := [("A", "class A")]
    (start.tree.find start.root.text = .fault .missing ∧
      (start.tree.makeFolders .usual start.root).1 = .ok ()) ∧
    FitExtension defaultExtension ∧ (∀ call ∈ calls, FitClass .usual start call.1) ∧
    outcomes write calls start =
      [.error (.notWritten (start.pathFor "A") .isAFolder (start.pathFor "A"))] ∧
    outcomes MemorySink.write calls .empty = [.ok ()] := by
  intro start calls
  have hext : FitExtension defaultExtension := by
    constructor <;> decide +kernel
  have hcalls : ∀ call ∈ calls, FitClass .usual start call.1 := by
    have hproper : ∀ call ∈ calls, ProperName call.1 := by
      unfold ProperName
      decide +kernel
    intro call hcall
    refine ⟨hproper call hcall, ?_, ?_, ?_, ?_⟩ <;> revert call <;> decide +kernel
  exact ⟨by decide +kernel, hext, hcalls, by decide +kernel, by decide +kernel⟩

end TreeSink

end Bindery
