import Bindery.Proofs.SourceFiles

/-!
# Writes that fail

A write to a file can fail before anything is done, while the folders above the file are made, and
when they are there. What it leaves behind is the same in all these cases, some folders above the file
and nothing else (`OnlyFoldersAbove`). If the host breaks off when the file is open already, then that
file holds a beginning of what it was to hold (`CutOff`), whatever it held before
(`write_not_atomic`). In any case the name is not recorded (`writeOn_failed`). So the record holds the
names of the calls that succeeded, over any run, also if others change the files between the calls
(`through_spec`): a name is refused as written already exactly if it was, and one that has failed is
written as if it were new (`write_leaves`).
-/

namespace Bindery

open Bindery.Text

/-- Whether a path is that of a folder above. -/
def Path.IsAbove (above p : Path) : Prop :=
  above.anchor = p.anchor ∧ above.parts <+: p.parts ∧ above.parts ≠ p.parts

/-- What leads to the parent of a path is above it, being shorter by the last part at least. -/
theorem Path.isAbove_of_leads_to_parent {p : Path} (hparts : p.parts ≠ []) {parts : List String}
    (h : parts <+: p.parent.parts) : Path.IsAbove ⟨p.anchor, parts⟩ p := by
  refine ⟨rfl, h.trans (List.dropLast_prefix _), ?_⟩
  rintro rfl
  have hshorter : p.parts.length ≤ p.parts.dropLast.length := h.length_le
  have hpos := List.length_pos_of_ne_nil hparts
  rw [List.length_dropLast] at hshorter
  omega

namespace FileTree

variable {p : Path}

/-- No folder is gone, and new ones are above a path. -/
structure FoldersAbove (before after : FileTree) (p : Path) : Prop where
  here : after.here = before.here
  folders : ∀ place, before.node? place = some .folder → after.node? place = some .folder
  made : ∀ place, after.node? place = some .folder →
    before.node? place = some .folder ∨
      before.node? place = none ∧ ∃ above : Path, above.IsAbove p ∧ place = before.spot above

/-- All files are as they were and no folder is gone; what is new are folders above a path. -/
structure OnlyFoldersAbove (before after : FileTree) (p : Path) : Prop
    extends FoldersAbove before after p where
  files : ∀ place bytes,
    after.node? place = some (.file bytes) ↔ before.node? place = some (.file bytes)

/-- The file at a path holds some bytes, all others are as they were and no folder is gone; what else
is new are folders above the path. -/
structure CutOff (before after : FileTree) (p : Path) (held : List UInt8) : Prop
    extends FoldersAbove before after p where
  there : HasFile after p held
  files : ∀ place ≠ before.spot p, ∀ bytes,
    after.node? place = some (.file bytes) ↔ before.node? place = some (.file bytes)

theorem OnlyFoldersAbove.refl (t : FileTree) (p : Path) : OnlyFoldersAbove t t p :=
  ⟨⟨rfl, fun _ h => h, fun _ h => .inl h⟩, fun _ _ => .rfl⟩

/-- The folder that a path starts from is there, or cannot be made. -/
theorem makeFolders_start (host : Host) (t : FileTree) (anchor : Anchor) :
    (t.makeFolders host ⟨anchor, []⟩).2 = t := by
  have htaken : t.makeFolder ⟨anchor, []⟩ = .error .taken := by
    have hshort : pathTooLong (Path.text ⟨anchor, []⟩) = false := by cases anchor <;> decide
    simp only [makeFolder, target, hshort, List.getLast?_nil, Bool.false_eq_true, if_false]
  rcases makeFoldersFor_cases host t anchor host.room [] with
    ⟨made, hneed, hmade⟩ | ⟨e, hfail⟩ | ⟨_, _, _, _, hparts, -⟩
  · have hsame : made = t := by
      unfold needFolder at hneed
      rw [List.reverse_nil, htaken] at hneed
      split at hneed
      · cases hneed
      · simp only at hneed
        split_ifs at hneed
        exact (Except.ok.inj hneed).symm
    unfold makeFolders
    rw [List.reverse_nil, hmade, hsame]
  · unfold makeFolders
    rw [List.reverse_nil, hfail]
  · contradiction

/-- Making the folders above a path, whether it succeeds or not, makes nothing else. -/
theorem onlyFoldersAbove_makeFolders (host : Host) (hp : p.WellFormed) (t : FileTree) :
    OnlyFoldersAbove t (t.makeFolders host p.parent).2 p := by
  obtain ⟨hgrows, -⟩ := makeFolders_spec host hp.parent t
  refine ⟨⟨hgrows.here, fun place h => hgrows.kept h, fun place h => ?_⟩, fun place bytes => ?_⟩
  · rcases hgrows.node place with hsame | ⟨hnone, -⟩
    · left
      rw [← hsame, h]
    right
    refine ⟨hnone, ?_⟩
    -- otherwise nothing would have been made at this place
    by_contra hnew
    push Not at hnew
    have hsame : (t.makeFolders host p.parent).2.node? place = t.node? place := by
      -- a path without parts is its own parent, and nothing is above it
      by_cases hparts : p.parts = []
      · have hparent : p.parent = ⟨p.anchor, []⟩ := by rw [Path.parent, hparts, List.dropLast_nil]
        rw [hparent, makeFolders_start]
      · apply makeFolders_elsewhere hp.parent
        intro above habove
        exact hnew ⟨p.anchor, above⟩ (Path.isAbove_of_leads_to_parent hparts habove)
    rw [hsame, hnone] at h
    contradiction
  · rcases hgrows.node place with hsame | ⟨hnone, hfolder⟩
    · rw [hsame]
    · simp [hnone, hfolder]

/-- A file is cut off that was put in the last of the folders above it. -/
theorem CutOff.of_putFile (host : Host) (hp : p.WellFormed) {t made after : FileTree}
    {held : List UInt8} (hmade : t.makeFolders host p.parent = (.ok (), made))
    (hnull : hasNull p.text = false) (hput : made.putFile p held = .ok after) :
    CutOff t after p held := by
  have hfolders := onlyFoldersAbove_makeFolders host hp t
  rw [hmade] at hfolders
  obtain ⟨hafter, hfree, hfile⟩ := putFile_spec hp hput hnull
  have hspot : made.spot p = t.spot p := spot_eq hfolders.here p
  rw [hspot] at hafter hfree
  have hnode := node?_set (t := made) (ne_top_of_node? hfree) (.file held)
  refine ⟨⟨?_, fun place h => ?_, fun place h => ?_⟩, hfile, fun place hplace bytes => ?_⟩
  · rw [hafter]
    exact hfolders.here
  · -- a folder is not written over
    have hkept := hfolders.folders place h
    rw [hafter, hnode, if_neg]
    · exact hkept
    · rintro rfl
      exact hfree hkept
  · rw [hafter, hnode] at h
    split_ifs at h
    · cases h
    · exact hfolders.made place h
  · rw [hafter, hnode, if_neg hplace]
    exact hfolders.files place bytes

end FileTree

namespace TreeSink

open FileTree

variable {sink : TreeSink} {name contents : String} {host : Host}

/-! ## One write -/

/-- What the placing of a file leaves that fails. -/
theorem place_failed {p : Path} (hp : p.WellFormed) {contents : String} {tree after : FileTree}
    {fault : SinkFault} (h : place host p contents tree = (.error fault, after)) :
    (∀ name, fault ≠ .alreadyWritten name) ∧
      (¬ fault.IsLate → OnlyFoldersAbove tree after p) ∧
      (fault.IsLate → ∃ made count cause, fault = .brokenOff p cause ∧
        host.breaksOff made p = some (count, cause) ∧
        CutOff tree after p ((encode contents).take count)) := by
  rcases place_steps host p contents tree with ⟨_, _, hplace, hother, hearly, hleft⟩ |
    ⟨made, bytes, _, hmade, hnull, hput, ⟨-, hplace⟩ | ⟨count, cause, rfl, hbreaks, hplace⟩⟩
  · rw [hplace] at h
    obtain ⟨hfault, rfl⟩ := Prod.mk.inj h
    obtain rfl := Except.error.inj hfault
    refine ⟨hother, fun _ => ?_, fun hlate => absurd hlate hearly⟩
    rcases hleft with hsame | hmade
    · rw [hsame]
      exact .refl tree p
    · rw [hmade]
      exact onlyFoldersAbove_makeFolders host hp tree
  · rw [hplace] at h
    cases h
  · rw [hplace] at h
    obtain ⟨hfault, rfl⟩ := Prod.mk.inj h
    obtain rfl := Except.error.inj hfault
    refine ⟨nofun, fun hearly => absurd ⟨p, cause, rfl⟩ hearly, fun _ => ?_⟩
    exact ⟨made, count, cause, rfl, hbreaks, .of_putFile host hp hmade hnull hput⟩

/-- A name that was accepted is refused at once. -/
theorem writeOn_taken (h : name ∈ sink.written) (contents : String) :
    writeOn host name contents sink = (.error (.alreadyWritten name), sink) :=
  if_pos (List.contains_iff_mem.mpr h)

/-- Any other is recorded if its file can be placed. -/
theorem writeOn_placed (h : name ∉ sink.written) {after : FileTree}
    (hplace : place host (sink.pathFor name) contents sink.tree = (.ok (), after)) :
    writeOn host name contents sink = (.ok ⟨.writer, "Wrote " ++ (sink.pathFor name).text⟩,
      { sink with tree := after, written := sink.written ++ [name] }) := by
  unfold writeOn
  simp only [if_neg (mt List.contains_iff_mem.mp h), hplace]

theorem writeOn_unplaced (h : name ∉ sink.written) {fault : SinkFault} {after : FileTree}
    (hplace : place host (sink.pathFor name) contents sink.tree = (.error fault, after)) :
    writeOn host name contents sink = (.error fault, { sink with tree := after }) := by
  unfold writeOn
  simp only [if_neg (mt List.contains_iff_mem.mp h), hplace]

/-- A write that fails, for whatever reason, records nothing, and changes no file but one that was
open already. -/
theorem writeOn_failed (hroot : sink.root.WellFormed) {fault : SinkFault}
    (h : (writeOn host name contents sink).1 = .error fault) :
    (writeOn host name contents sink).2.written = sink.written ∧
      (¬ fault.IsLate →
        OnlyFoldersAbove sink.tree (writeOn host name contents sink).2.tree (sink.pathFor name)) ∧
      (fault.IsLate → ∃ made count cause, fault = .brokenOff (sink.pathFor name) cause ∧
        host.breaksOff made (sink.pathFor name) = some (count, cause) ∧
        CutOff sink.tree (writeOn host name contents sink).2.tree (sink.pathFor name)
          ((encode contents).take count)) := by
  by_cases htaken : name ∈ sink.written
  · rw [writeOn_taken htaken] at h ⊢
    obtain rfl := Except.error.inj h
    refine ⟨rfl, fun _ => .refl _ _, ?_⟩
    rintro ⟨_, _, hlate⟩
    cases hlate
  · rcases hplace : place host (sink.pathFor name) contents sink.tree with ⟨cause | _, after⟩
    · rw [writeOn_unplaced htaken hplace] at h ⊢
      obtain rfl := Except.error.inj h
      exact ⟨rfl, (place_failed (wellFormed_pathFor hroot name) hplace).2⟩
    · rw [writeOn_placed htaken hplace] at h
      contradiction

/-- A write that succeeds writes the file, and may make folders. -/
theorem writeOn_succeeded (hroot : sink.root.WellFormed) {record : Record}
    (h : (writeOn host name contents sink).1 = .ok record) :
    Placed sink.tree (writeOn host name contents sink).2.tree (sink.pathFor name)
      (encode contents) := by
  rcases writeOn_cases host hroot name contents with ⟨-, hwrite⟩ | ⟨fault, after, -, hwrite, -⟩ |
    ⟨record', after, -, hwrite, hplaced⟩
  · rw [hwrite] at h
    contradiction
  · rw [hwrite] at h
    contradiction
  · rw [hwrite]
    exact hplaced

/-- A name is refused as written already exactly if it is recorded. -/
theorem writeOn_eq_alreadyWritten_iff (hroot : sink.root.WellFormed) :
    (writeOn host name contents sink).1 = .error (.alreadyWritten name) ↔ name ∈ sink.written := by
  refine ⟨fun h => ?_, fun h => by rw [writeOn_taken h]⟩
  by_contra hnew
  rcases hplace : place host (sink.pathFor name) contents sink.tree with ⟨cause | _, after⟩
  · rw [writeOn_unplaced hnew hplace] at h
    obtain ⟨hother, -⟩ := place_failed (wellFormed_pathFor hroot name) hplace
    exact hother name (Except.error.inj h)
  · rw [writeOn_placed hnew hplace] at h
    contradiction

/-- What a write of a new name comes to depends on the files and the host alone, and not on the
record. -/
theorem writeOn_of_not_mem (host : Host) (h : name ∉ sink.written) (contents : String) :
    (writeOn host name contents sink).1 =
        (writeOn host name contents { sink with written := [] }).1 ∧
      (writeOn host name contents sink).2.tree =
        (writeOn host name contents { sink with written := [] }).2.tree := by
  have hblank : name ∉ { sink with written := [] }.written := List.not_mem_nil
  rcases hplace : place host (sink.pathFor name) contents sink.tree with ⟨cause | _, after⟩
  · rw [writeOn_unplaced h hplace, writeOn_unplaced hblank hplace]
    exact ⟨rfl, rfl⟩
  · rw [writeOn_placed h hplace, writeOn_placed hblank hplace]
    exact ⟨rfl, rfl⟩

/-! ## Runs -/

/-- What happens to a sink: it is given a source, on a host that may be another each time, or someone
else changes the files. -/
inductive Event where
  | call (host : Host) (name contents : String)
  | changed (files : FileTree)

namespace Event

/-- The sink after an event. A failure does not keep the next call from being made. -/
def apply (sink : TreeSink) : Event → TreeSink
  | call host name contents => (writeOn host name contents sink).2
  | changed files => { sink with tree := files }

/-- The name whose source is accepted. -/
def accepted? (sink : TreeSink) : Event → Option String
  | call host name contents =>
    match (writeOn host name contents sink).1 with
    | .ok _ => some name
    | .error _ => none
  | changed _ => none

end Event

/-- The sink after a run. -/
def through (events : List Event) (sink : TreeSink) : TreeSink :=
  events.foldl Event.apply sink

/-- The names whose sources are accepted in a run. -/
def acceptedNames : List Event → TreeSink → List String
  | [], _ => []
  | event :: rest, sink => (event.accepted? sink).toList ++ acceptedNames rest (event.apply sink)

/-- An event changes neither the root nor the extension, and records the name that is accepted. -/
theorem apply_spec (hroot : sink.root.WellFormed) (event : Event) :
    (event.apply sink).root = sink.root ∧ (event.apply sink).extension = sink.extension ∧
      (event.apply sink).written = sink.written ++ (event.accepted? sink).toList := by
  cases event with
  | changed files => exact ⟨rfl, rfl, (List.append_nil _).symm⟩
  | call host name contents =>
    have happly : (Event.call host name contents).apply sink =
        (writeOn host name contents sink).2 := rfl
    have haccepted : (Event.call host name contents).accepted? sink =
        match (writeOn host name contents sink).1 with
        | .ok _ => some name
        | .error _ => none := rfl
    rw [happly, haccepted]
    rcases writeOn_cases host hroot name contents with ⟨-, hwrite⟩ | ⟨fault, after, -, hwrite, -⟩ |
      ⟨record, after, -, hwrite, -⟩
    · rw [hwrite]
      exact ⟨rfl, rfl, (List.append_nil _).symm⟩
    · rw [hwrite]
      exact ⟨rfl, rfl, (List.append_nil _).symm⟩
    · rw [hwrite]
      exact ⟨rfl, rfl, rfl⟩

/-- The record of a sink grows by the names that are accepted, and by nothing else. -/
theorem through_spec (hroot : sink.root.WellFormed) (events : List Event) :
    (through events sink).root = sink.root ∧ (through events sink).extension = sink.extension ∧
      (through events sink).written = sink.written ++ acceptedNames events sink := by
  induction events generalizing sink with
  | nil => exact ⟨rfl, rfl, (List.append_nil _).symm⟩
  | cons event rest ih =>
    obtain ⟨hsame, hext, hwritten⟩ := apply_spec hroot event
    obtain ⟨hsame', hext', hwritten'⟩ := ih (hsame ▸ hroot)
    have hstep : through (event :: rest) sink = through rest (event.apply sink) := rfl
    rw [hstep, acceptedNames]
    refine ⟨hsame'.trans hsame, hext'.trans hext, ?_⟩
    rw [hwritten', hwritten, List.append_assoc]

/-- What a write does after any run, whatever the hosts and whatever others have done to the files
in between. If it succeeds, the file is there. If it fails, the record is as it was, and so are all
files; no folder is gone, and new ones are above the file. Only if the host breaks off does the file
at the path of the name hold a beginning of its source. A name is refused as written already exactly
if it was accepted before, and then nothing at all is changed. Any other name, one that has failed
before among them, is written as it would be by a new sink that finds the same files. -/
theorem write_leaves (root extension : String) (tree : FileTree) (events : List Event)
    (host : Host) (name contents : String) :
    let start := fresh root extension tree
    let sink := through events start
    let attempt := writeOn host name contents sink
    (∀ record, attempt.1 = .ok record →
      Placed sink.tree attempt.2.tree (start.pathFor name) (encode contents)) ∧
    (∀ fault, attempt.1 = .error fault →
      attempt.2.written = sink.written ∧
        (¬ fault.IsLate → OnlyFoldersAbove sink.tree attempt.2.tree (start.pathFor name)) ∧
        (fault.IsLate → ∃ made count cause, fault = .brokenOff (start.pathFor name) cause ∧
          host.breaksOff made (start.pathFor name) = some (count, cause) ∧
          CutOff sink.tree attempt.2.tree (start.pathFor name) ((encode contents).take count))) ∧
    (attempt.1 = .error (.alreadyWritten name) ↔ name ∈ acceptedNames events start) ∧
    (name ∈ acceptedNames events start → attempt.2 = sink) ∧
    (name ∉ acceptedNames events start →
      attempt.1 = (writeOn host name contents (fresh root extension sink.tree)).1 ∧
        attempt.2.tree = (writeOn host name contents (fresh root extension sink.tree)).2.tree) := by
  intro start sink attempt
  have hroot : start.root.WellFormed := Path.wellFormed_ofText root
  obtain ⟨hsame, hext, hwritten⟩ := through_spec hroot events
  have hpath : sink.pathFor name = start.pathFor name := by
    unfold pathFor
    rw [hsame, hext]
  -- a new sink that finds the same files differs in the record alone
  have hnew : fresh root extension sink.tree = { sink with written := [] } := by
    show fresh root extension sink.tree = ⟨sink.root, sink.extension, [], sink.tree⟩
    rw [hsame, hext]
    rfl
  have haccepted : sink.written = acceptedNames events start := hwritten
  have hsink : sink.root.WellFormed := hsame ▸ hroot
  rw [← haccepted, hnew, ← hpath]
  refine ⟨fun record hrecord => ?_, fun fault hfault => ?_, writeOn_eq_alreadyWritten_iff hsink,
    fun htaken => ?_, fun hfree => writeOn_of_not_mem host hfree contents⟩
  · exact writeOn_succeeded hsink hrecord
  · exact writeOn_failed hsink hfault
  · exact congrArg Prod.snd (writeOn_taken htaken contents)

/-- A host on which nothing more can be written than a few bytes. -/
def fullHost (count : Nat) : Host :=
  { Host.usual with breaksOff := fun _ _ => some (count, .other 28 "No space left on device") }

/-- A name with a null character fails when its folders are there already, which changes no file. A
name that failed where a file was in the way of its folders is written once that file is gone, one
whose file broke off is written when there is space, and one that was accepted is refused. -/
theorem write_leaves_sample :
    let blocked := (FileTree.startingAt ["work"]).supply "out/a" []
    let start := fresh "out" defaultExtension blocked
    let events := [.call .usual "a.B" "first", .changed (.startingAt ["work"]),
      .call (fullHost 3) "c.D" "second", .call .usual "c.D" "second"]
    let sink := through events start
    let failing := writeOn .usual "e.F\x00" "third" sink
    acceptedNames events start = ["c.D"] ∧ failing.1 = .error .nullInPath ∧
      failing.2.tree.node? ["work", "out", "e"] = some .folder ∧
      failing.2.tree.node? ["work", "out", "c", "D.java"] = some (.file (encode "second")) ∧
      (writeOn .usual "c.D" "third" sink).2 = sink ∧
      HasFile (writeOn (fullHost 3) "a.B" "third" sink).2.tree (start.pathFor "a.B")
        (encode "thi") ∧
      (writeOn .usual "a.B" "third" (fresh "out" defaultExtension sink.tree)).1 =
        .ok ⟨.writer, "Wrote out/a/B.java"⟩ := by
  intro blocked start events sink failing
  have hrun := write_leaves "out" defaultExtension blocked events
  have haccepted : acceptedNames events start = ["c.D"] := by decide +kernel
  have hfault : failing.1 = .error .nullInPath := by decide +kernel
  have hbroken : (writeOn (fullHost 3) "a.B" "third" sink).1 =
      .error (.brokenOff (start.pathFor "a.B") (.other 28 "No space left on device")) := by
    decide +kernel
  have hrecord : (writeOn .usual "a.B" "third" sink).1 = .ok ⟨.writer, "Wrote out/a/B.java"⟩ := by
    decide +kernel
  have hfile : sink.tree.node? ["work", "out", "c", "D.java"] = some (.file (encode "second")) := by
    decide +kernel
  obtain ⟨-, hfailed, -⟩ := hrun .usual "e.F\x00" "third"
  obtain ⟨-, -, -, hrefused, -⟩ := hrun .usual "c.D" "third"
  obtain ⟨-, hcut, -⟩ := hrun (fullHost 3) "a.B" "third"
  obtain ⟨-, -, -, -, hretried⟩ := hrun .usual "a.B" "third"
  refine ⟨haccepted, hfault, by decide +kernel, ?_, ?_, ?_, ?_⟩
  · obtain ⟨-, hfolders, -⟩ := hfailed .nullInPath hfault
    have hearly : ¬ SinkFault.IsLate .nullInPath := by
      rintro ⟨_, _, hlate⟩
      cases hlate
    rw [(hfolders hearly).files]
    exact hfile
  · apply hrefused
    rw [haccepted]
    exact List.mem_singleton_self _
  · obtain ⟨-, -, hlate⟩ := hcut _ hbroken
    obtain ⟨_, count, _, -, hbreaks, hheld⟩ := hlate ⟨_, _, rfl⟩
    obtain ⟨rfl, -⟩ := Prod.mk.inj (Option.some.inj hbreaks)
    have hbeginning : (encode "third").take 3 = encode "thi" := by decide +kernel
    rw [← hbeginning]
    -- any more would run the write
    with_reducible exact hheld.there
  · have hnew : "a.B" ∉ acceptedNames events start := by
      rw [haccepted]
      decide
    rw [← (hretried hnew).1]
    exact hrecord

/-- A write that fails may lose an older source or leave an empty file, and need be none of the
failures that are seen to: if the host breaks off when the file is open, and if there is no room to
make the folders. -/
theorem write_not_atomic :
    let start := fresh "out" defaultExtension
      ((FileTree.startingAt ["work"]).supply "out/C.java" (encode "old"))
    let attempt (name : String) := writeOn (fullHost 0) name "new" start
    let narrow := writeOn { Host.usual with room := 1 } "a.b.C" "new" start
    start.tree.node? ["work", "out", "C.java"] = some (.file (encode "old")) ∧
      (attempt "C").1.mapError SinkFault.kind = .error .processing ∧
      (attempt "C").2.tree.node? ["work", "out", "C.java"] = some (.file []) ∧
      start.tree.node? ["work", "out", "D.java"] = none ∧
      (attempt "D").1.mapError SinkFault.kind = .error .processing ∧
      (attempt "D").2.tree.node? ["work", "out", "D.java"] = some (.file []) ∧
      narrow.1.mapError SinkFault.kind = .error .tooDeep := by
  decide +kernel

end TreeSink

end Bindery
