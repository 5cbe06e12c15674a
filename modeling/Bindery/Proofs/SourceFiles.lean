import Bindery.Proofs.FoldersMade
import Bindery.Proofs.SourceNames

/-!
# Which source a file holds

A sink that writes to files tells its sources apart by their names, the file tree by the places that
the paths lead to. So a run of writes leaves at each place the last source that was accepted for it
(`Reflects`, kept by every write, whether it succeeds or not: `Reflects.writeAll`), and the
sources that were accepted are all intact exactly when no two different ones were meant for one place
(`intact_iff`). Names whose segments can all be names of files lead to places of their own
(`placeOf_injective`), others do not (`sources_collide`).
-/

namespace Bindery

open Bindery.Text

/-! ## Runs -/

section

variable {κ : Type}

/-- The sink after some calls, each a name with a source. A failure does not keep the next call from
being made. -/
def writeAll (write : Writing κ) (calls : List (String × String)) (sink : κ) : κ :=
  calls.foldl (fun sink call => (write call.1 call.2 sink).2) sink

/-- The calls of a run whose sources were taken, oldest first. -/
def accepted (write : Writing κ) : List (String × String) → κ → List (String × String)
  | [], _ => []
  | call :: rest, sink =>
    match write call.1 call.2 sink with
    | (.ok _, sink) => call :: accepted write rest sink
    | (.error _, sink) => accepted write rest sink

theorem writeAll_cons (write : Writing κ) (call : String × String) (rest : List (String × String))
    (sink : κ) :
    writeAll write (call :: rest) sink = writeAll write rest (write call.1 call.2 sink).2 := rfl

theorem mem_of_mem_accepted {write : Writing κ} {calls : List (String × String)} {sink : κ}
    {call : String × String} (h : call ∈ accepted write calls sink) : call ∈ calls := by
  induction calls generalizing sink with
  | nil => exact h
  | cons first rest ih =>
    unfold accepted at h
    split at h
    · rcases List.mem_cons.mp h with rfl | h
      · exact List.mem_cons_self
      · exact List.mem_cons_of_mem first (ih h)
    · exact List.mem_cons_of_mem first (ih h)

end

/-- Whether a fault is met when the file is open already. -/
def SinkFault.IsLate (fault : SinkFault) : Prop := ∃ path cause, fault = .brokenOff path cause

namespace TreeSink

open FileTree

variable {host : Host}

/-- A sink that has not taken any source. -/
def fresh (root extension : String) (tree : FileTree) : TreeSink :=
  ⟨.ofText root, extension, [], tree⟩

theorem wellFormed_pathFor {sink : TreeSink} (h : sink.root.WellFormed) (name : String) :
    (sink.pathFor name).WellFormed := by
  unfold pathFor fileFor
  exact h.joinAll _

/-! ## One write -/

/-- What it is to write a file at a path: the file is there, and elsewhere there may be new folders. -/
structure Placed (before after : FileTree) (p : Path) (bytes : List UInt8) : Prop where
  lost_nothing : Extends before after
  there : HasFile after p bytes
  elsewhere : ∀ place, place ≠ before.spot p →
    after.node? place = before.node? place ∨
      before.node? place = none ∧ after.node? place = some .folder

/-- The placing of a file fails, at the latest when the folders above it have been made, or the file
is put in the last of them: with its contents, or with a beginning of them if the host breaks off. -/
theorem place_steps (host : Host) (p : Path) (contents : String) (tree : FileTree) :
    (∃ fault after, place host p contents tree = (.error fault, after) ∧
      (∀ name, fault ≠ .alreadyWritten name) ∧ ¬ fault.IsLate ∧
      (after = tree ∨ after = (tree.makeFolders host p.parent).2)) ∨
    ∃ made bytes after, tree.makeFolders host p.parent = (.ok (), made) ∧ hasNull p.text = false ∧
      made.putFile p bytes = .ok after ∧
      (bytes = encode contents ∧ place host p contents tree = (.ok (), after) ∨
        ∃ count cause, bytes = (encode contents).take count ∧
          host.breaksOff made p = some (count, cause) ∧
          place host p contents tree = (.error (.brokenOff p cause), after)) := by
  unfold place
  split
  · exact .inl ⟨_, _, rfl, nofun, nofun, .inl rfl⟩
  · rcases tree.makeFolders host p.parent with ⟨⟨cause, met⟩ | _ | _, made⟩
    · exact .inl ⟨_, _, rfl, nofun, nofun, .inr rfl⟩
    · exact .inl ⟨_, _, rfl, nofun, nofun, .inr rfl⟩
    · dsimp only
      split
      · exact .inl ⟨_, _, rfl, nofun, nofun, .inr rfl⟩
      · next hnull =>
        have hnamed := Bool.eq_false_of_not_eq_true hnull
        rcases writeFile_cases host made p (encode contents) with
          ⟨cause, hwrite⟩ | ⟨cause, count, after, hwrite, hbreaks, hput⟩ | ⟨after, hwrite, hput⟩
        · rw [hwrite]
          exact .inl ⟨_, _, rfl, nofun, nofun, .inr rfl⟩
        · rw [hwrite]
          exact .inr ⟨made, _, after, rfl, hnamed, hput, .inr ⟨count, cause, rfl, hbreaks, rfl⟩⟩
        · rw [hwrite]
          exact .inr ⟨made, _, after, rfl, hnamed, hput, .inl ⟨rfl, rfl⟩⟩

/-- What is put in a file when the folders above it have been made is there, and else there may be new
folders. -/
theorem placed_of_putFile {p : Path} (hp : p.WellFormed) {tree made after : FileTree}
    {bytes : List UInt8} (hmade : tree.makeFolders host p.parent = (.ok (), made))
    (hnull : hasNull p.text = false) (hput : made.putFile p bytes = .ok after) :
    Placed tree after p bytes := by
  obtain ⟨hgrows, -⟩ := makeFolders_spec host hp.parent tree
  rw [hmade] at hgrows
  obtain ⟨hafter, hfree, hfile⟩ := putFile_spec hp hput hnull
  refine ⟨?_, hfile, ?_⟩
  · rw [hafter]
    exact hgrows.extends.trans (extends_set_file hfree _)
  · intro place hplace
    rw [hafter, node?_set (ne_top_of_node? hfree), if_neg]
    · exact hgrows.node place
    · rwa [spot_eq hgrows.here]

/-- A file is written, or, unless the host breaks off, some folders are made and nothing else is
changed. -/
theorem place_cases (host : Host) {p : Path} (hp : p.WellFormed) (contents : String)
    (tree : FileTree) :
    (∃ fault after, place host p contents tree = (.error fault, after) ∧
      (fault.IsLate → ∃ made, (host.breaksOff made p).isSome = true) ∧
      (¬ fault.IsLate → Grows tree after)) ∨
    ∃ after, place host p contents tree = (.ok (), after) ∧
      Placed tree after p (encode contents) := by
  obtain ⟨hgrows, -⟩ := makeFolders_spec host hp.parent tree
  rcases place_steps host p contents tree with ⟨fault, after, hplace, -, hearly, hleft⟩ |
    ⟨made, bytes, after, hmade, hnull, hput, ⟨rfl, hplace⟩ | ⟨count, cause, -, hbreaks, hplace⟩⟩
  · refine .inl ⟨fault, after, hplace, fun hlate => absurd hlate hearly, fun _ => ?_⟩
    rcases hleft with rfl | rfl
    · exact .refl _
    · exact hgrows
  · exact .inr ⟨after, hplace, placed_of_putFile hp hmade hnull hput⟩
  · refine .inl ⟨_, after, hplace, fun _ => ⟨made, by rw [hbreaks]; rfl⟩, ?_⟩
    exact fun hearly => absurd ⟨p, cause, rfl⟩ hearly

/-- A write is refused because the name was accepted before, or fails, after making some folders if
nothing worse, or takes the source. -/
theorem writeOn_cases (host : Host) {sink : TreeSink} (hroot : sink.root.WellFormed)
    (name contents : String) :
    (sink.written.contains name = true ∧
      writeOn host name contents sink = (.error (.alreadyWritten name), sink)) ∨
    (∃ fault after, sink.written.contains name = false ∧
      writeOn host name contents sink = (.error fault, { sink with tree := after }) ∧
      (host.IsCalm → Grows sink.tree after)) ∨
    ∃ record after, sink.written.contains name = false ∧
      writeOn host name contents sink =
        (.ok record, { sink with tree := after, written := sink.written ++ [name] }) ∧
      Placed sink.tree after (sink.pathFor name) (encode contents) := by
  unfold writeOn
  by_cases hwritten : sink.written.contains name = true
  · left
    rw [if_pos hwritten]
    exact ⟨hwritten, rfl⟩
  right
  have hnew := Bool.eq_false_of_not_eq_true hwritten
  rw [if_neg hwritten]
  rcases place_cases host (wellFormed_pathFor hroot name) contents sink.tree with
    ⟨fault, after, hplace, hlate, hgrows⟩ | ⟨after, hplace, hplaced⟩
  · left
    simp only [hplace]
    refine ⟨fault, after, hnew, rfl, fun hcalm => hgrows fun hislate => ?_⟩
    obtain ⟨made, hbreaks⟩ := hlate hislate
    rw [hcalm.writing] at hbreaks
    exact Bool.false_ne_true hbreaks
  · right
    simp only [hplace]
    exact ⟨_, after, hnew, rfl, hplaced⟩

/-- On the usual host a write that fails makes some folders at most. -/
theorem write_cases {sink : TreeSink} (hroot : sink.root.WellFormed) (name contents : String) :
    (sink.written.contains name = true ∧
      write name contents sink = (.error (.alreadyWritten name), sink)) ∨
    (∃ fault after, sink.written.contains name = false ∧
      write name contents sink = (.error fault, { sink with tree := after }) ∧
      Grows sink.tree after) ∨
    ∃ record after, sink.written.contains name = false ∧
      write name contents sink =
        (.ok record, { sink with tree := after, written := sink.written ++ [name] }) ∧
      Placed sink.tree after (sink.pathFor name) (encode contents) := by
  rcases writeOn_cases .usual hroot name contents with
    htaken | ⟨fault, after, hnew, hwrite, hgrows⟩ | hplaced
  · exact .inl htaken
  · exact .inr (.inl ⟨fault, after, hnew, hwrite, hgrows Host.isCalm_usual⟩)
  · exact .inr (.inr hplaced)

/-! ## What a run leaves behind -/

/-- The sources by their places, each written over the one before. -/
def sourcesAt (sink : TreeSink) (taken : List (String × String)) : Ledger Location String :=
  .ofEntries (taken.map fun call => (sink.placeOf call.1, call.2))

theorem get?_sourcesAt_append (sink : TreeSink) (taken : List (String × String))
    (call : String × String) (place : Location) :
    (sink.sourcesAt (taken ++ [call])).get? place =
      if place = sink.placeOf call.1 then some call.2 else (sink.sourcesAt taken).get? place := by
  have hput : sink.sourcesAt (taken ++ [call]) =
      (sink.sourcesAt taken).put (sink.placeOf call.1) call.2 := by
    unfold sourcesAt Ledger.ofEntries
    rw [List.map_append, List.foldl_append]
    rfl
  rw [hput, Ledger.get?_put]
  by_cases h : place = sink.placeOf call.1
  · rw [if_pos h, if_pos (by simp [h])]
  · rw [if_neg h, if_neg (by simpa using Ne.symm h)]

/-- The source that is found at a place was accepted for it. -/
theorem exists_of_get?_sourcesAt {sink : TreeSink} {taken : List (String × String)}
    {place : Location} {contents : String}
    (h : (sink.sourcesAt taken).get? place = some contents) :
    ∃ call ∈ taken, sink.placeOf call.1 = place ∧ call.2 = contents := by
  induction taken using List.reverseRecOn with
  | nil => cases h
  | append_singleton taken call ih =>
    rw [get?_sourcesAt_append] at h
    by_cases hplace : place = sink.placeOf call.1
    · rw [if_pos hplace] at h
      exact ⟨call, by simp, hplace.symm, Option.some.inj h⟩
    · rw [if_neg hplace] at h
      obtain ⟨other, hother, hsame⟩ := ih h
      exact ⟨other, List.mem_append_left [call] hother, hsame⟩

/-- `sink` is what `start` has become after taking some sources: the file of each of them holds the
last source that was taken for its place. -/
structure Reflects (start : TreeSink) (taken : List (String × String)) (sink : TreeSink) : Prop where
  root : sink.root = start.root
  extension : sink.extension = start.extension
  here : sink.tree.here = start.tree.here
  files : ∀ call ∈ taken, ∃ contents,
    (start.sourcesAt taken).get? (start.placeOf call.1) = some contents ∧
      HasFile sink.tree (start.pathFor call.1) (encode contents)

variable {start sink : TreeSink} {taken : List (String × String)}

theorem Reflects.refl (start : TreeSink) : Reflects start [] start :=
  ⟨rfl, rfl, rfl, fun _ h => absurd h List.not_mem_nil⟩

theorem Reflects.pathFor_eq (h : Reflects start taken sink) (name : String) :
    sink.pathFor name = start.pathFor name := by
  unfold pathFor
  rw [h.root, h.extension]

/-- Folders that are added change no source. -/
theorem Reflects.grow (h : Reflects start taken sink) {after : FileTree}
    (hgrows : Grows sink.tree after) : Reflects start taken { sink with tree := after } := by
  refine ⟨h.root, h.extension, hgrows.here.trans h.here, fun call hcall => ?_⟩
  obtain ⟨contents, hcontents, hfile⟩ := h.files call hcall
  exact ⟨contents, hcontents, hfile.extends hgrows.extends (hgrows.kept hfile.node)⟩

/-- A file that is written holds the source that was taken last for its place. -/
theorem Reflects.take (h : Reflects start taken sink) {name contents : String} {after : FileTree}
    (hplaced : Placed sink.tree after (sink.pathFor name) (encode contents)) :
    Reflects start (taken ++ [(name, contents)])
      { sink with tree := after, written := sink.written ++ [name] } := by
  have hafter : after.here = sink.tree.here := hplaced.lost_nothing.here
  have hspot : ∀ other, sink.tree.spot (start.pathFor other) = start.placeOf other := fun other =>
    spot_eq h.here _
  have hnew := hplaced.there
  rw [h.pathFor_eq] at hnew
  refine ⟨h.root, h.extension, hafter.trans h.here, fun call hcall => ?_⟩
  rw [get?_sourcesAt_append]
  -- a source taken before for the same place gives way to the new one, and any other stays
  by_cases hplace : start.placeOf call.1 = start.placeOf name
  · refine ⟨contents, if_pos hplace, ?_⟩
    have hnode : after.node? (sink.tree.spot (start.pathFor call.1)) =
        some (.file (encode contents)) := by
      rw [hspot, hplace, ← hspot, ← spot_eq hafter]
      exact hnew.node
    rcases List.mem_append.mp hcall with hold | hlast
    · obtain ⟨old, -, hfile⟩ := h.files call hold
      exact hfile.extends hplaced.lost_nothing hnode
    · rw [List.mem_singleton.mp hlast]
      exact hnew
  · have hold : call ∈ taken := by
      rcases List.mem_append.mp hcall with hold | hlast
      · exact hold
      · rw [List.mem_singleton.mp hlast] at hplace
        exact absurd rfl hplace
    obtain ⟨old, hget, hfile⟩ := h.files call hold
    rw [if_neg hplace]
    refine ⟨old, hget, hfile.extends hplaced.lost_nothing ?_⟩
    have hother : sink.tree.spot (start.pathFor call.1) ≠ sink.tree.spot (sink.pathFor name) := by
      rw [h.pathFor_eq, hspot, hspot]
      exact hplace
    rcases hplaced.elsewhere _ hother with hsame | ⟨hnone, -⟩
    · rw [hsame, hfile.node]
    · rw [hfile.node] at hnone
      cases hnone

/-- After any run each file holds the source that was taken last for its place. -/
theorem Reflects.writeAll (hroot : start.root.WellFormed) (h : Reflects start taken sink)
    (calls : List (String × String)) :
    Reflects start (taken ++ accepted write calls sink) (writeAll write calls sink) := by
  -- each call keeps what the sink reflects, whether it is refused, fails or is taken
  induction calls generalizing sink taken with
  | nil =>
    show Reflects start (taken ++ []) sink
    rwa [List.append_nil]
  | cons call rest ih =>
    have hsink : sink.root.WellFormed := h.root ▸ hroot
    rw [writeAll_cons]
    unfold accepted
    rcases write_cases hsink call.1 call.2 with ⟨-, hwrite⟩ | ⟨fault, after, -, hwrite, hgrows⟩ |
      ⟨record, after, -, hwrite, hplaced⟩
    · rw [hwrite]
      exact ih h
    · rw [hwrite]
      exact ih (h.grow hgrows)
    · rw [hwrite]
      have hrest := ih (h.take hplaced)
      rwa [List.append_assoc] at hrest

/-- The names of the sources that were taken are all different. -/
theorem nodup_accepted {sink : TreeSink} (hroot : sink.root.WellFormed)
    (hnodup : sink.written.Nodup) (calls : List (String × String)) :
    (sink.written ++ (accepted write calls sink).map Prod.fst).Nodup := by
  induction calls generalizing sink with
  | nil => simpa [accepted] using hnodup
  | cons call rest ih =>
    unfold accepted
    rcases write_cases hroot call.1 call.2 with ⟨-, hwrite⟩ | ⟨fault, after, -, hwrite, -⟩ |
      ⟨record, after, hnew, hwrite, -⟩
    · rw [hwrite]
      exact ih hroot hnodup
    · rw [hwrite]
      exact @ih { sink with tree := after } hroot hnodup
    · rw [hwrite, List.map_cons, ← List.singleton_append, ← List.append_assoc]
      -- a name that was taken is recorded, and would have been refused
      have hmore : (sink.written ++ [call.1]).Nodup := by
        rw [List.nodup_append]
        refine ⟨hnodup, List.nodup_singleton _, ?_⟩
        rintro written hwritten _ hlast rfl
        rw [List.mem_singleton.mp hlast] at hwritten
        rw [List.contains_iff_mem.mpr hwritten] at hnew
        cases hnew
      exact @ih { sink with tree := after, written := sink.written ++ [call.1] } hroot hmore

private theorem encode_injective {a b : String} (h : encode a = encode b) : a = b := by
  unfold encode at h
  rw [← String.toByteArray_inj]
  exact ByteArray.ext (Array.toList_inj.mp h)

/-- What a run of writes leaves in the files. At the path of each source that was taken there is the
one that was taken last for the same place. So each of them is found there unchanged exactly if any
two that were taken for one place are equal. This is so if the names are proper: then no two of them
are for one place. -/
theorem intact_iff (root extension : String) (tree : FileTree) (calls : List (String × String)) :
    let start := fresh root extension tree
    let taken := accepted write calls start
    let found := fun name => (writeAll write calls start).tree.find (start.pathFor name).text
    (∀ call ∈ taken, ∃ contents,
      (start.sourcesAt taken).get? (start.placeOf call.1) = some contents ∧
        found call.1 = .found (.file (encode contents))) ∧
    ((∀ call ∈ taken, found call.1 = .found (.file (encode call.2))) ↔
      ∀ a ∈ taken, ∀ b ∈ taken, start.placeOf a.1 = start.placeOf b.1 → a.2 = b.2) ∧
    (Path.separator ∉ extension.toList → (∀ call ∈ calls, ProperName call.1) →
      ∀ call ∈ taken, found call.1 = .found (.file (encode call.2))) := by
  intro start taken found
  have hroot : start.root.WellFormed := Path.wellFormed_ofText root
  have hreflects : Reflects start taken (writeAll write calls start) :=
    (Reflects.refl start).writeAll hroot calls
  have hlast : ∀ call ∈ taken, ∃ contents,
      (start.sourcesAt taken).get? (start.placeOf call.1) = some contents ∧
        found call.1 = .found (.file (encode contents)) := by
    intro call hcall
    obtain ⟨contents, hget, hfile⟩ := hreflects.files call hcall
    exact ⟨contents, hget, hfile.find (wellFormed_pathFor hroot call.1)⟩
  have hiff : (∀ call ∈ taken, found call.1 = .found (.file (encode call.2))) ↔
      ∀ a ∈ taken, ∀ b ∈ taken, start.placeOf a.1 = start.placeOf b.1 → a.2 = b.2 := by
    constructor
    · intro hintact a ha b hb hplace
      -- both are the source that was taken last for the place
      have hcontents : ∀ call ∈ taken,
          (start.sourcesAt taken).get? (start.placeOf call.1) = some call.2 := by
        intro call hcall
        obtain ⟨contents, hget, hfound⟩ := hlast call hcall
        rw [hintact call hcall] at hfound
        have hsame : encode call.2 = encode contents := by simpa using hfound
        rw [encode_injective hsame, hget]
      have hget := hcontents a ha
      rw [hplace, hcontents b hb] at hget
      exact (Option.some.inj hget).symm
    · intro hequal call hcall
      obtain ⟨contents, hget, hfound⟩ := hlast call hcall
      obtain ⟨other, hother, hplace, hcontents⟩ := exists_of_get?_sourcesAt hget
      rw [hfound, ← hcontents, hequal other hother call hcall hplace]
  refine ⟨hlast, hiff, ?_⟩
  intro hext hproper
  rw [hiff]
  intro a ha b hb hplace
  -- proper names with one place are one name, and no name is taken twice
  have hname : a.1 = b.1 := placeOf_injective (hproper a (mem_of_mem_accepted ha))
    (hproper b (mem_of_mem_accepted hb)) hext hplace
  have hnodup : (taken.map Prod.fst).Nodup := nodup_accepted hroot List.nodup_nil calls
  rw [List.inj_on_of_nodup_map hnodup ha hb hname]

/-- A class and a package of one name, and a second source for the class, which is refused. -/
theorem intact_iff_sample :
    let start := fresh "out" defaultExtension (.startingAt ["work"])
    let calls := [("a.B", "first"), ("a", "second"), ("a.B", "third")]
    let after := writeAll write calls start
    accepted write calls start = [("a.B", "first"), ("a", "second")] ∧
      after.tree.find "out/a/B.java" = .found (.file (encode "first")) := by
  intro start calls after
  have htaken : accepted write calls start = [("a.B", "first"), ("a", "second")] := by
    decide +kernel
  obtain ⟨-, -, hproper⟩ := intact_iff "out" defaultExtension (.startingAt ["work"]) calls
  refine ⟨htaken, ?_⟩
  have hpath : (start.pathFor "a.B").text = "out/a/B.java" := by decide +kernel
  rw [← hpath]
  refine hproper (by decide +kernel) ?_ ("a.B", "first") ?_
  · unfold ProperName
    decide +kernel
  · rw [htaken]
    exact List.mem_cons_self

/-- An empty segment is no folder, so that two classes may share a file: the second source is
written over the first, although both were taken. -/
theorem sources_collide :
    let start := fresh "out" defaultExtension (.startingAt ["work"])
    let calls := [("a.B", "first"), ("a..B", "second")]
    accepted write calls start = calls ∧
      ¬ ∀ call ∈ accepted write calls start,
        (writeAll write calls start).tree.find (start.pathFor call.1).text =
          .found (.file (encode call.2)) := by
  decide +kernel

end TreeSink

end Bindery
