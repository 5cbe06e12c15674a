import Bindery.Proofs.TreeGrowth

/-!
# When folders can be made

On a host that goes along with everything (`Host.IsCalm`) and has room for a call for each part of a
path, making a folder that is there changes nothing (`makeFolders_of_hasFolder`). Once a folder has
been made, those below it are made as if it had been there from the beginning (`makeFolders_child`),
so that a whole chain of folders can be made below it as long as no file is in the way
(`makeFolders_below`), and nothing but the chain is new. A file is then written into the last of them
(`putFile_child`).
-/

namespace Bindery

/-- A host that neither refuses nor breaks off anything. -/
structure Host.IsCalm (host : Host) : Prop where
  folder : ∀ t p, host.refusesFolder t p = none
  file : ∀ t p, host.refusesFile t p = none
  writing : ∀ t p, host.breaksOff t p = none

theorem Host.isCalm_usual : Host.usual.IsCalm := ⟨fun _ _ => rfl, fun _ _ => rfl, fun _ _ => rfl⟩

end Bindery

namespace Bindery.FileTree

open Bindery.Text

variable {t t' made : FileTree} {p : Path} {name : String} {host : Host}

/-! ## Paths above -/

/-- A path is written without null characters if all of its parts are. -/
theorem hasNull_text (p : Path) :
    hasNull p.text = false ↔ ∀ part ∈ p.parts, '\x00' ∉ part.toList := by
  have hwritten : '\x00' ∈ p.written ↔ ∃ part ∈ p.parts, '\x00' ∈ part.toList := by
    have hanchor : '\x00' ∉ Path.anchorText p.anchor := by cases p.anchor <;> decide
    unfold Path.written
    rw [List.mem_append, or_iff_right hanchor, mem_joined (by decide)]
    simp
  have htext : '\x00' ∈ p.text.toList ↔ '\x00' ∈ p.written := by
    rw [Path.toList_text]
    split
    · next hnil => simp [hnil]
    · rfl
  unfold hasNull
  rw [← Bool.not_eq_true, List.contains_iff_mem, htext, hwritten]
  simp

theorem hasNull_above {anchor : Anchor} {above below : List String}
    (h : hasNull (Path.text ⟨anchor, above ++ below⟩) = false) :
    hasNull (Path.text ⟨anchor, above⟩) = false := by
  rw [hasNull_text] at h ⊢
  exact fun part hpart => h part (List.mem_append_left below hpart)

theorem pathTooLong_above {anchor : Anchor} {above below : List String}
    (h : pathTooLong (Path.text ⟨anchor, above ++ below⟩) = false) :
    pathTooLong (Path.text ⟨anchor, above⟩) = false := by
  rcases Path.text_above anchor above below with hdot | ⟨rest, hrest⟩
  · rw [hdot]
    decide
  · unfold pathTooLong at h ⊢
    rw [hrest, String.utf8ByteSize_append, decide_eq_false_iff_not] at h
    rw [decide_eq_false_iff_not]
    omega

/-! ## One call after the other -/

/-- One call is enough for a folder that is there, or can be made in the one above. -/
theorem makeFolders_of_ok (hroom : 0 < host.room) (h : t.needFolder host p = .ok t') :
    t.makeFolders host p = (.ok (), t') := by
  obtain ⟨room, hroom⟩ := Nat.exists_eq_add_one.mpr hroom
  unfold makeFolders
  rw [hroom]
  apply makeFoldersFor_of_ok
  rwa [List.reverse_reverse]

/-- One call is enough to find that more than the folder above is amiss. -/
theorem makeFolders_of_error (hroom : 0 < host.room) {f : Fault}
    (h : t.needFolder host p = .error f) (hf : f ≠ .missing) :
    t.makeFolders host p = (.error (.met f p), t) := by
  obtain ⟨room, hroom⟩ := Nat.exists_eq_add_one.mpr hroom
  have hback : (⟨p.anchor, p.parts.reverse.reverse⟩ : Path) = p := by rw [List.reverse_reverse]
  unfold makeFolders
  rw [hroom, makeFoldersFor_of_error (by rw [hback, h]) hf, hback]

/-- Where a call can be nested for each part of a path, more room changes nothing. -/
theorem makeFoldersFor_room (anchor : Anchor) {parts : List String} {room room' : Nat}
    (h : parts.length < room) (h' : parts.length < room') :
    makeFoldersFor host anchor room parts t = makeFoldersFor host anchor room' parts t := by
  induction parts generalizing room room' with
  | nil =>
    obtain ⟨less, rfl⟩ := Nat.exists_eq_add_one.mpr (Nat.zero_lt_of_lt h)
    obtain ⟨less', rfl⟩ := Nat.exists_eq_add_one.mpr (Nat.zero_lt_of_lt h')
    rfl
  | cons name above ih =>
    obtain ⟨less, rfl⟩ := Nat.exists_eq_add_one.mpr (Nat.zero_lt_of_lt h)
    obtain ⟨less', rfl⟩ := Nat.exists_eq_add_one.mpr (Nat.zero_lt_of_lt h')
    rw [makeFoldersFor, makeFoldersFor, ih (Nat.lt_of_succ_lt_succ h) (Nat.lt_of_succ_lt_succ h')]

/-- A folder that is missing above is made first. -/
theorem makeFolders_of_missing {anchor : Anchor} {above : List String}
    (hroom : (above ++ [name]).length < host.room)
    (h : t.needFolder host ⟨anchor, above ++ [name]⟩ = .error .missing) :
    t.makeFolders host ⟨anchor, above ++ [name]⟩ =
      match t.makeFolders host ⟨anchor, above⟩ with
      | (.error e, made) => (.error e, made)
      | (.ok (), made) =>
        match made.needFolder host ⟨anchor, above ++ [name]⟩ with
        | .ok last => (.ok (), last)
        | .error f => (.error (.met f ⟨anchor, above ++ [name]⟩), made) := by
  have hback : (name :: above.reverse).reverse = above ++ [name] := by simp
  have hnames : (above ++ [name]).reverse = name :: above.reverse := by simp
  rw [List.length_append, List.length_singleton] at hroom
  obtain ⟨room, hless⟩ := Nat.exists_eq_add_one.mpr (Nat.zero_lt_of_lt hroom)
  have hshort : above.reverse.length < room := by
    rw [List.length_reverse]
    omega
  -- the nested call has one call less, which is enough for the folders above
  have habove : t.makeFolders host ⟨anchor, above⟩ =
      makeFoldersFor host anchor room above.reverse t :=
    makeFoldersFor_room anchor (by omega : above.reverse.length < host.room) hshort
  have hself : t.makeFolders host ⟨anchor, above ++ [name]⟩ =
      makeFoldersFor host anchor (room + 1) (name :: above.reverse) t := by
    rw [← hless, ← hnames]
    rfl
  have hmissing : t.needFolder host ⟨anchor, (name :: above.reverse).reverse⟩ =
      .error .missing := by
    rw [hback, h]
  rw [hself, habove]
  have hmake : makeFoldersFor host anchor (room + 1) (name :: above.reverse) t = _ :=
    makeFoldersFor_of_missing hmissing
  rw [hback] at hmake
  exact hmake

/-! ## A folder that is there -/

/-- Where something is found, the path above leads to a folder. -/
theorem hasFolder_above {anchor : Anchor} {above below : List String} {place : Location}
    (hbelow : below ≠ []) (h : t.locate ⟨anchor, above ++ below⟩ = .ok place) :
    HasFolder t ⟨anchor, above⟩ := by
  obtain ⟨name, rest, rfl⟩ := List.exists_cons_of_ne_nil hbelow
  unfold locate at h
  rw [walk_append] at h
  cases hwalk : t.walk (t.start anchor) above with
  | error f =>
    rw [hwalk] at h
    cases h
  | ok mid =>
    rw [hwalk] at h
    have hlocate : t.locate ⟨anchor, above⟩ = .ok mid := hwalk
    have hspot := eq_spot_of_locate hlocate
    have hrest : t.walk mid (name :: rest) = .ok place := h
    rw [walk_cons] at hrest
    cases henter : t.enter mid name with
    | error f =>
      rw [henter] at hrest
      cases hrest
    | ok next =>
      obtain ⟨hnode, -⟩ := enter_ok henter
      rw [hspot] at hlocate hnode
      exact ⟨hlocate, hnode⟩

/-- The path of a folder that is there ends in no name, or leads up, or names a place in a folder. -/
theorem target_of_hasFolder (hp : p.WellFormed) (hfits : pathTooLong p.text = false)
    (h : HasFolder t p) :
    t.target p = .ok .folder ∨
      ∃ parent name, t.target p = .ok (.entry parent name) ∧ t.spot p = parent ++ [name] := by
  unfold target
  rw [hfits]
  cases hlast : p.parts.getLast? with
  | none => exact .inl rfl
  | some name =>
    have hparts : p.parts = p.parent.parts ++ [name] :=
      (List.dropLast_append_getLast? name hlast).symm
    have hlocated := h.located
    rw [locate_child t hparts] at hlocated
    cases hparent : t.locate p.parent with
    | error f =>
      rw [hparent] at hlocated
      cases hlocated
    | ok place =>
      rw [hparent] at hlocated
      have henter : t.enter place name = .ok (t.spot p) := hlocated
      obtain ⟨hfolder, hspot⟩ := enter_ok henter
      have hwalk : t.walk (t.start p.anchor) p.parts.dropLast = .ok place := hparent
      simp only [hwalk, hfolder, Bool.false_eq_true, if_false]
      by_cases hup : name = ".."
      · left
        rw [if_pos hup]
      · right
        have hname : Path.IsPart name := hp name (by rw [hparts]; simp)
        rw [descend_part place hname hup] at hspot
        have hlong : tooLong name = false := by
          by_contra hlong
          obtain ⟨hempty, hdot, -⟩ := Path.isPart_iff.mp hname
          unfold enter at henter
          rw [hfolder] at henter
          simp [hempty, hdot, hup, hlong] at henter
        rw [if_neg hup, hlong]
        exact ⟨place, name, rfl, hspot⟩

/-- A folder that is there need not be made. -/
theorem needFolder_of_hasFolder (hcalm : host.IsCalm) (hp : p.WellFormed)
    (hnull : hasNull p.text = false) (hfits : pathTooLong p.text = false) (h : HasFolder t p) :
    t.needFolder host p = .ok t := by
  have htaken : t.makeFolder p = .error .taken := by
    unfold makeFolder
    rcases target_of_hasFolder hp hfits h with htarget | ⟨parent, name, htarget, hspot⟩
    · rw [htarget]
    · rw [htarget]
      have hnode : (t.node? (parent ++ [name])).isSome = true := by
        rw [← hspot, h.node]
        rfl
      simp only [hnode, if_true]
  unfold needFolder
  rw [hcalm.folder, htaken]
  simp only [(isFolder_iff hp).mpr ⟨hnull, hfits, h⟩, if_true]

theorem makeFolders_of_hasFolder (hcalm : host.IsCalm) (hroom : 0 < host.room)
    (hp : p.WellFormed) (hnull : hasNull p.text = false) (hfits : pathTooLong p.text = false)
    (h : HasFolder t p) : t.makeFolders host p = (.ok (), t) :=
  makeFolders_of_ok hroom (needFolder_of_hasFolder hcalm hp hnull hfits h)

/-! ## A folder in a folder -/

variable {anchor : Anchor} {above names : List String}

/-- In a folder that is there a new name can be given to something. -/
theorem target_child (h : HasFolder t ⟨anchor, above⟩) (hup : name ≠ "..")
    (hlong : tooLong name = false)
    (hfits : pathTooLong (Path.text ⟨anchor, above ++ [name]⟩) = false) :
    t.target ⟨anchor, above ++ [name]⟩ = .ok (.entry (t.spot ⟨anchor, above⟩) name) := by
  have hlast : (above ++ [name]).getLast? = some name := by simp
  have habove : (above ++ [name]).dropLast = above := by simp
  have hwalk : t.walk (t.start anchor) above = .ok (t.spot ⟨anchor, above⟩) := h.located
  unfold target
  simp only [hfits, hlast, habove, hwalk, h.node, hup, hlong, Bool.false_eq_true, if_false]

/-- A folder whose folder above is missing cannot be made at once. -/
theorem needFolder_missing (hcalm : host.IsCalm)
    (hfits : pathTooLong (Path.text ⟨anchor, above ++ [name]⟩) = false)
    (hnot : ¬ HasFolder t ⟨anchor, above⟩) (hgrows : Grows t made)
    (hmade : HasFolder made ⟨anchor, above⟩) :
    t.needFolder host ⟨anchor, above ++ [name]⟩ = .error .missing := by
  have hlast : (above ++ [name]).getLast? = some name := by simp
  have habove : (above ++ [name]).dropLast = above := by simp
  have htarget : t.target ⟨anchor, above ++ [name]⟩ = .error .missing := by
    unfold target
    simp only [hfits, hlast, habove, Bool.false_eq_true, if_false]
    cases hlocate : t.locate ⟨anchor, above⟩ with
    | error f =>
      have hwalk : t.walk (t.start anchor) above = .error f := hlocate
      rw [hwalk]
      -- what is blocked by anything else would be blocked still
      by_contra hf
      have hblocked := locate_stable hgrows.extends (p := ⟨anchor, above⟩) (by
        rw [hlocate]
        intro hmissing
        cases hmissing
        exact hf rfl)
      rw [hlocate, hmade.located] at hblocked
      cases hblocked
    | ok place =>
      have hwalk : t.walk (t.start anchor) above = .ok place := hlocate
      obtain rfl := eq_spot_of_locate hlocate
      rw [hwalk]
      cases hnode : t.node? (t.spot ⟨anchor, above⟩) with
      | none => simp only [hnode]
      | some node =>
        cases node with
        | folder => exact absurd ⟨hlocate, hnode⟩ hnot
        | file bytes =>
          have hkept := hgrows.kept hnode
          rw [← spot_eq hgrows.here, hmade.node] at hkept
          cases hkept
  unfold needFolder makeFolder
  rw [hcalm.folder, htarget]

/-- Once a folder has been made, one in it is made as if it had been there from the beginning. -/
theorem makeFolders_child (hcalm : host.IsCalm) (hroom : (above ++ [name]).length < host.room)
    (hp : Path.WellFormed ⟨anchor, above ++ [name]⟩)
    (hnull : hasNull (Path.text ⟨anchor, above ++ [name]⟩) = false)
    (hfits : pathTooLong (Path.text ⟨anchor, above ++ [name]⟩) = false)
    (hmade : t.makeFolders host ⟨anchor, above⟩ = (.ok (), made)) :
    t.makeFolders host ⟨anchor, above ++ [name]⟩ =
      made.makeFolders host ⟨anchor, above ++ [name]⟩ := by
  have hpos : 0 < host.room := Nat.zero_lt_of_lt hroom
  have hpabove : Path.WellFormed ⟨anchor, above⟩ := hp.above (List.prefix_append above [name])
  have hnabove := hasNull_above hnull
  have hfabove := pathTooLong_above hfits
  obtain ⟨hgrows, hfolder⟩ := makeFolders_spec host hpabove t
  rw [hmade] at hgrows hfolder
  have hhas : HasFolder made ⟨anchor, above⟩ := hfolder rfl
  by_cases hthere : HasFolder t ⟨anchor, above⟩
  · rw [makeFolders_of_hasFolder hcalm hpos hpabove hnabove hfabove hthere] at hmade
    cases hmade
    rfl
  · rw [makeFolders_of_missing hroom (needFolder_missing hcalm hfits hthere hgrows hhas), hmade]
    cases hneed : made.needFolder host ⟨anchor, above ++ [name]⟩ with
    | ok last =>
      rw [makeFolders_of_ok hpos hneed]
      simp only [hneed]
    | error f =>
      by_cases hf : f = .missing
      · subst hf
        rw [makeFolders_of_missing hroom hneed,
          makeFolders_of_hasFolder hcalm hpos hpabove hnabove hfabove hhas]
      · rw [makeFolders_of_error hpos hneed hf]
        simp only [hneed]

/-- A name that leads down and is short enough. -/
structure FitName (name : String) : Prop where
  isPart : Path.IsPart name
  ne_up : name ≠ ".."
  short : tooLong name = false

/-- In a folder that is there one can be made, unless a file is in the way. -/
theorem makeFolders_in (hcalm : host.IsCalm) (hroom : 0 < host.room)
    (hp : Path.WellFormed ⟨anchor, above ++ [name]⟩)
    (hnull : hasNull (Path.text ⟨anchor, above ++ [name]⟩) = false)
    (hfits : pathTooLong (Path.text ⟨anchor, above ++ [name]⟩) = false) (hname : FitName name)
    (h : HasFolder t ⟨anchor, above⟩)
    (hfree : ∀ bytes, t.node? (t.spot ⟨anchor, above⟩ ++ [name]) ≠ some (.file bytes)) :
    ∃ last, t.makeFolders host ⟨anchor, above ++ [name]⟩ = (.ok (), last) ∧ last.here = t.here ∧
      ∀ q, last.node? q =
        if q = t.spot ⟨anchor, above⟩ ++ [name] then some .folder else t.node? q := by
  cases hnode : t.node? (t.spot ⟨anchor, above⟩ ++ [name]) with
  | none =>
    have hmake : t.makeFolder ⟨anchor, above ++ [name]⟩ =
        .ok (t.set (t.spot ⟨anchor, above⟩ ++ [name]) .folder) := by
      unfold makeFolder
      rw [target_child h hname.ne_up hname.short hfits]
      simp only [hnode, Option.isSome_none, Bool.false_eq_true, if_false]
    have hneed : t.needFolder host ⟨anchor, above ++ [name]⟩ =
        .ok (t.set (t.spot ⟨anchor, above⟩ ++ [name]) .folder) := by
      unfold needFolder
      rw [hcalm.folder, hmake]
    exact ⟨_, makeFolders_of_ok hroom hneed, rfl, node?_set (by simp) _⟩
  | some node =>
    cases node with
    | file bytes => exact absurd hnode (hfree bytes)
    | folder =>
      have hlocate : t.locate ⟨anchor, above ++ [name]⟩ =
          .ok (t.spot ⟨anchor, above⟩ ++ [name]) := by
        have hparts : (Path.mk anchor (above ++ [name])).parts =
            (Path.mk anchor (above ++ [name])).parent.parts ++ [name] := by simp [Path.parent]
        have hparent : (Path.mk anchor (above ++ [name])).parent = ⟨anchor, above⟩ := by
          simp [Path.parent]
        rw [locate_child t hparts, hparent, h.located]
        exact enter_part h.node hname.isPart hname.ne_up hname.short hnode
      have hspot := eq_spot_of_locate hlocate
      have hchild : HasFolder t ⟨anchor, above ++ [name]⟩ :=
        ⟨hspot ▸ hlocate, hspot ▸ hnode⟩
      refine ⟨t, makeFolders_of_hasFolder hcalm hroom hp hnull hfits hchild, rfl, fun q => ?_⟩
      split
      · next hq => rw [hq, hnode]
      · rfl

/-- What it is to make a chain of folders: there is one at each place on the way from `base` down the
names, and everything else is as it was. -/
structure Chained (before after : FileTree) (base : Location) (names : List String) : Prop where
  here : after.here = before.here
  node : ∀ q, after.node? q =
    if base <+: q ∧ q <+: base ++ names then some .folder else before.node? q

/-- The chain without names is the folder that it starts from. -/
theorem Chained.nil {base : Location} (h : t.node? base = some .folder) : Chained t t base [] := by
  refine ⟨rfl, fun q => ?_⟩
  split
  · next hq =>
    rw [List.append_nil] at hq
    have hsame : q = base := hq.2.eq_of_length_le hq.1.length_le
    rw [hsame, h]
  · rfl

/-- Behind the end of a chain nothing has changed. -/
theorem Chained.node?_beyond {base : Location} (h : Chained t made base names) (name : String) :
    made.node? (base ++ names ++ [name]) = t.node? (base ++ names ++ [name]) := by
  rw [h.node, if_neg]
  rintro ⟨-, hends⟩
  have hlength := hends.length_le
  rw [List.length_append, List.length_singleton] at hlength
  omega

/-- One more folder at the end of a chain makes a longer one. -/
theorem Chained.concat {base : Location} {last : FileTree} (h : Chained t made base names)
    (hhere : last.here = made.here)
    (hnode : ∀ q, last.node? q =
      if q = base ++ names ++ [name] then some .folder else made.node? q) :
    Chained t last base (names ++ [name]) := by
  refine ⟨hhere.trans h.here, fun q => ?_⟩
  rw [hnode, h.node, ← List.append_assoc]
  by_cases hq : q = base ++ names ++ [name]
  · have hchain : base <+: q := by
      rw [hq, List.append_assoc]
      exact List.prefix_append _ _
    rw [if_pos hq, if_pos ⟨hchain, hq ▸ List.prefix_refl _⟩]
  · -- of the places on the longer way only the last one is new
    have hiff : q <+: base ++ names ++ [name] ↔ q <+: base ++ names := by
      rw [List.prefix_concat_iff, or_iff_right hq]
    rw [if_neg hq]
    simp only [hiff]

/-- Below a folder that can be made a chain of folders can be made, unless a file is in the way.
Nothing else is new. -/
theorem makeFolders_below {root : Path} (hcalm : host.IsCalm)
    (hroom : (root.parts ++ names).length < host.room) (hroot : root.WellFormed)
    (hmade : t.makeFolders host root = (.ok (), made)) (hnames : ∀ name ∈ names, FitName name)
    (hnull : hasNull (Path.text ⟨root.anchor, root.parts ++ names⟩) = false)
    (hfits : pathTooLong (Path.text ⟨root.anchor, root.parts ++ names⟩) = false)
    (hfree : ∀ some_names, some_names <+: names → ∀ bytes,
      made.node? (made.spot root ++ some_names) ≠ some (.file bytes)) :
    ∃ last, t.makeFolders host ⟨root.anchor, root.parts ++ names⟩ = (.ok (), last) ∧
      Chained made last (made.spot root) names := by
  -- from the end: the last folder is made in a chain that is there by then
  induction names using List.reverseRecOn with
  | nil =>
    obtain ⟨-, hfolder⟩ := makeFolders_spec host hroot t
    rw [hmade] at hfolder
    rw [List.append_nil]
    exact ⟨made, hmade, .nil (hfolder rfl).node⟩
  | append_singleton names name ih =>
    rw [← List.append_assoc] at hnull hfits hroom
    have hshort : (root.parts ++ names).length < host.room := by
      rw [List.length_append] at hroom
      exact Nat.lt_of_le_of_lt (Nat.le_add_right _ _) hroom
    obtain ⟨mid, hmid, hchain⟩ := ih hshort
      (fun other hother => hnames other (List.mem_append_left [name] hother))
      (hasNull_above hnull) (pathTooLong_above hfits)
      (fun some_names hstart => hfree some_names (hstart.trans (List.prefix_append names [name])))
    have hp : Path.WellFormed ⟨root.anchor, root.parts ++ names ++ [name]⟩ := by
      intro part hpart
      rw [List.append_assoc] at hpart
      rcases List.mem_append.mp hpart with h | h
      · exact hroot part h
      · exact (hnames part h).isPart
    have hpmid : Path.WellFormed ⟨root.anchor, root.parts ++ names⟩ :=
      hp.above (List.prefix_append _ [name])
    obtain ⟨-, hfolder⟩ := makeFolders_spec host hpmid t
    rw [hmid] at hfolder
    have hspot : mid.spot ⟨root.anchor, root.parts ++ names⟩ = made.spot root ++ names := by
      rw [spot_append mid root fun other hother => ?_, spot_eq hchain.here]
      have hfit := hnames other (List.mem_append_left [name] hother)
      exact ⟨hfit.isPart, hfit.ne_up⟩
    have hnofile : ∀ bytes, mid.node? (mid.spot ⟨root.anchor, root.parts ++ names⟩ ++ [name]) ≠
        some (.file bytes) := by
      intro bytes
      rw [hspot, hchain.node?_beyond, List.append_assoc]
      exact hfree _ (List.prefix_refl _) bytes
    obtain ⟨last, hlast, hhere, hnode⟩ := makeFolders_in hcalm
      (Nat.zero_lt_of_lt hroom) hp hnull hfits (hnames name (by simp)) (hfolder rfl) hnofile
    rw [hspot] at hnode
    refine ⟨last, ?_, hchain.concat hhere hnode⟩
    rw [← List.append_assoc, makeFolders_child hcalm hroom hp hnull hfits hmid, hlast]

/-- A file can be written in a folder that is there, unless it is a folder itself. -/
theorem putFile_child (h : HasFolder t ⟨anchor, above⟩) (hname : FitName name)
    (hfits : pathTooLong (Path.text ⟨anchor, above ++ [name]⟩) = false)
    (hfree : t.node? (t.spot ⟨anchor, above⟩ ++ [name]) ≠ some .folder) (bytes : List UInt8) :
    t.putFile ⟨anchor, above ++ [name]⟩ bytes =
      .ok (t.set (t.spot ⟨anchor, above⟩ ++ [name]) (.file bytes)) := by
  unfold putFile
  rw [target_child h hname.ne_up hname.short hfits]
  simp only [hfree, if_false]

/-- What can be put in a file is written to it. -/
theorem writeFile_of_putFile (hcalm : host.IsCalm) {bytes : List UInt8}
    (h : t.putFile p bytes = .ok t') : t.writeFile host p bytes = (.ok (), t') := by
  unfold writeFile
  simp only [hcalm.file, hcalm.writing, h]

end Bindery.FileTree
