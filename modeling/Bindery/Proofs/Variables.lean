import Bindery.Proofs.Environment

/-!
# What the variables say

A variable addresses a setting if its name is the mark, an underscore and the address of the setting
in any case (`Addresses`); a variable with the mark whose name might be an address and is none is
ignored, and noted (`Ignored`).

`environment_meaning` is the whole of what is made of an environment: when there is nothing, because
a section is given as a whole and then a setting in it (`Clashes`), which mapping there is otherwise
(`Meant`), what is noted, and that the order of the variables does not matter where none of them
replaces what another one gives.
-/

namespace Bindery

/-- Whether an address is that of a setting in a section: its path goes on from that of the section
by one name. -/
def Address.IsIn (a whole : Address) : Prop := ∃ name, a.path = whole.path ++ [name]

theorem Address.isIn_iff {a whole : Address} : a.IsIn whole ↔ a = .level ∧ whole = .logging := by
  constructor
  · rintro ⟨name, h⟩
    cases a <;> cases whole <;> simp_all [path]
  · rintro ⟨rfl, rfl⟩
    exact ⟨"level", rfl⟩

/-- The first name of a path is the path of a setting by itself, or of a section. -/
theorem Address.exists_top (a : Address) :
    ∃ (top : Address) (name : String) (rest : List String),
      a.path = name :: rest ∧ top.path = [name] := by
  cases a with
  | level => exact ⟨.logging, "logging", ["level"], rfl, rfl⟩
  | classSuffix => exact ⟨.classSuffix, _, _, rfl, rfl⟩
  | modulePackage => exact ⟨.modulePackage, _, _, rfl, rfl⟩
  | outputDir => exact ⟨.outputDir, _, _, rfl, rfl⟩
  | logging => exact ⟨.logging, _, _, rfl, rfl⟩

namespace Config

/-! ## Names of variables -/

/-- Whether `rest` stands in a name behind the mark and an underscore and might be an address: it is
not empty, and not the word that gives the path of the file. -/
def MightAddress (mark name : String) (rest : List Char) : Prop :=
  name.toList = markText mark ++ rest ∧ rest ≠ [] ∧ rest ≠ pathVariable.toList

/-- Whether a variable addresses a setting or a section. -/
def Addresses (mark name : String) (a : Address) : Prop :=
  ∃ rest, MightAddress mark name rest ∧ Text.lower rest = a.written

/-- Whether a variable is ignored: it might address something, and does not. -/
def Ignored (mark name : String) : Prop :=
  (∃ rest, MightAddress mark name rest) ∧ ∀ a, ¬ Addresses mark name a

section

variable {mark name : String}

theorem addresses_iff {a : Address} : Addresses mark name a ↔ addressed? mark name = some a :=
  (addressed?_eq_some_iff mark name a).symm

theorem not_addresses_iff : (∀ a, ¬ Addresses mark name a) ↔ addressed? mark name = none := by
  rw [Option.eq_none_iff_forall_ne_some]
  exact forall_congr' fun a => not_congr addresses_iff

theorem ignored_iff :
    Ignored mark name ↔ (behindMark? mark name).isSome = true ∧ addressed? mark name = none := by
  unfold Ignored
  rw [not_addresses_iff, Option.isSome_iff_exists]
  exact and_congr (exists_congr fun rest => (behindMark?_eq_some_iff mark name rest).symm) Iff.rfl

instance (a : Address) : Decidable (Addresses mark name a) :=
  decidable_of_iff _ addresses_iff.symm

instance : Decidable (Ignored mark name) :=
  decidable_of_iff _ ignored_iff.symm

end

/-- What is noted about a variable that is ignored. -/
def ignoring (name : String) : Record :=
  ⟨.loader, "Ignoring " ++ name ++ ": not a configuration key"⟩

section

variable (mark : String) (env : Environment)

/-- What is noted about the variables that are ignored, in their order. -/
def notes : List Record :=
  (env.filter fun entry => Ignored mark entry.1).map fun entry => ignoring entry.1

/-- The text of the last variable that addresses something. -/
def lastText (a : Address) : Option String :=
  (env.filter fun entry => Addresses mark entry.1 a).getLast?.map Prod.snd

/-- Whether a section is given as a whole, and a setting in it afterwards. -/
def Clashes : Prop :=
  ∃ (whole inner : Address) (first later : String × String), inner.IsIn whole ∧
    [first, later].Sublist env ∧ Addresses mark first.1 whole ∧ Addresses mark later.1 inner

theorem given_eq :
    given mark env = env.filterMap fun entry => (addressed? mark entry.1).map (·, entry.2) := rfl

/-- What is given to a setting comes from the variables that address it. -/
theorem filter_given (a : Address) :
    (given mark env).filter (·.1 = a) =
      (env.filter fun entry => Addresses mark entry.1 a).map fun entry => (a, entry.2) := by
  rw [given_eq]
  induction env with
  | nil => rfl
  | cons entry rest ih =>
    rw [List.filterMap_cons]
    cases haddress : addressed? mark entry.1 with
    | none =>
      have hnot : ¬ Addresses mark entry.1 a := not_addresses_iff.mpr haddress a
      rw [List.filter_cons_of_neg (by simpa using hnot)]
      exact ih
    | some b =>
      by_cases hb : b = a
      · have haddresses : Addresses mark entry.1 a := addresses_iff.mpr (hb ▸ haddress)
        rw [List.filter_cons_of_pos (by simpa using haddresses), List.map_cons, ← ih, hb]
        exact List.filter_cons_of_pos (by simp)
      · have hnot : ¬ Addresses mark entry.1 a := by
          rw [addresses_iff, haddress, Option.some_inj]
          exact hb
        rw [List.filter_cons_of_neg (by simpa using hnot), ← ih]
        exact List.filter_cons_of_neg (by simpa using hb)

theorem lastText_eq (a : Address) : lastText mark env a = lastOf a (given mark env) := by
  rw [lastText, lastOf, filter_given, List.getLast?_map, Option.map_map]
  rfl

theorem clashFree_given_iff : ClashFree (given mark env) ↔ ¬ Clashes mark env := by
  rw [ClashFree, given_eq, List.pairwise_filterMap, List.pairwise_iff_forall_sublist]
  constructor
  · rintro hfree ⟨whole, inner, first, later, hin, hsublist, hfirst, hlater⟩
    obtain ⟨rfl, rfl⟩ := Address.isIn_iff.mp hin
    rw [addresses_iff] at hfirst hlater
    exact hfree hsublist (.logging, first.2) (by rw [hfirst]; rfl) (.level, later.2)
      (by rw [hlater]; rfl) rfl rfl
  · intro hnone first later hsublist gift hgift next hnext hlogging hlevel
    obtain ⟨a, hfirst, rfl⟩ := Option.map_eq_some_iff.mp hgift
    obtain ⟨b, hlater, rfl⟩ := Option.map_eq_some_iff.mp hnext
    apply hnone
    exact ⟨a, b, first, later, Address.isIn_iff.mpr ⟨hlevel, hlogging⟩, hsublist,
      addresses_iff.mpr hfirst, addresses_iff.mpr hlater⟩

/-- A variable that addresses nothing gives nothing. -/
theorem given_skip {before after : Environment} {entry : String × String}
    (h : ∀ a, ¬ Addresses mark entry.1 a) :
    given mark (before ++ entry :: after) = given mark (before ++ after) := by
  rw [not_addresses_iff] at h
  rw [given_eq, given_eq, List.filterMap_append, List.filterMap_append, List.filterMap_cons, h]
  rfl

end

/-! ## What is noted -/

section

variable {mark : String}

/-- The variables are read one after another, up to the first that clashes. -/
theorem readVariables_append (before after : Environment) (m : Mapping) :
    readVariables mark (before ++ after) m =
      match readVariables mark before m with
      | (.ok next, records) =>
        ((readVariables mark after next).1, records ++ (readVariables mark after next).2)
      | (.error clash, records) => (.error clash, records) := by
  induction before generalizing m with
  | nil => rfl
  | cons entry rest ih =>
    obtain ⟨name, value⟩ := entry
    rw [List.cons_append, readVariables, readVariables]
    cases behindMark? mark name with
    | none => exact ih m
    | some behind =>
      cases hname : Address.ofName? behind with
      | none =>
        simp only [hname, ih m]
        rcases readVariables mark rest m with ⟨clash | next, records⟩
        · rfl
        · rfl
      | some a =>
        simp only [hname]
        cases putAt (.text value) a.path m with
        | error clash => rfl
        | ok next => exact ih next

/-- A variable that is read adds a note if it is ignored, and none otherwise. -/
theorem readVariables_entry (entry : String × String) (m : Mapping) :
    (readVariables mark [entry] m).2 = notes mark [entry] := by
  obtain ⟨name, value⟩ := entry
  rw [readVariables, notes]
  cases hbehind : behindMark? mark name with
  | none =>
    have hnot : ¬ Ignored mark name := by simp [ignored_iff, hbehind]
    rw [List.filter_cons_of_neg (by simpa using hnot)]
    rfl
  | some behind =>
    cases hname : Address.ofName? behind with
    | none =>
      have hignored : Ignored mark name := by simp [ignored_iff, addressed?, hbehind, hname]
      rw [List.filter_cons_of_pos (by simpa using hignored)]
      simp only [hname]
      rfl
    | some a =>
      have hnot : ¬ Ignored mark name := by simp [ignored_iff, addressed?, hbehind, hname]
      rw [List.filter_cons_of_neg (by simpa using hnot)]
      simp only [hname]
      cases putAt (.text value) a.path m with
      | error clash => rfl
      | ok next => rfl

/-- What is noted by the time that the variables have been read. -/
theorem readVariables_snd {env : Environment} {m next : Mapping}
    (h : (readVariables mark env m).1 = .ok next) :
    (readVariables mark env m).2 = notes mark env := by
  -- from the end, since whether the last variable is read is known once those before it are
  induction env using List.reverseRecOn generalizing next with
  | nil => rfl
  | append_singleton env entry ih =>
    rw [readVariables_append] at h ⊢
    rcases hread : readVariables mark env m with ⟨clash | middle, records⟩
    · rw [hread] at h
      contradiction
    · have hrecords : records = notes mark env := by
        have hmiddle : (readVariables mark env m).1 = .ok middle := by rw [hread]
        have hsnd := ih hmiddle
        rwa [hread] at hsnd
      simp only [hrecords, readVariables_entry, notes, List.filter_append, List.map_append]

/-- The reading ends with a variable that clashes, which is not noted. -/
theorem readVariables_of_clash {entry : String × String} {m : Mapping} {clash : SectionClash}
    (h : (readVariables mark [entry] m).1 = .error clash) (after : Environment) :
    readVariables mark (entry :: after) m = (.error clash, []) := by
  obtain ⟨name, value⟩ := entry
  rw [readVariables] at h ⊢
  cases hbehind : behindMark? mark name with
  | none => simp [hbehind, readVariables] at h
  | some behind =>
    cases hname : Address.ofName? behind with
    | none => simp [hbehind, hname, readVariables] at h
    | some a =>
      cases hput : putAt (.text value) a.path m with
      | ok next => simp [hbehind, hname, hput, readVariables] at h
      | error other =>
        cases other
        cases clash
        simp [hname, hput]

/-- What is noted when a variable clashes with what has been read. -/
theorem readVariables_snd_of_clash {before : Environment} {last : String × String}
    {m next : Mapping} {clash : SectionClash} (hbefore : (readVariables mark before m).1 = .ok next)
    (hlast : (readVariables mark (before ++ [last]) m).1 = .error clash) (after : Environment) :
    (readVariables mark (before ++ last :: after) m).2 = notes mark before := by
  have hrecords := readVariables_snd hbefore
  rw [readVariables_append] at hlast ⊢
  rcases hread : readVariables mark before m with ⟨_ | middle, records⟩
  · rw [hread] at hbefore
    contradiction
  · rw [hread] at hlast hrecords
    have hclash : (readVariables mark [last] middle).1 = .error clash := hlast
    simp only [readVariables_of_clash hclash after, List.append_nil]
    exact hrecords

end

/-! ## The mapping that is meant -/

/-- A value that is given to a setting by itself or to a section: the last text given to it as a
whole, or else a mapping with the last text given to each setting in it. -/
inductive Given (last : Address → Option String) (a : Address) : Value → Prop
  | whole {s : String} : last a = some s → Given last a (.text s)
  | settings {inner : Mapping} : last a = none → inner ≠ [] → inner.Distinct →
      (∀ key value, (key, value) ∈ inner ↔ ∃ (b : Address) (name : String) (s : String),
        b.path = a.path ++ [name] ∧ key = .text name ∧ value = .text s ∧ last b = some s) →
      Given last a (.mapping inner)

/-- Whether a mapping holds what is given, and nothing else. -/
structure Meant (last : Address → Option String) (m : Mapping) : Prop where
  distinct : m.Distinct
  mem_iff : ∀ key value, (key, value) ∈ m ↔ ∃ (a : Address) (name : String),
    a.path = [name] ∧ key = .text name ∧ Given last a value

section

variable {last : Address → Option String} {value : Value}

theorem given_single_iff {a : Address} (h : a ≠ .logging) :
    Given last a value ↔ (last a).map Value.text = some value := by
  constructor
  · intro hgiven
    cases hgiven with
    | whole hlast => rw [hlast]; rfl
    | @settings inner hnone hne hdistinct hmem =>
      -- what is in the mapping would be a setting in a section
      obtain ⟨entry, hentry⟩ := List.exists_mem_of_ne_nil inner hne
      obtain ⟨b, name, -, hpath, -⟩ := (hmem entry.1 entry.2).mp hentry
      exact absurd (Address.isIn_iff.mp ⟨name, hpath⟩).2 h
  · intro hlast
    obtain ⟨s, hs, rfl⟩ := Option.map_eq_some_iff.mp hlast
    exact .whole hs

private theorem eq_singleton {entries : Mapping} {entry : Key × Value} (hne : entries ≠ [])
    (hdistinct : entries.Distinct) (h : ∀ other ∈ entries, other = entry) : entries = [entry] := by
  match entries with
  | [first] => rw [h first List.mem_cons_self]
  | first :: second :: rest =>
    have hfirst := h first List.mem_cons_self
    have hsecond := h second (List.mem_cons_of_mem first List.mem_cons_self)
    have hdiffer := (List.pairwise_cons.mp hdistinct).1 second List.mem_cons_self
    rw [hfirst, hsecond, BEq.rfl] at hdiffer
    contradiction

/-- There is one setting in the section, so what is given to the settings in it is what is given to
that one. -/
theorem exists_settings_iff {key : Key} :
    (∃ (b : Address) (name : String) (s : String), b.path = Address.path .logging ++ [name] ∧
      key = .text name ∧ value = .text s ∧ last b = some s) ↔
    ∃ s, (key, value) = (.text "level", .text s) ∧ last .level = some s := by
  constructor
  · rintro ⟨b, name, s, hpath, rfl, rfl, hs⟩
    obtain ⟨rfl, -⟩ := Address.isIn_iff.mp ⟨name, hpath⟩
    obtain rfl : "level" = name := List.singleton_inj.mp (List.cons.inj hpath).2
    exact ⟨s, rfl, hs⟩
  · rintro ⟨s, hentry, hs⟩
    obtain ⟨rfl, rfl⟩ := Prod.mk.inj hentry
    exact ⟨.level, "level", s, rfl, rfl, rfl, hs⟩

/-- What a mapping is that holds what is given to the settings in the section: there is one entry,
and only if something is given. -/
theorem settings_iff {inner : Mapping} :
    (inner ≠ [] ∧ inner.Distinct ∧ ∀ key value, (key, value) ∈ inner ↔
      ∃ s, (key, value) = (.text "level", .text s) ∧ last .level = some s) ↔
    ∃ s, last .level = some s ∧ inner = [(.text "level", .text s)] := by
  constructor
  · rintro ⟨hne, hdistinct, hmem⟩
    obtain ⟨entry, hentry⟩ := List.exists_mem_of_ne_nil inner hne
    obtain ⟨s, -, hs⟩ := (hmem entry.1 entry.2).mp hentry
    refine ⟨s, hs, eq_singleton hne hdistinct ?_⟩
    intro other hother
    obtain ⟨t, hsame, ht⟩ := (hmem other.1 other.2).mp hother
    obtain rfl : t = s := Option.some.inj (ht.symm.trans hs)
    exact hsame
  · rintro ⟨s, hs, rfl⟩
    refine ⟨List.cons_ne_nil _ _, List.pairwise_singleton _ _, fun key value => ?_⟩
    rw [List.mem_singleton]
    constructor
    · intro hentry
      exact ⟨s, hentry, hs⟩
    · rintro ⟨t, hentry, ht⟩
      obtain rfl : t = s := Option.some.inj (ht.symm.trans hs)
      exact hentry

theorem given_logging_iff :
    Given last .logging value ↔ sectionGiven (last .logging) (last .level) = some value := by
  constructor
  · intro hgiven
    cases hgiven with
    | whole hlast => rw [hlast]; rfl
    | @settings inner hnone hne hdistinct hmem =>
      simp only [exists_settings_iff] at hmem
      obtain ⟨s, hs, rfl⟩ := settings_iff.mp ⟨hne, hdistinct, hmem⟩
      rw [hnone, hs]
      rfl
  · intro hsection
    cases hwhole : last .logging with
    | some s =>
      rw [hwhole] at hsection
      obtain rfl := Option.some.inj hsection
      exact .whole hwhole
    | none =>
      cases hs : last .level with
      | none =>
        rw [hwhole, hs] at hsection
        contradiction
      | some s =>
        rw [hwhole, hs] at hsection
        obtain rfl := Option.some.inj hsection
        obtain ⟨hne, hdistinct, hmem⟩ := settings_iff.mpr ⟨s, hs, rfl⟩
        refine .settings hwhole hne hdistinct ?_
        simpa only [exists_settings_iff] using hmem

end

/-- Whether a key is the name of a setting by itself, or of a section. -/
def IsTop (key : Key) : Prop := ∃ (a : Address) (name : String), a.path = [name] ∧ key = .text name

/-- A value is put at the end of a path under the first name of that path. -/
theorem putAt_ok {value : Value} {name : String} {rest : List String} {m next : Mapping}
    (h : putAt value (name :: rest) m = .ok next) :
    ∃ laid, next = m.put (.text name) laid := by
  cases rest with
  | nil =>
    rw [putAt] at h
    exact ⟨value, (Except.ok.inj h).symm⟩
  | cons inside rest =>
    rw [putAt] at h
    · split at h
      · split at h
        · exact ⟨_, (Except.ok.inj h).symm⟩
        · contradiction
      · contradiction
    · simp

/-- Whatever is given, the keys are names of settings and sections. -/
theorem isTop_of_foldlM {gifts : List (Address × String)} {m next : Mapping}
    (h : gifts.foldlM take m = .ok next) (hm : ∀ key ∈ m.map Prod.fst, IsTop key) :
    ∀ key ∈ next.map Prod.fst, IsTop key := by
  induction gifts generalizing m with
  | nil =>
    obtain rfl := Except.ok.inj h
    exact hm
  | cons gift rest ih =>
    rw [List.foldlM_cons] at h
    cases htake : take m gift with
    | error clash =>
      rw [htake] at h
      contradiction
    | ok middle =>
      rw [htake] at h
      refine ih h ?_
      obtain ⟨top, name, inside, hpath, htop⟩ := gift.1.exists_top
      rw [take, hpath] at htake
      obtain ⟨laid, rfl⟩ := putAt_ok htake
      intro key hkey
      rw [Ledger.map_fst_put] at hkey
      split at hkey
      · exact hm key hkey
      · rcases List.mem_append.mp hkey with hold | hnew
        · exact hm key hold
        · exact ⟨top, name, htop, List.mem_singleton.mp hnew⟩

/-- What has been gathered is what is meant. -/
theorem Gathered.meant {gifts : List (Address × String)} {m : Mapping} (h : Gathered gifts m)
    (hkeys : ∀ key ∈ m.map Prod.fst, IsTop key) : Meant (fun a => lastOf a gifts) m := by
  -- an address of one name is that of the section or that of a setting by itself
  have hvalue : ∀ (a : Address) (name : String) (value : Value), a.path = [name] →
      (m.get? (.text name) = some value ↔ Given (fun a => lastOf a gifts) a value) := by
    intro a name value hpath
    by_cases hlogging : a = .logging
    · obtain rfl : name = "logging" := by
        rw [hlogging] at hpath
        exact (List.singleton_inj.mp hpath).symm
      rw [hlogging, given_logging_iff, h.logging]
    · rw [given_single_iff hlogging, h.single a name hpath hlogging]
  refine ⟨h.distinct, fun key value => ⟨fun hmem => ?_, ?_⟩⟩
  · obtain ⟨a, name, hpath, rfl⟩ := hkeys key (List.mem_map_of_mem hmem)
    exact ⟨a, name, hpath, rfl, (hvalue a name value hpath).mp (h.distinct.get?_of_mem hmem)⟩
  · rintro ⟨a, name, hpath, rfl, hgiven⟩
    obtain ⟨key, hkey, hmem⟩ := Ledger.exists_mem_of_get? ((hvalue a name value hpath).mpr hgiven)
    obtain ⟨b, other, -, rfl⟩ := hkeys key (List.mem_map_of_mem hmem)
    rw [Key.beq_text_iff, Key.text_inj] at hkey
    rwa [← hkey]

/-- Two mappings that hold the same are the same but for the order of their entries. -/
theorem Meant.perm {last : Address → Option String} {m other : Mapping} (h : Meant last m)
    (hother : Meant last other) : m.Perm other := by
  have hnodup : ∀ {entries : Mapping}, entries.Distinct → entries.Nodup := by
    intro entries hdistinct
    refine hdistinct.imp fun hdiffer hsame => ?_
    rw [hsame, BEq.rfl] at hdiffer
    contradiction
  rw [List.perm_ext_iff_of_nodup (hnodup h.distinct) (hnodup hother.distinct)]
  intro entry
  rw [h.mem_iff entry.1 entry.2, hother.mem_iff entry.1 entry.2]

/-! ## The whole -/

section

variable (mark : String) (env : Environment)

/-- An environment that does not clash means a mapping. -/
theorem exists_meant (h : ¬ Clashes mark env) :
    ∃ m, (ofEnvironment mark env).1 = .ok m ∧ Meant (lastText mark env) m := by
  have hlast : lastText mark env = fun a => lastOf a (given mark env) :=
    funext fun a => lastText_eq mark env a
  rcases ofEnvironment_spec mark env with ⟨-, m, hm, hgathered⟩ | ⟨hclash, -⟩
  · refine ⟨m, hm, hlast ▸ hgathered.meant ?_⟩
    rw [ofEnvironment, readVariables_eq] at hm
    exact isTop_of_foldlM hm (by simp)
  · exact absurd ((clashFree_given_iff mark env).mpr h) hclash

theorem ofEnvironment_eq_error_iff :
    (ofEnvironment mark env).1 = .error .inText ↔ Clashes mark env := by
  rcases ofEnvironment_spec mark env with ⟨hfree, m, hm, -⟩ | ⟨hclash, herror⟩
  · refine iff_of_false ?_ ((clashFree_given_iff mark env).mp hfree)
    rw [hm]
    simp
  · rw [clashFree_given_iff, not_not] at hclash
    exact iff_of_true herror hclash

variable {mark env}

/-- Variables do not clash, in this order and in any other, if a section and a setting in it are not
both given. -/
theorem not_clashes_of_subset {order : Environment} (horder : order ⊆ env)
    (hapart : ∀ first ∈ env, ∀ later ∈ env, ∀ whole inner : Address, inner.IsIn whole →
      Addresses mark first.1 whole → ¬ Addresses mark later.1 inner) :
    ¬ Clashes mark order := by
  rintro ⟨whole, inner, first, later, hin, hsublist, hfirst, hlater⟩
  have hmem : ∀ entry ∈ [first, later], entry ∈ env :=
    fun entry hentry => horder (hsublist.subset hentry)
  exact hapart first (hmem first (by simp)) later (hmem later (by simp)) whole inner hin hfirst
    hlater

/-- The last texts are the same in any order of the variables if none of them replaces another. -/
theorem lastText_perm {other : Environment} (hperm : other.Perm env)
    (honce : ∀ a, (env.filter fun entry => Addresses mark entry.1 a).length ≤ 1) :
    lastText mark other = lastText mark env := by
  funext a
  have hfilter := hperm.filter fun entry => Addresses mark entry.1 a
  have hsame : (other.filter fun entry => Addresses mark entry.1 a) =
      env.filter fun entry => Addresses mark entry.1 a := by
    have hlength := honce a
    revert hfilter hlength
    generalize (env.filter fun entry => Addresses mark entry.1 a) = addressing
    intro hfilter hlength
    match addressing with
    | [] => exact List.perm_nil.mp hfilter
    | [entry] => exact List.perm_singleton.mp hfilter
    | first :: second :: rest =>
      rw [List.length_cons, List.length_cons] at hlength
      omega
  rw [lastText, lastText, hsame]

end

/-- What an environment means. A variable addresses at most one setting or section. There is nothing
exactly if a section is given as a whole and a setting in it afterwards; otherwise there is the
mapping that holds the last text given to each setting by itself, and for a section the last text
given to it, or else the last ones given to the settings in it. A note is made of each variable that
is ignored, up to the one that clashes if there is one, and what addresses nothing has no influence
but for that. So, if no two variables address the same, all orders in which there is a mapping have
the same one, but for the order of its entries, and there is one in every order unless a section and
a setting in it are both given. -/
theorem environment_meaning (mark : String) (env : Environment) :
    (∀ name a b, Addresses mark name a → Addresses mark name b → a = b) ∧
    ((ofEnvironment mark env).1 = .error .inText ↔ Clashes mark env) ∧
    (¬ Clashes mark env → ∃ m, (ofEnvironment mark env).1 = .ok m ∧
      Meant (lastText mark env) m ∧ (ofEnvironment mark env).2 = notes mark env) ∧
    (∀ before last after, env = before ++ last :: after → ¬ Clashes mark before →
      Clashes mark (before ++ [last]) → (ofEnvironment mark env).2 = notes mark before) ∧
    (∀ before entry after, env = before ++ entry :: after → (∀ a, ¬ Addresses mark entry.1 a) →
      (ofEnvironment mark env).1 = (ofEnvironment mark (before ++ after)).1) ∧
    ∀ other, other.Perm env →
      (∀ a, (env.filter fun entry => Addresses mark entry.1 a).length ≤ 1) →
      (∀ m m', (ofEnvironment mark env).1 = .ok m → (ofEnvironment mark other).1 = .ok m' →
        m.Perm m') ∧
      ((∀ first ∈ env, ∀ later ∈ env, ∀ whole inner : Address, inner.IsIn whole →
          Addresses mark first.1 whole → ¬ Addresses mark later.1 inner) →
        ¬ Clashes mark env ∧ ¬ Clashes mark other) := by
  refine ⟨?_, ofEnvironment_eq_error_iff mark env, ?_, ?_, ?_, ?_⟩
  · intro name a b ha hb
    rw [addresses_iff] at ha hb
    exact Option.some.inj (ha.symm.trans hb)
  · intro hfree
    obtain ⟨m, hm, hmeant⟩ := exists_meant mark env hfree
    exact ⟨m, hm, hmeant, readVariables_snd hm⟩
  · rintro before last after rfl hfree hclash
    obtain ⟨m, hm, -⟩ := exists_meant mark before hfree
    exact readVariables_snd_of_clash hm ((ofEnvironment_eq_error_iff mark _).mpr hclash) after
  · rintro before entry after rfl hnone
    rw [ofEnvironment, ofEnvironment, readVariables_eq, readVariables_eq, given_skip mark hnone]
  · intro other hperm honce
    constructor
    · intro m m' hm hm'
      -- what there is in either order is what is meant, by the same last texts
      have hmeant : ∀ {env : Environment} {m : Mapping}, (ofEnvironment mark env).1 = .ok m →
          Meant (lastText mark env) m := by
        intro env m hm
        have hfree : ¬ Clashes mark env := by
          rw [← ofEnvironment_eq_error_iff, hm]
          simp
        obtain ⟨next, hnext, hmeant⟩ := exists_meant mark env hfree
        rw [hm] at hnext
        rwa [Except.ok.inj hnext]
      have hother := hmeant hm'
      rw [lastText_perm hperm honce] at hother
      exact (hmeant hm).perm hother
    · intro hapart
      exact ⟨not_clashes_of_subset (List.Subset.refl env) hapart,
        not_clashes_of_subset hperm.subset hapart⟩

/-- A variable that is none of the program's, one for the path of the file and one that addresses
nothing stand between two that address something, one of them with the sign of the kelvin in its
name, which is a `k` in lower case. -/
def sampleVariables : Environment :=
  [("BINDGEN_LOGGING_LEVEL", "info"), ("HOME", "/root"), ("BINDGEN_COLOR", "red"),
    ("BINDGEN_CONFIG", "c.yaml"), ("BINDGEN_Module_Pac\u212Aage", "app")]

/-- A section is given as a whole, between two variables that address nothing, and a setting in it
afterwards. -/
def clashingVariables : Environment :=
  [("BINDGEN_COLOR", "red"), ("BINDGEN_LOGGING", "info"), ("BINDGEN_LOGGING_LEVEL", "debug"),
    ("BINDGEN_SIZE", "10")]

theorem environment_meaning_sample :
    (∃ m m', (ofEnvironment defaultMark sampleVariables).1 = .ok m ∧
      (ofEnvironment defaultMark sampleVariables.reverse).1 = .ok m' ∧ m.Perm m' ∧
      (Key.text "module_package", Value.text "app") ∈ m ∧
      (ofEnvironment defaultMark sampleVariables).2 = [ignoring "BINDGEN_COLOR"]) ∧
    (ofEnvironment defaultMark clashingVariables).1 = .error .inText ∧
      (ofEnvironment defaultMark clashingVariables).2 = [ignoring "BINDGEN_COLOR"] := by
  constructor
  · have hreverse : sampleVariables.reverse.Perm sampleVariables := List.reverse_perm _
    have honce : ∀ a, (sampleVariables.filter
        fun entry => Addresses defaultMark entry.1 a).length ≤ 1 := by
      intro a
      have hgiven : given defaultMark sampleVariables =
          [(.level, "info"), (.modulePackage, "app")] := by decide +kernel
      have hlength := congrArg List.length (filter_given defaultMark sampleVariables a)
      rw [hgiven, List.length_map] at hlength
      rw [← hlength]
      cases a <;> decide
    have hnone : ∀ entry ∈ sampleVariables, ¬ Addresses defaultMark entry.1 .logging := by
      decide +kernel
    obtain ⟨-, -, hmapping, -, -, horder⟩ := environment_meaning defaultMark sampleVariables
    obtain ⟨hsame, hapart⟩ := horder _ hreverse honce
    obtain ⟨hfree, hfree'⟩ := hapart fun first hfirst _ _ whole inner hin hwhole => by
      obtain ⟨-, rfl⟩ := Address.isIn_iff.mp hin
      exact absurd hwhole (hnone first hfirst)
    obtain ⟨m, hm, hmeant, hnotes⟩ := hmapping hfree
    obtain ⟨-, -, hmapping', -, -, -⟩ := environment_meaning defaultMark sampleVariables.reverse
    obtain ⟨m', hm', -, -⟩ := hmapping' hfree'
    refine ⟨m, m', hm, hm', hsame m m' hm hm', ?_, ?_⟩
    · rw [hmeant.mem_iff]
      exact ⟨.modulePackage, "module_package", rfl, rfl, .whole (by decide +kernel)⟩
    · rw [hnotes]
      decide +kernel
  · have hclash : ∀ {env : Environment},
        [("BINDGEN_LOGGING", "info"), ("BINDGEN_LOGGING_LEVEL", "debug")].Sublist env →
          Clashes defaultMark env := fun hsublist =>
      ⟨.logging, .level, _, _, Address.isIn_iff.mpr ⟨rfl, rfl⟩, hsublist, by decide +kernel,
        by decide +kernel⟩
    have hnone : ∀ entry ∈ clashingVariables.take 2, ¬ Addresses defaultMark entry.1 .level := by
      decide +kernel
    have hfree : ¬ Clashes defaultMark (clashingVariables.take 2) := by
      apply not_clashes_of_subset (List.Subset.refl _)
      intro _ _ later hlater whole inner hin _
      obtain ⟨rfl, -⟩ := Address.isIn_iff.mp hin
      exact hnone later hlater
    obtain ⟨-, herror, -, hnotes, -⟩ := environment_meaning defaultMark clashingVariables
    refine ⟨herror.mpr (hclash (by decide +kernel)), ?_⟩
    rw [hnotes (clashingVariables.take 2) _ _ rfl hfree (hclash (by decide +kernel))]
    decide +kernel

end Config

end Bindery
