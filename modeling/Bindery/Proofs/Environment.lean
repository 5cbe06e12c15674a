import Bindery.Config.Address
import Bindery.Proofs.KeyEquality

/-!
# What the environment gives

`addressed?_eq_some_iff` says which names of variables address which settings. The variables that
address one, in their order, are all that the environment gives (`given`); the others only leave a
note.

What they give in the end is known for each setting: the last of the variables that address it has
its way, unless the section that it is in was given as a text (`Gathered`). Only when that happens
first, and a setting in the section is given afterwards, is nothing given at all
(`ofEnvironment_spec`).
-/

namespace Bindery

namespace Address

theorem path_inj {a b : Address} : a.path = b.path ↔ a = b := by
  cases a <;> cases b <;> decide

theorem path_of_ofPath? {path : List String} {a : Address} (h : ofPath? path = some a) :
    a.path = path := by
  have hfound := List.find?_some h
  exact beq_iff_eq.mp hfound

/-- The end of a variable's name writes an address exactly if it is that address in lower case. -/
theorem ofName?_eq_some_iff (name : List Char) (a : Address) :
    ofName? name = some a ↔ Text.lower name = a.written := by
  unfold ofName?
  generalize Text.lower name = key
  constructor
  · intro h
    cases hwhole : ofPath? [String.ofList key] with
    | some b =>
      simp only [hwhole, Option.some.injEq] at h
      subst h
      rw [written, path_of_ofPath? hwhole, List.map_singleton, String.toList_ofList]
      rfl
    | none =>
      simp only [hwhole] at h
      have hpath := path_of_ofPath? h
      -- a name without an underscore would leave an empty inner name, which no setting has
      have hrest : key.dropWhile (· ≠ separator) ≠ [] := by
        intro hempty
        rw [hempty] at hpath
        cases a <;> simp [path] at hpath
      obtain ⟨c, inner, hinner⟩ := List.exists_cons_of_ne_nil hrest
      have hc : c = separator := by
        have hhead := List.head_dropWhile_not (p := (· ≠ separator)) hrest
        simp only [hinner, List.head_cons] at hhead
        simpa using hhead
      rw [written, hpath, hinner]
      show key = Text.joined separator [(String.ofList _).toList, (String.ofList inner).toList]
      rw [String.toList_ofList, String.toList_ofList]
      show key = key.takeWhile (· ≠ separator) ++ separator :: inner
      rw [← hc, ← hinner, hc, List.takeWhile_append_dropWhile]
  · rintro rfl
    cases a <;> rfl

end Address

namespace Config

/-! ## Which variables give something -/

/-- The setting that a variable addresses. -/
def addressed? (mark name : String) : Option Address :=
  (behindMark? mark name).bind Address.ofName?

theorem behindMark?_eq_some_iff (mark name : String) (rest : List Char) :
    behindMark? mark name = some rest ↔
      name.toList = markText mark ++ rest ∧ rest ≠ [] ∧ rest ≠ pathVariable.toList := by
  unfold behindMark?
  constructor
  · intro h
    simp only [Option.ite_none_right_eq_some, Option.some.injEq, Bool.and_eq_true,
      decide_eq_true_eq] at h
    obtain ⟨⟨⟨hstart, hne⟩, hpath⟩, hrest⟩ := h
    obtain ⟨behind, hbehind⟩ := List.isPrefixOf_iff_prefix.mp hstart
    rw [← hbehind, List.drop_left] at hrest hne hpath
    subst hrest
    exact ⟨hbehind.symm, hne, hpath⟩
  · intro h
    obtain ⟨hname, hne, hpath⟩ := h
    have hstart : (markText mark).isPrefixOf (markText mark ++ rest) = true :=
      List.isPrefixOf_iff_prefix.mpr (List.prefix_append _ _)
    simp [hname, hstart, hne, hpath]

/-- A variable addresses a setting exactly if its name is the mark, an underscore and, in any case,
the address, and is not the one that gives the path of the configuration. -/
theorem addressed?_eq_some_iff (mark name : String) (a : Address) :
    addressed? mark name = some a ↔
      ∃ rest, (name.toList = markText mark ++ rest ∧ rest ≠ [] ∧ rest ≠ pathVariable.toList) ∧
        Text.lower rest = a.written := by
  unfold addressed?
  rw [Option.bind_eq_some_iff]
  exact exists_congr fun rest =>
    and_congr (behindMark?_eq_some_iff mark name rest) (Address.ofName?_eq_some_iff rest a)

/-- What the variables give, in their order. -/
def given (mark : String) (env : Environment) : List (Address × String) :=
  env.filterMap fun (name, value) => (addressed? mark name).map (·, value)

/-- What is given, taken one after another on top of `m`. -/
def take (m : Mapping) (gift : Address × String) : Except SectionClash Mapping :=
  putAt (.text gift.2) gift.1.path m

/-- The variables that give nothing are passed over. -/
theorem readVariables_eq (mark : String) (env : Environment) (m : Mapping) :
    (readVariables mark env m).1 = (given mark env).foldlM take m := by
  induction env generalizing m with
  | nil => rfl
  | cons entry rest ih =>
    obtain ⟨name, value⟩ := entry
    rw [readVariables, given, List.filterMap_cons]
    -- a name that is not the program's, and one that addresses nothing, leave the mapping as it is
    cases hbehind : behindMark? mark name with
    | none =>
      simp only [addressed?, hbehind, Option.bind_none, Option.map_none]
      exact ih m
    | some behind =>
      cases haddress : Address.ofName? behind with
      | none =>
        simp only [addressed?, hbehind, Option.bind_some, haddress, Option.map_none]
        exact ih m
      | some a =>
        simp only [addressed?, hbehind, Option.bind_some, haddress, Option.map_some,
          List.foldlM_cons, take]
        cases putAt (.text value) a.path m with
        | error clash => rfl
        | ok m => exact ih m

/-! ## What is given in the end -/

/-- What is given last to a setting. -/
def lastOf (a : Address) (gifts : List (Address × String)) : Option String :=
  (gifts.filter (·.1 = a)).getLast?.map (·.2)

theorem lastOf_append_singleton (a b : Address) (s : String) (gifts : List (Address × String)) :
    lastOf a (gifts ++ [(b, s)]) = if b = a then some s else lastOf a gifts := by
  unfold lastOf
  rw [List.filter_append]
  by_cases h : b = a
  · simp [h]
  · simp [h]

theorem lastOf_eq_none_iff (a : Address) (gifts : List (Address × String)) :
    lastOf a gifts = none ↔ ∀ gift ∈ gifts, gift.1 ≠ a := by
  simp [lastOf]

/-- No setting in the section is given after the section has been given as a text. -/
def ClashFree (gifts : List (Address × String)) : Prop :=
  gifts.Pairwise fun earlier later => earlier.1 = .logging → later.1 ≠ .level

theorem clashFree_append_singleton (gifts : List (Address × String)) (gift : Address × String) :
    ClashFree (gifts ++ [gift]) ↔
      ClashFree gifts ∧ (gift.1 = .level → lastOf .logging gifts = none) := by
  unfold ClashFree
  rw [List.pairwise_append, lastOf_eq_none_iff]
  constructor
  · intro h
    obtain ⟨hgifts, -, hlast⟩ := h
    refine ⟨hgifts, ?_⟩
    intro hlevel earlier hearlier hlogging
    exact hlast earlier hearlier gift (List.mem_singleton_self gift) hlogging hlevel
  · intro h
    obtain ⟨hgifts, hlast⟩ := h
    refine ⟨hgifts, List.pairwise_singleton _ _, ?_⟩
    intro earlier hearlier later hlater hlogging hlevel
    rw [List.mem_singleton.mp hlater] at hlevel
    exact hlast hlevel earlier hearlier hlogging

/-- The section, given as a whole or setting by setting. -/
def sectionGiven (whole? level? : Option String) : Option Value :=
  match whole?, level? with
  | some s, _ => some (.text s)
  | none, some l => some (.mapping [(.text "level", .text l)])
  | none, none => none

/-- A mapping that holds what has been given: to each setting by itself what was given last, and in
the section what was given to it. -/
structure Gathered (gifts : List (Address × String)) (m : Mapping) : Prop where
  distinct : m.Distinct
  single : ∀ a name, a.path = [name] → a ≠ .logging →
    m.get? (.text name) = (lastOf a gifts).map Value.text
  logging : m.get? (.text "logging") =
    sectionGiven (lastOf .logging gifts) (lastOf .level gifts)

theorem Gathered.nil : Gathered [] [] where
  distinct := List.Pairwise.nil
  single _ _ _ _ := rfl
  logging := rfl

theorem get?_put_text (name other : String) (value : Value) (m : Mapping) :
    (m.put (.text name) value).get? (.text other) =
      if name = other then some value else m.get? (.text other) := by
  rw [Ledger.get?_put]
  simp only [Key.beq_text_iff, Key.text_inj]

/-- What is given to a setting by itself, or to the section as a whole, takes the place of what was
there. -/
theorem Gathered.put_single {gifts : List (Address × String)} {m : Mapping}
    (h : Gathered gifts m) {a : Address} {name : String} (ha : a.path = [name]) (s : String) :
    Gathered (gifts ++ [(a, s)]) (m.put (.text name) (.text s)) where
  distinct := h.distinct.put _ _
  single b other hb hlogging := by
    rw [get?_put_text, lastOf_append_singleton, h.single b other hb hlogging]
    -- settings by themselves have different names
    have hsame : name = other ↔ a = b := by
      rw [← Address.path_inj, ha, hb, List.singleton_inj]
    by_cases hab : a = b
    · rw [if_pos hab, if_pos (hsame.mpr hab)]
      rfl
    · rw [if_neg hab, if_neg (fun hname => hab (hsame.mp hname))]
  logging := by
    have hlevel : a ≠ .level := by
      rintro rfl
      simp [Address.path] at ha
    have hsame : name = "logging" ↔ a = .logging := by
      rw [← Address.path_inj, ha, Address.path, List.singleton_inj]
    rw [get?_put_text, lastOf_append_singleton, lastOf_append_singleton, if_neg hlevel, h.logging]
    by_cases hlogging : a = .logging
    · rw [if_pos hlogging, if_pos (hsame.mpr hlogging)]
      rfl
    · rw [if_neg hlogging, if_neg (fun hname => hlogging (hsame.mp hname))]

/-- A setting in the section is given to what the section has, if it was not given as a text. -/
theorem Gathered.put_level {gifts : List (Address × String)} {m : Mapping}
    (h : Gathered gifts m) (hwhole : lastOf .logging gifts = none) (s : String) :
    Gathered (gifts ++ [(.level, s)])
      (m.put (.text "logging") (.mapping [(.text "level", .text s)])) where
  distinct := h.distinct.put _ _
  single b other hb hlogging := by
    have hother : "logging" ≠ other := by
      rintro rfl
      cases b <;> simp_all [Address.path]
    have hlevel : Address.level ≠ b := by
      rintro rfl
      simp [Address.path] at hb
    rw [get?_put_text, lastOf_append_singleton, if_neg hother, if_neg hlevel]
    exact h.single b other hb hlogging
  logging := by
    rw [get?_put_text, if_pos rfl, lastOf_append_singleton, lastOf_append_singleton, hwhole]
    rfl

/-- What a setting in the section does to what has been gathered. -/
theorem Gathered.take_level {gifts : List (Address × String)} {m : Mapping}
    (h : Gathered gifts m) (s : String) :
    take m (.level, s) =
      if lastOf .logging gifts = none then
        .ok (m.put (.text "logging") (.mapping [(.text "level", .text s)]))
      else .error .inText := by
  show putAt (.text s) ["logging", "level"] m = _
  rw [putAt, h.logging]
  · cases lastOf .logging gifts with
    | some whole => rfl
    | none =>
      cases lastOf .level gifts with
      | none => rfl
      | some level => rfl
  · intro hnil
    contradiction

theorem take_single (m : Mapping) {a : Address} {name : String} (ha : a.path = [name])
    (s : String) : take m (a, s) = .ok (m.put (.text name) (.text s)) := by
  unfold take
  rw [ha]
  rfl

/-- What is gathered of what is given, which is nothing when the section is given as a text before a
setting in it. -/
theorem gather (gifts : List (Address × String)) :
    (ClashFree gifts ∧ ∃ m, gifts.foldlM take [] = .ok m ∧ Gathered gifts m) ∨
      (¬ ClashFree gifts ∧ gifts.foldlM take [] = .error .inText) := by
  induction gifts using List.reverseRecOn with
  | nil => exact .inl ⟨List.Pairwise.nil, [], rfl, Gathered.nil⟩
  | append_singleton gifts gift ih =>
    rw [List.foldlM_append, clashFree_append_singleton]
    rcases ih with ⟨hfree, m, hm, hgathered⟩ | ⟨hclash, herror⟩
    · -- everything before the last gift has been gathered
      obtain ⟨a, s⟩ := gift
      rw [hm]
      show (_ ∧ ∃ m', (take m (a, s) >>= pure) = .ok m' ∧ _) ∨ _ ∧ (take m (a, s) >>= pure) = _
      rw [bind_pure]
      by_cases hlevel : a = .level
      · subst hlevel
        rw [hgathered.take_level]
        by_cases hwhole : lastOf .logging gifts = none
        · rw [if_pos hwhole]
          exact .inl ⟨⟨hfree, fun _ => hwhole⟩, _, rfl, hgathered.put_level hwhole s⟩
        · rw [if_neg hwhole]
          exact .inr ⟨fun h => hwhole (h.2 rfl), rfl⟩
      · obtain ⟨name, ha⟩ : ∃ name, a.path = [name] := by
          cases a <;> simp_all [Address.path]
        rw [take_single m ha]
        exact .inl ⟨⟨hfree, fun h => absurd h hlevel⟩, _, rfl, hgathered.put_single ha s⟩
    · rw [herror]
      exact .inr ⟨fun h => hclash h.1, rfl⟩

/-- The environment gives something exactly if no setting in the section comes after the section as
a text, and then what is given last to each setting. -/
theorem ofEnvironment_spec (mark : String) (env : Environment) :
    (ClashFree (given mark env) ∧
        ∃ m, (ofEnvironment mark env).1 = .ok m ∧ Gathered (given mark env) m) ∨
      (¬ ClashFree (given mark env) ∧ (ofEnvironment mark env).1 = .error .inText) := by
  rw [ofEnvironment, readVariables_eq]
  exact gather (given mark env)

end Config

end Bindery
