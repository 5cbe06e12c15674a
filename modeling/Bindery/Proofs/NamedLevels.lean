import Bindery.Proofs.Capitals
import Bindery.Proofs.LoggerRuns

/-!
# Levels that are given by name

A level may be given as a text. Its upper case is looked up among all names in capitals, which are
those of the levels and a few others (`otherNames`), and what is found there is set as it is. So a
text that names nothing stands for `INFO`, as it should, but one that names something else than a
level stands for that (`Misleading`), and is refused in the end.

`names_heeded_iff` says that nothing else goes wrong: every other text sets the level that it names
in any case, or `INFO`, and whatever calls come before and after, a logger has the level that was
meant by the last call that addresses it. Which texts are the name of a level in some case can be
told letter by letter (`upper_eq_iff_writes`): no upper case of a single letter takes up two letters
of such a name.
-/

namespace Bindery.Text

/-! ## Names in capitals, written in any case -/

/-- The capitals of ASCII. -/
def capitals : List Char :=
  (List.range' 0x41 26).map Char.ofNat

/-- The letters whose upper case is a capital of ASCII: the capital and its small letter, and for two
of them one more, the `i` without a dot and the long `s`. -/
def writings (capital : Char) : List Char :=
  [capital, capital.toLower] ++
    if capital = 'I' then ['ı'] else if capital = 'S' then ['ſ'] else []

theorem capitals_ascii {c : Char} (h : c ∈ capitals) : c.toNat < 128 := by
  have hall : (capitals.all fun c => c.toNat < 128) = true := by decide +kernel
  exact of_decide_eq_true (List.all_eq_true.mp hall c h)

theorem upperChar_of_mem_writings {c capital : Char} (hcapital : capital ∈ capitals)
    (h : c ∈ writings capital) : upperChar c = [capital] := by
  have hall : (capitals.all fun capital =>
      (writings capital).all fun c => upperChar c == [capital]) = true := by decide +kernel
  exact beq_iff_eq.mp (List.all_eq_true.mp (List.all_eq_true.mp hall capital hcapital) c h)

/-- The tables have no other character that becomes one of ASCII. -/
theorem upperEntries_writings : ∀ entry ∈ upperEntries, ∀ code ∈ entry.2,
    code < 128 → entry.2 = [code] → Char.ofNat entry.1 ∈ writings (Char.ofNat code) := by
  decide +kernel

theorem mem_writings_of_upperChar {c capital : Char} (hcapital : capital ∈ capitals)
    (h : upperChar c = [capital]) : c ∈ writings capital := by
  rcases upperChar_entry c with hself | ⟨codes, hentry, hupper⟩
  · rw [hself, List.singleton_inj] at h
    rw [h]
    exact List.mem_cons_self
  · rw [h] at hupper
    obtain ⟨code, rfl, hcode⟩ := List.map_eq_singleton_iff.mp hupper.symm
    -- the only code of the upper case is that of the capital, so the table has the character
    have hnat : capital.toNat = code := by
      rw [← hcode]
      exact ((upperTexts_capital _ (mem_upperTexts_of_entry hentry)).2 code List.mem_cons_self).1
    have hascii : code < 128 := by
      rw [← hnat]
      exact capitals_ascii hcapital
    have hmem := upperEntries_writings _ hentry code List.mem_cons_self hascii rfl
    rwa [Char.ofNat_toNat, hcode] at hmem

/-- Whether a text writes a name in capitals letter by letter. -/
def Writes (cs name : List Char) : Prop :=
  List.Forall₂ (fun c capital => c ∈ writings capital) cs name

instance (cs name : List Char) : Decidable (Writes cs name) :=
  inferInstanceAs (Decidable (List.Forall₂ _ cs name))

/-- A name in capitals of ASCII, no part of which is all that a single letter becomes. -/
structure Plain (name : List Char) : Prop where
  capital : ∀ c ∈ name, c ∈ capitals
  apart : ∀ entry ∈ upperExpansions, ¬ entry.2.map Char.ofNat <:+: name

theorem Plain.tail {c : Char} {name : List Char} (h : Plain (c :: name)) : Plain name where
  capital d hd := h.capital d (List.mem_cons_of_mem c hd)
  apart entry hentry hinfix := h.apart entry hentry (List.infix_cons hinfix)

/-- A plain name is the upper case of the texts that write it letter by letter. -/
theorem upper_eq_iff_writes {name : List Char} (hplain : Plain name) (cs : List Char) :
    upper cs = name ↔ Writes cs name := by
  constructor
  · intro h
    induction cs generalizing name with
    | nil =>
      subst h
      exact .nil
    | cons c cs ih =>
      have hname : upperChar c ++ upper cs = name := h
      rcases upperChar_expanded_or_shifted c with ⟨codes, hentry, hupper⟩ | hupper
      · -- several letters from one would be a part of the name
        rw [← hname, hupper] at hplain
        exact absurd (List.prefix_append _ _).isInfix (hplain.apart _ hentry)
      · rw [hupper, List.singleton_append] at hname
        subst hname
        exact .cons (mem_writings_of_upperChar (hplain.capital _ List.mem_cons_self) hupper)
          (ih hplain.tail rfl)
  · intro h
    induction h with
    | nil => rfl
    | @cons c capital cs name hc _ ih =>
      have hupper := upperChar_of_mem_writings (hplain.capital capital List.mem_cons_self) hc
      show upperChar c ++ upper cs = capital :: name
      rw [hupper, ih hplain.tail, List.singleton_append]

end Bindery.Text

namespace Bindery.Loggers

open Bindery.Text

/-! ## What a text should stand for -/

/-- Texts that are the same but for the case of their letters. -/
def SameLetters (s t : String) : Prop := upper s.toList = upper t.toList

instance (s t : String) : Decidable (SameLetters s t) :=
  inferInstanceAs (Decidable (upper s.toList = upper t.toList))

/-- The number of the level that a text names in any case, and that of `INFO` if it names none. -/
def numberNamed (text : String) : Int :=
  ((levelNames.find? fun entry => SameLetters text entry.1).map Prod.snd).getD 20

/-- Whether a text is a name, but that of something else than a level. -/
def Misleading (text : String) : Prop := ∃ entry ∈ otherNames, SameLetters text entry.1

instance (text : String) : Decidable (Misleading text) :=
  inferInstanceAs (Decidable (∃ entry ∈ otherNames, SameLetters text entry.1))

theorem levelNames_plain : ∀ entry ∈ levelNames, Plain entry.1.toList := by
  have hcapital : ∀ entry ∈ levelNames, (entry.1.toList.all capitals.contains) = true := by
    decide +kernel
  have hapart : ∀ entry ∈ levelNames, ∀ expansion ∈ upperExpansions,
      ¬ expansion.2.map Char.ofNat <:+: entry.1.toList := by
    decide +kernel
  intro entry hentry
  refine ⟨fun c hc => ?_, hapart entry hentry⟩
  exact List.contains_iff_mem.mp (List.all_eq_true.mp (hcapital entry hentry) c hc)

theorem levelNames_upper : ∀ entry ∈ levelNames, upper entry.1.toList = entry.1.toList := by
  intro entry hentry
  rw [upper_eq_iff_writes (levelNames_plain entry hentry), Writes, List.forall₂_same]
  exact fun _ _ => List.mem_cons_self

theorem otherNames_upper : ∀ entry ∈ otherNames, upper entry.1.toList = entry.1.toList := by
  decide +kernel

variable {text name : String}

/-- A name that is its own upper case is the upper case of the texts with the same letters. -/
theorem sameLetters_iff (hname : upper name.toList = name.toList) :
    SameLetters text name ↔ String.ofList (upper text.toList) = name := by
  rw [SameLetters, hname, ← String.toList_inj, String.toList_ofList]

/-- The upper case of a text is looked up where the letters of the text are. -/
theorem lookup_upper {α : Type} {table : List (String × α)}
    (htable : ∀ entry ∈ table, upper entry.1.toList = entry.1.toList) :
    table.lookup (String.ofList (upper text.toList)) =
      (table.find? fun entry => SameLetters text entry.1).map Prod.snd := by
  induction table with
  | nil => rfl
  | cons entry rest ih =>
    obtain ⟨key, value⟩ := entry
    obtain ⟨hfirst, hrest⟩ := List.forall_mem_cons.mp htable
    have hsame := @sameLetters_iff text key hfirst
    by_cases h : SameLetters text key
    · have hkey : (String.ofList (upper text.toList) == key) = true :=
        beq_iff_eq.mpr (hsame.mp h)
      rw [List.lookup_cons, hkey, List.find?_cons_of_pos (by simpa using h)]
      rfl
    · have hkey : (String.ofList (upper text.toList) == key) = false :=
        beq_eq_false_iff_ne.mpr (mt hsame.mpr h)
      rw [List.lookup_cons, hkey, List.find?_cons_of_neg (by simpa using h)]
      exact ih hrest

/-- The names of levels differ, so a text cannot be two of them. -/
theorem numberNamed_of_sameLetters {entry : String × Int} (hentry : entry ∈ levelNames)
    (h : SameLetters text entry.1) : numberNamed text = entry.2 := by
  have hnumber : ∀ entry ∈ levelNames, levelNames.lookup entry.1 = some entry.2 := by
    decide +kernel
  -- the upper case of the text is the name itself, which is looked up
  have hupper := (sameLetters_iff (levelNames_upper entry hentry)).mp h
  rw [numberNamed, ← lookup_upper levelNames_upper, hupper, hnumber entry hentry]
  rfl

theorem numberNamed_of_none (h : ∀ entry ∈ levelNames, ¬ SameLetters text entry.1) :
    numberNamed text = 20 := by
  have hnone : levelNames.find? (fun entry => SameLetters text entry.1) = none := by
    rw [List.find?_eq_none]
    exact fun entry hentry hsame => h entry hentry (of_decide_eq_true hsame)
  rw [numberNamed, hnone]
  rfl

/-- A text that does not mislead stands for the level that it should. -/
theorem toLevel_meant_of_not_misleading (h : ¬ Misleading text) :
    toLevel (meant (.text text)) = .ok (.int (numberNamed text)) := by
  have hother : otherNames.lookup (String.ofList (upper text.toList)) = none := by
    rw [lookup_upper otherNames_upper, Option.map_eq_none_iff, List.find?_eq_none]
    intro entry hentry hsame
    exact h ⟨entry, hentry, of_decide_eq_true hsame⟩
  show toLevel (meaning (String.ofList (upper text.toList))) = _
  -- both sides look the text up among the levels, and take `INFO` if it is not there
  rw [meaning, hother, numberNamed, ← lookup_upper levelNames_upper]
  cases levelNames.lookup (String.ofList (upper text.toList)) <;> rfl

/-- A text that misleads stands for no level at all. -/
theorem toLevel_meant_of_misleading (h : Misleading text) :
    ∃ fault, toLevel (meant (.text text)) = .error fault := by
  obtain ⟨entry, hentry, hsame⟩ := h
  have hupper := (sameLetters_iff (otherNames_upper entry hentry)).mp hsame
  show ∃ fault, toLevel (meaning (String.ofList (upper text.toList))) = .error fault
  rw [hupper]
  simp only [otherNames, List.mem_cons, List.not_mem_nil, or_false] at hentry
  -- a text that is no level in turn, and a table
  rcases hentry with rfl | rfl <;> exact ⟨_, rfl⟩

/-! ## The level after a call -/

theorem not_isRoot_of_inPackage {logger : String} (h : InPackage logger) :
    isRoot logger = false := by
  rw [Bool.eq_false_iff]
  intro hroot
  have hname : logger = "" ∨ logger = "root" := by simpa [isRoot] using hroot
  have houtside : ¬ InPackage "" ∧ ¬ InPackage "root" := by decide +kernel
  rcases hname with rfl | rfl
  · exact houtside.1 h
  · exact houtside.2 h

theorem level_attach (logger : String) (s : Loggers) :
    s.attach.level logger = s.level logger := by
  rw [level, level, attach_levels]

section

variable {logger : String} (s : Loggers)

theorem level_setLevel (hlogger : InPackage logger) (n : LevelNumber) :
    (s.setLevel logger n).level logger = n := by
  rw [level, not_isRoot_of_inPackage hlogger, setLevel, Ledger.get?_put, BEq.rfl]
  rfl

/-- A logger that only exists from now on has no level, which it had not before either. -/
theorem level_touch : (s.touch logger).level logger = s.level logger := by
  unfold touch
  split_ifs with hknown
  · rfl
  · rw [Bool.or_eq_true, not_or, Bool.not_eq_true, Bool.not_eq_true] at hknown
    have hnone : s.levels.get? logger = none := by simpa [Ledger.contains] using hknown.2
    rw [level, level, hnone, Ledger.get?_put, BEq.rfl]
    rfl

theorem assign_level (hlogger : InPackage logger) (v : Value) :
    (s.assign logger v).2.level logger = (toLevel (meant v)).toOption.getD (s.level logger) := by
  unfold assign
  cases toLevel (meant v) with
  | ok n => exact level_setLevel s hlogger n
  | error e => exact level_touch s

theorem assign_outcome (v : Value) :
    (s.assign logger v).1 = (toLevel (meant v)).map fun _ => () := by
  unfold assign
  cases toLevel (meant v) <;> rfl

end

namespace Call

theorem make_outcome (call : Call) (s : Loggers) :
    (call.make s).1 = (toLevel (meant call.asked)).map fun _ => () := by
  rw [make_eq_assign, assign_outcome]

/-- The addressed logger gets the level that is meant, or keeps its own. -/
theorem make_level (call : Call) (s : Loggers) :
    (call.make s).2.level call.addressee =
      (toLevel (meant call.asked)).toOption.getD (s.level call.addressee) := by
  rw [make_eq_assign, assign_level _ call.inPackage_addressee]
  split_ifs
  · rw [level_attach]
  · rfl

/-- A call is heeded if its text does not mislead. -/
theorem make_of_not_misleading (call : Call) (htext : call.asked = .text text)
    (h : ¬ Misleading text) (s : Loggers) :
    (call.make s).1 = .ok () ∧
      (call.make s).2.level call.addressee = .int (numberNamed text) := by
  have hlevel := toLevel_meant_of_not_misleading h
  rw [make_outcome, make_level, htext, hlevel]
  exact ⟨rfl, rfl⟩

/-- A call whose text misleads fails, and changes no level. -/
theorem make_of_misleading (call : Call) (htext : call.asked = .text text)
    (h : Misleading text) (s : Loggers) :
    (∃ fault, (call.make s).1 = .error fault) ∧
      (call.make s).2.level call.addressee = s.level call.addressee := by
  obtain ⟨fault, hfault⟩ := toLevel_meant_of_misleading h
  rw [make_outcome, make_level, htext, hfault]
  exact ⟨⟨fault, rfl⟩, rfl⟩

end Call

/-- After a run a logger has the level that it had after the last call that addresses it. -/
theorem afterCalls_level_last (s : Loggers) (before : List Call) (call : Call) {later : List Call}
    (hlater : ∀ other ∈ later, other.addressee ≠ call.addressee) :
    (afterCalls s (before ++ call :: later)).level call.addressee =
      (call.make (afterCalls s before)).2.level call.addressee := by
  -- what comes after the call addresses others, and leaves this logger alone
  have hsplit : afterCalls s (before ++ call :: later) =
      afterCalls (call.make (afterCalls s before)).2 later := by
    rw [afterCalls, List.foldl_append, List.foldl_cons]
    rfl
  rw [hsplit]
  exact (afterCalls_sameBut later hlater).2

/-- When a level that is given by name is heeded: exactly if the text is not, in some case, one of
the two names of something else. Then the call succeeds, and the logger that it addresses gets the
level that the text names in any case, or `INFO` if it names none; otherwise the call fails, and the
logger keeps the level that it had. Of a run it is the last call to address a logger that counts,
whatever the others do: the logger has the level that is meant by it, unless the text misleads and
the level was another before. To name a level in any case is to write its name letter by letter. -/
theorem names_heeded_iff (s : Loggers) (call : Call) {text : String}
    (htext : call.asked = .text text) :
    let standard : List (String × Int) :=
      [("CRITICAL", 50), ("FATAL", 50), ("ERROR", 40), ("WARN", 30), ("WARNING", 30), ("INFO", 20),
        ("DEBUG", 10), ("NOTSET", 0)]
    let heeded (t : Loggers) : Prop := t.level call.addressee = .int (numberNamed text)
    ((call.make s).1 = .ok () ∧ heeded (call.make s).2 ↔ ¬ Misleading text) ∧
    (Misleading text → (∃ fault, (call.make s).1 = .error fault) ∧
      (call.make s).2.level call.addressee = s.level call.addressee) ∧
    (∀ before later, (∀ other ∈ later, other.addressee ≠ call.addressee) →
      (heeded (afterCalls s (before ++ call :: later)) ↔
        ¬ Misleading text ∨ heeded (afterCalls s before))) ∧
    (Misleading text ↔ SameLetters text "BASIC_FORMAT" ∨ SameLetters text "_STYLES") ∧
    (∀ entry ∈ standard, SameLetters text entry.1 → numberNamed text = entry.2) ∧
    ((∀ entry ∈ standard, ¬ SameLetters text entry.1) → numberNamed text = 20) ∧
    ∀ entry ∈ standard, SameLetters text entry.1 ↔ Writes text.toList entry.1.toList := by
  intro standard heeded
  refine ⟨⟨?_, fun h => call.make_of_not_misleading htext h s⟩,
    fun h => call.make_of_misleading htext h s, ?_, by simp [Misleading, otherNames],
    fun _ => numberNamed_of_sameLetters, numberNamed_of_none, ?_⟩
  · rintro ⟨hok, -⟩ h
    obtain ⟨⟨fault, hfault⟩, -⟩ := call.make_of_misleading htext h s
    rw [hfault] at hok
    contradiction
  · intro before later hlater
    have hlast := afterCalls_level_last s before call hlater
    by_cases h : Misleading text
    · -- the level is the one from before the call, by chance the one that is meant
      have hkept := (call.make_of_misleading htext h (afterCalls s before)).2
      simp only [heeded, hlast, hkept, h, not_true_eq_false, false_or]
    · have hheeded := (call.make_of_not_misleading htext h (afterCalls s before)).2
      simp only [heeded, hlast, hheeded, h, not_false_eq_true, true_or]
  · intro entry hentry
    have hname : entry ∈ levelNames := hentry
    rw [SameLetters, levelNames_upper entry hname]
    exact upper_eq_iff_writes (levelNames_plain entry hname) text.toList

/-- The dot may be missing in the name of a level, and a call that fails before takes nothing away.
A call that fails afterwards leaves the level as it was set, though `INFO` should be set. -/
theorem names_heeded_iff_sample :
    let named : Call := .component "memo" (.text "crıtical")
    let misleading : Call := .component "bindgen.memo" (.text "_ﬆyles")
    (named.asked = .text "crıtical" ∧ misleading.asked = .text "_ﬆyles") ∧
      SameLetters "crıtical" "CRITICAL" ∧
      (named.make initial).1 = .ok () ∧
      (afterCalls initial [misleading, named, .configure true (.text "debug")]).level
        "bindgen.memo" = .int 50 ∧
      (afterCalls initial [named, misleading]).level "bindgen.memo" ≠ .int 20 := by
  intro named misleading
  have hnumber : numberNamed "crıtical" = 50 ∧ numberNamed "_ﬆyles" = 20 := by decide +kernel
  have hplain : ¬ Misleading "crıtical" := by decide +kernel
  have hmisleading : Misleading "_ﬆyles" := by decide +kernel
  have hasked : named.asked = .text "crıtical" ∧ misleading.asked = .text "_ﬆyles" := ⟨rfl, rfl⟩
  obtain ⟨hmake, -, hrun, -, -, -, hletters⟩ := names_heeded_iff initial named hasked.1
  obtain ⟨-, -, hother, -⟩ := names_heeded_iff initial misleading hasked.2
  refine ⟨hasked, (hletters ("CRITICAL", 50) (by decide)).mpr (by decide +kernel),
    (hmake.mpr hplain).1, ?_, ?_⟩
  · have hlast := (hrun [misleading] [.configure true (.text "debug")] (by decide +kernel)).mpr
      (.inl hplain)
    rwa [hnumber.1] at hlast
  · have hlast := (hother [named] [] (by decide)).not
    rw [hnumber.2] at hlast
    apply hlast.mpr
    rintro (hnot | hinfo)
    · exact hnot hmisleading
    · revert hinfo
      decide +kernel

/-- The text is the name of no level, so `INFO` should be set. It is found to be a name all the
same, and the call fails over what that stands for and leaves the level as it was. -/
theorem names_not_heeded :
    let call : Call := .configure false (.text "basic_format")
    (∀ entry ∈ levelNames, ¬ SameLetters "basic_format" entry.1) ∧
      numberNamed "basic_format" = 20 ∧
      (call.make initial).1 = .error (.unknownName "%(levelname)s:%(name)s:%(message)s") ∧
      (call.make initial).2.level package = .int 0 ∧
      ((Call.component "memo" (.text "_styles")).make initial).1 = .error .notALevel := by
  decide +kernel

end Bindery.Loggers
