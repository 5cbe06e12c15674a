import Bindery.Config.Settings
import Bindery.Proofs.KeyEquality

/-!
# The form of settings

`ofMapping_eq_ok_iff` says of every mapping which settings it gives, and `exists_ofMapping_iff`
for which mappings there are any: the keys are names of settings, the texts are texts or bytes that
encode one, and the section on logging is a mapping that holds nothing but a level that there is
(`Acceptable`).
-/

namespace Bindery

/-! ## Texts and the bytes that encode them -/

/-- Bytes are decoded to the text that they encode, if there is one. -/
theorem Text.decode?_eq_some_iff (bytes : List UInt8) (s : String) :
    Text.decode? bytes = some s ↔ bytes = Text.encode s := by
  unfold Text.decode? Text.encode String.fromUTF8?
  constructor
  · intro h
    split at h
    · cases h
      rfl
    · contradiction
  · rintro rfl
    show (if h : s.toByteArray.IsValidUTF8 then some (String.fromUTF8 s.toByteArray h) else none) = _
    rw [dif_pos s.isValidUTF8]
    rfl

/-! ## Checks -/

section

variable {α β γ : Type}

theorem Checked.both_eq_ok_iff {combine : α → β → γ} {a : Checked α} {b : Checked β} {c : γ} :
    Checked.both combine a b = .ok c ↔ ∃ x y, a = .ok x ∧ b = .ok y ∧ combine x y = c := by
  cases a <;> cases b <;> simp [Checked.both]

theorem Checked.inside_eq_ok_iff {name : String} {checked : Checked α} {a : α} :
    Checked.inside name checked = .ok a ↔ checked = .ok a := by
  cases checked <;> simp [Checked.inside]

/-- What is under a name passes, or nothing is there and something else is taken. -/
theorem Check.optional_eq_ok_iff {check : Value → Checked α} {default : α} {name : String}
    {m : Mapping} {a : α} :
    Check.optional check default name m = .ok a ↔
      match m.get? (.text name) with
      | some v => check v = .ok a
      | none => default = a := by
  unfold Check.optional
  cases m.get? (.text name) with
  | some v => exact Checked.inside_eq_ok_iff
  | none => simp

/-- Something is taken exactly if what is under the name, should there be anything, passes. -/
theorem Check.exists_optional_iff {check : Value → Checked α} {default : α} {name : String}
    {m : Mapping} :
    (∃ a, Check.optional check default name m = .ok a) ↔
      ∀ v, m.get? (.text name) = some v → ∃ a, check v = .ok a := by
  simp only [Check.optional_eq_ok_iff]
  cases m.get? (.text name) with
  | some v => simp
  | none => simp

end

/-- A value passes for a text if it is one, or bytes that encode it. -/
theorem Check.text_eq_ok_iff (v : Value) (s : String) :
    Check.text v = .ok s ↔ v = .text s ∨ v = .scalar (.bytes (Text.encode s)) := by
  match v with
  | .scalar (.text t) => simp [Check.text, Value.text]
  | .scalar (.bytes bs) =>
    have hdecode := Text.decode?_eq_some_iff bs s
    simp only [Check.text, Value.text, Value.scalar.injEq, Scalar.bytes.injEq, reduceCtorEq,
      false_or]
    rw [← hdecode]
    cases Text.decode? bs <;> simp [Checked.refuse]
  | .scalar .null | .scalar (.bool _) | .scalar (.int _) | .scalar (.float _) | .scalar (.date _)
  | .scalar (.moment _) | .tuple _ | .list _ | .set _ | .mapping _ =>
    simp [Check.text, Checked.refuse, Value.text]

theorem Check.keyComplaint?_eq_none_iff (names : List String) (key : Key) :
    Check.keyComplaint? names key = none ↔ ∃ name ∈ names, key = .text name := by
  unfold Check.keyComplaint?
  split
  · next s =>
    simp [Key.text]
  · next hnot =>
    simp only [reduceCtorEq, false_iff]
    intro h
    obtain ⟨name, -, rfl⟩ := h
    exact hnot name rfl

/-- A mapping passes if every key in it is one of the names. -/
theorem Check.onlyNames_eq_ok_iff (names : List String) (m : Mapping) :
    Check.onlyNames names m = .ok () ↔ ∀ entry ∈ m, ∃ name ∈ names, entry.1 = .text name := by
  unfold Check.onlyNames
  have hnone : (m.filterMap fun entry => Check.keyComplaint? names entry.1) = [] ↔
      ∀ entry ∈ m, ∃ name ∈ names, entry.1 = .text name := by
    rw [List.filterMap_eq_nil_iff]
    simp only [Check.keyComplaint?_eq_none_iff]
  rw [← hnone]
  generalize (m.filterMap fun entry => Check.keyComplaint? names entry.1) = complaints
  cases complaints <;> simp

/-! ## Settings -/

/-- The settings that are texts. -/
inductive TextSetting where
  | classSuffix
  | modulePackage
  | outputDir
  deriving DecidableEq, Repr

namespace TextSetting

def name : TextSetting → String
  | classSuffix => "class_suffix"
  | modulePackage => "module_package"
  | outputDir => "output_dir"

/-- What a text is set to. -/
def of (f : TextSetting) (settings : Settings) : String :=
  match f with
  | classSuffix => settings.classSuffix
  | modulePackage => settings.modulePackage
  | outputDir => settings.outputDir

end TextSetting

namespace Settings

/-- A section on logging is a mapping that holds nothing but a level. -/
theorem checkLogging_eq_ok_iff (v : Value) (level : Level) :
    checkLogging v = .ok level ↔ ∃ inner, v = .mapping inner ∧
      (∀ entry ∈ inner, entry.1 = .text "level") ∧
      match Ledger.get? (.text "level") inner with
      | some asked => Level.ofValue? asked = some level
      | none => standard.level = level := by
  have hlevel : ∀ asked, checkLevel asked = .ok level ↔ Level.ofValue? asked = some level := by
    intro asked
    unfold checkLevel
    cases Level.ofValue? asked <;> simp [Checked.refuse]
  have honly : ∀ inner, Check.onlyNames ["level"] inner = .ok () ↔
      ∀ entry ∈ inner, entry.1 = .text "level" := by
    intro inner
    rw [Check.onlyNames_eq_ok_iff]
    simp only [List.mem_singleton, exists_eq_left]
  unfold checkLogging
  cases v with
  | mapping inner =>
    simp only [Check.mapping, Checked.both_eq_ok_iff, Value.mapping.injEq]
    constructor
    · intro h
      obtain ⟨found, _, hfound, hinner, rfl⟩ := h
      simp only [Check.optional_eq_ok_iff, hlevel] at hfound
      exact ⟨inner, rfl, (honly inner).mp hinner, hfound⟩
    · intro h
      obtain ⟨_, rfl, hinner, hfound⟩ := h
      refine ⟨level, (), ?_, (honly inner).mpr hinner, rfl⟩
      simpa only [Check.optional_eq_ok_iff, hlevel] using hfound
  | scalar _ | tuple _ | list _ | set _ => simp [Check.mapping, Checked.refuse]

/-- A section on logging passes exactly if it is a mapping that holds nothing but a level that there
is. -/
theorem exists_checkLogging_iff (v : Value) :
    (∃ level, checkLogging v = .ok level) ↔ ∃ inner, v = .mapping inner ∧
      (∀ entry ∈ inner, entry.1 = .text "level") ∧
      ∀ asked, Ledger.get? (.text "level") inner = some asked →
        ∃ level, Level.ofValue? asked = some level := by
  simp only [checkLogging_eq_ok_iff]
  constructor
  · intro h
    obtain ⟨level, inner, hinner, honly, hlevel⟩ := h
    refine ⟨inner, hinner, honly, ?_⟩
    intro asked hasked
    rw [hasked] at hlevel
    exact ⟨level, hlevel⟩
  · intro h
    obtain ⟨inner, hinner, honly, hlevel⟩ := h
    cases hasked : Ledger.get? (.text "level") inner with
    | none => exact ⟨standard.level, inner, hinner, honly, by rw [hasked]⟩
    | some asked =>
      obtain ⟨level, hlevel⟩ := hlevel asked hasked
      exact ⟨level, inner, hinner, honly, by rw [hasked]; exact hlevel⟩

/-- A mapping gives settings if its keys are the names of settings and what is under each name
passes; what is not there is what it is unless something else is given. -/
theorem ofMapping_eq_ok_iff (m : Mapping) (settings : Settings) :
    ofMapping m = .ok settings ↔
      (∀ entry ∈ m, ∃ name ∈ names, entry.1 = .text name) ∧
      (∀ f : TextSetting,
        Check.optional Check.text (f.of standard) f.name m = .ok (f.of settings)) ∧
      Check.optional checkLogging standard.level "logging" m = .ok settings.level := by
  unfold ofMapping
  simp only [Checked.both_eq_ok_iff]
  rw [← Check.onlyNames_eq_ok_iff]
  -- the checks are made in pairs, and the pairs taken apart again
  constructor
  · rintro ⟨_, _, ⟨_, _, ⟨suffix, package, hsuffix, hpackage, rfl⟩,
      ⟨dir, level, hdir, hlevel, rfl⟩, rfl⟩, hnames, rfl⟩
    refine ⟨hnames, ?_, hlevel⟩
    intro f
    cases f with
    | classSuffix => exact hsuffix
    | modulePackage => exact hpackage
    | outputDir => exact hdir
  · intro h
    obtain ⟨hnames, htexts, hlevel⟩ := h
    exact ⟨settings, (), ⟨(settings.classSuffix, settings.modulePackage),
      (settings.outputDir, settings.level), ⟨_, _, htexts .classSuffix, htexts .modulePackage, rfl⟩,
      ⟨_, _, htexts .outputDir, hlevel, rfl⟩, rfl⟩, hnames, rfl⟩

end Settings

/-- What a mapping must be to give settings. -/
structure Acceptable (m : Mapping) : Prop where
  names : ∀ entry ∈ m, ∃ name ∈ Settings.names, entry.1 = .text name
  texts : ∀ (f : TextSetting) v, m.get? (.text f.name) = some v →
    ∃ s, v = .text s ∨ v = .scalar (.bytes (Text.encode s))
  logging : ∀ v, m.get? (.text "logging") = some v → ∃ inner, v = .mapping inner ∧
    (∀ entry ∈ inner, entry.1 = .text "level") ∧
    ∀ asked, Ledger.get? (.text "level") inner = some asked →
      ∃ level, Level.ofValue? asked = some level

/-- A mapping gives settings exactly if it is what it must be. -/
theorem Settings.exists_ofMapping_iff (m : Mapping) :
    (∃ settings, ofMapping m = .ok settings) ↔ Acceptable m := by
  constructor
  · intro h
    obtain ⟨settings, h⟩ := h
    obtain ⟨hnames, htexts, hlogging⟩ := (ofMapping_eq_ok_iff m settings).mp h
    refine ⟨hnames, ?_, ?_⟩
    · intro f v hv
      obtain ⟨s, hs⟩ := Check.exists_optional_iff.mp ⟨_, htexts f⟩ v hv
      exact ⟨s, (Check.text_eq_ok_iff v s).mp hs⟩
    · intro v hv
      exact (exists_checkLogging_iff v).mp (Check.exists_optional_iff.mp ⟨_, hlogging⟩ v hv)
  · intro h
    -- every check passes, so the settings can be put together from what they find
    have htexts : ∀ f : TextSetting, ∃ s,
        Check.optional Check.text (f.of standard) f.name m = .ok s := by
      intro f
      refine Check.exists_optional_iff.mpr ?_
      intro v hv
      obtain ⟨s, hs⟩ := h.texts f v hv
      exact ⟨s, (Check.text_eq_ok_iff v s).mpr hs⟩
    have hlogging : ∃ level, Check.optional checkLogging standard.level "logging" m = .ok level :=
      Check.exists_optional_iff.mpr fun v hv =>
        (exists_checkLogging_iff v).mpr (h.logging v hv)
    obtain ⟨suffix, hsuffix⟩ := htexts .classSuffix
    obtain ⟨package, hpackage⟩ := htexts .modulePackage
    obtain ⟨dir, hdir⟩ := htexts .outputDir
    obtain ⟨level, hlevel⟩ := hlogging
    refine ⟨⟨suffix, package, dir, level⟩, (ofMapping_eq_ok_iff m _).mpr ⟨h.names, ?_, hlevel⟩⟩
    intro f
    cases f with
    | classSuffix => exact hsuffix
    | modulePackage => exact hpackage
    | outputDir => exact hdir

end Bindery
