import Bindery.Proofs.Capitals
import Bindery.Proofs.SettingsForm

/-!
# Values that ask for a level

A value asks for a level by a text: a number by what it is called, and everything else by the way it
is written. The names of levels are nothing but letters, while what is no text is written with a sign
somewhere, a bracket, a quote, a point or a dash (`Level.ofName?_toText`), and a sign is its own
upper case (`Level.Signed.upper`). The few that have none, such as a number that is not a number, are
looked at one by one.

So nothing is taken for a level by the way it happens to be written: `levels_asked` says that a level
is asked for by its number or by its name in any case, and by nothing else.
-/

namespace Bindery

open Bindery.Text

namespace Level

/-! ## Signs -/

/-- Signs of which at least one is in the text of almost every value that is no text itself. -/
def signs : List Char := [' ', '(', '[', '\x7b', '\'', '"', '.', '-', '+']

/-- Whether a text has a sign in it. -/
def Signed (cs : List Char) : Prop := ∃ sign ∈ signs, sign ∈ cs

/-- No name has a sign in it. -/
theorem not_signed_name (level : Level) : ¬ Signed level.name.toList := by
  have hnone : (signs.any level.name.toList.contains) = false := by cases level <;> decide +kernel
  intro h
  obtain ⟨sign, hsign, hmem⟩ := h
  exact List.any_eq_false.mp hnone sign hsign (List.contains_iff_mem.mpr hmem)

/-- A sign is its own upper case, so the upper case of a text has the signs of the text. -/
theorem Signed.upper {cs : List Char} (h : Signed cs) : Signed (upper cs) := by
  obtain ⟨sign, hsign, hmem⟩ := h
  have hself : (signs.all fun c => (upperChar c).contains c) = true := by decide +kernel
  have hupper := List.contains_iff_mem.mp (List.all_eq_true.mp hself sign hsign)
  exact ⟨sign, hsign, List.mem_flatMap.mpr ⟨sign, hmem, hupper⟩⟩

/-! ## Names and numbers -/

/-- The upper case of the text tells which level is meant. -/
theorem ofName?_eq_some_iff (s : String) (level : Level) :
    ofName? s = some level ↔ Text.upper s.toList = level.name.toList := by
  have hnames : ∀ a b : Level, a.name.toList = b.name.toList → a = b := by
    intro a b
    cases a <;> cases b <;> decide +kernel
  unfold ofName?
  constructor
  · intro h
    have hfound := List.find?_some h
    exact (beq_iff_eq.mp hfound).symm
  · intro h
    rw [h]
    cases hfind : all.find? (fun other => other.name.toList == level.name.toList) with
    | some other =>
      -- the names differ, so the one that is found is the one that is meant
      have hsame := List.find?_some hfind
      rw [hnames other level (by simpa using hsame)]
    | none =>
      have hmem : level ∈ all := by cases level <;> decide
      have hnot := List.find?_eq_none.mp hfind level hmem
      simp at hnot

theorem ofName?_name (level : Level) : ofName? level.name = some level := by
  cases level <;> decide +kernel

theorem Signed.ofName?_eq_none {s : String} (h : Signed s.toList) : ofName? s = none := by
  cases hname : ofName? s with
  | none => rfl
  | some level =>
    rw [ofName?_eq_some_iff] at hname
    have hsigned := h.upper
    rw [hname] at hsigned
    exact absurd hsigned (not_signed_name level)

theorem ofNumber?_eq_some_iff (n : Int) (level : Level) :
    ofNumber? n = some level ↔ n = level.number := by
  unfold ofNumber?
  constructor
  · intro h
    have hfound := List.find?_some h
    exact (of_decide_eq_true hfound).symm
  · rintro rfl
    cases level <;> decide

/-- A number is called by the name of a level only if it is the number of the level. -/
theorem ofName?_numberName (n : Int) : ofName? (numberName n) = ofNumber? n := by
  unfold numberName
  cases hnumber : ofNumber? n with
  | some level => exact ofName?_name level
  | none =>
    show ofName? (if n = 0 then "NOTSET" else "Level " ++ toString n) = none
    split_ifs
    · decide +kernel
    · apply Signed.ofName?_eq_none
      refine ⟨' ', by decide, ?_⟩
      rw [String.toList_append]
      exact List.mem_append_left _ (by decide)

end Level

/-! ## How values are written -/

open Level

theorem Date.signed_isoText (d : Date) : Signed d.isoText :=
  ⟨'-', by decide, by simp [isoText]⟩

/-- The dashes of the day stay when the day is parted from the hour by a space. -/
theorem Moment.signed_toText (m : Moment) :
    Signed (m.isoText.map fun c => if c = 'T' then ' ' else c) := by
  refine ⟨'-', by decide, List.mem_map.mpr ⟨'-', ?_, rfl⟩⟩
  simp [isoText, Date.isoText]

theorem signed_tupled (items : List (List Char)) : Signed (tupled items) := by
  refine ⟨'(', by decide, ?_⟩
  unfold tupled
  split <;> simp

theorem signed_quotedBytes (bytes : List UInt8) : Signed (quotedBytes bytes).toList := by
  rw [quotedBytes, String.toList_ofList, quoteWith, quoteFor]
  split_ifs
  · exact ⟨'"', by decide, by simp⟩
  · exact ⟨'\'', by decide, by simp⟩

namespace Binary64

/-- An exponent has a sign of its own. -/
theorem signed_exponentText (e : Int) : Signed (exponentText e) := by
  by_cases h : e < 0
  · exact ⟨'-', by decide, by simp [exponentText, h]⟩
  · exact ⟨'+', by decide, by simp [exponentText, h]⟩

/-- Digits have a point or an exponent among them when they are placed. -/
theorem signed_placed (digits : List Char) (point : Int) :
    placed digits point = [] ∨ Signed (placed digits point) := by
  unfold placed
  dsimp only
  split_ifs
  · exact .inr ⟨'.', by decide, by simp⟩
  · exact .inr ⟨'.', by decide, by simp⟩
  · exact .inr ⟨'.', by decide, by simp⟩
  · match digits with
    | [] => exact .inl rfl
    | [d] =>
      obtain ⟨sign, hsign, hmem⟩ := signed_exponentText (point - 1)
      exact .inr ⟨sign, hsign, by simp [hmem]⟩
    | d :: e :: es => exact .inr ⟨'.', by decide, by simp⟩

/-- A number is written with a sign, unless it is none or infinite. -/
theorem display_cases (x : Binary64) :
    x.display ∈ [['n', 'a', 'n'], ['i', 'n', 'f'], []] ∨ Signed x.display := by
  unfold display
  split
  · exact .inl (by decide)
  · split_ifs
    · exact .inr ⟨'-', by decide, by decide⟩
    · exact .inl (by decide)
  · next negative mantissa exponent _ =>
    have hshown : ∀ shown : List Char, shown = [] ∨ Signed shown →
        (if negative then '-' :: shown else shown) ∈ [['n', 'a', 'n'], ['i', 'n', 'f'], []] ∨
          Signed (if negative then '-' :: shown else shown) := by
      intro shown h
      cases negative with
      | true => exact .inr ⟨'-', by decide, List.mem_cons_self⟩
      | false => exact h.imp (fun hempty => by simp [hempty]) id
    apply hshown
    split_ifs
    · exact .inr ⟨'.', by decide, by decide⟩
    · split
      exact signed_placed _ _

end Binary64

/-- What is neither a text nor a whole number is not written like a level. -/
theorem Level.ofName?_toText {v : Value} (htext : ∀ s, v ≠ .text s) (hint : ∀ n, v ≠ .int n) :
    ofName? v.toText = none := by
  -- whatever is written with a sign is no name
  have hsigned : ∀ cs : List Char, Signed cs → ofName? (String.ofList cs) = none := by
    intro cs h
    apply Signed.ofName?_eq_none
    rwa [String.toList_ofList]
  match v with
  | .scalar .null => decide +kernel
  | .scalar (.bool true) => decide +kernel
  | .scalar (.bool false) => decide +kernel
  | .scalar (.int n) => exact absurd rfl (hint n)
  | .scalar (.text s) => exact absurd rfl (htext s)
  | .scalar (.float x) =>
    show ofName? (String.ofList x.display) = none
    rcases x.display_cases with hplain | h
    · revert hplain
      generalize x.display = cs
      revert cs
      decide +kernel
    · exact hsigned _ h
  | .scalar (.bytes bs) => exact hsigned _ (signed_quotedBytes bs)
  | .scalar (.date d) => exact hsigned _ d.signed_isoText
  | .scalar (.moment m) => exact hsigned _ m.signed_toText
  | .tuple items =>
    apply hsigned
    rw [Value.display]
    exact signed_tupled _
  | .list items =>
    apply hsigned
    rw [Value.display]
    exact ⟨'[', by decide, by simp⟩
  | .set [] => decide +kernel
  | .set (item :: items) =>
    apply hsigned
    rw [Value.display]
    · exact ⟨'\x7b', by decide, by simp⟩
    · simp
  | .mapping entries =>
    apply hsigned
    rw [Value.display]
    exact ⟨'\x7b', by decide, by simp⟩

/-- A value asks for a level by its number or by a text whose upper case is its name. -/
theorem Level.ofValue?_eq_some_iff (v : Value) (level : Level) :
    ofValue? v = some level ↔
      v = .int level.number ∨ ∃ s, v = .text s ∧ upper s.toList = level.name.toList := by
  by_cases hint : ∃ n, v = .int n
  · obtain ⟨n, rfl⟩ := hint
    have hasked : ofValue? (.int n) = ofNumber? n := ofName?_numberName n
    rw [hasked, ofNumber?_eq_some_iff]
    simp [Value.int, Value.text]
  by_cases htext : ∃ s, v = .text s
  · obtain ⟨s, rfl⟩ := htext
    have hasked : ofValue? (.text s) = ofName? s := rfl
    rw [hasked, ofName?_eq_some_iff]
    simp [Value.int, Value.text]
  rw [not_exists] at hint htext
  have hasked : nameAsked v = v.toText := by
    unfold nameAsked
    split
    · exact absurd rfl (hint _)
    · rfl
  rw [ofValue?, hasked, ofName?_toText htext hint]
  simp [hint, htext]

/-! ## Settings that are checked again -/

namespace Settings

/-- The mapping that settings write gives the settings. -/
theorem ofMapping_toMapping (settings : Settings) :
    ofMapping settings.toMapping = .ok settings := by
  rw [ofMapping_eq_ok_iff]
  refine ⟨?_, ?_, ?_⟩
  · intro entry hentry
    simp only [toMapping, List.mem_cons, List.not_mem_nil, or_false] at hentry
    rcases hentry with rfl | rfl | rfl | rfl <;> exact ⟨_, by decide, rfl⟩
  · intro f
    cases f <;> exact Check.optional_eq_ok_iff.mpr ((Check.text_eq_ok_iff _ _).mpr (.inl rfl))
  · refine Check.optional_eq_ok_iff.mpr ((checkLogging_eq_ok_iff _ _).mpr ⟨_, rfl, ?_, ?_⟩)
    · simp [Key.text]
    · exact Level.ofName?_name settings.level

/-- Whatever a value is, it is accepted for a level exactly if it is the number of one or a text whose
upper case is the name of one; a truth value is no number here, and nothing is accepted by the way it
is written. All other values are refused. What is accepted is one of the five names, which is accepted
as itself again, and so settings that are checked again stay what they are. -/
theorem levels_asked :
    (∀ v level, checkLevel v = .ok level ↔
      v = .int level.number ∨ ∃ s, v = .text s ∧ upper s.toList = level.name.toList) ∧
    (∀ v, (∀ level, checkLevel v ≠ .ok level) →
      checkLevel v = Checked.refuse (.unknownLevel (Level.unknownText v))) ∧
    (∀ level : Level, (level.name, level.number) ∈
        [("CRITICAL", 50), ("ERROR", 40), ("WARNING", 30), ("INFO", 20), ("DEBUG", 10)] ∧
      checkLevel (.text level.name) = .ok level) ∧
    ∀ settings : Settings, ofValue (.mapping settings.toMapping) = .ok settings := by
  refine ⟨?_, ?_, ?_, ofMapping_toMapping⟩
  · intro v level
    rw [← Level.ofValue?_eq_some_iff, checkLevel]
    cases Level.ofValue? v <;> simp [Checked.refuse]
  · intro v hrefused
    unfold checkLevel at hrefused ⊢
    cases hasked : Level.ofValue? v with
    | none => rfl
    | some level => exact absurd (by rw [hasked]) (hrefused level)
  · intro level
    refine ⟨by cases level <;> decide, ?_⟩
    have hasked : Level.ofValue? (.text level.name) = some level := Level.ofName?_name level
    rw [checkLevel, hasked]

/-- A letter of another alphabet may have a capital that a name is written with. -/
example : checkLevel (.text "ınfo") = .ok .info := by decide +kernel

end Settings

end Bindery
