import Bindery.Proofs.CamelCase
import Mathlib.Tactic

/-!
# Capitals, and names that are converted again

What is needed of the upper case can be read off its tables (`upperChar_entry`): the upper case of a
character is never empty, it holds no sign that the character is not (`eq_of_mem_upperChar`), and
the character that it starts with is its own upper case (`exists_settled_start`). The last is a
question of two sets of code points, those that have another upper case and those that an upper case
starts with: they are disjoint, which is computed with each set as the bits of a number.

So a word that has its capital keeps it (`capitalized_capitalized`), and a converted name, having
no separator left in it, is one word, which converting it again leaves as it is (`converted_stable`).
Nor does anything get lost but separators: a converted name is empty if nothing else was in the name
(`camelCase_eq_nil_iff`).
-/

namespace Bindery.Text

/-! ## Sets of code points -/

/-- Numbers as the bits of one number. -/
def bitsOf (codes : List Nat) : Nat :=
  codes.foldr (fun code bits => 1 <<< code ||| bits) 0

theorem testBit_bitsOf {codes : List Nat} {code : Nat} :
    (bitsOf codes).testBit code = true ↔ code ∈ codes := by
  induction codes with
  | nil => simp [bitsOf]
  | cons first rest ih =>
    have hstep : bitsOf (first :: rest) = 1 <<< first ||| bitsOf rest := rfl
    rw [hstep, Nat.testBit_or, Bool.or_eq_true, ih, List.mem_cons, Nat.one_shiftLeft,
      Nat.testBit_two_pow, decide_eq_true_iff, eq_comm]

/-- Sets without a bit in common are disjoint. -/
theorem not_mem_of_bits {codes others : List Nat} (h : bitsOf codes &&& bitsOf others = 0)
    {code : Nat} (hcode : code ∈ codes) : code ∉ others := by
  intro hother
  have hboth : (bitsOf codes &&& bitsOf others).testBit code = true := by
    rw [Nat.testBit_and, testBit_bitsOf.mpr hcode, testBit_bitsOf.mpr hother]
    rfl
  rw [h, Nat.zero_testBit] at hboth
  contradiction

/-- The code points of a run. -/
def CaseRange.codes (run : CaseRange) : List Nat :=
  List.range' run.first ((run.last - run.first) / run.step + 1) run.step

theorem CaseRange.mem_codes {run : CaseRange} {code : Nat} (h : run.holds code = true) :
    code ∈ run.codes := by
  unfold CaseRange.holds at h
  simp only [Bool.and_eq_true, decide_eq_true_eq, beq_iff_eq] at h
  obtain ⟨⟨hfirst, hlast⟩, hstep⟩ := h
  -- the code is reached from the first one in whole steps, and in no more than the last one is
  have hsteps : run.step * ((code - run.first) / run.step) = code - run.first :=
    Nat.mul_div_cancel' (Nat.dvd_of_mod_eq_zero hstep)
  have hfew : (code - run.first) / run.step ≤ (run.last - run.first) / run.step :=
    Nat.div_le_div_right (by omega)
  rw [CaseRange.codes, List.mem_range']
  exact ⟨(code - run.first) / run.step, by omega, by omega⟩

/-! ## The tables -/

/-- The code points that have another upper case. -/
def casedCodes : List Nat :=
  upperExpansions.map Prod.fst ++ upperRuns.flatMap CaseRange.codes

/-- Those upper cases, each as its code points. -/
def upperTexts : List (List Nat) :=
  upperExpansions.map Prod.snd ++
    upperRuns.flatMap fun run => run.codes.map fun (code : Nat) => [(code + run.shift).toNat]

/-- What an upper case starts with has no other upper case. -/
theorem starts_uncased :
    bitsOf (upperTexts.filterMap List.head?) &&& bitsOf casedCodes = 0 := by
  decide +kernel

/-- No upper case is empty, and of ASCII it has nothing but capitals. -/
theorem upperTexts_capital : ∀ codes ∈ upperTexts, codes ≠ [] ∧
    ∀ code ∈ codes, (Char.ofNat code).toNat = code ∧
      (128 ≤ code ∨ (Char.ofNat code).isUpper = true) := by
  decide +kernel

/-- The code points that have another upper case, each with the code points of that. -/
def upperEntries : List (Nat × List Nat) :=
  upperExpansions ++
    upperRuns.flatMap fun run =>
      run.codes.map fun (code : Nat) => (code, [(code + run.shift).toNat])

theorem mem_upperTexts_of_entry {code : Nat} {codes : List Nat} (h : (code, codes) ∈ upperEntries) :
    codes ∈ upperTexts := by
  rcases List.mem_append.mp h with hexpansion | hrun
  · exact List.mem_append_left _ (List.mem_map_of_mem (f := Prod.snd) hexpansion)
  · obtain ⟨run, hmem, hentry⟩ := List.mem_flatMap.mp hrun
    obtain ⟨_, hcode, hsame⟩ := List.mem_map.mp hentry
    cases hsame
    exact List.mem_append_right _
      (List.mem_flatMap.mpr ⟨run, hmem, List.mem_map.mpr ⟨code, hcode, rfl⟩⟩)

/-- The upper case of a character is one of several characters, or a single one. -/
theorem upperChar_expanded_or_shifted (c : Char) :
    (∃ codes, (c.toNat, codes) ∈ upperExpansions ∧ upperChar c = codes.map Char.ofNat) ∨
      upperChar c = [Char.ofNat (shiftCase upperRuns c.toNat)] := by
  unfold upperChar
  cases hcodes : upperExpansions.lookup c.toNat with
  | some codes =>
    left
    obtain ⟨before, behind, hentry, -⟩ := List.lookup_eq_some_iff.mp hcodes
    exact ⟨codes, by rw [hentry]; simp, rfl⟩
  | none => exact .inr rfl

/-- A character is its own upper case, or its upper case stands beside it in the tables. -/
theorem upperChar_entry (c : Char) :
    upperChar c = [c] ∨
      ∃ codes, (c.toNat, codes) ∈ upperEntries ∧ upperChar c = codes.map Char.ofNat := by
  rcases upperChar_expanded_or_shifted c with ⟨codes, hmem, hupper⟩ | hupper
  · exact .inr ⟨codes, List.mem_append_left _ hmem, hupper⟩
  · unfold shiftCase at hupper
    cases hrun : upperRuns.find? (·.holds c.toNat) with
    | none =>
      left
      simpa only [hrun, Char.ofNat_toNat] using hupper
    | some run =>
      right
      simp only [hrun] at hupper
      have hholds := List.find?_some hrun
      refine ⟨[(c.toNat + run.shift).toNat], List.mem_append_right _ ?_, hupper⟩
      exact List.mem_flatMap.mpr ⟨run, List.mem_of_find?_eq_some hrun,
        List.mem_map.mpr ⟨c.toNat, CaseRange.mem_codes hholds, rfl⟩⟩

theorem upperChar_cases (c : Char) :
    upperChar c = [c] ∨ ∃ codes ∈ upperTexts, upperChar c = codes.map Char.ofNat := by
  rcases upperChar_entry c with hself | ⟨codes, hentry, hupper⟩
  · exact .inl hself
  · exact .inr ⟨codes, mem_upperTexts_of_entry hentry, hupper⟩

/-- A character is its own upper case if the tables have no other for it. -/
theorem upperChar_of_uncased {c : Char} (h : c.toNat ∉ casedCodes) : upperChar c = [c] := by
  obtain ⟨hexpansion, hrun⟩ := not_or.mp (mt List.mem_append.mpr h)
  have hlookup : upperExpansions.lookup c.toNat = none := by
    rw [List.lookup_eq_none_iff]
    intro entry hentry
    rw [bne_iff_ne]
    rintro hsame
    exact hexpansion (List.mem_map.mpr ⟨entry, hentry, hsame.symm⟩)
  have hfind : upperRuns.find? (·.holds c.toNat) = none := by
    rw [List.find?_eq_none]
    intro run hmem hholds
    exact hrun (List.mem_flatMap.mpr ⟨run, hmem, CaseRange.mem_codes hholds⟩)
  unfold upperChar shiftCase
  simp only [hlookup, hfind, Char.ofNat_toNat]

/-- An upper case starts with a character that is its own upper case. -/
theorem exists_settled_start (c : Char) :
    ∃ d rest, upperChar c = d :: rest ∧ upperChar d = [d] := by
  rcases upperChar_cases c with hself | ⟨codes, hcodes, hupper⟩
  · exact ⟨c, [], hself, hself⟩
  · obtain ⟨hne, hcapital⟩ := upperTexts_capital codes hcodes
    obtain ⟨code, rest, rfl⟩ := List.exists_cons_of_ne_nil hne
    refine ⟨Char.ofNat code, rest.map Char.ofNat, hupper, upperChar_of_uncased ?_⟩
    -- no code is in both sets, and this one starts an upper case
    rw [(hcapital code List.mem_cons_self).1]
    exact not_mem_of_bits starts_uncased (List.mem_filterMap.mpr ⟨_, hcodes, rfl⟩)

/-- No upper case has a sign of ASCII in it that was not there before. -/
theorem eq_of_mem_upperChar {sign c : Char} (hascii : sign.toNat < 128)
    (hsign : sign.isUpper = false) (h : sign ∈ upperChar c) : sign = c := by
  rcases upperChar_cases c with hself | ⟨codes, hcodes, hupper⟩
  · rw [hself] at h
    exact List.mem_singleton.mp h
  · rw [hupper] at h
    obtain ⟨code, hcode, rfl⟩ := List.mem_map.mp h
    obtain ⟨hcode, hhigh | hcapital⟩ := (upperTexts_capital codes hcodes).2 code hcode
    · rw [hcode] at hascii
      omega
    · rw [hcapital] at hsign
      contradiction

end Bindery.Text

namespace Bindery.Naming

open Bindery.Text

/-! ## Words with a capital -/

variable {word name : List Char} {sign : Char}

theorem capitalized_eq_nil_iff : capitalized word = [] ↔ word = [] := by
  cases word with
  | nil => rfl
  | cons c cs =>
    obtain ⟨d, others, hupper, -⟩ := exists_settled_start c
    simp [capitalized, hupper]

/-- A word keeps the capital that it has. -/
theorem capitalized_capitalized (word : List Char) :
    capitalized (capitalized word) = capitalized word := by
  cases word with
  | nil => rfl
  | cons c cs =>
    obtain ⟨d, others, hupper, hsettled⟩ := exists_settled_start c
    rw [capitalized, hupper, List.cons_append, capitalized, hsettled, List.singleton_append]

/-- What is written behind a word does not change its capital. -/
theorem capitalized_append (hword : word ≠ []) (rest : List Char) :
    capitalized (word ++ rest) = capitalized word ++ rest := by
  obtain ⟨c, cs, rfl⟩ := List.exists_cons_of_ne_nil hword
  rw [List.cons_append, capitalized, capitalized, List.append_assoc]

/-- The capital of a text is that of its first word that is not empty, which has it already. -/
theorem capitalized_flatMap (names : List (List Char)) :
    capitalized (names.flatMap capitalized) = names.flatMap capitalized := by
  induction names with
  | nil => rfl
  | cons first others ih =>
    rw [List.flatMap_cons]
    by_cases hfirst : first = []
    · -- an empty word leaves the capital to the next one
      rw [hfirst, capitalized, List.nil_append, ih]
    · rw [capitalized_append (mt capitalized_eq_nil_iff.mp hfirst), capitalized_capitalized]

/-- A capital brings no sign into a word. -/
theorem mem_of_mem_capitalized (hascii : sign.toNat < 128) (hsign : sign.isUpper = false)
    (h : sign ∈ capitalized word) : sign ∈ word := by
  cases word with
  | nil => exact h
  | cons c cs =>
    rcases List.mem_append.mp h with hfirst | hrest
    · rw [eq_of_mem_upperChar hascii hsign hfirst]
      exact List.mem_cons_self
    · exact List.mem_cons_of_mem c hrest

/-! ## Converted names -/

/-- The two conversions of a name differ in the first word, and in nothing else. -/
theorem conversions_eq (name : List Char) : ∃ first others, words name = first :: others ∧
    camelCase name = first ++ others.flatMap capitalized ∧
    pascalCase name = capitalized first ++ others.flatMap capitalized := by
  obtain ⟨first, others, hwords⟩ := List.exists_cons_of_ne_nil (segments_ne_nil wordSeparator name)
  refine ⟨first, others, hwords, ?_, ?_⟩
  · rw [camelCase, words, hwords]
  · rw [pascalCase, words, hwords, List.flatMap_cons]

/-- The signs of a converted name are those of its words. -/
theorem exists_word_of_mem_pascalCase (hascii : sign.toNat < 128) (hsign : sign.isUpper = false)
    (h : sign ∈ pascalCase name) : ∃ word ∈ words name, sign ∈ word := by
  obtain ⟨word, hword, hmem⟩ := List.mem_flatMap.mp h
  exact ⟨word, hword, mem_of_mem_capitalized hascii hsign hmem⟩

theorem exists_word_of_mem_camelCase (hascii : sign.toNat < 128) (hsign : sign.isUpper = false)
    (h : sign ∈ camelCase name) : ∃ word ∈ words name, sign ∈ word := by
  obtain ⟨first, others, hwords, hcamel, -⟩ := conversions_eq name
  rw [hcamel] at h
  rw [hwords]
  rcases List.mem_append.mp h with hfirst | hothers
  · exact ⟨first, List.mem_cons_self, hfirst⟩
  · obtain ⟨word, hword, hmem⟩ := List.mem_flatMap.mp hothers
    exact ⟨word, List.mem_cons_of_mem first hword, mem_of_mem_capitalized hascii hsign hmem⟩

theorem separator_not_mem_pascalCase (name : List Char) : wordSeparator ∉ pascalCase name := by
  intro h
  obtain ⟨word, hword, hmem⟩ := exists_word_of_mem_pascalCase (by decide) (by decide) h
  exact not_mem_of_mem_segments hword hmem

theorem separator_not_mem_camelCase (name : List Char) : wordSeparator ∉ camelCase name := by
  intro h
  obtain ⟨word, hword, hmem⟩ := exists_word_of_mem_camelCase (by decide) (by decide) h
  exact not_mem_of_mem_segments hword hmem

theorem pascalCase_pascalCase (name : List Char) :
    pascalCase (pascalCase name) = pascalCase name := by
  rw [pascalCase_eq_capitalized (separator_not_mem_pascalCase name)]
  exact capitalized_flatMap (words name)

/-- With the first word kept as it is, its capital is still to come. -/
theorem pascalCase_camelCase (name : List Char) :
    pascalCase (camelCase name) = pascalCase name := by
  rw [pascalCase_eq_capitalized (separator_not_mem_camelCase name)]
  obtain ⟨first, others, -, hcamel, hpascal⟩ := conversions_eq name
  rw [hcamel, hpascal]
  by_cases hfirst : first = []
  · -- the name starts with a separator, and the words behind have their capitals
    rw [hfirst, capitalized, List.nil_append, capitalized_flatMap]
  · exact capitalized_append hfirst _

/-- A converted name is empty if there is nothing but separators in the name. -/
theorem camelCase_eq_nil_iff : camelCase name = [] ↔ ∀ c ∈ name, c = wordSeparator := by
  have hempty : camelCase name = [] ↔ ∀ word ∈ words name, word = [] := by
    obtain ⟨first, others, hwords, hcamel, -⟩ := conversions_eq name
    rw [hcamel, hwords, List.append_eq_nil_iff, List.flatMap_eq_nil_iff, List.forall_mem_cons]
    simp only [capitalized_eq_nil_iff]
  rw [hempty]
  constructor
  · intro hall c hc
    by_contra hother
    obtain ⟨word, hword, hmem⟩ := (exists_mem_segments hother).mpr hc
    rw [hall word hword] at hmem
    contradiction
  · intro hall word hword
    rw [List.eq_nil_iff_forall_not_mem]
    intro c hc
    have hseparator := hall c (mem_of_mem_segments hword hc)
    rw [hseparator] at hc
    exact not_mem_of_mem_segments hword hc

/-- A converted name has no separator left in it, and stays as it is when it is converted again. Only
the variable of a name can still become something else, the class of that name. -/
theorem converted_stable (name : String) :
    wordSeparator ∉ (className name).toList ∧ wordSeparator ∉ (variableName name).toList ∧
      className (className name) = className name ∧
      className (variableName name) = className name ∧
      variableName (className name) = className name ∧
      variableName (variableName name) = variableName name := by
  have hclass := separator_not_mem_pascalCase name.toList
  have hvariable := separator_not_mem_camelCase name.toList
  unfold className variableName
  simp only [String.toList_ofList, String.ofList_inj]
  refine ⟨hclass, hvariable, ?_, ?_, ?_, ?_⟩
  · exact pascalCase_pascalCase name.toList
  · exact pascalCase_camelCase name.toList
  · exact camelCase_eq_self hclass
  · exact camelCase_eq_self hvariable

/-- The first character may come from a later word, and be one of several that a letter becomes. -/
example : variableName "__ß_a" = "SSA" := by decide +kernel

end Bindery.Naming
