import Bindery.Proofs.LayoutRuns

/-!
# Reading camel case back

A name in snake case is made of words of small letters and digits, each starting with a letter, with
one underscore between two of them. In camel case the capitals alone show where the words start, and
that is enough to write the name again (`snakeCase_pascalCase`, `snakeCase_camelCase`). So different
names in snake case have different names in camel case, and the same holds of all that is made of
these (`snake_case_names`).
-/

namespace Bindery.Naming

open Bindery.Text

/-! ## Names in snake case -/

/-- Whether a text is a small letter and then small letters and digits. -/
def IsWord : List Char → Prop
  | [] => False
  | c :: cs => c.isLower = true ∧ ∀ d ∈ cs, d.isLower = true ∨ d.isDigit = true

instance : DecidablePred IsWord
  | [] => inferInstanceAs (Decidable False)
  | c :: cs => decidable_of_iff ((c.isLower && cs.all fun d => d.isLower || d.isDigit) = true)
      (by simp [IsWord])

/-- Whether a name is made of words with one underscore between two of them. -/
def IsSnakeCase (name : List Char) : Prop :=
  ∃ tokens, tokens ≠ [] ∧ (∀ token ∈ tokens, IsWord token) ∧ name = joined wordSeparator tokens

/-- A capital as the start of a word, and any other character as it is. -/
def unhumped (c : Char) : List Char :=
  if c.isUpper then [wordSeparator, c.toLower] else [c]

/-- A name in camel case with an underscore in front of each capital but the first character, and
small letters in place of capitals. -/
def snakeCase : List Char → List Char
  | [] => []
  | c :: cs => c.toLower :: cs.flatMap unhumped

/-! ## Letters -/

theorem toNat_lt_of_isLower {c : Char} (h : c.isLower = true) : c.toNat < 128 := by
  have hlast : c.val ≤ 'z'.val := of_decide_eq_true (Bool.and_eq_true_iff.1 h).2
  exact Nat.lt_of_le_of_lt (UInt32.le_iff_toNat_le.1 hlast) (by decide)

theorem toNat_lt_of_isDigit {c : Char} (h : c.isDigit = true) : c.toNat < 128 := by
  have hlast : c.val ≤ '9'.val := of_decide_eq_true (Bool.and_eq_true_iff.1 h).2
  exact Nat.lt_of_le_of_lt (UInt32.le_iff_toNat_le.1 hlast) (by decide)

/-- What holds of the code points of ASCII, which are few enough to be gone through, holds of its
characters. -/
theorem forall_ascii {P : Char → Prop} (h : ∀ code < 128, P (Char.ofNat code)) {c : Char}
    (hc : c.toNat < 128) : P c := by
  have hchar := h c.toNat hc
  rwa [Char.ofNat_toNat] at hchar

theorem upperChar_of_isLower {c : Char} (h : c.isLower = true) : upperChar c = [c.toUpper] :=
  forall_ascii (P := fun c => c.isLower = true → upperChar c = [c.toUpper]) (by decide +kernel)
    (toNat_lt_of_isLower h) h

/-- A small letter is the small letter of its capital. -/
theorem toLower_toUpper_of_isLower {c : Char} (h : c.isLower = true) :
    c.toUpper.isUpper = true ∧ c.toUpper.toLower = c ∧ c.toLower = c :=
  forall_ascii (P := fun c => c.isLower = true →
    c.toUpper.isUpper = true ∧ c.toUpper.toLower = c ∧ c.toLower = c) (by decide +kernel)
    (toNat_lt_of_isLower h) h

/-- Small letters and digits are no capitals. -/
theorem unhumped_of_word {c : Char} (h : c.isLower = true ∨ c.isDigit = true) : unhumped c = [c] :=
  forall_ascii (P := fun c => c.isLower = true ∨ c.isDigit = true → unhumped c = [c])
    (by decide +kernel) (h.elim toNat_lt_of_isLower toNat_lt_of_isDigit) h

theorem ne_separator_of_word {c : Char} (h : c.isLower = true ∨ c.isDigit = true) :
    c ≠ wordSeparator := by
  rintro rfl
  revert h
  decide

/-! ## Words in camel case -/

variable {token : List Char} {tokens : List (List Char)}

theorem separator_not_mem (h : IsWord token) : wordSeparator ∉ token := by
  match token with
  | c :: cs =>
    obtain ⟨hc, hcs⟩ := h
    rintro hmem
    rcases List.mem_cons.mp hmem with hfirst | hrest
    · exact ne_separator_of_word (.inl hc) hfirst.symm
    · exact ne_separator_of_word (hcs _ hrest) rfl

/-- The characters of a word are read back as they are. -/
theorem flatMap_unhumped {cs : List Char} (h : ∀ c ∈ cs, c.isLower = true ∨ c.isDigit = true) :
    cs.flatMap unhumped = cs := by
  induction cs with
  | nil => rfl
  | cons c cs ih =>
    obtain ⟨hc, hcs⟩ := List.forall_mem_cons.mp h
    rw [List.flatMap_cons, unhumped_of_word hc, ih hcs, List.singleton_append]

/-- A word with a capital is read back with an underscore in front. -/
theorem unhumped_capitalized (h : IsWord token) :
    (capitalized token).flatMap unhumped = wordSeparator :: token := by
  match token with
  | c :: cs =>
    obtain ⟨hc, hcs⟩ := h
    obtain ⟨hcapital, hsmall, -⟩ := toLower_toUpper_of_isLower hc
    rw [capitalized, upperChar_of_isLower hc, List.singleton_append, List.flatMap_cons, unhumped,
      if_pos hcapital, hsmall, flatMap_unhumped hcs]
    rfl

/-- The words behind the first are read back with the underscores in front of them. -/
theorem unhumped_flatMap_capitalized (h : ∀ token ∈ tokens, IsWord token) :
    (tokens.flatMap capitalized).flatMap unhumped = tokens.flatMap (wordSeparator :: ·) := by
  rw [List.flatMap_assoc]
  exact List.flatMap_congr fun token htoken => unhumped_capitalized (h token htoken)

/-- A joined text is its first piece, and then each other one behind a separator. -/
theorem joined_cons (sep : Char) (first : List Char) (rest : List (List Char)) :
    joined sep (first :: rest) = first ++ rest.flatMap (sep :: ·) := by
  induction rest generalizing first with
  | nil => simp [joined]
  | cons next rest ih => rw [joined, ih, List.flatMap_cons, List.cons_append]

/-- The words of a name in snake case. -/
theorem exists_words {name : List Char} (h : IsSnakeCase name) :
    ∃ first rest, words name = first :: rest ∧ IsWord first ∧ (∀ token ∈ rest, IsWord token) ∧
      name = first ++ rest.flatMap (wordSeparator :: ·) := by
  obtain ⟨tokens, hne, hwords, rfl⟩ := h
  have hsegments : words (joined wordSeparator tokens) = tokens :=
    segments_joined hne fun token htoken => separator_not_mem (hwords token htoken)
  match tokens with
  | first :: rest =>
    obtain ⟨hfirst, hrest⟩ := List.forall_mem_cons.mp hwords
    exact ⟨first, rest, hsegments, hfirst, hrest, joined_cons wordSeparator first rest⟩

theorem snakeCase_pascalCase {name : List Char} (h : IsSnakeCase name) :
    snakeCase (pascalCase name) = name := by
  obtain ⟨first, rest, hwords, hfirst, hrest, hname⟩ := exists_words h
  match first with
  | c :: cs =>
    obtain ⟨hc, hcs⟩ := hfirst
    -- every word starts with a capital, and the first one is read back without an underscore
    rw [pascalCase, hwords, List.flatMap_cons, capitalized, upperChar_of_isLower hc,
      List.singleton_append, List.cons_append, snakeCase, (toLower_toUpper_of_isLower hc).2.1,
      List.flatMap_append, flatMap_unhumped hcs, unhumped_flatMap_capitalized hrest, hname]
    rfl

theorem snakeCase_camelCase {name : List Char} (h : IsSnakeCase name) :
    snakeCase (camelCase name) = name := by
  obtain ⟨first, rest, hwords, hfirst, hrest, hname⟩ := exists_words h
  match first with
  | c :: cs =>
    obtain ⟨hc, hcs⟩ := hfirst
    rw [camelCase, hwords]
    -- the first word stays as it is, the others start with a capital
    show snakeCase (c :: (cs ++ rest.flatMap capitalized)) = name
    rw [snakeCase, (toLower_toUpper_of_isLower hc).2.2, List.flatMap_append, flatMap_unhumped hcs,
      unhumped_flatMap_capitalized hrest, hname]
    rfl

/-! ## Names on strings -/

/-- Different names in snake case have different classes. -/
theorem className_injOn {a b : String} (ha : IsSnakeCase a.toList) (hb : IsSnakeCase b.toList)
    (h : className a = className b) : a = b := by
  rw [className, className, String.ofList_inj] at h
  rw [← String.toList_inj, ← snakeCase_pascalCase ha, h, snakeCase_pascalCase hb]

theorem variableName_injOn {a b : String} (ha : IsSnakeCase a.toList) (hb : IsSnakeCase b.toList)
    (h : variableName a = variableName b) : a = b := by
  rw [variableName, variableName, String.ofList_inj] at h
  rw [← String.toList_inj, ← snakeCase_camelCase ha, h, snakeCase_camelCase hb]

open LayoutNames in
/-- A name in snake case can be read back from the names of its class and of its variable. So two
different ones have different classes and variables, and after any runs, their binding classes
differ too if they have the same suffix, by themselves and under any package. -/
theorem snake_case_names {a : String} (ha : IsSnakeCase a.toList) :
    snakeCase (className a).toList = a.toList ∧ snakeCase (variableName a).toList = a.toList ∧
      ∀ b : String, IsSnakeCase b.toList → a ≠ b →
        className a ≠ className b ∧ variableName a ≠ variableName b ∧
        ∀ start other uses others, suffixFor a start uses = suffixFor b other others →
          ((after (fresh start) uses).className a).1 ≠ ((after (fresh other) others).className b).1 ∧
          ∀ package, ((after (fresh start) uses).qualifiedName package a).1 ≠
            ((after (fresh other) others).qualifiedName package b).1 := by
  refine ⟨?_, ?_, fun b hb hne => ⟨fun h => hne (className_injOn ha hb h),
    fun h => hne (variableName_injOn ha hb h), ?_⟩⟩
  · rw [className, String.toList_ofList, snakeCase_pascalCase ha]
  · rw [variableName, String.toList_ofList, snakeCase_camelCase ha]
  · intro start other uses others hsuffix
    have hclasses : ((after (fresh start) uses).className a).1 ≠
        ((after (fresh other) others).className b).1 := by
      rw [className_after, className_after, hsuffix]
      intro h
      exact hne (className_injOn ha hb ((String.append_left_inj _).mp h))
    exact ⟨hclasses, fun package h => hclasses (qualify_injective h)⟩

/-- The binding classes of two layouts differ though the suffix was changed in between, since both
were asked for before. -/
theorem snake_case_names_sample :
    let uses : List LayoutNames.Use :=
      [.className "row2_item", .qualifiedName "app" "row_item", .setSuffix "View"]
    let names := LayoutNames.after (.fresh "Binding") uses
    snakeCase (className "row2_item").toList = "row2_item".toList ∧
      (names.className "row2_item").1 ≠ (names.className "row_item").1 := by
  intro uses names
  have hfirst : IsSnakeCase "row2_item".toList :=
    ⟨["row2".toList, "item".toList], by decide +kernel, by decide +kernel, by decide +kernel⟩
  have hsecond : IsSnakeCase "row_item".toList :=
    ⟨["row".toList, "item".toList], by decide +kernel, by decide +kernel, by decide +kernel⟩
  obtain ⟨hread, -, hdifferent⟩ := snake_case_names hfirst
  obtain ⟨-, -, hclasses⟩ := hdifferent "row_item" hsecond (by decide +kernel)
  exact ⟨hread, (hclasses "Binding" "Binding" uses uses (by decide +kernel)).1⟩

/-- A capital in a name is not told from the start of a word. -/
example : className "row_Item" = className "row_item" := by decide +kernel

end Bindery.Naming
