import Bindery.Naming

/-!
# Converting and joining

A name is converted word by word, and an underscore that is written out ends a word, whatever stands
on its two sides (`pascalCase_append_sep`, `camelCase_append_sep`). All that is said here of names
and their words follows from these two equations: joining names is converting the joined name, and
empty words count for nothing (`join_eq_convert`).

Converting and joining can also be put in terms of each other: a name of several words is converted
by joining its words, and names are joined by converting each of them. Calls are then nested, since
the names that are joined may have several words themselves. But words hold no underscore, so the
nesting ends after a few calls, however many words there are (`pascalCaseWithin_eq`,
`camelCaseWithin_eq`).
-/

namespace Bindery.Naming

open Bindery.Text

/-! ## Names with a separator -/

/-- A name has a first word, and its words make it up. -/
private theorem exists_first_word (name : List Char) :
    ∃ first rest, words name = first :: rest ∧ joined wordSeparator (first :: rest) = name := by
  obtain ⟨first, rest, hwords⟩ := List.exists_cons_of_ne_nil (segments_ne_nil wordSeparator name)
  exact ⟨first, rest, hwords, hwords ▸ joined_segments wordSeparator name⟩

/-- A separator that is written out ends a word. -/
theorem pascalCase_append_sep (a b : List Char) :
    pascalCase (a ++ wordSeparator :: b) = pascalCase a ++ pascalCase b := by
  rw [pascalCase, words, segments_append_sep, List.flatMap_append]
  rfl

theorem camelCase_append_sep (a b : List Char) :
    camelCase (a ++ wordSeparator :: b) = camelCase a ++ pascalCase b := by
  obtain ⟨first, rest, hwords, -⟩ := exists_first_word a
  rw [words] at hwords
  rw [camelCase, camelCase, pascalCase, words, words, words, segments_append_sep, hwords]
  show first ++ (rest ++ segments wordSeparator b).flatMap capitalized = _
  rw [List.flatMap_append, List.append_assoc]

@[simp] theorem pascalCase_nil : pascalCase [] = [] := rfl

/-- The names of a list, converted one by one, are the joined name converted. -/
theorem pascalCase_joined (first : List Char) (rest : List (List Char)) :
    pascalCase (joined wordSeparator (first :: rest)) = (first :: rest).flatMap pascalCase := by
  -- the second name is the first of what is left, so the first is left open
  induction rest generalizing first with
  | nil => rw [joined, List.flatMap_singleton]
  | cons next rest ih => rw [joined, pascalCase_append_sep, ih, ← List.flatMap_cons]

theorem camelCase_joined (first : List Char) (rest : List (List Char)) :
    camelCase (joined wordSeparator (first :: rest)) =
      camelCase first ++ rest.flatMap pascalCase := by
  cases rest with
  | nil => rw [joined, List.flatMap_nil, List.append_nil]
  | cons next rest => rw [joined, camelCase_append_sep, pascalCase_joined]

/-- Empty words count for nothing. -/
theorem flatMap_capitalized_filter (names : List (List Char)) :
    (names.filter (· ≠ [])).flatMap capitalized = names.flatMap capitalized := by
  induction names with
  | nil => rfl
  | cons name rest ih =>
    by_cases hname : name = []
    · have hempty : capitalized name = [] := by rw [hname, capitalized]
      rw [List.filter_cons_of_neg (by simpa using hname), ih, List.flatMap_cons, hempty,
        List.nil_append]
    · rw [List.filter_cons_of_pos (by simpa using hname), List.flatMap_cons, ih, List.flatMap_cons]

/-! ## Nested calls -/

mutual

/-- A name with every word capitalised, by calls that are nested no deeper than `depth`: one word is
capitalised, and several are joined. There is nothing if calls would have to be nested deeper. -/
def pascalCaseWithin : Nat → List Char → ExceptT JoinError Option (List Char)
  | 0, _ => none
  | depth + 1, name =>
    match words name with
    | [word] => pure (capitalized word)
    | names => pascalJoinWithin depth names

/-- The names of a list in one, each of them converted. -/
def pascalJoinWithin : Nat → List (List Char) → ExceptT JoinError Option (List Char)
  | 0, _ => none
  | _ + 1, [] => throw .noWords
  | depth + 1, names => List.flatten <$> names.mapM (pascalCaseWithin depth)

end

mutual

/-- A name with every word but the first capitalised, by calls that are nested no deeper than
`depth`: one word is kept, and several are joined. -/
def camelCaseWithin : Nat → List Char → ExceptT JoinError Option (List Char)
  | 0, _ => none
  | depth + 1, name =>
    match words name with
    | [word] => pure word
    | names => camelJoinWithin depth names

/-- The names of a list in one, the first of them converted with its first word kept. -/
def camelJoinWithin : Nat → List (List Char) → ExceptT JoinError Option (List Char)
  | 0, _ => none
  | _ + 1, [] => throw .noWords
  | depth + 1, [name] => camelCaseWithin depth name
  | depth + 1, first :: rest => do
    let converted ← camelCaseWithin depth first
    let others ← pascalJoinWithin depth rest
    return converted ++ others

end

private theorem mapM_eq_pure {f : List Char → ExceptT JoinError Option (List Char)}
    {g : List Char → List Char} {names : List (List Char)}
    (h : ∀ name ∈ names, f name = pure (g name)) : names.mapM f = pure (names.map g) := by
  induction names with
  | nil => rfl
  | cons name rest ih =>
    obtain ⟨hname, hrest⟩ := List.forall_mem_cons.mp h
    rw [List.mapM_cons, hname, ih hrest]
    rfl

section

variable (depth : Nat)

/-- One word is converted by one call. -/
theorem pascalCaseWithin_word {name : List Char} (h : wordSeparator ∉ name) :
    pascalCaseWithin (depth + 1) name = some (.ok (pascalCase name)) := by
  rw [pascalCaseWithin, words, segments_of_not_mem h, pascalCase_eq_capitalized h]
  rfl

theorem camelCaseWithin_word {name : List Char} (h : wordSeparator ∉ name) :
    camelCaseWithin (depth + 1) name = some (.ok (camelCase name)) := by
  rw [camelCaseWithin, words, segments_of_not_mem h, camelCase_eq_self h]
  rfl

/-- Joining takes one call more than converting the names. -/
theorem pascalJoinWithin_of {names : List (List Char)}
    (h : ∀ name ∈ names, pascalCaseWithin depth name = some (.ok (pascalCase name))) :
    pascalJoinWithin (depth + 1) names = some (pascalJoin names) := by
  cases names with
  | nil => rfl
  | cons first rest =>
    show List.flatten <$> (first :: rest).mapM (pascalCaseWithin depth) = _
    rw [mapM_eq_pure h]
    rfl

theorem camelJoinWithin_of {first : List Char} {rest : List (List Char)}
    (hfirst : camelCaseWithin depth first = some (.ok (camelCase first)))
    (hrest : pascalJoinWithin depth rest = some (pascalJoin rest)) :
    camelJoinWithin (depth + 1) (first :: rest) = some (camelJoin (first :: rest)) := by
  cases rest with
  | nil =>
    rw [camelJoinWithin, hfirst, camelJoin, List.flatMap_nil, List.append_nil]
  | cons next rest =>
    rw [camelJoinWithin, hfirst, hrest]
    · rfl
    · simp

/-- The words of a name, joined, are the name converted. -/
theorem pascalJoin_words (name : List Char) : pascalJoin (words name) = .ok (pascalCase name) := by
  obtain ⟨first, rest, hwords, hname⟩ := exists_first_word name
  rw [hwords, pascalJoin, ← pascalCase_joined, hname]
  simp

theorem camelJoin_words (name : List Char) : camelJoin (words name) = .ok (camelCase name) := by
  obtain ⟨first, rest, hwords, hname⟩ := exists_first_word name
  rw [hwords, camelJoin, ← camelCase_joined, hname]

/-- A name with a single word is that word. -/
private theorem separator_not_mem_of_words {name word : List Char} (h : words name = [word]) :
    wordSeparator ∉ name := by
  have hname : name = word := by
    rw [← joined_segments wordSeparator name, ← words, h, joined]
  rw [hname]
  exact not_mem_of_mem_segments (h ▸ List.mem_singleton_self word)

/-- Three nested calls convert any name: its words are joined, and each of them is converted by one
call, since there is no separator left in it. -/
theorem pascalCaseWithin_eq (name : List Char) :
    pascalCaseWithin (depth + 3) name = some (.ok (pascalCase name)) := by
  rw [pascalCaseWithin]
  split
  · next word hwords =>
    have hfree := separator_not_mem_of_words hwords
    have hword := pascalCaseWithin_word 0 hfree
    rwa [pascalCaseWithin, hwords] at hword
  · -- several words are joined by one call, and each of them is converted by another
    have hfree : ∀ word ∈ words name, wordSeparator ∉ word := fun word => not_mem_of_mem_segments
    have hwords : ∀ word ∈ words name,
        pascalCaseWithin (depth + 1) word = some (.ok (pascalCase word)) :=
      fun word hword => pascalCaseWithin_word depth (hfree word hword)
    rw [pascalJoinWithin_of (depth + 1) hwords, pascalJoin_words]

/-- One call more is needed with the first word kept, which joins the words behind it by
themselves. -/
theorem camelCaseWithin_eq (name : List Char) :
    camelCaseWithin (depth + 4) name = some (.ok (camelCase name)) := by
  rw [camelCaseWithin]
  split
  · next word hwords =>
    have hfree := separator_not_mem_of_words hwords
    have hword := camelCaseWithin_word 0 hfree
    rwa [camelCaseWithin, hwords] at hword
  · have hfree : ∀ word ∈ words name, wordSeparator ∉ word := fun word => not_mem_of_mem_segments
    rw [← camelJoin_words]
    obtain ⟨first, rest, hwords, -⟩ := exists_first_word name
    rw [hwords] at hfree ⊢
    obtain ⟨hfirst, hrest⟩ := List.forall_mem_cons.mp hfree
    apply camelJoinWithin_of
    · exact camelCaseWithin_word (depth + 1) hfirst
    · exact pascalJoinWithin_of (depth + 1) fun word hword =>
        pascalCaseWithin_word depth (hrest word hword)

end

/-- Converting and joining are one function. Both come to an end by calls that are nested no deeper
than five times, for all names and all lists of names, with separators in them or not; a text counts
as the list of its characters here. What comes of them ties the one to the other: names that are
joined are the joined name converted. So a name is converted on the two sides of each underscore by
itself, empty words count for nothing, and an underscore next to another one, in front or at the end
changes nothing. -/
theorem join_eq_convert (depth : Nat) :
    ((∀ name, pascalCaseWithin (depth + 3) name = some (.ok (pascalCase name))) ∧
      (∀ names, pascalJoinWithin (depth + 4) names = some (pascalJoin names)) ∧
      (∀ name, camelCaseWithin (depth + 4) name = some (.ok (camelCase name))) ∧
      ∀ names, camelJoinWithin (depth + 5) names = some (camelJoin names)) ∧
    (∀ first rest,
      pascalJoin (first :: rest) = .ok (pascalCase (joined wordSeparator (first :: rest))) ∧
      camelJoin (first :: rest) = .ok (camelCase (joined wordSeparator (first :: rest)))) ∧
    (∀ a b, pascalCase (a ++ wordSeparator :: b) = pascalCase a ++ pascalCase b ∧
      camelCase (a ++ wordSeparator :: b) = camelCase a ++ pascalCase b) ∧
    (∀ name, pascalCase name = ((words name).filter (· ≠ [])).flatMap capitalized) ∧
    ∀ a b,
      pascalCase (a ++ wordSeparator :: wordSeparator :: b) = pascalCase (a ++ wordSeparator :: b) ∧
      pascalCase (wordSeparator :: b) = pascalCase b ∧
      pascalCase (a ++ [wordSeparator]) = pascalCase a := by
  have hfront : ∀ b, pascalCase (wordSeparator :: b) = pascalCase b := by
    intro b
    have happend := pascalCase_append_sep [] b
    rwa [pascalCase_nil, List.nil_append, List.nil_append] at happend
  refine ⟨⟨pascalCaseWithin_eq depth, ?_, camelCaseWithin_eq depth, ?_⟩, ?_, ?_, ?_, ?_⟩
  · intro names
    exact pascalJoinWithin_of (depth + 3) fun name _ => pascalCaseWithin_eq depth name
  · intro names
    match names with
    | [] => rfl
    | first :: rest =>
      -- the first name takes the deepest calls: its words may have to be joined in turn
      apply camelJoinWithin_of
      · exact camelCaseWithin_eq depth first
      · exact pascalJoinWithin_of (depth + 3) fun name _ => pascalCaseWithin_eq depth name
  · intro first rest
    rw [pascalCase_joined, camelCase_joined, pascalJoin, camelJoin]
    · exact ⟨rfl, rfl⟩
    · simp
  · exact fun a b => ⟨pascalCase_append_sep a b, camelCase_append_sep a b⟩
  · intro name
    rw [flatMap_capitalized_filter, pascalCase]
  · intro a b
    refine ⟨?_, hfront b, ?_⟩
    · rw [pascalCase_append_sep, pascalCase_append_sep, hfront]
    · rw [pascalCase_append_sep, pascalCase_nil, List.append_nil]

/-- The characters of a text joined as words of their own, the underscore being two empty words. -/
example : pascalJoin ("ab_c".toList.map fun c => [c]) = .ok "ABC".toList := by
  rfl

end Bindery.Naming
