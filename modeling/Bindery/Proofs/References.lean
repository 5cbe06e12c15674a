import Bindery.Config.Expansion
import Mathlib.Tactic

/-!
# References in a text

A text is cut into the references in it and the characters between them (`Cut`): what starts with a
reference is cut behind the reference, and anything else behind its first character. Every text can
be cut (`exists_cut`), and expansion replaces the pieces one by one (`Cut.expandFrom_eq`). So what a
text expands to depends on nothing but the variables that its references name (`expandText_congr`),
and the same holds of values, which are expanded in all the texts that they hold (`expand_congr`).
-/

namespace Bindery.Config

/-! ## Texts in pieces -/

/-- Whether a text starts with a reference. -/
def StartsReference (text : List Char) : Prop :=
  ∃ name rest, text = '$' :: '\x7b' :: (name ++ '\x7d' :: rest) ∧ name ≠ [] ∧ '\x7d' ∉ name

/-- A piece of a text: a character that stays, or a reference. -/
inductive Piece where
  | kept (c : Char)
  | reference (name : List Char)
  deriving DecidableEq, Repr

namespace Piece

/-- A piece as it stands in the text. -/
def written : Piece → List Char
  | kept c => [c]
  | reference name => '$' :: '\x7b' :: (name ++ ['\x7d'])

/-- What a piece is replaced by. -/
def value (lookup : List Char → List Char) : Piece → List Char
  | kept c => [c]
  | reference name => lookup name

end Piece

/-- A text and its pieces. References are found from the left, and what is in one starts no other. -/
inductive Cut : List Char → List Piece → Prop
  | nil : Cut [] []
  | reference {name rest : List Char} {pieces : List Piece} : name ≠ [] → '\x7d' ∉ name →
      Cut rest pieces →
      Cut ('$' :: '\x7b' :: (name ++ '\x7d' :: rest)) (.reference name :: pieces)
  | kept {c : Char} {rest : List Char} {pieces : List Piece} : ¬ StartsReference (c :: rest) →
      Cut rest pieces → Cut (c :: rest) (.kept c :: pieces)

/-- Every text can be cut. -/
theorem exists_cut (text : List Char) : ∃ pieces, Cut text pieces := by
  -- a reference is cut off as a whole, so the induction is on the length of what is left
  induction hlength : text.length using Nat.strong_induction_on generalizing text with
  | _ n ih =>
    by_cases hstarts : StartsReference text
    · obtain ⟨name, rest, rfl, hne, hfree⟩ := hstarts
      obtain ⟨pieces, hpieces⟩ := ih rest.length (by simp [← hlength]; omega) rest rfl
      exact ⟨_, .reference hne hfree hpieces⟩
    · cases text with
      | nil => exact ⟨[], .nil⟩
      | cons c rest =>
        obtain ⟨pieces, hpieces⟩ := ih rest.length (by simp [← hlength]) rest rfl
        exact ⟨_, .kept hstarts hpieces⟩

/-- The pieces of a text make it up. -/
theorem Cut.written_eq {text : List Char} {pieces : List Piece} (h : Cut text pieces) :
    pieces.flatMap Piece.written = text := by
  induction h with
  | nil => rfl
  | reference _ _ _ ih => simp [Piece.written, ih]
  | kept _ _ ih => simp [Piece.written, ih]

/-! ## Pieces and expansion -/

section

variable (lookup : List Char → List Char)

/-- A character that opens no reference stays. -/
theorem expandFrom_plain {c : Char} {rest : List Char}
    (h : c = '$' → ∀ cs, rest ≠ '\x7b' :: cs) :
    expandFrom lookup none (c :: rest) = c :: expandFrom lookup none rest := by
  rw [expandFrom]
  rintro cs rfl rfl
  exact h rfl cs rfl

/-- A character that does not end a name belongs to it. -/
theorem expandFrom_inside {c : Char} (h : c ≠ '\x7d') (read rest : List Char) :
    expandFrom lookup (some read) (c :: rest) = expandFrom lookup (some (c :: read)) rest := by
  cases read <;> simp [expandFrom, h]

/-- A name is read up to its end. -/
theorem expandFrom_name {name : List Char} (hfree : '\x7d' ∉ name) (read rest : List Char) :
    expandFrom lookup (some read) (name ++ rest) =
      expandFrom lookup (some (name.reverse ++ read)) rest := by
  induction name generalizing read with
  | nil => rfl
  | cons c name ih =>
    rw [List.mem_cons, not_or] at hfree
    rw [List.cons_append, expandFrom_inside lookup (Ne.symm hfree.1), ih hfree.2,
      List.reverse_cons, List.append_assoc, List.singleton_append]

/-- A reference is replaced. -/
theorem expandFrom_reference {name : List Char} (hne : name ≠ []) (hfree : '\x7d' ∉ name)
    (rest : List Char) :
    expandFrom lookup none ('$' :: '\x7b' :: (name ++ '\x7d' :: rest)) =
      lookup name ++ expandFrom lookup none rest := by
  rw [expandFrom, expandFrom_name lookup hfree, List.append_nil]
  obtain ⟨last, before, hname⟩ := List.exists_cons_of_ne_nil (mt List.reverse_eq_nil_iff.mp hne)
  rw [hname, expandFrom, ← hname, List.reverse_reverse]

/-- A reference without an end is none. -/
theorem expandFrom_unclosed {text : List Char} (hfree : '\x7d' ∉ text) (read : List Char) :
    expandFrom lookup (some read) text = '$' :: '\x7b' :: (read.reverse ++ text) := by
  have hname := expandFrom_name lookup hfree read []
  rw [List.append_nil] at hname
  rw [hname, expandFrom, List.reverse_append, List.reverse_reverse]

/-- Without a closing brace nothing is replaced. -/
theorem expandFrom_of_free {text : List Char} (hfree : '\x7d' ∉ text) :
    expandFrom lookup none text = text := by
  induction text with
  | nil => rfl
  | cons c rest ih =>
    rw [List.mem_cons, not_or] at hfree
    by_cases hopens : c = '$' → ∀ cs, rest ≠ '\x7b' :: cs
    · rw [expandFrom_plain lookup hopens, ih hfree.2]
    · -- a name is opened here, and read to the end of the text
      push Not at hopens
      obtain ⟨rfl, cs, rfl⟩ := hopens
      rw [List.mem_cons, not_or] at hfree
      rw [expandFrom, expandFrom_unclosed lookup hfree.2.2]
      rfl

/-- A character that starts no reference stays. -/
theorem expandFrom_kept {c : Char} {rest : List Char} (h : ¬ StartsReference (c :: rest)) :
    expandFrom lookup none (c :: rest) = c :: expandFrom lookup none rest := by
  by_cases hopens : c = '$' → ∀ cs, rest ≠ '\x7b' :: cs
  · exact expandFrom_plain lookup hopens
  push Not at hopens
  obtain ⟨rfl, cs, rfl⟩ := hopens
  have hstay : ∀ c cs, c ≠ '$' →
      expandFrom lookup none (c :: cs) = c :: expandFrom lookup none cs :=
    fun c cs hc => expandFrom_plain lookup fun hopen => absurd hopen hc
  by_cases hclosed : '\x7d' ∈ cs
  · -- what is closed without being a reference has no name
    obtain ⟨name, rest, rfl, hfree⟩ := List.eq_append_cons_of_mem hclosed
    have hname : name = [] := by
      by_contra hne
      exact h ⟨name, rest, rfl, hne, hfree⟩
    rw [hname, List.nil_append, hstay '\x7b' _ (by decide), hstay '\x7d' _ (by decide)]
    rfl
  · -- what is opened and not closed stays, with all that is behind it
    rw [expandFrom, expandFrom_unclosed lookup hclosed, hstay '\x7b' _ (by decide),
      expandFrom_of_free lookup hclosed]
    rfl

variable {lookup}

/-- A text is expanded piece by piece. -/
theorem Cut.expandFrom_eq {text : List Char} {pieces : List Piece} (h : Cut text pieces) :
    expandFrom lookup none text = pieces.flatMap (Piece.value lookup) := by
  induction h with
  | nil => rfl
  | reference hne hfree _ ih => rw [expandFrom_reference lookup hne hfree, ih]; rfl
  | kept hstarts _ ih => rw [expandFrom_kept lookup hstarts, ih]; rfl

end

/-! ## What an expansion depends on -/

/-- Whether a text refers to a name. -/
def RefersTo (text name : List Char) : Prop :=
  ∃ pieces, Cut text pieces ∧ .reference name ∈ pieces

/-- A reference stands in the text as it is written. -/
theorem RefersTo.written {text name : List Char} (h : RefersTo text name) :
    (Piece.reference name).written <:+: text := by
  obtain ⟨pieces, hcut, hmem⟩ := h
  obtain ⟨before, after, rfl⟩ := List.append_of_mem hmem
  rw [← hcut.written_eq, List.flatMap_append, List.flatMap_cons, ← List.append_assoc]
  exact List.infix_append _ _ _

section

variable {one other : Environment}

/-- A text expands alike where the variables that it refers to agree. -/
theorem expandText_congr {text : String}
    (h : ∀ name : String, RefersTo text.toList name.toList → one.get? name = other.get? name) :
    expandText one text = expandText other text := by
  obtain ⟨pieces, hcut⟩ := exists_cut text.toList
  unfold expandText
  rw [hcut.expandFrom_eq, hcut.expandFrom_eq]
  congr 1
  refine List.flatMap_congr fun piece hpiece => ?_
  cases piece with
  | kept c => rfl
  | reference name =>
    have hsame := h (String.ofList name) ⟨pieces, hcut, by rwa [String.toList_ofList]⟩
    rw [Piece.value, Piece.value, variableText, variableText, hsame]

/-- The texts that a value holds, at any depth of lists and mappings. -/
inductive Holds : Value → String → Prop
  | text (s : String) : Holds (.text s) s
  | item {items : List Value} {v : Value} {s : String} : v ∈ items → Holds v s →
      Holds (.list items) s
  | entry {entries : Mapping} {key : Key} {v : Value} {s : String} : (key, v) ∈ entries →
      Holds v s → Holds (.mapping entries) s

/-- Whether a text that a value holds refers to a variable. -/
def Mentions (v : Value) (name : String) : Prop :=
  ∃ text, Holds v text ∧ RefersTo text.toList name.toList

mutual
theorem expand_eq_of_texts : ∀ v : Value,
    (∀ text, Holds v text → expandText one text = expandText other text) →
    expand one v = expand other v
  | .scalar (.text s), h => by rw [expand, expand, h s (.text s)]
  | .list items, h => by
    rw [expand, expand, expandItems_eq_of_texts items]
    exact fun v hv text htext => h text (.item hv htext)
  | .mapping entries, h => by
    rw [expand, expand, expandEntries_eq_of_texts entries]
    exact fun key v hv text htext => h text (.entry hv htext)
  | .scalar .null, _ | .scalar (.bool _), _ | .scalar (.int _), _ | .scalar (.float _), _
  | .scalar (.bytes _), _ | .scalar (.date _), _ | .scalar (.moment _), _ | .tuple _, _
  | .set _, _ => by simp [expand]

theorem expandItems_eq_of_texts : ∀ items : List Value,
    (∀ v ∈ items, ∀ text, Holds v text → expandText one text = expandText other text) →
    expandItems one items = expandItems other items
  | [], _ => rfl
  | v :: rest, h => by
    rw [expandItems, expandItems, expand_eq_of_texts v (h v List.mem_cons_self),
      expandItems_eq_of_texts rest fun w hw => h w (List.mem_cons_of_mem v hw)]

theorem expandEntries_eq_of_texts : ∀ entries : List (Key × Value),
    (∀ key v, (key, v) ∈ entries → ∀ text, Holds v text →
      expandText one text = expandText other text) →
    expandEntries one entries = expandEntries other entries
  | [], _ => rfl
  | (key, v) :: rest, h => by
    rw [expandEntries, expandEntries, expand_eq_of_texts v (h key v List.mem_cons_self),
      expandEntries_eq_of_texts rest fun k w hw => h k w (List.mem_cons_of_mem (key, v) hw)]
end

/-- A value expands alike where the variables that it mentions agree. -/
theorem expand_congr {v : Value}
    (h : ∀ name, Mentions v name → one.get? name = other.get? name) :
    expand one v = expand other v :=
  expand_eq_of_texts v fun text htext =>
    expandText_congr fun name hname => h name ⟨text, htext, hname⟩

end

end Bindery.Config
