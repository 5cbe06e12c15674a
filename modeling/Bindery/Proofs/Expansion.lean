import Bindery.Config.Load
import Bindery.Proofs.Layers
import Bindery.Proofs.References

/-!
# What expansion does

A text is made up in exactly one way of references and of characters at which none starts, and
expansion replaces each of these references by what it stands for. What is put in is not looked at
again. In a value this is done to the texts, wherever lists and mappings lead to one, and everything
else stays as it is (`references_replaced`).

So expansion neither makes mappings nor takes them apart, and it leaves keys alone. These two are
all that merging looks at, and so layers may be expanded before they are merged or after
(`expandEntries_merge`).
-/

namespace Bindery.Config

/-! ## The pieces of a text -/

/-- Pieces that make up a text: every reference in them has a name, and at no character that is kept
does the text start a reference. The characters that stand between two references are the ones kept
between them. -/
structure Splits (text : List Char) (pieces : List Piece) : Prop where
  whole : pieces.flatMap Piece.written = text
  named : ∀ name, .reference name ∈ pieces → name ≠ [] ∧ '\x7d' ∉ name
  plain : ∀ before c after, pieces = before ++ .kept c :: after →
    ¬ StartsReference (c :: after.flatMap Piece.written)

theorem Cut.splits {text : List Char} {pieces : List Piece} (h : Cut text pieces) :
    Splits text pieces := by
  induction h with
  | nil => exact ⟨rfl, by simp, by simp⟩
  | @reference name rest pieces hne hfree hrest ih =>
    refine ⟨(Cut.reference hne hfree hrest).written_eq, ?_, ?_⟩
    · intro other hother
      rcases List.mem_cons.mp hother with hsame | hlater
      · rw [Piece.reference.inj hsame]
        exact ⟨hne, hfree⟩
      · exact ih.named other hlater
    · intro before c after hpieces
      cases before with
      | nil => exact absurd (List.cons.inj hpieces).1 (by simp)
      | cons first before => exact ih.plain before c after (List.cons.inj hpieces).2
  | @kept c rest pieces hplain hrest ih =>
    refine ⟨(Cut.kept hplain hrest).written_eq, ?_, ?_⟩
    · intro name hname
      have hlater : .reference name ∈ pieces := by simpa using hname
      exact ih.named name hlater
    · intro before d after hpieces
      cases before with
      | nil =>
        obtain ⟨hsame, rfl⟩ := List.cons.inj hpieces
        rwa [← Piece.kept.inj hsame, ih.whole]
      | cons first before => exact ih.plain before d after (List.cons.inj hpieces).2

theorem Splits.cut {text : List Char} {pieces : List Piece} (h : Splits text pieces) :
    Cut text pieces := by
  induction pieces generalizing text with
  | nil =>
    rw [← h.whole]
    exact .nil
  | cons piece rest ih =>
    -- what is behind the first piece splits into the others
    have hrest : Cut (rest.flatMap Piece.written) rest := by
      refine ih ⟨rfl, fun name hname => h.named name (List.mem_cons_of_mem piece hname), ?_⟩
      rintro before c after rfl
      exact h.plain (piece :: before) c after rfl
    rw [← h.whole, List.flatMap_cons]
    cases piece with
    | kept c => exact .kept (h.plain [] c rest rfl) hrest
    | reference name =>
      obtain ⟨hne, hfree⟩ := h.named name List.mem_cons_self
      have hcut := Cut.reference hne hfree hrest
      rwa [Piece.written, List.cons_append, List.cons_append, List.append_assoc,
        List.singleton_append]

/-- A name ends at the first closing brace. -/
private theorem takeWhile_name {name : List Char} (hfree : '\x7d' ∉ name) (rest : List Char) :
    (name ++ '\x7d' :: rest).takeWhile (· ≠ '\x7d') = name := by
  have hall : ∀ c ∈ name, decide (c ≠ '\x7d') = true := by
    intro c hc
    apply decide_eq_true
    rintro rfl
    exact hfree hc
  rw [List.takeWhile_append_of_pos hall]
  simp

private theorem name_inj {name other rest behind : List Char} (hname : '\x7d' ∉ name)
    (hother : '\x7d' ∉ other) (h : name ++ '\x7d' :: rest = other ++ '\x7d' :: behind) :
    name = other ∧ rest = behind := by
  have hsame : name = other := by
    rw [← takeWhile_name hname rest, h, takeWhile_name hother]
  rw [hsame] at h
  exact ⟨hsame, (List.cons.inj (List.append_cancel_left h)).2⟩

/-- A text is cut in one way only. -/
theorem Cut.unique {text : List Char} {pieces others : List Piece} (h : Cut text pieces)
    (hothers : Cut text others) : others = pieces := by
  induction h generalizing others with
  | nil =>
    cases hothers
    rfl
  | @reference name rest pieces hne hfree hrest ih =>
    -- the other cut starts with the same piece, for a reference starts here or does not
    generalize htext : '$' :: '\x7b' :: (name ++ '\x7d' :: rest) = text at hothers
    cases hothers with
    | nil => contradiction
    | @reference other behind later hne' hfree' hbehind =>
      have hnames := (List.cons.inj (List.cons.inj htext).2).2
      obtain ⟨rfl, rfl⟩ := name_inj hfree hfree' hnames
      rw [ih hbehind]
    | kept hplain hbehind => exact absurd ⟨name, rest, htext.symm, hne, hfree⟩ hplain
  | @kept c rest pieces hplain hrest ih =>
    generalize htext : c :: rest = text at hothers
    cases hothers with
    | nil => contradiction
    | @reference other behind later hne' hfree' hbehind =>
      exact absurd ⟨other, behind, htext, hne', hfree'⟩ hplain
    | kept hplain' hbehind =>
      obtain ⟨rfl, rfl⟩ := List.cons.inj htext
      rw [ih hbehind]

/-! ## The places in a value -/

/-- What a value is apart from the values in it: a list has its length, a mapping its keys in their
order, and anything else is what it is. -/
inductive Shape where
  | list (length : Nat)
  | mapping (keys : List Key)
  | other (v : Value)

/-- The shape of a value. -/
def shape : Value → Shape
  | .list items => .list items.length
  | .mapping entries => .mapping (entries.map Prod.fst)
  | v => .other v

/-- The values in a list or in a mapping, in their order. -/
def inside : Value → List Value
  | .list items => items
  | .mapping entries => entries.map Prod.snd
  | _ => []

/-- The value to which a path leads, which takes one of the values inside at each step. -/
def within? : List Nat → Value → Option Value
  | [], v => some v
  | place :: path, v => (inside v)[place]?.bind (within? path)

/-- What expansion makes of a shape: it expands a text, and leaves any other shape alone. -/
def Shape.expanded (env : Environment) : Shape → Shape
  | .other (.scalar (.text s)) => .other (.text (expandText env s))
  | s => s

theorem expandItems_eq_map (env : Environment) (items : List Value) :
    expandItems env items = items.map (expand env) := by
  induction items with
  | nil => rfl
  | cons v rest ih => rw [expandItems, List.map_cons, ih]

/-- The shape of an expanded value. -/
theorem shape_expand (env : Environment) (v : Value) :
    shape (expand env v) = (shape v).expanded env := by
  cases v with
  | scalar s =>
    cases s <;> rfl
  | list items =>
    rw [expand, shape, shape, expandItems_eq_map, List.length_map]
    rfl
  | mapping entries =>
    rw [expand, shape, shape, expandEntries_eq_map, List.map_map]
    rfl
  | tuple items => rfl
  | set items => rfl

/-- The values in an expanded value are expanded. -/
theorem inside_expand (env : Environment) (v : Value) :
    inside (expand env v) = (inside v).map (expand env) := by
  cases v with
  | scalar s =>
    cases s <;> rfl
  | list items =>
    rw [expand, inside, inside, expandItems_eq_map]
  | mapping entries =>
    rw [expand, inside, inside, expandEntries_eq_map, List.map_map, List.map_map]
    rfl
  | tuple items => rfl
  | set items => rfl

/-- A path leads through an expanded value as it led before. -/
theorem within?_expand (env : Environment) (path : List Nat) (v : Value) :
    within? path (expand env v) = (within? path v).map (expand env) := by
  induction path generalizing v with
  | nil => rfl
  | cons place path ih =>
    rw [within?, within?, inside_expand, List.getElem?_map]
    cases (inside v)[place]? with
    | none => rfl
    | some inner => exact ih inner

/-- Expansion is one pass over the texts of a value. A text is made up in exactly one way of
references and characters at which none starts, and each of its references is replaced by what the
environment has under the name, the characters being kept. In a value, each path leads to what it
led to before: a list of the same length, a mapping with the same keys in the same order, a text
that has been expanded, or anything else as it was. -/
theorem references_replaced (env : Environment) :
    (∀ text : String, ∃ pieces, (∀ others, Splits text.toList others ↔ others = pieces) ∧
      expandText env text = String.ofList (pieces.flatMap (Piece.value fun name =>
        ((env.get? (String.ofList name)).getD "").toList))) ∧
    ∀ v path, (within? path (expand env v)).map shape =
      ((within? path v).map shape).map (Shape.expanded env) := by
  constructor
  · intro text
    obtain ⟨pieces, hcut⟩ := exists_cut text.toList
    refine ⟨pieces, fun others => ⟨fun h => hcut.unique h.cut, fun h => h ▸ hcut.splits⟩, ?_⟩
    rw [expandText, hcut.expandFrom_eq]
    rfl
  · intro v path
    rw [within?_expand, Option.map_map, Option.map_map]
    congr 1
    funext w
    exact shape_expand env w

/-- What is put in makes no reference, neither by itself nor with what stands behind it. -/
example :
    expandText [("A", "$"), ("B", "x"), ("C", "$\x7bB\x7d")] "$\x7bA\x7d\x7bB\x7d $\x7bC\x7d" =
      "$\x7bB\x7d $\x7bB\x7d" := by decide +kernel

/-! ## Layers -/

section

variable (env : Environment)

/-- Expansion makes no mappings, and takes none apart. -/
theorem entries?_expand (v : Value) :
    (expand env v).entries? = v.entries?.map (expandEntries env) := by
  cases v with
  | scalar s => cases s <;> rfl
  | list items => rw [expand]; rfl
  | mapping entries => rw [expand]; rfl
  | tuple items => rfl
  | set items => rfl

/-- What is written is expanded in its place. -/
theorem expandEntries_put (key : Key) (value : Value) (entries : Mapping) :
    expandEntries env (entries.put key value) =
      (expandEntries env entries).put key (expand env value) := by
  induction entries with
  | nil => rfl
  | cons entry rest ih =>
    rw [Ledger.put, expandEntries, Ledger.put]
    by_cases hkey : entry.1 == key
    · rw [if_pos hkey, if_pos hkey, expandEntries]
    · rw [if_neg hkey, if_neg hkey, expandEntries, ih]

/-- Expansion goes through the merging of two layers if it goes through the laying of the values in
the upper one. -/
theorem expandEntries_merge_of {upper : Mapping}
    (hvalues : ∀ entry ∈ upper, ∀ below,
      expand env (overlay below entry.2) = overlay (expand env below) (expand env entry.2))
    (lower : Mapping) :
    expandEntries env (merge lower upper) =
      merge (expandEntries env lower) (expandEntries env upper) := by
  induction upper generalizing lower with
  | nil => rw [merge, expandEntries, merge]
  | cons entry rest ih =>
    obtain ⟨key, value⟩ := entry
    obtain ⟨hvalue, hrest⟩ := List.forall_mem_cons.mp hvalues
    -- the same is laid on in the first step, whether it is expanded then or before
    have hlaid : expand env (laidOver (lower.get? key) value) =
        laidOver ((expandEntries env lower).get? key) (expand env value) := by
      rw [get?_expandEntries]
      cases lower.get? key with
      | none => rfl
      | some below => exact hvalue below
    rw [merge_cons, ih hrest, expandEntries_put, hlaid, expandEntries, merge_cons]

/-- Expansion goes through the laying of one value over another. -/
theorem expand_overlay (below above : Value) :
    expand env (overlay below above) = overlay (expand env below) (expand env above) := by
  rw [overlay_eq, overlay_eq, entries?_expand, entries?_expand]
  cases hlower : below.entries? with
  | none => rfl
  | some lower =>
    cases hupper : above.entries? with
    | none => rfl
    | some upper =>
      -- the values that are laid on inside are smaller than the mapping that holds them
      have hmerge : expandEntries env (merge lower upper) =
          merge (expandEntries env lower) (expandEntries env upper) := by
        apply expandEntries_merge_of
        intro entry hentry inner
        exact expand_overlay inner entry.2
      simp only [Option.map_some, expand, hmerge]
termination_by sizeOf above
decreasing_by
  obtain rfl := Value.entries?_eq_some_iff.mp hupper
  have hentry := List.sizeOf_lt_of_mem hentry
  rw [Value.mapping.sizeOf_spec]
  obtain ⟨key, value⟩ := entry
  rw [Prod.mk.sizeOf_spec] at hentry
  show sizeOf value < _
  omega

end

/-- Expansion goes through the merging of layers, for the entries as they are and in their order. So
the settings of two layers are the same whether references are replaced in the merged layers or in
each of the two before. -/
theorem expandEntries_merge (env : Environment) (lower upper : Mapping) :
    expandEntries env (merge lower upper) =
        merge (expandEntries env lower) (expandEntries env upper) ∧
      settle env lower upper =
        Settings.ofMapping (merge (expandEntries env lower) (expandEntries env upper)) := by
  have hmerge : expandEntries env (merge lower upper) =
      merge (expandEntries env lower) (expandEntries env upper) :=
    expandEntries_merge_of env (fun entry _ below => expand_overlay env below entry.2) lower
  refine ⟨hmerge, ?_⟩
  rw [settle, hmerge]

end Bindery.Config
