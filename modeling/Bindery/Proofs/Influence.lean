import Bindery.Proofs.Loading
import Bindery.Proofs.References

/-!
# What of the environment has an influence

Loading looks at the environment three times: for the path of the file, for the settings given in it,
and for the variables that the layers refer to. The first two are about variables with the program's
mark (`marked`), and the third about those that a text in the layers mentions, before anything has
been put into it. So all other variables, and their places among the marked ones, are irrelevant to
loading (`load_congr`).
-/

namespace Bindery.Config

variable (mark : String) (env : Environment)

/-- Whether a variable has the program's mark. -/
def hasMark (name : String) : Bool := (markText mark).isPrefixOf name.toList

/-- The variables with the program's mark, in their order. -/
def marked : Environment := env.filter fun entry => hasMark mark entry.1

variable {mark}

theorem get?_marked {name : String} (h : hasMark mark name = true) :
    (marked mark env).get? name = env.get? name := by
  unfold marked
  induction env with
  | nil => rfl
  | cons entry rest ih =>
    -- a variable of another name is passed over, whether it is marked or not
    by_cases hname : entry.1 = name
    · rw [List.filter_cons_of_pos (by rwa [hname]), Ledger.get?, Ledger.get?]
      simp [hname]
    · have hskip : Ledger.get? name (entry :: rest) = Ledger.get? name rest := by
        simp [Ledger.get?, hname]
      rw [hskip, List.filter_cons]
      split
      · simp [Ledger.get?, hname, ih]
      · exact ih

variable (mark)

/-- The path of the file is chosen by a marked variable. -/
theorem choosePath_marked (asked : Option String) :
    choosePath asked mark (marked mark env) = choosePath asked mark env := by
  have hpath : hasMark mark (String.ofList (markText mark ++ pathVariable.toList)) = true := by
    rw [hasMark, String.toList_ofList, List.isPrefixOf_iff_prefix]
    exact List.prefix_append _ _
  unfold choosePath
  rw [get?_marked env hpath]

/-- A variable without the mark gives nothing, and is not noted. -/
theorem behindMark?_of_unmarked {name : String} (h : hasMark mark name = false) :
    behindMark? mark name = none := by
  rw [← Option.not_isSome_iff_eq_none, Option.isSome_iff_exists]
  rintro ⟨rest, hrest⟩
  obtain ⟨hname, -, -⟩ := (behindMark?_eq_some_iff mark name rest).mp hrest
  rw [hasMark, hname, List.isPrefixOf_iff_prefix.mpr (List.prefix_append _ _)] at h
  contradiction

/-- What the variables say is said by the marked ones. -/
theorem readVariables_marked (m : Mapping) :
    readVariables mark (marked mark env) m = readVariables mark env m := by
  unfold marked
  induction env generalizing m with
  | nil => rfl
  | cons entry rest ih =>
    obtain ⟨name, value⟩ := entry
    cases hmark : hasMark mark name with
    | false =>
      rw [List.filter_cons, if_neg (by simp [hmark]), readVariables,
        behindMark?_of_unmarked mark hmark]
      exact ih m
    | true =>
      rw [List.filter_cons, if_pos hmark, readVariables, readVariables]
      simp only [ih]

theorem ofEnvironment_marked : ofEnvironment mark (marked mark env) = ofEnvironment mark env :=
  readVariables_marked mark env []

variable {mark env}

/-- The texts in a datum, ragged or not, where lists, mappings and the ways back are followed. -/
inductive Draft.Holds (parts : Yaml.Parts) : Yaml.Datum → List Yaml.Glyph → Prop
  | text (s : String) : Holds parts (.scalar (.text s)) (s.toList.map .char)
  | ragged (glyphs : List Yaml.Glyph) : Holds parts (.ragged glyphs) glyphs
  | item {items : List Yaml.Datum} {datum : Yaml.Datum} {glyphs : List Yaml.Glyph} :
    datum ∈ items → Holds parts datum glyphs → Holds parts (.list items) glyphs
  | entry {entries : Yaml.Fields} {label : Yaml.Label} {datum : Yaml.Datum}
      {glyphs : List Yaml.Glyph} :
    (label, datum) ∈ entries → Holds parts datum glyphs → Holds parts (.mapping entries) glyphs
  | back {number : Nat} {datum : Yaml.Datum} {glyphs : List Yaml.Glyph} :
    parts.get? number = some datum → Holds parts datum glyphs → Holds parts (.back number) glyphs

/-- Whether a variable is referred to where the references in a draft are replaced. -/
def Draft.Mentions (d : Draft) (name : String) : Prop :=
  match d.value? with
  | some m => Config.Mentions (.mapping m) name
  | none =>
    d.obstacle? = none ∧ ∃ glyphs, Holds d.parts (.mapping d.entries) glyphs ∧
      name.toList.map .char ∈ namesFrom none glyphs

/-- Layers are judged alike where the variables that they mention agree. -/
theorem judge_congr {one other : Environment} {draft : Draft}
    (h : ∀ name, draft.Mentions name → one.get? name = other.get? name) :
    judge one draft = judge other draft := by
  unfold Draft.Mentions at h
  unfold judge
  cases hvalue : draft.value? with
  | none => rfl
  | some m =>
    rw [hvalue] at h
    have hexpanded := expand_congr h
    rw [expand_mapping, expand_mapping] at hexpanded
    simp only [Value.mapping.inj hexpanded]

/-- Two environments have the same outcome, settings or failure, if they have the same marked
variables in the same order and agree on every variable that is mentioned in the layers of the file
and the environment: what other variables there are, and where they stand, has no influence. -/
theorem load_congr (find : String → FileTree.Finding) (asked : Option String) (mark : String)
    (one other : Environment) (hmarked : marked mark one = marked mark other)
    (hagree : ∀ draft, (layers find one asked mark).1 = .ok draft →
      ∀ name, draft.Mentions name → one.get? name = other.get? name) :
    load find one asked mark = load find other asked mark := by
  have hpath : choosePath asked mark one = choosePath asked mark other := by
    rw [← choosePath_marked, hmarked, choosePath_marked]
  have hgiven : ofEnvironment mark one = ofEnvironment mark other := by
    rw [← ofEnvironment_marked, hmarked, ofEnvironment_marked]
  have hlayers : layers find one asked mark = layers find other asked mark := by
    unfold layers
    simp only [hpath, hgiven]
  unfold load
  rw [← hlayers]
  rcases hdraft : layers find one asked mark with ⟨failure | draft, records⟩
  · rfl
  · -- the layers are the same by now, and are left to be judged
    simp only [judge_congr (hagree draft (congrArg Prod.fst hdraft))]

/-- The variable that is referred to is the same in both environments, and others are not. -/
theorem load_congr_sample :
    let one := [("HOME", "/root"), ("BINDGEN_OUTPUT_DIR", "$\x7bX\x7d/out"), ("X", "v")]
    let other := [("X", "v"), ("PATH", "/bin"), ("BINDGEN_OUTPUT_DIR", "$\x7bX\x7d/out")]
    (load (fun _ => .fault .missing) other none defaultMark).1 =
        .ok ⟨"Binding", "", "v/out", .warning⟩ ∧
      load (fun _ => .fault .missing) one none defaultMark =
        load (fun _ => .fault .missing) other none defaultMark := by
  intro one other
  have hload : (load (fun _ => .fault .missing) other none defaultMark).1.toOption =
      some ⟨"Binding", "", "v/out", .warning⟩ := by decide +kernel
  refine ⟨eq_ok_of_toOption hload,
    load_congr _ none defaultMark one other (by decide +kernel) ?_⟩
  intro draft hlayers name hmentions
  have hone : (layers (fun _ => .fault .missing) one none defaultMark).1 =
      .ok (Draft.empty.under [(.text "output_dir", .text "$\x7bX\x7d/out")]) := by rfl
  rw [← Except.ok.inj (hone.symm.trans hlayers)] at hmentions
  obtain ⟨text, hholds, hrefers⟩ := hmentions
  have htext : text = "$\x7bX\x7d/out" := by
    cases hholds with
    | entry hmem hin =>
      obtain ⟨-, rfl⟩ := Prod.mk.inj (List.mem_singleton.mp hmem)
      cases hin
      rfl
  subst htext
  have hletters : ∀ c ∈ name.toList, c ∈ "$\x7bX\x7d/out".toList :=
    fun c hc => hrefers.written.subset (by simp [Piece.written, hc])
  have hhome : "HOME" ≠ name := by
    rintro rfl
    exact absurd (hletters 'H' (by decide)) (by decide)
  have hpath : "PATH" ≠ name := by
    rintro rfl
    exact absurd (hletters 'P' (by decide)) (by decide)
  by_cases hsame : "X" = name
  · subst hsame
    decide
  · simp [one, other, Ledger.get?, hhome, hpath, hsame]

end Bindery.Config
