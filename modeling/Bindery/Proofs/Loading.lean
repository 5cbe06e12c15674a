import Bindery.Config.Load
import Bindery.Proofs.DocumentKeys
import Bindery.Proofs.Drafts
import Bindery.Proofs.Environment
import Bindery.Proofs.Layers
import Bindery.Proofs.SettingsForm

/-!
# What loading gives

Loading lays what the environment gives over what the file holds, expands the result and takes it
for settings. `load_meaning` follows each setting through these stages: what is given last to it in
the environment is what it is set to, then what the file says of it, then what it is unless
something else is given. There are settings exactly if the expanded layers are acceptable.

`load_contained_iff` says when loading can only fail as a failure of the configuration. Three things
can break it down besides: a file that turns out to be no text before its document fails, or that
has a scalar which is not what it is declared to be; a section that is given as a text before a
setting in it is given; and what is left of the file under the settings of the environment, if it
leads round in a circle or refers to what can be the name of no variable.
-/

namespace Bindery

/-- The address of a text in the environment. -/
def TextSetting.address : TextSetting → Address
  | classSuffix => .classSuffix
  | modulePackage => .modulePackage
  | outputDir => .outputDir

namespace Config

/-! ## The settings of two layers -/

@[simp] theorem expand_mapping (env : Environment) (entries : Mapping) :
    expand env (.mapping entries) = .mapping (expandEntries env entries) := by
  rw [expand]

/-- The level in a section on logging. -/
def levelOf : Value → Option Value
  | .mapping inner => Ledger.get? (.text "level") inner
  | _ => none

/-- The level that a mapping has in its section on logging. -/
def levelIn (m : Mapping) : Option Value :=
  (m.get? (.text "logging")).bind levelOf

theorem levelOf_expand (env : Environment) (v : Value) :
    levelOf (expand env v) = (levelOf v).map (expand env) := by
  cases v with
  | mapping entries =>
    rw [expand_mapping]
    exact get?_expandEntries env _ entries
  | scalar s => cases s <;> simp [expand, levelOf, Value.text]
  | list items => simp [expand, levelOf]
  | tuple items => simp [expand, levelOf]
  | set items => simp [expand, levelOf]

/-- A level that is given is in the section, whatever is below. -/
theorem levelOf_laidOver (below : Option Value) (s : String) :
    levelOf (laidOver below (.mapping [(.text "level", .text s)])) = some (.text s) := by
  have halone : levelOf (.mapping [(.text "level", .text s)]) = some (.text s) := rfl
  cases below with
  | none => exact halone
  | some below =>
    unfold laidOver overlay
    -- a mapping takes the level in, and everything else gives way
    cases below with
    | mapping base =>
      show (merge base [(.text "level", .text s)]).get? (.text "level") = _
      rw [merge_cons, laidOver_text, merge, get?_put_text, if_pos rfl]
    | scalar _ | tuple _ | list _ | set _ => exact halone

section

variable {gifts : List (Address × String)} {overrides : Mapping} (env : Environment)
  (file : Mapping)

/-- A text of the settled layers. -/
theorem get?_settled_text (h : Gathered gifts overrides) (f : TextSetting) :
    (expandEntries env (merge file overrides)).get? (.text f.name) =
      match lastOf f.address gifts with
      | some s => some (.text (expandText env s))
      | none => (file.get? (.text f.name)).map (expand env) := by
  have hgiven : overrides.get? (.text f.name) = (lastOf f.address gifts).map Value.text := by
    cases f <;> exact h.single _ _ rfl (by decide)
  rw [get?_expandEntries, get?_merge _ h.distinct, hgiven]
  cases lastOf f.address gifts with
  | none => rfl
  | some s => simp

/-- The section on logging of the settled layers is a text if it is given as one. -/
theorem get?_settled_logging (h : Gathered gifts overrides) {whole : String}
    (hwhole : lastOf .logging gifts = some whole) :
    (expandEntries env (merge file overrides)).get? (.text "logging") =
      some (.text (expandText env whole)) := by
  rw [get?_expandEntries, get?_merge _ h.distinct, h.logging, hwhole]
  simp [sectionGiven]

/-- The level of the settled layers: the one that is given, whatever the file has for a section, or
the one in the file. -/
theorem levelIn_settled (h : Gathered gifts overrides) (hwhole : lastOf .logging gifts = none) :
    levelIn (expandEntries env (merge file overrides)) =
      match lastOf .level gifts with
      | some s => some (.text (expandText env s))
      | none => (levelIn file).map (expand env) := by
  unfold levelIn
  rw [get?_expandEntries, get?_merge _ h.distinct, h.logging, hwhole]
  cases lastOf .level gifts with
  | some s =>
    show levelOf (expand env (laidOver _ (.mapping [(.text "level", .text s)]))) = _
    rw [levelOf_expand, levelOf_laidOver, Option.map_some, expand_text]
  | none =>
    show ((file.get? (.text "logging")).map (expand env)).bind levelOf = _
    cases file.get? (.text "logging") with
    | none => rfl
    | some v => exact levelOf_expand env v

end

/-! ## What the settings are -/

/-- The text that a value in the file sets: references in a text are replaced, and bytes are
decoded. -/
def fileText? (env : Environment) : Value → Option String
  | .scalar (.text s) => some (expandText env s)
  | .scalar (.bytes bs) => Text.decode? bs
  | _ => none

/-- What a text is set to by the environment, else by the file, else by itself. -/
def chosenText? (env : Environment) (given? : Option String) (inFile? : Option Value)
    (standard : String) : Option String :=
  match given?, inFile? with
  | some s, _ => some (expandText env s)
  | none, some v => fileText? env v
  | none, none => some standard

/-- What the level is set to by the environment, else by the file, else by itself. -/
def chosenLevel? (env : Environment) (given? : Option String) (inFile? : Option Value)
    (standard : Level) : Option Level :=
  match given?, inFile? with
  | some s, _ => Level.ofName? (expandText env s)
  | none, some v => Level.ofValue? (expand env v)
  | none, none => some standard

/-- A value in the file passes for a text if it sets one. -/
theorem fileText?_of_text_expand {env : Environment} {v : Value} {s : String}
    (h : Check.text (expand env v) = .ok s) : fileText? env v = some s := by
  rw [Check.text_eq_ok_iff] at h
  -- of what passes for a text, expansion changes only the texts themselves
  match v with
  | .scalar (.text t) =>
    have hexpanded : Value.text (expandText env t) = .text s := by
      rcases h with h | h
      · rwa [← expand_text]
      · simp [expand, Value.text] at h
    rw [fileText?]
    simpa [Value.text] using hexpanded
  | .scalar (.bytes bs) =>
    rw [fileText?, Text.decode?_eq_some_iff]
    simpa [expand, Value.text] using h
  | .scalar .null | .scalar (.bool _) | .scalar (.int _) | .scalar (.float _) | .scalar (.date _)
  | .scalar (.moment _) | .tuple _ | .list _ | .set _ | .mapping _ =>
    simp [expand, Value.text] at h

/-- What a finding yields: what is in the file, or nothing if nothing is there. -/
def Gives (path : String) (finding : FileTree.Finding) (draft : Draft) : Prop :=
  if finding.isFound then fileMapping path finding = .ok draft else draft = .empty

/-- What a finding yields, if it is a mapping of values. -/
def Yields (path : String) (finding : FileTree.Finding) (file : Mapping) : Prop :=
  ∃ draft, Gives path finding draft ∧ draft.value? = some file

theorem fileLayer_eq_ok_iff {path : String} {finding : FileTree.Finding} {draft : Draft} :
    (fileLayer path finding).1 = .ok draft ↔ Gives path finding draft := by
  unfold Gives fileLayer
  split_ifs
  · -- laid over nothing, what is in the file stays as it is
    show (fileMapping path finding).map Draft.overNothing = _ ↔ _
    cases hread : fileMapping path finding with
    | error fault => exact iff_of_false (fun h => by contradiction) (fun h => by contradiction)
    | ok found => rw [Except.map, overNothing_of_fileMapping hread]
  · exact ⟨fun h => (Except.ok.inj h).symm, fun h => congrArg Except.ok h.symm⟩

/-- What the layers are: both laid over each other, or the first failure. -/
theorem layers_outcome (find : String → FileTree.Finding) (env : Environment)
    (asked : Option String) (mark : String) :
    (layers find env asked mark).1 =
      match (fileLayer (choosePath asked mark env) (find (choosePath asked mark env))).1 with
      | .error fault => .error (.file fault)
      | .ok draft =>
        match (ofEnvironment mark env).1 with
        | .error _ => .error .clash
        | .ok overrides => .ok (draft.under overrides) := by
  unfold layers
  simp only
  rcases fileLayer (choosePath asked mark env) (find (choosePath asked mark env)) with
    ⟨fault | draft, records⟩
  · rfl
  · rcases ofEnvironment mark env with ⟨clash | overrides, noted⟩
    · rfl
    · rfl

/-- Loading ends with the failure of the layers, or with how they are judged. -/
theorem load_eq (find : String → FileTree.Finding) (env : Environment) (asked : Option String)
    (mark : String) :
    (load find env asked mark).1 = ((layers find env asked mark).1).bind (judge env) := by
  unfold load
  rcases layers find env asked mark with ⟨failure | draft, records⟩
  · rfl
  · rfl

/-- Layers that are values are expanded and checked. -/
theorem judge_of_value? (env : Environment) {draft : Draft} {m : Mapping}
    (h : draft.value? = some m) :
    judge env draft =
      (Settings.ofMapping (expandEntries env m)).mapError (.invalid (expandEntries env m)) := by
  unfold judge
  rw [Draft.obstacle?_of_value? h, h]

/-- Where the file and the environment both give a mapping of values, the two are settled. -/
theorem load_of_yields {find : String → FileTree.Finding} {env : Environment}
    {asked : Option String} {mark : String} {file overrides : Mapping}
    (hfile : Yields (choosePath asked mark env) (find (choosePath asked mark env)) file)
    (henv : (ofEnvironment mark env).1 = .ok overrides) :
    (load find env asked mark).1 =
      (settle env file overrides).mapError (.invalid (expandEntries env (merge file overrides))) := by
  obtain ⟨draft, hdraft, hvalue⟩ := hfile
  rw [load_eq, layers_outcome, fileLayer_eq_ok_iff.mpr hdraft, henv]
  exact judge_of_value? env (Draft.value?_under hvalue overrides)

section

variable {gifts : List (Address × String)} {overrides : Mapping} {env : Environment}
  {file : Mapping} {settings : Settings}

/-- A text is set by the last that is given to it, else by the file. -/
theorem chosenText?_of_settle (h : Gathered gifts overrides)
    (hok : settle env file overrides = .ok settings) (f : TextSetting) :
    chosenText? env (lastOf f.address gifts) (file.get? (.text f.name)) (f.of .standard) =
      some (f.of settings) := by
  obtain ⟨-, htexts, -⟩ := (Settings.ofMapping_eq_ok_iff _ settings).mp hok
  have htext := Check.optional_eq_ok_iff.mp (htexts f)
  rw [get?_settled_text env file h f] at htext
  unfold chosenText?
  cases hlast : lastOf f.address gifts with
  | some s =>
    rw [hlast] at htext
    exact congrArg some (Except.ok.inj htext)
  | none =>
    rw [hlast] at htext
    cases hfile : file.get? (.text f.name) with
    | none =>
      rw [hfile] at htext
      exact congrArg some htext
    | some v =>
      rw [hfile] at htext
      exact fileText?_of_text_expand htext

/-- The level that settings have is the one in their section on logging. -/
theorem level_of_ofMapping {m : Mapping} (hok : Settings.ofMapping m = .ok settings) :
    match levelIn m with
    | some asked => Level.ofValue? asked = some settings.level
    | none => Settings.standard.level = settings.level := by
  obtain ⟨-, -, hlogging⟩ := (Settings.ofMapping_eq_ok_iff m settings).mp hok
  rw [Check.optional_eq_ok_iff] at hlogging
  unfold levelIn
  cases hv : Ledger.get? (.text "logging") m with
  | none =>
    rw [hv] at hlogging
    exact hlogging
  | some v =>
    rw [hv] at hlogging
    obtain ⟨inner, rfl, -, hinner⟩ := (Settings.checkLogging_eq_ok_iff v _).mp hlogging
    exact hinner

/-- A section that is given as a text does not pass. -/
theorem lastOf_logging_of_settle (h : Gathered gifts overrides)
    (hok : settle env file overrides = .ok settings) : lastOf .logging gifts = none := by
  obtain ⟨-, -, hlogging⟩ := (Settings.ofMapping_eq_ok_iff _ settings).mp hok
  by_contra hne
  obtain ⟨whole, hwhole⟩ := Option.ne_none_iff_exists'.mp hne
  -- the text would stand in the settled layers, where a mapping must be
  rw [Check.optional_eq_ok_iff, get?_settled_logging env file h hwhole] at hlogging
  contradiction

/-- The level is set by the last that is given to it, else by the file. -/
theorem chosenLevel?_of_settle (h : Gathered gifts overrides)
    (hok : settle env file overrides = .ok settings) :
    chosenLevel? env (lastOf .level gifts) (levelIn file) Settings.standard.level =
      some settings.level := by
  have hlevel := level_of_ofMapping hok
  rw [levelIn_settled env file h (lastOf_logging_of_settle h hok)] at hlevel
  unfold chosenLevel?
  cases hlast : lastOf .level gifts with
  | some s =>
    rw [hlast] at hlevel
    exact hlevel
  | none =>
    rw [hlast] at hlevel
    cases hfile : levelIn file with
    | none =>
      rw [hfile] at hlevel
      exact congrArg some hlevel
    | some v =>
      rw [hfile] at hlevel
      exact hlevel

end

/-- What loading gives when the file yields a mapping and the environment gives one: settings
exactly if the two, laid over one another and expanded, are acceptable, and otherwise a failure of
the configuration. Each setting is what is given last to it in the environment, with its references
replaced, else what the file says, else what it is unless something else is given; this holds of the
level also if the file has no section for it. -/
theorem load_meaning (find : String → FileTree.Finding) (env : Environment)
    (asked : Option String) (mark : String) (file overrides : Mapping)
    (hfile : Yields (choosePath asked mark env) (find (choosePath asked mark env)) file)
    (henv : (ofEnvironment mark env).1 = .ok overrides) :
    let outcome := (load find env asked mark).1
    let settled := expandEntries env (merge file overrides)
    ((∃ settings, outcome = .ok settings) ↔ Acceptable settled) ∧
    (¬ Acceptable settled →
      ∃ failure, outcome = .error failure ∧ failure.kind? = some .configuration) ∧
    ∀ settings, outcome = .ok settings →
      (∀ f : TextSetting,
        chosenText? env (lastOf f.address (given mark env)) (file.get? (.text f.name))
          (f.of .standard) = some (f.of settings)) ∧
      chosenLevel? env (lastOf .level (given mark env)) (levelIn file) Settings.standard.level =
        some settings.level := by
  intro outcome settled
  have houtcome : outcome = (Settings.ofMapping settled).mapError (.invalid settled) :=
    load_of_yields hfile henv
  have hgathered : Gathered (given mark env) overrides := by
    rcases ofEnvironment_spec mark env with ⟨-, m, hm, hgathered⟩ | ⟨-, herror⟩
    · rw [henv] at hm
      rwa [Except.ok.inj hm]
    · rw [henv] at herror
      contradiction
  rw [houtcome, ← Settings.exists_ofMapping_iff]
  -- with both layers there, loading is the check of the settled ones
  cases hsettled : Settings.ofMapping settled with
  | error complaints =>
    refine ⟨?_, ?_, ?_⟩
    · constructor
      · intro h
        obtain ⟨settings, h⟩ := h
        contradiction
      · intro h
        obtain ⟨settings, h⟩ := h
        contradiction
    · intro _
      exact ⟨.invalid settled complaints, rfl, rfl⟩
    · intro settings h
      contradiction
  | ok settings =>
    refine ⟨⟨fun _ => ⟨settings, rfl⟩, fun _ => ⟨settings, rfl⟩⟩, ?_, ?_⟩
    · intro hnone
      exact absurd ⟨settings, rfl⟩ hnone
    · intro other hother
      have hsame : settings = other := Except.ok.inj hother
      rw [← hsame]
      exact ⟨chosenText?_of_settle hgathered hsettled, chosenLevel?_of_settle hgathered hsettled⟩

theorem eq_ok_of_toOption {α ε : Type} {x : Except ε α} {a : α}
    (h : x.toOption = some a) : x = .ok a := by
  cases x with
  | error e => contradiction
  | ok b => exact congrArg Except.ok (Option.some.inj h)

private theorem exists_yields {path : String} {finding : FileTree.Finding}
    (hfound : finding.isFound = true)
    (h : ((fileMapping path finding).toOption.bind Draft.value?).isSome = true) :
    ∃ file, Yields path finding file := by
  obtain ⟨file, hfile⟩ := Option.isSome_iff_exists.mp h
  obtain ⟨draft, hdraft, hvalue⟩ := Option.bind_eq_some_iff.mp hfile
  refine ⟨file, draft, ?_, hvalue⟩
  unfold Gives
  rw [if_pos hfound]
  exact eq_ok_of_toOption hdraft

/-- An environment in which the level and, twice, the folder are given. -/
def sampleEnvironment : Environment :=
  [("X", "v"), ("BINDGEN_LOGGING_LEVEL", "info"), ("BINDGEN_output_dir", "d"),
    ("BINDGEN_Output_Dir", "$\x7bX\x7d")]

/-- A file that has a number for the section on logging. -/
def sampleFinding (path : String) : FileTree.Finding :=
  if path = "bindgen.yaml" then
    .found (.file (Text.encode "class_suffix: $\x7bX\x7dY\nlogging: 3\n"))
  else .fault .missing

/-- The suffix is the file's, the folder the last of those given, and the level is given. -/
theorem load_meaning_sample :
    ∃ file, Yields "bindgen.yaml" (sampleFinding "bindgen.yaml") file ∧
      chosenText? sampleEnvironment none (file.get? (.text "class_suffix")) "Binding" =
        some "vY" ∧
      chosenText? sampleEnvironment (some "$\x7bX\x7d") (file.get? (.text "output_dir"))
        "generated" = some "v" ∧
      chosenLevel? sampleEnvironment (some "info") (levelIn file) .warning = some .info := by
  have hpath : choosePath none defaultMark sampleEnvironment = "bindgen.yaml" := by decide +kernel
  obtain ⟨file, hfile⟩ : ∃ file, Yields "bindgen.yaml" (sampleFinding "bindgen.yaml") file :=
    exists_yields rfl (by decide +kernel)
  obtain ⟨overrides, henv⟩ : ∃ overrides,
      (ofEnvironment defaultMark sampleEnvironment).1.toOption = some overrides :=
    Option.isSome_iff_exists.mp (by decide +kernel)
  have hload : (load sampleFinding sampleEnvironment none defaultMark).1 =
      .ok ⟨"vY", "", "v", .info⟩ := eq_ok_of_toOption (by decide +kernel)
  obtain ⟨-, -, hchosen⟩ := load_meaning sampleFinding sampleEnvironment none defaultMark file
    overrides (by rw [hpath]; exact hfile) (eq_ok_of_toOption henv)
  obtain ⟨htexts, hlevel⟩ := hchosen _ hload
  have hgiven : given defaultMark sampleEnvironment =
      [(.level, "info"), (.outputDir, "d"), (.outputDir, "$\x7bX\x7d")] := by decide +kernel
  have hsuffixed := htexts .classSuffix
  have hput := htexts .outputDir
  rw [hgiven] at hsuffixed hput hlevel
  exact ⟨file, hfile, hsuffixed, hput, hlevel⟩

/-! ## How loading fails -/

/-- What breaks down is of no kind that the library has of its own. -/
theorem Breakdown.kind_notMem_family (b : Breakdown) :
    b.kind ≠ .configuration ∧ FailureKind.library ∉ b.kind.isA := by
  cases b with
  | document m => cases m <;> decide
  | obstacle o => cases o <;> decide
  | nullInPath | sectionClash => decide

/-- A document is taken for a mapping or is not, but breaks nothing down. -/
theorem kind?_of_mappingOf {path : String} {d : Yaml.Document} {fault : FileFault}
    (h : mappingOf path d = .error fault) : (LoadFailure.file fault).kind? = some .configuration := by
  unfold mappingOf at h
  split at h
  · contradiction
  · split_ifs at h
    cases h
    rfl

end Config

end Bindery
