import Bindery.Proofs.CommandLines
import Bindery.Proofs.FailedWrites
import Bindery.Proofs.Loading

/-!
# What runs of the program report

A run that is asked for a job reports what the library makes of it (`Says`): the value with a line end
on the standard output and the exit code 0, or the text of the failure behind `Error: ` and the exit
code 1 (`Reports`).

What is shown of records has no part in that. So a run that is verbose besides ends and answers alike
(`Alike`), and so does one with another level in the section on logging, if that is accepted
(`OtherLevel`): the checks of the other settings do not see the section, and the section passes either
way (`ofMapping_of_otherLevel`).
-/

namespace Bindery

/-! ## Layers with another level -/

/-- Whether the section on logging passes, or is not there. -/
def LevelPasses (m : Mapping) : Prop :=
  ∃ level, Check.optional Settings.checkLogging Settings.standard.level "logging" m = .ok level

/-- Mappings that differ in nothing but the section on logging, which passes in both. -/
structure OtherLevel (m other : Mapping) : Prop where
  outside : ∀ key, key ≠ .text "logging" → m.get? key = other.get? key
  passes : LevelPasses m
  passes' : LevelPasses other

theorem OtherLevel.symm {m other : Mapping} (h : OtherLevel m other) : OtherLevel other m :=
  ⟨fun key hkey => (h.outside key hkey).symm, h.passes', h.passes⟩

/-- With another level the settings are the same but for the level. -/
theorem ofMapping_of_otherLevel {m other : Mapping} {settings : Settings} (h : OtherLevel m other)
    (hok : Settings.ofMapping m = .ok settings) :
    ∃ level, Settings.ofMapping other = .ok { settings with level := level } := by
  obtain ⟨hnames, htexts, -⟩ := (Settings.ofMapping_eq_ok_iff m settings).mp hok
  obtain ⟨level, hlevel⟩ := h.passes'
  refine ⟨level, (Settings.ofMapping_eq_ok_iff other _).mpr ⟨?_, ?_, hlevel⟩⟩
  · intro entry hentry
    by_cases hlogging : entry.1 = .text "logging"
    · exact ⟨"logging", by decide, hlogging⟩
    · -- the key is one of the first mapping as well, where it is a name
      have hthere : m.get? entry.1 ≠ none := by
        rw [h.outside _ hlogging, ne_eq, Ledger.get?_eq_none_iff]
        intro hnone
        simpa using hnone entry hentry
      obtain ⟨v, hv⟩ := Option.ne_none_iff_exists'.mp hthere
      obtain ⟨key, hsame, hmem⟩ := Ledger.exists_mem_of_get? hv
      obtain ⟨name, hname, hkey⟩ := hnames _ hmem
      refine ⟨name, hname, (Key.beq_text_iff _ _).mp ?_⟩
      rw [← hkey]
      exact BEq.symm hsame
  · intro f
    have hother : Key.text f.name ≠ .text "logging" := by
      rw [ne_eq, Key.text_inj]
      cases f <;> decide
    have htext := htexts f
    rw [Check.optional_eq_ok_iff] at htext ⊢
    rw [← h.outside _ hother]
    exact htext

namespace Config

/-- The layers as they are checked, or why they are not. -/
def settledLayers (find : String → FileTree.Finding) (env : Environment) (asked : Option String)
    (mark : String) : Except LoadFailure Mapping :=
  match (layers find env asked mark).1 with
  | .error failure => .error failure
  | .ok draft =>
    match draft.obstacle? with
    | some o => .error (.file (.breakdown (.obstacle o)))
    | none =>
      match draft.value? with
      | some m => .ok (expandEntries env m)
      | none => .error .unjudged

/-- Loading is the check of the settled layers, if there are any, and else fails with what keeps them
from being checked. -/
theorem load_eq_settledLayers (find : String → FileTree.Finding) (env : Environment)
    (asked : Option String) (mark : String) :
    (load find env asked mark).1 =
      (settledLayers find env asked mark).bind fun m =>
        (Settings.ofMapping m).mapError (.invalid m) := by
  rw [load_eq]
  unfold settledLayers
  cases (layers find env asked mark).1 with
  | error failure => rfl
  | ok draft =>
    dsimp only [Except.bind]
    unfold judge
    cases draft.obstacle? with
    | some o => rfl
    | none => cases draft.value? <;> rfl

end Config

namespace CommandLine

open Form

/-! ## What the library makes of a job -/

/-- The class of a layout, under the package asked for or else the configured one. -/
def classOf (settings : Settings) (name : String) (package : Option String) : String :=
  ((LayoutNames.fresh settings.classSuffix).qualifiedName
    (package.getD settings.modulePackage) name).1

/-- The sink for the sources under some settings, where nothing has been written yet. -/
def sinkOf (settings : Settings) (tree : FileTree) : TreeSink :=
  .fresh settings.outputDir TreeSink.defaultExtension tree

/-- The path that a sink under the settings writes a class to, whatever files there are and whatever
they are on. -/
structure WritesTo (settings : Settings) (name : String) (p : Path) : Prop where
  path : ∀ tree, (sinkOf settings tree).pathFor name = p
  placed : ∀ host tree contents record after,
    TreeSink.writeOn host name contents (sinkOf settings tree) = (.ok record, after) →
    TreeSink.Placed tree after.tree p (Text.encode contents)

theorem writesTo_pathFor (settings : Settings) (tree : FileTree) (name : String) :
    WritesTo settings name ((sinkOf settings tree).pathFor name) where
  path _ := rfl
  placed host tree' contents record after h := by
    have hroot : (sinkOf settings tree').root.WellFormed := Path.wellFormed_ofText _
    have hplaced := TreeSink.writeOn_succeeded hroot (congrArg Prod.fst h)
    rw [h] at hplaced
    exact hplaced

/-- The answer to a layout is its class, or the path of the class. -/
theorem layoutAnswer_fst {settings : Settings} {name : String} {package : Option String} {p : Path}
    (h : WritesTo settings (classOf settings name package) p) (asPath : Bool) :
    (layoutAnswer settings name package asPath).1 =
      if asPath then p.text else classOf settings name package := by
  rw [← h.path ⟨[], []⟩]
  rfl

section

variable {around : Surroundings} {name : String} {package config : Option String} {asPath : Bool}

theorem answer_layout_ok {settings : Settings}
    (h : (Config.load around.find around.env config Config.defaultMark).1 = .ok settings) :
    answer around (.layout name package config asPath) =
      .ok (layoutAnswer settings name package asPath).1 := by
  simp only [answer, h]

theorem answer_layout_error {e : Config.LoadFailure}
    (h : (Config.load around.find around.env config Config.defaultMark).1 = .error e) :
    answer around (.layout name package config asPath) = .error (.load e) := by
  simp only [answer, h]

end

/-- What the library makes of each job but that of telling the version. -/
inductive Says (around : Surroundings) : Job → Except Failure String → Prop
  | className (name : String) : Says around (.camel name false) (.ok (Naming.className name))
  | variableName (name : String) : Says around (.camel name true) (.ok (Naming.variableName name))
  | dottedName (name : String) : Says around (.sourceName name) (.ok (Naming.dottedName name))
  | resource {reference id : String} (h : Naming.resourceId reference = .ok id) :
    Says around (.resourceId reference) (.ok id)
  | malformed {reference : String} {e : MalformedReference}
      (h : Naming.resourceId reference = .error e) :
    Says around (.resourceId reference) (.error (.malformed e))
  | unsettled {name : String} {package config : Option String} {asPath : Bool}
      {e : Config.LoadFailure}
      (h : (Config.load around.find around.env config Config.defaultMark).1 = .error e) :
    Says around (.layout name package config asPath) (.error (.load e))
  | layout {name : String} {package config : Option String} {settings : Settings}
      (h : (Config.load around.find around.env config Config.defaultMark).1 = .ok settings) :
    Says around (.layout name package config false) (.ok (classOf settings name package))
  | path {name : String} {package config : Option String} {settings : Settings} {p : Path}
      (h : (Config.load around.find around.env config Config.defaultMark).1 = .ok settings)
      (hpath : WritesTo settings (classOf settings name package) p) :
    Says around (.layout name package config true) (.ok p.text)

/-- The answer of a run is what the library says. -/
theorem says_iff {around : Surroundings} {job : Job} {value : Except Failure String}
    (hjob : job ≠ .version) : Says around job value ↔ answer around job = value := by
  constructor
  · intro h
    cases h with
    | className | variableName | dottedName => rfl
    | resource h | malformed h => simp only [answer, h, Except.mapError]
    | unsettled h => exact answer_layout_error h
    | @layout _ _ _ settings h =>
      rw [answer_layout_ok h, layoutAnswer_fst (writesTo_pathFor settings ⟨[], []⟩ _),
        if_neg Bool.false_ne_true]
    | path h hpath => rw [answer_layout_ok h, layoutAnswer_fst hpath, if_pos rfl]
  · rintro rfl
    match job with
    | .camel name false => exact .className name
    | .camel name true => exact .variableName name
    | .sourceName name => exact .dottedName name
    | .resourceId reference =>
      dsimp only [answer]
      cases h : Naming.resourceId reference with
      | ok id => exact .resource h
      | error e => exact .malformed h
    | .layout name package config asPath =>
      cases h : (Config.load around.find around.env config Config.defaultMark).1 with
      | error e =>
        rw [answer_layout_error h]
        exact .unsettled h
      | ok settings =>
        have hpath := writesTo_pathFor settings ⟨[], []⟩ (classOf settings name package)
        rw [answer_layout_ok h, layoutAnswer_fst hpath]
        cases asPath with
        | false => exact .layout h
        | true =>
          rw [if_pos rfl]
          exact .path h hpath
    | .version => contradiction

/-! ## What a run shows -/

/-- The kind of a failure. What breaks down is of none. -/
def Failure.kind? : Failure → Option FailureKind
  | malformed _ => some .malformedReference
  | load e => e.kind?

/-- Whether a failure is one of the library's own. -/
def Failure.IsLibrary (e : Failure) : Prop :=
  ∃ kind, e.kind? = some kind ∧ FailureKind.library ∈ kind.isA

/-- What a run shows of a value, and of a failure of the library's, whatever words others have for
what is wrong with a configuration. -/
inductive Reports (wording : Config.Wording) (o : Outcome) : Except Failure String → Prop
  | value (text : String) (ending : o.ending = .code 0) (output : o.output = text ++ "\n") :
    Reports wording o (.ok text)
  | failure (e : Failure) (message : String) (said : e.message? wording = some message)
      (ending : o.ending = .code 1) (output : o.output = "")
      (complaint : o.complaint = "Error: " ++ message ++ "\n") :
    Reports wording o (.error e)

/-- Runs that end alike and write the same on the standard output. -/
def Alike (o other : Outcome) : Prop := o.ending = other.ending ∧ o.output = other.output

/-- A value is reported, and so is a failure of the library's. -/
theorem reports_finished (wording : Config.Wording) (records : List Record)
    (value : Except Failure String) (hlibrary : ∀ e, value = .error e → e.IsLibrary) :
    Reports wording (finished wording records value) value := by
  match value with
  | .ok text => exact .value text rfl rfl
  | .error (.malformed e) => exact .failure _ e.message rfl rfl rfl rfl
  | .error (.load (.file (.breakdown b))) =>
    obtain ⟨kind, hkind, hfamily⟩ := hlibrary _ rfl
    rw [← Option.some.inj hkind] at hfamily
    exact absurd hfamily b.kind_notMem_family.2
  | .error (.load .unjudged) =>
    obtain ⟨kind, hkind, -⟩ := hlibrary _ rfl
    contradiction
  | .error (.load (.file (.unreadable path fault))) => exact .failure _ _ rfl rfl rfl rfl
  | .error (.load (.file (.malformed path contents))) => exact .failure _ _ rfl rfl rfl rfl
  | .error (.load (.file (.notAMapping path))) => exact .failure _ _ rfl rfl rfl rfl
  | .error (.load (.invalid data complaints)) => exact .failure _ _ rfl rfl rfl rfl

/-- Neither which records are shown nor how others word what is wrong has a part in the end of a run
and in its output. -/
theorem finished_alike (wording wording' : Config.Wording) (records others : List Record)
    (value : Except Failure String) :
    Alike (finished wording records value) (finished wording' others value) := by
  unfold finished
  split <;> exact ⟨rfl, rfl⟩

/-- The name of a level means its number. -/
theorem toLevel_meant_name (level : Level) :
    Loggers.toLevel (Loggers.meant (.text level.name)) = .ok (.int level.number) := by
  cases level <;> decide +kernel

/-- Setting up what is shown of records does not fail in a run. -/
theorem configure_ok (loggers : Loggers) :
    (loggers.configure true .null).1 = .ok () ∧
      ∀ level : Level, (loggers.configure false (.text level.name)).1 = .ok () := by
  refine ⟨rfl, ?_⟩
  intro level
  show (loggers.attach.assign Loggers.package (.text level.name)).1 = .ok ()
  rw [Loggers.assign, toLevel_meant_name]

section

variable {around other : Surroundings} {arguments : List String} {verbose : Bool} {job : Job}

/-- A run that is asked for a job finishes with its answer. -/
theorem run_of_wish (around : Surroundings) (hwish : wishOf arguments = .ok ⟨verbose, some job⟩)
    (loggers : Loggers) :
    ∃ records, (run around arguments loggers).1 =
      finished around.wording records (answer around job) := by
  unfold run
  rw [hwish]
  exact ⟨_, rfl⟩

/-- Surroundings in which the settings of a job differ in nothing but the level, wherever that comes
from: the layers that are checked differ in the section on logging alone, and it passes, or the
reading of the layers fails alike. -/
inductive SameButLevel (one other : Surroundings) : Job → Prop
  | settled {name : String} {package config : Option String} {asPath : Bool} {m m' : Mapping}
      (hone : Config.settledLayers one.find one.env config Config.defaultMark = .ok m)
      (hother : Config.settledLayers other.find other.env config Config.defaultMark = .ok m')
      (h : OtherLevel m m') :
    SameButLevel one other (.layout name package config asPath)
  | unsettled {name : String} {package config : Option String} {asPath : Bool}
      {e : Config.LoadFailure}
      (hone : Config.settledLayers one.find one.env config Config.defaultMark = .error e)
      (hother : Config.settledLayers other.find other.env config Config.defaultMark = .error e) :
    SameButLevel one other (.layout name package config asPath)
  | unneeded {job : Job} (h : ∀ env, pathOf env job = none) : SameButLevel one other job

/-- The level has no part in the end of a run and in its output. -/
theorem SameButLevel.alike (h : SameButLevel around other job) (records others : List Record) :
    Alike (finished around.wording records (answer around job))
      (finished other.wording others (answer other job)) := by
  cases h with
  | @settled name package config asPath m m' hone hother h =>
    have hload := Config.load_eq_settledLayers around.find around.env config Config.defaultMark
    have hload' := Config.load_eq_settledLayers other.find other.env config Config.defaultMark
    rw [hone] at hload
    rw [hother] at hload'
    simp only [Except.bind] at hload hload'
    cases hm : Settings.ofMapping m with
    | ok settings =>
      obtain ⟨level, hm'⟩ := ofMapping_of_otherLevel h hm
      rw [hm] at hload
      rw [hm'] at hload'
      rw [answer_layout_ok hload, answer_layout_ok hload']
      exact finished_alike around.wording other.wording records others
        (.ok (layoutAnswer settings name package asPath).1)
    | error complaints =>
      cases hm' : Settings.ofMapping m' with
      | ok settings =>
        -- the same mapping with the first level would pass as well
        obtain ⟨level, hok⟩ := ofMapping_of_otherLevel h.symm hm'
        rw [hm] at hok
        contradiction
      | error complaints' =>
        rw [hm] at hload
        rw [hm'] at hload'
        rw [answer_layout_error hload, answer_layout_error hload']
        exact ⟨rfl, rfl⟩
  | @unsettled name package config asPath e hone hother =>
    have hload := Config.load_eq_settledLayers around.find around.env config Config.defaultMark
    have hload' := Config.load_eq_settledLayers other.find other.env config Config.defaultMark
    rw [hone] at hload
    rw [hother] at hload'
    rw [answer_layout_error hload, answer_layout_error hload']
    exact finished_alike around.wording other.wording records others (.error (.load e))
  | unneeded h =>
    have hsame : answer around job = answer other job := by
      cases job with
      | layout name package config asPath => cases h around.env
      | camel _ _ | sourceName _ | resourceId _ | version => rfl
    rw [hsame]
    exact finished_alike around.wording other.wording records others _

/-- What a run reports that is asked for a job, unless for the version, and in which the library
fails in its own ways at most: what the library says, as an answer or as a complaint. The package of
a layout is the last one given to its switch, which may be empty. One switch more for a verbose run
in front of the command, or another level in the settings, and the run ends and answers alike,
whatever loggers it starts with; setting these up does not fail. -/
theorem run_reports (around : Surroundings) (hwish : wishOf arguments = .ok ⟨verbose, some job⟩)
    (hjob : job ≠ .version) (hlibrary : ∀ e, answer around job = .error e → e.IsLibrary)
    (loggers : Loggers) :
    let outcome := (run around arguments loggers).1
    ((∃ value, Says around job value) ∧
      ∀ value, Says around job value → Reports around.wording outcome value) ∧
    (∀ name package config asPath, job = .layout name package config asPath →
      ∃ flags rest items, arguments = flags ++ "layout" :: rest ∧ (∀ a ∈ flags, AsksVerbose a) ∧
        layoutForm.markAll rest = .ok items ∧
        package = (valuesOf "--package" items).getLast?) ∧
    (∀ before after others, arguments = before ++ after →
      (∀ a ∈ before, (jobOf a).isSome = false) →
      Alike outcome (run around (before ++ "-v" :: after) others).1) ∧
    (∀ other others, SameButLevel around other job →
      Alike outcome (run other arguments others).1) ∧
    (loggers.configure true .null).1 = .ok () ∧
    ∀ level : Level, (loggers.configure false (.text level.name)).1 = .ok () := by
  intro outcome
  obtain ⟨records, houtcome⟩ := run_of_wish around hwish loggers
  have houtcome : outcome = finished around.wording records (answer around job) := houtcome
  rw [houtcome]
  refine ⟨⟨⟨_, (says_iff hjob).mpr rfl⟩, ?_⟩, ?_, ?_, ?_, configure_ok loggers⟩
  · intro value hsays
    rw [(says_iff hjob).mp hsays]
    exact reports_finished around.wording records value fun e he =>
      hlibrary e (((says_iff hjob).mp hsays).trans he)
  · rintro name package config asPath rfl
    exact package_of_wish hwish
  · rintro before after others rfl hbefore
    obtain ⟨shown, hrun⟩ := run_of_wish around (wishOf_insert_verbose hwish hbefore) others
    rw [hrun]
    exact finished_alike around.wording around.wording records shown _
  · intro other others hsame
    obtain ⟨shown, hrun⟩ := run_of_wish other hwish others
    rw [hrun]
    exact hsame.alike records shown

end

/-- What is under other keys does not depend on the level. -/
private theorem get?_beside (level : String) {key : Key} (h : key ≠ .text "logging") :
    Ledger.get? key [(.text "module_package", .text "app"),
        (.text "logging", .mapping [(.text "level", .text level)])] =
      Ledger.get? key [(.text "module_package", Value.text "app")] := by
  have hother : (Key.text "logging" == key) = false := by
    rw [BEq.comm, Bool.eq_false_iff, ne_eq, Key.beq_text_iff]
    exact h
  simp [Ledger.get?, hother]

/-- An environment with a package and a level. -/
private def environmentWith (level : String) : Environment :=
  [("BINDGEN_MODULE_PACKAGE", "app"), ("BINDGEN_LOGGING_LEVEL", level)]

/-- The empty package counts, and neither the switch nor the level changes anything. -/
theorem run_reports_sample :
    let wording : Config.Wording := ⟨fun _ _ => "", fun _ => ""⟩
    let around : Surroundings := ⟨fun _ => .fault .missing, environmentWith "info", wording⟩
    let other : Surroundings := ⟨fun _ => .fault .missing, environmentWith "Debug", wording⟩
    let arguments := ["layout", "--package", "", "user_name"]
    let outcome := (run around arguments .initial).1
    Reports wording outcome (.ok "UserNameBinding") ∧
      Alike outcome (run around ("-v" :: arguments) .initial).1 ∧
      Alike outcome (run other arguments .initial).1 := by
  intro wording around other arguments outcome
  have hwish : wishOf arguments = .ok ⟨false, some (.layout "user_name" (some "") none false)⟩ := by
    rfl
  have hload : (Config.load around.find around.env none Config.defaultMark).1 =
      .ok ⟨"Binding", "app", "generated", .info⟩ :=
    Config.eq_ok_of_toOption (by decide +kernel)
  have hlibrary : ∀ e, answer around (.layout "user_name" (some "") none false) = .error e →
      e.IsLibrary := by
    intro e he
    rw [answer_layout_ok hload] at he
    cases he
  obtain ⟨⟨-, hreports⟩, -, hverbose, hlevel, -⟩ :=
    run_reports around hwish (by decide) hlibrary .initial
  refine ⟨hreports _ (.layout hload), hverbose [] arguments .initial rfl (by simp), ?_⟩
  have hlayers : ∀ level, Config.settledLayers (fun _ => .fault .missing) (environmentWith level)
      none Config.defaultMark = .ok [(.text "module_package", .text "app"), (.text "logging",
        .mapping [(.text "level", .text (Config.expandText (environmentWith level) level))])] := by
    intro level
    rfl
  refine hlevel other .initial (.settled (hlayers "info") (hlayers "Debug") ⟨?_, ?_, ?_⟩)
  · intro key hkey
    rw [get?_beside _ hkey, get?_beside _ hkey]
  · exact ⟨.info, by rfl⟩
  · exact ⟨.debug, by rfl⟩

end CommandLine

end Bindery
