import Bindery.Collector
import Bindery.Proofs.RoundRuns

/-!
# From rounds to sources

The collecting step, run on its own, writes the binding class of every layout of every round, in the
order in which they came, up to the first whose class was written before (`sources_of_rounds`).

Rounds before the last do nothing but collect (`processAll_collects`), and the last one writes what
was collected (`process_last`). What is written for a layout depends on the layout and the package
alone, because the names that are remembered are always the ones that would be derived again
(`LayoutNames.Derived`). The sink tells the classes apart by their qualified names, which agree
exactly when the layouts agree in camel case (`fileOf_fst_inj`).
-/

namespace Bindery

open Bindery.Memo

/-- Where the values of a list are not all different, there is a first one that came before. -/
theorem exists_first_repeated {α β : Type} (f : α → β) {xs : List α} (h : ¬ (xs.map f).Nodup) :
    ∃ earlier x later, xs = earlier ++ x :: later ∧ (earlier.map f).Nodup ∧
      f x ∈ earlier.map f := by
  -- if the values repeat before the last one, the first repetition is there
  induction xs using List.reverseRecOn with
  | nil => exact absurd List.nodup_nil h
  | append_singleton xs x ih =>
    by_cases hnodup : (xs.map f).Nodup
    · refine ⟨xs, x, [], rfl, hnodup, ?_⟩
      by_contra hnew
      apply h
      rw [List.map_append, List.map_singleton, ← List.concat_eq_append]
      exact hnodup.concat hnew
    · obtain ⟨earlier, first, later, hxs, hearlier, hfirst⟩ := ih hnodup
      exact ⟨earlier, first, later ++ [x], by rw [hxs]; simp, hearlier, hfirst⟩

/-! ## Names -/

namespace LayoutNames

/-- The classes that are remembered are the ones that would be derived again. -/
structure Derived (names : LayoutNames) : Prop where
  suffix : names.suffix = defaultSuffix
  classes : ∀ layout name, names.classes.entries.get? layout = some name →
    name = Naming.className layout ++ defaultSuffix

variable {names : LayoutNames}

theorem derived_fresh : Derived (fresh defaultSuffix) :=
  ⟨rfl, fun _ _ h => by cases h⟩

/-- A class is named after its layout, whether it is remembered or not. -/
theorem Derived.className (h : Derived names) (layout : String) :
    (names.className layout).1 = Naming.className layout ++ defaultSuffix ∧
      Derived (names.className layout).2 := by
  unfold LayoutNames.className fetch
  cases hget : names.classes.entries.get? layout with
  | some name => exact ⟨h.classes layout name hget, h⟩
  | none =>
    refine ⟨congrArg (Naming.className layout ++ ·) h.suffix, h.suffix, fun other name hother => ?_⟩
    have hput : (names.classes.entries.put layout
        (Naming.className layout ++ names.suffix)).get? other = some name := hother
    rw [h.suffix] at hput
    rcases Ledger.get?_put_cases hput with ⟨rfl, rfl⟩ | ⟨-, hold⟩
    · rfl
    · exact h.classes other name hold

theorem Derived.qualifiedName (h : Derived names) (package layout : String) :
    (names.qualifiedName package layout).1 =
        qualify package (Naming.className layout ++ defaultSuffix) ∧
      Derived (names.qualifiedName package layout).2 := by
  obtain ⟨hname, hnames⟩ := h.className layout
  exact ⟨congrArg (qualify package) hname, hnames⟩

end LayoutNames

namespace Collector

open LayoutNames

/-! ## What is written for a layout -/

/-- The qualified name of the class of a layout, and its source. -/
def fileOf (package layout : String) : String × String :=
  (((LayoutNames.fresh defaultSuffix).qualifiedName package layout).1,
    source ((LayoutNames.fresh defaultSuffix).className layout).1)

theorem fileOf_eq (package layout : String) :
    fileOf package layout = (qualify package (Naming.className layout ++ defaultSuffix),
      source (Naming.className layout ++ defaultSuffix)) := by
  unfold fileOf
  rw [(derived_fresh.qualifiedName package layout).1, (derived_fresh.className layout).1]

/-- Layouts have classes of one name exactly when they agree in camel case. -/
theorem fileOf_fst_inj {package a b : String} :
    (fileOf package a).1 = (fileOf package b).1 ↔ Naming.className a = Naming.className b := by
  rw [fileOf_eq, fileOf_eq]
  constructor
  · intro h
    have hclass := qualify_injective h
    rwa [String.append_left_inj] at hclass
  · intro h
    simp only [h]

variable {package layout : String} {earlier : List String} {c : Collector MemorySink}

theorem mem_files_iff (hfiles : c.sink.files = earlier.map (fileOf package)) :
    (fileOf package layout).1 ∈ c.sink.files.map Prod.fst ↔
      Naming.className layout ∈ earlier.map Naming.className := by
  rw [hfiles, List.map_map, List.mem_map, List.mem_map]
  simp only [Function.comp_apply, fileOf_fst_inj]

theorem nameClass_spec (hnames : c.names.Derived) (package layout : String) :
    source (c.nameClass package layout).1.1 = (fileOf package layout).2 ∧
      (c.nameClass package layout).1.2 = (fileOf package layout).1 ∧
      (c.nameClass package layout).2.sink = c.sink ∧
      (c.nameClass package layout).2.names.Derived := by
  obtain ⟨hname, hnext⟩ := hnames.className layout
  obtain ⟨hqualified, hlast⟩ := hnext.qualifiedName package layout
  rw [fileOf_eq]
  exact ⟨congrArg source hname, hqualified, rfl, hlast⟩

/-- A class that is new is written behind the others. -/
theorem emit_new (hnames : c.names.Derived) (hfiles : c.sink.files = earlier.map (fileOf package))
    (hnew : Naming.className layout ∉ earlier.map Naming.className) :
    ∃ next, c.emit MemorySink.write package layout = (.ok (), next) ∧ next.names.Derived ∧
      next.sink.files = (earlier ++ [layout]).map (fileOf package) := by
  obtain ⟨hsource, hqualified, hsink, hderived⟩ := nameClass_spec hnames package layout
  rw [← mem_files_iff hfiles] at hnew
  unfold emit
  rcases hname : c.nameClass package layout with ⟨⟨name, qualified⟩, named⟩
  rw [hname] at hsource hqualified hsink hderived
  simp only at hsource hqualified hsink hderived
  simp only [hqualified, hsource, hsink, MemorySink.write_new hnew]
  refine ⟨_, rfl, hderived, ?_⟩
  simp only [hfiles, List.map_append, List.map_singleton]

/-- A class that was written before is refused, and nothing is changed in the sink. -/
theorem emit_taken (hnames : c.names.Derived)
    (hfiles : c.sink.files = earlier.map (fileOf package))
    (hold : Naming.className layout ∈ earlier.map Naming.className) :
    ∃ next, c.emit MemorySink.write package layout =
        (.error (.alreadyWritten (fileOf package layout).1), next) ∧
      next.sink.files = earlier.map (fileOf package) := by
  obtain ⟨hsource, hqualified, hsink, -⟩ := nameClass_spec hnames package layout
  rw [← mem_files_iff hfiles] at hold
  unfold emit
  rcases hname : c.nameClass package layout with ⟨⟨name, qualified⟩, named⟩
  rw [hname] at hsource hqualified hsink
  simp only at hsource hqualified hsink
  simp only [hqualified, hsource, hsink, MemorySink.write_taken hold]
  exact ⟨_, rfl, hfiles⟩

theorem emitAll_append {κ : Type} (write : Writing κ) (package : String) (first second : List String)
    (c : Collector κ) :
    emitAll write package (first ++ second) c =
      match emitAll write package first c with
      | (.error fault, c) => (.error fault, c)
      | (.ok (), c) => emitAll write package second c := by
  induction first generalizing c with
  | nil => rfl
  | cons layout rest ih =>
    rw [List.cons_append, emitAll, emitAll]
    rcases c.emit write package layout with ⟨fault | _, next⟩
    · rfl
    · exact ih next

/-- Classes that are all different are all written, in order. -/
theorem emitAll_distinct (hnames : c.names.Derived)
    (hfiles : c.sink.files = earlier.map (fileOf package)) {layouts : List String}
    (hnodup : ((earlier ++ layouts).map Naming.className).Nodup) :
    ∃ next, emitAll MemorySink.write package layouts c = (.ok (), next) ∧ next.names.Derived ∧
      next.sink.files = (earlier ++ layouts).map (fileOf package) := by
  -- the invariant is what the sink holds: the classes of the layouts up to here
  induction layouts generalizing c earlier with
  | nil =>
    rw [List.append_nil]
    exact ⟨c, rfl, hnames, hfiles⟩
  | cons layout rest ih =>
    have hnew : Naming.className layout ∉ earlier.map Naming.className := by
      intro hold
      rw [List.map_append, List.nodup_append] at hnodup
      exact hnodup.2.2 _ hold _ (by simp) rfl
    obtain ⟨next, hemit, hderived, hnext⟩ := emit_new hnames hfiles hnew
    rw [List.append_cons] at hnodup ⊢
    rw [emitAll, hemit]
    exact ih hderived hnext hnodup

/-- The classes of layouts are written into a sink that holds nothing yet. If the layouts are all
different in camel case, so are the classes, and each is written. Otherwise the first layout that
agrees with one before it ends it. -/
theorem emitAll_cases (hnames : c.names.Derived) (hempty : c.sink.files = []) (package : String)
    (layouts : List String) :
    let written := emitAll MemorySink.write package layouts c
    ((layouts.map Naming.className).Nodup →
      written.1 = .ok () ∧ written.2.sink.files = layouts.map (fileOf package)) ∧
    (¬ (layouts.map Naming.className).Nodup →
      ∃ earlier layout later, layouts = earlier ++ layout :: later ∧
        (earlier.map Naming.className).Nodup ∧
        Naming.className layout ∈ earlier.map Naming.className ∧
        written.1 = .error (.alreadyWritten (fileOf package layout).1) ∧
        written.2.sink.files = earlier.map (fileOf package)) := by
  intro written
  have hnone : c.sink.files = [].map (fileOf package) := hempty
  constructor
  · intro hnodup
    obtain ⟨next, hemit, -, hnext⟩ := emitAll_distinct hnames hnone hnodup
    have hwritten : written = (.ok (), next) := hemit
    rw [hwritten]
    exact ⟨rfl, hnext⟩
  · -- up to the first class that is repeated all are written, and that one is refused
    intro hrepeated
    obtain ⟨earlier, layout, later, hsplit, hnodup, hold⟩ :=
      exists_first_repeated Naming.className hrepeated
    obtain ⟨mid, hmid, hderived, hfiles⟩ := emitAll_distinct hnames hnone hnodup
    obtain ⟨next, hemit, hnext⟩ := emit_taken hderived hfiles hold
    have hwritten : written = (.error (.alreadyWritten (fileOf package layout).1), next) := by
      show emitAll MemorySink.write package layouts c = _
      rw [hsplit, emitAll_append, hmid]
      simp only [emitAll, hemit]
    rw [hwritten]
    exact ⟨earlier, layout, later, hsplit, hnodup, hold, rfl, hnext⟩

/-! ## Rounds -/

/-- The collecting step on its own. -/
def alone {κ : Type} (write : Writing κ) : Processor String (Collector κ) SinkFault :=
  ⟨fun _ => step write, [0]⟩

theorem collect_collect {κ : Type} (first second : List String) (c : Collector κ) :
    (c.collect first).collect second = c.collect (first ++ second) := by
  unfold collect
  rw [List.append_assoc]

section

variable {κ : Type} (write : Writing κ) {run : Run String (Collector κ) SinkFault}

/-- The step keeps the layouts of a round and is not done. -/
theorem runAll_collects (round : Round String) (hdone : run.done 0 = false) :
    ∃ next, (alone write).runAll round (alone write).order run = (.ok false, next) ∧
      next.done 0 = false ∧ next.world = run.world.collect round.elements := by
  have horder : (alone write).order = [0] := rfl
  have hhandle : ((alone write).step 0).handle round run.world =
      (.ok (.bool false), run.world.collect round.elements) := rfl
  -- the step has nothing to fail by while it collects
  rcases Processor.runStep_of_not_done (alone write) round hdone with
    ⟨value, world, hvalue, hstep⟩ | ⟨error, world, herror, -⟩
  · rw [hhandle] at hvalue
    cases hvalue
    rw [horder, Processor.runAll, hstep]
    exact ⟨_, rfl, rfl, rfl⟩
  · rw [hhandle] at herror
    cases herror

/-- A round that is not the last is collected. -/
theorem process_collects {round : Round String} (hdone : run.done 0 = false)
    (hinfo : round.buildInfo.isSome = true) (hover : round.isOver = false) :
    ∃ next, (alone write).process round run = (.ok false, next) ∧ next.done 0 = false ∧
      next.world = run.world.collect round.elements := by
  obtain ⟨info, hinfo⟩ := Option.isSome_iff_exists.mp hinfo
  obtain ⟨next, hall, hnext⟩ := runAll_collects write round hdone
  refine ⟨next, ?_, hnext⟩
  unfold Processor.process
  simp only [hinfo, hall, hover, Bool.false_eq_true, if_false]

/-- Rounds before the last are collected one after another. -/
theorem processAll_collects {rounds : List (Round String)} (hdone : run.done 0 = false)
    (hrounds : ∀ round ∈ rounds, round.buildInfo.isSome = true ∧ round.isOver = false) :
    ((alone write).processAll rounds run).done 0 = false ∧
      ((alone write).processAll rounds run).world =
        run.world.collect (rounds.flatMap Round.elements) := by
  induction rounds generalizing run with
  | nil =>
    refine ⟨hdone, ?_⟩
    unfold collect
    rw [List.flatMap_nil, List.append_nil]
    rfl
  | cons round rest ih =>
    obtain ⟨hinfo, hover⟩ := hrounds round List.mem_cons_self
    obtain ⟨next, hprocess, hnext, hworld⟩ := process_collects write hdone hinfo hover
    obtain ⟨hrest, hlast⟩ := ih hnext fun later hlater => hrounds later (List.mem_cons_of_mem _ hlater)
    have hstep : (alone write).processAll (round :: rest) run =
        (alone write).processAll rest next := by
      show (alone write).processAll rest ((alone write).process round run).2 = _
      rw [hprocess]
    rw [hstep, List.flatMap_cons, ← collect_collect, ← hworld]
    exact ⟨hrest, hlast⟩

/-- The last round is collected too, and then the classes are written. -/
theorem process_last {round : Round String} {info : BuildInfo} (hdone : run.done 0 = false)
    (hinfo : round.buildInfo = some info) (hover : round.isOver = true) :
    let written := (run.world.collect round.elements).flush write info.modulePackage
    ((alone write).process round run).1 = written.1.map (fun _ => false) ∧
      ((alone write).process round run).2.world = written.2 := by
  obtain ⟨mid, hall, -, hworld⟩ := runAll_collects write round hdone
  have hfinish : ((alone write).step 0).finish round mid.world =
      mid.world.flush write info.modulePackage := by
    simp only [alone, step, hinfo]
  have horder : (alone write).order = [0] := rfl
  intro written
  have hwritten : mid.world.flush write info.modulePackage = written := by rw [hworld]
  rw [hwritten] at hfinish
  unfold Processor.process
  rw [horder] at hall ⊢
  simp only [hinfo, hall, hover, if_true, Processor.finishAll, hfinish]
  rcases written with ⟨fault | _, c⟩
  · exact ⟨rfl, rfl⟩
  · exact ⟨rfl, rfl⟩

/-- From the first round to the last: the layouts of all of them are written, whatever the sink. -/
theorem process_rounds {rounds : List (Round String)} {last : Round String} {info : BuildInfo}
    (hrounds : ∀ round ∈ rounds, round.buildInfo.isSome = true ∧ round.isOver = false)
    (hinfo : last.buildInfo = some info) (hover : last.isOver = true) (sink : κ) :
    let start := Run.fresh (fresh sink)
    let layouts := (rounds ++ [last]).flatMap Round.elements
    let written := emitAll write info.modulePackage layouts ((fresh sink).collect layouts)
    ((alone write).process last ((alone write).processAll rounds start)).1 =
        written.1.map (fun _ => false) ∧
      ((alone write).processAll (rounds ++ [last]) start).world = written.2 := by
  intro start layouts written
  have hfresh : start.done 0 = false := rfl
  obtain ⟨hdone, hworld⟩ := processAll_collects write hfresh hrounds
  obtain ⟨houtcome, hlast⟩ := process_last write hdone hinfo hover
  have hlayouts : layouts = rounds.flatMap Round.elements ++ last.elements := by
    show (rounds ++ [last]).flatMap Round.elements = _
    rw [List.flatMap_append, List.flatMap_singleton]
  have hcollected : ((alone write).processAll rounds start).world.collect last.elements =
      (fresh sink).collect layouts := by
    rw [hworld, collect_collect, hlayouts]
    rfl
  rw [hcollected] at houtcome hlast
  refine ⟨houtcome, ?_⟩
  rw [Processor.processAll_append]
  exact hlast

end

/-- What becomes of the layouts of all rounds, if every round has build information and only the last
is over. No round before it fails or ends the work. If the layouts are all different in camel case,
the last one does not fail either, and the sink holds the class of each layout under its qualified
name, in order. Otherwise the last round fails at the first layout that agrees with one before it,
and the sink holds the classes of those before. -/
theorem sources_of_rounds (rounds : List (Round String)) (last : Round String) (info : BuildInfo)
    (hrounds : ∀ round ∈ rounds, round.buildInfo.isSome = true ∧ round.isOver = false)
    (hinfo : last.buildInfo = some info) (hover : last.isOver = true) :
    let p := alone MemorySink.write
    let start := Run.fresh (fresh .empty)
    let layouts := (rounds ++ [last]).flatMap Round.elements
    let outcome := (p.process last (p.processAll rounds start)).1
    let files := (p.processAll (rounds ++ [last]) start).world.sink.files
    (∀ earlier round later, rounds = earlier ++ round :: later →
      (p.process round (p.processAll earlier start)).1 = .ok false) ∧
    ((layouts.map Naming.className).Nodup →
      outcome = .ok false ∧ files = layouts.map (fileOf info.modulePackage)) ∧
    (¬ (layouts.map Naming.className).Nodup →
      ∃ earlier layout later, layouts = earlier ++ layout :: later ∧
        (earlier.map Naming.className).Nodup ∧
        Naming.className layout ∈ earlier.map Naming.className ∧
        outcome = .error (.alreadyWritten (fileOf info.modulePackage layout).1) ∧
        files = earlier.map (fileOf info.modulePackage)) := by
  intro p start layouts outcome files
  obtain ⟨houtcome, hworld⟩ := process_rounds MemorySink.write hrounds hinfo hover .empty
  have hfiles : files = (emitAll MemorySink.write info.modulePackage layouts
      ((fresh .empty).collect layouts)).2.sink.files := by
    rw [← hworld]
  obtain ⟨hdistinct, hrepeated⟩ := @emitAll_cases ((fresh MemorySink.empty).collect layouts)
    derived_fresh rfl info.modulePackage layouts
  refine ⟨?_, ?_, ?_⟩
  · rintro earlier round later rfl
    obtain ⟨hround, hgoes⟩ := hrounds round (by simp)
    have hearlier : ∀ other ∈ earlier, other.buildInfo.isSome = true ∧ other.isOver = false :=
      fun other hother => hrounds other (List.mem_append_left _ hother)
    have hfresh : start.done 0 = false := rfl
    obtain ⟨hbefore, -⟩ := processAll_collects MemorySink.write hfresh hearlier
    obtain ⟨next, hprocess, -⟩ := process_collects MemorySink.write hbefore hround hgoes
    exact congrArg Prod.fst hprocess
  · intro hnodup
    obtain ⟨hok, hwritten⟩ := hdistinct hnodup
    rw [hok] at houtcome
    exact ⟨houtcome, hfiles.trans hwritten⟩
  · intro hnodup
    obtain ⟨earlier, layout, later, hsplit, hbefore, hold, herror, hwritten⟩ := hrepeated hnodup
    rw [herror] at houtcome
    exact ⟨earlier, layout, later, hsplit, hbefore, hold, houtcome, hfiles.trans hwritten⟩

/-- Two rounds with a layout each, and a third with one that agrees with the first. -/
theorem sources_of_rounds_sample :
    let info : BuildInfo := ⟨"build", "app", false⟩
    let first : Round String := ⟨["user_row"], some info, false⟩
    let last : Round String := ⟨["item"], some info, true⟩
    let again : Round String := ⟨["user_Row"], some info, true⟩
    let p := alone MemorySink.write
    let run := p.processAll [first] (.fresh (fresh .empty))
    (p.process last run).1 = .ok false ∧
      (p.processAll [first, last] (.fresh (fresh .empty))).world.sink.files =
        [("app.databinding.UserRowBinding", "public class UserRowBinding \x7b\x7d\n"),
          ("app.databinding.ItemBinding", "public class ItemBinding \x7b\x7d\n")] ∧
      ∃ name, (p.process again run).1 = .error (.alreadyWritten name) := by
  intro info first last again p run
  have hfirst : ∀ round ∈ [first], round.buildInfo.isSome = true ∧ round.isOver = false := by
    decide
  obtain ⟨-, hdistinct, -⟩ := sources_of_rounds [first] last info hfirst rfl rfl
  obtain ⟨hok, hfiles⟩ := hdistinct (by decide +kernel)
  obtain ⟨-, -, hrepeated⟩ := sources_of_rounds [first] again info hfirst rfl rfl
  obtain ⟨earlier, layout, later, -, -, -, herror, -⟩ := hrepeated (by decide +kernel)
  refine ⟨hok, hfiles.trans ?_, _, herror⟩
  decide +kernel

end Collector

end Bindery
