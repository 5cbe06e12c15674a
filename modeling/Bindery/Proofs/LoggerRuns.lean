import Bindery.Loggers
import Mathlib.Tactic

/-!
# Loggers over a run

Levels are set by two kinds of calls: one for the package as a whole, which also makes sure that
its records are shown, and one for a component. A call may fail over its level and have done a part
of its work by then. Either kind is an assignment to one logger (`Call.make_eq_assign`). What a call
can do whatever comes of it is said by `Call.make_handlers` and `Call.make_sameBut`: it shows the
records if it is meant to, and it leaves every logger alone but the one that it addresses. That one
is always in the package (`inPackage_componentLogger`).

`calls_reach` is what follows for a run of calls: at most one handler is the package's own, the
handlers of others stay where they are, and no logger outside of the package is ever reached.
-/

namespace Bindery.Loggers

/-! ## Names inside of the package -/

/-- The package itself, or a name behind its own and a dot. -/
def InPackage (logger : String) : Prop :=
  logger = package ∨ inside <+: logger.toList

instance (logger : String) : Decidable (InPackage logger) :=
  inferInstanceAs (Decidable (logger = package ∨ inside <+: logger.toList))

theorem inPackage_append (component : String) : InPackage (package ++ "." ++ component) := by
  right
  rw [String.toList_append, String.toList_append]
  exact List.prefix_append inside component.toList

theorem componentLogger_of_inPackage {component : String} (h : InPackage component) :
    componentLogger component = component := by
  unfold componentLogger
  rw [if_pos]
  simpa [InPackage] using h

theorem componentLogger_of_not_inPackage {component : String} (h : ¬ InPackage component) :
    componentLogger component = package ++ "." ++ component := by
  unfold componentLogger
  rw [if_neg]
  simpa [InPackage] using h

theorem inPackage_componentLogger (component : String) : InPackage (componentLogger component) := by
  by_cases h : InPackage component
  · rwa [componentLogger_of_inPackage h]
  · rw [componentLogger_of_not_inPackage h]
    exact inPackage_append component

/-! ## What a call does -/

/-- A call that sets a level: that of the package, or that of a component. -/
inductive Call where
  | configure (verbose : Bool) (level : Value)
  | component (name : String) (level : Value)
  deriving Repr

namespace Call

/-- Whether the call is one that makes sure that records are shown. -/
def shows : Call → Bool
  | configure .. => true
  | component .. => false

/-- The logger whose level is to be set. -/
def addressee : Call → String
  | configure .. => package
  | component name _ => componentLogger name

/-- Makes the call. -/
def make (s : Loggers) : Call → Except LevelFault Unit × Loggers
  | configure verbose level => s.configure verbose level
  | component name level => s.setComponent name level

@[simp] theorem make_configure (s : Loggers) (verbose : Bool) (level : Value) :
    (configure verbose level).make s = s.configure verbose level := rfl

@[simp] theorem make_component (s : Loggers) (name : String) (level : Value) :
    (component name level).make s = s.setComponent name level := rfl

/-- The level that a call asks for: the one given, or the one that stands for none given. -/
def asked : Call → Value
  | configure verbose level =>
    match level with
    | .scalar .null => defaultLevel verbose
    | v => v
  | component _ level => level

/-- A call is an assignment, with the records shown before if they are to be. -/
theorem make_eq_assign (call : Call) (s : Loggers) :
    call.make s = (if call.shows then s.attach else s).assign call.addressee call.asked := by
  cases call with
  | component name level => rfl
  | configure verbose level => rfl

theorem inPackage_addressee (call : Call) : InPackage call.addressee := by
  cases call with
  | configure verbose level => exact .inl rfl
  | component name level => exact inPackage_componentLogger name

end Call

/-- The loggers after some calls, those that failed among them. -/
def afterCalls (s : Loggers) (calls : List Call) : Loggers :=
  calls.foldl (fun s call => (call.make s).2) s

/-- Nothing has changed about any logger but one: none was made, and none has another level. -/
def SameBut (logger : String) (s t : Loggers) : Prop :=
  ∀ other, other ≠ logger →
    t.levels.get? other = s.levels.get? other ∧ t.level other = s.level other

section

variable {s : Loggers} {logger : String}

theorem SameBut.of_levels {t : Loggers}
    (h : ∀ other, other ≠ logger → t.levels.get? other = s.levels.get? other) :
    SameBut logger s t := by
  intro other hother
  refine ⟨h other hother, ?_⟩
  rw [level, level, h other hother]

theorem sameBut_put (n : LevelNumber) :
    SameBut logger s { s with levels := s.levels.put logger n } := by
  apply SameBut.of_levels
  intro other hother
  show (s.levels.put logger n).get? other = _
  rw [Ledger.get?_put, if_neg]
  exact fun hsame => hother (eq_of_beq hsame).symm

/-- Whatever the level means, no other logger gets to know of it, and no handler does. -/
theorem assign_sameBut (v : Value) (s : Loggers) :
    SameBut logger s (s.assign logger v).2 ∧ (s.assign logger v).2.handlers = s.handlers := by
  unfold assign
  split
  · exact ⟨sameBut_put _, rfl⟩
  · -- a level that is none leaves a logger behind, if it was not there
    show SameBut logger s (s.touch logger) ∧ (s.touch logger).handlers = s.handlers
    unfold touch
    split_ifs
    · exact ⟨fun _ _ => ⟨rfl, rfl⟩, rfl⟩
    · exact ⟨sameBut_put _, rfl⟩

theorem attach_levels (s : Loggers) : s.attach.levels = s.levels := by
  unfold attach
  split_ifs <;> rfl

theorem Call.make_sameBut (call : Call) (s : Loggers) :
    SameBut call.addressee s (call.make s).2 := by
  have hlevels : (if call.shows then s.attach else s).levels = s.levels := by
    split_ifs
    · exact attach_levels s
    · rfl
  apply SameBut.of_levels
  intro other hother
  rw [make_eq_assign, ← hlevels]
  exact ((assign_sameBut call.asked _).1 other hother).1

/-- The package's own handler is put behind the others when records are to be shown and are not yet,
also if the call fails. -/
theorem Call.make_handlers (call : Call) (s : Loggers) :
    (call.make s).2.handlers =
      s.handlers ++ if call.shows && !s.isShown then [.own] else [] := by
  rw [make_eq_assign, (assign_sameBut call.asked _).2, attach]
  by_cases hshows : call.shows = true
  · by_cases hshown : s.isShown = true <;> simp [hshows, hshown]
  · simp [hshows]

/-! ## Runs -/

theorem afterCalls_concat (s : Loggers) (calls : List Call) (call : Call) :
    afterCalls s (calls ++ [call]) = (call.make (afterCalls s calls)).2 := by
  rw [afterCalls, List.foldl_append]
  rfl

/-- The handlers after a run that starts without the package's own: it is the last one, from the first
call on that shows records. -/
theorem afterCalls_handlers (hstart : s.isShown = false) (calls : List Call) :
    (afterCalls s calls).handlers =
      s.handlers ++ if calls.any Call.shows then [.own] else [] := by
  induction calls using List.reverseRecOn with
  | nil => simp [afterCalls]
  | append_singleton calls call ih =>
    have hshown : (afterCalls s calls).isShown = calls.any Call.shows := by
      have hnone : s.handlers.contains .own = false := hstart
      rw [isShown, ih]
      split_ifs with hany <;> simp_all
    rw [afterCalls_concat, Call.make_handlers, ih, hshown]
    -- the handler comes with the first such call, and is there for all others
    cases hany : calls.any Call.shows <;> simp [hany]

/-- A logger that no call of a run addresses is as it was. -/
theorem afterCalls_sameBut (calls : List Call) (hother : ∀ call ∈ calls, call.addressee ≠ logger) :
    (afterCalls s calls).levels.get? logger = s.levels.get? logger ∧
      (afterCalls s calls).level logger = s.level logger := by
  induction calls using List.reverseRecOn with
  | nil => exact ⟨rfl, rfl⟩
  | append_singleton calls call ih =>
    obtain ⟨hlevels, hlevel⟩ := ih fun earlier hmem => hother earlier (List.mem_append_left _ hmem)
    have hcall := Call.make_sameBut call (afterCalls s calls) logger
      (hother call (List.mem_append_right _ List.mem_cons_self)).symm
    rw [afterCalls_concat]
    exact ⟨hcall.1.trans hlevels, hcall.2.trans hlevel⟩

end

/-- What any calls have done that follow one another, whether they fail or not. The package has no
handler of its own before the first call that configures it and one ever after, behind those of
others, which stay in their places; setting a component attaches none. A call leaves alone every
logger but the one that it addresses, which is the package or inside of it, so a run never reaches
any other. A component is addressed by its full name too, and a name that only looks like one inside
of the package is put there like any other. -/
theorem calls_reach (levels : Ledger String LevelNumber) (others : List Nat) (calls : List Call) :
    let start : Loggers := ⟨levels, others.map .foreign⟩
    let s := afterCalls start calls
    (s.handlers = others.map .foreign ++ (if calls.any Call.shows then [.own] else []) ∧
      s.handlers.count .own = if calls.any Call.shows then 1 else 0) ∧
    (∀ verbose level,
      (s.configure verbose level).2.handlers = others.map .foreign ++ [.own] ∧
      SameBut package s (s.configure verbose level).2) ∧
    (∀ component level,
      (s.setComponent component level).2.handlers = s.handlers ∧
      SameBut (componentLogger component) s (s.setComponent component level).2) ∧
    (∀ logger, ¬ InPackage logger →
      s.levels.get? logger = levels.get? logger ∧ s.level logger = start.level logger) ∧
    ∀ component,
      InPackage (componentLogger component) ∧
      componentLogger (componentLogger component) = componentLogger component ∧
      (¬ InPackage component →
        componentLogger component = package ++ "." ++ component ∧
        componentLogger component = componentLogger (package ++ "." ++ component)) := by
  intro start s
  have hstart : start.isShown = false := by simp [start, isShown]
  have hhandlers := afterCalls_handlers hstart
  refine ⟨⟨hhandlers calls, ?_⟩, ?_, ?_, ?_, ?_⟩
  · rw [show s.handlers = _ from hhandlers calls, List.count_append]
    have hforeign : start.handlers.count .own = 0 := by simp [start, List.count_eq_zero]
    rw [hforeign]
    split_ifs <;> rfl
  · intro verbose level
    refine ⟨?_, Call.make_sameBut (.configure verbose level) s⟩
    -- the call is one more of the run
    have hmore := hhandlers (calls ++ [.configure verbose level])
    rw [afterCalls_concat, Call.make_configure, List.any_append] at hmore
    simpa [Call.shows, start] using hmore
  · intro component level
    refine ⟨?_, Call.make_sameBut (.component component level) s⟩
    have hcall := Call.make_handlers (.component component level) s
    simpa [Call.shows] using hcall
  · -- every logger that is addressed is in the package
    intro logger houtside
    apply afterCalls_sameBut
    rintro call - rfl
    exact houtside call.inPackage_addressee
  · intro component
    refine ⟨inPackage_componentLogger component, ?_, ?_⟩
    · exact componentLogger_of_inPackage (inPackage_componentLogger component)
    · intro houtside
      have hinside := componentLogger_of_inPackage (inPackage_append component)
      rw [hinside]
      exact ⟨componentLogger_of_not_inPackage houtside, componentLogger_of_not_inPackage houtside⟩

/-- The first call that configures the package fails over its level and has put the handler there; the
second one finds it. What looks like the package is a component of it. -/
theorem calls_reach_sample :
    let calls : List Call :=
      [.component "bindgenx" (.int 10), .configure true (.text "basic_format"),
        .component "bindgen." (.text "Info"), .configure false .null]
    let start : Loggers := ⟨[("bindgenx", .int 40)], [.foreign 7, .foreign 7]⟩
    let s := afterCalls start calls
    (start.configure true (.text "basic_format")).1 =
        .error (.unknownName "%(levelname)s:%(name)s:%(message)s") ∧
      s.handlers = [.foreign 7, .foreign 7, .own] ∧ s.level "bindgenx" = .int 40 ∧
      s.level "bindgen.bindgenx" = .int 10 ∧
      componentLogger "bindgenx" = componentLogger "bindgen.bindgenx" := by
  intro calls start s
  have hlookalike : ¬ InPackage "bindgenx" := by decide +kernel
  obtain ⟨⟨hhandlers, -⟩, -, -, houtside, hnames⟩ :=
    calls_reach [("bindgenx", .int 40)] [7, 7] calls
  refine ⟨by decide +kernel, hhandlers, (houtside "bindgenx" hlookalike).2, by decide +kernel, ?_⟩
  exact ((hnames "bindgenx").2.2 hlookalike).2

end Bindery.Loggers
