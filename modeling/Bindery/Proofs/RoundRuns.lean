import Bindery.Rounds
import Mathlib.Tactic

/-!
# Runs of rounds

A run is a sequence of calls of `Processor.process`, some of which may fail. All that happens in one
is a sequence of calls of steps, and `Calls` says what a single one of them can do to the run.
`process_induction` carries over to whole runs what each call keeps:

* a flag once set stays set, and it is set exactly when a call of the step answered with something
  true (`Recorded`);
* so a step that has said that it is done is not called again.

What a step has handled is then known round by round (`handledBy_processAll`), and a run without
failures hands a step every round until it is done (`runs_safely`).
-/

namespace Bindery

variable {α ω ε : Type}

/-! ## Calls and their record -/

namespace Call

/-- Whether a call hands a round to a step. -/
def handles (i : Nat) : Call α ε → Bool
  | .handled j _ _ => j == i
  | .finished _ _ _ => false

/-- Whether a step says in a call that it is done. -/
def settles (i : Nat) : Call α ε → Bool
  | .handled j _ (.ok value) => j == i && value.truthy
  | .handled _ _ (.error _) | .finished _ _ _ => false

/-- The round that a step is handed in a call, with its answer. -/
def handled? (i : Nat) : Call α ε → Option (Round α × Except ε Value)
  | .handled j round answer => if j = i then some (round, answer) else none
  | .finished _ _ _ => none

end Call

/-- The rounds that a step was handed, with its answers, oldest first. -/
def Run.handledBy (i : Nat) (run : Run α ω ε) : List (Round α × Except ε Value) :=
  run.calls.filterMap (Call.handled? i)

theorem Run.handledBy_record (i : Nat) (call : Call α ε) (world : ω) (run : Run α ω ε) :
    (run.record call world).handledBy i = run.handledBy i ++ (call.handled? i).toList := by
  unfold Run.handledBy
  rw [Run.record_calls, List.filterMap_append]
  rfl

theorem Run.handledBy_setDone (i j : Nat) (flag : Bool) (run : Run α ω ε) :
    (run.setDone j flag).handledBy i = run.handledBy i := rfl

/-- Whether an answer says that the step is done. -/
def isDoneAnswer : Except ε Value → Bool
  | .ok value => value.truthy
  | .error _ => false

namespace Processor

/-- What one call of a step does to a run, in a round. -/
inductive Calls (p : Processor α ω ε) (round : Round α) : Run α ω ε → Run α ω ε → Prop
  /-- A step that is not done is handed the round, and answers. -/
  | answered {run : Run α ω ε} {i : Nat} {value : Value} {world : ω} : run.done i = false →
      (p.step i).handle round run.world = (.ok value, world) →
      Calls p round run
        ((run.record (.handled i round (.ok value)) world).setDone i value.truthy)
  /-- A step that is not done is handed the round, and fails. -/
  | raised {run : Run α ω ε} {i : Nat} {error : ε} {world : ω} : run.done i = false →
      (p.step i).handle round run.world = (.error error, world) →
      Calls p round run (run.record (.handled i round (.error error)) world)
  /-- A step is told to finish. -/
  | finished {run : Run α ω ε} {i : Nat} {outcome : Except ε Unit} {world : ω} :
      (p.step i).finish round run.world = (outcome, world) →
      Calls p round run (run.record (.finished i round outcome) world)

/-- A step that is done is passed over. -/
theorem runStep_of_done {p : Processor α ω ε} {round : Round α} {i : Nat} {run : Run α ω ε}
    (h : run.done i = true) : p.runStep round i run = (.ok true, run) := by
  rw [runStep, if_pos h]

/-- A step that is not done is handed the round. -/
theorem runStep_of_not_done (p : Processor α ω ε) (round : Round α) {i : Nat} {run : Run α ω ε}
    (h : run.done i = false) :
    (∃ value world, (p.step i).handle round run.world = (.ok value, world) ∧
      p.runStep round i run = (.ok value.truthy,
        (run.record (.handled i round (.ok value)) world).setDone i value.truthy)) ∨
    ∃ error world, (p.step i).handle round run.world = (.error error, world) ∧
      p.runStep round i run =
        (.error error, run.record (.handled i round (.error error)) world) := by
  rw [runStep, if_neg (by simp [h])]
  rcases (p.step i).handle round run.world with ⟨error | value, world⟩
  · exact .inr ⟨error, world, rfl, rfl⟩
  · exact .inl ⟨value, world, rfl, rfl⟩

/-! ## What each call keeps is kept -/

section

variable {p : Processor α ω ε} {round : Round α} {P : Run α ω ε → Prop}

theorem runStep_induction (hcall : ∀ run run', p.Calls round run run' → P run → P run') {i : Nat}
    {run : Run α ω ε} (h : P run) : P (p.runStep round i run).2 := by
  cases hdone : run.done i with
  | true => rwa [runStep_of_done hdone]
  | false =>
    rcases runStep_of_not_done p round hdone with
      ⟨value, world, hhandle, hstep⟩ | ⟨error, world, hhandle, hstep⟩
    · rw [hstep]
      exact hcall _ _ (.answered hdone hhandle) h
    · rw [hstep]
      exact hcall _ _ (.raised hdone hhandle) h

theorem runAll_induction (hcall : ∀ run run', p.Calls round run run' → P run → P run')
    {order : List Nat} {run : Run α ω ε} (h : P run) : P (p.runAll round order run).2 := by
  induction order generalizing run with
  | nil => exact h
  | cons i rest ih =>
    have hfirst : P (p.runStep round i run).2 := runStep_induction hcall h
    rw [runAll]
    rcases hstep : p.runStep round i run with ⟨error | first, run₁⟩
    · rwa [hstep] at hfirst
    · rw [hstep] at hfirst
      have hrest := ih hfirst
      rcases hall : p.runAll round rest run₁ with ⟨error | others, run₂⟩ <;>
        simpa only [hall] using hrest

theorem finishAll_induction (hcall : ∀ run run', p.Calls round run run' → P run → P run')
    {order : List Nat} {run : Run α ω ε} (h : P run) : P (p.finishAll round order run).2 := by
  induction order generalizing run with
  | nil => exact h
  | cons i rest ih =>
    rw [finishAll]
    rcases hfinish : (p.step i).finish round run.world with ⟨error | _, world⟩
    · exact hcall _ _ (.finished hfinish) h
    · exact ih (hcall _ _ (.finished hfinish) h)

/-- What each call of a step keeps, a round keeps. -/
theorem process_induction (hcall : ∀ run run', p.Calls round run run' → P run → P run')
    {run : Run α ω ε} (h : P run) : P (p.process round run).2 := by
  rw [process]
  cases round.buildInfo with
  | none => exact h
  | some info =>
    have hall : P (p.runAll round p.order run).2 := runAll_induction hcall h
    rcases hrun : p.runAll round p.order run with ⟨error | done, run₁⟩
    · rwa [hrun] at hall
    · rw [hrun] at hall
      have hover : P (p.finishAll round p.order run₁).2 := finishAll_induction hcall hall
      cases round.isOver with
      | false => exact hall
      | true =>
        rcases hfinish : p.finishAll round p.order run₁ with ⟨error | _, run₂⟩ <;>
          simpa only [hfinish, if_true] using hover

end

/-- The run after some rounds, failures among them or not. -/
def processAll (p : Processor α ω ε) (rounds : List (Round α)) (run : Run α ω ε) : Run α ω ε :=
  rounds.foldl (fun run round => (p.process round run).2) run

theorem processAll_append (p : Processor α ω ε) (earlier later : List (Round α))
    (run : Run α ω ε) :
    p.processAll (earlier ++ later) run = p.processAll later (p.processAll earlier run) := by
  unfold processAll
  exact List.foldl_append

/-- What each call of a step keeps, a run keeps. -/
theorem processAll_induction {p : Processor α ω ε} {P : Run α ω ε → Prop}
    (hcall : ∀ round run run', p.Calls round run run' → P run → P run') {rounds : List (Round α)}
    {run : Run α ω ε} (h : P run) : P (p.processAll rounds run) := by
  induction rounds generalizing run with
  | nil => exact h
  | cons round rest ih =>
    show P (p.processAll rest (p.process round run).2)
    exact ih (process_induction (hcall round) h)

/-! ## Flags -/

/-- No call takes a flag back. -/
theorem Calls.done_mono {p : Processor α ω ε} {round : Round α} {run run' : Run α ω ε} {j : Nat}
    (h : p.Calls round run run') (hdone : run.done j = true) : run'.done j = true := by
  cases h with
  | answered hnot _ =>
    -- the one flag that is written was not set
    rw [Run.setDone_done]
    split
    · next hj => simp [hj, hnot] at hdone
    · exact hdone
  | raised _ _ => exact hdone
  | finished _ => exact hdone

end Processor

/-- The flags agree with the calls made: a step is done exactly when it has said so, and it has not
been called again since. -/
structure Recorded (run : Run α ω ε) : Prop where
  done_eq : ∀ i, run.done i = run.calls.any (Call.settles i)
  not_again : ∀ i, run.calls.Pairwise fun earlier later =>
    earlier.settles i = true → later.handles i = false

theorem Recorded.fresh (world : ω) : Recorded (Run.fresh world : Run α ω ε) where
  done_eq _ := rfl
  not_again _ := List.Pairwise.nil

private theorem not_done_of_handles {run : Run α ω ε} {i : Nat} {round : Round α}
    {answer : Except ε Value} (hnot : run.done i = false) (j : Nat)
    (hhandles : (Call.handled i round answer).handles j = true) : run.done j = false := by
  have hj : i = j := by simpa [Call.handles] using hhandles
  rwa [← hj]

/-- A call that is made of no step that is done keeps the record in order. -/
private theorem Recorded.pairwise_append {run : Run α ω ε} (h : Recorded run) {call : Call α ε}
    (hnot : ∀ i, call.handles i = true → run.done i = false) (i : Nat) :
    (run.calls ++ [call]).Pairwise fun earlier later =>
      earlier.settles i = true → later.handles i = false := by
  rw [List.pairwise_append]
  refine ⟨h.not_again i, List.pairwise_singleton _ _, ?_⟩
  intro earlier hearlier later hlater hsettles
  rw [List.mem_singleton.mp hlater]
  by_contra hhandles
  have hdone : run.done i = true := by
    rw [h.done_eq, List.any_eq_true]
    exact ⟨earlier, hearlier, hsettles⟩
  rw [hnot i (by simpa using hhandles)] at hdone
  contradiction

/-- Every call keeps the flags in agreement with the calls. -/
theorem Recorded.of_calls {p : Processor α ω ε} {round : Round α} {run run' : Run α ω ε}
    (hcalls : p.Calls round run run') (h : Recorded run) : Recorded run' := by
  cases hcalls with
  | @answered i value world hnot _ =>
    constructor
    · intro j
      rw [Run.setDone_done, Run.setDone_calls, Run.record_done, Run.record_calls, List.any_append,
        ← h.done_eq j]
      by_cases hj : j = i
      · simp [hj, hnot, Call.settles]
      · simp [hj, Ne.symm hj, Call.settles]
    · exact h.pairwise_append (not_done_of_handles hnot)
  | @raised i error world hnot _ =>
    constructor
    · intro j
      rw [Run.record_done, Run.record_calls, List.any_append, ← h.done_eq j]
      simp [Call.settles]
    · exact h.pairwise_append (not_done_of_handles hnot)
  | finished _ =>
    constructor
    · intro j
      rw [Run.record_done, Run.record_calls, List.any_append, ← h.done_eq j]
      simp [Call.settles]
    · apply h.pairwise_append
      intro j hhandles
      simp [Call.handles] at hhandles

/-- The flag of a step is told by the answers it has given. -/
theorem Recorded.done_eq_handledBy {run : Run α ω ε} (h : Recorded run) (i : Nat) :
    run.done i = (run.handledBy i).any (fun call => isDoneAnswer call.2) := by
  rw [h.done_eq, Run.handledBy, List.any_filterMap]
  congr 1
  funext call
  cases call with
  | handled j round answer =>
    by_cases hj : j = i <;> cases answer <;>
      simp [Call.settles, Call.handled?, isDoneAnswer, hj]
  | finished j round outcome => rfl

/-- Whatever its steps do, the flags of a run agree with the calls it has made. -/
theorem Processor.recorded_processAll (p : Processor α ω ε) (world : ω) (rounds : List (Round α)) :
    Recorded (p.processAll rounds (.fresh world)) := by
  apply processAll_induction
  · intro round run run' hcalls
    exact Recorded.of_calls hcalls
  · exact Recorded.fresh world

namespace Processor

/-! ## After a round in which all steps were done -/

/-- The calls that tell steps to finish, with the failure that ended them if there was one. -/
theorem finishAll_spec (p : Processor α ω ε) (round : Round α) (order : List Nat)
    (run : Run α ω ε) :
    (p.finishAll round order run).2.done = run.done ∧
      ∃ made, (p.finishAll round order run).2.calls = run.calls ++ made ∧
        (∀ call ∈ made, ∃ i outcome, call = .finished i round outcome) ∧
        ((p.finishAll round order run).1 = .ok () ∨
          ∃ i error, (p.finishAll round order run).1 = .error error ∧
            .finished i round (.error error) ∈ made) := by
  induction order generalizing run with
  | nil =>
    refine ⟨rfl, [], ?_, ?_, .inl rfl⟩
    · rw [List.append_nil]
      rfl
    · intro call hcall
      contradiction
  | cons i rest ih =>
    rw [finishAll]
    rcases (p.step i).finish round run.world with ⟨error | _, world⟩
    · refine ⟨rfl, [.finished i round (.error error)], rfl, ?_, .inr ⟨i, error, rfl, ?_⟩⟩
      · intro call hcall
        exact ⟨i, .error error, List.mem_singleton.mp hcall⟩
      · exact List.mem_singleton_self _
    · obtain ⟨hdone, made, hcalls, hkind, hend⟩ := ih (run.record (.finished i round (.ok ())) world)
      refine ⟨hdone, .finished i round (.ok ()) :: made, ?_, ?_, ?_⟩
      · show (p.finishAll round rest _).2.calls = _
        rw [hcalls, Run.record_calls, List.append_assoc]
        rfl
      · intro call hcall
        rcases List.mem_cons.mp hcall with rfl | hcall
        · exact ⟨i, .ok (), rfl⟩
        · exact hkind call hcall
      · rcases hend with hok | ⟨j, error, hfail, hmem⟩
        · exact .inl hok
        · exact .inr ⟨j, error, hfail, List.mem_cons_of_mem _ hmem⟩

/-- Steps that are done are passed over, all of them. -/
theorem runAll_of_all_done {p : Processor α ω ε} {round : Round α} {order : List Nat}
    {run : Run α ω ε} (h : ∀ i ∈ order, run.done i = true) :
    p.runAll round order run = (.ok true, run) := by
  induction order with
  | nil => rfl
  | cons i rest ih =>
    have hrest : p.runAll round rest run = (.ok true, run) :=
      ih fun j hj => h j (List.mem_cons_of_mem i hj)
    rw [runAll, runStep_of_done (h i List.mem_cons_self)]
    simp only [hrest, Bool.and_self]

/-- The answer of a step is the flag it leaves. -/
theorem done_of_runStep_ok {p : Processor α ω ε} {round : Round α} {i : Nat} {run : Run α ω ε}
    {flag : Bool} (h : (p.runStep round i run).1 = .ok flag) :
    (p.runStep round i run).2.done i = flag := by
  cases hdone : run.done i with
  | true =>
    rw [runStep_of_done hdone] at h ⊢
    rw [hdone]
    exact Except.ok.inj h
  | false =>
    rcases runStep_of_not_done p round hdone with
      ⟨value, world, _, hstep⟩ | ⟨error, world, _, hstep⟩
    · rw [hstep] at h ⊢
      rw [Run.setDone_done, if_pos rfl]
      exact Except.ok.inj h
    · rw [hstep] at h
      contradiction

/-- A list of steps that runs through runs its first step through, and then the others. -/
theorem runAll_cons_ok {p : Processor α ω ε} {round : Round α} {i : Nat} {rest : List Nat}
    {run : Run α ω ε} {flag : Bool} (h : (p.runAll round (i :: rest) run).1 = .ok flag) :
    ∃ first others run₁, p.runStep round i run = (.ok first, run₁) ∧
      (p.runAll round rest run₁).1 = .ok others ∧ flag = (first && others) ∧
      (p.runAll round (i :: rest) run).2 = (p.runAll round rest run₁).2 := by
  rw [runAll] at h ⊢
  rcases hstep : p.runStep round i run with ⟨error | first, run₁⟩
  · rw [hstep] at h
    contradiction
  rcases hall : p.runAll round rest run₁ with ⟨error | others, run₂⟩
  · simp only [hstep, hall] at h
    contradiction
  · simp only [hstep, hall, Except.ok.injEq] at h
    refine ⟨first, others, run₁, rfl, ?_, h.symm, ?_⟩
    · rw [hall]
    · simp only [hall]

/-- When the steps of a list answer that all of them are done, all of them are. -/
theorem all_done_of_runAll_true {p : Processor α ω ε} {round : Round α} {order : List Nat}
    {run : Run α ω ε} (h : (p.runAll round order run).1 = .ok true) :
    ∀ i ∈ order, (p.runAll round order run).2.done i = true := by
  induction order generalizing run with
  | nil =>
    intro i hi
    contradiction
  | cons i rest ih =>
    obtain ⟨first, others, run₁, hfirst, hothers, hflag, hrun⟩ := runAll_cons_ok h
    obtain ⟨rfl, rfl⟩ : first = true ∧ others = true := by simpa using hflag.symm
    rw [hrun]
    intro j hj
    rcases List.mem_cons.mp hj with rfl | hj
    · -- the first step is done, and the others do not take that back
      have hdone : run₁.done j = true := by
        have hstep : (p.runStep round j run).1 = .ok true := by rw [hfirst]
        have hleft := done_of_runStep_ok hstep
        rwa [hfirst] at hleft
      exact runAll_induction (fun _ _ hcall => hcall.done_mono) hdone
    · exact ih hothers j hj

/-- A round that goes through runs its steps through, and what it does after them leaves the flags
and the answers of the steps. -/
theorem process_ok {p : Processor α ω ε} {round : Round α} {run : Run α ω ε} {flag : Bool}
    (hinfo : round.buildInfo.isSome = true) (h : (p.process round run).1 = .ok flag) :
    (p.runAll round p.order run).1 = .ok flag ∧
      (p.process round run).2.done = (p.runAll round p.order run).2.done ∧
      ∀ i, (p.process round run).2.handledBy i = (p.runAll round p.order run).2.handledBy i := by
  obtain ⟨info, hinfo⟩ := Option.isSome_iff_exists.mp hinfo
  rw [process, hinfo] at h ⊢
  rcases hall : p.runAll round p.order run with ⟨error | answer, run₁⟩
  · simp only [hall] at h
    contradiction
  cases hover : round.isOver with
  | false =>
    simp only [hall, hover] at h ⊢
    exact ⟨h, rfl, fun _ => rfl⟩
  | true =>
    -- telling the steps to finish adds calls that hand the round to none of them
    obtain ⟨hdone, made, hcalls, hkind, _⟩ := p.finishAll_spec round p.order run₁
    have hhandled : ∀ i, (p.finishAll round p.order run₁).2.handledBy i = run₁.handledBy i := by
      intro i
      unfold Run.handledBy
      rw [hcalls, List.filterMap_append, List.append_right_eq_self, List.filterMap_eq_nil_iff]
      intro call hcall
      obtain ⟨j, outcome, rfl⟩ := hkind call hcall
      rfl
    rcases hfinish : p.finishAll round p.order run₁ with ⟨error | _, run₂⟩
    · simp [hall, hover, hfinish] at h
    · rw [hfinish] at hdone hhandled
      simp only [hall, hover, hfinish, if_true] at h ⊢
      exact ⟨h, hdone, hhandled⟩

/-- Once a round has answered that all steps are done, a later one hands itself to no step and
answers the same, unless a step fails to finish. -/
theorem process_of_all_done {p : Processor α ω ε} {round : Round α} {run : Run α ω ε}
    (hinfo : round.buildInfo.isSome = true) (h : ∀ i ∈ p.order, run.done i = true) :
    ∃ made, (p.process round run).2.calls = run.calls ++ made ∧
      (∀ call ∈ made, ∃ i outcome, call = .finished i round outcome) ∧
      ((p.process round run).1 = .ok true ∨
        ∃ i error, (p.process round run).1 = .error error ∧
          .finished i round (.error error) ∈ made) := by
  obtain ⟨info, hinfo⟩ := Option.isSome_iff_exists.mp hinfo
  rw [process, hinfo, runAll_of_all_done h]
  cases hover : round.isOver with
  | false =>
    refine ⟨[], ?_, ?_, .inl rfl⟩
    · rw [List.append_nil]
      rfl
    · intro call hcall
      contradiction
  | true =>
    obtain ⟨_, made, hcalls, hkind, hend⟩ := p.finishAll_spec round p.order run
    rcases hfinish : p.finishAll round p.order run with ⟨error | _, run₁⟩
    · rw [hfinish] at hcalls hend
      simp only [hfinish, if_true]
      refine ⟨made, hcalls, hkind, .inr ?_⟩
      simpa using hend
    · rw [hfinish] at hcalls
      simp only [hfinish, if_true]
      exact ⟨made, hcalls, hkind, .inl trivial⟩

/-! ## What a step is handed -/

theorem runStep_other (p : Processor α ω ε) (round : Round α) {i j : Nat} (hij : i ≠ j)
    (run : Run α ω ε) :
    (p.runStep round i run).2.done j = run.done j ∧
      (p.runStep round i run).2.handledBy j = run.handledBy j := by
  cases hdone : run.done i with
  | true =>
    rw [runStep_of_done hdone]
    exact ⟨rfl, rfl⟩
  | false =>
    rcases runStep_of_not_done p round hdone with
      ⟨value, world, _, hstep⟩ | ⟨error, world, _, hstep⟩
    · rw [hstep, Run.handledBy_setDone, Run.handledBy_record, Run.setDone_done, if_neg hij.symm]
      simp [Call.handled?, hij]
    · rw [hstep, Run.handledBy_record]
      simp [Call.handled?, hij]

/-- A round that goes through leaves alone the steps that are not in the list and those that are
done. -/
theorem runAll_leaves {p : Processor α ω ε} {round : Round α} {order : List Nat}
    {run : Run α ω ε} {flag : Bool} {j : Nat} (hok : (p.runAll round order run).1 = .ok flag)
    (hleave : j ∈ order → run.done j = true) :
    (p.runAll round order run).2.done j = run.done j ∧
      (p.runAll round order run).2.handledBy j = run.handledBy j := by
  induction order generalizing run flag with
  | nil => exact ⟨rfl, rfl⟩
  | cons i rest ih =>
    obtain ⟨first, others, run₁, hfirst, hothers, _, hrun⟩ := runAll_cons_ok hok
    have hstep : run₁.done j = run.done j ∧ run₁.handledBy j = run.handledBy j := by
      -- the step itself is first in the list only if it is done, and then it is passed over
      by_cases hij : i = j
      · rw [runStep_of_done (hij ▸ hleave (hij ▸ List.mem_cons_self))] at hfirst
        cases hfirst
        exact ⟨rfl, rfl⟩
      · have hother := runStep_other p round hij run
        rwa [hfirst] at hother
    have hrest := ih hothers (fun hj => hstep.1 ▸ hleave (List.mem_cons_of_mem i hj))
    rw [hrun, hrest.1, hrest.2]
    exact hstep

/-- A round that goes through is handed once to each step of the list that is not done. -/
theorem runAll_hands {p : Processor α ω ε} {round : Round α} {order : List Nat}
    {run : Run α ω ε} {flag : Bool} {j : Nat} (hok : (p.runAll round order run).1 = .ok flag)
    (hnodup : order.Nodup) (hj : j ∈ order) (hnot : run.done j = false) :
    ∃ value, (p.runAll round order run).2.done j = value.truthy ∧
      (p.runAll round order run).2.handledBy j = run.handledBy j ++ [(round, .ok value)] := by
  induction order generalizing run flag with
  | nil => contradiction
  | cons i rest ih =>
    obtain ⟨first, others, run₁, hfirst, hothers, _, hrun⟩ := runAll_cons_ok hok
    obtain ⟨hi, hnodup⟩ := List.nodup_cons.mp hnodup
    by_cases hij : i = j
    · subst hij
      -- the step is not in the rest of the list, which leaves it as it is now
      obtain ⟨hdone, hhandled⟩ := runAll_leaves hothers (fun hj => absurd hj hi)
      rw [hrun, hdone, hhandled]
      rcases runStep_of_not_done p round hnot with
        ⟨value, world, _, hstep⟩ | ⟨error, world, _, hstep⟩
      · rw [hstep] at hfirst
        cases hfirst
        refine ⟨value, ?_, ?_⟩
        · rw [Run.setDone_done, if_pos rfl]
        · rw [Run.handledBy_setDone, Run.handledBy_record]
          simp [Call.handled?]
      · rw [hstep] at hfirst
        cases hfirst
    · have hother := runStep_other p round hij run
      rw [hfirst] at hother
      obtain ⟨value, hdone, hhandled⟩ :=
        ih hothers hnodup (List.mem_of_ne_of_mem (Ne.symm hij) hj) (hother.1.trans hnot)
      refine ⟨value, ?_, ?_⟩
      · rw [hrun, hdone]
      · rw [hrun, hhandled, hother.2]

end Processor

/-- Whether the calls of a step are what it should be handed of the rounds given: each of them in
order, up to the first for which the step answers that it is done. -/
def HandledUntilDone : List (Round α) → List (Round α × Except ε Value) → Prop
  | [], handled => handled = []
  | round :: given, handled => ∃ value rest, handled = (round, .ok value) :: rest ∧
      if value.truthy then rest = [] else HandledUntilDone given rest

namespace HandledUntilDone

variable {given : List (Round α)} {handled : List (Round α × Except ε Value)} {round : Round α}

/-- A step that is done needs no further round. -/
theorem append_of_done (h : HandledUntilDone given handled)
    (hdone : handled.any (fun call => isDoneAnswer call.2) = true) :
    HandledUntilDone (given ++ [round]) handled := by
  induction given generalizing handled with
  | nil =>
    rw [show handled = [] from h] at hdone
    contradiction
  | cons first given ih =>
    obtain ⟨value, rest, rfl, hrest⟩ := h
    refine ⟨value, rest, rfl, ?_⟩
    cases hvalue : value.truthy with
    | true =>
      rw [hvalue] at hrest
      exact hrest
    | false =>
      rw [hvalue] at hrest
      apply ih hrest
      simpa [isDoneAnswer, hvalue] using hdone

/-- A step that is not done is handed the next round. -/
theorem append_of_not_done (h : HandledUntilDone given handled)
    (hnot : handled.any (fun call => isDoneAnswer call.2) = false) (value : Value) :
    HandledUntilDone (given ++ [round]) (handled ++ [(round, .ok value)]) := by
  induction given generalizing handled with
  | nil =>
    rw [show handled = [] from h]
    refine ⟨value, [], rfl, ?_⟩
    split <;> rfl
  | cons first given ih =>
    obtain ⟨answer, rest, rfl, hrest⟩ := h
    rw [List.any_cons, Bool.or_eq_false_iff] at hnot
    have hanswer : answer.truthy = false := hnot.1
    rw [hanswer] at hrest
    refine ⟨answer, rest ++ [(round, .ok value)], rfl, ?_⟩
    rw [hanswer]
    exact ih hrest hnot.2

end HandledUntilDone

namespace Processor

variable {p : Processor α ω ε}

/-- A run without failures hands a step the rounds with build information, up to the one in which
the step is done. -/
theorem handledBy_processAll (hnodup : p.order.Nodup) {i : Nat} (hi : i ∈ p.order)
    (rounds : List (Round α)) (world : ω)
    (hok : ∀ earlier round later, rounds = earlier ++ round :: later →
      ∃ flag, (p.process round (p.processAll earlier (.fresh world))).1 = .ok flag) :
    HandledUntilDone (rounds.filter (·.buildInfo.isSome))
      ((p.processAll rounds (.fresh world)).handledBy i) := by
  induction rounds using List.reverseRecOn with
  | nil => rfl
  | append_singleton rounds round ih =>
    have hhandled := ih fun earlier first later hrounds =>
      hok earlier first (later ++ [round]) (by rw [hrounds]; simp)
    have hrecorded := (p.recorded_processAll world rounds).done_eq_handledBy i
    obtain ⟨flag, hflag⟩ := hok rounds round [] rfl
    rw [processAll_append, List.filter_append]
    show HandledUntilDone _ ((p.process round (p.processAll rounds (.fresh world))).2.handledBy i)
    -- from here on only the run before the last round matters
    generalize p.processAll rounds (.fresh world) = run at *
    cases hinfo : round.buildInfo.isSome with
    | false =>
      rw [Option.isSome_eq_false_iff, Option.isNone_iff_eq_none] at hinfo
      simpa [process, hinfo] using hhandled
    | true =>
      obtain ⟨hall, _, hsame⟩ := process_ok hinfo hflag
      have hgiven : [round].filter (·.buildInfo.isSome) = [round] := by
        rw [List.filter_singleton, hinfo, cond_true]
      rw [hsame, hgiven]
      cases hdone : run.done i with
      | true =>
        rw [(runAll_leaves hall fun _ => hdone).2]
        exact hhandled.append_of_done (hrecorded ▸ hdone)
      | false =>
        obtain ⟨value, _, hvalue⟩ := runAll_hands hall hnodup hi hdone
        rw [hvalue]
        exact hhandled.append_of_not_done (hrecorded ▸ hdone) value

/-- What runs of rounds guarantee, whatever the steps do in them. The flag of a step is never taken
back, and a step that has said that it is done is not called again. Once a round has answered that
all steps are done, a later one with build information hands itself to no step and answers the
same, unless a step fails to finish. As long as nothing fails, each of several different steps is
handed every round with build information, once and in order, up to the one in which it is done. -/
theorem runs_safely (p : Processor α ω ε) (world : ω) (rounds : List (Round α)) :
    ((∀ round run i j, run.done j = true → (p.runStep round i run).2.done j = true) ∧
      ∀ earlier later i, rounds = earlier ++ later →
        (p.processAll earlier (.fresh world)).done i = true →
        (p.processAll rounds (.fresh world)).done i = true) ∧
    (∀ i, (p.processAll rounds (.fresh world)).calls.Pairwise fun earlier later =>
      earlier.settles i = true → later.handles i = false) ∧
    (∀ earlier round later next, rounds = earlier ++ round :: later →
      (p.process round (p.processAll earlier (.fresh world))).1 = .ok true →
      next.buildInfo.isSome = true →
      ∃ made, (p.process next (p.processAll rounds (.fresh world))).2.calls =
          (p.processAll rounds (.fresh world)).calls ++ made ∧
        (∀ call ∈ made, ∀ i, call.handles i = false) ∧
        ((p.process next (p.processAll rounds (.fresh world))).1 = .ok true ∨
          ∃ i error, (p.process next (p.processAll rounds (.fresh world))).1 = .error error ∧
            .finished i next (.error error) ∈ made)) ∧
    (p.order.Nodup →
      (∀ earlier round later, rounds = earlier ++ round :: later →
        ∃ flag, (p.process round (p.processAll earlier (.fresh world))).1 = .ok flag) →
      ∀ i ∈ p.order, HandledUntilDone (rounds.filter (·.buildInfo.isSome))
        ((p.processAll rounds (.fresh world)).handledBy i)) := by
  refine ⟨⟨?_, ?_⟩, (p.recorded_processAll world rounds).not_again, ?_, ?_⟩
  · intro round run i j hdone
    exact runStep_induction (fun _ _ hcall => hcall.done_mono) hdone
  · intro earlier later i hrounds hdone
    rw [hrounds, processAll_append]
    exact processAll_induction (fun _ _ _ hcall => hcall.done_mono) hdone
  · intro earlier round later next hrounds htrue hinfo
    have hdone : ∀ i ∈ p.order, (p.processAll rounds (.fresh world)).done i = true := by
      intro i hi
      rw [hrounds, processAll_append]
      show (p.processAll later (p.process round _).2).done i = true
      apply processAll_induction (fun _ _ _ hcall => hcall.done_mono)
      cases hround : round.buildInfo.isSome with
      | false =>
        rw [Option.isSome_eq_false_iff, Option.isNone_iff_eq_none] at hround
        simp [process, hround] at htrue
      | true =>
        obtain ⟨hall, hflags, _⟩ := process_ok hround htrue
        rw [hflags]
        exact all_done_of_runAll_true hall i hi
    obtain ⟨made, hcalls, hkind, hend⟩ := process_of_all_done hinfo hdone
    refine ⟨made, hcalls, ?_, hend⟩
    intro call hcall i
    obtain ⟨j, outcome, rfl⟩ := hkind call hcall
    rfl
  · intro hnodup hok i hi
    exact handledBy_processAll hnodup hi rounds world hok

end Processor

/-- Two steps of which neither can fail: each counts its calls, and the one numbered one is not done
before something has been counted. -/
def sampleProcessor : Processor Nat Nat Empty where
  step i := {
    handle := fun _ count => (.ok (.scalar (.bool (i ≤ count))), count + 1)
    finish := fun _ count => (.ok (), count) }
  order := [1, 0]

/-- A round of the example, with build information or without. -/
def sampleRound (element : Nat) (informed : Bool) : Round Nat :=
  ⟨[element], if informed then some ⟨"build", "", false⟩ else none, false⟩

/-- The second step is done in the first round and the first one in the third; the second round has
no build information, and the fourth is handed to neither. -/
theorem Processor.runs_safely_sample :
    let rounds := [sampleRound 1 true, sampleRound 2 false, sampleRound 3 true]
    let run := sampleProcessor.processAll rounds (.fresh 0)
    HandledUntilDone [sampleRound 1 true, sampleRound 3 true] (run.handledBy 1) ∧
      HandledUntilDone [sampleRound 1 true, sampleRound 3 true] (run.handledBy 0) ∧
      ∃ made, (sampleProcessor.process (sampleRound 4 true) run).2.calls = run.calls ++ made ∧
        ∀ call ∈ made, ∀ i, call.handles i = false := by
  intro rounds run
  obtain ⟨-, -, hafter, hhanded⟩ := Processor.runs_safely sampleProcessor 0 rounds
  have hok : ∀ earlier round later, rounds = earlier ++ round :: later →
      ∃ flag, (sampleProcessor.process round (sampleProcessor.processAll earlier (.fresh 0))).1 =
        .ok flag := by
    intro earlier round later _
    cases h : (sampleProcessor.process round (sampleProcessor.processAll earlier (.fresh 0))).1 with
    | error error => exact error.elim
    | ok flag => exact ⟨flag, rfl⟩
  refine ⟨hhanded (by decide) hok 1 (by decide), hhanded (by decide) hok 0 (by decide), ?_⟩
  obtain ⟨made, hcalls, hnone, -⟩ := hafter [sampleRound 1 true, sampleRound 2 false]
    (sampleRound 3 true) [] (sampleRound 4 true) rfl rfl rfl
  exact ⟨made, hcalls, hnone⟩

end Bindery
