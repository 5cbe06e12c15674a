import Bindery.Proofs.RoundRuns

/-!
# The trace of a round

A round comes to the occurrences of the steps in their order, twice if it is the last: to hand itself
to the steps that are not done, and to tell all of them to finish. What it does at an occurrence is a
`Turn`. The turns of a round, each fitting what the turns before it have left (`Traces`), say all
that the round does: the flags, the world and the calls are those that the turns make.

`process_trace` says which turns these are. They go through the whole order, or break off with the
first failure, which is then the failure of the round.
-/

namespace Bindery

variable {α ω ε : Type}

/-! ## Turns -/

/-- What a round does at an occurrence of a step. -/
inductive Turn (ε : Type) where
  /-- The step is done, and passed over. -/
  | passed (step : Nat)
  /-- The step is handed the round. -/
  | handed (step : Nat) (answer : Except ε Value)
  /-- The step is told to finish. -/
  | told (step : Nat) (outcome : Except ε Unit)

namespace Turn

/-- The step that the turn is about. -/
def step : Turn ε → Nat
  | passed i | handed i _ | told i _ => i

/-- Whether the turn is one of those that hand the round to the steps. -/
def isVisit : Turn ε → Bool
  | passed _ | handed _ _ => true
  | told _ _ => false

/-- The failure of the step. -/
def failure? : Turn ε → Option ε
  | handed _ (.error error) | told _ (.error error) => some error
  | passed _ | handed _ (.ok _) | told _ (.ok _) => none

/-- Whether the step is done, as far as the round is told. -/
def answer? : Turn ε → Option Bool
  | passed _ => some true
  | handed _ (.ok value) => some value.truthy
  | handed _ (.error _) | told _ _ => none

/-- The call that is made of the step. -/
def call? (round : Round α) : Turn ε → Option (Call α ε)
  | passed _ => none
  | handed i answer => some (.handled i round answer)
  | told i outcome => some (.finished i round outcome)

/-- The flags after a turn: an answer sets the flag of its step to what it counts as. -/
def mark (done : Nat → Bool) : Turn ε → Nat → Bool
  | handed i (.ok value) => fun j => if j = i then value.truthy else done j
  | passed _ | handed _ (.error _) | told _ _ => done

end Turn

/-- The flags after some turns. -/
def flagsAfter (done : Nat → Bool) (turns : List (Turn ε)) : Nat → Bool :=
  turns.foldl Turn.mark done

namespace Processor

/-- The world after a turn. -/
def worldAfterTurn (p : Processor α ω ε) (round : Round α) (world : ω) : Turn ε → ω
  | .passed _ => world
  | .handed i _ => ((p.step i).handle round world).2
  | .told i _ => ((p.step i).finish round world).2

/-- The world after some turns. -/
def worldAfter (p : Processor α ω ε) (round : Round α) (world : ω) (turns : List (Turn ε)) : ω :=
  turns.foldl (p.worldAfterTurn round) world

/-- Whether a turn is what comes of its step: a step that is done is passed over, any other is handed
the round, and what it answers, or how it finishes, is up to the step and the world. -/
def Fits (p : Processor α ω ε) (round : Round α) (done : Nat → Bool) (world : ω) :
    Turn ε → Prop
  | .passed i => done i = true
  | .handed i answer => done i = false ∧ ((p.step i).handle round world).1 = answer
  | .told i outcome => ((p.step i).finish round world).1 = outcome

/-- The turns that lead from one point of a run to another: each of them fits the flags and the world
that the turns before it have left, and nothing else has happened. -/
structure Traces (p : Processor α ω ε) (round : Round α) (before after : Run α ω ε)
    (turns : List (Turn ε)) : Prop where
  fits : ∀ earlier turn later, turns = earlier ++ turn :: later →
    p.Fits round (flagsAfter before.done earlier) (p.worldAfter round before.world earlier) turn
  done : after.done = flagsAfter before.done turns
  world : after.world = p.worldAfter round before.world turns
  calls : after.calls = before.calls ++ turns.filterMap (Turn.call? round)

section

variable {p : Processor α ω ε} {round : Round α} {before after last : Run α ω ε}
  {turns : List (Turn ε)}

theorem Traces.nil (p : Processor α ω ε) (round : Round α) (run : Run α ω ε) :
    p.Traces round run run [] where
  fits earlier turn later h := by simp at h
  done := rfl
  world := rfl
  calls := by simp

theorem Traces.singleton {turn : Turn ε} (hfits : p.Fits round before.done before.world turn)
    (hdone : after.done = turn.mark before.done)
    (hworld : after.world = p.worldAfterTurn round before.world turn)
    (hcalls : after.calls = before.calls ++ (turn.call? round).toList) :
    p.Traces round before after [turn] where
  fits earlier other later h := by
    obtain ⟨rfl, rfl, rfl⟩ : earlier = [] ∧ turn = other ∧ later = [] := by
      cases earlier <;> simp_all
    exact hfits
  done := hdone
  world := hworld
  calls := by
    rw [hcalls]
    cases h : turn.call? round <;> simp [h]

/-- Turns on end lead on. -/
theorem Traces.append {more : List (Turn ε)} (h : p.Traces round before after turns)
    (hmore : p.Traces round after last more) : p.Traces round before last (turns ++ more) where
  fits earlier turn later heq := by
    rcases List.append_eq_append_iff.mp heq with ⟨between, hearlier, hbetween⟩ | ⟨rest, hturns, hrest⟩
    · have hfits := hmore.fits between turn later hbetween
      rw [h.done, h.world] at hfits
      rw [hearlier]
      unfold flagsAfter worldAfter at *
      rwa [List.foldl_append, List.foldl_append]
    · cases rest with
      | nil =>
        have hfits := hmore.fits [] turn later hrest.symm
        rw [h.done, h.world, hturns, List.append_nil] at hfits
        exact hfits
      | cons first rest =>
        obtain ⟨rfl, -⟩ := List.cons_eq_cons.mp hrest
        exact h.fits earlier turn rest hturns
  done := by
    rw [hmore.done, h.done]
    exact List.foldl_append.symm
  world := by
    rw [hmore.world, h.world]
    exact List.foldl_append.symm
  calls := by
    rw [hmore.calls, h.calls, List.filterMap_append, List.append_assoc]

end

end Processor

/-! ## How far the turns go -/

/-- The turns go through an order of steps, and no step fails. -/
def Covers (order : List Nat) (turns : List (Turn ε)) : Prop :=
  turns.map Turn.step = order ∧ ∀ turn ∈ turns, turn.failure? = none

/-- The turns go through an order of steps up to the first failure. -/
def BreaksOff (order : List Nat) (error : ε) (turns : List (Turn ε)) : Prop :=
  turns.map Turn.step <+: order ∧
    ∃ earlier last, turns = earlier ++ [last] ∧ (∀ turn ∈ earlier, turn.failure? = none) ∧
      last.failure? = some error

section

variable {turn : Turn ε} {turns : List (Turn ε)} {order : List Nat} {error : ε}

theorem Covers.nil : Covers [] ([] : List (Turn ε)) :=
  ⟨rfl, List.forall_mem_nil _⟩

theorem Covers.cons (hturn : turn.failure? = none) (h : Covers order turns) :
    Covers (turn.step :: order) (turn :: turns) := by
  obtain ⟨horder, hnone⟩ := h
  exact ⟨by rw [List.map_cons, horder], List.forall_mem_cons.mpr ⟨hturn, hnone⟩⟩

theorem BreaksOff.head (order : List Nat) (hturn : turn.failure? = some error) :
    BreaksOff (turn.step :: order) error [turn] :=
  ⟨⟨order, rfl⟩, [], turn, rfl, List.forall_mem_nil _, hturn⟩

theorem BreaksOff.cons (hturn : turn.failure? = none) (h : BreaksOff order error turns) :
    BreaksOff (turn.step :: order) error (turn :: turns) := by
  obtain ⟨horder, earlier, last, rfl, hnone, hlast⟩ := h
  exact ⟨(List.prefix_cons_inj turn.step).mpr horder, turn :: earlier, last, rfl,
    List.forall_mem_cons.mpr ⟨hturn, hnone⟩, hlast⟩

end

namespace Processor

/-! ## The turns of a round -/

/-- A step is taken in one turn. -/
theorem runStep_turn (p : Processor α ω ε) (round : Round α) (i : Nat) (run : Run α ω ε) :
    ∃ turn : Turn ε, turn.step = i ∧ turn.isVisit = true ∧
      p.Traces round run (p.runStep round i run).2 [turn] ∧
      match (p.runStep round i run).1 with
      | .ok flag => turn.failure? = none ∧ turn.answer? = some flag
      | .error error => turn.failure? = some error := by
  cases hdone : run.done i with
  | true =>
    rw [runStep_of_done hdone]
    exact ⟨.passed i, rfl, rfl, .singleton hdone rfl rfl (by simp [Turn.call?]), rfl, rfl⟩
  | false =>
    rcases runStep_of_not_done p round hdone with
      ⟨value, world, hhandle, hstep⟩ | ⟨error, world, hhandle, hstep⟩
    · rw [hstep]
      refine ⟨.handed i (.ok value), rfl, rfl, .singleton ⟨hdone, ?_⟩ rfl ?_ rfl, rfl, rfl⟩
      · rw [hhandle]
      · rw [worldAfterTurn, hhandle]
        rfl
    · rw [hstep]
      refine ⟨.handed i (.error error), rfl, rfl, .singleton ⟨hdone, ?_⟩ rfl ?_ rfl, rfl⟩
      · rw [hhandle]
      · rw [worldAfterTurn, hhandle]
        rfl

/-- The turns that hand a round to the steps of a list. -/
theorem runAll_turns (p : Processor α ω ε) (round : Round α) (order : List Nat)
    (run : Run α ω ε) :
    ∃ turns : List (Turn ε), (∀ turn ∈ turns, turn.isVisit = true) ∧
      p.Traces round run (p.runAll round order run).2 turns ∧
      match (p.runAll round order run).1 with
      | .ok flag => Covers order turns ∧ (flag = true ↔ ∀ turn ∈ turns, turn.answer? = some true)
      | .error error => BreaksOff order error turns := by
  induction order generalizing run with
  | nil => exact ⟨[], List.forall_mem_nil _, Traces.nil p round run, Covers.nil, by simp⟩
  | cons i rest ih =>
    obtain ⟨turn, rfl, hvisit, htraces, hanswer⟩ := runStep_turn p round i run
    rw [runAll]
    rcases hstep : p.runStep round turn.step run with ⟨error | first, run₁⟩
    · simp only [hstep] at htraces hanswer ⊢
      exact ⟨[turn], by simpa using hvisit, htraces, BreaksOff.head rest hanswer⟩
    · simp only [hstep] at htraces hanswer ⊢
      obtain ⟨hnone, hfirst⟩ := hanswer
      obtain ⟨turns, hrest, hmore, hend⟩ := ih run₁
      refine ⟨turn :: turns, by simpa [hvisit] using hrest, ?_⟩
      rcases hall : p.runAll round rest run₁ with ⟨error | others, run₂⟩
      · simp only [hall] at hmore hend ⊢
        exact ⟨htraces.append hmore, hend.cons hnone⟩
      · simp only [hall] at hmore hend ⊢
        refine ⟨htraces.append hmore, hend.1.cons hnone, ?_⟩
        rw [Bool.and_eq_true, hend.2, List.forall_mem_cons, hfirst, Option.some_inj]

/-- The turns that tell the steps of a list to finish. -/
theorem finishAll_turns (p : Processor α ω ε) (round : Round α) (order : List Nat)
    (run : Run α ω ε) :
    ∃ turns : List (Turn ε), (∀ turn ∈ turns, turn.isVisit = false) ∧
      p.Traces round run (p.finishAll round order run).2 turns ∧
      match (p.finishAll round order run).1 with
      | .ok () => Covers order turns
      | .error error => BreaksOff order error turns := by
  induction order generalizing run with
  | nil => exact ⟨[], List.forall_mem_nil _, Traces.nil p round run, Covers.nil⟩
  | cons i rest ih =>
    rw [finishAll]
    rcases hfinish : (p.step i).finish round run.world with ⟨outcome, world⟩
    have htraces : p.Traces round run (run.record (.finished i round outcome) world)
        [.told i outcome] := by
      refine .singleton ?_ rfl ?_ rfl
      · rw [Fits, hfinish]
      · rw [worldAfterTurn, hfinish]
        rfl
    cases outcome with
    | error error =>
      exact ⟨[.told i (.error error)], by simp [Turn.isVisit], htraces, BreaksOff.head rest rfl⟩
    | ok _ =>
      obtain ⟨turns, hrest, hmore, hend⟩ := ih (run.record (.finished i round (.ok ())) world)
      refine ⟨.told i (.ok ()) :: turns, by simpa [Turn.isVisit] using hrest,
        htraces.append hmore, ?_⟩
      show match (p.finishAll round rest _).1 with
        | .ok () => Covers (i :: rest) _
        | .error error => BreaksOff (i :: rest) error _
      split
      · next h =>
        rw [h] at hend
        exact Covers.cons rfl hend
      · next error h =>
        rw [h] at hend
        exact BreaksOff.cons rfl hend

end Processor

/-! ## What the turns leave of the flags -/

section

variable {turn : Turn ε} {turns : List (Turn ε)} {done : Nat → Bool} {order : List Nat} {i : Nat}

theorem flagsAfter_append (done : Nat → Bool) (turns more : List (Turn ε)) :
    flagsAfter done (turns ++ more) = flagsAfter (flagsAfter done turns) more :=
  List.foldl_append

/-- A turn leaves the flags of the other steps alone. -/
theorem Turn.mark_other (turn : Turn ε) (done : Nat → Bool) (h : turn.step ≠ i) :
    turn.mark done i = done i := by
  match turn, h with
  | .passed _, _ | .handed _ (.error _), _ | .told _ _, _ => rfl
  | .handed j (.ok value), h => exact if_neg (Ne.symm h)

theorem flagsAfter_of_not_mem (done : Nat → Bool) (h : i ∉ turns.map Turn.step) :
    flagsAfter done turns i = done i := by
  induction turns generalizing done with
  | nil => rfl
  | cons turn rest ih =>
    rw [List.map_cons, List.mem_cons, not_or] at h
    show flagsAfter (turn.mark done) rest i = done i
    rw [ih _ h.2, turn.mark_other done (Ne.symm h.1)]

/-- Telling steps to finish sets no flag. -/
theorem flagsAfter_endings (done : Nat → Bool) (h : ∀ turn ∈ turns, turn.isVisit = false) :
    flagsAfter done turns = done := by
  induction turns with
  | nil => rfl
  | cons turn rest ih =>
    obtain ⟨hturn, hrest⟩ := List.forall_mem_cons.mp h
    cases turn with
    | told i outcome => exact ih hrest
    | passed i => contradiction
    | handed i answer => contradiction

/-- A step that is handed a round without failing answers. -/
theorem Turn.exists_answer (hvisit : turn.isVisit = true) (hnone : turn.failure? = none) :
    ∃ flag, turn.answer? = some flag := by
  match turn with
  | .passed _ => exact ⟨true, rfl⟩
  | .handed _ (.ok value) => exact ⟨value.truthy, rfl⟩
  | .handed _ (.error _) => contradiction
  | .told _ _ => contradiction

/-- Only a step that was handed the round can fail in a turn that hands it on. -/
theorem Turn.eq_handed {error : ε} (hvisit : turn.isVisit = true)
    (herror : turn.failure? = some error) : turn = .handed turn.step (.error error) := by
  match turn with
  | .passed _ => contradiction
  | .handed i (.ok value) => contradiction
  | .handed i (.error other) =>
    cases herror
    rfl
  | .told _ _ => contradiction

variable {p : Processor α ω ε} {round : Round α} {world : ω}

/-- A fitting turn takes no flag back. -/
theorem Processor.Fits.mark_of_done (h : p.Fits round done world turn) (hdone : done i = true) :
    turn.mark done i = true := by
  match turn with
  | .passed _ | .handed _ (.error _) | .told _ _ => exact hdone
  | .handed j (.ok value) =>
    -- the step that is handed the round was not done
    have hne : j ≠ i := by
      rintro rfl
      rw [h.1] at hdone
      contradiction
    rwa [Turn.mark_other (.handed j (.ok value)) done hne]

/-- The flag of the step is what is answered. -/
theorem Processor.Fits.mark_self {flag : Bool} (h : p.Fits round done world turn)
    (hanswer : turn.answer? = some flag) : turn.mark done turn.step = flag := by
  match turn with
  | .passed i =>
    cases hanswer
    exact h
  | .handed i (.ok value) =>
    cases hanswer
    exact if_pos rfl
  | .handed _ (.error _) => contradiction
  | .told _ _ => contradiction

end

namespace Processor.Traces

variable {p : Processor α ω ε} {round : Round α} {before after : Run α ω ε}
  {turns : List (Turn ε)} {order : List Nat}

/-- A flag that is set at any point of the turns stays set. -/
theorem done_of_flagsAfter (h : p.Traces round before after turns) {i : Nat}
    {earlier later : List (Turn ε)} (hturns : turns = earlier ++ later)
    (hdone : flagsAfter before.done earlier i = true) : after.done i = true := by
  -- turn by turn from that point on, and none of the turns takes the flag back
  induction later generalizing earlier with
  | nil => rwa [h.done, hturns, List.append_nil]
  | cons turn rest ih =>
    refine @ih (earlier ++ [turn]) ?_ ?_
    · rw [hturns, List.append_assoc, List.singleton_append]
    · rw [flagsAfter_append]
      exact (h.fits earlier turn rest hturns).mark_of_done hdone

/-- Where the steps are all different, each is left with the flag that it answered. -/
theorem done_step (h : p.Traces round before after turns)
    (hnodup : (turns.map Turn.step).Nodup) {turn : Turn ε} (hturn : turn ∈ turns) {flag : Bool}
    (hanswer : turn.answer? = some flag) : after.done turn.step = flag := by
  obtain ⟨earlier, later, rfl⟩ := List.append_of_mem hturn
  -- no later turn is for the same step, so what the turn leaves is left in the end
  have hlater : turn.step ∉ later.map Turn.step := by
    rw [List.map_append, List.map_cons] at hnodup
    exact (List.nodup_cons.mp hnodup.of_append_right).1
  rw [h.done, flagsAfter_append]
  show flagsAfter (turn.mark _) later turn.step = flag
  rw [flagsAfter_of_not_mem _ hlater]
  exact (h.fits earlier turn later rfl).mark_self hanswer

/-- All different steps are done exactly if all of them answer so. -/
theorem all_done_iff (h : p.Traces round before after turns)
    (hvisit : ∀ turn ∈ turns, turn.isVisit = true) (hcovers : Covers order turns)
    (hnodup : order.Nodup) :
    (∀ i ∈ order, after.done i = true) ↔ ∀ turn ∈ turns, turn.answer? = some true := by
  obtain ⟨rfl, hnone⟩ := hcovers
  rw [List.forall_mem_map]
  refine forall₂_congr fun turn hturn => ?_
  obtain ⟨flag, hflag⟩ := turn.exists_answer (hvisit turn hturn) (hnone turn hturn)
  rw [h.done_step hnodup hturn hflag, hflag, Option.some_inj]

/-- A step that fails is left as it was: not done. -/
theorem not_done_of_last (h : p.Traces round before after turns) {earlier : List (Turn ε)}
    {i : Nat} {error : ε} (hturns : turns = earlier ++ [.handed i (.error error)]) :
    after.done i = false := by
  rw [h.done, hturns, flagsAfter_append]
  exact (h.fits earlier _ [] hturns).1

end Processor.Traces

namespace Processor

/-- The turns of a round with build information. -/
theorem process_turns (p : Processor α ω ε) {round : Round α}
    (hinfo : round.buildInfo.isSome = true) (run : Run α ω ε) :
    ∃ (visits endings : List (Turn ε)) (between : Run α ω ε),
      (∀ turn ∈ visits, turn.isVisit = true) ∧ (∀ turn ∈ endings, turn.isVisit = false) ∧
      p.Traces round run between visits ∧
      p.Traces round between (p.process round run).2 endings ∧
      match (p.process round run).1 with
      | .ok answer =>
        Covers p.order visits ∧ Covers (if round.isOver then p.order else []) endings ∧
          (answer = true ↔ ∀ turn ∈ visits, turn.answer? = some true)
      | .error error =>
        (BreaksOff p.order error visits ∧ endings = []) ∨
        (Covers p.order visits ∧ round.isOver = true ∧ BreaksOff p.order error endings) := by
  obtain ⟨info, hinfo⟩ := Option.isSome_iff_exists.mp hinfo
  obtain ⟨visits, hvisit, htraces, hend⟩ := p.runAll_turns round p.order run
  rw [process, hinfo]
  rcases hall : p.runAll round p.order run with ⟨error | answer, run₁⟩
  · simp only [hall] at htraces hend ⊢
    exact ⟨visits, [], run₁, hvisit, List.forall_mem_nil _, htraces, .nil p round run₁,
      .inl ⟨hend, rfl⟩⟩
  simp only [hall] at htraces hend ⊢
  obtain ⟨hcovers, hanswer⟩ := hend
  cases hover : round.isOver with
  | false =>
    exact ⟨visits, [], run₁, hvisit, List.forall_mem_nil _, htraces, .nil p round run₁, hcovers,
      Covers.nil, hanswer⟩
  | true =>
    obtain ⟨endings, hending, hmore, hlast⟩ := p.finishAll_turns round p.order run₁
    refine ⟨visits, endings, run₁, hvisit, hending, htraces, ?_⟩
    rcases hfinish : p.finishAll round p.order run₁ with ⟨error | _, run₂⟩
    · simp only [hfinish, if_true] at hmore hlast ⊢
      exact ⟨hmore, .inr ⟨hcovers, trivial, hlast⟩⟩
    · simp only [hfinish, if_true] at hmore hlast ⊢
      exact ⟨hmore, hcovers, hlast, hanswer⟩

/-- What a round does, turn by turn. Without build information it does nothing. Otherwise it goes
through the occurrences of the steps in their order and hands itself to the step unless the step is
done when it is reached; if nothing has failed and the round is the last, it goes through all of them
once more and tells them to finish. It answers whether every step has said that it is done, which for
different steps is whether all of them are. The first failure ends it: the failure leaves the round,
flags that were set stay set, and neither the step that failed nor one that was not reached has its
flag changed. -/
theorem process_trace (p : Processor α ω ε) (round : Round α) (run : Run α ω ε) :
    (round.buildInfo = none → p.process round run = (.ok false, run)) ∧
    (round.buildInfo.isSome = true → ∃ visits endings : List (Turn ε),
      (∀ turn ∈ visits, turn.isVisit = true) ∧ (∀ turn ∈ endings, turn.isVisit = false) ∧
      p.Traces round run (p.process round run).2 (visits ++ endings) ∧
      (∀ earlier later i, visits = earlier ++ later → flagsAfter run.done earlier i = true →
        (p.process round run).2.done i = true) ∧
      (∀ i, i ∉ visits.map Turn.step → (p.process round run).2.done i = run.done i) ∧
      match (p.process round run).1 with
      | .ok answer =>
        Covers p.order visits ∧ Covers (if round.isOver then p.order else []) endings ∧
          (answer = true ↔ ∀ turn ∈ visits, turn.answer? = some true) ∧
          (p.order.Nodup →
            (answer = true ↔ ∀ i ∈ p.order, (p.process round run).2.done i = true))
      | .error error =>
        (BreaksOff p.order error visits ∧ endings = [] ∧
          ∃ i, visits.getLast? = some (.handed i (.error error)) ∧
            (p.process round run).2.done i = false) ∨
        (Covers p.order visits ∧ round.isOver = true ∧ BreaksOff p.order error endings)) := by
  constructor
  · intro hnone
    rw [process, hnone]
  intro hinfo
  obtain ⟨visits, endings, between, hvisit, hending, htraces, hmore, hend⟩ :=
    p.process_turns hinfo run
  -- no flag is set by telling steps to finish, so the visits alone decide about the flags
  have hdone : (p.process round run).2.done = between.done := by
    rw [hmore.done, flagsAfter_endings _ hending]
  refine ⟨visits, endings, hvisit, hending, htraces.append hmore, ?_, ?_, ?_⟩
  · intro earlier later i hvisits hset
    rw [hdone]
    exact htraces.done_of_flagsAfter hvisits hset
  · intro i hi
    rw [hdone, htraces.done, flagsAfter_of_not_mem _ hi]
  rw [hdone]
  rcases hprocess : (p.process round run).1 with error | answer
  · simp only [hprocess] at hend ⊢
    refine hend.imp ?_ id
    rintro ⟨⟨horder, earlier, last, hvisits, hnone, herror⟩, hempty⟩
    have hlast : last = .handed last.step (.error error) :=
      Turn.eq_handed (hvisit last (by simp [hvisits])) herror
    refine ⟨⟨horder, earlier, last, hvisits, hnone, herror⟩, hempty, last.step, ?_, ?_⟩
    · rw [hvisits, List.getLast?_concat, ← hlast]
    · rw [hlast] at hvisits
      exact htraces.not_done_of_last hvisits
  · simp only [hprocess] at hend ⊢
    obtain ⟨hcovers, hfinished, hanswer⟩ := hend
    refine ⟨hcovers, hfinished, hanswer, ?_⟩
    intro hnodup
    rw [hanswer, htraces.all_done_iff hvisit hcovers hnodup]

end Processor

/-- Two steps of which the one numbered one is done at once; the third call fails. -/
def failingProcessor : Processor Nat Nat String where
  step i := {
    handle := fun _ count =>
      (if count < 2 then .ok (.bool (i == 1)) else .error "third call", count + 1)
    finish := fun _ count => (.ok (), count) }
  order := [0, 1, 0, 1]

/-- A step fails when it is reached for the second time: the round ends there with its failure, and
leaves the step not done. -/
theorem Processor.process_trace_sample :
    let round : Round Nat := ⟨[7], some ⟨"build", "", false⟩, false⟩
    let (outcome, after) := failingProcessor.process round (.fresh 0)
    outcome = .error "third call" ∧
      ∃ visits, failingProcessor.Traces round (.fresh 0) after visits ∧
        BreaksOff [0, 1, 0, 1] "third call" visits ∧
        ∃ i, visits.getLast? = some (.handed i (.error "third call")) ∧ after.done i = false := by
  intro round
  obtain ⟨visits, endings, -, -, htraces, -, -, hend⟩ :=
    (Processor.process_trace failingProcessor round (.fresh 0)).2 rfl
  have herror : (failingProcessor.process round (.fresh 0)).1 = .error "third call" := rfl
  simp only [herror] at hend
  rcases hend with ⟨hbreaks, rfl, hlast⟩ | ⟨-, hover, -⟩
  · rw [List.append_nil] at htraces
    exact ⟨herror, visits, htraces, hbreaks, hlast⟩
  · contradiction

end Bindery
