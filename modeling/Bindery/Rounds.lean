import Bindery.BuildInfo
import Bindery.Journal
import Bindery.Value

/-!
# Rounds of processing

Generation runs in rounds. A round is handed to the steps in their order, to each step until it has
answered with something that counts as true; in the last round every step is also told to finish.

Steps act on a world of their own and may fail. A failure ends the round at once: what was done
before it stays done. `Processor.process` is one round, and the calls that a run has made are kept
in it, oldest first; `Processor.processAloud` is a round that is announced in the journal of the world
besides.
-/

namespace Bindery

/-- One round: what was found, and whether it is the last. -/
structure Round (α : Type) where
  elements : List α
  buildInfo : Option BuildInfo
  isOver : Bool
  deriving Repr

/-- A step of processing: what it does with a round, and at the end of the last one. It acts on its
world alone: it neither has a round processed in turn nor changes the one that it is handed. -/
structure Step (α ω ε : Type) where
  handle : Round α → ω → Except ε Value × ω
  finish : Round α → ω → Except ε Unit × ω

/-- A call of a step, by the number of the step, with what came of it. -/
inductive Call (α ε : Type) where
  | handled (step : Nat) (round : Round α) (answer : Except ε Value)
  | finished (step : Nat) (round : Round α) (outcome : Except ε Unit)

/-- How far a run has come: which steps are done, the world, and the calls made. -/
structure Run (α ω ε : Type) where
  done : Nat → Bool
  world : ω
  calls : List (Call α ε)

/-- The steps by their numbers, and the order in which they are run. A number may come several times
in the order. -/
structure Processor (α ω ε : Type) where
  step : Nat → Step α ω ε
  order : List Nat

namespace Run

variable {α ω ε : Type}

/-- No step done and no call made. -/
def fresh (world : ω) : Run α ω ε := ⟨fun _ => false, world, []⟩

/-- The run with the flag of a step set. -/
def setDone (i : Nat) (flag : Bool) (run : Run α ω ε) : Run α ω ε :=
  { run with done := fun j => if j = i then flag else run.done j }

/-- The run after a call. -/
def record (call : Call α ε) (world : ω) (run : Run α ω ε) : Run α ω ε :=
  { run with world := world, calls := run.calls ++ [call] }

@[simp] theorem setDone_done (i j : Nat) (flag : Bool) (run : Run α ω ε) :
    (run.setDone i flag).done j = if j = i then flag else run.done j := rfl

@[simp] theorem setDone_calls (i : Nat) (flag : Bool) (run : Run α ω ε) :
    (run.setDone i flag).calls = run.calls := rfl

@[simp] theorem record_done (call : Call α ε) (world : ω) (run : Run α ω ε) :
    (run.record call world).done = run.done := rfl

@[simp] theorem record_calls (call : Call α ε) (world : ω) (run : Run α ω ε) :
    (run.record call world).calls = run.calls ++ [call] := rfl

end Run

namespace Processor

variable {α ω ε : Type}

/-- Hands a round to a step unless the step is done. The answer is whether it is done now. -/
def runStep (p : Processor α ω ε) (round : Round α) (i : Nat) (run : Run α ω ε) :
    Except ε Bool × Run α ω ε :=
  if run.done i then (.ok true, run)
  else
    let (answer, world) := (p.step i).handle round run.world
    let run := run.record (.handled i round answer) world
    match answer with
    | .ok value => (.ok value.truthy, run.setDone i value.truthy)
    | .error e => (.error e, run)

/-- Runs the steps of a list one after another. The answer is whether all of them are done. -/
def runAll (p : Processor α ω ε) (round : Round α) :
    List Nat → Run α ω ε → Except ε Bool × Run α ω ε
  | [], run => (.ok true, run)
  | i :: rest, run =>
    match p.runStep round i run with
    | (.error e, run) => (.error e, run)
    | (.ok first, run) =>
      match p.runAll round rest run with
      | (.error e, run) => (.error e, run)
      | (.ok others, run) => (.ok (first && others), run)

/-- Tells the steps of a list to finish, one after another. -/
def finishAll (p : Processor α ω ε) (round : Round α) :
    List Nat → Run α ω ε → Except ε Unit × Run α ω ε
  | [], run => (.ok (), run)
  | i :: rest, run =>
    let (outcome, world) := (p.step i).finish round run.world
    let run := run.record (.finished i round outcome) world
    match outcome with
    | .ok () => p.finishAll round rest run
    | .error e => (.error e, run)

/-- One round. The answer is whether all steps are done; without build information none is run. -/
def process (p : Processor α ω ε) (round : Round α) (run : Run α ω ε) :
    Except ε Bool × Run α ω ε :=
  match round.buildInfo with
  | none => (.ok false, run)
  | some _ =>
    match p.runAll round p.order run with
    | (.error e, run) => (.error e, run)
    | (.ok done, run) =>
      if round.isOver then
        match p.finishAll round p.order run with
        | (.error e, run) => (.error e, run)
        | (.ok (), run) => (.ok done, run)
      else (.ok done, run)

/-- What is written to the journal before a round. -/
def announcement (p : Processor α ω ε) (round : Round α) : List Record :=
  match round.buildInfo with
  | none =>
    [⟨.processing,
      "No build info in round; skipping " ++ toString p.order.length ++ " steps"⟩]
  | some info =>
    if info.debug then
      [⟨.processing,
        "Build " ++ info.buildId ++ ": processing " ++ toString round.elements.length ++
          " elements"⟩]
    else []

/-- One round, announced in the world before any step is run; `note` is how records are written
there. -/
def processAloud (p : Processor α ω ε) (note : List Record → ω → ω) (round : Round α)
    (run : Run α ω ε) : Except ε Bool × Run α ω ε :=
  p.process round { run with world := note (p.announcement round) run.world }

end Processor

end Bindery
