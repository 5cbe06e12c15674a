import Bindery.Layout
import Bindery.Rounds
import Bindery.Sink

/-!
# The collecting step

A step that collects the layouts of all rounds and writes the source of their binding classes when
processing is over. It is never done before, so that it sees every round.
-/

namespace Bindery

/-- What the step holds: the layouts found so far, the names it has derived, the sink it writes to,
and the records of what it did. -/
structure Collector (κ : Type) where
  collected : List String
  names : LayoutNames
  sink : κ
  journal : List Record

namespace Collector

variable {κ : Type}

/-- Nothing collected, and no name derived. -/
def fresh (sink : κ) : Collector κ :=
  ⟨[], .fresh LayoutNames.defaultSuffix, sink, []⟩

/-- The source of a binding class. -/
def source (name : String) : String :=
  "public class " ++ name ++ " \x7b\x7d\n"

/-- Keeps the layouts for later. -/
def collect (layouts : List String) (c : Collector κ) : Collector κ :=
  { c with collected := c.collected ++ layouts }

/-- The name and the qualified name of the binding class of a layout. -/
def nameClass (package layout : String) (c : Collector κ) : (String × String) × Collector κ :=
  let (name, names) := c.names.className layout
  let (qualified, names) := names.qualifiedName package layout
  ((name, qualified),
    { c with names := names, journal := c.journal ++ c.names.recordsSince names })

/-- Writes the binding class of a layout. -/
def emit (write : Writing κ) (package layout : String) (c : Collector κ) :
    Except SinkFault Unit × Collector κ :=
  let ((name, qualified), c) := c.nameClass package layout
  match write qualified (source name) c.sink with
  | (.ok record, sink) => (.ok (), { c with sink := sink, journal := c.journal ++ [record] })
  | (.error fault, sink) => (.error fault, { c with sink := sink })

/-- Writes the binding classes of layouts one after another, up to the first that fails. -/
def emitAll (write : Writing κ) (package : String) :
    List String → Collector κ → Except SinkFault Unit × Collector κ
  | [], c => (.ok (), c)
  | layout :: rest, c =>
    match c.emit write package layout with
    | (.error fault, c) => (.error fault, c)
    | (.ok (), c) => emitAll write package rest c

/-- Writes the binding classes of all layouts collected. -/
def flush (write : Writing κ) (package : String) (c : Collector κ) :
    Except SinkFault Unit × Collector κ :=
  emitAll write package c.collected c

/-- The step itself. -/
def step (write : Writing κ) : Step String (Collector κ) SinkFault where
  handle round c := (.ok (.bool false), c.collect round.elements)
  finish round c :=
    match round.buildInfo with
    | none => (.ok (), c)
    | some info => c.flush write info.modulePackage

end Collector

end Bindery
