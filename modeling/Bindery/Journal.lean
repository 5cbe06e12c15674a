/-!
# The journal

What the library does is written down in records, each by the part that did it. All of them have the
level `DEBUG`: who wants to read them raises nothing but the level of the part.
-/

namespace Bindery

/-- The parts of the library that write records. -/
inductive Part where
  | memo
  | layout
  | processing
  | writer
  | loader
  deriving DecidableEq, Repr

namespace Part

/-- The name of the logger that a part writes to. -/
def logger : Part → String
  | memo => "bindgen.memo"
  | layout => "bindgen.layout"
  | processing => "bindgen.processing"
  | writer => "bindgen.writer"
  | loader => "bindgen.config.loader"

end Part

/-- One record of the journal. -/
structure Record where
  part : Part
  message : String
  deriving DecidableEq, Repr

/-- A record with its level and its logger in front. -/
def Record.line (r : Record) : String :=
  "DEBUG " ++ r.part.logger ++ ": " ++ r.message

end Bindery
