import Bindery.Config.Check

/-!
# Build information

What is known about the build. It is checked where it comes in; names that it does not have are
passed over.
-/

namespace Bindery

/-- What is known about the build, without which no step is run. -/
structure BuildInfo where
  buildId : String
  modulePackage : String
  debug : Bool
  deriving DecidableEq, Repr

namespace BuildInfo

/-- The build information that a mapping gives. -/
def ofMapping (m : Mapping) : Checked BuildInfo :=
  let buildId := Check.required Check.someText "build_id" m
  let modulePackage := Check.optional Check.text "" "module_package" m
  let debug := Check.optional Check.truth false "enable_debug_logs" m
  let names := Checked.both (fun i p => (i, p)) buildId modulePackage
  Checked.both (fun (i, p) d => BuildInfo.mk i p d) names debug

/-- The build information that a value gives. -/
def ofValue (v : Value) : Checked BuildInfo :=
  match Check.mapping "BuildInfo" v with
  | .error e => .error e
  | .ok m => ofMapping m

end BuildInfo

end Bindery
