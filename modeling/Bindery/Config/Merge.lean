import Bindery.Value

/-!
# Layers of configuration

One mapping laid over another: where both have a mapping under a key the two are merged in turn, and
everywhere else the upper one wins. Keys of the lower mapping keep their places, and new ones
follow. How deep mappings may be nested for the calls of a running program is left out of account.
-/

namespace Bindery.Config

mutual
/-- A value laid over another. -/
def overlay (below : Value) : Value → Value
  | .mapping entries =>
    match below with
    | .mapping base => .mapping (merge base entries)
    | _ => .mapping entries
  | above => above

/-- The entries of a mapping laid over another, one after the other. -/
def merge (base : Mapping) : List (Key × Value) → Mapping
  | [] => base
  | (key, value) :: rest =>
    let laid :=
      match base.get? key with
      | some below => overlay below value
      | none => value
    merge (base.put key laid) rest
end

end Bindery.Config
