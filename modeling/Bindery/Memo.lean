import Bindery.Journal
import Bindery.Ledger
import Bindery.Value.Display

/-!
# Memo tables

A memo table computes the value of a key when it is asked for the first time and answers with the
stored value from then on. A computation that fails stores nothing, so the next request starts it
again.

A computation may keep a state of its own, write records and ask the same table for other keys, or
even for the key it is computing: it is a `Recipe`, which `perform` carries out. `fetch` is one
request to the table whatever the computation is, and `get` is the request that lets the recipe of a
key ask in turn, down to a given depth.

Everything that happens is noted in the table's history, from which the journal is read off: a
record for each computation that is started, and the records that the computations write.
-/

namespace Bindery

/-- How the value of a key is computed. A question gets the outcome of the request, so a recipe may
go on after one that failed. -/
inductive Recipe (σ κ ν ε : Type) where
  | answer (value : ν)
  | fail (error : ε)
  | ask (key : κ) (next : Except ε ν → Recipe σ κ ν ε)
  | look (next : σ → Recipe σ κ ν ε)
  | save (own : σ) (next : Recipe σ κ ν ε)
  | note (record : Record) (next : Recipe σ κ ν ε)

namespace Memo

/-- What can happen in a memo table. -/
inductive Event (κ ν : Type) where
  | started (key : κ)
  | answered (key : κ) (value : ν)
  | failed (key : κ)
  | noted (record : Record)
  deriving Repr

/-- The record of an event, if it leaves one. -/
def Event.record? {κ ν : Type} (display : κ → List Char) : Event κ ν → Option Record
  | .started key => some ⟨.memo, "Cache miss for " ++ String.ofList (display key)⟩
  | .noted record => some record
  | .answered .. | .failed _ => none

/-- A memo table: its entries, the state that its computations keep, and its history, oldest event
first. -/
structure Table (σ κ ν : Type) where
  entries : Ledger κ ν
  own : σ
  history : List (Event κ ν)

namespace Table

variable {σ κ ν ε : Type}

/-- The table without entries. -/
def empty (own : σ) : Table σ κ ν := ⟨[], own, []⟩

/-- The number of entries. -/
def size (t : Table σ κ ν) : Nat := t.entries.length

/-- The table after one more event. -/
def log (event : Event κ ν) (t : Table σ κ ν) : Table σ κ ν :=
  { t with history := t.history ++ [event] }

/-- The table with an entry for a key. -/
def store [BEq κ] (key : κ) (value : ν) (t : Table σ κ ν) : Table σ κ ν :=
  { t with entries := t.entries.put key value }

@[simp] theorem log_entries (event : Event κ ν) (t : Table σ κ ν) :
    (t.log event).entries = t.entries := rfl

@[simp] theorem log_history (event : Event κ ν) (t : Table σ κ ν) :
    (t.log event).history = t.history ++ [event] := rfl

@[simp] theorem store_entries [BEq κ] (key : κ) (value : ν) (t : Table σ κ ν) :
    (t.store key value).entries = t.entries.put key value := rfl

@[simp] theorem store_history [BEq κ] (key : κ) (value : ν) (t : Table σ κ ν) :
    (t.store key value).history = t.history := rfl

/-- The records of the history, oldest first. -/
def journal (display : κ → List Char) (t : Table σ κ ν) : List Record :=
  t.history.filterMap (Event.record? display)

/-- The keys whose computation was started, oldest first. -/
def calls (t : Table σ κ ν) : List κ :=
  t.history.filterMap fun
    | .started key => some key
    | _ => none

end Table

variable {σ κ ν ε : Type}

/-- A request: the outcome, and the table afterwards. -/
abbrev Request (σ κ ν ε : Type) := κ → Table σ κ ν → Except ε ν × Table σ κ ν

/-- Answers a request from the entries, or else by `compute`. Its value is stored when it comes,
over whatever was stored for the key meanwhile. -/
def fetch [BEq κ] (compute : Request σ κ ν ε) : Request σ κ ν ε := fun key t =>
  match t.entries.get? key with
  | some value => (.ok value, t)
  | none =>
    match compute key (t.log (.started key)) with
    | (.ok value, t') => (.ok value, (t'.store key value).log (.answered key value))
    | (.error error, t') => (.error error, t'.log (.failed key))

/-- Carries out a recipe; `ask` is what its questions are put to. -/
def perform (ask : Request σ κ ν ε) : Recipe σ κ ν ε → Table σ κ ν → Except ε ν × Table σ κ ν
  | .answer value, t => (.ok value, t)
  | .fail error, t => (.error error, t)
  | .ask key next, t =>
    let (outcome, t') := ask key t
    perform ask (next outcome) t'
  | .look next, t => perform ask (next t.own) t
  | .save own next, t => perform ask next { t with own := own }
  | .note record next, t => perform ask next (t.log (.noted record))

/-- A request whose computation follows the recipe of the key. Computations are nested to the given
depth; one that would go deeper fails with `tooDeep`. -/
def get [BEq κ] (recipe : κ → Recipe σ κ ν ε) (tooDeep : ε) : Nat → Request σ κ ν ε
  | 0 => fetch fun _ t => (.error tooDeep, t)
  | depth + 1 => fetch fun key t => perform (get recipe tooDeep depth) (recipe key) t

/-- How a table shows itself: with the name of what computes its values. -/
def Table.shown (name : String) (t : Table σ κ ν) : String :=
  "KeyedLazy(" ++ name ++ ", size=" ++ toString t.size ++ ")"

end Memo

end Bindery
