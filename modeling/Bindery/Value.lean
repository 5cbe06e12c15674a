import Bindery.Calendar
import Bindery.Ledger
import Bindery.Number.Binary64

/-!
# Configuration values

What a configuration file can hold: scalars, tuples, lists, sets and mappings. The keys of a mapping
are the values that never change, scalars and tuples of them (`Key`); `Value.key?` tells which
values those are.

Keys are compared by `==`: numbers by the number they stand for, whether written as a truth value, a
whole number or a fraction, and everything else within its own kind.
-/

namespace Bindery

/-- A value without parts. -/
inductive Scalar where
  | null
  | bool (b : Bool)
  | int (n : Int)
  | float (x : Binary64)
  | text (s : String)
  | bytes (bs : List UInt8)
  | date (d : Date)
  | moment (m : Moment)
  deriving DecidableEq, Repr

/-- A value that can be the key of a mapping or a member of a set. -/
inductive Key where
  | scalar (s : Scalar)
  | tuple (items : List Key)
  deriving Repr

/-- A configuration value. -/
inductive Value where
  | scalar (s : Scalar)
  | tuple (items : List Value)
  | list (items : List Value)
  | set (items : List Key)
  | mapping (entries : List (Key × Value))
  deriving Repr

instance : Inhabited Value := ⟨.scalar .null⟩

/-- A mapping from keys to values, in the order in which the keys came. -/
abbrev Mapping := Ledger Key Value

namespace Scalar

/-- The number that a scalar stands for, a truth value being one or zero. -/
def number? : Scalar → Option Binary64.Reading
  | .bool b => some (.ofInt b.toInt)
  | .int n => some (.ofInt n)
  | .float x => some x.reading
  | _ => none

/-- Whether two scalars are one key. -/
def same : Scalar → Scalar → Bool
  | .float x, .float y => x == y || x.reading.compare? y.reading == some .eq
  | .moment a, .moment b => a.same b
  | a, b =>
    match a.number?, b.number? with
    | some x, some y => x.compare? y == some .eq
    | none, none => a == b
    | _, _ => false

instance : BEq Scalar := ⟨same⟩

end Scalar

namespace Key

mutual
/-- Whether two keys are one: tuples are compared item by item. -/
def same : Key → Key → Bool
  | .scalar a, .scalar b => a.same b
  | .tuple as, .tuple bs => sameAll as bs
  | _, _ => false

/-- Whether two lists of keys are one, item by item. -/
def sameAll : List Key → List Key → Bool
  | [], [] => true
  | a :: as, b :: bs => a.same b && sameAll as bs
  | _, _ => false
end

instance : BEq Key := ⟨same⟩

/-- The key that is a text. -/
def text (s : String) : Key := .scalar (.text s)

mutual
/-- A key as a value. -/
def value : Key → Value
  | .scalar s => .scalar s
  | .tuple items => .tuple (values items)

/-- Keys as values. -/
def values : List Key → List Value
  | [] => []
  | k :: ks => k.value :: values ks
end

end Key

namespace Value

def null : Value := .scalar .null
def bool (b : Bool) : Value := .scalar (.bool b)
def int (n : Int) : Value := .scalar (.int n)
def text (s : String) : Value := .scalar (.text s)

mutual
/-- The key that a value is, unless it can change or holds something that can. -/
def key? : Value → Option Key
  | .scalar s => some (.scalar s)
  | .tuple items => (keys? items).map .tuple
  | .list _ | .set _ | .mapping _ => none

/-- The keys that the values are, if all of them are. -/
def keys? : List Value → Option (List Key)
  | [] => some []
  | v :: vs =>
    match v.key?, keys? vs with
    | some k, some ks => some (k :: ks)
    | _, _ => none
end

/-- Whether a value counts as true: all do but null, false, the zeros, and what is empty. -/
def truthy : Value → Bool
  | .scalar .null => false
  | .scalar (.bool b) => b
  | .scalar (.int n) => n != 0
  | .scalar (.float x) => x.reading.compare? (.ofInt 0) != some .eq
  | .scalar (.text s) => !s.isEmpty
  | .scalar (.bytes bs) => !bs.isEmpty
  | .scalar (.date _) | .scalar (.moment _) => true
  | .tuple items | .list items => !items.isEmpty
  | .set items => !items.isEmpty
  | .mapping entries => !entries.isEmpty

end Value

end Bindery
