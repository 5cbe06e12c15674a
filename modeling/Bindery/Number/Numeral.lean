import Bindery.Number.Binary64
import Bindery.Text.Blank
import Bindery.Text.LowerCase

/-!
# Numbers read from text

`wholeNumber? base` reads a signed whole number, `Binary64.ofText?` a decimal fraction with an
optional exponent. Blanks around a number do not count, digits may be of any script, and underscores
may stand between two digits.
-/

namespace Bindery

open Bindery.Text

/-- The value of a digit in a base up to sixteen. -/
def digitIn? (base : Nat) (c : Char) : Option Nat :=
  let value? :=
    match digitValue? c with
    | some d => some d
    | none =>
      if 'a' ≤ c && c ≤ 'f' then some (c.toNat - 'a'.toNat + 10)
      else if 'A' ≤ c && c ≤ 'F' then some (c.toNat - 'A'.toNat + 10)
      else none
  value?.filter (· < base)

/-- The value of a run of digits with single underscores between them, added to what `value` holds
already; `after` says whether a digit stands before the run. -/
def digitRun? (base : Nat) (after : Bool) (value : Nat) : List Char → Option Nat
  | [] => if after then some value else none
  | '_' :: cs => if after then digitRun? base false value cs else none
  | c :: cs =>
    match digitIn? base c with
    | some d => digitRun? base true (value * base + d) cs
    | none => none

/-- The sign in front of a text, and what follows it. -/
def takeSign : List Char → Bool × List Char
  | '-' :: cs => (true, cs)
  | '+' :: cs => (false, cs)
  | cs => (false, cs)

/-- The letter after a zero that announces a base. -/
def baseLetter (base : Nat) (c : Char) : Bool :=
  (base = 2 && (c = 'b' || c = 'B')) || (base = 8 && (c = 'o' || c = 'O')) ||
    (base = 16 && (c = 'x' || c = 'X'))

/-- The digits after an announcement of their base; an underscore may follow the announcement. -/
def dropAnnounced (base : Nat) : List Char → List Char
  | '0' :: c :: cs =>
    if baseLetter base c then
      match cs with
      | '_' :: rest => rest
      | rest => rest
    else '0' :: c :: cs
  | cs => cs

/-- The most digits that a decimal number may have. -/
def digitLimit : Nat := 4300

/-- The whole number that a text writes in a base. Decimal numbers have a limited length. -/
def wholeNumber? (base : Nat) (text : List Char) : Option Int :=
  let (negative, digits) := takeSign (trimmed text)
  if base = 10 && digitLimit < (digits.filter (· ≠ '_')).length then none
  else (digitRun? base false 0 (dropAnnounced base digits)).map (Binary64.signed negative)

/-- A run of digits as a value and a length, with underscores only between two of them. -/
def decimalRun? (cs : List Char) : Option (Nat × Nat) :=
  if cs.isEmpty then some (0, 0)
  else (digitRun? 10 false 0 cs).map fun value => (value, (cs.filter (· ≠ '_')).length)

/-- The number that a mantissa with an optional point and an exponent write. -/
def Binary64.ofParts? (negative : Bool) (mantissa : List Char) (exponent : Int) :
    Option Binary64 :=
  let whole := mantissa.takeWhile (· ≠ '.')
  let fraction := (mantissa.dropWhile (· ≠ '.')).drop 1
  match decimalRun? whole, decimalRun? fraction with
  | some (a, m), some (b, n) =>
    if m + n = 0 then none else some (.ofDecimal negative (a * tenTo n + b) (exponent - n))
  | _, _ => none

/-- The number that a text writes. -/
def Binary64.ofText? (text : List Char) : Option Binary64 :=
  let (negative, body) := takeSign (lower (trimmed text))
  if body = ['i', 'n', 'f'] || body = ['i', 'n', 'f', 'i', 'n', 'i', 't', 'y'] then
    some (.infinity negative)
  else if body = ['n', 'a', 'n'] then some .nan
  else
    let mantissa := body.takeWhile (· ≠ 'e')
    match body.dropWhile (· ≠ 'e') with
    | [] => Binary64.ofParts? negative mantissa 0
    | _ :: rest =>
      let (below, digits) := takeSign rest
      match digitRun? 10 false 0 digits with
      | some e => Binary64.ofParts? negative mantissa (Binary64.signed below e)
      | none => none

end Bindery
