import Bindery.Value
import Bindery.Yaml.Defect
import Bindery.Yaml.Tag

/-!
# Dates and moments written in a document

A date is a year, a month and a day; a moment adds a time of the day, a fraction of a second and an
offset from universal time. Where a date is declared to be one, its month and day may have one
digit.
-/

namespace Bindery.Yaml

/-- A form that a scalar declared as a date has. -/
def writtenDate : Pattern :=
  .inOrder [Tag.year, .word "-", Tag.oneOrTwoDigits, .word "-", Tag.oneOrTwoDigits,
    .optional (.andThen Tag.dayGap Tag.timeOfDay)]

/-- The runs of decimal digits in a text. -/
def digitRuns (cs : List Char) : List (List Char) :=
  (cs.splitBy fun a b => a.isDigit == b.isDigit).filter fun run => (run.headD ' ').isDigit

/-- The number that decimal digits write. -/
def decimalOf (digits : List Char) : Nat :=
  digits.foldl (fun n d => n * 10 + (d.toNat - '0'.toNat)) 0

/-- The microseconds that a fraction of a second writes. -/
def microsecondsOf (digits : List Char) : Nat :=
  decimalOf ((digits ++ List.replicate 6 '0').take 6)

/-- The offset that a text behind the time writes, in minutes. -/
def offsetOf? (cs : List Char) : Option Int :=
  match cs.dropWhile Tag.isBlank with
  | 'Z' :: _ => some 0
  | c :: rest =>
    if Tag.isSign c then
      let minutes : Int :=
        match digitRuns rest with
        | [] => 0
        | [hours] => decimalOf hours * 60
        | hours :: minutes :: _ => decimalOf hours * 60 + decimalOf minutes
      some (if c = '-' then -minutes else minutes)
    else none
  | [] => none

/-- The fraction behind the seconds, and what follows it. -/
def takeFraction : List Char → List Char × List Char
  | '.' :: cs => (cs.takeWhile Char.isDigit, cs.dropWhile Char.isDigit)
  | cs => ([], cs)

/-- The date or the moment that a text writes. -/
def readTimestamp (text : String) : Except Defect Scalar :=
  let cs := text.toList
  if !writtenDate.fits cs then .error (.mishap .notADate)
  else
    match (digitRuns cs).map decimalOf with
    | year :: month :: day :: rest =>
      let date : Date := ⟨year, month, day⟩
      match rest with
      | hour :: minute :: second :: _ =>
        let behind := (cs.dropWhile (· ≠ ':')).drop 6
        let (fraction, zone) := takeFraction behind
        let m : Moment := ⟨date, hour, minute, second, microsecondsOf fraction, offsetOf? zone⟩
        if m.isValid then .ok (.moment m) else .error (.mishap .badValue)
      | _ => if date.isValid then .ok (.date date) else .error (.mishap .badValue)
    | _ => .error (.mishap .notADate)

end Bindery.Yaml
