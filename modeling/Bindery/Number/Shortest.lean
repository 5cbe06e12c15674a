import Bindery.Number.Binary64

/-!
# The shortest decimal of a binary number

A finite number `m * 2 ^ e` is what every real near it rounds to: those between the midpoints to its
two neighbours, the midpoints themselves only if `m` is even. `Binary64.shortest` is the decimal of
fewest digits in that interval, and of those the one nearest to the number.

For each count of digits only the two decimals on either side of the number have to be tried: if the
interval holds any decimal of that many digits, it holds one of them.
-/

namespace Bindery

namespace Binary64

/-- The decimal `digits * 10 ^ exponent`. -/
structure Decimal where
  digits : Nat
  exponent : Int
  deriving DecidableEq, Repr

/-- A positive quotient times `10 ^ shift`, as a numerator and a denominator. -/
def scaledByTen (num den : Nat) (shift : Int) : Nat × Nat :=
  if 0 ≤ shift then (num * tenTo shift.toNat, den) else (num, den * tenTo (-shift).toNat)

/-- How many zeros follow the point of a quotient below one, at most `limit`. -/
def leadingZeros (num den : Nat) : Nat → Nat
  | 0 => 0
  | limit + 1 => if den ≤ num * 10 then 0 else leadingZeros (num * 10) den limit + 1

/-- Where the point of a positive quotient stands, counted from its first digit: the least `p` for
which the quotient is below `10 ^ p`. -/
def pointOf (num den : Nat) : Int :=
  if den ≤ num then (Nat.toDigits 10 (num / den)).length else -(leadingZeros num den 400 : Int)

/-- The reals that round to a positive number, as numerators over one denominator. -/
structure Basin where
  low : Nat
  value : Nat
  high : Nat
  den : Nat
  closed : Bool

/-- The basin of `mantissa * 2 ^ exponent`. Below a power of two the neighbours stand closer. -/
def basin (mantissa : Nat) (exponent : Int) : Basin :=
  let isPower := mantissa = twoTo 52 && -1074 < exponent
  let (unit, den) := scaled 1 1 (exponent - 2)
  { low := (4 * mantissa - (if isPower then 1 else 2)) * unit
    value := 4 * mantissa * unit
    high := (4 * mantissa + 2) * unit
    den := den
    closed := mantissa % 2 = 0 }

/-- Whether `digits * 10 ^ exponent` rounds to the number. -/
def Basin.holds (b : Basin) (d : Decimal) : Bool :=
  let (n, q) := scaledByTen d.digits 1 d.exponent
  if b.closed then b.low * q ≤ n * b.den && n * b.den ≤ b.high * q
  else b.low * q < n * b.den && n * b.den < b.high * q

/-- The decimal of `count` digits that rounds to the number, if one does; of two the nearer, and
half way between them the even one. -/
def Basin.withDigits? (b : Basin) (point : Int) (count : Nat) : Option Decimal :=
  let exponent := point - count
  let (n, q) := scaledByTen b.value b.den (-exponent)
  let below : Decimal := ⟨n / q, exponent⟩
  let above : Decimal := ⟨n / q + 1, exponent⟩
  let nearer := if nearestWhole n q = n / q then below else above
  let farther := if nearestWhole n q = n / q then above else below
  if b.holds nearer then some nearer
  else if b.holds farther then some farther
  else none

/-- The shortest decimal that rounds to `mantissa * 2 ^ exponent`: seventeen digits always do. -/
def shortest (mantissa : Nat) (exponent : Int) : Decimal :=
  let b := basin mantissa exponent
  let point := pointOf b.value b.den
  let counts := (List.range 17).map (· + 1)
  (counts.findSome? (b.withDigits? point)).getD ⟨mantissa, exponent⟩

/-- The digits of a decimal without the zeros at its end, and where its point stands, counted from
its first digit. -/
def Decimal.spread (d : Decimal) : List Char × Int :=
  let digits := Nat.toDigits 10 d.digits
  ((digits.reverse.dropWhile (· == '0')).reverse, digits.length + d.exponent)

/-- An exponent with its sign and at least two digits. -/
def exponentText (e : Int) : List Char :=
  let digits := Nat.toDigits 10 e.natAbs
  (if e < 0 then '-' else '+') :: (if digits.length < 2 then '0' :: digits else digits)

/-- Digits with the point `point` places after the first: written out in full from `0.0001` up to
sixteen digits before the point, otherwise with an exponent. -/
def placed (digits : List Char) (point : Int) : List Char :=
  if -4 < point && point ≤ 0 then
    '0' :: '.' :: List.replicate (-point).toNat '0' ++ digits
  else if 0 < point && point ≤ 16 then
    let whole := point.toNat
    if digits.length ≤ whole then
      digits ++ List.replicate (whole - digits.length) '0' ++ ['.', '0']
    else digits.take whole ++ '.' :: digits.drop whole
  else
    match digits with
    | [] => []
    | [d] => d :: 'e' :: exponentText (point - 1)
    | d :: ds => d :: '.' :: ds ++ 'e' :: exponentText (point - 1)

/-- A number as it is shown: the fewest digits that read back, never without a point or an exponent.
-/
def display (x : Binary64) : List Char :=
  match x.reading with
  | .notANumber => ['n', 'a', 'n']
  | .infinite negative => (if negative then ['-'] else []) ++ ['i', 'n', 'f']
  | .finite negative mantissa exponent =>
    let shown :=
      if mantissa = 0 then ['0', '.', '0']
      else
        let (digits, point) := (shortest mantissa exponent).spread
        placed digits point
    if negative then '-' :: shown else shown

end Binary64

end Bindery
