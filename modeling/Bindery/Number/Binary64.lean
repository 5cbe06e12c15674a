/-!
# Binary floating-point numbers

A `Binary64` is the 64 bits of a number in the interchange format: a sign, eleven bits of exponent
and fifty-two of fraction. `Binary64.reading` says which number the bits stand for, and
`Binary64.ofRatio` is the number nearest to a quotient, a tie going to the even neighbour. Sums and
products are taken exactly and rounded once.

Two numbers that are not a number may differ in their bits, which tells them apart where identity
counts; all of them are shown alike.
-/

namespace Bindery

/-- A binary floating-point number, as its 64 bits. -/
structure Binary64 where
  bits : UInt64
  deriving DecidableEq, Repr, Inhabited

/-- A power of two. -/
def twoTo (n : Nat) : Nat :=
  Nat.pow 2 n

/-- A power of ten. -/
def tenTo (n : Nat) : Nat :=
  Nat.pow 10 n

namespace Binary64

/-- What the bits stand for. A finite number is `mantissa * 2 ^ exponent` with its sign. -/
inductive Reading where
  | notANumber
  | infinite (negative : Bool)
  | finite (negative : Bool) (mantissa : Nat) (exponent : Int)
  deriving DecidableEq, Repr

/-- The number that the bits stand for. Below the smallest normal number the leading one is missing
and the exponent stays at its least. -/
def reading (x : Binary64) : Reading :=
  let code := x.bits.toNat
  let negative := code / twoTo 63 == 1
  let exponent : Nat := code / twoTo 52 % twoTo 11
  let fraction := code % twoTo 52
  if exponent = twoTo 11 - 1 then
    if fraction = 0 then .infinite negative else .notANumber
  else if exponent = 0 then .finite negative fraction (-1074)
  else .finite negative (twoTo 52 + fraction) ((exponent : Int) - 1075)

/-- The bits of a magnitude with the sign put in front. -/
def withSign (negative : Bool) (magnitude : Nat) : Binary64 :=
  ⟨UInt64.ofNat (if negative then twoTo 63 + magnitude else magnitude)⟩

/-- The magnitude of the infinities. -/
def infiniteMagnitude : Nat := (twoTo 11 - 1) * twoTo 52

def infinity (negative : Bool) : Binary64 := withSign negative infiniteMagnitude

def zero (negative : Bool) : Binary64 := withSign negative 0

/-- The one that computations yield among the numbers that are not a number. -/
def nan : Binary64 := ⟨0x7ff8000000000000⟩

/-- The whole number nearest to a quotient; half way between two it is the even one. -/
def nearestWhole (num den : Nat) : Nat :=
  let whole := num / den
  let rest := 2 * (num % den)
  if rest < den then whole
  else if den < rest then whole + 1
  else whole + whole % 2

/-- The quotient times `2 ^ shift`, as a numerator and a denominator. -/
def scaled (num den : Nat) (shift : Int) : Nat × Nat :=
  if 0 ≤ shift then (num * twoTo shift.toNat, den) else (num, den * twoTo (-shift).toNat)

/-- The exponent that gives a positive quotient a mantissa of fifty-three bits, or the least
exponent if that is greater. -/
def exponentFor (num den : Nat) : Int :=
  let estimate : Int := (Nat.log2 num : Int) - Nat.log2 den
  let (n, d) := scaled num den (-estimate)
  max (-1074) (if d ≤ n then estimate - 52 else estimate - 53)

/-- The number nearest to `num / den`, with the sign. Consecutive magnitudes have consecutive bits,
so a mantissa that is rounded up to the next power of two needs no care, and all that lies beyond
the greatest finite number is infinite. -/
def ofRatio (negative : Bool) (num den : Nat) : Binary64 :=
  if num = 0 then zero negative
  else
    let exponent := exponentFor num den
    let (n, d) := scaled num den (-exponent)
    -- the leading one of a normal mantissa carries over into the exponent's field
    let magnitude := (exponent + 1074).toNat * twoTo 52 + nearestWhole n d
    withSign negative (min magnitude infiniteMagnitude)

/-- The number nearest to `digits * 10 ^ exponent`. The bounds cut off what is infinite or zero
anyway before a power of ten gets large. -/
def ofDecimal (negative : Bool) (digits : Nat) (exponent : Int) : Binary64 :=
  let size : Int := exponent + (Nat.log2 digits * 30103 / 100000 : Nat)
  if digits = 0 || size < -400 then zero negative
  else if 400 < size then infinity negative
  else if 0 ≤ exponent then ofRatio negative (digits * tenTo exponent.toNat) 1
  else ofRatio negative digits (tenTo (-exponent).toNat)

/-- The number nearest to `mantissa * 2 ^ exponent` for a signed mantissa. -/
def ofDyadic (mantissa : Int) (exponent : Int) : Binary64 :=
  let (n, d) := scaled mantissa.natAbs 1 exponent
  ofRatio (mantissa < 0) n d

/-- The number nearest to a whole number. -/
def ofInt (n : Int) : Binary64 :=
  ofDyadic n 0

/-- Whether all digits of a whole number are below the range of the finite numbers. -/
def fits (n : Int) : Bool :=
  (ofInt n).reading != .infinite (n < 0)

def isNan (x : Binary64) : Bool :=
  x.reading == .notANumber

/-- The number with the other sign. -/
def neg (x : Binary64) : Binary64 :=
  ⟨x.bits ^^^ 0x8000000000000000⟩

/-- A signed mantissa. -/
def signed (negative : Bool) (mantissa : Nat) : Int :=
  if negative then -mantissa else mantissa

/-- The exact sum, rounded once. Zeros of both signs add up to the positive one. -/
def add (x y : Binary64) : Binary64 :=
  match x.reading, y.reading with
  | .notANumber, _ => x
  | _, .notANumber => y
  | .infinite a, .infinite b => if a = b then x else nan
  | .infinite _, _ => x
  | _, .infinite _ => y
  | .finite a m e, .finite b n f =>
    if m = 0 && n = 0 then zero (a && b)
    else
      let least := min e f
      ofDyadic (signed a m * twoTo (e - least).toNat + signed b n * twoTo (f - least).toNat) least

/-- The exact product, rounded once. -/
def mul (x y : Binary64) : Binary64 :=
  match x.reading, y.reading with
  | .notANumber, _ => x
  | _, .notANumber => y
  | .infinite a, .infinite b => infinity (a != b)
  | .infinite a, .finite b n _ => if n = 0 then nan else infinity (a != b)
  | .finite a m _, .infinite b => if m = 0 then nan else infinity (a != b)
  | .finite a m e, .finite b n f =>
    let (p, q) := scaled (m * n) 1 (e + f)
    ofRatio (a != b) p q

/-- Comparison of the numbers that two readings stand for; none is in order with a number that is
not a number. -/
def Reading.compare? : Reading → Reading → Option Ordering
  | .notANumber, _ | _, .notANumber => none
  | .infinite a, .infinite b => some (compare b.toNat a.toNat)
  | .infinite a, .finite .. => some (if a then .lt else .gt)
  | .finite .., .infinite b => some (if b then .gt else .lt)
  | .finite a m e, .finite b n f =>
    let least := min e f
    some (compare (signed a m * twoTo (e - least).toNat) (signed b n * twoTo (f - least).toNat))

/-- A whole number read as an exact number. -/
def Reading.ofInt (n : Int) : Reading :=
  .finite (n < 0) n.natAbs 0

end Binary64

end Bindery
