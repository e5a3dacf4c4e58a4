/-!
# Decimal numbers and their shortest text

A decimal number that is not written as an integer stands for the nearest binary number with a
mantissa of 53 bits, and is shown with the fewest digits that read back as that number. All of it
is exact arithmetic on natural numbers.
-/

namespace Backpressure

/-- A decimal number as it was written: a sign, and `digits * 10 ^ exponent`. -/
structure Decimal where
  /-- Is there a minus sign? Zero may have one. -/
  negative : Bool
  /-- The digits, without the point. -/
  digits : Nat
  /-- The power of ten by which the digits count. -/
  exponent : Int
  deriving DecidableEq, Repr

namespace Decimal

/-- The least mantissa of 53 bits. -/
def leastMantissa : Nat := 4503599627370496

/-- The least power of two that a mantissa counts by. -/
def leastPower : Int := -1074

/-- The fraction `num / den` with a power of the base moved out of it, as a fraction again. -/
def scale (num den base : Nat) (power : Int) : Nat × Nat :=
  if 0 ≤ power then (num, den * Nat.pow base power.toNat)
  else (num * Nat.pow base (-power).toNat, den)

/-- A quotient rounded to the nearest integer, and to the even one of two equally near. -/
def roundHalfEven (num den : Nat) : Nat :=
  let whole := num / den
  let rest := num % den
  if 2 * rest < den then whole
  else if den < 2 * rest then whole + 1
  else whole + whole % 2

/-- The binary number nearest to a positive fraction, as a mantissa and a power of two. -/
def nearestBinary (num den : Nat) : Nat × Int :=
  let guess : Int := (num.log2 : Int) - den.log2 - 53
  let atGuess := scale num den 2 guess
  let fitted := if 2 * leastMantissa ≤ atGuess.1 / atGuess.2 then guess + 1 else guess
  let power := if fitted < leastPower then leastPower else fitted
  let scaled := scale num den 2 power
  let mantissa := roundHalfEven scaled.1 scaled.2
  if mantissa = 2 * leastMantissa then (leastMantissa, power + 1) else (mantissa, power)

/-- The power of ten of a positive fraction's leading digit. -/
def leadingPower (num den : Nat) : Int :=
  if den ≤ num then (Nat.toDigits 10 (num / den)).length - 1
  else
    let atLeast := -((Nat.toDigits 10 (den / num)).length : Int)
    let scaled := scale num den 10 atLeast
    if 10 * scaled.2 ≤ scaled.1 then atLeast + 1 else atLeast

/-- The point of a decimal grid nearest to a value, among those of its two neighbours that lie
between two bounds; the bounds belong to the interval or not. All are numerators over one
denominator. -/
def onGrid (value low high den : Nat) (closed : Bool) (power : Int) : Option Nat :=
  let inside (candidate : Nat) : Bool :=
    let point := scale candidate 1 10 (-power)
    let left := low * point.2
    let here := point.1 * den
    let right := high * point.2
    if closed then left ≤ here && here ≤ right else left < here && here < right
  let scaled := scale value den 10 power
  let below := scaled.1 / scaled.2
  let nearest := roundHalfEven scaled.1 scaled.2
  let other := if nearest = below then below + 1 else below
  if inside nearest then some nearest else if inside other then some other else none

/-- A number without its trailing zeros, and how many there were. -/
def dropZeros (fuel n : Nat) : Nat × Nat :=
  match fuel with
  | 0 => (n, 0)
  | fuel + 1 =>
    if n % 10 = 0 ∧ n ≠ 0 then
      let (rest, zeros) := dropZeros fuel (n / 10)
      (rest, zeros + 1)
    else (n, 0)

/-- The fewest digits that read back as a binary number, and the power of ten they count by.
Seventeen always suffice. -/
def shortest (mantissa : Nat) (power : Int) : Nat × Int :=
  let narrow : Nat := if mantissa = leastMantissa ∧ leastPower < power then 1 else 2
  let unit := scale 1 1 2 (2 - power)
  let value := 4 * mantissa * unit.1
  let low := (4 * mantissa - narrow) * unit.1
  let high := (4 * mantissa + 2) * unit.1
  let lead := leadingPower value unit.2
  let attempt (count : Nat) : Option (Nat × Int) :=
    let grid : Int := lead - count
    (onGrid value low high unit.2 (mantissa % 2 = 0) grid).map fun digits => (digits, grid)
  let (digits, grid) := ((List.range 17).findSome? attempt).getD (0, 0)
  let (digits, zeros) := dropZeros 20 digits
  (digits, grid + zeros)

/-- Digits that count by a power of ten, laid out: positional with a point from a hundred
thousandth up to below ten quadrillion, and with a signed exponent otherwise. -/
def layOut (digits : Nat) (power : Int) : String :=
  let text := toString digits
  let point : Int := text.length + power
  if 0 ≤ power ∧ point ≤ 16 then text ++ "".pushn '0' power.toNat ++ ".0"
  else if 0 < point ∧ point ≤ 16 then
    String.ofList (text.toList.take point.toNat) ++ "." ++
      String.ofList (text.toList.drop point.toNat)
  else if -5 < point ∧ point ≤ 0 then "0." ++ "".pushn '0' (-point).toNat ++ text
  else
    let tail := String.ofList (text.toList.drop 1)
    let fraction := if tail.isEmpty then "" else "." ++ tail
    let mark := if point < 1 then "e" else "e+"
    String.ofList (text.toList.take 1) ++ fraction ++ mark ++ toString (point - 1)

/-- The shortest text of the number. -/
def text (d : Decimal) : String :=
  let sign := if d.negative then "-" else ""
  let (num, den) := scale d.digits 1 10 (-d.exponent)
  if num = 0 then sign ++ "0.0"
  else
    let (mantissa, power) := nearestBinary num den
    if mantissa = 0 then sign ++ "0.0"
    else
      let (digits, grid) := shortest mantissa power
      sign ++ layOut digits grid

end Decimal

end Backpressure
