import Styling.Decimal.Shortest

/-!
# The layout of a double

How the digits of a double are set out: with a point while the first digit is near it, and with an
exponent otherwise.
-/

namespace Styling.Decimal

/-- Decisions about the text of a number. The place of the point is counted from the first digit;
from `leastPoint` to `mostPoint` the number is written without an exponent. -/
structure Layout where
  leastPoint : Int
  mostPoint : Int
  /-- A whole number keeps a zero after the point. -/
  pointZero : Bool
  /-- Digits that an exponent has at least. -/
  exponentDigits : Nat
  infinity : String
  notNumber : String

/-- Numbers from a ten-thousandth to below ten to the sixteenth are written without an exponent,
whole numbers end in a point and a zero, and an exponent has a sign and two digits. -/
def doubleLayout : Layout := ⟨-3, 16, true, 2, "inf", "nan"⟩

/-- The digits without the zeros at their end. -/
def stripZeros (s : List Char) : List Char := (s.reverse.dropWhile (· = '0')).reverse

def zeros (n : Nat) : List Char := List.replicate n '0'

/-- A number in digits at least `width` long. -/
def paddedNat (width n : Nat) : List Char :=
  zeros (width - (natText n).length) ++ natText n

/-- The text of the digits `0.digits * 10 ^ point`, where the first digit is not zero. -/
def Layout.digitsText (l : Layout) (digits : List Char) (point : Int) : List Char :=
  if l.leastPoint ≤ point && point ≤ l.mostPoint then
    if point ≤ 0 then '0' :: '.' :: zeros (-point).toNat ++ digits
    else
      let whole := point.toNat
      if digits.length ≤ whole then
        digits ++ zeros (whole - digits.length) ++ (if l.pointZero then ['.', '0'] else [])
      else digits.take whole ++ '.' :: digits.drop whole
  else
    -- One digit goes before the point, the others behind it.
    let exponent := point - 1
    let fraction := digits.drop 1
    digits.take 1 ++ (if fraction.isEmpty then [] else '.' :: fraction)
      ++ 'e' :: (if exponent < 0 then '-' else '+')
      :: paddedNat l.exponentDigits exponent.natAbs

/-- The text of a magnitude. -/
def Layout.magnitudeText (l : Layout) (rank : Nat) : List Char :=
  if rank = 0 then if l.pointZero then ['0', '.', '0'] else ['0']
  else
    let d := shortest rank
    let digits := natText d.digits
    -- The point is counted from the first digit, so zeros at the end can go.
    l.digitsText (stripZeros digits) (digits.length + d.exponent)

/-- The text of a double. -/
def Layout.text (l : Layout) : Double → List Char
  | .finite negative rank => (if negative then ['-'] else []) ++ l.magnitudeText rank
  | .infinite negative => (if negative then ['-'] else []) ++ l.infinity.toList
  | .nan => l.notNumber.toList

/-- The text of a double as styles and messages show it. -/
def doubleText (x : Double) : List Char := doubleLayout.text x

end Styling.Decimal
