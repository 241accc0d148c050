import Styling.Decimal.Integer

/-!
# Double-precision numbers

A double is a sign and a magnitude, or one of the infinities, or no number. The finite magnitudes
are numbered in ascending order; `units` gives the magnitude of a rank as a multiple of the
smallest positive one. Every rational is rounded to the nearest magnitude, and of two equally near
ones to the one with the even rank.
-/

namespace Styling.Decimal

/-- How many finite magnitudes there are: 2047 exponents with 2 ^ 52 fractions each. -/
def rankCount : Nat := 2047 * 2 ^ (52 : Nat)

/-- The binary exponent of the smallest positive magnitude, without its sign. -/
def unitExponent : Nat := 1074

inductive Double where
  | finite (negative : Bool) (rank : Fin rankCount)
  | infinite (negative : Bool)
  | nan
deriving DecidableEq

/-- The magnitude of a rank, in multiples of 2 ^ -1074. The first 2 ^ 53 ranks are evenly spaced;
after that the spacing doubles every 2 ^ 52 ranks. -/
def units (rank : Nat) : Nat :=
  if rank < 2 ^ (52 : Nat) then rank
  else (2 ^ (52 : Nat) + rank % 2 ^ (52 : Nat)) * 2 ^ (rank / 2 ^ (52 : Nat) - 1)

/-- The rank of the largest magnitude that is at most `n` units. -/
def rankBelow (n : Nat) : Nat :=
  if n < 2 ^ (53 : Nat) then n
  else
    -- The 53 leading bits of the number are kept; the rank implies the first of them.
    let shift := n.log2 - 52
    (shift + 1) * 2 ^ (52 : Nat) + (n / 2 ^ shift - 2 ^ (52 : Nat))

/-- The rank of the magnitude nearest to the quotient of two numbers. It can be out of range. -/
def nearestRank (numerator denominator : Nat) : Nat :=
  -- Both sides are taken twice, so that the middle of two magnitudes is whole.
  let scaled := numerator * 2 ^ unitExponent
  let low := rankBelow (scaled / denominator)
  let middle := (units low + units (low + 1)) * denominator
  if 2 * scaled < middle then low
  else if middle < 2 * scaled then low + 1
  else if low % 2 = 0 then low else low + 1

namespace Double

/-- Zero, of either sign. -/
def zero (negative : Bool) : Double := .finite negative ⟨0, by decide⟩

/-- The double of a rank; past the last finite magnitude lies infinity. -/
def ofRank (negative : Bool) (rank : Nat) : Double :=
  if h : rank < rankCount then .finite negative ⟨rank, h⟩ else .infinite negative

/-- The double nearest to `digits * 10 ^ exponent`. Exponents that lead out of range are not
raised to. -/
def ofDecimal (negative : Bool) (digits : Nat) (exponent : Int) : Double :=
  if digits = 0 then zero negative
  else
    -- The number lies below ten to this power, and not below a tenth of that.
    let top := (natText digits).length + exponent
    if top > 310 then .infinite negative
    else if top < -330 then zero negative
    else if 0 ≤ exponent then ofRank negative (nearestRank (digits * 10 ^ exponent.toNat) 1)
    else ofRank negative (nearestRank digits (10 ^ (-exponent).toNat))

/-- The double nearest to an integer, unless that is out of range. -/
def ofInt? (n : Int) : Option Double :=
  match ofRank (n < 0) (nearestRank n.natAbs 1) with
  | .finite negative rank => some (.finite negative rank)
  | _ => none

/-- The double has a sign in front of its text. -/
def isNegative : Double → Bool
  | .finite negative _ => negative
  | .infinite negative => negative
  | .nan => false

/-- The number with the other sign. -/
def opposite : Double → Double
  | .finite negative rank => .finite (!negative) rank
  | .infinite negative => .infinite (!negative)
  | .nan => .nan

def isFinite : Double → Bool
  | .finite _ _ => true
  | _ => false

/-- Equality of the numbers: the two zeros are equal, and nothing equals what is no number. -/
def same : Double → Double → Bool
  | .finite a m, .finite b n => m = n && (a = b || m.val = 0)
  | .infinite a, .infinite b => a = b
  | _, _ => false

/-- The double is exactly this integer. -/
def isInt (x : Double) (n : Int) : Bool :=
  match x with
  | .finite negative rank =>
    n.natAbs * 2 ^ unitExponent = units rank && (n = 0 || (n < 0) = negative)
  | _ => false

theorem same_self {x : Double} (h : x.isFinite = true) : x.same x = true := by
  cases x <;> simp_all [same, isFinite]

end Double

end Styling.Decimal
