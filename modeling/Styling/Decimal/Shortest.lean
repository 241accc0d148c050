import Styling.Decimal.Numeral

/-!
# The shortest text of a double

Of all decimals that read back as a double, the ones with the fewest digits are looked for, and of
those the nearest. The search goes from one digit to seventeen and asks the two neighbours of the
magnitude on each decimal grid whether they read back. A hit reads back by construction
(`shortest_readsBack`), and the exact expansion stands behind the search.
-/

namespace Styling.Decimal

/-- A decimal magnitude `digits * 10 ^ exponent`. -/
structure Scaled where
  digits : Nat
  exponent : Int
deriving DecidableEq

/-- The decimal is read as the magnitude of this rank. -/
def Scaled.readsBack (d : Scaled) (rank : Nat) : Bool :=
  match Double.ofDecimal false d.digits d.exponent with
  | .finite _ r => r.val = rank
  | _ => false

/-- The quotient `magnitude / 10 ^ exponent` as numerator and denominator. -/
def gridRatio (rank : Nat) (exponent : Int) : Nat × Nat :=
  if 0 ≤ exponent then (units rank, 2 ^ unitExponent * 10 ^ exponent.toNat)
  else (units rank * 10 ^ (-exponent).toNat, 2 ^ unitExponent)

/-- The one of two decimals that reads back; if both do, the preferred one. -/
def pickHit? (rank : Nat) (below above : Scaled) (preferBelow : Bool) : Option Scaled :=
  if below.readsBack rank then
    if above.readsBack rank && !preferBelow then some above else some below
  else if above.readsBack rank then some above
  else none

/-- The neighbour of the magnitude on the grid of multiples of `10 ^ exponent` that reads back:
the nearer one if both do, the even one if they are equally near. -/
def gridHit? (rank : Nat) (exponent : Int) : Option Scaled :=
  let ratio := gridRatio rank exponent
  let low := ratio.1 / ratio.2
  -- Twice the remainder is compared with one step of the grid.
  let twice := 2 * (ratio.1 % ratio.2)
  pickHit? rank ⟨low, exponent⟩ ⟨low + 1, exponent⟩
    (twice < ratio.2 || (twice = ratio.2 && low % 2 = 0))

/-- The decimal exponent of the first digit, plus one: the magnitude is less than ten to this
power and not less than a tenth of it. -/
def decimalTop (rank : Nat) : Int :=
  -- Scaled so that even the smallest positive magnitude has digits before the point.
  (natText (units rank * 10 ^ (330 : Nat) / 2 ^ unitExponent)).length - 330

/-- The exact decimal expansion of a magnitude. -/
def exactDecimal (rank : Nat) : Scaled := ⟨units rank * 5 ^ unitExponent, -unitExponent⟩

/-- Digit counts that are tried; seventeen always suffice. -/
def digitCounts : List Nat := (List.range 17).map (· + 1)

/-- The first hit, from the coarsest grid to the finest. -/
def shortHit? (rank : Nat) : Option Scaled :=
  let top := decimalTop rank
  digitCounts.findSome? fun n => gridHit? rank (top - (n : Nat))

/-- The shortest decimal that reads back as the magnitude of a rank. -/
def shortest (rank : Nat) : Scaled := (shortHit? rank).getD (exactDecimal rank)

theorem pickHit?_readsBack {rank : Nat} {below above d : Scaled} {preferBelow : Bool}
    (h : pickHit? rank below above preferBelow = some d) : d.readsBack rank = true := by
  unfold pickHit? at h
  split at h
  · next hb =>
    split at h
    · next ha =>
      obtain rfl := Option.some.inj h
      exact (Bool.and_eq_true_iff.1 ha).1
    · exact Option.some.inj h ▸ hb
  · split at h
    · next ha => exact Option.some.inj h ▸ ha
    · contradiction

theorem gridHit?_readsBack {rank : Nat} {e : Int} {d : Scaled} (h : gridHit? rank e = some d) :
    d.readsBack rank = true := pickHit?_readsBack h

theorem shortHit?_readsBack {rank : Nat} {d : Scaled} (h : shortHit? rank = some d) :
    d.readsBack rank = true := by
  obtain ⟨n, -, hn⟩ := List.exists_of_findSome?_eq_some h
  exact gridHit?_readsBack hn

/-- The decimal found reads back, unless it is the exact expansion. -/
theorem shortest_readsBack (rank : Nat) :
    (shortest rank).readsBack rank = true ∨ shortest rank = exactDecimal rank := by
  unfold shortest
  cases h : shortHit? rank with
  | some hit => exact .inl (shortHit?_readsBack h)
  | none => exact .inr Option.getD_none

end Styling.Decimal
