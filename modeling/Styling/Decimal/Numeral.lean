import Styling.Decimal.Double

/-!
# Numerals

The decimal text of a number with an optional sign, point and exponent. `Numeral.scan` takes the
longest numeral that a text starts with, and its pieces put together are the part it took
(`eq_of_scan`).
-/

namespace Styling.Decimal

open Styling.Text

/-- The exponent of a numeral: its mark, an optional sign, and digits. -/
structure Exponent where
  mark : Char
  sign : Option Char
  digits : List Char

/-- The pieces of a numeral, as they are written. -/
structure Numeral where
  sign : Option Char
  whole : List Char
  point : Bool
  fraction : List Char
  exponent : Option Exponent

def Exponent.text (e : Exponent) : List Char := e.mark :: e.sign.toList ++ e.digits

def Exponent.value (e : Exponent) : Int :=
  if e.sign = some '-' then -(digitsValue e.digits : Int) else digitsValue e.digits

/-- The exponent that a text starts with; its mark needs at least one digit after it. -/
def Exponent.scan (digit : Char → Bool) : List Char → Option Exponent × List Char
  | [] => (none, [])
  | mark :: s =>
    let (sign, rest) := splitSign s
    let digits := rest.takeWhile digit
    if (mark = 'e' || mark = 'E') && !digits.isEmpty then
      (some ⟨mark, sign, digits⟩, rest.dropWhile digit)
    else (none, mark :: s)

namespace Numeral

def text (n : Numeral) : List Char :=
  n.sign.toList ++ n.whole ++ (if n.point then '.' :: n.fraction else [])
    ++ (n.exponent.map Exponent.text).getD []

/-- The part between the sign and the exponent: digits with or without a point, and at least one
digit in all. -/
def scanDigits (digit : Char → Bool) (s : List Char) :
    Option ((List Char × Bool × List Char) × List Char) :=
  let whole := s.takeWhile digit
  match s.dropWhile digit with
  | '.' :: rest =>
    let fraction := rest.takeWhile digit
    if whole.isEmpty && fraction.isEmpty then none
    else some ((whole, true, fraction), rest.dropWhile digit)
  | rest => if whole.isEmpty then none else some ((whole, false, []), rest)

/-- The longest numeral that a text starts with, and the rest of the text. -/
def scan (digit : Char → Bool) (s : List Char) : Option (Numeral × List Char) :=
  let (sign, body) := splitSign s
  (scanDigits digit body).map fun ((whole, point, fraction), rest) =>
    let (exponent, rest) := Exponent.scan digit rest
    (⟨sign, whole, point, fraction, exponent⟩, rest)

/-- The whole text as a numeral, in the digits of any script. -/
def ofText? (s : List Char) : Option Numeral :=
  match scan isDigit s with
  | some (n, []) => some n
  | _ => none

/-- The double nearest to the number written. -/
def double (n : Numeral) : Double :=
  Double.ofDecimal (n.sign = some '-') (digitsValue (n.whole ++ n.fraction))
    ((n.exponent.map Exponent.value).getD 0 - n.fraction.length)

end Numeral

theorem eq_of_splitSign (s : List Char) : s = (splitSign s).1.toList ++ (splitSign s).2 := by
  unfold splitSign
  split <;> simp

theorem Exponent.eq_of_scan {digit : Char → Bool} {s : List Char} :
    s = ((Exponent.scan digit s).1.map Exponent.text).getD [] ++ (Exponent.scan digit s).2 := by
  cases s with
  | nil => simp [Exponent.scan]
  | cons mark s =>
    simp only [Exponent.scan]
    split
    · simp only [Option.map_some, Option.getD_some, Exponent.text, List.cons_append,
        List.append_assoc, List.takeWhile_append_dropWhile]
      rw [← eq_of_splitSign]
    · simp

theorem Numeral.eq_of_scanDigits {digit : Char → Bool} {s r : List Char} {w f : List Char}
    {p : Bool} (h : scanDigits digit s = some ((w, p, f), r)) :
    s = w ++ (if p then '.' :: f else []) ++ r := by
  have hs := List.takeWhile_append_dropWhile (p := digit) (l := s)
  unfold scanDigits at h
  split at h
  · next rest hr =>
    simp only at h
    split at h
    · contradiction
    · obtain ⟨⟨rfl, rfl, rfl⟩, rfl⟩ :
          ((s.takeWhile digit = w ∧ true = p ∧ rest.takeWhile digit = f)
            ∧ rest.dropWhile digit = r) := by simpa using h
      rw [hr] at hs
      simp [List.takeWhile_append_dropWhile, hs]
  · simp only at h
    split at h
    · contradiction
    · obtain ⟨⟨rfl, rfl, rfl⟩, rfl⟩ :
          ((s.takeWhile digit = w ∧ false = p ∧ [] = f) ∧ s.dropWhile digit = r) := by
        simpa using h
      simp [hs]

/-- A numeral has digits before its point, or a point. -/
theorem Numeral.digits_or_point_of_scanDigits {digit : Char → Bool} {s r : List Char}
    {w f : List Char} {p : Bool} (h : scanDigits digit s = some ((w, p, f), r)) :
    w ≠ [] ∨ p = true := by
  unfold scanDigits at h
  split at h
  · simp only at h
    split at h
    · contradiction
    · exact .inr (Prod.mk.inj (Prod.mk.inj (Prod.mk.inj (Option.some.inj h)).1).2).1.symm
  · simp only at h
    split at h
    · contradiction
    · next hw =>
      left
      rintro rfl
      exact hw (List.isEmpty_iff.2 (Prod.mk.inj (Prod.mk.inj (Option.some.inj h)).1).1)

/-- What the scan took, followed by what it left, is the text. -/
theorem Numeral.eq_of_scan {digit : Char → Bool} {s r : List Char} {n : Numeral}
    (h : scan digit s = some (n, r)) : s = n.text ++ r := by
  have hs := eq_of_splitSign s
  simp only [scan, Option.map_eq_some_iff] at h
  obtain ⟨⟨⟨w, p, f⟩, t⟩, hd, he⟩ := h
  rw [eq_of_scanDigits hd, @Exponent.eq_of_scan digit t] at hs
  obtain ⟨rfl, rfl⟩ := Prod.mk.inj he
  simpa [text, List.append_assoc] using hs

end Styling.Decimal
