import Styling.Text.Digit

/-!
# Integers as decimal text

Reading and writing integers. The text of an integer has at most `digitLimit` digits, in either
direction; reading takes the digits of any script. Reading what was written gives the integer
again (`read_intText`).
-/

namespace Styling.Decimal

open Styling.Text

/-- Powers of numbers are their own, whatever other powers a module knows of. -/
scoped instance (priority := 2000) natPow {α : Type} [NatPow α] : Pow α Nat := instPowNat

/-- The most digits that the text of an integer may have. -/
def digitLimit : Nat := 4300

/-- An integer text has more digits than the limit allows: one that was read, with its number of
digits, or one that was to be written. -/
inductive DigitExcess where
  | reading (digits : Nat)
  | writing
deriving DecidableEq, Repr

def DigitExcess.message : DigitExcess → String
  | .reading digits =>
    "Exceeds the limit (4300 digits) for integer string conversion: value has "
      ++ toString digits ++ " digits; use sys.set_int_max_str_digits() to increase the limit"
  | .writing =>
    "Exceeds the limit (4300 digits) for integer string conversion; "
      ++ "use sys.set_int_max_str_digits() to increase the limit"

/-- An optional sign and the characters after it. -/
def splitSign : List Char → Option Char × List Char
  | '-' :: s => (some '-', s)
  | '+' :: s => (some '+', s)
  | s => (none, s)

/-- The text of an integer: a sign, if there is one, and digits. -/
structure Integer where
  sign : Option Char
  digits : List Char

/-- The number written. -/
def Integer.value (n : Integer) : Int :=
  if n.sign = some '-' then -(digitsValue n.digits : Int) else digitsValue n.digits

/-- A text that is an optional sign and at least one digit, and nothing else. -/
def Integer.ofText? (s : List Char) : Option Integer :=
  let (sign, digits) := splitSign s
  if !digits.isEmpty && digits.all isDigit then some ⟨sign, digits⟩ else none

/-- The number written, refused when it has too many digits. Leading zeros count, the sign does
not. -/
def Integer.read (n : Integer) : Except DigitExcess Int :=
  if n.digits.length ≤ digitLimit then .ok n.value else .error (.reading n.digits.length)

/-- A natural number in decimal digits. -/
def natText (n : Nat) : List Char := Nat.toDigits 10 n

/-- An integer in decimal digits, with a sign when it is negative. -/
def intText : Int → List Char
  | .ofNat n => natText n
  | .negSucc n => '-' :: natText (n + 1)

/-- The integer has a text within the limit. -/
def isWritable (n : Int) : Bool := n.natAbs < 10 ^ digitLimit

/-- The text of an integer, refused when it would have too many digits. -/
def writeInt (n : Int) : Except DigitExcess (List Char) :=
  if isWritable n then .ok (intText n) else .error .writing

theorem isBasicDigit_of_isDigit {c : Char} (h : c.isDigit = true) : isBasicDigit c = true := by
  simpa [Char.isDigit, isBasicDigit, Char.le_def] using h

theorem natText_basic {n : Nat} {c : Char} (h : c ∈ natText n) : isBasicDigit c = true :=
  isBasicDigit_of_isDigit (Nat.isDigit_of_mem_toDigits (by decide) (by decide) h)

theorem natText_ne_nil (n : Nat) : natText n ≠ [] := Nat.toDigits_ne_nil

theorem digitsValue_append (s : List Char) (c : Char) :
    digitsValue (s ++ [c]) = 10 * digitsValue s + (digitValue? c).getD 0 := by
  simp [digitsValue, List.foldl_append]

theorem digitValue?_digitChar {d : Nat} (h : d < 10) : digitValue? d.digitChar = some d := by
  have all : ∀ e ∈ List.range 10, digitValue? e.digitChar = some e := by decide
  exact all d (List.mem_range.2 h)

theorem digitsValue_natText (n : Nat) : digitsValue (natText n) = n := by
  -- The last digit is split off; the other digits are those of a tenth of the number.
  induction n using Nat.strongRecOn with
  | _ n ih =>
    rw [natText, Nat.toDigits_eq_if (by decide)]
    split
    · next h => simp [digitsValue, digitValue?_digitChar h]
    · next h =>
      rw [digitsValue_append, digitValue?_digitChar (Nat.mod_lt _ (by decide))]
      have := ih (n / 10) (by omega)
      rw [natText] at this
      rw [this, Option.getD_some]
      omega

theorem length_natText_le_iff {n k : Nat} (hk : 0 < k) : (natText n).length ≤ k ↔ n < 10 ^ k :=
  Nat.length_toDigits_le_iff (by decide) hk

theorem splitSign_of_basic {s : List Char} (h : ∀ c ∈ s, isBasicDigit c = true) :
    splitSign s = (none, s) := by
  match s with
  | [] => rfl
  | c :: r =>
    have hc := h c (by simp)
    unfold splitSign
    split
    · simp_all [isBasicDigit]
    · simp_all [isBasicDigit]
    · rfl

/-- The text of an integer within the limit reads as that integer. -/
theorem read_intText {n : Int} (h : isWritable n = true) :
    ∃ i, Integer.ofText? (intText n) = some i ∧ i.read = .ok n := by
  have hlen : (natText n.natAbs).length ≤ digitLimit :=
    (length_natText_le_iff (by decide)).2 (by simpa [isWritable] using h)
  have hall (m : Nat) : (natText m).all isDigit = true :=
    List.all_eq_true.2 fun c hc => isDigit_of_isBasicDigit (natText_basic hc)
  have hne (m : Nat) : (natText m).isEmpty = false := by simp [natText_ne_nil]
  clear h
  cases n with
  | ofNat m =>
    refine ⟨⟨none, natText m⟩, ?_, ?_⟩
    · simp [Integer.ofText?, intText, splitSign_of_basic fun c => natText_basic, hall, hne]
    · have : (natText m).length ≤ digitLimit := hlen
      simp [Integer.read, this, Integer.value, digitsValue_natText]
  | negSucc m =>
    refine ⟨⟨some '-', natText (m + 1)⟩, ?_, ?_⟩
    · simp [Integer.ofText?, intText, splitSign, hall, hne]
    · have : (natText (m + 1)).length ≤ digitLimit := hlen
      simp [Integer.read, this, Integer.value, digitsValue_natText]
      omega

end Styling.Decimal
