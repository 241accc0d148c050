import Mathlib.Data.List.Basic
import Mathlib.Data.List.Induction
import Styling.Decimal.Layout
import Styling.Proofs.Doubles
import Styling.Proofs.Separation

/-!
# The text of a double is read as that double

A numeral is well formed over some digits when its pieces are what their names say
(`Numeral.WellFormed`). The scanner takes a well-formed numeral off a text whole, whatever follows
it as long as that does not go on like the numeral, and takes nothing else
(`Numeral.scan_eq_some_iff`).

The digits of a magnitude can be laid out without an exponent, with one, or with zeros in front of
them or after them. In every layout the result is a well-formed numeral that writes the same decimal
up to a factor of ten between digits and exponent (`Layout.exists_digitsText`), so the text of every
finite double is a numeral for that double (`Layout.exists_text`, `ofText?_doubleText`).
-/

set_option autoImplicit false

namespace Styling.Decimal

open Styling.Text

/-! ## Digit runs -/

theorem digitsValue_append_list (s t : List Char) :
    digitsValue (s ++ t) = digitsValue s * 10 ^ t.length + digitsValue t := by
  induction t using List.reverseRecOn with
  | nil => simp [digitsValue]
  | append_singleton t c ih =>
    rw [← List.append_assoc, digitsValue_append, digitsValue_append, ih, List.length_append,
      List.length_singleton, Nat.pow_succ, ← Nat.mul_assoc, Nat.mul_add]
    omega

theorem digitsValue_zeros (n : Nat) : digitsValue (zeros n) = 0 := by
  induction n with
  | zero => rfl
  | succ n ih =>
    rw [zeros, List.replicate_succ', digitsValue_append]
    rw [zeros] at ih
    rw [ih]
    rfl

theorem digitsValue_zeros_append (n : Nat) (s : List Char) :
    digitsValue (zeros n ++ s) = digitsValue s := by
  rw [digitsValue_append_list, digitsValue_zeros, Nat.zero_mul, Nat.zero_add]

theorem digitsValue_append_zeros (s : List Char) (n : Nat) :
    digitsValue (s ++ zeros n) = digitsValue s * 10 ^ n := by
  rw [digitsValue_append_list, digitsValue_zeros, Nat.add_zero, zeros, List.length_replicate]

theorem digitValue?_lt {c : Char} {d : Nat} (h : digitValue? c = some d) : d < 10 := by
  unfold digitValue? at h
  split at h
  · split at h
    · next hc =>
      rw [Bool.and_eq_true, decide_eq_true_eq, decide_eq_true_eq] at hc
      obtain rfl := Option.some.inj h
      omega
    · contradiction
  · obtain ⟨z, hz, rfl⟩ := Option.map_eq_some_iff.1 h
    have hrange := List.find?_some hz
    rw [Bool.and_eq_true, decide_eq_true_eq, decide_eq_true_eq] at hrange
    omega

/-- A run of digits writes a number below ten to its length. -/
theorem digitsValue_lt (s : List Char) : digitsValue s < 10 ^ s.length := by
  induction s using List.reverseRecOn with
  | nil => simp [digitsValue]
  | append_singleton s c ih =>
    have hc : (digitValue? c).getD 0 < 10 := by
      cases h : digitValue? c with
      | none => simp
      | some d => exact digitValue?_lt h
    rw [digitsValue_append, List.length_append, List.length_singleton, Nat.pow_succ]
    omega

theorem zeros_basic {n : Nat} {c : Char} (h : c ∈ zeros n) : isBasicDigit c = true := by
  rw [zeros, List.mem_replicate] at h
  rw [h.2]
  rfl

theorem stripZeros_append (s : List Char) :
    ∃ n, s = stripZeros s ++ zeros n := by
  refine ⟨(s.reverse.takeWhile (· = '0')).length, ?_⟩
  have hzeros : s.reverse.takeWhile (· = '0')
      = zeros (s.reverse.takeWhile (· = '0')).length := by
    rw [zeros, List.eq_replicate_iff]
    exact ⟨rfl, fun c hc => by simpa using List.mem_takeWhile_imp hc⟩
  have hsplit := List.takeWhile_append_dropWhile (p := (· = '0')) (l := s.reverse)
  calc s = (s.reverse.takeWhile (· = '0') ++ s.reverse.dropWhile (· = '0')).reverse := by
        rw [hsplit, List.reverse_reverse]
    _ = stripZeros s ++ zeros (s.reverse.takeWhile (· = '0')).length := by
        rw [List.reverse_append, stripZeros]
        congr 1
        rw [hzeros, zeros, List.reverse_replicate, List.length_replicate, zeros]

/-! ## Scanning a numeral off a text -/

/-- The characters of a numeral that are no digits. -/
def isNumeralMark (c : Char) : Bool := ['+', '-', '.', 'e', 'E'].contains c

/-- A class of digits that leaves the marks of numerals alone. -/
def IsDigitClass (digit : Char → Bool) : Prop := ∀ c, isNumeralMark c = true → digit c = false

theorem isDigitClass_isDigit : IsDigitClass isDigit := by
  intro c hc
  simp only [isNumeralMark, List.contains_eq_mem, List.mem_cons, List.not_mem_nil, or_false,
    decide_eq_true_eq] at hc
  rcases hc with rfl | rfl | rfl | rfl | rfl <;> decide

theorem isDigitClass_isBasicDigit : IsDigitClass isBasicDigit := by
  intro c hc
  rw [← Bool.not_eq_true]
  intro hbasic
  have hdigit := isDigitClass_isDigit c hc
  rw [isDigit_of_isBasicDigit hbasic] at hdigit
  contradiction

/-- A sign, or none. -/
def IsSign (sign : Option Char) : Prop := sign = none ∨ sign = some '-' ∨ sign = some '+'

structure Exponent.WellFormed (digit : Char → Bool) (e : Exponent) : Prop where
  mark : e.mark = 'e' ∨ e.mark = 'E'
  sign : IsSign e.sign
  nonempty : e.digits ≠ []
  digits : ∀ c ∈ e.digits, digit c = true

/-- The pieces of a numeral are what their names say. -/
structure Numeral.WellFormed (digit : Char → Bool) (n : Numeral) : Prop where
  sign : IsSign n.sign
  whole : ∀ c ∈ n.whole, digit c = true
  fraction : ∀ c ∈ n.fraction, digit c = true
  point : n.point = false → n.fraction = []
  nonempty : n.whole ≠ [] ∨ n.fraction ≠ []
  exponent : ∀ e ∈ n.exponent, e.WellFormed digit

/-- A text does not go on like a numeral. -/
def EndsNumeral (digit : Char → Bool) (rest : List Char) : Prop :=
  ∀ c ∈ rest.head?, digit c = false ∧ c ≠ '.' ∧ c ≠ 'e' ∧ c ≠ 'E'

/-- A text does not start with an exponent. -/
def StartsNoExponent (digit : Char → Bool) (s : List Char) : Prop :=
  ∀ e : Exponent, e.WellFormed digit → ¬e.text <+: s

/-- A text does not go on like this numeral. A point can follow one that has a point already, and
nothing but digits can be added to an exponent. -/
structure Numeral.Ends (digit : Char → Bool) (n : Numeral) (rest : List Char) : Prop where
  digits : ∀ c ∈ rest.head?, digit c = false
  point : n.point = false → n.exponent = none → rest.head? ≠ some '.'
  exponent : n.exponent = none → StartsNoExponent digit rest

theorem EndsNumeral.ends {digit : Char → Bool} {rest : List Char} (h : EndsNumeral digit rest)
    (n : Numeral) : n.Ends digit rest where
  digits := fun c hc => (h c hc).1
  point := fun _ _ hc => (h '.' hc).2.1 rfl
  exponent := by
    rintro - e he ⟨t, rfl⟩
    obtain ⟨-, -, hlow, hup⟩ := h e.mark rfl
    exact he.mark.elim hlow hup

theorem isSign_splitSign (s : List Char) : IsSign (splitSign s).1 := by
  unfold splitSign
  split
  · exact Or.inr (Or.inl rfl)
  · exact Or.inr (Or.inr rfl)
  · exact Or.inl rfl

theorem splitSign_append {sign : Option Char} (hs : IsSign sign) {s : List Char}
    (h : ∀ c ∈ s.head?, c ≠ '-' ∧ c ≠ '+') : splitSign (sign.toList ++ s) = (sign, s) := by
  rcases hs with rfl | rfl | rfl
  -- Without a sign it matters that the rest does not start with one.
  · cases s with
    | nil => rfl
    | cons c s =>
      obtain ⟨hm, hp⟩ := h c rfl
      rw [Option.toList_none, List.nil_append]
      unfold splitSign
      split
      · next heq =>
        cases heq
        contradiction
      · next heq =>
        cases heq
        contradiction
      · rfl
  · rfl
  · rfl

section Scan

variable {digit : Char → Bool}

/-- A digit is no sign. -/
theorem digits_head (hd : IsDigitClass digit) {s t : List Char} (hne : s ≠ [])
    (hs : ∀ c ∈ s, digit c = true) : ∀ c ∈ (s ++ t).head?, c ≠ '-' ∧ c ≠ '+' := by
  intro c hc
  rw [List.head?_append_of_ne_nil s hne] at hc
  have hdigit : digit c = true := hs c (List.mem_of_mem_head? hc)
  constructor
  · rintro rfl
    rw [hd '-' (by decide)] at hdigit
    contradiction
  · rintro rfl
    rw [hd '+' (by decide)] at hdigit
    contradiction

/-- An exponent is scanned with all digits that follow it. -/
theorem Exponent.scan_append (hd : IsDigitClass digit) {e : Exponent} (he : e.WellFormed digit)
    (rest : List Char) :
    Exponent.scan digit (e.text ++ rest) =
      (some { e with digits := e.digits ++ rest.takeWhile digit }, rest.dropWhile digit) := by
  have hmark : (e.mark = 'e' || e.mark = 'E') = true := by
    rcases he.mark with hm | hm <;> simp [hm]
  have hsign : splitSign (e.sign.toList ++ (e.digits ++ rest)) = (e.sign, e.digits ++ rest) :=
    splitSign_append he.sign (digits_head hd he.nonempty he.digits)
  have hne : (e.digits ++ rest.takeWhile digit).isEmpty = false :=
    List.isEmpty_eq_false_iff.2 (List.append_ne_nil_of_left_ne_nil he.nonempty _)
  simp only [Exponent.text, List.cons_append, List.append_assoc, Exponent.scan, hsign,
    List.takeWhile_append_of_pos he.digits, List.dropWhile_append_of_pos he.digits, hmark, hne,
    Bool.not_false, Bool.and_self, ↓reduceIte]

theorem Exponent.scan_eq_some {s r : List Char} {e : Exponent}
    (h : Exponent.scan digit s = (some e, r)) :
    e.WellFormed digit ∧ ∀ c ∈ r.head?, digit c = false := by
  cases s with
  | nil => cases h
  | cons mark s =>
    simp only [Exponent.scan] at h
    split at h
    · next hcond =>
      obtain ⟨he, rfl⟩ := Prod.mk.inj h
      obtain rfl := Option.some.inj he
      simp only [Bool.and_eq_true, Bool.or_eq_true, decide_eq_true_eq, Bool.not_eq_true',
        List.isEmpty_eq_false_iff] at hcond
      refine ⟨⟨hcond.1, isSign_splitSign s, hcond.2, fun c hc => List.mem_takeWhile_imp hc⟩, ?_⟩
      intro c hc
      have hhead := List.head?_dropWhile_not digit (splitSign s).2
      rw [Option.mem_def.1 hc] at hhead
      simpa using hhead
    · cases h

/-- Where no exponent is found there is none. -/
theorem Exponent.scan_eq_none_iff (hd : IsDigitClass digit) {s r : List Char} :
    Exponent.scan digit s = (none, r) ↔ r = s ∧ StartsNoExponent digit s := by
  have hsplit := @Exponent.eq_of_scan digit s
  constructor
  · intro h
    rw [h] at hsplit
    obtain rfl : s = r := hsplit
    refine ⟨rfl, ?_⟩
    rintro e he ⟨t, rfl⟩
    rw [Exponent.scan_append hd he] at h
    cases h
  · rintro ⟨rfl, hno⟩
    cases hscan : Exponent.scan digit r with
    | mk found rest =>
      rw [hscan] at hsplit
      cases found with
      | none =>
        obtain rfl : r = rest := hsplit
        rfl
      | some e => exact absurd ⟨rest, hsplit.symm⟩ (hno e (Exponent.scan_eq_some hscan).1)

/-- The exponent of a numeral is scanned off what follows its digits. -/
theorem Numeral.scan_exponent (hd : IsDigitClass digit) {n : Numeral} (hn : n.WellFormed digit)
    {rest : List Char} (hr : n.Ends digit rest) :
    Exponent.scan digit ((n.exponent.map Exponent.text).getD [] ++ rest) = (n.exponent, rest) := by
  cases he : n.exponent with
  | none => exact (Exponent.scan_eq_none_iff hd).2 ⟨rfl, hr.exponent he⟩
  | some e =>
    obtain ⟨htake, hdrop⟩ := span_append (List.forall_mem_nil _) hr.digits
    rw [List.nil_append] at htake hdrop
    rw [Option.map_some, Option.getD_some, Exponent.scan_append hd (hn.exponent e he), htake, hdrop,
      List.append_nil]

/-- What stands after the digits of a numeral starts with no digit, and with no point unless there
was one. -/
theorem exponent_head (hd : IsDigitClass digit) {n : Numeral} (hn : n.WellFormed digit)
    {rest : List Char} (hr : n.Ends digit rest) :
    ∀ c ∈ ((n.exponent.map Exponent.text).getD [] ++ rest).head?,
      digit c = false ∧ (n.point = false → c ≠ '.') := by
  intro c hc
  cases he : n.exponent with
  | none =>
    rw [he] at hc
    refine ⟨hr.digits c hc, ?_⟩
    rintro hp rfl
    exact hr.point hp he hc
  | some e =>
    rw [he] at hc
    obtain rfl : e.mark = c := by simpa [Exponent.text] using hc
    rcases (hn.exponent e he).mark with hm | hm
    · rw [hm]
      exact ⟨hd 'e' (by decide), fun _ => by decide⟩
    · rw [hm]
      exact ⟨hd 'E' (by decide), fun _ => by decide⟩

theorem Numeral.scanDigits_text (hd : IsDigitClass digit) {n : Numeral} (hn : n.WellFormed digit)
    {tail : List Char}
    (ht : ∀ c ∈ tail.head?, digit c = false ∧ (n.point = false → c ≠ '.')) :
    Numeral.scanDigits digit (n.whole ++ ((if n.point then '.' :: n.fraction else []) ++ tail))
      = some ((n.whole, n.point, n.fraction), tail) := by
  cases hp : n.point with
  | true =>
    have hpoint : ∀ c ∈ ('.' :: (n.fraction ++ tail)).head?, digit c = false := by
      intro c hc
      obtain rfl : '.' = c := by simpa using hc
      exact hd '.' (by decide)
    obtain ⟨htake, hdrop⟩ := span_append hn.whole hpoint
    obtain ⟨htake', hdrop'⟩ := span_append hn.fraction fun c hc => (ht c hc).1
    have hne : (n.whole.isEmpty && n.fraction.isEmpty) = false := by
      rcases hn.nonempty with h | h <;> simp [h]
    simp only [↓reduceIte, List.cons_append, Numeral.scanDigits, htake, hdrop, htake', hdrop', hne,
      Bool.false_eq_true]
  | false =>
    have hfraction := hn.point hp
    have hwhole : n.whole ≠ [] := by
      rcases hn.nonempty with h | h
      · exact h
      · contradiction
    obtain ⟨htake, hdrop⟩ := span_append hn.whole fun c hc => (ht c hc).1
    simp only [Bool.false_eq_true, ↓reduceIte, List.nil_append, Numeral.scanDigits, htake, hdrop,
      hfraction]
    -- What follows the digits is no point.
    split
    · next heq => exact absurd rfl ((ht '.' rfl).2 hp)
    · simp [hwhole]

/-- **A well-formed numeral is scanned off a text whole.** -/
theorem Numeral.scan_text_of_ends (hd : IsDigitClass digit) {n : Numeral}
    (hn : n.WellFormed digit) {rest : List Char} (hr : n.Ends digit rest) :
    Numeral.scan digit (n.text ++ rest) = some (n, rest) := by
  have htail := exponent_head hd hn hr
  have hbody : ∀ c ∈ (n.whole ++ ((if n.point then '.' :: n.fraction else [])
      ++ ((n.exponent.map Exponent.text).getD [] ++ rest))).head?, c ≠ '-' ∧ c ≠ '+' := by
    by_cases hw : n.whole = []
    · -- Without digits before it the point comes first.
      have hp : n.point = true := by
        cases hp : n.point with
        | true => rfl
        | false =>
          rcases hn.nonempty with h | h
          · contradiction
          · exact absurd (hn.point hp) h
      intro c hc
      rw [hw, hp] at hc
      obtain rfl : '.' = c := by simpa using hc
      decide
    · exact digits_head hd hw hn.whole
  have htext : n.text ++ rest = n.sign.toList ++ (n.whole ++
      ((if n.point then '.' :: n.fraction else [])
        ++ ((n.exponent.map Exponent.text).getD [] ++ rest))) := by
    rw [Numeral.text, List.append_assoc, List.append_assoc, List.append_assoc]
  rw [htext, Numeral.scan, splitSign_append hn.sign hbody]
  simp only [scanDigits_text hd hn htail, Option.map_some, scan_exponent hd hn hr]

theorem Numeral.scan_text (hd : IsDigitClass digit) {n : Numeral} (hn : n.WellFormed digit)
    {rest : List Char} (hr : EndsNumeral digit rest) :
    Numeral.scan digit (n.text ++ rest) = some (n, rest) :=
  scan_text_of_ends hd hn (hr.ends n)

/-- What the scan of the digits takes is made of digits, and it stops where they end. -/
theorem Numeral.scanDigits_eq_some {s r w f : List Char} {p : Bool}
    (h : Numeral.scanDigits digit s = some ((w, p, f), r)) :
    (∀ c ∈ w, digit c = true) ∧ (∀ c ∈ f, digit c = true) ∧ (p = false → f = []) ∧
      (w ≠ [] ∨ f ≠ []) ∧ (∀ c ∈ r.head?, digit c = false) ∧
      (p = false → r.head? ≠ some '.') := by
  have hstop : ∀ t : List Char, ∀ c ∈ (t.dropWhile digit).head?, digit c = false := by
    intro t c hc
    have hhead := List.head?_dropWhile_not digit t
    rw [Option.mem_def.1 hc] at hhead
    simpa using hhead
  have htake : ∀ t : List Char, ∀ c ∈ t.takeWhile digit, digit c = true :=
    fun t c hc => List.mem_takeWhile_imp hc
  unfold Numeral.scanDigits at h
  split at h
  · next rest hdrop =>
    simp only at h
    split at h
    · cases h
    · next hne =>
      simp only [Option.some.injEq, Prod.mk.injEq] at h
      obtain ⟨⟨rfl, rfl, rfl⟩, rfl⟩ := h
      refine ⟨htake s, htake rest, by simp, ?_, hstop rest, by simp⟩
      by_contra hboth
      rw [not_or, not_not, not_not] at hboth
      simp [hboth] at hne
  · next hno =>
    simp only at h
    split at h
    · cases h
    · next hne =>
      simp only [Option.some.injEq, Prod.mk.injEq] at h
      obtain ⟨⟨rfl, rfl, rfl⟩, rfl⟩ := h
      refine ⟨htake s, by simp, fun _ => rfl, .inl (by simpa using hne), hstop s, ?_⟩
      intro _ hc
      obtain ⟨t, ht⟩ := List.head?_eq_some_iff.1 hc
      exact hno t ht

/-- **The numeral that a text starts with.** -/
theorem Numeral.scan_eq_some_iff (hd : IsDigitClass digit) {s r : List Char} {n : Numeral} :
    Numeral.scan digit s = some (n, r) ↔
      n.WellFormed digit ∧ s = n.text ++ r ∧ n.Ends digit r := by
  constructor
  · intro h
    have htext := Numeral.eq_of_scan h
    simp only [Numeral.scan, Option.map_eq_some_iff] at h
    obtain ⟨⟨⟨w, p, f⟩, t⟩, hdigits, he⟩ := h
    obtain ⟨hw, hf, hp, hne, ht, hpoint⟩ := Numeral.scanDigits_eq_some hdigits
    cases hscan : Exponent.scan digit t with
    | mk e rest =>
      simp only [hscan] at he
      obtain ⟨rfl, rfl⟩ := Prod.mk.inj he
      cases e with
      | none =>
        -- Nothing was taken after the digits, so what stops them also ends the numeral.
        obtain ⟨rfl, hno⟩ := (Exponent.scan_eq_none_iff hd).1 hscan
        exact ⟨⟨isSign_splitSign s, hw, hf, hp, hne, by simp⟩, htext,
          ⟨ht, fun hp _ => hpoint hp, fun _ => hno⟩⟩
      | some e =>
        obtain ⟨hwell, hrest⟩ := Exponent.scan_eq_some hscan
        refine ⟨⟨isSign_splitSign s, hw, hf, hp, hne, ?_⟩, htext, ⟨hrest, by simp, by simp⟩⟩
        intro x hx
        obtain rfl := Option.some.inj hx
        exact hwell
  · rintro ⟨hn, rfl, hr⟩
    exact Numeral.scan_text_of_ends hd hn hr

end Scan

/-! ## Numerals that stand alone -/

theorem Numeral.WellFormed.mono {p q : Char → Bool} {n : Numeral} (hn : n.WellFormed p)
    (h : ∀ c, p c = true → q c = true) : n.WellFormed q where
  sign := hn.sign
  whole := fun c hc => h c (hn.whole c hc)
  fraction := fun c hc => h c (hn.fraction c hc)
  point := hn.point
  nonempty := hn.nonempty
  exponent := fun e he =>
    let x := hn.exponent e he
    ⟨x.mark, x.sign, x.nonempty, fun c hc => h c (x.digits c hc)⟩

theorem Numeral.WellFormed.withSign {digit : Char → Bool} {n : Numeral} (hn : n.WellFormed digit)
    {sign : Option Char} (hs : IsSign sign) :
    ({ n with sign := sign } : Numeral).WellFormed digit :=
  ⟨hs, hn.whole, hn.fraction, hn.point, hn.nonempty, hn.exponent⟩

/-- The text of a well-formed numeral is that numeral. -/
theorem Numeral.ofText?_text {n : Numeral} (hn : n.WellFormed isDigit) :
    Numeral.ofText? n.text = some n := by
  have hend : EndsNumeral isDigit [] := by simp [EndsNumeral]
  have hscan := Numeral.scan_text isDigitClass_isDigit hn hend
  rw [List.append_nil] at hscan
  rw [Numeral.ofText?, hscan]

/-- The characters of a well-formed numeral are digits and marks. -/
theorem Numeral.mem_text {digit : Char → Bool} {n : Numeral} (hn : n.WellFormed digit) {c : Char}
    (hc : c ∈ n.text) : digit c = true ∨ isNumeralMark c = true := by
  have hsign : ∀ sign, IsSign sign → c ∈ sign.toList → isNumeralMark c = true := by
    rintro sign (rfl | rfl | rfl) h
    · contradiction
    · rw [List.mem_singleton.1 h]
      decide
    · rw [List.mem_singleton.1 h]
      decide
  rw [Numeral.text, List.mem_append, List.mem_append, List.mem_append] at hc
  rcases hc with ((hc | hc) | hc) | hc
  · exact Or.inr (hsign n.sign hn.sign hc)
  · exact Or.inl (hn.whole c hc)
  · split at hc
    · rcases List.mem_cons.1 hc with rfl | hc
      · exact Or.inr (by decide)
      · exact Or.inl (hn.fraction c hc)
    · contradiction
  · cases he : n.exponent with
    | none =>
      rw [he] at hc
      contradiction
    | some e =>
      have hwell := hn.exponent e he
      rw [he, Option.map_some, Option.getD_some, Exponent.text, List.mem_append,
        List.mem_cons] at hc
      rcases hc with (rfl | hc) | hc
      · rcases hwell.mark with hm | hm <;> exact Or.inr (by rw [hm]; decide)
      · exact Or.inr (hsign e.sign hwell.sign hc)
      · exact Or.inl (hwell.digits c hc)

/-- A numeral with a point or an exponent is not the text of an integer. -/
theorem Integer.ofText?_numeral {n : Numeral} (hn : n.WellFormed isDigit)
    (h : n.point = true ∨ n.exponent.isSome = true) : Integer.ofText? n.text = none := by
  have hmark : ∃ c ∈ n.text, isDigit c = false ∧ c ≠ '-' ∧ c ≠ '+' := by
    rcases h with hp | he
    · exact ⟨'.', by simp [Numeral.text, hp], by decide⟩
    · obtain ⟨e, he⟩ := Option.isSome_iff_exists.1 he
      refine ⟨e.mark, by simp [Numeral.text, he, Exponent.text], ?_⟩
      rcases (hn.exponent e he).mark with hm | hm
      · rw [hm]
        decide
      · rw [hm]
        decide
  obtain ⟨c, hc, hno, hminus, hplus⟩ := hmark
  -- The mark is no sign, so it is among what has to be digits.
  have hmem : c ∈ (splitSign n.text).2 := by
    rw [eq_of_splitSign n.text, List.mem_append] at hc
    rcases hc with hc | hc
    · rcases isSign_splitSign n.text with hs | hs | hs
      · rw [hs] at hc
        contradiction
      · rw [hs] at hc
        exact absurd (List.mem_singleton.1 hc) hminus
      · rw [hs] at hc
        exact absurd (List.mem_singleton.1 hc) hplus
    · exact hc
  have hall : (splitSign n.text).2.all isDigit = false := by
    rw [List.all_eq_false]
    exact ⟨c, hmem, by simp [hno]⟩
  rw [Integer.ofText?]
  simp [hall]

/-! ## Layouts -/

/-- The decimal `d * 10 ^ e`, up to a factor of ten between digits and exponent, is what the pieces
of a numeral write. -/
def Numeral.Writes (n : Numeral) (d : Nat) (e : Int) : Prop :=
  ∃ k : Nat, digitsValue (n.whole ++ n.fraction) = d * 10 ^ k
    ∧ (n.exponent.map Exponent.value).getD 0 - n.fraction.length + k = e

theorem Numeral.Writes.double {n : Numeral} {d : Nat} {e : Int} (h : n.Writes d e) :
    n.double = Double.ofDecimal (n.sign = some '-') d e := by
  obtain ⟨k, hd, rfl⟩ := h
  rw [Numeral.double, hd, ofDecimal_shift]

theorem digitsValue_paddedNat (width n : Nat) : digitsValue (paddedNat width n) = n := by
  rw [paddedNat, digitsValue_zeros_append, digitsValue_natText]

/-- The exponent that a layout writes. -/
def exponentOf (width : Nat) (e : Int) : Exponent :=
  ⟨'e', some (if e < 0 then '-' else '+'), paddedNat width e.natAbs⟩

theorem exponentOf_wellFormed (width : Nat) (e : Int) :
    (exponentOf width e).WellFormed isBasicDigit where
  mark := Or.inl rfl
  sign := by
    rw [exponentOf]
    split
    · exact Or.inr (Or.inl rfl)
    · exact Or.inr (Or.inr rfl)
  nonempty := by simp [exponentOf, paddedNat, natText_ne_nil]
  digits := by
    intro c hc
    rcases List.mem_append.1 hc with hc | hc
    · exact zeros_basic hc
    · exact natText_basic hc

theorem exponentOf_value (width : Nat) (e : Int) : (exponentOf width e).value = e := by
  rw [exponentOf, Exponent.value, digitsValue_paddedNat]
  by_cases he : e < 0
  · rw [if_pos he, if_pos rfl]
    omega
  · rw [if_neg he, if_neg (by simp)]
    omega

/-- A numeral without a sign that is written as a text and writes a decimal. -/
structure Numeral.Spells (n : Numeral) (text : List Char) (d : Nat) (e : Int) : Prop where
  text_eq : n.text = text
  unsigned : n.sign = none
  wellFormed : n.WellFormed isBasicDigit
  writes : n.Writes d e

section Digits

variable {digits : List Char} (hd : ∀ c ∈ digits, isBasicDigit c = true)
include hd

/-- The digits stand behind the point, with zeros in front of them. -/
theorem spells_behindPoint {point : Int} (hp : point ≤ 0) :
    Numeral.Spells ⟨none, ['0'], true, zeros (-point).toNat ++ digits, none⟩
      ('0' :: '.' :: zeros (-point).toNat ++ digits) (digitsValue digits)
      (point - digits.length) where
  text_eq := by simp [Numeral.text]
  unsigned := rfl
  wellFormed := by
    refine ⟨Or.inl rfl, by simp [isBasicDigit], ?_, by simp, by simp, by simp⟩
    intro c hc
    rcases List.mem_append.1 hc with hc | hc
    · exact zeros_basic hc
    · exact hd c hc
  writes := by
    refine ⟨0, ?_, ?_⟩
    · -- The zero before the point is a run of zeros as well.
      show digitsValue (zeros 1 ++ (zeros (-point).toNat ++ digits)) = _
      rw [digitsValue_zeros_append, digitsValue_zeros_append, Nat.pow_zero, Nat.mul_one]
    · simp only [Option.map_none, Option.getD_none, List.length_append, zeros,
        List.length_replicate]
      omega

/-- The digits stand before the point, with zeros after them. -/
theorem spells_beforePoint (hne : digits ≠ []) {point : Int}
    (hlen : digits.length ≤ point.toNat) (b : Bool) :
    Numeral.Spells
      ⟨none, digits ++ zeros (point.toNat - digits.length), b, if b then ['0'] else [], none⟩
      (digits ++ zeros (point.toNat - digits.length) ++ if b then ['.', '0'] else [])
      (digitsValue digits) (point - digits.length) where
  text_eq := by cases b <;> simp [Numeral.text]
  unsigned := rfl
  wellFormed := by
    refine ⟨Or.inl rfl, ?_, ?_, ?_, by simp [hne], by simp⟩
    · intro c hc
      rcases List.mem_append.1 hc with hc | hc
      · exact hd c hc
      · exact zeros_basic hc
    · cases b <;> simp [isBasicDigit]
    · cases b <;> simp
  writes := by
    have hpos : 0 < digits.length := List.length_pos_iff.2 hne
    -- The zero behind the point is one more factor of ten than the zeros before it.
    cases b with
    | true =>
      refine ⟨point.toNat - digits.length + 1, ?_, ?_⟩
      · show digitsValue (digits ++ zeros (point.toNat - digits.length) ++ zeros 1) = _
        rw [digitsValue_append_zeros, digitsValue_append_zeros, Nat.mul_assoc, ← Nat.pow_add]
      · simp only [↓reduceIte, Option.map_none, Option.getD_none, List.length_singleton]
        omega
    | false =>
      refine ⟨point.toNat - digits.length, ?_, ?_⟩
      · simp only [Bool.false_eq_true, ↓reduceIte, List.append_nil, digitsValue_append_zeros]
      · simp only [Bool.false_eq_true, ↓reduceIte, Option.map_none, Option.getD_none,
          List.length_nil]
        omega

/-- The point stands between two digits. -/
theorem spells_aroundPoint {point : Int} (hp : 0 < point) (hlen : point.toNat < digits.length) :
    Numeral.Spells ⟨none, digits.take point.toNat, true, digits.drop point.toNat, none⟩
      (digits.take point.toNat ++ '.' :: digits.drop point.toNat) (digitsValue digits)
      (point - digits.length) where
  text_eq := by simp [Numeral.text]
  unsigned := rfl
  wellFormed := by
    refine ⟨Or.inl rfl, fun c hc => hd c (List.mem_of_mem_take hc),
      fun c hc => hd c (List.mem_of_mem_drop hc), by simp, Or.inr ?_, by simp⟩
    rw [ne_eq, List.drop_eq_nil_iff]
    omega
  writes := by
    refine ⟨0, ?_, ?_⟩
    · rw [List.take_append_drop, Nat.pow_zero, Nat.mul_one]
    · simp only [Option.map_none, Option.getD_none, List.length_drop]
      omega

/-- One digit stands before the point, the others behind it, and an exponent after them. -/
theorem spells_exponent (hne : digits ≠ []) (width : Nat) (point : Int) :
    Numeral.Spells ⟨none, digits.take 1, !(digits.drop 1).isEmpty, digits.drop 1,
        some (exponentOf width (point - 1))⟩
      (digits.take 1 ++ (if (digits.drop 1).isEmpty then [] else '.' :: digits.drop 1)
        ++ 'e' :: (if point - 1 < 0 then '-' else '+') :: paddedNat width (point - 1).natAbs)
      (digitsValue digits) (point - digits.length) where
  text_eq := by
    cases h : (digits.drop 1).isEmpty <;> simp [Numeral.text, exponentOf, Exponent.text]
  unsigned := rfl
  wellFormed := by
    refine ⟨Or.inl rfl, fun c hc => hd c (List.mem_of_mem_take hc),
      fun c hc => hd c (List.mem_of_mem_drop hc), by simp, Or.inl (by simp [hne]), ?_⟩
    rintro e he
    obtain rfl := Option.some.inj he
    exact exponentOf_wellFormed _ _
  writes := by
    have hpos : 0 < digits.length := List.length_pos_iff.2 hne
    -- The exponent makes up for the place of the point.
    refine ⟨0, ?_, ?_⟩
    · rw [List.take_append_drop, Nat.pow_zero, Nat.mul_one]
    · simp only [Option.map_some, Option.getD_some, exponentOf_value, List.length_drop]
      omega

/-- **Every layout of some digits is a numeral for them.** -/
theorem Layout.exists_digitsText (l : Layout) (hne : digits ≠ []) (point : Int) :
    ∃ n : Numeral, n.Spells (l.digitsText digits point) (digitsValue digits)
        (point - digits.length)
      ∧ (l.pointZero = true → n.point = true ∨ n.exponent.isSome = true) := by
  rw [Layout.digitsText]
  split
  · by_cases hp : point ≤ 0
    · rw [if_pos hp]
      exact ⟨_, spells_behindPoint hd hp, fun _ => Or.inl rfl⟩
    · rw [if_neg hp]
      by_cases hlen : digits.length ≤ point.toNat
      · simp only [hlen, ↓reduceIte]
        exact ⟨_, spells_beforePoint hd hne hlen l.pointZero, Or.inl⟩
      · simp only [hlen, ↓reduceIte]
        exact ⟨_, spells_aroundPoint hd (by omega) (by omega), fun _ => Or.inl rfl⟩
  · exact ⟨_, spells_exponent hd hne l.exponentDigits point, fun _ => Or.inr rfl⟩

end Digits

/-- The digits of the shortest decimal of a magnitude, without the zeros at their end, and the
exponent that goes with them. -/
theorem exists_strippedDigits {rank : Fin rankCount} (h : 0 < rank.val) :
    ∃ e : Int, stripZeros (natText (shortest rank).digits) ≠ []
      ∧ (∀ c ∈ stripZeros (natText (shortest rank).digits), isBasicDigit c = true)
      ∧ ((natText (shortest rank).digits).length : Int) + (shortest rank).exponent
        - (stripZeros (natText (shortest rank).digits)).length = e
      ∧ ∀ negative, Double.ofDecimal negative
        (digitsValue (stripZeros (natText (shortest rank).digits))) e = .finite negative rank := by
  obtain ⟨z, hz⟩ := stripZeros_append (natText (shortest rank).digits)
  have hvalue : (shortest rank).digits
      = digitsValue (stripZeros (natText (shortest rank).digits)) * 10 ^ z := by
    rw [← digitsValue_append_zeros, ← hz, digitsValue_natText]
  have hlength : (natText (shortest rank).digits).length
      = (stripZeros (natText (shortest rank).digits)).length + z := by
    conv_lhs => rw [hz]
    rw [List.length_append, zeros, List.length_replicate]
  -- The zeros that are left out are a factor that moves to the exponent.
  have hread : ∀ negative, Double.ofDecimal negative
      (digitsValue (stripZeros (natText (shortest rank).digits))) ((shortest rank).exponent + z)
      = .finite negative rank := by
    intro negative
    rw [← ofDecimal_shift, ← hvalue]
    exact ofDecimal_shortest negative h
  refine ⟨(shortest rank).exponent + z, ?_, ?_, by omega, hread⟩
  · intro hnil
    -- Without digits the decimal would be zero.
    have hzero := hread false
    rw [hnil] at hzero
    simp only [digitsValue, List.foldl_nil, Double.ofDecimal, ↓reduceIte, Double.zero,
      Double.finite.injEq, true_and] at hzero
    rw [← hzero] at h
    exact absurd h (Nat.lt_irrefl 0)
  · intro c hc
    refine natText_basic (n := (shortest rank).digits) ?_
    rw [hz]
    exact List.mem_append_left _ hc

/-- Every layout of a magnitude is a numeral for it, of which the sign is left open. -/
theorem Layout.exists_magnitudeText (l : Layout) (rank : Fin rankCount) :
    ∃ (n : Numeral) (d : Nat) (e : Int), n.Spells (l.magnitudeText rank) d e
      ∧ (∀ negative, Double.ofDecimal negative d e = .finite negative rank)
      ∧ (l.pointZero = true → n.point = true ∨ n.exponent.isSome = true) := by
  by_cases hr : rank.val = 0
  · -- Zero is written as such.
    obtain rfl : rank = ⟨0, by decide⟩ := Fin.ext hr
    have hzero : isBasicDigit '0' = true := rfl
    have hdouble : ∀ negative e, Double.ofDecimal negative 0 e = .finite negative ⟨0, by decide⟩ :=
      fun _ _ => rfl
    cases hz : l.pointZero with
    | true =>
      refine ⟨⟨none, ['0'], true, ['0'], none⟩, 0, -1, ⟨?_, rfl, ?_, ⟨0, rfl, rfl⟩⟩,
        fun negative => hdouble negative _, fun _ => Or.inl rfl⟩
      · simp [Numeral.text, Layout.magnitudeText, hz]
      · exact ⟨Or.inl rfl, by simp [hzero], by simp [hzero], by simp, by simp, by simp⟩
    | false =>
      refine ⟨⟨none, ['0'], false, [], none⟩, 0, 0, ⟨?_, rfl, ?_, ⟨0, rfl, rfl⟩⟩,
        fun negative => hdouble negative _, by simp⟩
      · simp [Numeral.text, Layout.magnitudeText, hz]
      · exact ⟨Or.inl rfl, by simp [hzero], by simp, by simp, by simp, by simp⟩
  -- Zeros at the end of the digits go over into the exponent.
  · obtain ⟨e, hne, hbasic, hexp, hdouble⟩ := exists_strippedDigits (Nat.pos_of_ne_zero hr)
    obtain ⟨n, hn, hmark⟩ := l.exists_digitsText hbasic hne
      ((natText (shortest rank).digits).length + (shortest rank).exponent)
    rw [hexp] at hn
    refine ⟨n, _, e, ?_, hdouble, hmark⟩
    rw [Layout.magnitudeText, if_neg hr]
    exact hn

/-- **Every layout of a finite double is a numeral for it.** -/
theorem Layout.exists_text (l : Layout) (negative : Bool) (rank : Fin rankCount) :
    ∃ n : Numeral, n.text = l.text (.finite negative rank)
      ∧ n.sign = (if negative then some '-' else none) ∧ n.WellFormed isBasicDigit
      ∧ n.double = .finite negative rank
      ∧ (l.pointZero = true → n.point = true ∨ n.exponent.isSome = true) := by
  obtain ⟨n, d, e, hn, hdouble, hmark⟩ := l.exists_magnitudeText rank
  have hsign : IsSign (if negative then some '-' else none) := by
    cases negative
    · exact Or.inl rfl
    · exact Or.inr (Or.inl rfl)
  refine ⟨{ n with sign := if negative then some '-' else none }, ?_, rfl,
    hn.wellFormed.withSign hsign, ?_, hmark⟩
  · rw [Layout.text, ← hn.text_eq]
    cases negative <;> simp [Numeral.text, hn.unsigned]
  · -- The pieces and with them the decimal do not depend on the sign.
    have hwrites : ({ n with sign := if negative then some '-' else none } : Numeral).Writes d e :=
      hn.writes
    rw [hwrites.double, hdouble]
    cases negative <;> rfl

/-- **The text of a finite double is a numeral for it, and no integer.** -/
theorem ofText?_doubleText {x : Double} (h : x.isFinite = true) :
    Integer.ofText? (doubleText x) = none
      ∧ ∃ n, Numeral.ofText? (doubleText x) = some n ∧ n.double = x := by
  cases x with
  | finite negative rank =>
    obtain ⟨n, hn, -, hwell, hdouble, hmark⟩ := doubleLayout.exists_text negative rank
    have hwide : n.WellFormed isDigit := hwell.mono fun c hc => isDigit_of_isBasicDigit hc
    rw [doubleText, ← hn]
    exact ⟨Integer.ofText?_numeral hwide (hmark rfl), n, Numeral.ofText?_text hwide, hdouble⟩
  | infinite negative => contradiction
  | nan => contradiction

end Styling.Decimal
