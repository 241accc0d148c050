import Mathlib.Algebra.Ring.Parity
import Styling.Proofs.Families

/-!
# Texts between quotation marks

The reader of a quoted text keeps in mind whether an odd number of backslashes stands right before
the next character. `InQuotes` says the same of the text as a whole, by counting backslashes in front
of its quotation marks and at its end. `closeQuote` closes a text at the first mark after an even
number of them (`closeQuote_eq_some_iff`), and a family can be written between marks when all its
own marks come after an even number, since one more is written before each (`quotable_iff`).
-/

set_option autoImplicit false

namespace Styling.Literal

/-- How many backslashes a text ends in. -/
def backslashesAtEnd (s : List Char) : Nat := (s.reverse.takeWhile fun c => c = '\\').length

@[simp]
theorem backslashesAtEnd_nil : backslashesAtEnd [] = 0 := rfl

theorem backslashesAtEnd_backslash (s : List Char) :
    backslashesAtEnd (s ++ ['\\']) = backslashesAtEnd s + 1 := by
  simp [backslashesAtEnd]

theorem backslashesAtEnd_of_ne {c : Char} (h : c ≠ '\\') (s : List Char) :
    backslashesAtEnd (s ++ [c]) = 0 := by
  simp [backslashesAtEnd, h]

/-- A text in one line. How many backslashes may stand right before a quotation mark in it is given;
at its end their number is even. -/
structure InQuotes (marks : Nat → Prop) (s : List Char) : Prop where
  line : '\n' ∉ s
  marks : ∀ before after, s = before ++ '"' :: after → marks (backslashesAtEnd before)
  ending : Even (backslashesAtEnd s)

/-- The rest of such a text, after a part of it. -/
structure InQuotesAfter (before : List Char) (marks : Nat → Prop) (s : List Char) : Prop where
  line : '\n' ∉ s
  marks : ∀ first last, s = first ++ '"' :: last → marks (backslashesAtEnd (before ++ first))
  ending : Even (backslashesAtEnd (before ++ s))

theorem inQuotesAfter_nil_iff {marks : Nat → Prop} {s : List Char} :
    InQuotesAfter [] marks s ↔ InQuotes marks s :=
  ⟨fun h => ⟨h.line, h.marks, h.ending⟩, fun h => ⟨h.line, h.marks, h.ending⟩⟩

namespace InQuotesAfter

variable {before s : List Char} {marks : Nat → Prop} {c : Char}

theorem of_nil : InQuotesAfter before marks [] ↔ Even (backslashesAtEnd before) := by
  constructor
  · intro h
    simpa using h.ending
  · intro h
    refine ⟨List.not_mem_nil, fun first last he => ?_, by simpa using h⟩
    exact absurd (congrArg List.length he) (by simp)

/-- The first character of the rest belongs to the part before what follows it. -/
theorem of_cons : InQuotesAfter before marks (c :: s) ↔
    c ≠ '\n' ∧ (c = '"' → marks (backslashesAtEnd before)) ∧
      InQuotesAfter (before ++ [c]) marks s := by
  constructor
  · intro h
    have hline := h.line
    rw [List.mem_cons, not_or] at hline
    refine ⟨fun hc => hline.1 hc.symm, ?_, hline.2, ?_, by simpa using h.ending⟩
    · rintro rfl
      simpa using h.marks [] s rfl
    · rintro first last rfl
      simpa using h.marks (c :: first) last rfl
  · rintro ⟨hc, hmark, hrest⟩
    refine ⟨?_, ?_, by simpa using hrest.ending⟩
    · rw [List.mem_cons, not_or]
      exact ⟨fun hline => hc hline.symm, hrest.line⟩
    · intro first last he
      cases first with
      | nil =>
        rw [List.append_nil]
        exact hmark (List.cons.inj he).1
      | cons d first =>
        obtain ⟨rfl, hs⟩ := List.cons.inj he
        simpa using hrest.marks first last hs

end InQuotesAfter

/-- The reader has in mind whether the number of backslashes before is odd. -/
def Minds (odd : Bool) (before : List Char) : Prop := odd = true ↔ Odd (backslashesAtEnd before)

theorem minds_start : Minds false [] := by simp [Minds]

/-- What the reader has in mind after one more character. -/
theorem Minds.step {odd : Bool} {before : List Char} (h : Minds odd before) (c : Char) :
    Minds (c = '\\' && !odd) (before ++ [c]) := by
  unfold Minds at h ⊢
  by_cases hc : c = '\\'
  · subst hc
    rw [backslashesAtEnd_backslash, Nat.odd_add_one, ← h]
    simp
  · rw [backslashesAtEnd_of_ne hc]
    simp [hc]

theorem Minds.even_iff {odd : Bool} {before : List Char} (h : Minds odd before) :
    Even (backslashesAtEnd before) ↔ odd = false := by
  rw [← Nat.not_odd_iff_even, ← Bool.not_eq_true]
  exact not_congr h.symm

theorem quotable_iff_after {odd : Bool} {before s : List Char} (hm : Minds odd before) :
    quotable odd s = true ↔ InQuotesAfter before Even s := by
  induction s generalizing odd before with
  | nil =>
    rw [InQuotesAfter.of_nil, hm.even_iff]
    simp [quotable]
  | cons c s ih =>
    rw [quotable, InQuotesAfter.of_cons, ← ih (hm.step c)]
    by_cases hline : c = '\n'
    · simp [hline]
    rw [if_neg hline]
    by_cases hquote : c = '"'
    · subst hquote
      simp [hm.even_iff]
    · simp [hline, hquote]

/-- **Which texts can be written between quotation marks.** -/
theorem quotable_iff {s : List Char} : quotable false s = true ↔ InQuotes Even s := by
  rw [quotable_iff_after minds_start, inQuotesAfter_nil_iff]

instance (s : List Char) : Decidable (InQuotes Even s) := decidable_of_iff _ quotable_iff

theorem closeQuote_iff_after {odd : Bool} {before s l r : List Char} (hm : Minds odd before) :
    closeQuote odd s = some (l, r) ↔
      ∃ body, l = body ++ ['"'] ∧ s = body ++ '"' :: r ∧ InQuotesAfter before Odd body := by
  induction s generalizing odd before l with
  | nil => simp [closeQuote]
  | cons c s ih =>
    rw [closeQuote]
    by_cases hline : c = '\n'
    · subst hline
      rw [if_pos rfl]
      constructor
      · intro h
        contradiction
      · rintro ⟨body, -, hs, hbody⟩
        cases body with
        | nil => exact absurd (List.cons.inj hs).1 (by decide)
        | cons d body =>
          obtain ⟨rfl, -⟩ := List.cons.inj hs
          exact absurd rfl (InQuotesAfter.of_cons.1 hbody).1
    rw [if_neg hline]
    by_cases hclose : (c = '"' && !odd) = true
    · -- A mark after an even number of backslashes closes the text, which is therefore empty.
      rw [if_pos hclose]
      simp only [Bool.and_eq_true, decide_eq_true_eq, Bool.not_eq_true'] at hclose
      obtain ⟨rfl, rfl⟩ := hclose
      constructor
      · intro h
        obtain ⟨rfl, rfl⟩ := Prod.mk.inj (Option.some.inj h)
        exact ⟨[], rfl, rfl, InQuotesAfter.of_nil.2 (hm.even_iff.2 rfl)⟩
      · rintro ⟨body, rfl, hs, hbody⟩
        cases body with
        | nil =>
          obtain ⟨-, rfl⟩ := List.cons.inj hs
          rfl
        | cons d body =>
          obtain ⟨rfl, -⟩ := List.cons.inj hs
          exact absurd (hm.2 ((InQuotesAfter.of_cons.1 hbody).2.1 rfl)) (by decide)
    · rw [if_neg hclose]
      have hmark : c = '"' → Odd (backslashesAtEnd before) := by
        rintro rfl
        refine hm.1 ?_
        simpa using hclose
      constructor
      · intro h
        obtain ⟨⟨l', r'⟩, hl', he⟩ := Option.map_eq_some_iff.1 h
        obtain ⟨rfl, rfl⟩ := Prod.mk.inj he
        obtain ⟨body, rfl, rfl, hbody⟩ := (ih (hm.step c)).1 hl'
        exact ⟨c :: body, rfl, rfl, InQuotesAfter.of_cons.2 ⟨hline, hmark, hbody⟩⟩
      · rintro ⟨body, rfl, hs, hbody⟩
        cases body with
        | nil =>
          obtain ⟨rfl, -⟩ := List.cons.inj hs
          exact absurd (hmark rfl) (Nat.not_odd_iff_even.2 (InQuotesAfter.of_nil.1 hbody))
        | cons d body =>
          obtain ⟨rfl, hs'⟩ := List.cons.inj hs
          have hrest := (ih (hm.step c)).2 ⟨body, rfl, hs', (InQuotesAfter.of_cons.1 hbody).2.2⟩
          rw [hrest]
          rfl

/-- **Where a quoted text is closed.** The text up to a quotation mark is closed by it when the marks
in the text come after odd numbers of backslashes and this one does not. -/
theorem closeQuote_eq_some_iff {s l r : List Char} :
    closeQuote false s = some (l, r) ↔
      ∃ body, l = body ++ ['"'] ∧ s = body ++ '"' :: r ∧ InQuotes Odd body := by
  rw [closeQuote_iff_after minds_start]
  simp only [inQuotesAfter_nil_iff]

/-- The reader itself finds out whether a text reaches up to its mark. -/
instance (s : List Char) : Decidable (InQuotes Odd s) :=
  decidable_of_iff (closeQuote false (s ++ ['"']) = some (s ++ ['"'], [])) <| by
    simp [closeQuote_eq_some_iff]

end Styling.Literal
