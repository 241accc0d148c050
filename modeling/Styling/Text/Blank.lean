/-!
# Blank characters and line breaks

Which characters count as blank space around the parts of a style, which ones end a line, and
trimming. A trimmed text neither starts nor ends with a blank (`trim_head`, `trim_last`).
-/

namespace Styling.Text

/-- Ranges of the blank characters, first and last code point. -/
def blankRanges : List (Nat × Nat) :=
  [(0x9, 0xd), (0x1c, 0x20), (0x85, 0x85), (0xa0, 0xa0), (0x1680, 0x1680), (0x2000, 0x200a),
   (0x2028, 0x2029), (0x202f, 0x202f), (0x205f, 0x205f), (0x3000, 0x3000)]

/-- A code point lies in one of the ranges. -/
def inRanges (ranges : List (Nat × Nat)) (n : Nat) : Bool :=
  ranges.any fun r => r.1 ≤ n && n ≤ r.2

/-- Blank space: the separators and the control characters that act as such. -/
def isBlank (c : Char) : Bool := inRanges blankRanges c.toNat

/-- A text of blanks only; the empty text is one. -/
def isBlankText (s : List Char) : Bool := s.all isBlank

/-- Characters that end a line of a message. -/
def isLineBreak (c : Char) : Bool :=
  inRanges [(0xa, 0xd), (0x1c, 0x1e), (0x85, 0x85), (0x2028, 0x2029)] c.toNat

/-- The text up to its first line break. -/
def firstLine (s : List Char) : List Char := s.takeWhile fun c => !isLineBreak c

/-- The text without the blanks it starts with. -/
def trimStart (s : List Char) : List Char := s.dropWhile isBlank

/-- The text without the blanks it ends with. -/
def trimEnd (s : List Char) : List Char := (s.reverse.dropWhile isBlank).reverse

/-- The text without the blanks around it. -/
def trim (s : List Char) : List Char := trimEnd (trimStart s)

theorem trimStart_head {s : List Char} {c : Char} {r : List Char} (h : trimStart s = c :: r) :
    isBlank c = false := by
  induction s with
  | nil => simp [trimStart] at h
  | cons a s ih =>
    by_cases ha : isBlank a = true
    · exact ih (by simpa [trimStart, List.dropWhile_cons, ha] using h)
    · simp only [trimStart, List.dropWhile_cons, ha] at h
      obtain ⟨rfl, -⟩ : a = c ∧ s = r := by simpa using h
      simpa using ha

theorem trimEnd_append (s : List Char) : ∃ t, s = trimEnd s ++ t ∧ isBlankText t = true := by
  refine ⟨(s.reverse.takeWhile isBlank).reverse, ?_, ?_⟩
  · rw [trimEnd, ← List.reverse_append, List.takeWhile_append_dropWhile, List.reverse_reverse]
  · simp only [isBlankText, List.all_reverse, List.all_eq_true]
    intro c hc
    exact (List.all_eq_true.1 List.all_takeWhile) c hc

/-- A trimmed text does not start with a blank. -/
theorem trim_head {s : List Char} {c : Char} {r : List Char} (h : trim s = c :: r) :
    isBlank c = false := by
  obtain ⟨t, ht, -⟩ := trimEnd_append (trimStart s)
  exact trimStart_head (c := c) (r := r ++ t) (by rw [ht]; simp [← List.cons_append, ← h, trim])

/-- A trimmed text does not end with a blank. -/
theorem trim_last {s : List Char} {c : Char} {r : List Char} (h : trim s = r ++ [c]) :
    isBlank c = false := by
  have h' : trimStart (trimStart s).reverse = c :: r.reverse := by
    have := congrArg List.reverse h
    simpa [trim, trimEnd, trimStart] using this
  exact trimStart_head h'

end Styling.Text
