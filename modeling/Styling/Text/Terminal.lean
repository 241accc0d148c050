import Styling.Text.Split

/-!
# Texts for output

A text that is written to a file holds no sequences for the control of a terminal, and its lines
end in a line feed alone.
-/

namespace Styling.Text

/-- The character can stand among the parameters of a control sequence. -/
def isSequenceParameter (c : Char) : Bool := '0' ≤ c && c ≤ '?'

/-- The character can stand between the parameters and the end of a control sequence. -/
def isSequenceIntermediate (c : Char) : Bool := ' ' ≤ c && c ≤ '/'

/-- The character ends a control sequence. -/
def isSequenceEnd (c : Char) : Bool := '@' ≤ c && c ≤ '~'

/-- What follows a control sequence without its first two characters, if the text starts with
one: parameters, intermediate characters, and one that ends it. -/
def afterSequence? (s : List Char) : Option (List Char) :=
  match (s.dropWhile isSequenceParameter).dropWhile isSequenceIntermediate with
  | [] => none
  | c :: rest => if isSequenceEnd c then some rest else none

theorem length_dropWhile_le (p : Char → Bool) (s : List Char) :
    (s.dropWhile p).length ≤ s.length := (List.dropWhile_suffix p).length_le

theorem afterSequence?_length {s r : List Char} (h : afterSequence? s = some r) :
    r.length < s.length := by
  have hparam := length_dropWhile_le isSequenceParameter s
  have hinter := length_dropWhile_le isSequenceIntermediate (s.dropWhile isSequenceParameter)
  unfold afterSequence? at h
  split at h
  · simp at h
  · rename_i c rest hd
    rw [hd, List.length_cons] at hinter
    split at h
    · simp only [Option.some.injEq] at h
      subst h
      omega
    · simp at h

/-- A text without its control sequences. -/
def withoutSequences : List Char → List Char
  | [] => []
  | '\x1b' :: '[' :: s =>
    match h : afterSequence? s with
    | some rest =>
      have : rest.length < s.length := afterSequence?_length h
      withoutSequences rest
    | none => '\x1b' :: withoutSequences ('[' :: s)
  | c :: s => c :: withoutSequences s
termination_by s => s.length
decreasing_by all_goals (simp only [List.length_cons]; omega)

/-- A text whose lines end in a line feed alone. -/
def withLineFeeds (s : List Char) : List Char := join ['\n'] (pieces ['\r', '\n'] s)

end Styling.Text
