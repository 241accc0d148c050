/-!
# Similar texts

How many characters two texts share is counted part by part: the longest part that stands in both,
and then what is shared in front of it and behind it. Two texts are similar if the shared
characters are at least three fifths of all, those of both texts counted.
-/

namespace Styling.Text

/-- How many characters two texts share at their start. -/
def sharedStart : List Char → List Char → Nat
  | a :: s, b :: t => if a = b then sharedStart s t + 1 else 0
  | _, _ => 0

/-- What remains of a text from each of its characters on. -/
def suffixes : List Char → List (List Char)
  | [] => []
  | c :: s => (c :: s) :: suffixes s

/-- A part that stands in two texts: where it starts in each, and how long it is. -/
structure SharedPart where
  first : Nat
  second : Nat
  size : Nat

/-- The parts shared by two texts, as long as they can be, by where they start. -/
def sharedParts (s t : List Char) : List SharedPart :=
  ((suffixes s).zipIdx.flatMap fun u => (suffixes t).zipIdx.map fun v =>
    ⟨u.2, v.2, sharedStart u.1 v.1⟩).filter fun p => 0 < p.size

/-- The longest part shared by two texts, of several the one that starts first in the first text,
and then in the second. -/
def longestShared? (s t : List Char) : Option SharedPart := (sharedParts s t).maxOn? SharedPart.size

theorem length_suffixes (s : List Char) : (suffixes s).length = s.length := by
  induction s with
  | nil => rfl
  | cons c s ih => simp [suffixes, ih]

theorem longestShared?_bounds {s t : List Char} {p : SharedPart} (h : longestShared? s t = some p) :
    p.first < s.length ∧ 0 < p.size := by
  have hp : p ∈ sharedParts s t := List.maxOn?_mem h
  simp only [sharedParts, List.mem_filter, List.mem_flatMap, List.mem_map, decide_eq_true_eq] at hp
  obtain ⟨⟨u, hu, v, _, rfl⟩, hsize⟩ := hp
  have hlt := List.snd_lt_of_mem_zipIdx hu
  rw [length_suffixes] at hlt
  exact ⟨hlt, hsize⟩

/-- How many characters two texts share. -/
def sharedCount (s t : List Char) : Nat :=
  match h : longestShared? s t with
  | none => 0
  | some p =>
    have := longestShared?_bounds h
    sharedCount (s.take p.first) (t.take p.second) + p.size
      + sharedCount (s.drop (p.first + p.size)) (t.drop (p.second + p.size))
termination_by s.length
decreasing_by all_goals (simp only [List.length_take, List.length_drop]; omega)

/-- Two texts are similar. -/
def isSimilar (s t : List Char) : Bool := 3 * (s.length + t.length) ≤ 10 * sharedCount s t

/-- The names similar to a text, in the order of their characters. -/
def similarNames (names : List String) (text : String) : List String :=
  (names.filter fun name => isSimilar name.toList text.toList).mergeSort fun a b => a ≤ b

end Styling.Text
