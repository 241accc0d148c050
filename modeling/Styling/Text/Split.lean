/-!
# Cutting a text at a separator

`pieces` cuts a text at every occurrence of a separator, `cutAt` at the first one. Occurrences
are taken from the left and do not overlap. Putting the separator back gives the text again
(`join_pieces`, `eq_of_cutAt`).
-/

namespace Styling.Text

/-- Puts a character in front of the first piece. -/
def consHead (c : Char) : List (List Char) → List (List Char)
  | [] => [[c]]
  | p :: ps => (c :: p) :: ps

/-- What follows a prefix of a text, if the text has it. -/
def dropPrefix? : List Char → List Char → Option (List Char)
  | [], s => some s
  | _ :: _, [] => none
  | d :: ds, c :: cs => if d = c then dropPrefix? ds cs else none

/-- The pieces of a text between the occurrences of `sep`; `skip` characters of an occurrence
found earlier are still to be passed over. -/
def piecesFrom (sep : List Char) : Nat → List Char → List (List Char)
  | _, [] => [[]]
  | skip + 1, _ :: cs => piecesFrom sep skip cs
  | 0, c :: cs =>
    if (dropPrefix? sep (c :: cs)).isSome then [] :: piecesFrom sep (sep.length - 1) cs
    else consHead c (piecesFrom sep 0 cs)

/-- The pieces of a text between the occurrences of a separator, which is not empty. -/
def pieces (sep s : List Char) : List (List Char) := piecesFrom sep 0 s

/-- The parts before and after the first occurrence of a separator, if there is one. -/
def cutAt (sep : List Char) : List Char → Option (List Char × List Char)
  | [] => if sep.isEmpty then some ([], []) else none
  | c :: cs =>
    match dropPrefix? sep (c :: cs) with
    | some rest => some ([], rest)
    | none => (cutAt sep cs).map fun p => (c :: p.1, p.2)

/-- Texts written one after the other with a separator between them. -/
def join (sep : List Char) : List (List Char) → List Char
  | [] => []
  | [p] => p
  | p :: q :: ps => p ++ sep ++ join sep (q :: ps)

theorem dropPrefix?_eq_some_iff {p s r : List Char} : dropPrefix? p s = some r ↔ s = p ++ r := by
  induction p generalizing s with
  | nil => simp [dropPrefix?]
  | cons d ds ih =>
    cases s with
    | nil => simp [dropPrefix?]
    | cons c cs =>
      by_cases h : d = c
      · subst h; simp [dropPrefix?, ih]
      · simp [dropPrefix?, h, Ne.symm h]

theorem piecesFrom_ne_nil (sep : List Char) (n : Nat) (s : List Char) : piecesFrom sep n s ≠ [] := by
  induction s generalizing n with
  | nil => simp [piecesFrom]
  | cons c cs ih =>
    cases n with
    | succ n => simpa [piecesFrom] using ih n
    | zero =>
      simp only [piecesFrom]
      split
      · simp
      · cases h : piecesFrom sep 0 cs <;> simp [consHead]

theorem join_consHead (sep : List Char) (c : Char) (ps : List (List Char)) (h : ps ≠ []) :
    join sep (consHead c ps) = c :: join sep ps := by
  match ps with
  | [] => contradiction
  | [p] => rfl
  | p :: q :: ps => simp [consHead, join]

theorem join_nil_cons (sep : List Char) (ps : List (List Char)) (h : ps ≠ []) :
    join sep ([] :: ps) = sep ++ join sep ps := by
  match ps with
  | [] => contradiction
  | p :: ps => simp [join]

theorem join_piecesFrom {sep : List Char} (hsep : sep ≠ []) (n : Nat) (s : List Char) :
    join sep (piecesFrom sep n s) = s.drop n := by
  induction s generalizing n with
  | nil => simp [piecesFrom, join]
  | cons c cs ih =>
    cases n with
    | succ n => simpa [piecesFrom] using ih n
    | zero =>
      simp only [piecesFrom]
      split
      · next h =>
        obtain ⟨t, ht⟩ := Option.isSome_iff_exists.1 h
        rw [dropPrefix?_eq_some_iff] at ht
        rw [join_nil_cons _ _ (piecesFrom_ne_nil _ _ _), ih]
        cases sep with
        | nil => contradiction
        | cons d ds =>
          obtain ⟨rfl, rfl⟩ : c = d ∧ cs = ds ++ t := by simpa using ht
          simp
      · rw [join_consHead _ _ _ (piecesFrom_ne_nil _ _ _), ih]
        simp

/-- Putting the separator back between the pieces gives the text again. -/
theorem join_pieces {sep : List Char} (hsep : sep ≠ []) (s : List Char) :
    join sep (pieces sep s) = s := by
  simp [pieces, join_piecesFrom hsep]

/-- The cut loses nothing but the separator. -/
theorem eq_of_cutAt {sep s before after : List Char} (h : cutAt sep s = some (before, after)) :
    s = before ++ sep ++ after := by
  induction s generalizing before after with
  | nil =>
    simp only [cutAt] at h
    split at h
    · next he => simp_all
    · simp at h
  | cons c cs ih =>
    simp only [cutAt] at h
    split at h
    · next rest hr =>
      obtain ⟨rfl, rfl⟩ : [] = before ∧ rest = after := by simpa using h
      simpa using dropPrefix?_eq_some_iff.1 hr
    · obtain ⟨p, hp, he⟩ := Option.map_eq_some_iff.1 h
      obtain ⟨rfl, rfl⟩ : c :: p.1 = before ∧ p.2 = after := by simpa using he
      rw [ih hp]
      simp

end Styling.Text
