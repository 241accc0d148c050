import Mathlib.Data.List.TakeWhile
import Styling.Literal.Structured
import Styling.Proofs.Numerals
import Styling.Proofs.Separation

/-!
# Literals as lists of lexemes

`Lexes` says which lexemes a text has at a place of a literal, whatever the positions in the text:
gaps are passed over, and each lexeme is the next token where it stands. It is what `readTokens`
computes (`lexes_of_readTokens`, `readTokens_of_lexes`), so a text has at most one list of lexemes
(`Lexes.unique`), and a literal depends on its lexemes only (`color_of_lexes`, `font_eq_ok_iff` and
their like).
-/

set_option autoImplicit false

namespace Styling.Literal

open Styling.Decimal Styling.Text

/-- Kind and text of a token. -/
abbrev Lexeme := TokenKind × List Char

def Token.lexeme (t : Token) : Lexeme := (t.kind, t.text)

/-- A lexeme as a token at the start of a text. -/
def unplaced (l : Lexeme) : Token := ⟨l.1, l.2, .start⟩

/-- A text has some lexemes from a place on: after a gap it ends where it may, or the next token
stands there and leads to the place where the others are read. -/
inductive Lexes : Place → List Char → List Lexeme → Prop where
  | done {place : Place} {gap : List Char} : place.mayEnd = true →
      (∀ c ∈ gap, isGap c = true) → Lexes place gap []
  | token {place : Place} {gap s text rest : List Char} {kind : TokenKind} {ls : List Lexeme} :
      (∀ c ∈ gap, isGap c = true) → (∀ c ∈ s.head?, isGap c = false) →
      nextToken? place.admits s = some (kind, text, rest) → Lexes (place.next kind) rest ls →
      Lexes place (gap ++ s) ((kind, text) :: ls)

/-! ## Single steps -/

section Steps

variable {place : Place} {s text rest : List Char} {kind : TokenKind} {ls : List Lexeme}

theorem Lexes.nil (h : place.mayEnd = true) : Lexes place [] [] := Lexes.done h (by simp)

/-- A token without a gap before it. -/
theorem Lexes.cons (hstop : ∀ c ∈ s.head?, isGap c = false)
    (ht : nextToken? place.admits s = some (kind, text, rest))
    (h : Lexes (place.next kind) rest ls) : Lexes place s ((kind, text) :: ls) :=
  Lexes.token (List.forall_mem_nil _) hstop ht h

/-- Nothing of a gap stands before a text that starts with another character. -/
theorem gap_eq_nil {gap t : List Char} (hgap : ∀ c ∈ gap, isGap c = true) (hs : gap ++ t = s)
    (hstop : ∀ c ∈ s.head?, isGap c = false) : gap = [] := by
  subst hs
  cases gap with
  | nil => rfl
  | cons c cs =>
    have hc := hgap c List.mem_cons_self
    rw [hstop c rfl] at hc
    contradiction

/-- A space before the lexemes does not matter. -/
theorem lexes_space_iff : Lexes place (' ' :: s) ls ↔ Lexes place s ls := by
  constructor
  · intro h
    generalize ht : ' ' :: s = t at h
    cases h with
    | done hend hgap =>
      subst ht
      exact Lexes.done hend fun c hc => hgap c (List.mem_cons_of_mem ' ' hc)
    | @token _ gap u _ _ _ _ hgap hstop htoken hrest =>
      -- No token starts with the space, so it is the first character of the gap.
      cases gap with
      | nil =>
        rw [List.nil_append] at ht
        have hspace : isGap ' ' = false := hstop ' ' (by rw [← ht]; rfl)
        exact absurd hspace (by decide)
      | cons c gap =>
        obtain ⟨rfl, rfl⟩ := List.cons.inj ht
        exact Lexes.token (fun c hc => hgap c (List.mem_cons_of_mem ' ' hc)) hstop htoken hrest
  · intro h
    cases h with
    | done hend hgap => exact Lexes.done hend (List.forall_mem_cons.2 ⟨rfl, hgap⟩)
    | @token _ gap t _ _ _ _ hgap hstop ht hrest =>
      exact Lexes.token (List.forall_mem_cons.2 ⟨rfl, hgap⟩) hstop ht hrest

/-- The lexemes of a text that starts with a token start with that token. -/
theorem lexes_iff_of_token (hstop : ∀ c ∈ s.head?, isGap c = false)
    (ht : nextToken? place.admits s = some (kind, text, rest)) :
    Lexes place s ls ↔ ∃ ms, ls = (kind, text) :: ms ∧ Lexes (place.next kind) rest ms := by
  constructor
  · intro h
    obtain ⟨happ, hne⟩ := nextToken?_append ht
    -- The text starts with no gap, so the lexemes start with its next token, which is unique.
    generalize hs : s = t at h
    cases h with
    | done _ hgap =>
      obtain rfl := gap_eq_nil hgap (List.append_nil t) (hs ▸ hstop)
      rw [hs] at happ
      exact absurd (List.append_eq_nil_iff.1 happ.symm).1 hne
    | @token _ gap u text' rest' kind' ms hgap _ ht' hrest =>
      obtain rfl := gap_eq_nil hgap hs.symm hstop
      rw [List.nil_append] at hs
      subst hs
      obtain ⟨rfl, rfl, rfl⟩ : kind = kind' ∧ text = text' ∧ rest = rest' := by
        simpa [ht] using ht'
      exact ⟨ms, rfl, hrest⟩
  · rintro ⟨ms, rfl, h⟩
    exact Lexes.cons hstop ht h

/-- A text has no lexemes where none of the admitted tokens stands. -/
theorem not_lexes_of_none (hne : s ≠ []) (hstop : ∀ c ∈ s.head?, isGap c = false)
    (ht : nextToken? place.admits s = none) : ¬Lexes place s ls := by
  intro h
  generalize hs : s = t at h
  cases h with
  | done _ hgap =>
    obtain rfl := gap_eq_nil hgap (List.append_nil t) (hs ▸ hstop)
    contradiction
  | @token _ gap u _ _ _ _ hgap _ ht' _ =>
    obtain rfl := gap_eq_nil hgap hs.symm hstop
    rw [List.nil_append] at hs
    rw [← hs, ht] at ht'
    contradiction

end Steps

/-! ## The relation and the reader -/

theorem readFrom_of_nil {place : Place} {p last : Position} {s : List Char}
    (h : s.dropWhile isGap = []) :
    readFrom place p last s = if place.mayEnd then .ok [] else .error (.unexpectedEnd last) := by
  rw [readFrom]
  split
  · rfl
  · next hc =>
    rw [h] at hc
    contradiction

theorem readFrom_of_cons {place : Place} {p last : Position} {s cs : List Char} {c : Char}
    (h : s.dropWhile isGap = c :: cs) :
    readFrom place p last s = match nextToken? place.admits (c :: cs) with
      | some (kind, text, rest) =>
        match readFrom (place.next kind) ((p.past (s.takeWhile isGap)).past text)
          (p.past (s.takeWhile isGap)) rest with
        | .ok tokens => .ok (⟨kind, text, p.past (s.takeWhile isGap)⟩ :: tokens)
        | .error fault => .error fault
      | none => .error (obstacle c cs (p.past (s.takeWhile isGap))) := by
  rw [readFrom]
  split
  · next hnil =>
    rw [h] at hnil
    contradiction
  · next c' cs' hc =>
    obtain ⟨rfl, rfl⟩ : c = c' ∧ cs = cs' := by simpa [h] using hc
    generalize nextToken? place.admits (c :: cs) = next
    rcases next with _ | ⟨kind, text, rest⟩
    · rfl
    · rfl

/-- The tokens that are read from a place have the lexemes of the text there. -/
theorem lexes_of_readFrom {place : Place} {p last : Position} {s : List Char}
    {tokens : List Token} (h : readFrom place p last s = .ok tokens) :
    Lexes place s (tokens.map Token.lexeme) := by
  -- The induction is on the length of the text, of which every token takes some characters.
  generalize hn : s.length = n
  induction n using Nat.strongRecOn generalizing place p last s tokens with
  | _ n ih =>
    have hsplit : s.takeWhile isGap ++ s.dropWhile isGap = s := List.takeWhile_append_dropWhile
    have hgap : ∀ c ∈ s.takeWhile isGap, isGap c = true := fun c hc => List.mem_takeWhile_imp hc
    cases hd : s.dropWhile isGap with
    | nil =>
      rw [readFrom_of_nil hd] at h
      cases hend : place.mayEnd with
      | false =>
        rw [hend] at h
        contradiction
      | true =>
        rw [hend] at h
        obtain rfl : [] = tokens := by simpa using h
        -- Nothing but a gap is left.
        refine Lexes.done hend ?_
        rw [← hsplit, hd, List.append_nil]
        exact hgap
    | cons c cs =>
      rw [readFrom_of_cons hd] at h
      cases ht : nextToken? place.admits (c :: cs) with
      | none =>
        rw [ht] at h
        contradiction
      | some t =>
        obtain ⟨kind, text, rest⟩ := t
        rw [ht] at h
        simp only at h
        cases hr : readFrom (place.next kind) ((p.past (s.takeWhile isGap)).past text)
            (p.past (s.takeWhile isGap)) rest with
        | error fault =>
          rw [hr] at h
          contradiction
        | ok others =>
          rw [hr] at h
          obtain rfl := Except.ok.inj h
          obtain ⟨happ, hne⟩ := nextToken?_append ht
          have hlt : rest.length < n := by
            have h1 := congrArg List.length happ
            have h2 := congrArg List.length hsplit
            have h3 := List.length_pos_iff.2 hne
            rw [List.length_append] at h1 h2
            rw [hd] at h2
            omega
          have hstop : ∀ a ∈ (c :: cs).head?, isGap a = false := by
            rintro a ha
            obtain rfl : c = a := by simpa using ha
            have hhead := List.head?_dropWhile_not isGap s
            rw [hd] at hhead
            exact hhead
          have := Lexes.token hgap hstop ht (ih rest.length hlt hr rfl)
          rwa [← hd, hsplit] at this

/-- The lexemes of a text are what is read from it. -/
theorem readFrom_of_lexes {place : Place} {s : List Char} {ls : List Lexeme}
    (h : Lexes place s ls) (p last : Position) :
    ∃ tokens, readFrom place p last s = .ok tokens ∧ tokens.map Token.lexeme = ls := by
  induction h generalizing p last with
  | @done place gap hend hgap =>
    have hnil : gap.dropWhile isGap = [] := List.dropWhile_eq_nil_iff.2 hgap
    exact ⟨[], by rw [readFrom_of_nil hnil, if_pos hend], rfl⟩
  | @token place gap s text rest kind ls hgap hstop ht _ ih =>
    obtain ⟨happ, hne⟩ := nextToken?_append ht
    cases s with
    | nil => exact absurd (List.append_eq_nil_iff.1 happ.symm).1 hne
    | cons c cs =>
      obtain ⟨htake, hdrop⟩ := span_append hgap hstop
      obtain ⟨tokens, hread, hmap⟩ := ih ((p.past gap).past text) (p.past gap)
      refine ⟨⟨kind, text, p.past gap⟩ :: tokens, ?_, by rw [List.map_cons, hmap]; rfl⟩
      rw [readFrom_of_cons hdrop, htake, ht]
      simp only [hread]

theorem lexes_of_readTokens {place : Place} {s : List Char} {tokens : List Token}
    (h : readTokens place s = .ok tokens) : Lexes place s (tokens.map Token.lexeme) :=
  lexes_of_readFrom h

theorem readTokens_of_lexes {place : Place} {s : List Char} {ls : List Lexeme}
    (h : Lexes place s ls) :
    ∃ tokens, readTokens place s = .ok tokens ∧ tokens.map Token.lexeme = ls :=
  readFrom_of_lexes h .start .start

/-- **A text has at most one list of lexemes.** -/
theorem Lexes.unique {place : Place} {s : List Char} {ls ms : List Lexeme} (hl : Lexes place s ls)
    (hm : Lexes place s ms) : ls = ms := by
  obtain ⟨tokens, hread, rfl⟩ := readTokens_of_lexes hl
  obtain ⟨tokens', hread', rfl⟩ := readTokens_of_lexes hm
  obtain rfl : tokens = tokens' := by simpa [hread] using hread'
  rfl

/-! ## Literals from lexemes -/

theorem textsOf_unplaced (kind : TokenKind) (tokens : List Token) :
    textsOf kind tokens = textsOf kind ((tokens.map Token.lexeme).map unplaced) := by
  induction tokens with
  | nil => rfl
  | cons t tokens ih =>
    simp only [textsOf] at ih
    simp only [textsOf, List.map_cons, List.filter_cons, unplaced, Token.lexeme] at ih ⊢
    by_cases hk : t.kind = kind
    · simp only [hk, decide_true, ↓reduceIte, List.map_cons, ih]
    · simp only [hk, decide_false, Bool.false_eq_true, ↓reduceIte, ih]

theorem colorOf_unplaced (tokens : List Token) :
    colorOf tokens = colorOf ((tokens.map Token.lexeme).map unplaced) := by
  rw [colorOf, colorOf, ← textsOf_unplaced, ← textsOf_unplaced]

theorem fontOf_unplaced (tokens : List Token) :
    fontOf tokens = fontOf ((tokens.map Token.lexeme).map unplaced) := by
  have hadd : ∀ (r : FontReading) (t : Token), r.add (unplaced t.lexeme) = r.add t :=
    fun _ _ => rfl
  have hfold : ∀ (ts : List Token) (r : FontReading),
      ((ts.map Token.lexeme).map unplaced).foldl FontReading.add r
        = ts.foldl FontReading.add r := by
    intro ts
    induction ts with
    | nil => exact fun _ => rfl
    | cons t ts ih =>
      intro r
      rw [List.map_cons, List.map_cons, List.foldl_cons, List.foldl_cons, hadd, ih]
  rw [fontOf, fontOf, hfold]

section Whole

variable {s : List Char} {ls : List Lexeme}

theorem color_of_lexes (h : Lexes .color s ls) : color s = colorOf (ls.map unplaced) := by
  obtain ⟨tokens, hread, rfl⟩ := readTokens_of_lexes h
  rw [color, hread, ← colorOf_unplaced]
  rfl

/-- The font of a text is the one its lexemes write. -/
theorem font_eq_ok_iff {f : Font} :
    font s = .ok f ↔ ∃ ls, Lexes .font s ls ∧ fontOf (ls.map unplaced) = f := by
  rw [font]
  constructor
  · intro h
    cases hread : readTokens .font s with
    | error fault =>
      rw [hread] at h
      contradiction
    | ok tokens =>
      rw [hread] at h
      obtain rfl := Except.ok.inj h
      exact ⟨tokens.map Token.lexeme, lexes_of_readTokens hread, (fontOf_unplaced tokens).symm⟩
  · rintro ⟨ls, hls, rfl⟩
    obtain ⟨tokens, hread, rfl⟩ := readTokens_of_lexes hls
    rw [hread, ← fontOf_unplaced]
    rfl

end Whole

end Styling.Literal
