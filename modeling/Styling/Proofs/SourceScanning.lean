import Styling.Proofs.Separation
import Styling.Proofs.SourceReading

/-!
# Tokens inside brackets

No token of a source text changes if a square bracket closes behind the text
(`sourceToken?_concat`); only a comment would go on. So a text has the same tokens inside square
brackets as by itself, line ends apart (`Scanned.inside`), and the same texts stand side by side
(`joinPlain_withoutLayout`).
-/

set_option autoImplicit false

namespace Styling

open Styling.Text

/-! ## A bracket behind a token -/

section

variable {α : Type} {p : α → Bool} {x : α}

theorem takeWhile_concat_of_neg (hx : p x = false) (s : List α) :
    (s ++ [x]).takeWhile p = s.takeWhile p := by
  rw [List.takeWhile_append]
  split
  · next h =>
    have hall : s.takeWhile p = s := (List.takeWhile_sublist p).eq_of_length h
    simp [hx, hall]
  · rfl

theorem dropWhile_concat_of_neg (hx : p x = false) (s : List α) :
    (s ++ [x]).dropWhile p = s.dropWhile p ++ [x] := by
  rw [List.dropWhile_append]
  split
  · next h => simp [hx, List.isEmpty_iff.1 h]
  · rfl

end

/-- A prefix that the character is not part of is there with it or without it. -/
theorem dropPrefix?_concat {c : Char} {start : List Char} (hc : c ∉ start) (s : List Char) :
    dropPrefix? start (s ++ [c]) = (dropPrefix? start s).map (· ++ [c]) := by
  cases h : dropPrefix? start s with
  | some rest =>
    obtain rfl := dropPrefix?_eq_some_iff.1 h
    exact dropPrefix?_eq_some_iff.2 (by simp)
  | none =>
    cases h' : dropPrefix? start (s ++ [c]) with
    | none => rfl
    | some rest =>
      have hs := dropPrefix?_eq_some_iff.1 h'
      rcases List.eq_nil_or_concat rest with rfl | ⟨rest', d, rfl⟩
      · exact (hc (by simp [← show s ++ [c] = start by simpa using hs])).elim
      · have hcut : s ++ [c] = (start ++ rest') ++ [d] := by simpa using hs
        obtain ⟨rfl, -⟩ := List.append_inj' hcut rfl
        have := dropPrefix?_eq_some_iff.2 (rfl : start ++ rest' = start ++ rest')
        simp [h] at this

theorem quotedPart_concat {c : Char} {closing s : List Char} {p : List Char × List Char}
    (hc : c ∉ closing) (hslash : '\\' ∉ closing) (hne : closing ≠ [])
    (h : quotedPart closing s = some p) :
    quotedPart closing (s ++ [c]) = some (p.1, p.2 ++ [c]) := by
  fun_induction quotedPart closing s generalizing p with
  | case1 => cases h
  | case2 d s ih =>
    obtain ⟨q, hq, rfl⟩ := Option.map_eq_some_iff.1 h
    simp [quotedPart, ih hq]
  | case3 d s hesc rest hr =>
    obtain rfl := Option.some.inj h
    have hr' : dropPrefix? closing (d :: (s ++ [c])) = some (rest ++ [c]) := by
      simpa [hr] using dropPrefix?_concat hc (d :: s)
    rw [List.cons_append, quotedPart]
    · simp [hr']
    · -- The text does not end in a backslash, which closes nothing.
      rintro b t rfl -
      have hs := dropPrefix?_eq_some_iff.1 hr
      cases closing with
      | nil => exact hne rfl
      | cons e closing => exact hslash ((List.cons.inj hs).1 ▸ List.mem_cons_self)
  | case4 => cases h
  | case5 d s hesc hr hline ih =>
    obtain ⟨q, hq, rfl⟩ := Option.map_eq_some_iff.1 h
    have hr' : dropPrefix? closing (d :: (s ++ [c])) = none := by
      simpa [hr] using dropPrefix?_concat hc (d :: s)
    rw [List.cons_append, quotedPart]
    · simp [hr', hline, ih hq]
    · rintro b t rfl ht
      cases s with
      | nil => simp [quotedPart] at hq
      | cons a s => exact hesc a s rfl rfl

theorem isQuote_ne_slash {c : Char} (h : isQuote c = true) : c ≠ '\\' := by
  rintro rfl
  exact absurd h (by decide)

theorem isQuote_ne_bracket {c : Char} (h : isQuote c = true) : c ≠ ']' := by
  rintro rfl
  exact absurd h (by decide)

/-- A bracket behind a text in quotation marks is no part of it. -/
theorem sourceText?_concat {raw : Bool} {quote : Char} {s rest : List Char} {t : SourceToken}
    (hquote : isQuote quote = true) (h : sourceText? raw quote s = some (t, rest)) :
    sourceText? raw quote (s ++ [']']) = some (t, rest ++ [']']) := by
  have hb : ']' ≠ quote := (isQuote_ne_bracket hquote).symm
  have hs : '\\' ≠ quote := (isQuote_ne_slash hquote).symm
  simp only [sourceText?, Option.map_eq_some_iff] at h
  obtain ⟨p, hp, he⟩ := h
  simp only [sourceText?, Option.map_eq_some_iff,
    dropPrefix?_concat (show ']' ∉ [quote, quote] by simp [hb])]
  refine ⟨(p.1, p.2 ++ [']']), ?_, by simpa using he⟩
  cases hr : dropPrefix? [quote, quote] s with
  | some rest =>
    simp only [hr] at hp
    exact quotedPart_concat (by simp [hb]) (by simp [hs]) (by simp) hp
  | none =>
    simp only [hr] at hp
    exact quotedPart_concat (by simp [hb]) (by simp [hs]) (by simp) hp

theorem wordToken_concat {word rest r : List Char} {t : SourceToken}
    (h : wordToken word rest = some (t, r)) :
    wordToken word (rest ++ [']']) = some (t, r ++ [']']) := by
  have hbracket : isQuote ']' = false := by decide
  cases hm : textMarker? word with
  | none =>
    simp only [wordToken, hm] at h ⊢
    cases h
    rfl
  | some raw =>
    cases rest with
    | nil =>
      simp only [wordToken, hm] at h
      cases h
      simp [wordToken, hm, hbracket]
    | cons quote rest =>
      simp only [wordToken, hm] at h
      by_cases hq : isQuote quote = true
      · rw [if_pos hq] at h
        simpa [wordToken, hm, hq] using sourceText?_concat hq h
      · rw [if_neg hq] at h
        cases h
        simp [wordToken, hm, hq]

theorem startsNumber_cons (c : Char) (cs : List Char) :
    startsNumber (c :: cs) = (isBasicDigit c || (c = '.' && cs.head?.any isBasicDigit)) := by
  have hpoint : isBasicDigit '.' = false := by decide
  by_cases hc : c = '.'
  · subst hc
    cases cs <;> simp [startsNumber, hpoint]
  · cases cs <;> simp [startsNumber, hc]

theorem startsNumber_concat (c : Char) (cs : List Char) :
    startsNumber (c :: (cs ++ [']'])) = startsNumber (c :: cs) := by
  have hbracket : isBasicDigit ']' = false := by decide
  cases cs <;> simp [startsNumber_cons, hbracket]

theorem numberStem_concat (s : List Char) :
    numberStem (s ++ [']']) = ((numberStem s).1, (numberStem s).2 ++ [']']) := by
  have hword : isWordRest ']' = false := by decide
  simp only [numberStem, takeWhile_concat_of_neg hword, dropWhile_concat_of_neg hword]
  cases hd : s.dropWhile isWordRest with
  | nil => rfl
  | cons point rest =>
    by_cases hpoint : point = '.'
    · subst hpoint
      simp only [List.cons_append, takeWhile_concat_of_neg hword, dropWhile_concat_of_neg hword]
      split <;> rfl
    · simp [hpoint]

theorem numberWord_concat (s : List Char) :
    numberWord (s ++ [']']) = ((numberWord s).1, (numberWord s).2 ++ [']']) := by
  have hword : isWordRest ']' = false := by decide
  have hdigit : isBasicDigit ']' = false := by decide
  simp only [numberWord, numberStem_concat]
  obtain ⟨stem, after⟩ := numberStem s
  cases after with
  | nil => rfl
  | cons sign rest =>
    cases rest with
    | nil => simp [hdigit]
    | cons c rest =>
      simp only [List.cons_append]
      split
      · rw [← List.cons_append, takeWhile_concat_of_neg hword, dropWhile_concat_of_neg hword]
      · rfl

/-- A bracket behind a token is no part of it. -/
theorem sourceToken?_concat {c : Char} {cs rest : List Char} {t : SourceToken}
    (h : sourceToken? c cs = .ok (some (t, rest))) :
    sourceToken? c (cs ++ [']']) = .ok (some (t, rest ++ [']'])) := by
  have hname : isNameRest ']' = false := by decide
  unfold sourceToken? at h ⊢
  rw [startsNumber_concat]
  split at h
  · next hc =>
    rw [if_pos hc, takeWhile_concat_of_neg hname, dropWhile_concat_of_neg hname,
      wordToken_concat (Except.ok.inj h)]
  · next hc =>
    rw [if_neg hc]
    split at h
    · next hn =>
      rw [if_pos hn, ← List.cons_append, numberWord_concat]
      obtain ⟨v, hv, he⟩ := map_eq_ok_iff.1 h
      refine map_eq_ok_iff.2 ⟨v, hv, ?_⟩
      cases he
      rfl
    · next hn =>
      rw [if_neg hn]
      split at h
      · next hq => rw [if_pos hq, sourceText?_concat hq (Except.ok.inj h)]
      · next hq =>
        rw [if_neg hq]
        split at h
        · cases h
        · next hp =>
          rw [if_neg hp, dropPrefix?_concat (show ']' ∉ ['.', '.'] by decide)]
          cases hd : dropPrefix? ['.', '.'] cs with
          | some dots =>
            simp only [hd] at h
            split at h <;> simp_all
          | none => simp_all

theorem SourceToken.ofWord_isLayout (word : List Char) : (ofWord word).isLayout = false := by
  simp only [ofWord]
  split <;> rfl

theorem sourceText?_isLayout {raw : Bool} {quote : Char} {s rest : List Char} {t : SourceToken}
    (h : sourceText? raw quote s = some (t, rest)) : t.isLayout = false := by
  simp only [sourceText?, Option.map_eq_some_iff] at h
  obtain ⟨p, -, he⟩ := h
  cases he
  rfl

theorem sourceToken?_isLayout {c : Char} {cs rest : List Char} {t : SourceToken}
    (h : sourceToken? c cs = .ok (some (t, rest))) : t.isLayout = false := by
  unfold sourceToken? at h
  split at h
  · have hword := Except.ok.inj h
    unfold wordToken at hword
    split at hword
    · split at hword
      · exact sourceText?_isLayout hword
      · cases hword
        exact SourceToken.ofWord_isLayout _
    · cases hword
      exact SourceToken.ofWord_isLayout _
  · split at h
    · obtain ⟨v, -, hv⟩ := map_eq_ok_iff.1 h
      cases hv
      rfl
    · split at h
      · exact sourceText?_isLayout (Except.ok.inj h)
      · split at h
        · cases h
        · split at h
          · split at h <;> cases h <;> rfl
          · cases h
            rfl

/-! ## Rows of tokens -/

/-- The character can start a token. -/
def startsToken (c : Char) : Bool :=
  c ≠ '\n' && !isSourceBlank c && c ≠ '#' && c ≠ '\\'

/-- The tokens that the text `s` can have, behind some brackets that are open. -/
inductive Scanned (whole : List Char) : List OpenBracket → List Char → TokenRun → Prop
  | nil {opened : List OpenBracket} : Scanned whole opened [] ⟨[], opened.head?⟩
  | joined {opened : List OpenBracket} {cs : List Char} {r : TokenRun}
      (h : Scanned whole opened cs r) : Scanned whole opened ('\\' :: '\n' :: cs) r
  | newline {opened : List OpenBracket} {cs : List Char} {r : TokenRun}
      (h : Scanned whole opened cs r) :
    Scanned whole opened ('\n' :: cs)
      (r.after (if opened.isEmpty then lineEndTokens (cs.length + 1) cs else []))
  | blank {opened : List OpenBracket} {c : Char} {cs : List Char} {r : TokenRun}
      (hc : isSourceBlank c = true) (h : Scanned whole opened cs r) :
    Scanned whole opened (c :: cs) r
  | comment {opened : List OpenBracket} {cs : List Char} {r : TokenRun}
      (h : Scanned whole opened (cs.dropWhile (· ≠ '\n')) r) : Scanned whole opened ('#' :: cs) r
  | token {opened opened' : List OpenBracket} {c : Char} {cs rest : List Char} {t : SourceToken}
      {r : TokenRun} (hc : startsToken c = true) (ht : sourceToken? c cs = .ok (some (t, rest)))
      (hb : t.bracketsAfter whole (cs.length + 1) opened = .ok opened')
      (h : Scanned whole opened' rest r) :
    Scanned whole opened (c :: cs) (r.after [⟨t, cs.length + 1⟩])

theorem scanned_of_scanTokens {whole s : List Char} {opened : List OpenBracket} {r : TokenRun}
    (h : scanTokens whole opened s = .ok r) : Scanned whole opened s r := by
  fun_induction scanTokens whole opened s generalizing r with
  | case1 =>
    cases h
    exact .nil
  | case2 _ _ ih => exact .joined (ih h)
  | case3 opened cs _ _ =>
    rename_i ih
    obtain ⟨r', hr, rfl⟩ := map_eq_ok_iff.1 h
    exact .newline (ih hr)
  | case4 _ _ _ _ _ hblank ih => exact .blank hblank (ih h)
  | case5 _ _ _ _ _ ih => exact .comment (ih h)
  | case6 => cases h
  | case7 => cases h
  | case8 => cases h
  | case9 => cases h
  | case10 _ c cs _ _ hline hblank hcomment hslash t rest ht opened' hb =>
    rename_i ih
    have hc : startsToken c = true := by simp [startsToken, hline, hblank, hcomment, hslash]
    obtain ⟨r', hr, rfl⟩ := map_eq_ok_iff.1 h
    exact .token hc ht hb (ih hr)

theorem Scanned.scanTokens_eq {whole s : List Char} {opened : List OpenBracket} {r : TokenRun}
    (h : Scanned whole opened s r) : scanTokens whole opened s = .ok r := by
  induction h with
  | nil => rw [scanTokens]
  | joined _ ih => rw [scanTokens, ih]
  | newline _ ih =>
    rw [scanTokens]
    · simp [ih, Except.map]
    · simp
  | @blank _ c _ _ hc _ ih =>
    have hline : c ≠ '\n' := by
      rintro rfl
      exact absurd hc (by decide)
    have hslash : c ≠ '\\' := by
      rintro rfl
      exact absurd hc (by decide)
    rw [scanTokens]
    · simp [hline, hc, ih]
    · simp [hslash]
  | comment _ ih =>
    have hblank : isSourceBlank '#' = false := by decide
    rw [scanTokens]
    · simpa [hblank] using ih
    · simp
  | token hc ht hb _ ih =>
    simp only [startsToken, Bool.and_eq_true, decide_eq_true_eq, ne_eq, Bool.not_eq_true'] at hc
    obtain ⟨⟨⟨hline, hblank⟩, hcomment⟩, hslash⟩ := hc
    rw [scanTokens]
    · simp only [hline, hblank, hcomment, hslash, if_false, Bool.false_eq_true]
      split
      · next hno => simp [ht] at hno
      · next hno => simp [ht] at hno
      · next t' rest' hsome =>
        obtain ⟨rfl, rfl⟩ : _ = t' ∧ _ = rest' := by simpa [ht] using hsome
        simp [hb, ih, Except.map]
    · simp [hslash]

/-- Scanning succeeds with these tokens, and only with these. -/
theorem scanTokens_eq_ok_iff {whole s : List Char} {opened : List OpenBracket} {r : TokenRun} :
    scanTokens whole opened s = .ok r ↔ Scanned whole opened s r :=
  ⟨scanned_of_scanTokens, Scanned.scanTokens_eq⟩

/-- A comment goes on to the end of the text. -/
def endsInComment (s : List Char) : Bool :=
  match s with
  | [] => false
  | c :: cs =>
    if c = '#' then
      match _h : cs.dropWhile (· ≠ '\n') with
      | [] => true
      | _ :: rest => endsInComment rest
    else if startsToken c then
      match _h : sourceToken? c cs with
      | .ok (some (_, rest)) => endsInComment rest
      | _ => false
    else endsInComment cs
termination_by s.length
decreasing_by
  · have := congrArg List.length _h
    have := length_dropWhile_lt (· ≠ '\n') c cs
    simp only [List.length_cons] at *
    omega
  · exact sourceToken?_length _h
  · simp

theorem endsInComment_skip {c : Char} {cs : List Char} (hc : startsToken c = false)
    (hcomment : c ≠ '#') : endsInComment (c :: cs) = endsInComment cs := by
  rw [endsInComment]
  simp [hc, hcomment]

theorem endsInComment_blank {c : Char} {cs : List Char} (hc : isSourceBlank c = true) :
    endsInComment (c :: cs) = endsInComment cs := by
  refine endsInComment_skip (by simp [startsToken, hc]) ?_
  rintro rfl
  exact absurd hc (by decide)

theorem endsInComment_token {c : Char} {cs rest : List Char} {t : SourceToken}
    (hc : startsToken c = true) (ht : sourceToken? c cs = .ok (some (t, rest))) :
    endsInComment (c :: cs) = endsInComment rest := by
  have hcomment : c ≠ '#' := by
    rintro rfl
    exact absurd hc (by decide)
  rw [endsInComment]
  simp only [hcomment, hc, if_false, if_true]
  split
  · next t' rest' h =>
    obtain ⟨-, rfl⟩ : t = t' ∧ rest = rest' := by simpa [ht] using h
    rfl
  · next hno => exact (hno t rest ht).elim

theorem endsInComment_comment {cs : List Char} (h : endsInComment ('#' :: cs) = false) :
    cs.dropWhile (· ≠ '\n') ≠ [] ∧ endsInComment (cs.dropWhile (· ≠ '\n')) = false := by
  rw [endsInComment] at h
  simp only [if_true] at h
  split at h
  · cases h
  · next d rest hd =>
    have hline : d = '\n' := by
      have hhead := List.head?_dropWhile_not (fun c : Char => decide (c ≠ '\n')) cs
      rw [hd] at hhead
      simpa using hhead
    subst hline
    rw [hd, endsInComment_skip (by decide) (by decide)]
    exact ⟨by simp, h⟩

/-! ## Inside brackets -/

theorem SourceToken.map_bracketsAfter {whole : List Char} {left : Nat} {t : SourceToken}
    {opened opened' : List OpenBracket} (h : t.bracketsAfter whole left opened = .ok opened') :
    opened'.map OpenBracket.bracket = t.bracketsOn (opened.map OpenBracket.bracket) := by
  cases t with
  | mark c =>
    simp only [bracketsAfter] at h
    simp only [bracketsOn]
    split at h
    · next hc =>
      cases h
      simp [hc]
    · next hc =>
      split at h
      · next hclose =>
        cases h
        simp_all
      · next hclose =>
        cases opened with
        | nil => cases h
        | cons o outer =>
          simp only at h
          split at h
          · cases h
            simp_all
          · cases h
  | _ =>
    cases h
    rfl

/-- A line feed gives layout alone. -/
theorem newline_isLayout (opened : List OpenBracket) (cs : List Char) :
    ∀ t ∈ (if opened.isEmpty then lineEndTokens (cs.length + 1) cs else []).map PlacedToken.token,
      t.isLayout = true := by
  split
  · rw [lineEndTokens]
    split <;> simp [SourceToken.isLayout]
  · simp

theorem bracketsOn_layout {ts : List SourceToken} (h : ∀ t ∈ ts, t.isLayout = true)
    (brackets : List Char) : ts.foldl SourceToken.bracketsOn brackets = brackets := by
  induction ts generalizing brackets with
  | nil => rfl
  | cons t ts ih =>
    obtain ⟨ht, hts⟩ := List.forall_mem_cons.1 h
    rw [List.foldl_cons, ih hts]
    cases t <;> first | rfl | cases ht

theorem TokenRun.map_after (r : TokenRun) (ps : List PlacedToken) :
    (r.after ps).tokens.map PlacedToken.token
      = ps.map PlacedToken.token ++ r.tokens.map PlacedToken.token :=
  List.map_append

/-- What is open at the end is what the tokens leave open. -/
theorem Scanned.unclosed {whole s : List Char} {opened : List OpenBracket} {r : TokenRun}
    (h : Scanned whole opened s r) :
    r.unclosed.map OpenBracket.bracket = ((r.tokens.map PlacedToken.token).foldl
      SourceToken.bracketsOn (opened.map OpenBracket.bracket)).head? := by
  induction h with
  | nil => simp
  | joined _ ih => exact ih
  | @newline opened cs r _ ih =>
    simp only [TokenRun.after, List.map_append, List.foldl_append,
      bracketsOn_layout (newline_isLayout opened cs)]
    exact ih
  | blank _ _ ih => exact ih
  | comment _ ih => exact ih
  | token _ _ hb _ ih =>
    simpa [TokenRun.after, SourceToken.map_bracketsAfter hb] using ih

/-- What a token does with the brackets it does with more brackets around them. -/
theorem SourceToken.exists_bracketsAfter {whole whole' : List Char} {left left' : Nat}
    {t : SourceToken} {opened opened' inner : List OpenBracket} {outer : List Char}
    (h : t.bracketsAfter whole left opened = .ok opened')
    (hinner : inner.map OpenBracket.bracket = opened.map OpenBracket.bracket ++ outer) :
    ∃ inner', t.bracketsAfter whole' left' inner = .ok inner' ∧
      inner'.map OpenBracket.bracket = opened'.map OpenBracket.bracket ++ outer := by
  cases t with
  | mark c =>
    simp only [bracketsAfter] at h ⊢
    split at h
    · next hc =>
      cases h
      exact ⟨⟨c, left'⟩ :: inner, by simp [hc], by simp [hinner]⟩
    · next hc =>
      rw [if_neg hc]
      split at h
      · next hclose =>
        cases h
        exact ⟨inner, by simp [hclose], hinner⟩
      · next hclose =>
        rw [if_neg hclose]
        cases opened with
        | nil => cases h
        | cons o opened =>
          cases inner with
          | nil => simp at hinner
          | cons i inner =>
            obtain ⟨hbracket, hinner⟩ := List.cons.inj hinner
            simp only at h
            split at h
            · next hmatch =>
              cases h
              exact ⟨inner, by simp [hbracket, hmatch], hinner⟩
            · cases h
  | _ =>
    cases h
    exact ⟨inner, rfl, hinner⟩

/-- Inside square brackets a text has the tokens that it has by itself, line ends apart, and then
comes the bracket that closes. -/
theorem Scanned.inside {whole s : List Char} {opened : List OpenBracket} {r : TokenRun}
    (h : Scanned whole opened s r) (whole' : List Char) (inner : List OpenBracket)
    (hclosed : r.unclosed = none) (hcomment : endsInComment s = false)
    (hinner : inner.map OpenBracket.bracket = opened.map OpenBracket.bracket ++ ['[']) :
    ∃ r', Scanned whole' inner (s ++ [']']) r' ∧
      r'.tokens.map PlacedToken.token
        = withoutLayout (r.tokens.map PlacedToken.token) ++ [.mark ']'] := by
  induction h generalizing inner with
  | @nil opened =>
    obtain rfl : opened = [] := by simpa using hclosed
    obtain ⟨o, rfl, ho⟩ : ∃ o, inner = [o] ∧ o.bracket = '[' := by
      simpa [List.map_eq_cons_iff] using hinner
    have hb : (SourceToken.mark ']').bracketsAfter whole' 1 [o] = .ok [] := by
      simp [SourceToken.bracketsAfter, closingBracket?, isClosingBracket, ho]
    exact ⟨_, .token (by decide) (by rfl) hb .nil, rfl⟩
  | joined _ ih =>
    rw [endsInComment_skip (by decide) (by decide), endsInComment_skip (by decide) (by decide)]
      at hcomment
    obtain ⟨r', hr', htokens⟩ := ih inner hclosed hcomment hinner
    exact ⟨r', .joined hr', htokens⟩
  | @newline opened cs r _ ih =>
    rw [endsInComment_skip (by decide) (by decide)] at hcomment
    obtain ⟨r', hr', htokens⟩ := ih inner hclosed hcomment hinner
    have hinside : inner.isEmpty = false := by
      cases inner with
      | nil => simp at hinner
      | cons => rfl
    refine ⟨_, .newline hr', ?_⟩
    rw [TokenRun.map_after, TokenRun.map_after, withoutLayout_append,
      withoutLayout_eq_nil_iff.2 (newline_isLayout opened cs), hinside]
    exact htokens
  | blank hc _ ih =>
    rw [endsInComment_blank hc] at hcomment
    obtain ⟨r', hr', htokens⟩ := ih inner hclosed hcomment hinner
    exact ⟨r', .blank hc hr', htokens⟩
  | @comment _ cs _ _ ih =>
    obtain ⟨hline, hcomment⟩ := endsInComment_comment hcomment
    obtain ⟨r', hr', htokens⟩ := ih inner hclosed hcomment hinner
    have hdrop : (cs ++ [']']).dropWhile (· ≠ '\n') = cs.dropWhile (· ≠ '\n') ++ [']'] := by
      rw [List.dropWhile_append, if_neg (mt List.isEmpty_iff.1 hline)]
    exact ⟨r', .comment (hdrop.symm ▸ hr'), htokens⟩
  | token hc ht hb _ ih =>
    rw [endsInComment_token hc ht] at hcomment
    obtain ⟨inner', hb', hinner'⟩ := SourceToken.exists_bracketsAfter hb hinner
    obtain ⟨r', hr', htokens⟩ := ih inner' hclosed hcomment hinner'
    refine ⟨_, .token hc (sourceToken?_concat ht) hb' hr', ?_⟩
    rw [TokenRun.map_after, TokenRun.map_after, withoutLayout_append, htokens]
    simp [withoutLayout_cons (sourceToken?_isLayout ht)]

/-! ## Texts side by side -/

/-- A token in front of others; a text joins a text. -/
def joinFront : SourceToken → List SourceToken → List SourceToken
  | .constant (.text s), .constant (.text u) :: rest => .constant (.text (s ++ u)) :: rest
  | t, ts => t :: ts

/-- Texts side by side are one text, whatever their places are. -/
def joinPlain (ts : List SourceToken) : List SourceToken := ts.foldr joinFront []

theorem joinPlain_cons (t : SourceToken) (ts : List SourceToken) :
    joinPlain (t :: ts) = joinFront t (joinPlain ts) := rfl

theorem joinFront_of_ne {t : SourceToken} {ts : List SourceToken}
    (h : ∀ s u rest, t = .constant (.text s) → ts ≠ .constant (.text u) :: rest) :
    joinFront t ts = t :: ts := by
  rw [joinFront]
  rintro s u rest rfl hrest
  exact h s u rest rfl hrest

@[simp] theorem joinFront_nil (t : SourceToken) : joinFront t [] = [t] :=
  joinFront_of_ne fun _ _ _ _ => by simp

theorem map_joinTexts (ps : List PlacedToken) :
    (joinTexts ps).map PlacedToken.token = joinPlain (ps.map PlacedToken.token) := by
  induction ps with
  | nil => rfl
  | cons p ps ih =>
    rw [List.map_cons, joinPlain_cons, ← ih]
    conv_lhs => unfold joinTexts
    split
    · next s u left rest hs hjoin => simp [hs, hjoin, joinFront]
    · next hno =>
      rw [joinFront_of_ne, List.map_cons]
      intro s u rest hs hjoin
      obtain ⟨⟨t, left⟩, qs, hq, htoken, -⟩ := List.map_eq_cons_iff.1 hjoin
      obtain rfl : t = .constant (.text u) := htoken
      exact hno s u left qs hs hq

/-- A token stays what it is, or it is a text in front of another one. -/
theorem joinFront_cases (t : SourceToken) (ts : List SourceToken) :
    (joinFront t ts = t :: ts ∧
      ∀ s u rest, t = .constant (.text s) → ts ≠ .constant (.text u) :: rest) ∨
    ∃ s u rest, t = .constant (.text s) ∧ ts = .constant (.text u) :: rest ∧
      joinFront t ts = .constant (.text (s ++ u)) :: rest := by
  unfold joinFront
  split
  · next s u rest => exact Or.inr ⟨s, u, rest, rfl, rfl, rfl⟩
  · next hno =>
    refine Or.inl ⟨rfl, ?_⟩
    rintro s u rest rfl rfl
    exact hno s u rest rfl rfl

theorem isLayout_of_joinPlain {ts : List SourceToken}
    (h : ∀ t ∈ joinPlain ts, t.isLayout = true) : ∀ t ∈ ts, t.isLayout = true := by
  induction ts with
  | nil => simp
  | cons t ts ih =>
    obtain ⟨heq, -⟩ | ⟨s, u, rest, -, -, heq⟩ := joinFront_cases t (joinPlain ts)
    · rw [joinPlain_cons, heq] at h
      obtain ⟨ht, hts⟩ := List.forall_mem_cons.1 h
      exact List.forall_mem_cons.2 ⟨ht, ih hts⟩
    · rw [joinPlain_cons, heq] at h
      cases (List.forall_mem_cons.1 h).1

theorem EndsInLines.of_joinFront {t : SourceToken} {ts : List SourceToken}
    (ht : t.isLayout = false) (h : EndsInLines (joinFront t ts)) : EndsInLines ts := by
  obtain ⟨heq, -⟩ | ⟨s, u, rest, rfl, rfl, heq⟩ := joinFront_cases t ts
  · rw [heq, EndsInLines, if_neg (by simp [ht])] at h
    exact h
  · rw [heq] at h
    exact h

/-- Where layout comes last, a text stands in front of the same token with it and without it. -/
theorem withoutLayout_joinFront {t : SourceToken} {ts : List SourceToken}
    (ht : t.isLayout = false) (h : EndsInLines ts) :
    withoutLayout (joinFront t ts) = joinFront t (withoutLayout ts) := by
  obtain ⟨heq, hno⟩ | ⟨s, u, rest, rfl, rfl, heq⟩ := joinFront_cases t ts
  · rw [heq, withoutLayout_cons ht]
    cases ts with
    | nil => rw [withoutLayout_nil, joinFront_nil]
    | cons x xs =>
      rw [EndsInLines] at h
      split at h
      · next hx =>
        rw [withoutLayout_cons_of_layout hx, withoutLayout_eq_nil_iff.2 h, joinFront_nil]
      · next hx =>
        rw [withoutLayout_cons (by simpa using hx), joinFront_of_ne]
        rintro s u rest rfl hrest
        exact hno s u xs rfl (by rw [(List.cons.inj hrest).1])
  · rw [heq]
    rfl

/-- Texts that stand side by side without the layout do so with it as well. -/
theorem joinPlain_withoutLayout_of_ends {ts : List SourceToken} (h : EndsInLines (joinPlain ts)) :
    joinPlain (withoutLayout ts) = withoutLayout (joinPlain ts) := by
  induction ts with
  | nil => rfl
  | cons t ts ih =>
    cases ht : t.isLayout with
    | true =>
      obtain ⟨heq, -⟩ | ⟨s, u, rest, rfl, -, -⟩ := joinFront_cases t (joinPlain ts)
      · rw [joinPlain_cons, heq, EndsInLines, if_pos ht] at h
        rw [joinPlain_cons, heq, withoutLayout_cons_of_layout ht, withoutLayout_cons_of_layout ht,
          withoutLayout_eq_nil_iff.2 h, withoutLayout_eq_nil_iff.2 (isLayout_of_joinPlain h)]
        rfl
      · cases ht
    | false =>
      have hends : EndsInLines (joinPlain ts) := .of_joinFront ht h
      rw [withoutLayout_cons ht, joinPlain_cons, joinPlain_cons, ih hends,
        withoutLayout_joinFront ht hends]

theorem joinPlain_withoutLayout {ts : List SourceToken} (h : LinesAround (joinPlain ts)) :
    joinPlain (withoutLayout ts) = withoutLayout (joinPlain ts) := by
  induction ts with
  | nil => rfl
  | cons t ts ih =>
    by_cases ht : t.isLayout = true
    · obtain ⟨heq, -⟩ | ⟨s, u, rest, rfl, -, -⟩ := joinFront_cases t (joinPlain ts)
      · rw [joinPlain_cons, heq, LinesAround, if_pos ht] at h
        rw [joinPlain_cons, heq, withoutLayout_cons_of_layout ht, withoutLayout_cons_of_layout ht]
        exact ih h
      · cases ht
    · refine joinPlain_withoutLayout_of_ends ?_
      obtain ⟨heq, -⟩ | ⟨s, u, rest, -, -, heq⟩ := joinFront_cases t (joinPlain ts)
      · rw [joinPlain_cons, heq] at h ⊢
        rw [LinesAround, if_neg ht] at h
        rwa [EndsInLines, if_neg ht]
      · rw [joinPlain_cons, heq] at h ⊢
        exact h

theorem joinPlain_append_mark (ts us : List SourceToken) (c : Char) :
    joinPlain (ts ++ .mark c :: us) = joinPlain ts ++ .mark c :: joinPlain us := by
  induction ts with
  | nil => rfl
  | cons t ts ih =>
    rw [List.cons_append, joinPlain_cons, ih, joinPlain_cons]
    cases hts : joinPlain ts with
    | nil =>
      rw [List.nil_append, joinFront_nil, joinFront_of_ne (by simp)]
      rfl
    | cons x xs =>
      obtain ⟨heq, hno⟩ | ⟨s, u, rest, rfl, hxs, heq⟩ := joinFront_cases t (x :: xs)
      · rw [heq, joinFront_of_ne, List.cons_append]
        · rfl
        · rintro s u rest rfl hrest
          cases hrest
          exact hno s u xs rfl rfl
      · cases hxs
        rfl

theorem bracketsOn_joinPlain (ts : List SourceToken) (brackets : List Char) :
    (joinPlain ts).foldl SourceToken.bracketsOn brackets
      = ts.foldl SourceToken.bracketsOn brackets := by
  induction ts generalizing brackets with
  | nil => rfl
  | cons t ts ih =>
    obtain ⟨heq, -⟩ | ⟨s, u, rest, rfl, hjoin, heq⟩ := joinFront_cases t (joinPlain ts)
    · rw [joinPlain_cons, heq, List.foldl_cons, List.foldl_cons, ih]
    · rw [joinPlain_cons, heq, List.foldl_cons, List.foldl_cons, ← ih, hjoin]
      rfl

end Styling
