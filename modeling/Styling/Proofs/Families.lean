import Styling.Proofs.Structured

/-!
# Families of fonts as lexemes

A family of a font is written as bare words or between quotation marks. A quoted family is closed
where its text ends when the backslashes in it do not get in the way (`quotable`), and then it is
read as the family it was written from (`closeQuote_escape`, `unquote_quotedFamily`). Every token
between quotation marks is of that kind (`quotable_unescape`).

A list of families has the lexemes of its members with commas between them (`lexes_families`), in
every place where families can start: bare words count as style words of the font only where these
can come, and there only in front (`startsWithStyle`). The lexemes write the families again
(`foldl_families`).
-/

set_option autoImplicit false

namespace Styling.Literal

open Styling.Decimal Styling.Text

/-! ## Quoted families -/

/-- The text can stand between quotation marks: no line ends in it, and every quotation mark and
the end of the text come after an even number of backslashes. -/
def quotable (odd : Bool) : List Char → Bool
  | [] => !odd
  | c :: cs =>
    if c = '\n' then false
    else if c = '"' then !odd && quotable false cs
    else quotable (c = '\\' && !odd) cs

/-- A text with its quotation marks escaped. -/
def escapeQuotes (name : List Char) : List Char :=
  name.flatMap fun c => if c = '"' then ['\\', '"'] else [c]

theorem quotedFamily_eq (name : List Char) :
    quotedFamily name = '"' :: (escapeQuotes name ++ ['"']) := rfl

theorem escapeQuotes_quote (cs : List Char) :
    escapeQuotes ('"' :: cs) = '\\' :: '"' :: escapeQuotes cs := rfl

theorem escapeQuotes_of_ne {c : Char} (h : c ≠ '"') (cs : List Char) :
    escapeQuotes (c :: cs) = c :: escapeQuotes cs := by
  simp [escapeQuotes, h]

/-- **A quotable text is closed where it ends.** -/
theorem closeQuote_escape {odd : Bool} {name : List Char} (h : quotable odd name = true)
    (rest : List Char) :
    closeQuote odd (escapeQuotes name ++ '"' :: rest)
      = some (escapeQuotes name ++ ['"'], rest) := by
  induction name generalizing odd with
  | nil =>
    obtain rfl : odd = false := by simpa [quotable] using h
    rfl
  | cons c cs ih =>
    rw [quotable] at h
    by_cases hline : c = '\n'
    · rw [if_pos hline] at h
      contradiction
    rw [if_neg hline] at h
    by_cases hquote : c = '"'
    · -- The backslash before the mark keeps it from closing.
      rw [if_pos hquote, Bool.and_eq_true] at h
      obtain rfl : odd = false := by simpa using h.1
      subst hquote
      rw [escapeQuotes_quote, List.cons_append, List.cons_append]
      simp [closeQuote, ih h.2]
    · rw [if_neg hquote] at h
      rw [escapeQuotes_of_ne hquote, List.cons_append]
      simp [closeQuote, hline, hquote, ih h]

theorem head?_escapeQuotes (cs : List Char) : (escapeQuotes cs).head? ≠ some '"' := by
  cases cs with
  | nil => simp [escapeQuotes]
  | cons c cs =>
    by_cases hc : c = '"'
    · subst hc
      rw [escapeQuotes_quote]
      simp
    · rw [escapeQuotes_of_ne hc]
      simpa using hc

theorem unescapeQuotes_of_ne {c : Char} {cs : List Char} (h : c = '\\' → cs.head? ≠ some '"') :
    unescapeQuotes (c :: cs) = c :: unescapeQuotes cs := by
  rw [unescapeQuotes]
  rintro rest rfl rfl
  exact h rfl rfl

theorem unescapeQuotes_escapeQuotes (name : List Char) :
    unescapeQuotes (escapeQuotes name) = name := by
  induction name with
  | nil => rfl
  | cons c cs ih =>
    by_cases hc : c = '"'
    · subst hc
      rw [escapeQuotes_quote, unescapeQuotes, ih]
    · rw [escapeQuotes_of_ne hc, unescapeQuotes_of_ne fun _ => head?_escapeQuotes cs, ih]

/-- A quoted family is read as the family it was written from. -/
theorem unquote_quotedFamily (name : List Char) : unquoteFamily (quotedFamily name) = name := by
  rw [unquoteFamily, quotedFamily_eq, List.drop_succ_cons, List.drop_zero, List.dropLast_concat,
    unescapeQuotes_escapeQuotes]

/-- **What was read between quotation marks can be written between them.** After an odd number of
backslashes the last of them may belong to a mark, so it is taken into account. -/
theorem quotable_unescape {odd : Bool} {s l r : List Char} (h : closeQuote odd s = some (l, r)) :
    ∃ inner, l = inner ++ ['"'] ∧ (odd = false → inner.head? ≠ some '"')
      ∧ quotable false (unescapeQuotes (if odd then '\\' :: inner else inner)) = true := by
  -- The backslash that is in mind when a character is read may turn out to be its escape, so the
  -- induction carries it along in front of the text.
  induction s generalizing odd l with
  | nil => contradiction
  | cons c cs ih =>
    rw [closeQuote] at h
    by_cases hline : c = '\n'
    · rw [if_pos hline] at h
      contradiction
    rw [if_neg hline] at h
    by_cases hclose : (c = '"' && !odd) = true
    · rw [if_pos hclose, Option.some.injEq, Prod.mk.injEq] at h
      rw [Bool.and_eq_true, decide_eq_true_eq, Bool.not_eq_true'] at hclose
      obtain ⟨rfl, rfl⟩ := hclose
      obtain ⟨rfl, rfl⟩ := h
      exact ⟨[], rfl, by simp, rfl⟩
    rw [if_neg hclose] at h
    obtain ⟨⟨l', r'⟩, hl', he⟩ := Option.map_eq_some_iff.1 h
    obtain ⟨rfl, rfl⟩ := Prod.mk.inj he
    obtain ⟨inner, rfl, hhead, hq⟩ := ih hl'
    refine ⟨c :: inner, rfl, ?_, ?_⟩
    · rintro rfl
      simp only [Bool.not_false, Bool.and_true, decide_eq_true_eq] at hclose
      simpa using hclose
    cases odd with
    | false =>
      have hquote : c ≠ '"' := by simpa using hclose
      by_cases hslash : c = '\\'
      · -- The backslash is kept in mind for the next character.
        subst hslash
        simpa using hq
      · simp only [hslash, decide_false, Bool.false_and, Bool.false_eq_true, ↓reduceIte] at hq ⊢
        rw [unescapeQuotes_of_ne fun hc => absurd hc hslash]
        simpa [quotable, hline, hquote, hslash] using hq
    | true =>
      -- A backslash is in mind: it escapes a mark, and before anything else it stands for itself.
      simp only [Bool.not_true, Bool.and_false, Bool.false_eq_true, ↓reduceIte] at hq hhead ⊢
      by_cases hquote : c = '"'
      · subst hquote
        rw [unescapeQuotes]
        simpa [quotable] using hq
      · have hfirst : unescapeQuotes ('\\' :: c :: inner)
            = '\\' :: unescapeQuotes (c :: inner) :=
          unescapeQuotes_of_ne fun _ => by simpa using hquote
        rw [hfirst, unescapeQuotes_of_ne fun _ => hhead trivial]
        by_cases hslash : c = '\\'
        · subst hslash
          simpa [quotable] using hq
        · simpa [quotable, hline, hquote, hslash] using hq

theorem quotable_append {odd : Bool} {s t : List Char} (hs : quotable odd s = true)
    (ht : quotable false t = true) : quotable odd (s ++ t) = true := by
  induction s generalizing odd with
  | nil =>
    obtain rfl : odd = false := by simpa [quotable] using hs
    exact ht
  | cons c cs ih =>
    rw [List.cons_append, quotable]
    rw [quotable] at hs
    by_cases hline : c = '\n'
    · rw [if_pos hline] at hs
      contradiction
    rw [if_neg hline] at hs ⊢
    by_cases hquote : c = '"'
    · rw [if_pos hquote, Bool.and_eq_true] at hs ⊢
      exact ⟨hs.1, ih hs.2⟩
    · rw [if_neg hquote] at hs ⊢
      exact ih hs

/-- Words and the spaces between them can stand between quotation marks. -/
theorem quotable_of_words {w : List Char} (h : ∀ c ∈ w, isWordRest c = true ∨ c = ' ') :
    quotable false w = true := by
  induction w with
  | nil => rfl
  | cons c cs ih =>
    have hne : ∀ d, isWordRest d = false → d ≠ ' ' → c ≠ d := by
      rintro d hd hspace rfl
      rcases h c List.mem_cons_self with hc | hc
      · rw [hd] at hc
        contradiction
      · exact hspace hc
    rw [quotable, if_neg (hne '\n' (by decide) (by decide)),
      if_neg (hne '"' (by decide) (by decide))]
    simpa [hne '\\' (by decide) (by decide)] using ih fun d hd => h d (List.mem_cons_of_mem c hd)

/-! ## Tokens of families -/

/-- A text does not go on like a word. -/
def EndsWord (rest : List Char) : Prop := ∀ c ∈ rest.head?, isWordRest c = false

theorem isWord_cons {w : List Char} (h : isWord w = true) :
    ∃ c cs, w = c :: cs ∧ isWordStart c = true ∧ ∀ d ∈ cs, isWordRest d = true := by
  cases w with
  | nil => contradiction
  | cons c cs =>
    rw [isWord, Bool.and_eq_true, List.all_eq_true] at h
    exact ⟨c, cs, rfl, h.1, h.2⟩

theorem isWordRest_of_isWord {w : List Char} (h : isWord w = true) :
    ∀ c ∈ w, isWordRest c = true := by
  obtain ⟨c, cs, rfl, hc, hcs⟩ := isWord_cons h
  intro d hd
  rcases List.mem_cons.1 hd with rfl | hd
  · rw [isWordRest, hc]
    rfl
  · exact hcs d hd

theorem isWord_ne_nil {w : List Char} (h : isWord w = true) : w ≠ [] := by
  rintro rfl
  contradiction

theorem isWord_head {w : List Char} (h : isWord w = true) (rest : List Char) :
    ∀ c ∈ (w ++ rest).head?, isWordStart c = true := by
  obtain ⟨c, cs, rfl, hc, -⟩ := isWord_cons h
  intro d hd
  obtain rfl : c = d := by simpa using hd
  exact hc

theorem word?_append_of {w rest : List Char} (hw : isWord w = true) (hr : EndsWord rest) :
    word? (w ++ rest) = some (w, rest) := by
  obtain ⟨c, cs, rfl, hc, hcs⟩ := isWord_cons hw
  obtain ⟨htake, hdrop⟩ := span_append hcs hr
  rw [List.cons_append, word?, if_pos hc, htake, hdrop]

theorem word_of_head {s : List Char} (h : ∀ c ∈ s.head?, isWordStart c = false) :
    TokenKind.word.lexeme? s = none := by
  cases s with
  | nil => rfl
  | cons c cs =>
    show word? (c :: cs) = none
    rw [word?, h c rfl, if_neg (by simp)]

/-- A character that starts no numeral. -/
def StartsNoNumeral (c : Char) : Prop := isBasicDigit c = false ∧ c ≠ '.' ∧ c ≠ '-' ∧ c ≠ '+'

theorem scanDigits_of_head {s : List Char} (h : ∀ c ∈ s.head?, StartsNoNumeral c) :
    Numeral.scanDigits isBasicDigit s = none := by
  cases s with
  | nil => rfl
  | cons c cs =>
    obtain ⟨hdigit, hpoint, -, -⟩ := h c rfl
    obtain ⟨htake, hdrop⟩ := span_append (List.forall_mem_nil _) (t := c :: cs)
      fun d hd => (h d hd).1
    rw [List.nil_append] at htake hdrop
    rw [Numeral.scanDigits, htake, hdrop]
    split
    · next heq =>
      cases heq
      contradiction
    · rfl

theorem number_of_head {s : List Char} (h : ∀ c ∈ s.head?, StartsNoNumeral c) :
    TokenKind.number.lexeme? s = none := by
  have hsign : splitSign s = (none, s) := by
    have := splitSign_append (Or.inl rfl) fun c hc => (h c hc).2.2
    simpa using this
  show (Numeral.scan isBasicDigit s).map _ = none
  rw [Numeral.scan, hsign]
  simp only [scanDigits_of_head h, Option.map_none]

theorem startsNoNumeral_of_isWordStart {c : Char} (h : isWordStart c = true) :
    StartsNoNumeral c := by
  have hne : ∀ d, isWordStart d = false → c ≠ d := by
    rintro d hd rfl
    rw [hd] at h
    contradiction
  refine ⟨?_, hne '.' (by decide), hne '-' (by decide), hne '+' (by decide)⟩
  -- Letters and the underscore lie above the digits.
  rw [isWordStart, Bool.or_eq_true, Bool.or_eq_true, Bool.and_eq_true, Bool.and_eq_true] at h
  simp only [decide_eq_true_eq, Char.le_def, UInt32.le_iff_toNat_le] at h
  rw [isBasicDigit, Bool.and_eq_false_iff, decide_eq_false_iff_not, decide_eq_false_iff_not,
    Char.le_def, Char.le_def, UInt32.le_iff_toNat_le, UInt32.le_iff_toNat_le]
  right
  rcases h with (h | h) | rfl
  · have : (97 : Nat) ≤ c.val.toNat := h.1
    show ¬c.val.toNat ≤ 57
    omega
  · have : (65 : Nat) ≤ c.val.toNat := h.1
    show ¬c.val.toNat ≤ 57
    omega
  · decide

theorem isGap_of_isWordStart {c : Char} (h : isWordStart c = true) : isGap c = false :=
  isGap_of_isVisible (isVisible_of_isWordRest (by rw [isWordRest, h]; rfl))

/-- The kinds that are tried where a font starts. -/
theorem tried_fontStyle : tried Place.fontStyle.admits = [.number, .word, .quoted] := by decide

/-- The kind of a word where a font starts. -/
def styleKind (w : List Char) : TokenKind := wordKind Place.fontStyle.admits w

theorem nextToken?_fontStyle_word {w rest : List Char} (hw : isWord w = true)
    (hr : EndsWord rest) :
    nextToken? Place.fontStyle.admits (w ++ rest) = some (styleKind w, w, rest) := by
  have hnumber : TokenKind.number.lexeme? (w ++ rest) = none :=
    number_of_head fun c hc => startsNoNumeral_of_isWordStart (isWord_head hw rest c hc)
  have hword : TokenKind.word.lexeme? (w ++ rest) = some (w, rest) := word?_append_of hw hr
  rw [nextToken?, tried_fontStyle]
  simp [hnumber, hword, styleKind]

/-- Where a font starts no token stands before a character that starts no number, no word and no
quoted family. -/
theorem nextToken?_fontStyle_none {c : Char} (hnumeral : StartsNoNumeral c)
    (hstart : isWordStart c = false) (hquote : c ≠ '"') (rest : List Char) :
    nextToken? Place.fontStyle.admits (c :: rest) = none := by
  have hhead : ∀ d ∈ (c :: rest).head?, d = c := fun d hd => (Option.some.inj hd).symm
  have hnumber : TokenKind.number.lexeme? (c :: rest) = none :=
    number_of_head fun d hd => hhead d hd ▸ hnumeral
  have hword : TokenKind.word.lexeme? (c :: rest) = none :=
    word_of_head fun d hd => hhead d hd ▸ hstart
  have hquoted : TokenKind.quoted.lexeme? (c :: rest) = none := by
    simp only [TokenKind.lexeme?]
    split
    · next heq => exact absurd (List.cons.inj heq).1 hquote
    · rfl
  rw [nextToken?, tried_fontStyle]
  simp [hnumber, hword, hquoted]

/-- A place at which a family can start. -/
def IsFamilyStart (place : Place) : Prop :=
  place = .families ∨ place = .family ∨ place = .fontStyle

/-- The next word of a family starts where one can follow another, or where a family starts. -/
theorem nextToken?_word {place : Place} (hp : place = .families ∨ place = .family
      ∨ place = .afterWord) {w rest : List Char} (hw : isWord w = true) (hr : EndsWord rest) :
    nextToken? place.admits (w ++ rest) = some (.word, w, rest) := by
  have hword : TokenKind.word.lexeme? (w ++ rest) = some (w, rest) := word?_append_of hw hr
  have hwide : tried [.quoted, .word] = [.word, .quoted] := by decide
  have hafter : tried [.word, .comma] = [.word, .comma] := by decide
  rcases hp with rfl | rfl | rfl
  · rw [nextToken?, Place.admits, hwide]
    simp [hword, wordKind, TokenKind.keyword?]
  · rw [nextToken?, Place.admits, hwide]
    simp [hword, wordKind, TokenKind.keyword?]
  · rw [nextToken?, Place.admits, hafter]
    simp [hword, wordKind, TokenKind.keyword?]

/-- A quoted family is the next token wherever a family can start. -/
theorem nextToken?_quoted {place : Place} (hp : IsFamilyStart place) {name : List Char}
    (hq : quotable false name = true) (rest : List Char) :
    nextToken? place.admits (quotedFamily name ++ rest)
      = some (.quoted, quotedFamily name, rest) := by
  have htext : quotedFamily name ++ rest = '"' :: (escapeQuotes name ++ '"' :: rest) := by
    rw [quotedFamily_eq, List.cons_append, List.append_assoc]
    rfl
  -- Numbers and words are tried first, but neither starts with a quotation mark.
  have hnumber : TokenKind.number.lexeme? ('"' :: (escapeQuotes name ++ '"' :: rest)) = none := by
    refine number_of_head fun c hc => ?_
    obtain rfl : '"' = c := by simpa using hc
    exact ⟨rfl, by decide, by decide, by decide⟩
  have hword : TokenKind.word.lexeme? ('"' :: (escapeQuotes name ++ '"' :: rest)) = none := by
    refine word_of_head fun c hc => ?_
    obtain rfl : '"' = c := by simpa using hc
    rfl
  have hquoted : TokenKind.quoted.lexeme? ('"' :: (escapeQuotes name ++ '"' :: rest))
      = some (quotedFamily name, rest) := by
    simp only [TokenKind.lexeme?, closeQuote_escape hq, Option.map_some, quotedFamily_eq]
  have hwide : tried [.quoted, .word] = [.word, .quoted] := by decide
  rw [htext]
  rcases hp with rfl | rfl | rfl
  · rw [nextToken?, Place.admits, hwide]
    simp [hword, hquoted]
  · rw [nextToken?, Place.admits, hwide]
    simp [hword, hquoted]
  · rw [nextToken?, tried_fontStyle]
    simp [hnumber, hword, hquoted]

/-! ## Lists of families -/

/-- The lexemes of a family. -/
def familyLexemes (name : List Char) : List Lexeme :=
  if isBareFamily name then (pieces [' '] name).map fun w => (.word, w)
  else [(.quoted, quotedFamily name)]

/-- The place after a family. -/
def afterFamily (name : List Char) : Place :=
  if isBareFamily name then .afterWord else .afterQuoted

/-- The lexemes of some families with commas between them. -/
def familiesLexemes : List (List Char) → List Lexeme
  | [] => []
  | name :: names => familyLexemes name ++ names.flatMap fun n => (.comma, [',']) :: familyLexemes n

/-- A family of bare words of which the first is a style word. -/
def startsWithStyle (name : List Char) : Bool :=
  isBareFamily name && styleWords.contains ((pieces [' '] name).headD [])

theorem isWord_of_isBareFamily {name w : List Char} (h : isBareFamily name = true)
    (hw : w ∈ pieces [' '] name) : isWord w = true := by
  rw [isBareFamily, Bool.and_eq_true, List.all_eq_true] at h
  exact h.1 w hw

theorem styleKind_of_not_style {w : List Char} (h : styleWords.contains w = false) :
    styleKind w = .word := by
  have hne : ∀ k ∈ Place.fontStyle.admits, k.keyword? ≠ some w := by
    intro k hk heq
    -- The fixed words that a font can start with are the style words.
    have hmem : w ∈ styleWords := by
      simp only [Place.admits, List.mem_cons, List.not_mem_nil, or_false] at hk
      rcases hk with rfl | rfl | rfl | rfl | rfl | rfl
      · rw [← Option.some.inj heq]
        decide
      · rw [← Option.some.inj heq]
        decide
      · rw [← Option.some.inj heq]
        decide
      · contradiction
      · contradiction
      · contradiction
    rw [List.contains_eq_mem, decide_eq_false_iff_not] at h
    exact h hmem
  have hfind : (Place.fontStyle.admits.find? fun k => k.keyword? = some w) = none := by
    rw [List.find?_eq_none]
    intro k hk
    simpa using hne k hk
  rw [styleKind, wordKind, hfind]
  rfl

theorem endsWord_flatMap {f : List Char → List Char}
    (hf : ∀ p, ∀ c ∈ (f p).head?, isWordRest c = false) (hne : ∀ p, f p ≠ [])
    (ps : List (List Char)) {tail : List Char} (ht : EndsWord tail) :
    EndsWord (ps.flatMap f ++ tail) := by
  cases ps with
  | nil => exact ht
  | cons p ps =>
    intro c hc
    rw [List.flatMap_cons, List.append_assoc, List.head?_append_of_ne_nil _ (hne p)] at hc
    exact hf p c hc

/-- Words after a word have their own lexemes. -/
theorem lexes_words {ws : List (List Char)} (hws : ∀ w ∈ ws, isWord w = true) {tail : List Char}
    (ht : EndsWord tail) {ls : List Lexeme} (h : Lexes .afterWord tail ls) :
    Lexes .afterWord (ws.flatMap ([' '] ++ ·) ++ tail) ((ws.map fun w => (.word, w)) ++ ls) := by
  induction ws with
  | nil => exact h
  | cons w ws ih =>
    have hw := hws w List.mem_cons_self
    have hrest := ih fun v hv => hws v (List.mem_cons_of_mem w hv)
    have hends : EndsWord (ws.flatMap ([' '] ++ ·) ++ tail) :=
      endsWord_flatMap (by simp [isWordRest, isWordStart, isBasicDigit]) (by simp) ws ht
    rw [List.flatMap_cons, List.append_assoc, List.append_assoc]
    refine lexes_space_iff.2 (Lexes.cons ?_ (nextToken?_word (Or.inr (Or.inr rfl)) hw hends) hrest)
    exact fun c hc => isGap_of_isWordStart (isWord_head hw _ c hc)

/-- **A family has its lexemes wherever it can start.** In front of a font it must not start with a
style word. -/
theorem lexes_family {place : Place} (hp : IsFamilyStart place) {name : List Char}
    (hq : quotable false name = true) (hs : place = .fontStyle → startsWithStyle name = false)
    {tail : List Char} (ht : EndsWord tail) {ls : List Lexeme}
    (h : Lexes (afterFamily name) tail ls) :
    Lexes place (familyText name ++ tail) (familyLexemes name ++ ls) := by
  cases hb : isBareFamily name with
  | false =>
    rw [familyText, familyLexemes, if_neg (by simp [hb]), if_neg (by simp [hb])]
    rw [afterFamily, if_neg (by simp [hb])] at h
    have hnext : place.next .quoted = .afterQuoted := by rcases hp with rfl | rfl | rfl <;> rfl
    refine Lexes.cons ?_ (nextToken?_quoted hp hq tail) (hnext ▸ h)
    intro c hc
    obtain rfl : '"' = c := by simpa [quotedFamily_eq] using hc
    rfl
  | true =>
    rw [familyText, familyLexemes, if_pos hb, if_pos hb]
    rw [afterFamily, if_pos hb] at h
    cases hpieces : pieces [' '] name with
    | nil => exact absurd hpieces (pieces_ne_nil [' '] name)
    | cons w ws =>
      have hw : isWord w = true := isWord_of_isBareFamily hb (by simp [hpieces])
      have hws : ∀ v ∈ ws, isWord v = true :=
        fun v hv => isWord_of_isBareFamily hb (by simp [hpieces, hv])
      have hname : name = w ++ ws.flatMap ([' '] ++ ·) := by
        rw [← join_cons, ← hpieces, join_pieces (by simp)]
      have hends : EndsWord (ws.flatMap ([' '] ++ ·) ++ tail) :=
        endsWord_flatMap (by simp [isWordRest, isWordStart, isBasicDigit]) (by simp) ws ht
      have hnext : place.next .word = .afterWord := by rcases hp with rfl | rfl | rfl <;> rfl
      -- In front of a font the word must not be taken for a style; elsewhere no style can come.
      have htoken : nextToken? place.admits (w ++ (ws.flatMap ([' '] ++ ·) ++ tail))
          = some (.word, w, ws.flatMap ([' '] ++ ·) ++ tail) := by
        rcases hp with rfl | rfl | rfl
        · exact nextToken?_word (Or.inl rfl) hw hends
        · exact nextToken?_word (Or.inr (Or.inl rfl)) hw hends
        · have hstyle : styleWords.contains w = false := by
            have := hs rfl
            rwa [startsWithStyle, hb, hpieces, Bool.true_and] at this
          rw [nextToken?_fontStyle_word hw hends, styleKind_of_not_style hstyle]
      conv => arg 2; rw [hname, List.append_assoc]
      refine Lexes.cons ?_ htoken (hnext ▸ lexes_words hws ht h)
      exact fun c hc => isGap_of_isWordStart (isWord_head hw _ c hc)

theorem endsWord_families (names : List (List Char)) :
    EndsWord (names.flatMap fun n => [',', ' '] ++ familyText n) := by
  have hnil : EndsWord [] := by simp [EndsWord]
  have := endsWord_flatMap (f := fun n => [',', ' '] ++ familyText n)
    (by simp [isWordRest, isWordStart, isBasicDigit]) (by simp) names hnil
  rwa [List.append_nil] at this

/-- Families after a family, each behind a comma. -/
theorem lexes_moreFamilies {names : List (List Char)}
    (hq : ∀ name ∈ names, quotable false name = true) (before : List Char) :
    Lexes (afterFamily before) (names.flatMap fun n => [',', ' '] ++ familyText n)
      (names.flatMap fun n => (.comma, [',']) :: familyLexemes n) := by
  induction names generalizing before with
  | nil =>
    refine Lexes.nil ?_
    rw [afterFamily]
    split <;> rfl
  | cons name names ih =>
    -- The comma leads to a place where only a family can start, whichever family was before it.
    have hrest := lexes_family (Or.inr (Or.inl rfl)) (hq name List.mem_cons_self) (by simp)
      (endsWord_families names) (ih (fun n hn => hq n (List.mem_cons_of_mem name hn)) name)
    have hnext : (afterFamily before).next .comma = .family := by
      rw [afterFamily]
      split <;> rfl
    have htoken : ∀ rest, nextToken? (afterFamily before).admits (',' :: rest)
        = some (.comma, [','], rest) := by
      intro rest
      have hword : TokenKind.word.lexeme? (',' :: rest) = none := by
        show word? (',' :: rest) = none
        simp [word?, isWordStart]
      have hcomma : TokenKind.comma.lexeme? (',' :: rest) = some ([','], rest) := rfl
      have hafter : tried [.word, .comma] = [.word, .comma] := by decide
      rw [afterFamily]
      split
      · rw [nextToken?, Place.admits, hafter]
        simp [hword, hcomma]
      · rw [Place.admits, nextToken?_singleton (by decide), hcomma]
        rfl
    rw [List.flatMap_cons, List.flatMap_cons, List.append_assoc, List.cons_append]
    exact Lexes.cons (by simp [isGap]) (htoken _) (hnext ▸ lexes_space_iff.2 hrest)

/-- **Families with commas between them have the lexemes of each.** -/
theorem lexes_families {place : Place} (hp : IsFamilyStart place) {name : List Char}
    {names : List (List Char)} (hq : ∀ n ∈ name :: names, quotable false n = true)
    (hs : place = .fontStyle → startsWithStyle name = false) :
    Lexes place (join [',', ' '] ((name :: names).map familyText))
      (familiesLexemes (name :: names)) := by
  have hmore := lexes_moreFamilies (fun n hn => hq n (List.mem_cons_of_mem name hn)) name
  have htext : join [',', ' '] ((name :: names).map familyText)
      = familyText name ++ names.flatMap fun n => [',', ' '] ++ familyText n := by
    rw [List.map_cons, join_cons, List.flatMap_map]
  rw [htext, familiesLexemes]
  exact lexes_family hp (hq name List.mem_cons_self) hs (endsWord_families names) hmore

/-! ## Families from their lexemes -/

theorem foldl_words (ws : List (List Char)) (font : Font) (families : List (List Char))
    (family : List Char) :
    ((ws.map fun w => (TokenKind.word, w)).map unplaced).foldl FontReading.add
        ⟨font, families ++ [family], true⟩
      = ⟨font, families ++ [family ++ ws.flatMap ([' '] ++ ·)], true⟩ := by
  induction ws generalizing family with
  | nil => simp
  | cons w ws ih =>
    have hadd : FontReading.add ⟨font, families ++ [family], true⟩ (unplaced (.word, w))
        = ⟨font, families ++ [family ++ ' ' :: w], true⟩ := by
      simp [FontReading.add, unplaced, addWord]
    rw [List.map_cons, List.map_cons, List.foldl_cons, hadd, ih]
    simp

/-- The lexemes of a family write that family, where a new one starts. -/
theorem foldl_family (name : List Char) (font : Font) (families : List (List Char)) :
    ∃ b, ((familyLexemes name).map unplaced).foldl FontReading.add ⟨font, families, false⟩
      = ⟨font, families ++ [name], b⟩ := by
  cases hb : isBareFamily name with
  | false =>
    refine ⟨false, ?_⟩
    rw [familyLexemes, if_neg (by simp [hb]), List.map_singleton, List.foldl_cons, List.foldl_nil]
    simp [FontReading.add, unplaced, unquote_quotedFamily]
  | true =>
    refine ⟨true, ?_⟩
    rw [familyLexemes, if_pos hb]
    cases hpieces : pieces [' '] name with
    | nil => exact absurd hpieces (pieces_ne_nil [' '] name)
    | cons w ws =>
      have hname : name = w ++ ws.flatMap ([' '] ++ ·) := by
        rw [← join_cons, ← hpieces, join_pieces (by simp)]
      -- The first word starts the family, and the others continue it.
      rw [List.map_cons, List.map_cons, List.foldl_cons]
      show List.foldl _ (FontReading.mk font (families ++ [w]) true) _ = _
      rw [foldl_words, ← hname]

theorem foldl_moreFamilies (names : List (List Char)) (font : Font) (families : List (List Char))
    (b : Bool) :
    ∃ b', ((names.flatMap fun n => (TokenKind.comma, [',']) :: familyLexemes n).map
        unplaced).foldl FontReading.add ⟨font, families, b⟩ = ⟨font, families ++ names, b'⟩ := by
  induction names generalizing families b with
  | nil => exact ⟨b, by simp⟩
  | cons name names ih =>
    obtain ⟨b', hfamily⟩ := foldl_family name font families
    obtain ⟨b'', hrest⟩ := ih (families ++ [name]) b'
    refine ⟨b'', ?_⟩
    rw [List.flatMap_cons, List.map_append, List.foldl_append, List.map_cons, List.foldl_cons]
    show List.foldl _ (List.foldl _ (FontReading.mk font families false) _) _ = _
    rw [hfamily, hrest, List.append_assoc, List.singleton_append]

/-- **The lexemes of families write these families.** -/
theorem foldl_families (names : List (List Char)) (font : Font) :
    ∃ b, ((familiesLexemes names).map unplaced).foldl FontReading.add ⟨font, [], false⟩
      = ⟨font, names, b⟩ := by
  cases names with
  | nil => exact ⟨false, rfl⟩
  | cons name names =>
    obtain ⟨b, hfamily⟩ := foldl_family name font []
    obtain ⟨b', hmore⟩ := foldl_moreFamilies names font [name] b
    refine ⟨b', ?_⟩
    rw [familiesLexemes, List.map_append, List.foldl_append, hfamily]
    exact hmore

end Styling.Literal
