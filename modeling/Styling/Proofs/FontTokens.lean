import Styling.Proofs.Quotation
import Styling.Proofs.Values

/-!
# The tokens of fonts

A font is written in tokens with gaps between them. A gap may be missing where a token ends anyway
(`FontToken.Ends`, `Spaced`). The same word can be a style or a part of a family: which of the two
it is follows from its place (`FontToken.AdmittedAt`).

From the places of a font this is what the reader finds: the next token of a text is one that the
place admits (`nextToken?_iff`), and the lexemes of a whole text are those of tokens that can follow
each other (`lexes_iff`). Lexemes determine their tokens (`FontToken.eq_of_lexeme`).
-/

set_option autoImplicit false

namespace Styling.Literal

open Styling.Decimal Styling.Text

/-! ## Tokens of fonts -/

/-- A word for the style of a font. -/
abbrev StyleWord := { w : List Char // w ∈ styleWords }

abbrev Word := { w : List Char // isWord w = true }

/-- The number of a font. -/
abbrev SizeNumeral := { n : Numeral // n.WellFormed isBasicDigit }

/-- What stands between the quotation marks of a family: marks in it are escaped. -/
abbrev QuotedBody := { s : List Char // InQuotes Odd s }

inductive FontToken where
  | style (w : StyleWord)
  | number (n : SizeNumeral)
  | quoted (body : QuotedBody)
  | word (w : Word)
  | comma

namespace FontToken

def kind : FontToken → TokenKind
  | style w => styleKind w.1
  | number _ => .number
  | quoted _ => .quoted
  | word _ => .word
  | comma => .comma

def text : FontToken → List Char
  | style w => w.1
  | number n => n.1.text
  | quoted body => '"' :: (body.1 ++ ['"'])
  | word w => w.1
  | comma => [',']

def lexeme (t : FontToken) : Lexeme := (t.kind, t.text)

/-- The text after a token does not go on like it. -/
def Ends : FontToken → List Char → Prop
  | style _, rest => EndsWord rest
  | number n, rest => n.1.Ends isBasicDigit rest
  | quoted _, _ => True
  | word _, rest => EndsWord rest
  | comma, _ => True

/-- A gap ends every token. -/
theorem ends_gap (t : FontToken) {c : Char} (hc : isGap c = true) (rest : List Char) :
    t.Ends (c :: rest) := by
  have hvisible : ¬IsVisible c := by
    intro hv
    rw [isGap_of_isVisible hv] at hc
    contradiction
  have hne : ∀ d, isGap d = false → c ≠ d := by
    rintro d hd rfl
    rw [hc] at hd
    contradiction
  have hword : EndsWord (c :: rest) := by
    intro d hd
    obtain rfl : c = d := Option.some.inj hd
    exact Bool.eq_false_iff.2 fun hrest => hvisible (isVisible_of_isWordRest hrest)
  have hnumeral : EndsNumeral isBasicDigit (c :: rest) := by
    intro d hd
    obtain rfl : c = d := Option.some.inj hd
    exact ⟨Bool.eq_false_iff.2 fun hdigit => hvisible (isVisible_of_isBasicDigit hdigit),
      hne '.' rfl, hne 'e' rfl, hne 'E' rfl⟩
  cases t with
  | style w => exact hword
  | number n => exact hnumeral.ends n.1
  | quoted body => trivial
  | word w => exact hword
  | comma => trivial

/-- The kind that is tried for a token: style words are read as words. -/
def triedKind : FontToken → TokenKind
  | style _ => .word
  | t => t.kind

end FontToken

/-- A text consists of some tokens, with gaps before them and at the end. -/
inductive Spaced : List FontToken → List Char → Prop where
  | done {g : List Char} (hgap : ∀ c ∈ g, isGap c = true) : Spaced [] g
  | token {g rest : List Char} {t : FontToken} {ts : List FontToken}
      (hgap : ∀ c ∈ g, isGap c = true) (hends : t.Ends rest) (h : Spaced ts rest) :
      Spaced (t :: ts) (g ++ (t.text ++ rest))

/-! ## The next token -/

theorem number_lexeme?_iff {s text rest : List Char} :
    TokenKind.number.lexeme? s = some (text, rest) ↔
      ∃ n : SizeNumeral, n.1.text = text ∧ s = text ++ rest ∧ n.1.Ends isBasicDigit rest := by
  show (Numeral.scan isBasicDigit s).map _ = _ ↔ _
  rw [Option.map_eq_some_iff]
  constructor
  · rintro ⟨⟨n, r⟩, hscan, he⟩
    obtain ⟨rfl, rfl⟩ := Prod.mk.inj he
    obtain ⟨hn, hs, hr⟩ := (Numeral.scan_eq_some_iff isDigitClass_isBasicDigit).1 hscan
    exact ⟨⟨n, hn⟩, rfl, hs, hr⟩
  · rintro ⟨⟨n, hn⟩, rfl, hs, hr⟩
    exact ⟨(n, rest), (Numeral.scan_eq_some_iff isDigitClass_isBasicDigit).2 ⟨hn, hs, hr⟩, rfl⟩

theorem word_lexeme?_iff {s text rest : List Char} :
    TokenKind.word.lexeme? s = some (text, rest) ↔
      isWord text = true ∧ s = text ++ rest ∧ EndsWord rest := by
  constructor
  · intro h
    obtain ⟨hs, -⟩ := word?_append h
    cases s with
    | nil => contradiction
    | cons c cs =>
      have h : word? (c :: cs) = some (text, rest) := h
      rw [word?] at h
      split at h
      · next hc =>
        obtain ⟨rfl, rfl⟩ : c :: cs.takeWhile isWordRest = text ∧ cs.dropWhile isWordRest = rest := by
          simpa using h
        refine ⟨?_, hs, ?_⟩
        · rw [isWord, hc, Bool.true_and, List.all_eq_true]
          exact fun d hd => List.mem_takeWhile_imp hd
        · intro d hd
          have hhead := List.head?_dropWhile_not isWordRest cs
          rw [Option.mem_def.1 hd] at hhead
          simpa using hhead
      · contradiction
  · rintro ⟨hw, rfl, hr⟩
    exact word?_append_of hw hr

theorem quoted_lexeme?_iff {s text rest : List Char} :
    TokenKind.quoted.lexeme? s = some (text, rest) ↔
      ∃ body : QuotedBody, '"' :: (body.1 ++ ['"']) = text ∧ s = text ++ rest := by
  constructor
  · intro h
    simp only [TokenKind.lexeme?] at h
    split at h
    · obtain ⟨⟨l, r⟩, hclose, he⟩ := Option.map_eq_some_iff.1 h
      obtain ⟨rfl, rfl⟩ := Prod.mk.inj he
      obtain ⟨body, rfl, rfl, hbody⟩ := closeQuote_eq_some_iff.1 hclose
      exact ⟨⟨body, hbody⟩, rfl, by simp⟩
    · contradiction
  · rintro ⟨⟨body, hbody⟩, rfl, rfl⟩
    have hclose : closeQuote false (body ++ ['"'] ++ rest) = some (body ++ ['"'], rest) :=
      closeQuote_eq_some_iff.2 ⟨body, rfl, by simp, hbody⟩
    simp only [TokenKind.lexeme?, List.cons_append, hclose, Option.map_some]

/-- The kinds of token that are tried in fonts. -/
def fontKinds : List TokenKind := [.number, .word, .quoted, .comma]

/-- A token that is followed by something else is found when its kind is tried. -/
theorem FontToken.lexeme?_triedKind {t : FontToken} {rest : List Char} (h : t.Ends rest) :
    t.triedKind.lexeme? (t.text ++ rest) = some (t.text, rest) := by
  cases t with
  | style w => exact word_lexeme?_iff.2 ⟨isWord_of_style w.2, rfl, h⟩
  | number n => exact number_lexeme?_iff.2 ⟨n, rfl, rfl, h⟩
  | quoted body => exact quoted_lexeme?_iff.2 ⟨body, rfl, rfl⟩
  | word w => exact word_lexeme?_iff.2 ⟨w.2, rfl, h⟩
  | comma => exact fixed?_eq_some_iff.2 ⟨rfl, rfl⟩

/-- What is found in fonts is a token. Words are not told apart yet. -/
theorem exists_of_lexeme? {k : TokenKind} (hk : k ∈ fontKinds) {s text rest : List Char}
    (h : k.lexeme? s = some (text, rest)) :
    ∃ t : FontToken, t.kind = k ∧ t.triedKind = k ∧ t.text = text ∧ s = text ++ rest ∧
      t.Ends rest := by
  simp only [fontKinds, List.mem_cons, List.not_mem_nil, or_false] at hk
  rcases hk with rfl | rfl | rfl | rfl
  · obtain ⟨n, rfl, hs, hr⟩ := number_lexeme?_iff.1 h
    exact ⟨.number n, rfl, rfl, rfl, hs, hr⟩
  · obtain ⟨hw, hs, hr⟩ := word_lexeme?_iff.1 h
    exact ⟨.word ⟨text, hw⟩, rfl, rfl, rfl, hs, hr⟩
  · obtain ⟨body, rfl, hs⟩ := quoted_lexeme?_iff.1 h
    exact ⟨.quoted body, rfl, rfl, rfl, hs, trivial⟩
  · obtain ⟨rfl, hs⟩ := fixed?_eq_some_iff.1 h
    exact ⟨.comma, rfl, rfl, rfl, hs, trivial⟩

/-- The only kind in fonts whose tokens can start with a character. -/
def kindOfHead (c : Char) : TokenKind :=
  if isWordStart c then .word else if c = '"' then .quoted else if c = ',' then .comma else .number

theorem kindOfHead_eq {k : TokenKind} (hk : k ∈ fontKinds) {c : Char} {cs : List Char}
    (h : (k.lexeme? (c :: cs)).isSome = true) : kindOfHead c = k := by
  obtain ⟨⟨text, rest⟩, h⟩ := Option.isSome_iff_exists.1 h
  simp only [fontKinds, List.mem_cons, List.not_mem_nil, or_false] at hk
  rcases hk with rfl | rfl | rfl | rfl
  · -- A numeral starts with a digit, a point or a sign, and so does nothing else.
    have hno : ¬StartsNoNumeral c := by
      intro hno
      have hnone := number_of_head (s := c :: cs) fun d hd => Option.some.inj hd ▸ hno
      rw [h] at hnone
      contradiction
    have hword : isWordStart c = false := by
      by_contra hstart
      rw [Bool.not_eq_false] at hstart
      exact hno (startsNoNumeral_of_isWordStart hstart)
    have hquote : c ≠ '"' := by
      rintro rfl
      exact hno ⟨rfl, by decide, by decide, by decide⟩
    have hcomma : c ≠ ',' := by
      rintro rfl
      exact hno ⟨rfl, by decide, by decide, by decide⟩
    simp [kindOfHead, hword, hquote, hcomma]
  · obtain ⟨hw, hs, -⟩ := word_lexeme?_iff.1 h
    have hstart : isWordStart c = true := isWord_head hw rest c (by rw [← hs]; rfl)
    simp [kindOfHead, hstart]
  · obtain ⟨body, rfl, hs⟩ := quoted_lexeme?_iff.1 h
    obtain rfl : c = '"' := (List.cons.inj hs).1
    rfl
  · obtain ⟨rfl, hs⟩ := fixed?_eq_some_iff.1 h
    obtain rfl : c = ',' := (List.cons.inj hs).1
    rfl

theorem FontToken.text_ne_nil (t : FontToken) : t.text ≠ [] := by
  cases t with
  | style w => exact isWord_ne_nil (isWord_of_style w.2)
  | number n => exact numeral_ne_nil n.2
  | quoted body => exact List.cons_ne_nil _ _
  | word w => exact isWord_ne_nil w.2
  | comma => exact List.cons_ne_nil _ _

theorem FontToken.triedKind_mem (t : FontToken) : t.triedKind ∈ fontKinds := by
  cases t <;> simp [triedKind, kind, fontKinds]

/-- Of the kinds that are tried only that of the token fits. -/
theorem FontToken.lexeme?_eq {t : FontToken} {rest : List Char} (h : t.Ends rest) {k : TokenKind}
    (hk : k ∈ fontKinds) :
    k.lexeme? (t.text ++ rest) = if k = t.triedKind then some (t.text, rest) else none := by
  by_cases hkind : k = t.triedKind
  · rw [if_pos hkind, hkind]
    exact lexeme?_triedKind h
  · rw [if_neg hkind]
    by_contra hsome
    rw [← ne_eq, Option.ne_none_iff_isSome] at hsome
    have htext := t.text_ne_nil
    have hself := lexeme?_triedKind h
    cases hs : t.text with
    | nil => exact htext hs
    | cons c cs =>
      rw [hs, List.cons_append] at hsome hself
      exact hkind ((kindOfHead_eq hk hsome).symm.trans
        (kindOfHead_eq t.triedKind_mem (by rw [hself]; rfl)))

/-- The token can come at a place. Where a font starts, a style word is no family. -/
inductive FontToken.AdmittedAt : Place → FontToken → Prop where
  | style (w : StyleWord) : AdmittedAt .fontStyle (.style w)
  | number (n : SizeNumeral) : AdmittedAt .fontStyle (.number n)
  | firstWord (w : Word) (h : w.1 ∉ styleWords) : AdmittedAt .fontStyle (.word w)
  | word {place : Place} (hp : place = .families ∨ place = .family ∨ place = .afterWord)
      (w : Word) : AdmittedAt place (.word w)
  | quoted {place : Place} (hp : IsFamilyStart place) (body : QuotedBody) :
      AdmittedAt place (.quoted body)
  | comma {place : Place} (hp : place = .afterWord ∨ place = .afterQuoted) : AdmittedAt place .comma

/-- The places of a font. -/
def IsFontPlace (place : Place) : Prop :=
  place = .fontStyle ∨ place = .families ∨ place = .family ∨ place = .afterWord ∨
    place = .afterQuoted

theorem mem_fontKinds {place : Place} (hp : IsFontPlace place) {k : TokenKind}
    (hk : k ∈ tried place.admits) : k ∈ fontKinds := by
  have hall : ∀ k ∈ tried place.admits, k ∈ fontKinds := by
    rcases hp with rfl | rfl | rfl | rfl | rfl <;> decide
  exact hall k hk

theorem FontToken.AdmittedAt.isFontPlace {place : Place} {t : FontToken}
    (h : t.AdmittedAt place) : IsFontPlace place := by
  cases h with
  | style w => exact .inl rfl
  | number n => exact .inl rfl
  | firstWord w h => exact .inl rfl
  | word hp w => exact .inr (hp.imp_right (Or.imp_right .inl))
  | quoted hp body =>
    rcases hp with rfl | rfl | rfl
    · exact .inr (.inl rfl)
    · exact .inr (.inr (.inl rfl))
    · exact .inl rfl
  | comma hp => exact .inr (.inr (.inr hp))

/-- The kind of a token is tried where the token can come. -/
theorem FontToken.AdmittedAt.mem_tried {place : Place} {t : FontToken} (h : t.AdmittedAt place) :
    t.triedKind ∈ tried place.admits := by
  cases h with
  | style w | number n | firstWord w h =>
    simp [tried_fontStyle, triedKind, kind]
  | word hp w =>
    rcases hp with rfl | rfl | rfl <;>
      simp [tried, TokenKind.all, Place.admits, triedKind, kind, TokenKind.keyword?]
  | quoted hp body =>
    rcases hp with rfl | rfl | rfl <;>
      simp [tried, TokenKind.all, Place.admits, triedKind, kind, TokenKind.keyword?]
  | comma hp =>
    rcases hp with rfl | rfl <;>
      simp [tried, TokenKind.all, Place.admits, triedKind, kind, TokenKind.keyword?]

/-- A word has the kind that its place gives it. -/
theorem FontToken.AdmittedAt.kind_eq {place : Place} {t : FontToken} (h : t.AdmittedAt place) :
    (if t.triedKind = .word then wordKind place.admits t.text else t.triedKind) = t.kind := by
  cases h with
  | style w | number n | quoted hp body | comma hp => rfl
  | firstWord w h => exact styleKind_of_not_style (by simpa [text] using h)
  | word hp w =>
    -- No fixed word is admitted at these places.
    rcases hp with rfl | rfl | rfl <;>
      simp [triedKind, kind, wordKind, Place.admits, TokenKind.keyword?]

/-- A token that can come is the next token of a text that starts with it. -/
theorem FontToken.AdmittedAt.nextToken? {place : Place} {t : FontToken} (ht : t.AdmittedAt place)
    {rest : List Char} (h : t.Ends rest) :
    nextToken? place.admits (t.text ++ rest) = some (t.kind, t.text, rest) := by
  have hself : (t.triedKind.lexeme? (t.text ++ rest)).map (fun p =>
      (if t.triedKind = .word then wordKind place.admits p.1 else t.triedKind, p.1, p.2)) =
        some (t.kind, t.text, rest) := by
    rw [lexeme?_triedKind h, Option.map_some, ht.kind_eq]
  rw [Literal.nextToken?]
  cases hnext : (Literal.tried place.admits).findSome? fun k =>
      (k.lexeme? (t.text ++ rest)).map fun p =>
        (if k = .word then wordKind place.admits p.1 else k, p.1, p.2) with
  | none =>
    rw [List.findSome?_eq_none_iff] at hnext
    rw [hnext _ ht.mem_tried] at hself
    contradiction
  | some found =>
    -- Whichever kind has been found, it is that of the token.
    obtain ⟨k, hk, hfound⟩ := List.exists_of_findSome?_eq_some hnext
    have heq : k = t.triedKind := by
      by_contra hne
      rw [lexeme?_eq h (mem_fontKinds ht.isFontPlace hk), if_neg hne] at hfound
      contradiction
    subst heq
    exact hfound.symm.trans hself

/-- Style words where a font starts are of kinds of their own. -/
theorem styleKind_not_mem (w : StyleWord) : styleKind w.1 ∉ fontKinds := by
  obtain ⟨w, hw⟩ := w
  have hall : ∀ v ∈ styleWords, styleKind v ∉ fontKinds := by decide
  exact hall w hw

/-- What is found at a place is a token that can come there: a word is a style word where a font
starts, if it can be one. -/
theorem exists_admitted {place : Place} (hp : IsFontPlace place) {k : TokenKind}
    (hk : k ∈ tried place.admits) {s text rest : List Char}
    (h : k.lexeme? s = some (text, rest)) :
    ∃ t : FontToken, t.AdmittedAt place ∧ t.text = text ∧ s = text ++ rest ∧ t.Ends rest := by
  have hfont := mem_fontKinds hp hk
  obtain ⟨t, hkind, -, rfl, rfl, hends⟩ := exists_of_lexeme? hfont h
  cases t with
  | style w =>
    subst hkind
    exact absurd hfont (styleKind_not_mem w)
  | number n =>
    obtain rfl : TokenKind.number = k := hkind
    obtain rfl : place = .fontStyle := by
      rcases hp with rfl | rfl | rfl | rfl | rfl
      · rfl
      all_goals exact absurd hk (by decide)
    exact ⟨.number n, .number n, rfl, rfl, hends⟩
  | quoted body =>
    obtain rfl : TokenKind.quoted = k := hkind
    have hstart : IsFamilyStart place := by
      rcases hp with rfl | rfl | rfl | rfl | rfl
      · exact .inr (.inr rfl)
      · exact .inl rfl
      · exact .inr (.inl rfl)
      all_goals exact absurd hk (by decide)
    exact ⟨.quoted body, .quoted hstart body, rfl, rfl, hends⟩
  | word w =>
    obtain rfl : TokenKind.word = k := hkind
    rcases hp with rfl | hp
    · by_cases hstyle : w.1 ∈ styleWords
      · exact ⟨.style ⟨w.1, hstyle⟩, .style _, rfl, rfl, hends⟩
      · exact ⟨.word w, .firstWord w hstyle, rfl, rfl, hends⟩
    · have hplace : place = .families ∨ place = .family ∨ place = .afterWord := by
        rcases hp with hp | hp | hp | rfl
        · exact .inl hp
        · exact .inr (.inl hp)
        · exact .inr (.inr hp)
        · exact absurd hk (by decide)
      exact ⟨.word w, .word hplace w, rfl, rfl, hends⟩
  | comma =>
    obtain rfl : TokenKind.comma = k := hkind
    have hplace : place = .afterWord ∨ place = .afterQuoted := by
      rcases hp with rfl | rfl | rfl | hp | hp
      · exact absurd hk (by decide)
      · exact absurd hk (by decide)
      · exact absurd hk (by decide)
      · exact .inl hp
      · exact .inr hp
    exact ⟨.comma, .comma hplace, rfl, rfl, hends⟩

/-- **The next token in a font** is one that the place admits and that what follows does not
continue. -/
theorem nextToken?_iff {place : Place} (hp : IsFontPlace place) {s text rest : List Char}
    {k : TokenKind} :
    nextToken? place.admits s = some (k, text, rest) ↔
      ∃ t : FontToken, t.AdmittedAt place ∧ t.lexeme = (k, text) ∧ s = text ++ rest ∧
        t.Ends rest := by
  constructor
  · intro h
    obtain ⟨k', hk', hfound⟩ := List.exists_of_findSome?_eq_some h
    obtain ⟨⟨text', rest'⟩, hlexeme, he⟩ := Option.map_eq_some_iff.1 hfound
    simp only [Prod.mk.injEq] at he
    obtain ⟨-, rfl, rfl⟩ := he
    obtain ⟨t, ht, rfl, rfl, hends⟩ := exists_admitted hp hk' hlexeme
    rw [ht.nextToken? hends, Option.some.injEq, Prod.mk.injEq] at h
    exact ⟨t, ht, Prod.ext h.1 rfl, rfl, hends⟩
  · rintro ⟨t, ht, he, rfl, hends⟩
    obtain ⟨rfl, rfl⟩ := Prod.mk.inj he
    exact ht.nextToken? hends

/-! ## The tokens of a text -/

/-- Tokens can follow each other from a place on, up to the end of a font. -/
inductive Fits : Place → List FontToken → Prop where
  | done {place : Place} (h : place.mayEnd = true) : Fits place []
  | token {place : Place} {t : FontToken} {ts : List FontToken} (ht : t.AdmittedAt place)
      (h : Fits (place.next t.kind) ts) : Fits place (t :: ts)

theorem next_style (w : StyleWord) : Place.fontStyle.next (FontToken.style w).kind = .fontStyle :=
  next_styleKind w.2

theorem FontToken.AdmittedAt.next {place : Place} {t : FontToken} (h : t.AdmittedAt place) :
    IsFontPlace (place.next t.kind) := by
  cases h with
  | style w =>
    rw [next_style]
    exact .inl rfl
  | number n => exact .inr (.inl rfl)
  | firstWord w h => exact .inr (.inr (.inr (.inl rfl)))
  | word hp w => rcases hp with rfl | rfl | rfl <;> exact .inr (.inr (.inr (.inl rfl)))
  | quoted hp body => rcases hp with rfl | rfl | rfl <;> exact .inr (.inr (.inr (.inr rfl)))
  | comma hp => rcases hp with rfl | rfl <;> exact .inr (.inr (.inl rfl))

theorem FontToken.head_text (t : FontToken) (rest : List Char) :
    ∀ c ∈ (t.text ++ rest).head?, isGap c = false := by
  have hword : ∀ w, isWord w = true → ∀ c ∈ (w ++ rest).head?, isGap c = false :=
    fun w hw c hc => isGap_of_isWordStart (isWord_head hw rest c hc)
  cases t with
  | style w => exact hword w.1 (isWord_of_style w.2)
  | number n => exact head_number n.2 rest
  | quoted body =>
    intro c hc
    obtain rfl : '"' = c := Option.some.inj hc
    rfl
  | word w => exact hword w.1 w.2
  | comma =>
    intro c hc
    obtain rfl : ',' = c := Option.some.inj hc
    rfl

/-- **The lexemes of a font** are those of tokens of which the text consists and which can follow
each other. -/
theorem lexes_iff {place : Place} (hp : IsFontPlace place) {s : List Char} {ls : List Lexeme} :
    Lexes place s ls ↔
      ∃ ts, Spaced ts s ∧ Fits place ts ∧ ls = ts.map FontToken.lexeme := by
  constructor
  · intro h
    induction h with
    | done hend hgap => exact ⟨[], .done hgap, .done hend, rfl⟩
    | @token place gap s text rest kind ls hgap _ ht _ ih =>
      obtain ⟨t, hadmitted, he, rfl, hends⟩ := (nextToken?_iff hp).1 ht
      obtain ⟨rfl, rfl⟩ := Prod.mk.inj he
      obtain ⟨ts, hspaced, hfits, rfl⟩ := ih hadmitted.next
      exact ⟨t :: ts, .token hgap hends hspaced, .token hadmitted hfits, rfl⟩
  · rintro ⟨ts, hspaced, hfits, rfl⟩
    induction hspaced generalizing place with
    | done hgap =>
      cases hfits with
      | done hend => exact .done hend hgap
    | @token gap rest t ts hgap hends _ ih =>
      cases hfits with
      | token hadmitted hfits =>
        exact .token hgap (t.head_text rest) (hadmitted.nextToken? hends)
          (ih hadmitted.next hfits)

/-! ## Kind and text -/

/-- Only style words are of their kinds. -/
theorem FontToken.exists_style {t : FontToken} {w : StyleWord} (h : t.kind = styleKind w.1) :
    ∃ v, t = .style v := by
  have hno := styleKind_not_mem w
  rw [← h] at hno
  cases t with
  | style v => exact ⟨v, rfl⟩
  | number | quoted | word | comma => exact absurd (by simp [kind, fontKinds]) hno

theorem sizeNumeral_eq {n m : SizeNumeral} (h : n.1.text = m.1.text) : n = m := by
  have hscan : ∀ n : SizeNumeral, Numeral.scan isBasicDigit (n.1.text ++ []) = some (n.1, []) :=
    fun n => Numeral.scan_text isDigitClass_isBasicDigit n.2 (by simp [EndsNumeral])
  have hn := hscan n
  rw [h, hscan m] at hn
  exact Subtype.ext (Prod.mk.inj (Option.some.inj hn)).1.symm

/-- Kind and text determine a token. -/
theorem FontToken.eq_of_lexeme {t u : FontToken} (h : t.lexeme = u.lexeme) : t = u := by
  obtain ⟨hkind, htext⟩ := Prod.mk.inj h
  have hstyle : ∀ v, u = .style v → ∃ w, t = .style w := by
    rintro v rfl
    exact exists_style hkind
  cases t with
  | style w =>
    obtain ⟨v, rfl⟩ := exists_style hkind.symm
    exact congrArg style (Subtype.ext htext)
  | number n =>
    cases u with
    | style v => obtain ⟨w, hw⟩ := hstyle v rfl; contradiction
    | number m => exact congrArg number (sizeNumeral_eq htext)
    | quoted | word | comma => cases hkind
  | quoted body =>
    cases u with
    | style v => obtain ⟨w, hw⟩ := hstyle v rfl; contradiction
    | quoted other =>
      have htext : body.1 ++ ['"'] = other.1 ++ ['"'] := (List.cons.inj htext).2
      exact congrArg quoted (Subtype.ext (List.append_cancel_right htext))
    | number | word | comma => cases hkind
  | word w =>
    cases u with
    | style v => obtain ⟨w, hw⟩ := hstyle v rfl; contradiction
    | word v => exact congrArg word (Subtype.ext htext)
    | number | quoted | comma => cases hkind
  | comma =>
    cases u with
    | style v => obtain ⟨w, hw⟩ := hstyle v rfl; contradiction
    | comma => rfl
    | number | quoted | word => cases hkind

end Styling.Literal
