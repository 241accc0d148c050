import Styling.Proofs.FontTokens

/-!
# The grammar of fonts

A font is written as style words, a number, and families with commas between them (`FontSource`).
The one text that could be read in two ways, with a style word at the start of the first family and
no number before it, is excluded from the sources (`FontSource.unstyled`).

Tokens that can make up a font are those of one source (`fits_font_iff`,
`FontSource.tokens_injective`), and the reader makes the font of the source of them
(`FontSource.fontOf_tokens`). Hence a text is read as the font of its source, if it has one, and
refused if it has none (`readFont_grammar`).
-/

set_option autoImplicit false

namespace Styling.Literal

open Styling.Decimal Styling.Text

/-! ## Sources of fonts -/

inductive WrittenFamily where
  | quoted (body : QuotedBody)
  | words (first : Word) (others : List Word)

namespace WrittenFamily

def tokens : WrittenFamily → List FontToken
  | quoted body => [.quoted body]
  | words first others => .word first :: others.map .word

/-- The family that is written: the words with single spaces between them, or the quoted text with
its marks no longer escaped. -/
def name : WrittenFamily → List Char
  | quoted body => unescapeQuotes body.1
  | words first others => join [' '] (first.1 :: others.map Subtype.val)

end WrittenFamily

/-- Families, each behind a comma. -/
def moreTokens (fs : List WrittenFamily) : List FontToken := fs.flatMap fun f => .comma :: f.tokens

/-- Families with commas between them. -/
def familyTokens : List WrittenFamily → List FontToken
  | [] => []
  | f :: fs => f.tokens ++ moreTokens fs

/-- What a font is written as. -/
structure FontSource where
  styles : List StyleWord
  number : Option SizeNumeral
  families : List WrittenFamily
  /-- Without a number in between, a style word at the start of the first family would be one of the
  styles. -/
  unstyled : number = none → ∀ first others,
    families.head? = some (.words first others) → first.1 ∉ styleWords

namespace FontSource

def tokens (p : FontSource) : List FontToken :=
  p.styles.map .style ++ (p.number.toList.map .number ++ familyTokens p.families)

/-- The font that is written: a number with a sign is a relative size. -/
def font (p : FontSource) : Font where
  families := p.families.map fun f => String.ofList f.name
  size := (p.number.filter fun n => n.1.sign.isNone).map fun n => .real n.1.double
  relativeSize := (p.number.filter fun n => n.1.sign.isSome).map fun n => .real n.1.double
  bold := decide ("bold".toList ∈ p.styles.map Subtype.val)
  italic := decide ("italic".toList ∈ p.styles.map Subtype.val)

/-- The text is one of those that the source stands for. -/
def Writes (p : FontSource) (raw : String) : Prop := Spaced p.tokens raw.toList

end FontSource

/-! ## Tokens that fit together -/

/-- What the tokens are that can stand from a place on. -/
def Shape : Place → List FontToken → Prop
  | .fontStyle, ts => ∃ p : FontSource, ts = p.tokens
  | .families, ts => ∃ fs, ts = familyTokens fs
  | .family, ts => ∃ f fs, ts = familyTokens (f :: fs)
  | .afterWord, ts => ∃ (ws : List Word) (fs : List WrittenFamily),
      ts = ws.map .word ++ moreTokens fs
  | .afterQuoted, ts => ∃ fs, ts = moreTokens fs
  | _, _ => True

/-- A family starts with its first token. -/
theorem exists_familyTokens_word (w : Word) {ts : List FontToken} (h : Shape .afterWord ts) :
    ∃ others fs, .word w :: ts = familyTokens (.words w others :: fs) := by
  obtain ⟨others, fs, rfl⟩ := h
  exact ⟨others, fs, rfl⟩

theorem exists_familyTokens_quoted (body : QuotedBody) {ts : List FontToken}
    (h : Shape .afterQuoted ts) :
    ∃ fs, .quoted body :: ts = familyTokens (.quoted body :: fs) := by
  obtain ⟨fs, rfl⟩ := h
  exact ⟨fs, rfl⟩

/-- Families are all there is if nothing stands before them. -/
theorem exists_source_of_families {fs : List WrittenFamily}
    (h : ∀ first others, fs.head? = some (.words first others) → first.1 ∉ styleWords) :
    ∃ p : FontSource, familyTokens fs = p.tokens :=
  ⟨⟨[], none, fs, fun _ => h⟩, rfl⟩

theorem Fits.shape {place : Place} {ts : List FontToken} (h : Fits place ts) : Shape place ts := by
  induction h with
  | @done place hend =>
    cases place with
    | fontStyle => exact ⟨⟨[], none, [], by simp⟩, rfl⟩
    | families => exact ⟨[], rfl⟩
    | family => contradiction
    | afterWord => exact ⟨[], [], rfl⟩
    | afterQuoted => exact ⟨[], rfl⟩
    | sequence | color => trivial
  | @token place t ts ht _ ih =>
    cases ht with
    | style w =>
      rw [next_style] at ih
      obtain ⟨p, rfl⟩ := ih
      exact ⟨{ p with styles := w :: p.styles }, rfl⟩
    | number n =>
      obtain ⟨fs, rfl⟩ := ih
      exact ⟨⟨[], some n, fs, by simp⟩, rfl⟩
    | firstWord w hw =>
      obtain ⟨others, fs, he⟩ := exists_familyTokens_word w ih
      rw [he]
      refine exists_source_of_families fun first others hfirst => ?_
      simp only [List.head?_cons, Option.some.injEq, WrittenFamily.words.injEq] at hfirst
      exact hfirst.1 ▸ hw
    | word hp w =>
      rcases hp with rfl | rfl | rfl
      · obtain ⟨others, fs, he⟩ := exists_familyTokens_word w ih
        exact ⟨_, he⟩
      · obtain ⟨others, fs, he⟩ := exists_familyTokens_word w ih
        exact ⟨_, _, he⟩
      · obtain ⟨others, fs, rfl⟩ := ih
        exact ⟨w :: others, fs, rfl⟩
    | quoted hp body =>
      have hafter : Shape .afterQuoted ts := by rcases hp with rfl | rfl | rfl <;> exact ih
      obtain ⟨fs, he⟩ := exists_familyTokens_quoted body hafter
      rcases hp with rfl | rfl | rfl
      · exact ⟨_, he⟩
      · exact ⟨_, _, he⟩
      · rw [he]
        exact exists_source_of_families (by simp)
    | comma hp =>
      obtain ⟨f, fs, rfl⟩ : Shape .family ts := by rcases hp with rfl | rfl <;> exact ih
      rcases hp with rfl | rfl
      · exact ⟨[], f :: fs, rfl⟩
      · exact ⟨f :: fs, rfl⟩

theorem fits_words (ws : List Word) {ts : List FontToken} (h : Fits .afterWord ts) :
    Fits .afterWord (ws.map .word ++ ts) := by
  induction ws with
  | nil => exact h
  | cons w ws ih => exact .token (.word (.inr (.inr rfl)) w) ih

/-- A family can stand where families start. Where a font starts it must not start with a style
word. -/
theorem fits_family {place : Place} (hp : IsFamilyStart place) {f : WrittenFamily}
    (hf : place = .fontStyle → ∀ first others, f = .words first others → first.1 ∉ styleWords)
    {ts : List FontToken} (h : ∀ last, last = .afterWord ∨ last = .afterQuoted → Fits last ts) :
    Fits place (f.tokens ++ ts) := by
  cases f with
  | quoted body =>
    have hnext : place.next .quoted = .afterQuoted := by rcases hp with rfl | rfl | rfl <;> rfl
    exact .token (.quoted hp body) (h _ (.inr hnext))
  | words first others =>
    have hrest : Fits .afterWord (others.map .word ++ ts) := fits_words others (h _ (.inl rfl))
    rcases hp with rfl | rfl | rfl
    · exact .token (.word (.inl rfl) first) hrest
    · exact .token (.word (.inr (.inl rfl)) first) hrest
    · exact .token (.firstWord first (hf rfl first others rfl)) hrest

theorem fits_more (fs : List WrittenFamily) {place : Place}
    (hp : place = .afterWord ∨ place = .afterQuoted) : Fits place (moreTokens fs) := by
  induction fs generalizing place with
  | nil => exact .done (by rcases hp with rfl | rfl <;> rfl)
  | cons f fs ih =>
    have hnext : place.next .comma = .family := by rcases hp with rfl | rfl <;> rfl
    have hfamily : Fits .family (f.tokens ++ moreTokens fs) :=
      fits_family (.inr (.inl rfl)) (by simp) fun _ => ih
    rw [moreTokens, List.flatMap_cons]
    exact .token (.comma hp) (hnext ▸ hfamily)

theorem fits_familyTokens {place : Place} (hp : IsFamilyStart place) (hend : place.mayEnd = true)
    {fs : List WrittenFamily}
    (hf : place = .fontStyle → ∀ first others,
      fs.head? = some (.words first others) → first.1 ∉ styleWords) :
    Fits place (familyTokens fs) := by
  cases fs with
  | nil => exact .done hend
  | cons f fs =>
    refine fits_family hp (fun hplace first others he => ?_) fun _ => fits_more fs
    exact hf hplace first others (he ▸ rfl)

/-- **Tokens that can make up a font are those of a source.** -/
theorem fits_font_iff {ts : List FontToken} :
    Fits .font ts ↔ ∃ p : FontSource, ts = p.tokens := by
  constructor
  · exact Fits.shape
  · rintro ⟨⟨styles, number, families, hunstyled⟩, rfl⟩
    have hrest : Fits .fontStyle (number.toList.map .number ++ familyTokens families) := by
      cases number with
      | none => exact fits_familyTokens (.inr (.inr rfl)) rfl fun _ => hunstyled rfl
      | some n => exact .token (.number n) (fits_familyTokens (.inl rfl) rfl (by simp))
    show Fits .fontStyle (styles.map .style ++ _)
    induction styles with
    | nil => exact hrest
    | cons w styles ih =>
      refine .token (.style w) ?_
      rw [next_style]
      exact ih

/-! ## One source for tokens -/

section Parts

variable {α : Type} {P : α → Prop}

/-- A list is cut in one way only after the items with a property that starts it. -/
theorem eq_and_eq_of_append {xs ys s t : List α} (hx : ∀ a ∈ xs, P a) (hy : ∀ a ∈ ys, P a)
    (hs : ∀ a ∈ s.head?, ¬P a) (ht : ∀ a ∈ t.head?, ¬P a) (h : xs ++ s = ys ++ t) :
    xs = ys ∧ s = t := by
  induction xs generalizing ys with
  | nil =>
    cases ys with
    | nil => exact ⟨rfl, h⟩
    | cons y ys =>
      obtain rfl : s = y :: ys ++ t := h
      exact absurd (hy y List.mem_cons_self) (hs y rfl)
  | cons x xs ih =>
    cases ys with
    | nil =>
      obtain rfl : x :: xs ++ s = t := h
      exact absurd (hx x List.mem_cons_self) (ht x rfl)
    | cons y ys =>
      obtain ⟨rfl, htail⟩ := List.cons.inj h
      obtain ⟨rfl, rfl⟩ := ih (fun a ha => hx a (List.mem_cons_of_mem _ ha))
        (fun a ha => hy a (List.mem_cons_of_mem _ ha)) htail
      exact ⟨rfl, rfl⟩

end Parts

theorem head_moreTokens (fs : List WrittenFamily) : ∀ t ∈ (moreTokens fs).head?, t = .comma := by
  cases fs with
  | nil => simp [moreTokens]
  | cons f fs =>
    intro t ht
    simpa [moreTokens, eq_comm] using ht

theorem head_familyTokens (fs : List WrittenFamily) :
    ∀ t ∈ (familyTokens fs).head?, (∀ w, t ≠ .style w) ∧ ∀ n, t ≠ .number n := by
  cases fs with
  | nil => simp [familyTokens]
  | cons f fs =>
    intro t ht
    cases f with
    | quoted body =>
      obtain rfl : .quoted body = t := Option.some.inj ht
      simp
    | words first others =>
      obtain rfl : .word first = t := Option.some.inj ht
      simp

/-- The first family ends before the first comma. -/
theorem family_eq {f g : WrittenFamily} {fs gs : List WrittenFamily}
    (h : f.tokens ++ moreTokens fs = g.tokens ++ moreTokens gs) :
    f = g ∧ moreTokens fs = moreTokens gs := by
  cases f with
  | quoted body =>
    cases g with
    | quoted other =>
      obtain ⟨hbody, hrest⟩ := List.cons.inj h
      exact ⟨congrArg _ (FontToken.quoted.inj hbody), hrest⟩
    | words first others => exact absurd (List.cons.inj h).1 (by simp)
  | words first others =>
    cases g with
    | quoted body => exact absurd (List.cons.inj h).1 (by simp)
    | words first' others' =>
      obtain ⟨hfirst, hothers⟩ := List.cons.inj h
      obtain rfl := FontToken.word.inj hfirst
      have hword : ∀ ws : List Word, ∀ t ∈ ws.map FontToken.word, ∃ w, t = .word w := by
        intro ws t ht
        obtain ⟨w, -, rfl⟩ := List.mem_map.1 ht
        exact ⟨w, rfl⟩
      have hcomma : ∀ fs, ∀ t ∈ (moreTokens fs).head?, ¬∃ w, t = .word w := by
        intro fs t ht
        rw [head_moreTokens fs t ht]
        simp
      obtain ⟨hmap, hrest⟩ := eq_and_eq_of_append (hword others) (hword others') (hcomma fs)
        (hcomma gs) hothers
      have hinj : Function.Injective FontToken.word := fun _ _ => FontToken.word.inj
      rw [List.map_injective_iff.2 hinj hmap]
      exact ⟨rfl, hrest⟩

theorem moreTokens_injective : Function.Injective moreTokens := by
  intro fs gs h
  induction fs generalizing gs with
  | nil =>
    cases gs with
    | nil => rfl
    | cons g gs => simp [moreTokens] at h
  | cons f fs ih =>
    cases gs with
    | nil => simp [moreTokens] at h
    | cons g gs =>
      have h : f.tokens ++ moreTokens fs = g.tokens ++ moreTokens gs := by
        simpa [moreTokens] using h
      obtain ⟨rfl, hrest⟩ := family_eq h
      rw [ih hrest]

theorem familyTokens_injective : Function.Injective familyTokens := by
  intro fs gs h
  have hne : ∀ (f : WrittenFamily) fs, familyTokens (f :: fs) ≠ [] := by
    intro f fs
    cases f <;> exact List.cons_ne_nil _ _
  cases fs with
  | nil =>
    cases gs with
    | nil => rfl
    | cons g gs => exact absurd h.symm (hne g gs)
  | cons f fs =>
    cases gs with
    | nil => exact absurd h (hne f fs)
    | cons g gs =>
      obtain ⟨rfl, hrest⟩ := family_eq h
      rw [moreTokens_injective hrest]

/-- **Tokens have one source.** -/
theorem FontSource.tokens_injective : Function.Injective FontSource.tokens := by
  rintro ⟨styles, number, families, hp⟩ ⟨styles', number', families', hq⟩ h
  have hstyle : ∀ ss : List StyleWord, ∀ t ∈ ss.map FontToken.style, ∃ w, t = .style w := by
    intro ss t ht
    obtain ⟨w, -, rfl⟩ := List.mem_map.1 ht
    exact ⟨w, rfl⟩
  have hnumber : ∀ o : Option SizeNumeral, ∀ t ∈ o.toList.map FontToken.number,
      ∃ n, t = .number n := by
    intro o t ht
    obtain ⟨n, -, rfl⟩ := List.mem_map.1 ht
    exact ⟨n, rfl⟩
  have hfamilies : ∀ fs, ∀ t ∈ (familyTokens fs).head?, ¬∃ n, t = .number n :=
    fun fs t ht ⟨n, hn⟩ => (head_familyTokens fs t ht).2 n hn
  have hrest : ∀ (o : Option SizeNumeral) fs,
      ∀ t ∈ (o.toList.map FontToken.number ++ familyTokens fs).head?, ¬∃ w, t = .style w := by
    rintro (_ | n) fs t ht ⟨w, rfl⟩
    · exact (head_familyTokens fs _ ht).1 w rfl
    · cases ht
  obtain ⟨hstyles, hafter⟩ := eq_and_eq_of_append (hstyle styles) (hstyle styles')
    (hrest number families) (hrest number' families') h
  obtain ⟨hnumbers, hlast⟩ := eq_and_eq_of_append (hnumber number) (hnumber number')
    (hfamilies families) (hfamilies families') hafter
  obtain rfl := List.map_injective_iff.2 (fun _ _ => FontToken.style.inj) hstyles
  obtain rfl := familyTokens_injective hlast
  have hlist := List.map_injective_iff.2 (fun _ _ => FontToken.number.inj) hnumbers
  obtain rfl : number = number' := by
    rw [← Option.head?_toList (o := number), hlist, Option.head?_toList]
  rfl

/-! ## The font of a source -/

/-- What has been read of a font after some tokens. -/
def FontReading.after (r : FontReading) (ts : List FontToken) : FontReading :=
  ((ts.map FontToken.lexeme).map unplaced).foldl FontReading.add r

theorem FontReading.after_cons (r : FontReading) (t : FontToken) (ts : List FontToken) :
    r.after (t :: ts) = (r.add (unplaced t.lexeme)).after ts := rfl

theorem FontReading.after_append (r : FontReading) (ts us : List FontToken) :
    r.after (ts ++ us) = (r.after ts).after us := by
  rw [after, List.map_append, List.map_append, List.foldl_append]
  rfl

theorem after_styles (ss : List StyleWord) (bold italic : Bool) :
    FontReading.after ⟨⟨[], none, none, bold, italic⟩, [], false⟩ (ss.map .style) =
      ⟨⟨[], none, none, bold || decide ("bold".toList ∈ ss.map Subtype.val),
        italic || decide ("italic".toList ∈ ss.map Subtype.val)⟩, [], false⟩ := by
  induction ss generalizing bold italic with
  | nil => simp [FontReading.after]
  | cons w ss ih =>
    have hadd : FontReading.add ⟨⟨[], none, none, bold, italic⟩, [], false⟩
        (unplaced (FontToken.style w).lexeme) =
          ⟨⟨[], none, none, bold || decide (w.1 = "bold".toList),
            italic || decide (w.1 = "italic".toList)⟩, [], false⟩ := by
      obtain ⟨w, hw⟩ := w
      rw [styleWords, List.mem_cons, List.mem_cons, List.mem_singleton] at hw
      rcases hw with rfl | rfl | rfl <;> cases bold <;> cases italic <;> rfl
    have hmem (v : List Char) : decide (v ∈ (w :: ss).map Subtype.val) =
        (decide (w.1 = v) || decide (v ∈ ss.map Subtype.val)) := by
      simp only [List.map_cons, List.mem_cons, Bool.decide_or, eq_comm]
    rw [hmem, hmem, List.map_cons, FontReading.after_cons, hadd, ih, Bool.or_assoc, Bool.or_assoc]

theorem after_number (number : Option SizeNumeral) (bold italic : Bool) :
    FontReading.after ⟨⟨[], none, none, bold, italic⟩, [], false⟩ (number.toList.map .number) =
      ⟨⟨[], (number.filter fun n => n.1.sign.isNone).map fun n => .real n.1.double,
        (number.filter fun n => n.1.sign.isSome).map fun n => .real n.1.double, bold, italic⟩, [],
        false⟩ := by
  cases number with
  | none => rfl
  | some n =>
    obtain ⟨hread, hsplit⟩ := doubleOf_text n.2
    show FontReading.add _ (unplaced (.number, n.1.text)) = _
    cases hsign : n.1.sign <;> simp [FontReading.add, unplaced, hread, hsplit, hsign, Option.filter]

/-- The tokens of a family write it, where a new one starts. -/
theorem after_family (f : WrittenFamily) (font : Font) (families : List (List Char)) :
    ∃ b, FontReading.after ⟨font, families, false⟩ f.tokens = ⟨font, families ++ [f.name], b⟩ := by
  cases f with
  | quoted body =>
    refine ⟨false, ?_⟩
    have hname : unquoteFamily ('"' :: (body.1 ++ ['"'])) = unescapeQuotes body.1 := by
      rw [unquoteFamily, List.drop_succ_cons, List.drop_zero, List.dropLast_concat]
    show FontReading.mk font (families ++ [unquoteFamily ('"' :: (body.1 ++ ['"']))]) false = _
    rw [hname]
    rfl
  | words first others =>
    refine ⟨true, ?_⟩
    have hwords : (others.map FontToken.word).map FontToken.lexeme =
        (others.map Subtype.val).map fun w => (TokenKind.word, w) := by
      rw [List.map_map, List.map_map]
      rfl
    rw [WrittenFamily.tokens, FontReading.after_cons]
    show FontReading.after ⟨font, families ++ [first.1], true⟩ _ = _
    rw [FontReading.after, hwords, foldl_words, ← join_cons]
    rfl

theorem after_more (fs : List WrittenFamily) (font : Font) (families : List (List Char))
    (b : Bool) :
    ∃ b', FontReading.after ⟨font, families, b⟩ (moreTokens fs) =
      ⟨font, families ++ fs.map WrittenFamily.name, b'⟩ := by
  induction fs generalizing families b with
  | nil => exact ⟨b, by simp [moreTokens, FontReading.after]⟩
  | cons f fs ih =>
    obtain ⟨b', hfamily⟩ := after_family f font families
    obtain ⟨b'', hrest⟩ := ih (families ++ [f.name]) b'
    refine ⟨b'', ?_⟩
    rw [moreTokens, List.flatMap_cons, List.cons_append, FontReading.after_cons]
    show FontReading.after ⟨font, families, false⟩ _ = _
    rw [FontReading.after_append, hfamily]
    show FontReading.after _ (moreTokens fs) = _
    rw [hrest, List.map_cons, List.append_assoc, List.singleton_append]

theorem after_families (fs : List WrittenFamily) (font : Font) :
    ∃ b, FontReading.after ⟨font, [], false⟩ (familyTokens fs) =
      ⟨font, fs.map WrittenFamily.name, b⟩ := by
  cases fs with
  | nil => exact ⟨false, rfl⟩
  | cons f fs =>
    obtain ⟨b, hfamily⟩ := after_family f font []
    obtain ⟨b', hmore⟩ := after_more fs font [f.name] b
    exact ⟨b', by rw [familyTokens, FontReading.after_append, hfamily]; exact hmore⟩

/-- The tokens of a source write its font. -/
theorem FontSource.fontOf_tokens (p : FontSource) :
    fontOf ((p.tokens.map FontToken.lexeme).map unplaced) = p.font := by
  obtain ⟨b, hfamilies⟩ := after_families p.families
    ⟨[], p.font.size, p.font.relativeSize, p.font.bold, p.font.italic⟩
  have hall : FontReading.start.after p.tokens =
      ⟨⟨[], p.font.size, p.font.relativeSize, p.font.bold, p.font.italic⟩,
        p.families.map WrittenFamily.name, b⟩ := by
    rw [tokens, FontReading.after_append, FontReading.after_append]
    show FontReading.after (FontReading.after (FontReading.after
      ⟨⟨[], none, none, false, false⟩, [], false⟩ _) _) _ = _
    rw [after_styles, Bool.false_or, Bool.false_or, after_number]
    exact hfamilies
  rw [FontReading.after] at hall
  rw [fontOf, hall]
  simp only [List.map_map]
  rfl

/-! ## Reading fonts -/

theorem FontSource.Writes.font_eq {p : FontSource} {raw : String} (h : p.Writes raw) :
    Literal.font raw.toList = .ok p.font :=
  font_eq_ok_iff.2 ⟨_, (lexes_iff (.inl rfl)).2 ⟨p.tokens, h, fits_font_iff.2 ⟨p, rfl⟩, rfl⟩,
    p.fontOf_tokens⟩

theorem exists_writes {raw : String} {f : Font} (h : Literal.font raw.toList = .ok f) :
    ∃ p : FontSource, p.Writes raw := by
  obtain ⟨ls, hls, -⟩ := font_eq_ok_iff.1 h
  obtain ⟨ts, hspaced, hfits, -⟩ := (lexes_iff (.inl rfl)).1 hls
  obtain ⟨p, rfl⟩ := fits_font_iff.1 hfits
  exact ⟨p, hspaced⟩

theorem FontSource.Writes.unique {p q : FontSource} {raw : String} (hp : p.Writes raw)
    (hq : q.Writes raw) : p = q := by
  have hlexes : ∀ p : FontSource, p.Writes raw →
      Lexes .font raw.toList (p.tokens.map FontToken.lexeme) := fun p hp =>
    (lexes_iff (.inl rfl)).2 ⟨p.tokens, hp, fits_font_iff.2 ⟨p, rfl⟩, rfl⟩
  have hinj : Function.Injective FontToken.lexeme := fun _ _ => FontToken.eq_of_lexeme
  exact FontSource.tokens_injective
    (List.map_injective_iff.2 hinj ((hlexes p hp).unique (hlexes q hq)))

/-- **The font grammar has exactly one reading.** A text that is written from a source is read as the
font of the source. Every text is written from one source and no other, or it is written from none
and refused with the key and the text in the error. -/
theorem readFont_grammar (key raw : String) :
    (∀ p : FontSource, p.Writes raw → readFont key raw = .ok (.font p.font)) ∧
      ((∃! p : FontSource, p.Writes raw) ∨
        (¬∃ p : FontSource, p.Writes raw) ∧
          ∃ fault, readFont key raw = .error (.badValue key raw fault)) := by
  have hread : ∀ p : FontSource, p.Writes raw → readFont key raw = .ok (.font p.font) := by
    intro p hp
    rw [readFont, structured, hp.font_eq]
  refine ⟨hread, ?_⟩
  cases h : readFont key raw with
  | ok v =>
    obtain ⟨f, hf, -⟩ := structured_ok h
    obtain ⟨p, hp⟩ := exists_writes hf
    exact .inl ⟨p, hp, fun q hq => hq.unique hp⟩
  | error e =>
    obtain ⟨fault, rfl⟩ := structured_error h
    refine .inr ⟨?_, fault, rfl⟩
    rintro ⟨p, hp⟩
    rw [hread p hp] at h
    contradiction

/-- Tokens need no gap between them, and a style word is a word like others inside a family. -/
theorem readFont_grammar_adjacent :
    let raw := "bold+2\"A \\\"x\\\"\", Segoe\tUI plain"
    ∃ p : FontSource, p.Writes raw ∧
      p.font = ⟨["A \"x\"", "Segoe UI plain"], none, p.number.map fun n => .real n.1.double, true,
        false⟩ ∧
      readFont "font" raw = .ok (.font p.font) := by
  intro raw
  let bold : StyleWord := ⟨"bold".toList, by decide⟩
  let two : SizeNumeral := ⟨⟨some '+', ['2'], false, [], none⟩,
    ⟨.inr (.inr rfl), List.forall_mem_singleton.2 rfl, by simp, fun _ => rfl, .inl (by simp),
      by simp⟩⟩
  let body : QuotedBody := ⟨"A \\\"x\\\"".toList, by decide⟩
  let word (w : String) (hw : isWord w.toList = true) : Word := ⟨w.toList, hw⟩
  let p : FontSource := ⟨[bold], some two,
    [.quoted body, .words (word "Segoe" rfl) [word "UI" rfl, word "plain" rfl]], by simp⟩
  -- From the end of the text on, one token is put in front of the others after another.
  have hwords : Spaced [.word (word "UI" rfl), .word (word "plain" rfl)]
      ('\t' :: ("UI".toList ++ ' ' :: ("plain".toList ++ []))) :=
    .token (g := ['\t']) (List.forall_mem_singleton.2 rfl) (FontToken.ends_gap _ rfl _) <|
      .token (g := [' ']) (List.forall_mem_singleton.2 rfl) (by simp [FontToken.Ends, EndsWord]) <|
        .done (by simp)
  have hfamilies := Spaced.token (g := []) (t := .quoted body) (by simp) trivial <|
    .token (g := []) (t := .comma) (by simp) trivial <|
      .token (g := [' ']) (t := .word (word "Segoe" rfl)) (List.forall_mem_singleton.2 rfl)
        (FontToken.ends_gap _ rfl _) hwords
  have htwo := Spaced.token (g := []) (t := .number two) (by simp) (EndsNumeral.ends (by
    intro c hc
    obtain rfl : '"' = c := Option.some.inj hc
    exact ⟨rfl, by decide, by decide, by decide⟩) two.1) hfamilies
  have hbold := Spaced.token (g := []) (t := .style bold) (by simp) (by
    intro c hc
    obtain rfl : '+' = c := Option.some.inj hc
    rfl) htwo
  have hwrites : p.Writes raw := by
    show Spaced p.tokens raw.toList
    convert hbold using 1
    · rfl
    · decide
  exact ⟨p, hwrites, rfl, (readFont_grammar "font" raw).1 p hwrites⟩

end Styling.Literal
