import Styling.Proofs.Fonts

/-!
# What the text of a font writes

Every font that is read from a text is spelled, and its families hold no other characters than the
text, but for spaces (`spelled_of_font`); the proof follows the tokens from place to place. The text
that a spelled font is written as can stand in a statement (`Font.Spelled.exists_format`).

A spelled font that is not unambiguous is read from its text as another font or not at all: the
word for an infinity becomes a family, so the size is lost (`sizes_of_not_finite`), and style words
in front of the first family are taken away from it (`families_ne_of_startsWithStyle`).
-/

set_option autoImplicit false

namespace Styling

open Styling.Decimal Styling.Literal Styling.Text

/-! ## The tokens of a font -/

theorem lexeme?_of_nextToken? {admitted : List TokenKind} {s text rest : List Char}
    {kind : TokenKind} (h : nextToken? admitted s = some (kind, text, rest)) :
    (kind ∈ admitted ∧ kind.lexeme? s = some (text, rest))
      ∨ (kind ∈ admitted ∧ kind.keyword? = some text) := by
  obtain ⟨k, hk, hs⟩ := List.exists_of_findSome?_eq_some h
  obtain ⟨⟨t, r⟩, hlexeme, he⟩ := Option.map_eq_some_iff.1 hs
  have hadmitted : k ∈ admitted := by
    rw [tried, List.mem_filter, Bool.and_eq_true, List.contains_eq_mem] at hk
    simpa using hk.2.1
  simp only [Prod.mk.injEq] at he
  obtain ⟨hkind, rfl, rfl⟩ := he
  -- Only a word can stand for another kind, that of the fixed word that it is.
  by_cases hword : k = .word
  · rw [if_pos hword] at hkind
    subst hword
    rw [wordKind] at hkind
    cases hfind : admitted.find? fun k => k.keyword? = some t with
    | none =>
      rw [hfind] at hkind
      obtain rfl : TokenKind.word = kind := hkind
      exact Or.inl ⟨hadmitted, hlexeme⟩
    | some k' =>
      rw [hfind] at hkind
      obtain rfl : k' = kind := hkind
      exact Or.inr ⟨List.mem_of_find?_eq_some hfind, by simpa using List.find?_some hfind⟩
  · rw [if_neg hword] at hkind
    subst hkind
    exact Or.inl ⟨hadmitted, hlexeme⟩

theorem nextToken?_mem {admitted : List TokenKind} {s text rest : List Char} {kind : TokenKind}
    (h : nextToken? admitted s = some (kind, text, rest)) : kind ∈ admitted := by
  rcases lexeme?_of_nextToken? h with h | h
  · exact h.1
  · exact h.1

/-- The text of a word token can stand between quotation marks. -/
theorem quotable_of_word {admitted : List TokenKind} {s text rest : List Char}
    (h : nextToken? admitted s = some (.word, text, rest)) : quotable false text = true := by
  rcases lexeme?_of_nextToken? h with ⟨-, hword⟩ | ⟨-, hkey⟩
  · cases s with
    | nil => contradiction
    | cons c cs =>
      have hword : word? (c :: cs) = some (text, rest) := hword
      rw [word?] at hword
      split at hword
      · next hc =>
        obtain ⟨rfl, -⟩ : c :: cs.takeWhile isWordRest = text ∧ cs.dropWhile isWordRest = rest := by
          simpa using hword
        refine quotable_of_words fun d hd => Or.inl ?_
        rcases List.mem_cons.1 hd with rfl | hd
        · rw [isWordRest, hc]
          rfl
        · exact List.mem_takeWhile_imp hd
      · contradiction
  · contradiction

/-- The family in a token between quotation marks can stand between them. -/
theorem quotable_of_quoted {admitted : List TokenKind} {s text rest : List Char}
    (h : nextToken? admitted s = some (.quoted, text, rest)) :
    quotable false (unquoteFamily text) = true := by
  rcases lexeme?_of_nextToken? h with ⟨-, hquoted⟩ | ⟨-, hkey⟩
  · simp only [TokenKind.lexeme?] at hquoted
    split at hquoted
    · obtain ⟨⟨l, r⟩, hclose, he⟩ := Option.map_eq_some_iff.1 hquoted
      obtain ⟨rfl, -⟩ := Prod.mk.inj he
      obtain ⟨inner, rfl, -, hq⟩ := quotable_unescape hclose
      rw [unquoteFamily, List.drop_succ_cons, List.drop_zero, List.dropLast_concat]
      simpa using hq
    · contradiction
  · contradiction

theorem mem_unescapeQuotes {s : List Char} {c : Char} (h : c ∈ unescapeQuotes s) : c ∈ s := by
  fun_induction unescapeQuotes s with
  | case1 cs ih =>
    rcases List.mem_cons.1 h with rfl | h
    · simp
    · simp [ih h]
  | case2 d cs _ ih =>
    rcases List.mem_cons.1 h with rfl | h
    · simp
    · simp [ih h]
  | case3 => contradiction

theorem mem_unquoteFamily {s : List Char} {c : Char} (h : c ∈ unquoteFamily s) : c ∈ s :=
  List.mem_of_mem_drop (List.dropLast_subset _ (mem_unescapeQuotes h))

theorem isNegative_doubleOf {s : List Char} (h : (splitSign s).1 = none) :
    (doubleOf s).isNegative = false := by
  rw [doubleOf]
  split
  · next n r hscan =>
    rw [Numeral.scan, Option.map_eq_some_iff] at hscan
    obtain ⟨⟨⟨w, p, d⟩, t⟩, -, he⟩ := hscan
    have hsign : n.sign = none := by
      rw [← (Prod.mk.inj he).1]
      exact h
    have hneg : decide (n.sign = some '-') = false := by simp [hsign]
    rw [Numeral.double, hneg]
    exact isNegative_ofDecimal _ _
  · rfl

/-! ## Fonts that were read -/

/-- What has been read of a font at a place in its text: at most one size and none before the
families, and families that can stand between quotation marks and are made of given characters. -/
structure ReadUpTo (P : Char → Prop) (place : Place) (r : FontReading) : Prop where
  inFont : place = .fontStyle ∨ place = .families ∨ place = .family ∨ place = .afterWord
    ∨ place = .afterQuoted
  size : ∀ n ∈ r.font.size, ∃ x, n = .real x ∧ x.isNegative = false
  relativeSize : ∀ n ∈ r.font.relativeSize, ∃ x, n = .real x
  oneSize : r.font.size = none ∨ r.font.relativeSize = none
  unsized : place = .fontStyle → r.font.size = none ∧ r.font.relativeSize = none
  families : ∀ name ∈ r.families, quotable false name = true ∧ ∀ c ∈ name, P c

theorem ReadUpTo.start (P : Char → Prop) : ReadUpTo P .font FontReading.start where
  inFont := Or.inl rfl
  size := by simp [FontReading.start, Font.plain]
  relativeSize := by simp [FontReading.start, Font.plain]
  oneSize := Or.inl rfl
  unsized := fun _ => ⟨rfl, rfl⟩
  families := by simp [FontReading.start]

/-- A word that continues the last family, or starts a new one, leaves families as they have to
be. -/
theorem mem_addWord {P : Char → Prop} (hspace : P ' ') {word : List Char}
    (hw : quotable false word = true ∧ ∀ c ∈ word, P c) {families : List (List Char)}
    (hf : ∀ name ∈ families, quotable false name = true ∧ ∀ c ∈ name, P c) :
    ∀ name ∈ addWord word families, quotable false name = true ∧ ∀ c ∈ name, P c := by
  intro name hname
  rw [addWord] at hname
  split at hname
  · next family hlast =>
    have hmem : family ∈ families := List.mem_of_getLast? hlast
    rcases List.mem_append.1 hname with h | h
    · exact hf name (List.dropLast_subset _ h)
    · obtain rfl := List.mem_singleton.1 h
      obtain ⟨hq, hp⟩ := hf family hmem
      -- The word is appended with a space between, which has no part in escapes.
      refine ⟨quotable_append hq (by simpa [quotable] using hw.1), ?_⟩
      intro c hc
      rcases List.mem_append.1 hc with hc | hc
      · exact hp c hc
      · rcases List.mem_cons.1 hc with rfl | hc
        · exact hspace
        · exact hw.2 c hc
  · obtain rfl := List.mem_singleton.1 hname
    exact hw

/-- A size is read once, at the start of the font, and families follow it. -/
theorem ReadUpTo.addNumber {P : Char → Prop} {r : FontReading} (hr : ReadUpTo P .fontStyle r)
    (text : List Char) : ReadUpTo P .families (r.add (unplaced (.number, text))) := by
  obtain ⟨hsize, hrelative⟩ := hr.unsized rfl
  cases hsign : (splitSign text).1 with
  | none =>
    have hadd : r.add (unplaced (.number, text))
        = { r with font := { r.font with size := some (.real (doubleOf text)) } } := by
      simp [FontReading.add, unplaced, hsign]
    rw [hadd]
    refine ⟨Or.inr (Or.inl rfl), ?_, hr.relativeSize, Or.inr hrelative, by simp, hr.families⟩
    intro n hn
    obtain rfl := Option.some.inj hn
    exact ⟨_, rfl, isNegative_doubleOf hsign⟩
  | some sign =>
    have hadd : r.add (unplaced (.number, text))
        = { r with font := { r.font with relativeSize := some (.real (doubleOf text)) } } := by
      simp [FontReading.add, unplaced, hsign]
    rw [hadd]
    refine ⟨Or.inr (Or.inl rfl), hr.size, ?_, Or.inl hsize, by simp, hr.families⟩
    intro n hn
    obtain rfl := Option.some.inj hn
    exact ⟨_, rfl⟩

/-- Among the families only the families change. -/
theorem ReadUpTo.withFamilies {P : Char → Prop} {place next : Place} {r : FontReading}
    (hr : ReadUpTo P place r)
    (hnext : next = .families ∨ next = .family ∨ next = .afterWord ∨ next = .afterQuoted)
    {families : List (List Char)} (inFamily : Bool)
    (hf : ∀ name ∈ families, quotable false name = true ∧ ∀ c ∈ name, P c) :
    ReadUpTo P next ⟨r.font, families, inFamily⟩ := by
  refine ⟨Or.inr hnext, hr.size, hr.relativeSize, hr.oneSize, ?_, hf⟩
  rintro rfl
  rcases hnext with h | h | h | h <;> contradiction

/-- A new family after others. -/
theorem mem_concat {P : Char → Prop} {name : List Char}
    (hn : quotable false name = true ∧ ∀ c ∈ name, P c) {families : List (List Char)}
    (hf : ∀ name ∈ families, quotable false name = true ∧ ∀ c ∈ name, P c) :
    ∀ n ∈ families ++ [name], quotable false n = true ∧ ∀ c ∈ n, P c :=
  List.forall_mem_append.2 ⟨hf, List.forall_mem_singleton.2 hn⟩

/-- **One token takes what has been read of a font to the next place.** -/
theorem ReadUpTo.step {P : Char → Prop} (hspace : P ' ') {place : Place} {r : FontReading}
    (hr : ReadUpTo P place r) {s text rest : List Char} {kind : TokenKind}
    (ht : nextToken? place.admits s = some (kind, text, rest)) (hP : ∀ c ∈ text, P c) :
    ReadUpTo P (place.next kind) (r.add (unplaced (kind, text))) := by
  have hmem := nextToken?_mem ht
  have hafter : kind ∈ [TokenKind.word, .quoted, .comma] →
      place.next kind = .families ∨ place.next kind = .family
        ∨ place.next kind = .afterWord ∨ place.next kind = .afterQuoted := by
    intro hk
    simp only [List.mem_cons, List.not_mem_nil, or_false] at hk
    rcases hr.inFont with rfl | rfl | rfl | rfl | rfl <;> rcases hk with rfl | rfl | rfl <;>
      simp [Place.next]
  have hstyle : kind ∈ [TokenKind.bold, .italic, .plain, .number] → place = .fontStyle := by
    intro hk
    rcases hr.inFont with rfl | rfl | rfl | rfl | rfl
    · rfl
    all_goals
      simp only [Place.admits, List.mem_cons, List.not_mem_nil, or_false] at hk hmem
      rcases hmem with rfl | rfl <;> simp at hk
  cases kind with
  | bold | italic | plain =>
    obtain rfl := hstyle (by simp)
    exact ⟨Or.inl rfl, hr.size, hr.relativeSize, hr.oneSize, hr.unsized, hr.families⟩
  | number =>
    obtain rfl := hstyle (by simp)
    exact hr.addNumber text
  | word =>
    have hword : quotable false text = true ∧ ∀ c ∈ text, P c := ⟨quotable_of_word ht, hP⟩
    simp only [FontReading.add, unplaced]
    -- The word continues the last family or starts one.
    split
    · exact hr.withFamilies (hafter (by simp)) r.inFamily (mem_addWord hspace hword hr.families)
    · exact hr.withFamilies (hafter (by simp)) true (mem_concat hword hr.families)
  | quoted =>
    have hname : quotable false (unquoteFamily text) = true ∧ ∀ c ∈ unquoteFamily text, P c :=
      ⟨quotable_of_quoted ht, fun c hc => hP c (mem_unquoteFamily hc)⟩
    exact hr.withFamilies (hafter (by simp)) false (mem_concat hname hr.families)
  | comma => exact hr.withFamilies (hafter (by simp)) false hr.families
  | integer | hex | digits | rgba | rgb | opening | closing =>
    -- No place of a font admits these.
    rcases hr.inFont with rfl | rfl | rfl | rfl | rfl <;> simp [Place.admits] at hmem

/-- The tokens of a font, one after the other. -/
theorem ReadUpTo.run {P : Char → Prop} (hspace : P ' ') {place : Place} {s : List Char}
    {ls : List Lexeme} (h : Lexes place s ls) (hP : ∀ c ∈ s, P c) {r : FontReading}
    (hr : ReadUpTo P place r) :
    ∃ last, ReadUpTo P last ((ls.map unplaced).foldl FontReading.add r) := by
  induction h generalizing r with
  | @done place gap _ _ => exact ⟨place, hr⟩
  | @token place gap s text rest kind ls _ _ ht _ ih =>
    obtain ⟨happ, -⟩ := nextToken?_append ht
    have htext : ∀ c ∈ text, P c := by
      intro c hc
      refine hP c (List.mem_append_right _ ?_)
      rw [happ]
      exact List.mem_append_left _ hc
    have hrest : ∀ c ∈ rest, P c := by
      intro c hc
      refine hP c (List.mem_append_right _ ?_)
      rw [happ]
      exact List.mem_append_right _ hc
    rw [List.map_cons, List.foldl_cons]
    exact ih hrest (hr.step hspace ht htext)

/-- **Every font that is read from a text is spelled**, and its families are made of characters of
the text and of spaces. -/
theorem spelled_of_font {s : List Char} {f : Font} (h : Literal.font s = .ok f) {P : Char → Prop}
    (hspace : P ' ') (hP : ∀ c ∈ s, P c) :
    f.Spelled ∧ ∀ name ∈ f.families, ∀ c ∈ name.toList, P c := by
  obtain ⟨ls, hls, rfl⟩ := font_eq_ok_iff.1 h
  obtain ⟨last, hr⟩ := ReadUpTo.run hspace hls hP (ReadUpTo.start P)
  rw [fontOf]
  refine ⟨⟨hr.size, hr.relativeSize, hr.oneSize, ?_⟩, ?_⟩
  · intro name hname
    obtain ⟨n, hn, rfl⟩ := List.mem_map.1 hname
    rw [String.toList_ofList]
    exact (hr.families n hn).1
  · intro name hname
    obtain ⟨n, hn, rfl⟩ := List.mem_map.1 hname
    rw [String.toList_ofList]
    exact (hr.families n hn).2

/-! ## Fonts as value texts -/

/-- The text of a finite double is a part of a style. -/
theorem isPart_layoutText (l : Layout) (negative : Bool) (rank : Fin rankCount) :
    IsPart [';'] (l.text (.finite negative rank)) := by
  obtain ⟨n, htext, -, hwell, -, -⟩ := l.exists_text negative rank
  rw [← htext]
  refine isPart_of_visible (numeral_ne_nil hwell) fun c hc => ?_
  have hmark : IsVisible c ∧ c ≠ ';' := by
    rcases Numeral.mem_text hwell hc with h | h
    · refine ⟨isVisible_of_isBasicDigit h, ?_⟩
      rintro rfl
      contradiction
    · simp only [isNumeralMark, List.contains_eq_mem, List.mem_cons, List.not_mem_nil, or_false,
        decide_eq_true_eq] at h
      rcases h with rfl | rfl | rfl | rfl | rfl <;> exact ⟨⟨by decide, by decide⟩, by decide⟩
  exact ⟨hmark.1, by simpa using hmark.2⟩

theorem isPart_sizeText (x : Double) : IsPart [';'] (sizeLayout.text x) := by
  cases hx : x.isFinite with
  | false => rcases sizeText_of_not_finite hx with h | h | h <;> rw [h] <;> decide
  | true =>
    cases x with
    | finite negative rank => exact isPart_layoutText sizeLayout negative rank
    | infinite negative => contradiction
    | nan => contradiction

theorem isPart_doubleText (x : Double) : IsPart [';'] (doubleText x) := by
  cases x with
  | finite negative rank => exact isPart_layoutText doubleLayout negative rank
  | infinite negative => cases negative <;> decide
  | nan => decide

theorem isPart_word {w : List Char} (h : isWord w = true) : IsPart [';'] w := by
  refine isPart_of_visible (isWord_ne_nil h) fun c hc => ?_
  have hrest := isWordRest_of_isWord h c hc
  refine ⟨isVisible_of_isWordRest hrest, ?_⟩
  rw [List.mem_singleton]
  rintro rfl
  contradiction

theorem isPart_familyText {name : List Char} (h : ∀ c ∈ name, c ≠ ';') :
    IsPart [';'] (familyText name) := by
  rw [familyText]
  split
  · next hb =>
    rw [← @join_pieces [' '] (by simp) name]
    exact isPart_join (by simp) (pieces_ne_nil _ _)
      fun w hw => isPart_word (isWord_of_isBareFamily hb hw)
  -- A text between quotation marks is trimmed, whatever the name is.
  · refine ⟨trim_eq_self_iff.2 ⟨?_, ?_⟩, by simp [quotedFamily_eq], ?_⟩
    · rw [quotedFamily_eq]
      simp
      decide
    · rw [quotedFamily_eq, ← List.cons_append, List.getLast?_concat]
      simp
      decide
    · intro c hc
      -- Quoting brings in marks and backslashes, and neither of them separates statements.
      have hmem : c = '"' ∨ c = '\\' ∨ c ∈ name := by
        rw [quotedFamily_eq, escapeQuotes] at hc
        simp only [List.mem_cons, List.mem_append, List.mem_flatMap, List.not_mem_nil,
          or_false] at hc
        rcases hc with hc | ⟨d, hd, hc⟩ | hc
        · exact Or.inl hc
        · split at hc
          · simp only [List.mem_cons, List.not_mem_nil, or_false] at hc
            rcases hc with hc | hc
            · exact Or.inr (Or.inl hc)
            · exact Or.inl hc
          · obtain rfl := List.mem_singleton.1 hc
            exact Or.inr (Or.inr hd)
        · exact Or.inl hc
      rw [List.mem_singleton]
      rcases hmem with rfl | rfl | hmem
      · decide
      · decide
      · exact h c hmem

/-- Sizes that are doubles have texts. -/
theorem Font.exists_sizePart {f : Font} (hs : ∀ n ∈ f.size, ∃ x, n = .real x)
    (hr : ∀ n ∈ f.relativeSize, ∃ x, n = .real x) :
    ∃ size, f.sizePart = .ok size ∧ ∀ p ∈ size, IsPart [';'] p := by
  rw [Font.sizePart]
  cases hsize : f.size with
  | some n =>
    obtain ⟨x, rfl⟩ := hs n hsize
    exact ⟨[sizeLayout.text x], rfl, by simpa using isPart_sizeText x⟩
  | none =>
    cases hrelative : f.relativeSize with
    | none => exact ⟨[], rfl, by simp⟩
    | some n =>
      obtain ⟨x, rfl⟩ := hr n hrelative
      have hx := isPart_sizeText x
      refine ⟨[if (sizeLayout.text x).head? = some '-' then sizeLayout.text x
        else '+' :: sizeLayout.text x], rfl, ?_⟩
      intro p hp
      obtain rfl := List.mem_singleton.1 hp
      -- The sign in front is no blank, so the text stays trimmed.
      split
      · exact hx
      · have hplus : IsPart [';'] ['+'] := by decide
        simpa using hplus.append hx (List.forall_mem_nil _)

/-- **A spelled font is written as a text that a statement can hold.** -/
theorem Font.Spelled.exists_format {f : Font} (hf : f.Spelled)
    (hfree : ∀ name ∈ f.families, ∀ c ∈ name.toList, c ≠ ';') :
    ∃ text, f.format = .ok text ∧ IsPart [';'] text := by
  obtain ⟨size, hsize, hparts⟩ := Font.exists_sizePart
    (fun n hn => (hf.size n hn).imp fun x hx => hx.1) hf.relativeSize
  refine ⟨_, Font.format_eq hsize, ?_⟩
  rw [partsText]
  split
  · decide
  · next hne =>
    refine isPart_join (by simp) (by simpa using hne) fun p hp => ?_
    rw [List.mem_append, List.mem_append] at hp
    rcases hp with (hp | hp) | hp
    · exact isPart_word (isWord_of_style (styles_subset f p hp))
    · exact hparts p hp
    · rw [Font.familyPart] at hp
      split at hp
      · contradiction
      · next hnames =>
        obtain rfl := List.mem_singleton.1 hp
        refine isPart_join (by simp) (by simpa using hnames) fun t ht => ?_
        obtain ⟨name, hname, rfl⟩ := List.mem_map.1 ht
        exact isPart_familyText (hfree name hname)

/-! ## Fonts that are not read back -/

/-- After the style words and the size only families and commas follow. -/
theorem kinds_of_lexes {place : Place} {s : List Char} {ls : List Lexeme} (h : Lexes place s ls)
    (hp : place = .families ∨ place = .family ∨ place = .afterWord ∨ place = .afterQuoted) :
    ∀ l ∈ ls, l.1 = .word ∨ l.1 = .quoted ∨ l.1 = .comma := by
  induction h with
  | done => simp
  | @token place gap s text rest kind ls _ _ ht _ ih =>
    have hmem := nextToken?_mem ht
    have hkind : kind = .word ∨ kind = .quoted ∨ kind = .comma := by
      rcases hp with rfl | rfl | rfl | rfl <;>
        simp only [Place.admits, List.mem_cons, List.not_mem_nil, or_false] at hmem
      · exact hmem.elim (fun h => Or.inr (Or.inl h)) Or.inl
      · exact hmem.elim (fun h => Or.inr (Or.inl h)) Or.inl
      · exact hmem.imp_right Or.inr
      · exact Or.inr (Or.inr hmem)
    -- None of these places leads back to the style words or to a size.
    have hnext : place.next kind = .families ∨ place.next kind = .family
        ∨ place.next kind = .afterWord ∨ place.next kind = .afterQuoted := by
      rcases hp with rfl | rfl | rfl | rfl <;> rcases hkind with rfl | rfl | rfl <;>
        simp [Place.next]
    intro l hl
    rcases List.mem_cons.1 hl with rfl | hl
    · exact hkind
    · exact ih hnext l hl

/-- Families and commas leave the style and the sizes alone. -/
theorem foldl_font_of_kinds {ls : List Lexeme}
    (h : ∀ l ∈ ls, l.1 = .word ∨ l.1 = .quoted ∨ l.1 = .comma) (r : FontReading) :
    ((ls.map unplaced).foldl FontReading.add r).font = r.font := by
  induction ls generalizing r with
  | nil => rfl
  | cons l ls ih =>
    have hadd : (r.add (unplaced l)).font = r.font := by
      obtain ⟨kind, text⟩ := l
      rcases h (kind, text) List.mem_cons_self with hk | hk | hk
      · obtain rfl : kind = .word := hk
        simp only [FontReading.add, unplaced]
        split <;> rfl
      · obtain rfl : kind = .quoted := hk
        rfl
      · obtain rfl : kind = .comma := hk
        rfl
    rw [List.map_cons, List.foldl_cons, ih fun m hm => h m (List.mem_cons_of_mem l hm), hadd]

/-- The text of a size that is not finite: a word, or a word behind a sign. -/
theorem Font.Spelled.exists_word {f : Font} (hf : f.Spelled)
    (h : (f.size.all Number.isFinite && f.relativeSize.all Number.isFinite) = false) :
    ∃ w, (w = "inf".toList ∨ w = "nan".toList)
      ∧ (f.sizePart = .ok [w] ∨ f.sizePart = .ok ['-' :: w] ∨ f.sizePart = .ok ['+' :: w]) := by
  have hrelative : ∀ x : Double, f.size = none → f.relativeSize = some (.real x) →
      f.sizePart = .ok [if (sizeLayout.text x).head? = some '-' then sizeLayout.text x
        else '+' :: sizeLayout.text x] := by
    intro x hs hr
    rw [Font.sizePart, hs, hr]
    rfl
  cases hs : f.size with
  | some n =>
    obtain ⟨x, rfl, -⟩ := hf.size n hs
    have hnone : f.relativeSize = none := hf.oneSize.resolve_left (by simp [hs])
    have hx : x.isFinite = false := by simpa [hs, hnone, Number.isFinite] using h
    have hpart : f.sizePart = .ok [sizeLayout.text x] := by
      rw [Font.sizePart, hs]
      rfl
    -- Spelled sizes are not negative, but nothing here depends on it.
    rcases sizeText_of_not_finite hx with ht | ht | ht
    · rw [ht] at hpart
      exact ⟨_, Or.inl rfl, Or.inl hpart⟩
    · rw [ht] at hpart
      exact ⟨_, Or.inl rfl, Or.inr (Or.inl hpart)⟩
    · rw [ht] at hpart
      exact ⟨_, Or.inr rfl, Or.inl hpart⟩
  | none =>
    cases hr : f.relativeSize with
    | none => simp [hs, hr] at h
    | some n =>
      obtain ⟨x, rfl⟩ := hf.relativeSize n hr
      have hx : x.isFinite = false := by simpa [hs, hr, Number.isFinite] using h
      have hpart := hrelative x hs hr
      rcases sizeText_of_not_finite hx with ht | ht | ht
      · rw [ht] at hpart
        exact ⟨_, Or.inl rfl, Or.inr (Or.inr hpart)⟩
      · rw [ht] at hpart
        exact ⟨_, Or.inl rfl, Or.inr (Or.inl hpart)⟩
      · rw [ht] at hpart
        exact ⟨_, Or.inr rfl, Or.inr (Or.inr hpart)⟩

/-- No token of a font starts with a sign and a letter. -/
theorem nextToken?_signed {sign : Char} (hs : sign = '-' ∨ sign = '+') {w : List Char}
    (hw : isWord w = true) (rest : List Char) :
    nextToken? Place.fontStyle.admits (sign :: (w ++ rest)) = none := by
  have hsplit : splitSign (sign :: (w ++ rest)) = (some sign, w ++ rest) := by
    rcases hs with rfl | rfl <;> rfl
  have hword : TokenKind.word.lexeme? (sign :: (w ++ rest)) = none := by
    refine word_of_head fun c hc => ?_
    obtain rfl : sign = c := by simpa using hc
    rcases hs with rfl | rfl <;> rfl
  have hquoted : TokenKind.quoted.lexeme? (sign :: (w ++ rest)) = none := by
    rcases hs with rfl | rfl <;> rfl
  have hnumber : TokenKind.number.lexeme? (sign :: (w ++ rest)) = none := by
    have hhead : ∀ c ∈ (w ++ rest).head?, StartsNoNumeral c :=
      fun c hc => startsNoNumeral_of_isWordStart (isWord_head hw rest c hc)
    show (Numeral.scan isBasicDigit (sign :: (w ++ rest))).map _ = none
    rw [Numeral.scan, hsplit]
    simp only [scanDigits_of_head hhead, Option.map_none]
  rw [nextToken?, tried_fontStyle]
  simp [hnumber, hword, hquoted]

/-- **The size of a font is lost when it is not finite.** -/
theorem sizes_of_not_finite {f g : Font} (hf : f.Spelled)
    (h : (f.size.all Number.isFinite && f.relativeSize.all Number.isFinite) = false)
    {text : List Char} (ht : f.format = .ok text) (hg : Literal.font text = .ok g) :
    g.size = none ∧ g.relativeSize = none := by
  obtain ⟨w, hw, hpart⟩ := hf.exists_word h
  have hword : isWord w = true := by rcases hw with rfl | rfl <;> rfl
  have hkind : styleKind w = .word := by rcases hw with rfl | rfl <;> rfl
  obtain ⟨ls, hls, rfl⟩ := font_eq_ok_iff.1 hg
  have hends : EndsWord (f.familyPart.flatMap ([' '] ++ ·) ++ []) :=
    endsWord_spaced f.familyPart (by simp [EndsWord])
  -- Whatever stands in the place of the size, the style words are read before it.
  have hsplit : ∀ p : List Char, f.sizePart = .ok [p] →
      ∃ ms, ls = (f.styles.map fun w => (styleKind w, w)) ++ ms
        ∧ Lexes .fontStyle (p ++ (f.familyPart.flatMap ([' '] ++ ·) ++ [])) ms := by
    intro p hp
    obtain rfl : partsText (f.styles ++ [p] ++ f.familyPart) = text := by
      simpa [Font.format_eq hp] using ht
    rw [partsText, if_neg (by simp), List.append_assoc] at hls
    obtain ⟨ms, rfl, hms⟩ := (lexes_parts_iff (styles_subset f)).1 hls
    rw [List.singleton_append, join_cons] at hms
    exact ⟨ms, rfl, by rwa [List.append_nil]⟩
  rcases hpart with hpart | hpart | hpart
  · obtain ⟨ms, rfl, hms⟩ := hsplit w hpart
    have hstop : ∀ c ∈ (w ++ (f.familyPart.flatMap ([' '] ++ ·) ++ [])).head?, isGap c = false :=
      fun c hc => isGap_of_isWordStart (isWord_head hword _ c hc)
    have htoken := nextToken?_fontStyle_word hword hends
    rw [hkind] at htoken
    obtain ⟨ns, rfl, hns⟩ := (lexes_iff_of_token hstop htoken).1 hms
    -- The word is a family, and nothing after a family sets a size.
    have hkinds : ∀ l ∈ ((TokenKind.word, w) :: ns : List Lexeme),
        l.1 = .word ∨ l.1 = .quoted ∨ l.1 = .comma := by
      intro l hl
      rcases List.mem_cons.1 hl with rfl | hl
      · exact Or.inl rfl
      · exact kinds_of_lexes hns (Or.inr (Or.inr (Or.inl rfl))) l hl
    rw [fontOf, List.map_append, List.foldl_append, foldl_styles]
    simp only [foldl_font_of_kinds hkinds, and_self]
  · obtain ⟨ms, rfl, hms⟩ := hsplit _ hpart
    exact absurd hms (not_lexes_of_none (List.cons_ne_nil _ _) (by simp [isGap])
      (nextToken?_signed (Or.inl rfl) hword _))
  · obtain ⟨ms, rfl, hms⟩ := hsplit _ hpart
    exact absurd hms (not_lexes_of_none (List.cons_ne_nil _ _) (by simp [isGap])
      (nextToken?_signed (Or.inr rfl) hword _))

/-! ## Families taken for style words -/

/-- A list of words that is no style word alone is a bare family with these words. -/
theorem isBareFamily_join {ws : List (List Char)} (hne : ws ≠ [])
    (hws : ∀ w ∈ ws, isWord w = true) (hstyle : ∀ w ∈ ws.head?, w ∉ styleWords) :
    isBareFamily (join [' '] ws) = true ∧ pieces [' '] (join [' '] ws) = ws := by
  have hpieces : pieces [' '] (join [' '] ws) = ws := by
    refine pieces_join hne fun w hw hspace => ?_
    have := isWordRest_of_isWord (hws w hw) ' ' hspace
    contradiction
  refine ⟨?_, hpieces⟩
  rw [isBareFamily, hpieces, Bool.and_eq_true, List.all_eq_true]
  refine ⟨hws, ?_⟩
  rw [Bool.not_eq_true', List.contains_eq_mem, decide_eq_false_iff_not]
  intro hmem
  -- A style word has no space in it, so it would be the only word.
  have hsingle : pieces [' '] (join [' '] ws) = [join [' '] ws] := by
    refine pieces_of_not_mem fun hspace => ?_
    have := isWordRest_of_isWord (isWord_of_style hmem) ' ' hspace
    contradiction
  rw [hpieces] at hsingle
  exact hstyle (join [' '] ws) (by rw [hsingle]; rfl) hmem

theorem quotable_join {ws : List (List Char)} (hws : ∀ w ∈ ws, isWord w = true) :
    quotable false (join [' '] ws) = true := by
  refine quotable_of_words fun c hc => ?_
  rcases mem_join hc with hspace | ⟨w, hw, hcw⟩
  · exact Or.inr (List.mem_singleton.1 hspace)
  · exact Or.inl (isWordRest_of_isWord (hws w hw) c hcw)

/-- Style words change the style of a font and nothing else. -/
theorem foldl_styleWords {ss : List (List Char)} (hss : ∀ w ∈ ss, w ∈ styleWords) (font : Font) :
    ∃ font', ((ss.map fun w => (styleKind w, w)).map unplaced).foldl FontReading.add
      ⟨font, [], false⟩ = ⟨font', [], false⟩ := by
  induction ss generalizing font with
  | nil => exact ⟨font, rfl⟩
  | cons w ss ih =>
    have hw := hss w List.mem_cons_self
    obtain ⟨font', hadd⟩ : ∃ font', FontReading.add ⟨font, [], false⟩ (unplaced (styleKind w, w))
        = ⟨font', [], false⟩ := by
      rw [styleWords, List.mem_cons, List.mem_cons, List.mem_singleton] at hw
      rcases hw with rfl | rfl | rfl <;> exact ⟨_, rfl⟩
    rw [List.map_cons, List.map_cons, List.foldl_cons, hadd]
    exact ih (fun v hv => hss v (List.mem_cons_of_mem w hv)) font'

/-- The style words in front of some words, and the words from the first other one on. -/
theorem exists_styleWords {ws : List (List Char)}
    (hfirst : styleWords.contains (ws.headD []) = true) :
    ∃ ss vs, ws = ss ++ vs ∧ ss ≠ [] ∧ (∀ w ∈ ss, w ∈ styleWords)
      ∧ ∀ w ∈ vs.head?, w ∉ styleWords := by
  refine ⟨ws.takeWhile styleWords.contains, ws.dropWhile styleWords.contains,
    List.takeWhile_append_dropWhile.symm, ?_, ?_, ?_⟩
  · cases ws with
    | nil => contradiction
    | cons w ws =>
      have hw : styleWords.contains w = true := hfirst
      rw [List.takeWhile_cons, if_pos hw]
      exact List.cons_ne_nil _ _
  · intro w hw
    simpa using List.mem_takeWhile_imp hw
  · intro w hw
    have hhead := List.head?_dropWhile_not styleWords.contains ws
    rw [Option.mem_def.1 hw] at hhead
    simpa using hhead

/-- The families that follow style words, when the first of them is bare: the words after the style
words are what is left of it. -/
theorem families_of_styleWords {ss vs : List (List Char)} (hsne : ss ≠ [])
    (hss : ∀ w ∈ ss, w ∈ styleWords) (hws : ∀ w ∈ vs, isWord w = true)
    (hvs : ∀ w ∈ vs.head?, w ∉ styleWords) {names : List (List Char)}
    (hq : ∀ n ∈ names, quotable false n = true) {ls : List Lexeme}
    (h : Lexes .fontStyle (join [' '] (ss ++ vs)
      ++ names.flatMap fun n => [',', ' '] ++ familyText n) ls) (font : Font) :
    ∃ font' b, (ls.map unplaced).foldl FontReading.add ⟨font, [], false⟩
      = ⟨font', if vs = [] then [] else join [' '] vs :: names, b⟩ := by
  obtain ⟨font', hfont⟩ := foldl_styleWords hss font
  cases vs with
  | nil =>
    rw [List.append_nil] at h
    obtain ⟨ms, rfl, hms⟩ := (lexes_styles_iff hss (endsWord_families names)).1 h
    cases names with
    | nil =>
      obtain rfl : [] = ms := (Lexes.nil rfl).unique hms
      exact ⟨font', false, by rw [List.append_nil, hfont]; rfl⟩
    | cons name names =>
      -- A comma cannot follow style words.
      have hnone : ∀ rest, nextToken? Place.fontStyle.admits (',' :: rest) = none :=
        nextToken?_fontStyle_none ⟨rfl, by decide, by decide, by decide⟩ rfl (by decide)
      exact absurd hms (not_lexes_of_none (List.cons_ne_nil _ _) (by simp [isGap]) (hnone _))
  | cons v vs =>
    have hjoin : join [' '] (ss ++ v :: vs)
        = join [' '] ss ++ (v :: vs).flatMap ([' '] ++ ·) := by
      cases ss with
      | nil => contradiction
      | cons s ss =>
        rw [List.cons_append, join_cons, join_cons, List.flatMap_append, List.append_assoc]
    rw [hjoin, List.append_assoc] at h
    obtain ⟨ms, rfl, hms⟩ :=
      (lexes_styles_iff hss (endsWord_spaced (v :: vs) (endsWord_families names))).1 h
    obtain ⟨hbare, hpieces⟩ := isBareFamily_join (List.cons_ne_nil v vs) hws hvs
    have hstart : startsWithStyle (join [' '] (v :: vs)) = false := by
      rw [startsWithStyle, hpieces, Bool.and_eq_false_iff]
      right
      rw [List.contains_eq_mem, decide_eq_false_iff_not]
      exact hvs v rfl
    have hall : ∀ n ∈ join [' '] (v :: vs) :: names, quotable false n = true :=
      List.forall_mem_cons.2 ⟨quotable_join hws, hq⟩
    -- What is left of the first family is a family of its own, in front of the others.
    have hlexes := lexes_families (Or.inr (Or.inr rfl)) hall fun _ => hstart
    rw [List.map_cons, join_cons, List.flatMap_map, familyText, if_pos hbare] at hlexes
    obtain rfl := hlexes.unique (lexes_spaced_iff.1 hms)
    obtain ⟨b, hfamilies⟩ := foldl_families (join [' '] (v :: vs) :: names) font'
    exact ⟨font', b, by rw [List.map_append, List.foldl_append, hfont, hfamilies]; rfl⟩

/-- **Style words in front of the first family are taken away from it.** -/
theorem families_ne_of_startsWithStyle {f g : Font} (hf : f.Spelled) (hs : f.size = none)
    (hr : f.relativeSize = none) {name : String} {names : List String}
    (hfamilies : f.families = name :: names) (hstyle : startsWithStyle name.toList = true)
    {text : List Char} (ht : f.format = .ok text) (hg : Literal.font text = .ok g) :
    g.families ≠ f.families := by
  rw [startsWithStyle, Bool.and_eq_true] at hstyle
  obtain ⟨hbare, hfirst⟩ := hstyle
  obtain ⟨ss, vs, hsplit, hsne, hss, hvs⟩ := exists_styleWords hfirst
  have hname : join [' '] (ss ++ vs) = name.toList := by
    rw [← hsplit, join_pieces (by simp)]
  have hws : ∀ w ∈ vs, isWord w = true :=
    fun w hw => isWord_of_isBareFamily hbare (by rw [hsplit]; exact List.mem_append_right _ hw)
  have hq : ∀ n ∈ names.map String.toList, quotable false n = true := by
    intro n hn
    obtain ⟨m, hm, rfl⟩ := List.mem_map.1 hn
    exact hf.families m (by rw [hfamilies]; exact List.mem_cons_of_mem name hm)
  have hpart : f.sizePart = .ok [] := by rw [Font.sizePart, hs, hr]
  have hfamilyPart : f.familyPart = [join [' '] (ss ++ vs)
      ++ (names.map String.toList).flatMap fun n => [',', ' '] ++ familyText n] := by
    rw [Font.familyPart, hfamilies, List.isEmpty_cons, if_neg (by simp), List.map_cons, join_cons,
      familyText, if_pos hbare, hname, List.flatMap_map, List.flatMap_map]
  obtain rfl : partsText (f.styles ++ [] ++ f.familyPart) = text := by
    simpa [Font.format_eq hpart] using ht
  obtain ⟨ls, hls, rfl⟩ := font_eq_ok_iff.1 hg
  rw [partsText, hfamilyPart, if_neg (by simp), List.append_nil] at hls
  obtain ⟨ms, rfl, hms⟩ := (lexes_parts_iff (styles_subset f)).1 hls
  obtain ⟨font', b, hfold⟩ := families_of_styleWords hsne hss hws hvs hq hms
    ⟨[], none, none, f.bold, f.italic⟩
  rw [fontOf, List.map_append, List.foldl_append, foldl_styles, hfold, hfamilies]
  intro heq
  simp only at heq
  -- Without words left the font has no families at all.
  split at heq
  · contradiction
  · next hne =>
    -- Equal families would have equal words, and the style words are missing in one of them.
    have hhead : join [' '] vs = name.toList := by
      rw [List.map_cons, List.cons.injEq] at heq
      rw [← heq.1, String.toList_ofList]
    have hwords : vs = ss ++ vs := by
      calc vs = pieces [' '] (join [' '] vs) := (isBareFamily_join hne hws hvs).2.symm
        _ = pieces [' '] name.toList := by rw [hhead]
        _ = ss ++ vs := hsplit
    exact hsne (List.append_left_eq_self.1 hwords.symm)

end Styling
