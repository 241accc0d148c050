import Styling.Proofs.Sequences
import Styling.Proofs.TokenRows

/-!
# The grammar of colors

A color is written as three or four channels: in hexadecimal, with one or two digits for each
channel, or in decimal, in brackets after one of two words (`WritesChannels`). Without a fourth
channel it is opaque (`HasChannels`).

A color is one token, or a word and then a row of tokens, so its lexemes come from those of rows
(`lexes_color_iff`). Its channels are those that the text writes (`color_eq_ok_iff`), and texts that
write no channels of a color are refused (`readColor_grammar`).
-/

set_option autoImplicit false

namespace Styling.Literal

open Styling.Decimal Styling.Text

/-! ## Channels and their texts -/

/-- The numbers are the channels of a color: red, green and blue, and then alpha, which can be
missing if the color is opaque. None of them is above 255. -/
def HasChannels (c : Color) (channels : List Nat) : Prop :=
  channels = [c.red.val, c.green.val, c.blue.val] ∧ c.alpha.val = 255 ∨
    channels = [c.red.val, c.green.val, c.blue.val, c.alpha.val]

/-- The number that two hexadecimal digits write. -/
def hexNumber (a b : Char) : Nat := 16 * hexValue a + hexValue b

/-- Texts in brackets, with commas between them. -/
def inBrackets (texts : List (List Char)) : List (List Char) :=
  ['('] :: commaSeparated texts ++ [[')']]

/-- A number in decimal, with no more digits than are read. -/
def IsDecimal (t : List Char) : Prop := IsDigits t ∧ t.length ≤ digitLimit

/-- A text writes some channels. There can be gaps between its parts, but not among the digits of
one number, and none after the mark of a hexadecimal color. -/
inductive WritesChannels (s : List Char) : List Nat → Prop where
  /-- A hexadecimal digit for each channel, which stands for two such digits. -/
  | single {digits : List Char} (h : ∀ d ∈ digits, isHexDigit d = true)
      (hs : Gapped ['#' :: digits] s) : WritesChannels s (digits.map fun d => hexNumber d d)
  /-- Two hexadecimal digits for each channel. -/
  | double {pairs : List (Char × Char)}
      (h : ∀ p ∈ pairs, isHexDigit p.1 = true ∧ isHexDigit p.2 = true)
      (hs : Gapped ['#' :: pairs.flatMap fun p => [p.1, p.2]] s) :
      WritesChannels s (pairs.map fun p => hexNumber p.1 p.2)
  | rgb {texts : List (List Char)} (hlen : texts.length = 3) (h : ∀ t ∈ texts, IsDecimal t)
      (hs : Gapped ("rgb".toList :: inBrackets texts) s) : WritesChannels s (texts.map digitsValue)
  | rgba {texts : List (List Char)} (hlen : texts.length = 4) (h : ∀ t ∈ texts, IsDecimal t)
      (hs : Gapped ("rgba".toList :: inBrackets texts) s) : WritesChannels s (texts.map digitsValue)

/-! ## Lexemes -/

/-- The first token of a color. -/
inductive ColorStart : TokenKind → List Char → Prop where
  | hex {digits : List Char} (hne : digits ≠ []) (h : ∀ d ∈ digits, isHexDigit d = true) :
      ColorStart .hex ('#' :: digits)
  | rgb : ColorStart .rgb "rgb".toList
  | rgba : ColorStart .rgba "rgba".toList

/-- The kinds of the tokens after the first token of a color. -/
def rowAfter : TokenKind → List TokenKind
  | .rgb => channelKinds 3
  | .rgba => channelKinds 4
  | _ => []

variable {k : TokenKind} {text rest s : List Char} {ls : List Lexeme}

theorem isRowOfKinds_rowAfter (h : ColorStart k text) : IsRowOfKinds (rowAfter k) := by
  cases h <;> decide

theorem next_color (h : ColorStart k text) : Place.color.next k = .sequence (rowAfter k) := by
  cases h <;> rfl

theorem tried_color : tried Place.color.admits = [.hex, .rgba, .rgb] := by decide

theorem hex_lexeme?_eq_some_iff {l r : List Char} :
    TokenKind.hex.lexeme? s = some (l, r) ↔
      (∃ digits, (digits ≠ [] ∧ ∀ d ∈ digits, isHexDigit d = true) ∧ l = '#' :: digits) ∧
        s = l ++ r ∧ ∀ c ∈ r.head?, isHexDigit c = false := by
  constructor
  · intro h
    obtain ⟨hs, -⟩ := lexeme?_append h
    simp only [TokenKind.lexeme?] at h
    split at h
    · obtain ⟨⟨digits, rest⟩, hrun, he⟩ := Option.map_eq_some_iff.1 h
      obtain ⟨rfl, rfl⟩ := Prod.mk.inj he
      obtain ⟨hdigits, -, hr⟩ := run?_eq_some_iff.1 hrun
      exact ⟨⟨digits, hdigits, rfl⟩, hs, hr⟩
    · contradiction
  · rintro ⟨⟨digits, hdigits, rfl⟩, rfl, hr⟩
    simp only [TokenKind.lexeme?, List.cons_append, run?_eq_some_iff.2 ⟨hdigits, rfl, hr⟩,
      Option.map_some]

theorem colorStart_of_nextToken? (h : nextToken? Place.color.admits s = some (k, text, rest)) :
    ColorStart k text := by
  rw [nextToken?, tried_color] at h
  obtain ⟨kind, hkind, h⟩ := List.exists_of_findSome?_eq_some h
  obtain ⟨⟨l, r⟩, hl, he⟩ := Option.map_eq_some_iff.1 h
  simp only [Prod.mk.injEq] at he
  obtain ⟨rfl, rfl, rfl⟩ := he
  simp only [List.mem_cons, List.not_mem_nil, or_false] at hkind
  rcases hkind with rfl | rfl | rfl
  · obtain ⟨⟨digits, ⟨hne, hdigits⟩, rfl⟩, -⟩ := hex_lexeme?_eq_some_iff.1 hl
    exact .hex hne hdigits
  · rw [(fixed?_eq_some_iff.1 hl).1]
    exact .rgba
  · rw [(fixed?_eq_some_iff.1 hl).1]
    exact .rgb

/-- The first token of a color ends where no hexadecimal digit follows: such a digit would belong
to the digits, or make another word of the shorter one. -/
theorem ColorStart.nextToken? (h : ColorStart k text)
    (hr : ∀ c ∈ rest.head?, isHexDigit c = false) :
    nextToken? Place.color.admits (text ++ rest) = some (k, text, rest) := by
  rw [Literal.nextToken?, tried_color]
  cases h with
  | hex hne hd =>
    rw [List.findSome?_cons, hex_lexeme?_eq_some_iff.2 ⟨⟨_, ⟨hne, hd⟩, rfl⟩, rfl, hr⟩]
    rfl
  | rgba => rfl
  | rgb =>
    cases rest with
    | nil => rfl
    | cons c rest =>
      have hc : 'a' ≠ c := by
        rintro rfl
        exact absurd (hr 'a' rfl) (by decide)
      have hrgba : TokenKind.rgba.lexeme? ("rgb".toList ++ c :: rest) = none := by
        simp [TokenKind.lexeme?, fixed?, dropPrefix?, hc]
      rw [List.findSome?_cons, List.findSome?_cons, hrgba]
      rfl

theorem isHexDigit_of_isGap {c : Char} (h : isGap c = true) : isHexDigit c = false := by
  simp only [isGap, Bool.or_eq_true, decide_eq_true_eq] at h
  rcases h with (((rfl | rfl) | rfl) | rfl) | rfl <;> decide

/-- After the first token of a color come a gap, a bracket or nothing. -/
theorem ColorStart.head (h : ColorStart k text) (hrow : AreRow (rowAfter k) ls)
    (hs : Gapped (ls.map Prod.snd) rest) : ∀ c ∈ rest.head?, isHexDigit c = false := by
  have hopening : ∀ {kinds : List TokenKind}, AreRow (.opening :: kinds) ls →
      ∀ t ∈ (ls.map Prod.snd).head?, t ≠ [] ∧ ∀ c ∈ t.head?, isHexDigit c = false := by
    intro kinds hrow t ht
    cases hrow with
    | @cons _ l _ _ hl _ =>
      obtain ⟨kind, text⟩ := l
      obtain ⟨rfl, htext⟩ := hl
      obtain rfl := Option.some.inj ht
      refine ⟨htext.ne_nil, fun c hc => ?_⟩
      cases htext
      rw [← Option.some.inj hc]
      decide
  refine hs.head (fun c hc => isHexDigit_of_isGap hc) ?_
  cases h with
  | hex =>
    cases hrow
    exact fun t ht => nomatch ht
  | rgb => exact hopening hrow
  | rgba => exact hopening hrow

/-- **The lexemes of a color.** They are the first token of a color and the row that follows such a
token, and the text is made of them, whatever gaps there are. -/
theorem lexes_color_iff :
    Lexes .color s ls ↔
      ∃ k text row, (ColorStart k text ∧ AreRow (rowAfter k) row) ∧
        Gapped (text :: row.map Prod.snd) s ∧ ls = (k, text) :: row := by
  constructor
  · intro h
    have hs := h.gapped
    cases h with
    | done hend _ => cases hend
    | token _ _ ht hrest =>
      have hstart := colorStart_of_nextToken? ht
      rw [next_color hstart] at hrest
      have hrow := ((lexes_row_iff (isRowOfKinds_rowAfter hstart)).1 hrest).1
      exact ⟨_, _, _, ⟨hstart, hrow⟩, hs, rfl⟩
  · rintro ⟨k, text, row, ⟨hstart, hrow⟩, hs, rfl⟩
    cases hs with
    | part hgap hs =>
      have htoken := hstart.nextToken? (hstart.head hrow hs)
      refine .token hgap ?_ htoken ?_
      · intro c hc
        cases hstart with
        | hex | rgb | rgba =>
          rw [← Option.some.inj hc]
          decide
      · rw [next_color hstart]
        exact (lexes_row_iff (isRowOfKinds_rowAfter hstart)).2 ⟨hrow, hs⟩

/-! ## Channels in brackets -/

/-- The lexemes of channels in brackets. -/
def channelLexemes (texts : List (List Char)) : List Lexeme :=
  (.opening, ['(']) :: numberLexemes .digits texts ++ [(.closing, [')'])]

theorem map_channelLexemes (texts : List (List Char)) :
    (channelLexemes texts).map Prod.snd = inBrackets texts := by
  rw [channelLexemes, List.map_append, List.map_cons, map_numberLexemes]
  rfl

theorem areRow_channels_iff {n : Nat} :
    AreRow (channelKinds n) ls ↔
      ∃ texts : List (List Char), (texts.length = n ∧ ∀ t ∈ texts, IsDigits t) ∧
        ls = channelLexemes texts := by
  constructor
  · intro h
    cases h with
    | @cons _ l _ _ hl h =>
      obtain ⟨kind, text⟩ := l
      obtain ⟨rfl, htext⟩ := hl
      cases htext
      obtain ⟨first, m, last, rfl, hfirst, hm, hlast⟩ := exists_of_forall₂_append h
      obtain ⟨texts, hlen, htexts, rfl⟩ := exists_numberLexemes hfirst
      obtain ⟨kind, text⟩ := m
      obtain ⟨rfl, htext⟩ := hm
      cases htext
      cases hlast
      refine ⟨texts, ⟨hlen, fun t ht => ?_⟩, rfl⟩
      cases htexts t ht with
      | digits h => exact h
  · rintro ⟨texts, ⟨rfl, htexts⟩, rfl⟩
    have hrow := areRow_numberLexemes fun t ht => RowText.digits (htexts t ht)
    exact .cons ⟨rfl, .opening⟩ (List.rel_append hrow (.cons ⟨rfl, .closing⟩ .nil))

theorem textsOf_append (k : TokenKind) (ls ms : List Token) :
    textsOf k (ls ++ ms) = textsOf k ls ++ textsOf k ms := by
  rw [textsOf, List.filter_append, List.map_append]
  rfl

/-- A row has no texts of kinds that are not its own. -/
theorem textsOf_eq_nil {kinds : List TokenKind} (h : AreRow kinds ls) (hk : k ∉ kinds) :
    textsOf k (ls.map unplaced) = [] := by
  rw [textsOf, List.map_eq_nil_iff, List.filter_eq_nil_iff]
  intro t ht
  obtain ⟨l, hl, rfl⟩ := List.mem_map.1 ht
  obtain ⟨kind, hkind, rfl, -⟩ := exists_of_mem_right h hl
  rw [decide_eq_true_eq]
  rintro rfl
  exact hk hkind

/-- The color of a word and channels in brackets is the one with these channels. -/
theorem colorOf_channels {texts : List (List Char)} {n : Nat}
    (hk : k ∉ [TokenKind.hex, .digits]) (hn : .hex ∉ channelKinds n)
    (hrow : AreRow (channelKinds n) (channelLexemes texts)) :
    colorOf (((k, text) :: channelLexemes texts).map unplaced)
      = texts.mapM integerOf >>= decimalColor := by
  simp only [List.mem_cons, List.not_mem_nil, or_false, not_or] at hk
  have hcons : ∀ j, k ≠ j → textsOf j (((k, text) :: channelLexemes texts).map unplaced)
      = textsOf j ((channelLexemes texts).map unplaced) := by
    intro j hj
    simp [textsOf, unplaced, hj]
  have hdigits : textsOf .digits ((channelLexemes texts).map unplaced) = texts := by
    rw [channelLexemes, List.map_append, List.map_cons, ← List.singleton_append, textsOf_append,
      textsOf_append, textsOf_numberLexemes (by decide)]
    exact List.append_nil texts
  rw [colorOf, hcons .hex hk.1, textsOf_eq_nil hrow hn, hcons .digits hk.2, hdigits]

/-! ## Numbers as channels -/

theorem hexValue_lt (c : Char) : hexValue c < 16 := by
  have hle : ∀ d : Char, c ≤ d → c.toNat ≤ d.toNat := fun d h =>
    UInt32.le_iff_toNat_le.1 (Char.le_def.1 h)
  have h9 : '9'.toNat = 57 := rfl
  have hf : 'f'.toNat = 102 := rfl
  have hF : 'F'.toNat = 70 := rfl
  simp only [hexValue, isBasicDigit, Bool.and_eq_true, decide_eq_true_eq]
  split
  · next h =>
    have := hle '9' h.2
    omega
  split
  · next h =>
    have := hle 'f' h.2
    omega
  split
  · next h =>
    have := hle 'F' h.2
    omega
  · omega

theorem val_hexChannel (a b : Char) : (hexChannel a b).val = hexNumber a b := by
  have ha := hexValue_lt a
  have hb := hexValue_lt b
  exact Nat.mod_eq_of_lt (by omega)

theorem hexChannel_eq {a b : Char} {n : Fin 256} (h : hexNumber a b = n.val) :
    hexChannel a b = n :=
  Fin.ext ((val_hexChannel a b).trans h)

theorem hexColor_eq_ok_iff {digits : List Char} {c : Color} :
    hexColor digits = .ok c ↔
      HasChannels c (digits.map fun d => hexNumber d d) ∨
        ∃ pairs : List (Char × Char), pairs.flatMap (fun p => [p.1, p.2]) = digits ∧
          HasChannels c (pairs.map fun p => hexNumber p.1 p.2) := by
  constructor
  · intro h
    unfold hexColor at h
    split at h
    · obtain rfl := Except.ok.inj h
      exact .inl (.inl ⟨by simp only [List.map, val_hexChannel], rfl⟩)
    · obtain rfl := Except.ok.inj h
      exact .inl (.inr (by simp only [List.map, val_hexChannel]))
    · next r r' g g' b b' =>
      obtain rfl := Except.ok.inj h
      refine .inr ⟨[(r, r'), (g, g'), (b, b')], rfl, .inl ⟨?_, rfl⟩⟩
      simp only [List.map, val_hexChannel]
    · next r r' g g' b b' a a' =>
      obtain rfl := Except.ok.inj h
      refine .inr ⟨[(r, r'), (g, g'), (b, b'), (a, a')], rfl, .inr ?_⟩
      simp only [List.map, val_hexChannel]
    · contradiction
  · obtain ⟨red, green, blue, alpha⟩ := c
    have hopaque : alpha.val = 255 → alpha = 255 := fun ha => Fin.ext ha
    simp only [HasChannels, List.map_eq_cons_iff, List.map_eq_nil_iff]
    rintro ((⟨⟨r, _, rfl, hr, g, _, rfl, hg, b, _, rfl, hb, rfl⟩, ha⟩ |
        ⟨r, _, rfl, hr, g, _, rfl, hg, b, _, rfl, hb, a, _, rfl, ha, rfl⟩) | ⟨pairs, rfl, h⟩)
    · rw [hexColor, hexChannel_eq hr, hexChannel_eq hg, hexChannel_eq hb, hopaque ha]
    · rw [hexColor, hexChannel_eq hr, hexChannel_eq hg, hexChannel_eq hb, hexChannel_eq ha]
    · rcases h with ⟨⟨r, _, rfl, hr, g, _, rfl, hg, b, _, rfl, hb, rfl⟩, ha⟩ |
        ⟨r, _, rfl, hr, g, _, rfl, hg, b, _, rfl, hb, a, _, rfl, ha, rfl⟩
      · show Except.ok (Color.mk _ _ _ _) = _
        rw [hexChannel_eq hr, hexChannel_eq hg, hexChannel_eq hb, hopaque ha]
      · show Except.ok (Color.mk _ _ _ _) = _
        rw [hexChannel_eq hr, hexChannel_eq hg, hexChannel_eq hb, hexChannel_eq ha]

theorem ne_nil_of_hexColor {digits : List Char} {c : Color} (h : hexColor digits = .ok c) :
    digits ≠ [] := by
  rintro rfl
  contradiction

theorem check_eq_ok_iff {channel : Channel} {n : Int} {x : Fin 256} :
    channel.check n = .ok x ↔ n = x.val := by
  have hx := x.isLt
  rw [Channel.check]
  split
  · rw [Except.ok.injEq, Fin.ext_iff]
    show n.toNat = x.val ↔ n = x.val
    omega
  · exact ⟨(nomatch ·), fun h => by omega⟩

theorem ofChannels_eq_ok_iff {r g b a : Int} {c : Color} :
    Color.ofChannels r g b a = .ok c ↔
      r = c.red.val ∧ g = c.green.val ∧ b = c.blue.val ∧ a = c.alpha.val := by
  constructor
  · intro h
    obtain ⟨red, hr, h⟩ := exists_ok_of_bind h
    obtain ⟨green, hg, h⟩ := exists_ok_of_bind h
    obtain ⟨blue, hb, h⟩ := exists_ok_of_bind h
    obtain ⟨alpha, ha, h⟩ := exists_ok_of_bind h
    obtain rfl := Except.ok.inj h
    exact ⟨check_eq_ok_iff.1 hr, check_eq_ok_iff.1 hg, check_eq_ok_iff.1 hb, check_eq_ok_iff.1 ha⟩
  · rintro ⟨hr, hg, hb, ha⟩
    rw [Color.ofChannels, check_eq_ok_iff.2 hr, check_eq_ok_iff.2 hg, check_eq_ok_iff.2 hb,
      check_eq_ok_iff.2 ha]
    rfl

theorem decimalColor_eq_ok_iff {ns : List Nat} (hlen : ns.length = 3 ∨ ns.length = 4) {c : Color} :
    decimalColor (ns.map fun n : Nat => (n : Int)) = .ok c ↔ HasChannels c ns := by
  match ns, hlen with
  | [r, g, b], _ =>
    have hcolor : decimalColor [(r : Int), g, b] = .ok c ↔ Color.ofChannels r g b 255 = .ok c := by
      rw [decimalColor]
      cases Color.ofChannels r g b 255 <;> simp
    refine hcolor.trans ?_
    simp only [ofChannels_eq_ok_iff, HasChannels, List.cons.injEq, reduceCtorEq, and_true,
      and_false, or_false]
    omega
  | [r, g, b, a], _ =>
    have hcolor : decimalColor [(r : Int), g, b, a] = .ok c ↔ Color.ofChannels r g b a = .ok c := by
      rw [decimalColor]
      cases Color.ofChannels r g b a <;> simp
    refine hcolor.trans ?_
    simp only [ofChannels_eq_ok_iff, HasChannels, List.cons.injEq, reduceCtorEq, and_true,
      and_false, false_and, false_or]
    omega

/-- Digits have values if there are not too many of them. -/
theorem mapM_digits_eq_ok_iff {texts : List (List Char)} (htexts : ∀ t ∈ texts, IsDigits t)
    {ns : List Int} :
    texts.mapM integerOf = .ok ns ↔
      (∀ t ∈ texts, t.length ≤ digitLimit) ∧ texts.map (fun t => (digitsValue t : Int)) = ns := by
  rw [mapM_eq_ok_iff]
  induction texts generalizing ns with
  | nil => simp [eq_comm]
  | cons t texts ih =>
    obtain ⟨ht, htexts⟩ := List.forall_mem_cons.1 htexts
    have hvalue : ∀ n, integerOf t = .ok n ↔ t.length ≤ digitLimit ∧ (digitsValue t : Int) = n :=
      fun n => integerOf_eq_ok_iff (.inl rfl) ht
    simp only [List.forall₂_cons_left_iff, ih htexts, hvalue, List.forall_mem_cons, List.map_cons]
    constructor
    · rintro ⟨_, _, ⟨hlen, rfl⟩, ⟨hrest, rfl⟩, rfl⟩
      exact ⟨⟨hlen, hrest⟩, rfl⟩
    · rintro ⟨⟨hlen, hrest⟩, rfl⟩
      exact ⟨_, _, ⟨hlen, rfl⟩, ⟨hrest, rfl⟩, rfl⟩

theorem decimals_eq_ok_iff {texts : List (List Char)} (htexts : ∀ t ∈ texts, IsDigits t)
    (hlen : texts.length = 3 ∨ texts.length = 4) {c : Color} :
    texts.mapM integerOf >>= decimalColor = .ok c ↔
      (∀ t ∈ texts, t.length ≤ digitLimit) ∧ HasChannels c (texts.map digitsValue) := by
  have hlen' : (texts.map digitsValue).length = 3 ∨ (texts.map digitsValue).length = 4 := by
    rwa [List.length_map]
  rw [← decimalColor_eq_ok_iff hlen', List.map_map]
  constructor
  · intro h
    obtain ⟨ns, hns, hc⟩ := exists_ok_of_bind h
    obtain ⟨hlimit, rfl⟩ := (mapM_digits_eq_ok_iff htexts).1 hns
    exact ⟨hlimit, hc⟩
  · rintro ⟨hlimit, hc⟩
    rw [(mapM_digits_eq_ok_iff htexts).2 ⟨hlimit, rfl⟩]
    exact hc

/-! ## Colors -/

/-- A word and what stands in brackets after it write a color if these are its channels. -/
theorem word_eq_ok_iff {n : Nat} (hk : k = .rgb ∧ n = 3 ∨ k = .rgba ∧ n = 4) {c : Color} :
    (∃ row, AreRow (rowAfter k) row ∧ Gapped (text :: row.map Prod.snd) s ∧
        colorOf (((k, text) :: row).map unplaced) = .ok c) ↔
      ∃ texts : List (List Char), texts.length = n ∧ (∀ t ∈ texts, IsDecimal t) ∧
        Gapped (text :: inBrackets texts) s ∧ HasChannels c (texts.map digitsValue) := by
  have hafter : rowAfter k = channelKinds n := by
    rcases hk with ⟨rfl, rfl⟩ | ⟨rfl, rfl⟩ <;> rfl
  have hkinds : k ∉ [TokenKind.hex, .digits] ∧ .hex ∉ channelKinds n ∧ (n = 3 ∨ n = 4) := by
    rcases hk with ⟨rfl, rfl⟩ | ⟨rfl, rfl⟩ <;> decide
  obtain ⟨hkind, hhex, hn⟩ := hkinds
  rw [hafter]
  constructor
  · rintro ⟨row, hrow, hs, hc⟩
    obtain ⟨texts, ⟨rfl, htexts⟩, rfl⟩ := areRow_channels_iff.1 hrow
    rw [colorOf_channels hkind hhex hrow, decimals_eq_ok_iff htexts hn] at hc
    rw [map_channelLexemes] at hs
    exact ⟨texts, rfl, fun t ht => ⟨htexts t ht, hc.1 t ht⟩, hs, hc.2⟩
  · rintro ⟨texts, rfl, htexts, hs, hc⟩
    have hdigits : ∀ t ∈ texts, IsDigits t := fun t ht => (htexts t ht).1
    have hrow := areRow_channels_iff.2 ⟨texts, ⟨rfl, hdigits⟩, rfl⟩
    refine ⟨_, hrow, by rwa [map_channelLexemes], ?_⟩
    rw [colorOf_channels hkind hhex hrow, decimals_eq_ok_iff hdigits hn]
    exact ⟨fun t ht => (htexts t ht).2, hc⟩

/-- **Colors are those that their texts write.** -/
theorem color_eq_ok_iff {c : Color} :
    color s = .ok c ↔ ∃ channels, WritesChannels s channels ∧ HasChannels c channels := by
  rw [color, bind_readTokens_eq_ok_iff colorOf_unplaced]
  constructor
  · rintro ⟨ls, hls, hc⟩
    obtain ⟨k, text, row, ⟨hstart, hrow⟩, hs, rfl⟩ := lexes_color_iff.1 hls
    cases hstart with
    | hex hne hd =>
      cases hrow
      rcases hexColor_eq_ok_iff.1 hc with hsingle | ⟨pairs, rfl, hdouble⟩
      · exact ⟨_, .single hd hs, hsingle⟩
      · refine ⟨_, .double (fun p hp => ?_) hs, hdouble⟩
        exact ⟨hd _ (List.mem_flatMap.2 ⟨p, hp, List.mem_cons_self⟩),
          hd _ (List.mem_flatMap.2 ⟨p, hp, List.mem_cons_of_mem _ List.mem_cons_self⟩)⟩
    | rgb =>
      obtain ⟨texts, hlen, htexts, hs, hc⟩ :=
        (word_eq_ok_iff (.inl ⟨rfl, rfl⟩)).1 ⟨row, hrow, hs, hc⟩
      exact ⟨_, .rgb hlen htexts hs, hc⟩
    | rgba =>
      obtain ⟨texts, hlen, htexts, hs, hc⟩ :=
        (word_eq_ok_iff (.inr ⟨rfl, rfl⟩)).1 ⟨row, hrow, hs, hc⟩
      exact ⟨_, .rgba hlen htexts hs, hc⟩
  · rintro ⟨_, hs, hc⟩
    cases hs with
    | single hd hs =>
      have hcolor := hexColor_eq_ok_iff.2 (.inl hc)
      have hstart := ColorStart.hex (ne_nil_of_hexColor hcolor) hd
      exact ⟨_, lexes_color_iff.2 ⟨_, _, [], ⟨hstart, .nil⟩, hs, rfl⟩, hcolor⟩
    | @double pairs hp hs =>
      have hd : ∀ d ∈ pairs.flatMap fun p => [p.1, p.2], isHexDigit d = true := by
        intro d hd
        obtain ⟨p, hmem, hd⟩ := List.mem_flatMap.1 hd
        rcases List.mem_pair.1 hd with rfl | rfl
        · exact (hp p hmem).1
        · exact (hp p hmem).2
      have hcolor := hexColor_eq_ok_iff.2 (.inr ⟨pairs, rfl, hc⟩)
      have hstart := ColorStart.hex (ne_nil_of_hexColor hcolor) hd
      exact ⟨_, lexes_color_iff.2 ⟨_, _, [], ⟨hstart, .nil⟩, hs, rfl⟩, hcolor⟩
    | rgb hlen htexts hs =>
      obtain ⟨row, hrow, hs, hc⟩ :=
        (word_eq_ok_iff (.inl ⟨rfl, rfl⟩)).2 ⟨_, hlen, htexts, hs, hc⟩
      exact ⟨_, lexes_color_iff.2 ⟨_, _, row, ⟨.rgb, hrow⟩, hs, rfl⟩, hc⟩
    | rgba hlen htexts hs =>
      obtain ⟨row, hrow, hs, hc⟩ :=
        (word_eq_ok_iff (.inr ⟨rfl, rfl⟩)).2 ⟨_, hlen, htexts, hs, hc⟩
      exact ⟨_, lexes_color_iff.2 ⟨_, _, row, ⟨.rgba, hrow⟩, hs, rfl⟩, hc⟩

/-! ## Hexadecimal colors -/

/-- Digits after the mark are read as the color that is made from them. -/
theorem color_of_hexDigits {digits : List Char} (hall : ∀ d ∈ digits, isHexDigit d = true)
    {c : Color} (hc : hexColor digits = .ok c) : color ('#' :: digits) = .ok c := by
  have hs : Gapped ['#' :: digits] ('#' :: digits) := by
    simpa using gapped_flatten ['#' :: digits]
  have hstart := ColorStart.hex (ne_nil_of_hexColor hc) hall
  rw [color_of_lexes (lexes_color_iff.2 ⟨_, _, [], ⟨hstart, .nil⟩, hs, rfl⟩)]
  exact hc

/-- **Colors are read back from their hexadecimal text.** -/
theorem color_hex (c : Color) : color c.hex = .ok c := by
  rw [hex_eq]
  exact color_of_hexDigits (hexText_hexDigits c) (hexColor_hexText c)

/-- Digits are those of a color if there are as many as one of the forms has. -/
theorem exists_hexColor_iff {digits : List Char} :
    (∃ c, hexColor digits = .ok c) ↔ digits.length ∈ [3, 4, 6, 8] := by
  constructor
  · rintro ⟨c, h⟩
    unfold hexColor at h
    split at h
    · simp
    · simp
    · simp
    · simp
    · contradiction
  · intro h
    simp only [List.mem_cons, List.not_mem_nil, or_false] at h
    rcases h with h | h | h | h
    · match digits, h with
      | [_, _, _], _ => exact ⟨_, rfl⟩
    · match digits, h with
      | [_, _, _, _], _ => exact ⟨_, rfl⟩
    · match digits, h with
      | [_, _, _, _, _, _], _ => exact ⟨_, rfl⟩
    · match digits, h with
      | [_, _, _, _, _, _, _, _], _ => exact ⟨_, rfl⟩

theorem isHexColor_eq_true_iff {s : List Char} :
    isHexColor s = true ↔
      ∃ digits, s = '#' :: digits ∧ (∀ d ∈ digits, isHexDigit d = true) ∧
        ∃ c, hexColor digits = .ok c := by
  constructor
  · intro h
    unfold isHexColor at h
    split at h
    · next digits =>
      simp only [Bool.and_eq_true, List.all_eq_true, List.contains_eq_mem,
        decide_eq_true_eq] at h
      exact ⟨digits, rfl, h.1, exists_hexColor_iff.2 h.2⟩
    · contradiction
  · rintro ⟨digits, rfl, hall, hc⟩
    have hlen := exists_hexColor_iff.1 hc
    simp only [isHexColor, Bool.and_eq_true, List.all_eq_true, List.contains_eq_mem,
      decide_eq_true_eq]
    exact ⟨hall, hlen⟩

theorem isHexColor_hex (c : Color) : isHexColor c.hex = true :=
  isHexColor_eq_true_iff.2 ⟨hexText c, hex_eq c, hexText_hexDigits c, c, hexColor_hexText c⟩

/-- What has the form of a hexadecimal color is one. -/
theorem exists_color_of_isHexColor {s : List Char} (h : isHexColor s = true) :
    ∃ c, color s = .ok c := by
  obtain ⟨digits, rfl, hall, c, hc⟩ := isHexColor_eq_true_iff.1 h
  exact ⟨c, color_of_hexDigits hall hc⟩

end Styling.Literal

namespace Styling

open Styling.Literal Styling.Text

/-! ## Texts and values -/

theorem readColor_hex (key : String) (c : Color) :
    readColor key (String.ofList c.hex) = .ok (.color c) := by
  rw [readColor, structured, String.toList_ofList, color_hex]

def WritesColor (raw : String) (v : Value) : Prop :=
  ∃ c channels, (WritesChannels raw.toList channels ∧ HasChannels c channels) ∧ v = .color c

/-- **The texts of colors.** A color is read from the texts that write its channels, and from no
other text. The hexadecimal text of a color is one of its texts. -/
theorem readColor_grammar :
    ReadsExactly readColor WritesColor ∧
      ∀ key (c : Color), readColor key (String.ofList c.hex) = .ok (.color c) := by
  refine ⟨readsExactly_structured fun raw v => ?_, readColor_hex⟩
  simp only [color_eq_ok_iff, WritesColor]
  constructor
  · rintro ⟨c, channels, h, rfl⟩
    exact ⟨c, ⟨channels, h⟩, rfl⟩
  · rintro ⟨c, ⟨channels, h⟩, rfl⟩
    exact ⟨c, channels, h, rfl⟩

example : readColor "color" " rgb ( 7,\n008, 255 )" = .ok (.color ⟨7, 8, 255, 255⟩) := by cbv

end Styling
