import Styling.Proofs.Families

/-!
# Fonts are read back

`Font.Spelled` is what the texts of fonts can write: at most one size, a double, without a minus
sign if it is absolute, and families that can stand between quotation marks. The text of a spelled
font consists of style words, the size and the families, and each of them has its own lexemes. The
font is therefore read back from its text when its size is finite and, without a size, its first
family is not taken for style words (`font_readsBack`).
-/

set_option autoImplicit false

namespace Styling

open Styling.Decimal Styling.Literal Styling.Text

/-- What the texts of fonts can write. -/
structure Font.Spelled (f : Font) : Prop where
  size : ∀ n ∈ f.size, ∃ x, n = .real x ∧ x.isNegative = false
  relativeSize : ∀ n ∈ f.relativeSize, ∃ x, n = .real x
  oneSize : f.size = none ∨ f.relativeSize = none
  families : ∀ name ∈ f.families, quotable false name.toList = true

/-- The double of a size is finite. -/
def Number.isFinite : Number → Bool
  | .real x => x.isFinite
  | _ => true

/-- The text of a font is not taken for another one: its size is finite, and without a size the
first family does not start with a style word. -/
def Font.isUnambiguous (f : Font) : Bool :=
  f.size.all Number.isFinite && f.relativeSize.all Number.isFinite
    && (f.size.isSome || f.relativeSize.isSome
      || f.families.head?.all fun name => !startsWithStyle name.toList)

/-! ## The parts of a font -/

/-- The style words of a font. -/
def Font.styles (f : Font) : List (List Char) :=
  (if f.bold then ["bold".toList] else []) ++ (if f.italic then ["italic".toList] else [])

/-- The families of a font as one part, if there are any. -/
def Font.familyPart (f : Font) : List (List Char) :=
  if f.families.isEmpty then []
  else [join [',', ' '] (f.families.map fun s => familyText s.toList)]

/-- The text of some parts; the word for an unchanged font if there are none. -/
def partsText (parts : List (List Char)) : List Char :=
  if parts.isEmpty then "plain".toList else join [' '] parts

theorem Font.format_eq {f : Font} {size : List (List Char)} (h : f.sizePart = .ok size) :
    f.format = .ok (partsText (f.styles ++ size ++ f.familyPart)) := by
  rw [Font.format, h]
  rfl

theorem styles_subset (f : Font) : ∀ w ∈ f.styles, w ∈ styleWords := by
  intro w hw
  rw [Font.styles, List.mem_append] at hw
  rcases hw with hw | hw
  · split at hw
    · rw [List.mem_singleton.1 hw]
      decide
    · contradiction
  · split at hw
    · rw [List.mem_singleton.1 hw]
      decide
    · contradiction

/-! ## The text of a size -/

/-- The text of a double that is not finite is a word, or one with a sign. -/
theorem sizeText_of_not_finite {x : Double} (h : x.isFinite = false) :
    sizeLayout.text x = "inf".toList ∨ sizeLayout.text x = "-inf".toList
      ∨ sizeLayout.text x = "nan".toList := by
  cases x with
  | finite negative rank => contradiction
  | infinite negative =>
    cases negative
    · exact Or.inl rfl
    · exact Or.inr (Or.inl rfl)
  | nan => exact Or.inr (Or.inr rfl)

/-- The text of a finite size is a numeral for it, with a sign where the size is negative. -/
theorem exists_sizeText {x : Double} (h : x.isFinite = true) :
    ∃ n : Numeral, n.text = sizeLayout.text x
      ∧ n.sign = (if x.isNegative then some '-' else none) ∧ n.WellFormed isBasicDigit
      ∧ n.double = x := by
  cases x with
  | finite negative rank =>
    obtain ⟨n, htext, hsign, hwell, hdouble, -⟩ := sizeLayout.exists_text negative rank
    exact ⟨n, htext, hsign, hwell, hdouble⟩
  | infinite negative => contradiction
  | nan => contradiction

theorem startsNoSign_of_unsigned {n : Numeral} (hwell : n.WellFormed isBasicDigit)
    (h : n.sign = none) : n.text.head? ≠ some '-' := by
  intro hhead
  obtain ⟨r, hr⟩ := List.head?_eq_some_iff.1 hhead
  have hscan := Numeral.scan_text isDigitClass_isBasicDigit hwell (show EndsNumeral isBasicDigit []
    by simp [EndsNumeral])
  rw [List.append_nil, hr] at hscan
  simp only [Numeral.scan, splitSign, Option.map_eq_some_iff] at hscan
  obtain ⟨⟨p, t⟩, -, he⟩ := hscan
  have hsign := congrArg Numeral.sign (Prod.mk.inj he).1
  rw [h] at hsign
  contradiction

/-- The text of a finite relative size is a numeral for it with a sign. -/
theorem exists_relativeSizeText {x : Double} (h : x.isFinite = true) :
    ∃ n : Numeral, relativeSizeText (.real x) = .ok n.text ∧ n.sign.isSome = true
      ∧ n.WellFormed isBasicDigit ∧ n.double = x := by
  obtain ⟨n, htext, hsign, hwell, hdouble⟩ := exists_sizeText h
  have hformat : relativeSizeText (.real x)
      = .ok (if n.text.head? = some '-' then n.text else '+' :: n.text) := by
    rw [htext]
    rfl
  cases hneg : x.isNegative with
  | true =>
    rw [hneg, if_pos rfl] at hsign
    have hhead : n.text.head? = some '-' := by simp [Numeral.text, hsign]
    exact ⟨n, by rw [hformat, if_pos hhead], by simp [hsign], hwell, hdouble⟩
  | false =>
    rw [hneg, if_neg (by simp)] at hsign
    refine ⟨{ n with sign := some '+' }, ?_, rfl, hwell.withSign (Or.inr (Or.inr rfl)), ?_⟩
    · rw [hformat, if_neg (startsNoSign_of_unsigned hwell hsign)]
      simp [Numeral.text, hsign]
    · rw [← hdouble, Numeral.double, Numeral.double, hsign]
      rfl

/-! ## Tokens in front of the families -/

theorem isWord_of_style {w : List Char} (h : w ∈ styleWords) : isWord w = true := by
  have hall : ∀ v ∈ styleWords, isWord v = true := by decide
  exact hall w h

theorem next_styleKind {w : List Char} (h : w ∈ styleWords) :
    Place.fontStyle.next (styleKind w) = .fontStyle := by
  rw [styleWords, List.mem_cons, List.mem_cons, List.mem_singleton] at h
  rcases h with rfl | rfl | rfl <;> rfl

theorem endsWord_spaced (ps : List (List Char)) {tail : List Char} (ht : EndsWord tail) :
    EndsWord (ps.flatMap ([' '] ++ ·) ++ tail) :=
  endsWord_flatMap (by simp [isWordRest, isWordStart, isBasicDigit]) (by simp) ps ht

/-- Parts with spaces before them have the lexemes of these parts. -/
theorem lexes_spaced_iff {place : Place} {ps : List (List Char)} {tail : List Char}
    {ls : List Lexeme} :
    Lexes place (ps.flatMap ([' '] ++ ·) ++ tail) ls ↔ Lexes place (join [' '] ps ++ tail) ls := by
  cases ps with
  | nil => rfl
  | cons p ps =>
    rw [List.flatMap_cons, join_cons, List.append_assoc, List.append_assoc, List.append_assoc]
    exact lexes_space_iff

/-- Style words in front of a font are read one by one. -/
theorem lexes_styles_iff {ss : List (List Char)} (hss : ∀ w ∈ ss, w ∈ styleWords)
    {tail : List Char} (ht : EndsWord tail) {ls : List Lexeme} :
    Lexes .fontStyle (join [' '] ss ++ tail) ls
      ↔ ∃ ms, ls = (ss.map fun w => (styleKind w, w)) ++ ms ∧ Lexes .fontStyle tail ms := by
  induction ss generalizing ls with
  | nil => simp [join]
  | cons w ss ih =>
    have hw := hss w List.mem_cons_self
    have hrest := @ih fun v hv => hss v (List.mem_cons_of_mem w hv)
    have hstop : ∀ c ∈ (w ++ (ss.flatMap ([' '] ++ ·) ++ tail)).head?, isGap c = false :=
      fun c hc => isGap_of_isWordStart (isWord_head (isWord_of_style hw) _ c hc)
    have htoken := nextToken?_fontStyle_word (isWord_of_style hw) (endsWord_spaced ss ht)
    rw [join_cons, List.append_assoc, lexes_iff_of_token hstop htoken, next_styleKind hw]
    constructor
    · rintro ⟨ms, rfl, hms⟩
      obtain ⟨ns, rfl, hns⟩ := hrest.1 (lexes_spaced_iff.1 hms)
      exact ⟨ns, rfl, hns⟩
    · rintro ⟨ns, rfl, hns⟩
      exact ⟨_, rfl, lexes_spaced_iff.2 (hrest.2 ⟨ns, rfl, hns⟩)⟩

theorem numeral_ne_nil {digit : Char → Bool} {n : Numeral} (hwell : n.WellFormed digit) :
    n.text ≠ [] := by
  intro hnil
  rw [Numeral.text] at hnil
  simp only [List.append_eq_nil_iff] at hnil
  rcases hwell.nonempty with h | h
  · exact h hnil.1.1.2
  · cases hp : n.point with
    | true => simp [hp] at hnil
    | false => exact h (hwell.point hp)

theorem head_number {n : Numeral} (hwell : n.WellFormed isBasicDigit) (rest : List Char) :
    ∀ c ∈ (n.text ++ rest).head?, isGap c = false := by
  intro c hc
  rw [List.head?_append_of_ne_nil _ (numeral_ne_nil hwell)] at hc
  rcases Numeral.mem_text hwell (List.mem_of_mem_head? hc) with h | h
  · exact isGap_of_isVisible (isVisible_of_isBasicDigit h)
  · simp only [isNumeralMark, List.contains_eq_mem, List.mem_cons, List.not_mem_nil, or_false,
      decide_eq_true_eq] at h
    rcases h with rfl | rfl | rfl | rfl | rfl <;> rfl

/-- A size is the next token where a font starts, and families follow it. -/
theorem lexes_number {n : Numeral} (hwell : n.WellFormed isBasicDigit) {tail : List Char}
    (ht : EndsNumeral isBasicDigit tail) {ls : List Lexeme} (h : Lexes .families tail ls) :
    Lexes .fontStyle (n.text ++ tail) ((.number, n.text) :: ls) := by
  have hscan := Numeral.scan_text isDigitClass_isBasicDigit hwell ht
  have htoken : nextToken? Place.fontStyle.admits (n.text ++ tail)
      = some (.number, n.text, tail) := by
    rw [nextToken?, tried_fontStyle]
    simp [TokenKind.lexeme?, hscan]
  exact Lexes.cons (head_number hwell tail) htoken h

/-- Style words before other parts are read before these. -/
theorem lexes_parts_iff {ss ps : List (List Char)} (hss : ∀ w ∈ ss, w ∈ styleWords)
    {ls : List Lexeme} :
    Lexes .fontStyle (join [' '] (ss ++ ps)) ls
      ↔ ∃ ms, ls = (ss.map fun w => (styleKind w, w)) ++ ms
        ∧ Lexes .fontStyle (join [' '] ps) ms := by
  cases ss with
  | nil => simp
  | cons w ss =>
    -- After the first style word every part has a space in front of it.
    have htext : join [' '] (w :: ss ++ ps)
        = join [' '] (w :: ss) ++ (ps.flatMap ([' '] ++ ·) ++ []) := by
      rw [List.cons_append, join_cons, join_cons, List.flatMap_append, List.append_nil,
        List.append_assoc]
    have hends : EndsWord (ps.flatMap ([' '] ++ ·) ++ []) :=
      endsWord_spaced ps (by simp [EndsWord])
    have hspaced : ∀ ms, Lexes .fontStyle (ps.flatMap ([' '] ++ ·) ++ []) ms
        ↔ Lexes .fontStyle (join [' '] ps) ms := by
      intro ms
      rw [lexes_spaced_iff, List.append_nil]
    rw [htext, lexes_styles_iff hss hends]
    simp only [hspaced]

/-! ## Reading a font back -/

theorem Font.families_toList (f : Font) :
    (f.families.map String.toList).map String.ofList = f.families := by
  rw [List.map_map]
  exact (List.map_congr_left fun _ _ => String.ofList_toList).trans (List.map_id _)

/-- The families of a font have their lexemes where families can start. -/
theorem Font.Spelled.lexes_familyPart {f : Font} (hf : f.Spelled) {place : Place}
    (hp : place = .families ∨ place = .fontStyle)
    (hs : place = .fontStyle → ∀ name ∈ f.families.head?, startsWithStyle name.toList = false) :
    Lexes place (join [' '] f.familyPart) (familiesLexemes (f.families.map String.toList)) := by
  have hend : place.mayEnd = true := by rcases hp with rfl | rfl <;> rfl
  have hstart : IsFamilyStart place := hp.imp_right Or.inr
  cases hnames : f.families with
  | nil =>
    rw [Font.familyPart, hnames]
    exact Lexes.nil hend
  | cons name names =>
    have hq : ∀ n ∈ (name :: names).map String.toList, quotable false n = true := by
      intro n hn
      obtain ⟨m, hm, rfl⟩ := List.mem_map.1 hn
      exact hf.families m (hnames ▸ hm)
    have hstyle : place = .fontStyle → startsWithStyle name.toList = false :=
      fun h => hs h name (by rw [hnames]; rfl)
    have hmap : (name :: names).map (fun s => familyText s.toList)
        = ((name :: names).map String.toList).map familyText := by
      rw [List.map_map]
      rfl
    rw [Font.familyPart, hnames, List.isEmpty_cons, if_neg (by simp), hmap]
    exact lexes_families hstart hq hstyle

theorem foldl_styles (f : Font) :
    ((f.styles.map fun w => (styleKind w, w)).map unplaced).foldl FontReading.add
        FontReading.start
      = ⟨⟨[], none, none, f.bold, f.italic⟩, [], false⟩ := by
  rw [Font.styles]
  cases f.bold <;> cases f.italic <;> rfl

/-- Style words, then what comes before the families, then the families write a font. -/
theorem fontOf_parts {f : Font} (ls : List Lexeme)
    (h : (ls.map unplaced).foldl FontReading.add ⟨⟨[], none, none, f.bold, f.italic⟩, [], false⟩
      = ⟨⟨[], f.size, f.relativeSize, f.bold, f.italic⟩, [], false⟩) :
    fontOf (((f.styles.map fun w => (styleKind w, w))
      ++ (ls ++ familiesLexemes (f.families.map String.toList))).map unplaced) = f := by
  obtain ⟨b, hfamilies⟩ := foldl_families (f.families.map String.toList)
    ⟨[], f.size, f.relativeSize, f.bold, f.italic⟩
  rw [fontOf, List.map_append, List.map_append, List.foldl_append, List.foldl_append, foldl_styles,
    h, hfamilies]
  simp only [f.families_toList]

/-- The double that the token of a numeral writes. -/
theorem doubleOf_text {n : Numeral} (hwell : n.WellFormed isBasicDigit) :
    doubleOf n.text = n.double ∧ (splitSign n.text).1 = n.sign := by
  have hscan := Numeral.scan_text isDigitClass_isBasicDigit hwell (show EndsNumeral isBasicDigit []
    by simp [EndsNumeral])
  rw [List.append_nil] at hscan
  refine ⟨by rw [doubleOf, hscan], ?_⟩
  rw [Numeral.scan] at hscan
  obtain ⟨⟨⟨w, p, d⟩, r⟩, -, he⟩ := Option.map_eq_some_iff.1 hscan
  exact congrArg Numeral.sign (Prod.mk.inj he).1

/-- The size of an unambiguous font is a numeral that writes it. -/
theorem Font.Spelled.exists_sizeNumeral {f : Font} (hf : f.Spelled)
    (hu : f.isUnambiguous = true) (hsize : f.size ≠ none ∨ f.relativeSize ≠ none) :
    ∃ n : Numeral, f.sizePart = .ok [n.text] ∧ n.WellFormed isBasicDigit
      ∧ FontReading.add ⟨⟨[], none, none, f.bold, f.italic⟩, [], false⟩
          (unplaced (.number, n.text))
        = ⟨⟨[], f.size, f.relativeSize, f.bold, f.italic⟩, [], false⟩ := by
  rw [Font.isUnambiguous, Bool.and_eq_true, Bool.and_eq_true] at hu
  obtain ⟨⟨hfinite, hfiniteRelative⟩, -⟩ := hu
  cases hs : f.size with
  | some m =>
    obtain ⟨x, rfl, hneg⟩ := hf.size m hs
    rw [hs] at hfinite
    have hx : x.isFinite = true := hfinite
    obtain ⟨n, htext, hsign, hwell, hdouble⟩ := exists_sizeText hx
    -- Without a sign the numeral is not taken for a relative size.
    rw [hneg, if_neg (by simp)] at hsign
    have hnone : f.relativeSize = none := hf.oneSize.resolve_left (by simp [hs])
    obtain ⟨hread, hsplit⟩ := doubleOf_text hwell
    refine ⟨n, ?_, hwell, ?_⟩
    · rw [Font.sizePart, hs, htext]
      rfl
    · simp [FontReading.add, unplaced, hread, hsplit, hsign, hdouble, hnone]
  | none =>
    cases hr : f.relativeSize with
    | none => exact absurd hr (hsize.resolve_left (by simp [hs]))
    | some m =>
      obtain ⟨x, rfl⟩ := hf.relativeSize m hr
      rw [hr] at hfiniteRelative
      have hx : x.isFinite = true := hfiniteRelative
      -- The sign that every relative size is written with marks it as one.
      obtain ⟨n, htext, hsign, hwell, hdouble⟩ := exists_relativeSizeText hx
      obtain ⟨hread, hsplit⟩ := doubleOf_text hwell
      refine ⟨n, ?_, hwell, ?_⟩
      · rw [Font.sizePart, hs, hr]
        simp only [htext]
        rfl
      · simp [FontReading.add, unplaced, hread, hsplit, hsign, hdouble]

/-- A font without a size has the lexemes of its style words and families. -/
theorem Font.Spelled.lexes_unsized {f : Font} (hf : f.Spelled) (hs : f.size = none)
    (hr : f.relativeSize = none)
    (hfirst : ∀ name ∈ f.families.head?, startsWithStyle name.toList = false) :
    ∃ ls, Lexes .font (partsText (f.styles ++ [] ++ f.familyPart)) ls
      ∧ fontOf (ls.map unplaced) = f := by
  rw [List.append_nil]
  cases he : (f.styles ++ f.familyPart).isEmpty with
  | false =>
    rw [partsText, if_neg (by simp [he])]
    refine ⟨_, (lexes_parts_iff (styles_subset f)).2
      ⟨_, rfl, hf.lexes_familyPart (Or.inr rfl) fun _ => hfirst⟩, ?_⟩
    have hnone : (([] : List Lexeme).map unplaced).foldl FontReading.add
          ⟨⟨[], none, none, f.bold, f.italic⟩, [], false⟩
        = ⟨⟨[], f.size, f.relativeSize, f.bold, f.italic⟩, [], false⟩ := by
      rw [hs, hr]
      rfl
    exact fontOf_parts [] hnone
  | true =>
    -- Nothing is set, so the word for an unchanged font stands alone.
    rw [partsText, if_pos he]
    have hplain : f = Font.plain := by
      rw [List.isEmpty_iff, List.append_eq_nil_iff] at he
      obtain ⟨hstyles, hfamilies⟩ := he
      obtain ⟨families, size, relativeSize, bold, italic⟩ := f
      obtain rfl : size = none := hs
      obtain rfl : relativeSize = none := hr
      obtain rfl : families = [] := by
        cases families with
        | nil => rfl
        | cons name names => simp [Font.familyPart] at hfamilies
      cases bold <;> cases italic <;> first | rfl | simp [Font.styles] at hstyles
    have hlexes : Lexes .font (join [' '] (["plain".toList] ++ []))
        (["plain".toList].map (fun w => (styleKind w, w)) ++ []) :=
      (lexes_parts_iff (by decide)).2 ⟨[], rfl, Lexes.nil rfl⟩
    exact ⟨_, hlexes, hplain ▸ rfl⟩

/-- A font with a size has the lexemes of its style words, its size and its families. -/
theorem Font.Spelled.lexes_sized {f : Font} (hf : f.Spelled) {n : Numeral}
    (hwell : n.WellFormed isBasicDigit)
    (hadd : FontReading.add ⟨⟨[], none, none, f.bold, f.italic⟩, [], false⟩
        (unplaced (.number, n.text))
      = ⟨⟨[], f.size, f.relativeSize, f.bold, f.italic⟩, [], false⟩) :
    ∃ ls, Lexes .font (partsText (f.styles ++ [n.text] ++ f.familyPart)) ls
      ∧ fontOf (ls.map unplaced) = f := by
  have hfamilies := hf.lexes_familyPart (Or.inl rfl) (by simp)
  rw [← List.append_nil (join [' '] f.familyPart), ← lexes_spaced_iff] at hfamilies
  -- The number ends at the space before the families, or with the text.
  have hends : EndsNumeral isBasicDigit (f.familyPart.flatMap ([' '] ++ ·) ++ []) := by
    intro c hc
    cases hpart : f.familyPart with
    | nil =>
      rw [hpart] at hc
      contradiction
    | cons p ps =>
      rw [hpart] at hc
      obtain rfl : ' ' = c := by simpa using hc
      decide
  have hnumber := lexes_number hwell hends hfamilies
  rw [List.append_nil, ← join_cons] at hnumber
  rw [partsText, if_neg (by simp), List.append_assoc, List.singleton_append]
  refine ⟨_, (lexes_parts_iff (styles_subset f)).2 ⟨_, rfl, hnumber⟩, ?_⟩
  exact fontOf_parts [(.number, n.text)] hadd

/-- **A spelled font that is unambiguous is read back from its text.** -/
theorem font_readsBack {f : Font} (hf : f.Spelled) (hu : f.isUnambiguous = true) :
    ∃ text, f.format = .ok text ∧ Literal.font text = .ok f := by
  -- Behind a size the families stand on their own; without one they follow the style words.
  by_cases hsize : f.size ≠ none ∨ f.relativeSize ≠ none
  · obtain ⟨n, hpart, hwell, hadd⟩ := hf.exists_sizeNumeral hu hsize
    exact ⟨_, Font.format_eq hpart, font_eq_ok_iff.2 (hf.lexes_sized hwell hadd)⟩
  · rw [not_or, ne_eq, ne_eq, not_not, not_not] at hsize
    obtain ⟨hs, hr⟩ := hsize
    have hfirst : ∀ name ∈ f.families.head?, startsWithStyle name.toList = false := by
      rw [Font.isUnambiguous, hs, hr] at hu
      simpa [Option.all_eq_true] using hu
    have hpart : f.sizePart = .ok [] := by rw [Font.sizePart, hs, hr]
    exact ⟨_, Font.format_eq hpart, font_eq_ok_iff.2 (hf.lexes_unsized hs hr hfirst)⟩

end Styling
