import Styling.Proofs.Colors
import Styling.Proofs.FontTexts
import Styling.Proofs.Geometry
import Styling.Proofs.Statements

/-!
# Values of statements read and written

`KeyKind` names the kinds of value that the built-in rules tell apart by the key. A value suits a
key (`Suits`) when it is of the kind that the key asks for and can be written; every such value is
written as a text that is read for the key as that value (`Suits.reads_back`).

Reading gives nothing else, but for doubles that are not finite and for fonts (`coerce_cases`).
`Value.isFaithful` says which values survive being written and read again: every value that was read
has a text that can stand in a statement, and the value is read from it if it is faithful, while
nothing equal to it is if it is not (`coerce_reread`).
-/

set_option autoImplicit false

namespace Styling

open Styling.Decimal Styling.Literal Styling.Text

/-! ## Kinds of keys -/

/-- The kinds of value that a key can ask for. -/
inductive KeyKind where
  | color | insets | dimension | font | number
deriving DecidableEq

/-- All kinds, in the order in which their rules are tried. -/
def KeyKind.all : List KeyKind := [color, insets, dimension, font, number]

/-- The built-in rule for a kind. -/
def KeyKind.rule : KeyKind → Rule
  | color => ⟨["color", "background", "foreground"], readColor⟩
  | insets => ⟨["insets", "margin", "margins", "padding"], readInsets⟩
  | dimension => ⟨["size"], readDimension⟩
  | font => ⟨["font"], readFont⟩
  | number => ⟨["width", "height", "arc", "gap", "thickness"], readNumber⟩

theorem builtinRules_eq : builtinRules = KeyKind.all.map KeyKind.rule := rfl

/-- The kind of value that a key asks for; none if no rule fits it. -/
def keyKind? (key : String) : Option KeyKind := KeyKind.all.find? fun k => k.rule.fits key

theorem converterFor_builtin (key : String) :
    converterFor builtinRules key
      = match keyKind? key with
        | some k => k.rule.converter
        | none => readLiteral := by
  have hfind : builtinRules.find? (fun r => r.fits key) = (keyKind? key).map KeyKind.rule := by
    rw [builtinRules_eq, List.find?_map]
    rfl
  rw [converterFor, hfind]
  cases keyKind? key <;> rfl

/-! ## Values that suit a key -/

/-- A text that is read as itself where the key asks for no kind: it can stand in a statement, and
it is no reference, no fixed word, no number and no color. -/
structure IsPlainText (s : List Char) : Prop where
  raw : IsRaw s
  reference : s.head? ≠ some '$'
  word : s ∉ ["null".toList, "true".toList, "false".toList]
  integer : (Integer.ofText? s).isNone = true
  numeral : (Numeral.ofText? s).isNone = true
  color : isHexColor s = false

/-- A value can be written for a key: null for every key, a value of the kind that the key asks
for, and where it asks for none a truth value, a number, a color or a plain text. Integers are
within the digit limit, and doubles are finite. -/
inductive Suits (key : String) : Value → Prop where
  | null : Suits key .null
  | color (c : Color) (h : keyKind? key = some .color ∨ keyKind? key = none) :
      Suits key (.color c)
  | insets (i : Insets) (h : keyKind? key = some .insets)
      (hw : ∀ n ∈ [i.top, i.left, i.bottom, i.right], isWritable n = true) : Suits key (.insets i)
  | dimension (d : Dimension) (h : keyKind? key = some .dimension)
      (hw : ∀ n ∈ [d.width, d.height], isWritable n = true) : Suits key (.dimension d)
  | whole (n : Int) (h : keyKind? key = some .number ∨ keyKind? key = none)
      (hw : isWritable n = true) : Suits key (.whole n)
  | real (x : Double) (h : keyKind? key = some .number ∨ keyKind? key = none)
      (hx : x.isFinite = true) : Suits key (.real x)
  | flag (b : Bool) (h : keyKind? key = none) : Suits key (.flag b)
  | text (s : String) (h : keyKind? key = none) (hs : IsPlainText s.toList) : Suits key (.text s)

/-! ## The standard coercer -/

theorem coerce_reference {key : String} {s : List Char} (h : s.head? = some '$') :
    Coercer.standard.coerce key (String.ofList s) = .ok .null := by
  obtain ⟨r, rfl⟩ := List.head?_eq_some_iff.1 h
  rw [Coercer.coerce, Coercer.referenceName?, String.toList_ofList]
  rfl

theorem referenceName?_eq_none {s : List Char} (h : s.head? ≠ some '$') :
    Coercer.standard.referenceName? (String.ofList s) = none := by
  rw [Coercer.referenceName?, String.toList_ofList]
  show (dropPrefix? ['$'] s).map _ = none
  cases s with
  | nil => rfl
  | cons c s =>
    have hc : '$' ≠ c := by
      rintro rfl
      exact h rfl
    rw [dropPrefix?_singleton, if_neg hc]
    rfl

theorem coerce_null (key : String) :
    Coercer.standard.coerce key (String.ofList "null".toList) = .ok .null := by
  rw [Coercer.coerce, referenceName?_eq_none (by decide)]
  rfl

theorem ofList_ne {s : List Char} {t : String} (h : s ≠ t.toList) : String.ofList s ≠ t := by
  rintro rfl
  exact h String.toList_ofList.symm

/-- What is no reference and not the word for null is read by the kind of its key. -/
theorem coerce_of_ne {key : String} {s : List Char} (hr : s.head? ≠ some '$')
    (hn : s ≠ "null".toList) :
    Coercer.standard.coerce key (String.ofList s)
      = (match keyKind? key with
        | some k => k.rule.converter
        | none => readLiteral) key (String.ofList s) := by
  rw [Coercer.coerce, referenceName?_eq_none hr]
  show readValue builtinRules key (String.ofList s) = _
  rw [readValue, if_neg (ofList_ne hn), converterFor_builtin]

/-! ## Texts of numbers -/

/-- A text that can only be a number: digits and the marks of numerals. -/
def IsNumeric (s : List Char) : Prop := ∀ c ∈ s, isBasicDigit c = true ∨ isNumeralMark c = true

theorem isNumeric_intText (n : Int) : IsNumeric (intText n) := by
  intro c hc
  rcases mem_intText hc with h | rfl
  · exact Or.inl h
  · exact Or.inr rfl

theorem isNumeric_doubleText {x : Double} (h : x.isFinite = true) : IsNumeric (doubleText x) := by
  cases x with
  | finite negative rank =>
    obtain ⟨n, htext, -, hwell, -, -⟩ := doubleLayout.exists_text negative rank
    intro c hc
    rw [doubleText, ← htext] at hc
    exact Numeral.mem_text hwell hc
  | infinite negative => contradiction
  | nan => contradiction

/-- A text with a letter in it that no number has is another text. -/
theorem IsNumeric.ne {s t : List Char} (h : IsNumeric s)
    (ht : ∃ c ∈ t, isBasicDigit c = false ∧ isNumeralMark c = false) : s ≠ t := by
  rintro rfl
  obtain ⟨c, hc, hdigit, hmark⟩ := ht
  rcases h c hc with hc | hc
  · rw [hdigit] at hc
    contradiction
  · rw [hmark] at hc
    contradiction

theorem IsNumeric.head {s : List Char} (h : IsNumeric s) : s.head? ≠ some '$' := by
  intro hs
  rcases h '$' (List.mem_of_mem_head? hs) with hc | hc <;> contradiction

/-- A number is read alike for a key that asks for one and for a key that asks for nothing. -/
theorem coerce_number {key : String} (hk : keyKind? key = some .number ∨ keyKind? key = none)
    {s : List Char} (hs : IsNumeric s) {v : Value} (hv : numberOf? s = some (.ok v)) :
    Coercer.standard.coerce key (String.ofList s) = .ok v := by
  rw [coerce_of_ne hs.head (hs.ne ⟨'n', by decide⟩)]
  rcases hk with hk | hk
  · rw [hk]
    show (numberOf? (String.ofList s).toList).getD _ = _
    rw [String.toList_ofList, hv]
    rfl
  · have htrue : String.ofList s ≠ "true" := ofList_ne (hs.ne ⟨'t', by decide⟩)
    have hfalse : String.ofList s ≠ "false" := ofList_ne (hs.ne ⟨'f', by decide⟩)
    rw [hk]
    show readLiteral key (String.ofList s) = _
    rw [readLiteral, if_neg htrue, if_neg hfalse, String.toList_ofList, hv]

theorem numberOf?_intText {n : Int} (h : isWritable n = true) :
    numberOf? (intText n) = some (.ok (.whole n)) := by
  obtain ⟨i, hi, hread⟩ := read_intText h
  simp only [numberOf?, hi, hread]

theorem numberOf?_doubleText {x : Double} (h : x.isFinite = true) :
    numberOf? (doubleText x) = some (.ok (.real x)) := by
  obtain ⟨hint, n, hn, hx⟩ := ofText?_doubleText h
  simp only [numberOf?, hint, hn, Option.map_some, hx]

theorem isPart_join_intText {ns : List Int} (hne : ns ≠ []) :
    IsRaw (join [','] (ns.map intText)) := by
  refine isPart_join (by simp) (by simpa using hne) fun p hp => ?_
  obtain ⟨n, -, rfl⟩ := List.mem_map.1 hp
  refine isPart_of_visible (intText_ne_nil n) fun c hc => ⟨isVisible_intText hc, ?_⟩
  rw [List.mem_singleton]
  rintro rfl
  rcases mem_intText hc with h | h <;> contradiction

theorem isNumeric_or_comma {ns : List Int} :
    ∀ c ∈ join [','] (ns.map intText), isBasicDigit c = true ∨ c = '-' ∨ c = ',' := by
  intro c hc
  rcases mem_join hc with h | ⟨p, hp, hcp⟩
  · exact Or.inr (Or.inr (List.mem_singleton.1 h))
  · obtain ⟨n, -, rfl⟩ := List.mem_map.1 hp
    exact (mem_intText hcp).imp_right Or.inl

/-- A list of integers is read by the kind of its key. -/
theorem coerce_integers {key : String} {kind : KeyKind} (hk : keyKind? key = some kind)
    (ns : List Int) :
    Coercer.standard.coerce key (String.ofList (join [','] (ns.map intText)))
      = kind.rule.converter key (String.ofList (join [','] (ns.map intText))) := by
  have hno : ∀ d, isBasicDigit d = false → d ≠ '-' → d ≠ ',' →
      d ∉ join [','] (ns.map intText) := by
    intro d hd hminus hcomma hmem
    rcases isNumeric_or_comma d hmem with h | h | h
    · rw [hd] at h
      contradiction
    · exact hminus h
    · exact hcomma h
  rw [coerce_of_ne, hk]
  · intro h
    exact hno '$' (by decide) (by decide) (by decide) (List.mem_of_mem_head? h)
  · intro h
    exact hno 'n' (by decide) (by decide) (by decide) (by rw [h]; decide)

/-! ## Reading back -/

theorem isRaw_hex (c : Color) : IsRaw c.hex := by
  rw [hex_eq]
  refine isPart_of_visible (List.cons_ne_nil _ _) fun d hd => ?_
  rw [List.mem_singleton]
  rcases List.mem_cons.1 hd with rfl | hd
  · exact ⟨⟨by decide, by decide⟩, by decide⟩
  · have hhex := hexText_hexDigits c d hd
    refine ⟨isVisible_of_isHexDigit hhex, ?_⟩
    rintro rfl
    contradiction

/-- No number starts like a hexadecimal color. -/
theorem numberOf?_hash (s : List Char) : numberOf? ('#' :: s) = none := by
  have hint : Integer.ofText? ('#' :: s) = none := by
    simp [Integer.ofText?, splitSign, isDigit, digitValue?]
  have hnum : Numeral.ofText? ('#' :: s) = none := by
    simp [Numeral.ofText?, Numeral.scan, splitSign, Numeral.scanDigits, isDigit, digitValue?]
  simp only [numberOf?, hint, hnum, Option.map_none]

/-- **A value that suits a key is read back for that key** from the text it is written as, and the
text can stand in a statement. -/
theorem Suits.reads_back {key : String} {value : Value} (h : Suits key value) :
    ∃ text, value.formatChars = .ok text ∧ IsRaw text
      ∧ Coercer.standard.coerce key (String.ofList text) = .ok value := by
  -- In each case the text has to miss the references, the word for null and, for a key without a
  -- kind, all the forms that are tried before the one it has.
  cases h with
  | null => exact ⟨"null".toList, rfl, by decide, coerce_null key⟩
  | color c hk =>
    refine ⟨c.hex, rfl, isRaw_hex c, ?_⟩
    rw [coerce_of_ne (by rw [hex_eq]; simp) (by rw [hex_eq]; simp)]
    rcases hk with hk | hk
    · rw [hk]
      exact readColor_hex key c
    · have htrue : String.ofList c.hex ≠ "true" := ofList_ne (by rw [hex_eq]; simp)
      have hfalse : String.ofList c.hex ≠ "false" := ofList_ne (by rw [hex_eq]; simp)
      rw [hk]
      show readLiteral key (String.ofList c.hex) = _
      have hnumber : numberOf? c.hex = none := by rw [hex_eq, numberOf?_hash]
      rw [readLiteral, if_neg htrue, if_neg hfalse, String.toList_ofList, hnumber]
      simp only [isHexColor_hex, ↓reduceIte, readColor_hex]
  | insets i hk hw =>
    refine ⟨_, by rw [Value.formatChars]; exact formatInts_ok hw,
      isPart_join_intText (List.cons_ne_nil _ _), ?_⟩
    rw [coerce_integers hk]
    show readInsets key _ = _
    rw [readInsets, structured, String.toList_ofList, insets_join hw]
  | dimension d hk hw =>
    refine ⟨_, by rw [Value.formatChars]; exact formatInts_ok hw,
      isPart_join_intText (List.cons_ne_nil _ _), ?_⟩
    rw [coerce_integers hk]
    show readDimension key _ = _
    rw [readDimension, structured, String.toList_ofList, dimension_join hw]
  | whole n hk hw =>
    have hformat : (Value.whole n).formatChars = .ok (join [','] ([n].map intText)) := by
      rw [Value.formatChars]
      exact formatInts_ok (List.forall_mem_singleton.2 hw)
    exact ⟨_, hformat, isPart_join_intText (List.cons_ne_nil _ _),
      coerce_number hk (isNumeric_intText n) (numberOf?_intText hw)⟩
  | real x hk hx =>
    exact ⟨doubleText x, rfl, isPart_doubleText x,
      coerce_number hk (isNumeric_doubleText hx) (numberOf?_doubleText hx)⟩
  | flag b hk =>
    cases b with
    | true =>
      refine ⟨"true".toList, rfl, by decide, ?_⟩
      rw [coerce_of_ne (by decide) (by decide), hk]
      rfl
    | false =>
      refine ⟨"false".toList, rfl, by decide, ?_⟩
      rw [coerce_of_ne (by decide) (by decide), hk]
      rfl
  | text s hk hs =>
    refine ⟨s.toList, rfl, hs.raw, ?_⟩
    have hword := hs.word
    simp only [List.mem_cons, List.not_mem_nil, or_false, not_or] at hword
    have htrue : s ≠ "true" := fun h => hword.2.1 (by rw [h])
    have hfalse : s ≠ "false" := fun h => hword.2.2 (by rw [h])
    have hnumber : numberOf? s.toList = none := by
      rw [numberOf?, Option.isNone_iff_eq_none.1 hs.integer,
        Option.isNone_iff_eq_none.1 hs.numeral]
      rfl
    rw [coerce_of_ne hs.reference hword.1, hk, String.ofList_toList]
    show readLiteral key s = _
    rw [readLiteral, if_neg htrue, if_neg hfalse, hnumber]
    simp only [hs.color, Bool.false_eq_true, ↓reduceIte]

/-! ## Values that were read -/

theorem structured_ok {α : Type} {read : List Char → Except LiteralFault α} {value : α → Value}
    {key raw : String} {v : Value} (h : structured read value key raw = .ok v) :
    ∃ a, read raw.toList = .ok a ∧ v = value a := by
  rw [structured] at h
  split at h
  · next a ha => exact ⟨a, ha, (Except.ok.inj h).symm⟩
  · contradiction

theorem structured_error {α : Type} {read : List Char → Except LiteralFault α}
    {value : α → Value} {key raw : String} {e : ReadError}
    (h : structured read value key raw = .error e) : ∃ fault, e = .badValue key raw fault := by
  rw [structured] at h
  split at h
  · cases h
  · next fault _ => exact ⟨.literal fault, (Except.error.inj h).symm⟩

/-- A number that was read is an integer within the digit limit or a double. -/
theorem numberOf?_ok {s : List Char} {v : Value} (h : numberOf? s = some (.ok v)) :
    (∃ n, v = .whole n ∧ isWritable n = true) ∨ ∃ x, v = .real x := by
  rw [numberOf?] at h
  split at h
  · next i _ =>
    cases hread : i.read with
    | ok n =>
      simp only [hread, Option.some.injEq, Except.ok.injEq] at h
      exact Or.inl ⟨n, h.symm, Integer.isWritable_of_read hread⟩
    | error e => simp [hread] at h
  · obtain ⟨n, -, hn⟩ := Option.map_eq_some_iff.1 h
    exact Or.inr ⟨n.double, (Except.ok.inj hn).symm⟩

/-- A number that was read suits its key, unless it is a double that is not finite. -/
theorem suits_number {key : String} (hk : keyKind? key = some .number ∨ keyKind? key = none)
    {s : List Char} {v : Value} (h : numberOf? s = some (.ok v)) :
    Suits key v ∨ ∃ x, v = .real x ∧ x.isFinite = false := by
  rcases numberOf?_ok h with ⟨n, rfl, hn⟩ | ⟨x, rfl⟩
  · exact Or.inl (Suits.whole n hk hn)
  · cases hx : x.isFinite with
    | true => exact Or.inl (Suits.real x hk hx)
    | false => exact Or.inr ⟨x, rfl, hx⟩

/-- A literal of no kind is a truth value, a number, a color or a plain text. -/
theorem suits_literal {key raw : String} {v : Value} (hk : keyKind? key = none)
    (hraw : IsRaw raw.toList) (hr : raw.toList.head? ≠ some '$') (hn : raw.toList ≠ "null".toList)
    (h : readLiteral key raw = .ok v) : Suits key v ∨ ∃ x, v = .real x ∧ x.isFinite = false := by
  rw [readLiteral] at h
  split at h
  · obtain rfl := Except.ok.inj h
    exact Or.inl (Suits.flag true hk)
  split at h
  · obtain rfl := Except.ok.inj h
    exact Or.inl (Suits.flag false hk)
  next htrue hfalse =>
  cases hnumber : numberOf? raw.toList with
  | some r =>
    rw [hnumber] at h
    exact suits_number (Or.inr hk) (by rw [hnumber, ← h])
  | none =>
    simp only [hnumber] at h
    split at h
    · obtain ⟨c, -, rfl⟩ := structured_ok h
      exact Or.inl (Suits.color c (Or.inr hk))
    · next hcolor =>
      obtain rfl := Except.ok.inj h
      have hword : raw.toList ∉ ["null".toList, "true".toList, "false".toList] := by
        simp only [List.mem_cons, List.not_mem_nil, or_false, not_or]
        exact ⟨hn, fun h => htrue (String.toList_injective h),
          fun h => hfalse (String.toList_injective h)⟩
      -- Neither of the two forms of a number fits the text.
      obtain ⟨hinteger, hnumeral⟩ : (Integer.ofText? raw.toList).isNone = true
          ∧ (Numeral.ofText? raw.toList).isNone = true := by
        rw [numberOf?] at hnumber
        split at hnumber
        · contradiction
        · next hinteger => simpa [hinteger] using hnumber
      exact Or.inl (Suits.text raw hk
        ⟨hraw, hr, hword, hinteger, hnumeral, Bool.eq_false_iff.2 hcolor⟩)

/-- What is read for a key suits it, but for doubles that are not finite and for fonts. -/
theorem coerce_cases {key raw : String} {v : Value} (hraw : IsRaw raw.toList)
    (h : Coercer.standard.coerce key raw = .ok v) :
    Suits key v
      ∨ (∃ x, v = .real x ∧ x.isFinite = false
        ∧ (keyKind? key = some .number ∨ keyKind? key = none))
      ∨ ∃ f, v = .font f ∧ keyKind? key = some .font ∧ Literal.font raw.toList = .ok f := by
  rw [← String.ofList_toList (s := raw)] at h
  -- The short cuts come first: a reference, for which the empty store has no value, and null.
  by_cases hr : raw.toList.head? = some '$'
  · rw [coerce_reference hr] at h
    obtain rfl := Except.ok.inj h
    exact Or.inl Suits.null
  by_cases hn : raw.toList = "null".toList
  · rw [hn, coerce_null] at h
    obtain rfl := Except.ok.inj h
    exact Or.inl Suits.null
  rw [coerce_of_ne hr hn, String.ofList_toList] at h
  -- All other texts are read by the rule for the key.
  cases hk : keyKind? key with
  | none =>
    rw [hk] at h
    rcases suits_literal hk hraw hr hn h with hv | ⟨x, hv, hx⟩
    · exact Or.inl hv
    · exact Or.inr (Or.inl ⟨x, hv, hx, Or.inr rfl⟩)
  | some kind =>
    rw [hk] at h
    cases kind with
    | color =>
      obtain ⟨c, -, rfl⟩ := structured_ok h
      exact Or.inl (Suits.color c (Or.inl hk))
    | insets =>
      obtain ⟨i, hi, rfl⟩ := structured_ok h
      exact Or.inl (Suits.insets i hk (isWritable_of_insets hi))
    | dimension =>
      obtain ⟨d, hd, rfl⟩ := structured_ok h
      exact Or.inl (Suits.dimension d hk (isWritable_of_dimension hd))
    | font =>
      obtain ⟨f, hf, rfl⟩ := structured_ok h
      exact Or.inr (Or.inr ⟨f, rfl, rfl, hf⟩)
    | number =>
      have h : readNumber key raw = .ok v := h
      cases hnumber : numberOf? raw.toList with
      | none => simp [readNumber, hnumber] at h
      | some r =>
        rw [readNumber, hnumber] at h
        rcases suits_number (Or.inl hk) (hnumber.trans (congrArg some h)) with hv | ⟨x, hv, hx⟩
        · exact Or.inl hv
        · exact Or.inr (Or.inl ⟨x, hv, hx, Or.inl rfl⟩)

/-! ## Faithful values -/

/-- The font whose only family is the word for no value. It is written as that word. -/
def Font.nullFamily : Font := ⟨["null"], none, none, false, false⟩

/-- The value is read again from its own text: a double has to be finite, and a font must not be
taken for another font or for no value. -/
def Value.isFaithful : Value → Bool
  | .real x => x.isFinite
  | .font f => f.isUnambiguous && f ≠ Font.nullFamily
  | _ => true

theorem Suits.isFaithful {key : String} {v : Value} (h : Suits key v) : v.isFaithful = true := by
  cases h with
  | real x _ hx => exact hx
  | null | color | insets | dimension | whole | flag | text => rfl

/-- The text of a double that is not finite is read as no number. -/
theorem not_coerce_of_not_finite {key : String}
    (hk : keyKind? key = some .number ∨ keyKind? key = none) {x : Double}
    (hx : x.isFinite = false) {w : Value}
    (h : Coercer.standard.coerce key (String.ofList (doubleText x)) = .ok w) :
    w.same (.real x) = false := by
  have hword : doubleText x = "inf".toList ∨ doubleText x = "-inf".toList
      ∨ doubleText x = "nan".toList := by
    cases x with
    | finite negative rank => contradiction
    | infinite negative => cases negative <;> decide
    | nan => decide
  rcases hword with hword | hword | hword <;> rw [hword] at h <;>
    rw [coerce_of_ne (by decide) (by decide)] at h <;> rcases hk with hk | hk <;> rw [hk] at h
  all_goals first
    | contradiction
    | (obtain rfl := Except.ok.inj h; rfl)

theorem font_nullFamily : Literal.font "null".toList = .ok Font.nullFamily := by
  have hspelled : Font.nullFamily.Spelled :=
    ⟨by simp [Font.nullFamily], by simp [Font.nullFamily], Or.inl rfl, by
      intro name hname
      obtain rfl := List.mem_singleton.1 hname
      decide⟩
  obtain ⟨text, htext, hread⟩ := font_readsBack hspelled (by decide)
  have hnull : Font.nullFamily.format = .ok "null".toList := by decide
  rw [hnull] at htext
  obtain rfl := Except.ok.inj htext
  exact hread

/-- No font starts with the mark of a reference. -/
theorem head_of_font {s : List Char} {f : Font} (h : Literal.font s = .ok f) :
    s.head? ≠ some '$' := by
  intro hs
  obtain ⟨r, rfl⟩ := List.head?_eq_some_iff.1 hs
  obtain ⟨ls, hls, -⟩ := font_eq_ok_iff.1 h
  have hnone : nextToken? Place.font.admits ('$' :: r) = none :=
    nextToken?_fontStyle_none ⟨rfl, by decide, by decide, by decide⟩ rfl (by decide) r
  exact not_lexes_of_none (List.cons_ne_nil _ _) (by simp [isGap]) hnone hls

/-! ## Equality of values that were read -/

theorem Suits.same_self {key : String} {v : Value} (h : Suits key v) : v.same v = true := by
  cases h with
  | real x _ hx => exact Double.same_self hx
  | null => rfl
  | color | insets | dimension | whole | flag | text =>
    simp [Value.same, Value.sameAtom, Value.number?, Number.same]

theorem sameOption_self {o : Option Number} (hreal : ∀ n ∈ o, ∃ x, n = .real x)
    (hfinite : o.all Number.isFinite = true) : sameOption Number.same o o = true := by
  cases o with
  | none => rfl
  | some n =>
    obtain ⟨x, rfl⟩ := hreal n rfl
    exact Double.same_self hfinite

theorem Font.Spelled.same_self {f : Font} (hf : f.Spelled) (hu : f.isUnambiguous = true) :
    (Value.font f).same (.font f) = true := by
  rw [Font.isUnambiguous, Bool.and_eq_true, Bool.and_eq_true] at hu
  have hsize : sameOption Number.same f.size f.size = true :=
    sameOption_self (fun n hn => (hf.size n hn).imp fun x hx => hx.1) hu.1.1
  have hrelative : sameOption Number.same f.relativeSize f.relativeSize = true :=
    sameOption_self hf.relativeSize hu.1.2
  show f.same f = true
  simp [Font.same, hsize, hrelative]

/-- A value is equal to a font only if it is a font with equal sizes and the same families. -/
theorem font_of_same {w : Value} {f : Font} (h : w.same (.font f) = true) :
    ∃ g, w = .font g ∧ g.families = f.families ∧ sameOption Number.same g.size f.size = true
      ∧ sameOption Number.same g.relativeSize f.relativeSize = true := by
  cases w with
  | font g =>
    have h : g.same f = true := h
    simp only [Font.same, Bool.and_eq_true, decide_eq_true_eq] at h
    exact ⟨g, rfl, h.1.1.1.1, h.1.1.1.2, h.1.1.2⟩
  | null | flag | whole | real | text | color | insets | dimension | list | tuple | dict
  | foreign => contradiction

/-- No optional number is equal to a missing one. -/
theorem eq_none_of_same {o : Option Number} (h : sameOption Number.same none o = true) :
    o = none := by
  cases o with
  | none => rfl
  | some n => contradiction

/-- A font is unambiguous if the font that is read from its text has equal sizes and the same
families. -/
theorem isUnambiguous_of_same {f g : Font} (hf : f.Spelled) {text : List Char}
    (ht : f.format = .ok text) (hg : Literal.font text = .ok g)
    (hfamilies : g.families = f.families)
    (hsize : sameOption Number.same g.size f.size = true)
    (hrelative : sameOption Number.same g.relativeSize f.relativeSize = true) :
    f.isUnambiguous = true := by
  -- A size that is not finite would be lost, and a missing size is equal to a missing one only.
  have hfinite : (f.size.all Number.isFinite && f.relativeSize.all Number.isFinite) = true := by
    by_contra hno
    rw [Bool.not_eq_true] at hno
    obtain ⟨hs, hr⟩ := sizes_of_not_finite hf hno ht hg
    rw [hs] at hsize
    rw [hr] at hrelative
    rw [eq_none_of_same hsize, eq_none_of_same hrelative] at hno
    contradiction
  rw [Font.isUnambiguous, hfinite, Bool.true_and]
  cases hs : f.size with
  | some n => rfl
  | none =>
    cases hr : f.relativeSize with
    | some n => rfl
    | none =>
      cases hnames : f.families with
      | nil => rfl
      | cons name names =>
        have hstyle : startsWithStyle name.toList = false := by
          by_contra hyes
          rw [Bool.not_eq_false] at hyes
          exact families_ne_of_startsWithStyle hf hs hr hnames hyes ht hg hfamilies
        simp [hstyle]

/-! ## Reading again -/

/-- The text that a value is written as can stand in a statement. If the value is faithful it is
read from that text for the key, and if it is not, nothing equal to it is. -/
structure IsTextFor (key : String) (v : Value) (text : List Char) : Prop where
  written : v.formatChars = .ok text
  raw : IsRaw text
  reads : v.isFaithful = true → Coercer.standard.coerce key (String.ofList text) = .ok v
  same_self : v.isFaithful = true → v.same v = true
  faithful : ∀ w, Coercer.standard.coerce key (String.ofList text) = .ok w → w.same v = true →
    v.isFaithful = true

/-- The text of a font that was read. -/
theorem exists_fontText {key : String} (hk : keyKind? key = some .font) {s : List Char}
    (hs : IsRaw s) {f : Font} (hf : Literal.font s = .ok f) :
    ∃ text, IsTextFor key (.font f) text := by
  have hfree : ∀ c ∈ s, c ≠ ';' := fun c hc h => hs.free c hc (List.mem_singleton.2 h)
  obtain ⟨hspelled, hnames⟩ := spelled_of_font hf (P := (· ≠ ';')) (by decide) hfree
  obtain ⟨text, htext, hraw⟩ := hspelled.exists_format hnames
  have hunambiguous : (Value.font f).isFaithful = true →
      f.isUnambiguous = true ∧ f ≠ Font.nullFamily := by
    intro hfaithful
    rwa [Value.isFaithful, Bool.and_eq_true, decide_eq_true_eq] at hfaithful
  refine ⟨text, htext, hraw, ?_, fun h => hspelled.same_self (hunambiguous h).1, ?_⟩
  · -- The font is read back from its text, unless the text is taken for null before that.
    intro hfaithful
    obtain ⟨hu, hne⟩ := hunambiguous hfaithful
    obtain ⟨t, ht, hread⟩ := font_readsBack hspelled hu
    rw [htext] at ht
    obtain rfl := Except.ok.inj ht
    have hnull : text ≠ "null".toList := by
      rintro rfl
      rw [font_nullFamily] at hread
      exact hne (Except.ok.inj hread).symm
    rw [coerce_of_ne (head_of_font hread) hnull, hk]
    show readFont key _ = _
    rw [readFont, structured, String.toList_ofList, hread]
  · intro w hw hsame
    obtain ⟨g, rfl, hfamilies, hsize, hrelative⟩ := font_of_same hsame
    -- What is read again is a font, so the text is no reference and not the word for null.
    have hr : text.head? ≠ some '$' := by
      intro hr
      rw [coerce_reference hr] at hw
      exact Value.noConfusion (Except.ok.inj hw)
    have hn : text ≠ "null".toList := by
      intro hn
      rw [hn, coerce_null] at hw
      exact Value.noConfusion (Except.ok.inj hw)
    have hg : Literal.font text = .ok g := by
      rw [coerce_of_ne hr hn, hk] at hw
      have hw : structured Literal.font .font key (String.ofList text) = .ok (.font g) := hw
      obtain ⟨a, ha, he⟩ := structured_ok hw
      rw [← String.toList_ofList (l := text), ha, Value.font.inj he]
    have hne : f ≠ Font.nullFamily := by
      rintro rfl
      exact hn (Except.ok.inj htext).symm
    rw [Value.isFaithful, isUnambiguous_of_same hspelled htext hg hfamilies hsize hrelative,
      Bool.true_and, decide_eq_true_eq]
    exact hne

/-- **Which values survive.** Every value that was read for a key has a text, from which it is read
again exactly if it is faithful. -/
theorem coerce_reread {key raw : String} {v : Value} (hraw : IsRaw raw.toList)
    (h : Coercer.standard.coerce key raw = .ok v) : ∃ text, IsTextFor key v text := by
  rcases coerce_cases hraw h with hv | ⟨x, rfl, hx, hk⟩ | ⟨f, rfl, hk, hf⟩
  · obtain ⟨text, htext, hpart, hread⟩ := hv.reads_back
    exact ⟨text, htext, hpart, fun _ => hread, fun _ => hv.same_self, fun _ _ _ => hv.isFaithful⟩
  · have hno : (Value.real x).isFaithful ≠ true := by
      rw [Value.isFaithful, hx]
      decide
    refine ⟨doubleText x, rfl, isPart_doubleText x, fun h => absurd h hno,
      fun h => absurd h hno, ?_⟩
    intro w hw hsame
    rw [not_coerce_of_not_finite hk hx hw] at hsame
    contradiction
  · exact exists_fontText hk hraw hf

end Styling
