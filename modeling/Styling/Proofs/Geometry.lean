import Styling.Proofs.Sequences
import Styling.Proofs.TokenRows

/-!
# The grammar of insets and dimensions

Insets are four integers with commas between them, dimensions two. Gaps can stand around integers
and commas, but not between a sign and its digits, and an integer has no more digits than are read
(`WrittenInteger`). A text that is written so is read as the integers in their order, and all other
texts are refused with the key and the text (`readGeometry_grammar`); the texts of the formatter are
among those that are read.
-/

set_option autoImplicit false

namespace Styling.Literal

open Styling.Decimal Styling.Text

/-! ## Integers -/

/-- An integer as it is written: a sign, if there is one, and right after it the digits. -/
structure WrittenInteger extends Integer where
  isSign : IsSign sign
  isDigits : IsDigits digits
  withinLimit : digits.length ≤ digitLimit

namespace WrittenInteger

def text (i : WrittenInteger) : List Char := i.sign.toList ++ i.digits

def value (i : WrittenInteger) : Int := i.toInteger.value

theorem rowText (i : WrittenInteger) : RowText .integer i.text := .integer i.isSign i.isDigits

theorem integerOf_text (i : WrittenInteger) : integerOf i.text = .ok i.value :=
  (integerOf_eq_ok_iff i.isSign i.isDigits).2 ⟨i.withinLimit, rfl⟩

theorem isWritable_value (i : WrittenInteger) : isWritable i.value = true :=
  Integer.isWritable_of_read (if_pos i.withinLimit)

end WrittenInteger

/-- The text of an integer within the digit limit is one of the ways to write it. -/
theorem exists_written_intText {n : Int} (h : isWritable n = true) :
    ∃ i : WrittenInteger, i.text = intText n ∧ i.value = n := by
  have hlen : (natText n.natAbs).length ≤ digitLimit :=
    (length_natText_le_iff (by decide)).2 (by simpa [isWritable] using h)
  have hdigits : IsDigits (natText n.natAbs) := ⟨natText_ne_nil n.natAbs, fun _ => natText_basic⟩
  refine ⟨⟨⟨signOf n, natText n.natAbs⟩, isSign_signOf n, hdigits, hlen⟩, (intText_eq n).symm, ?_⟩
  show (if signOf n = some '-' then -(digitsValue (natText n.natAbs) : Int)
    else digitsValue (natText n.natAbs)) = n
  rw [digitsValue_natText, signOf]
  by_cases hn : n < 0
  · rw [if_pos hn, if_pos rfl]
    omega
  · rw [if_neg hn, if_neg (by simp)]
    omega

theorem exists_written {t : List Char} (ht : RowText .integer t) {n : Int}
    (h : integerOf t = .ok n) : ∃ i : WrittenInteger, i.text = t ∧ i.value = n := by
  cases ht with
  | integer hs hd =>
    obtain ⟨hlen, rfl⟩ := (integerOf_eq_ok_iff hs hd).1 h
    exact ⟨⟨⟨_, _⟩, hs, hd, hlen⟩, rfl, rfl⟩

/-- The text is made of the integers, with commas between them and gaps around all parts. -/
def WritesIntegers (is : List WrittenInteger) (s : List Char) : Prop :=
  Gapped (commaSeparated (is.map WrittenInteger.text)) s

/-- The values of texts of integers are those of the integers that are written so. -/
theorem mapM_integerOf_eq_ok_iff {texts : List (List Char)}
    (htexts : ∀ t ∈ texts, RowText .integer t) {ns : List Int} :
    texts.mapM integerOf = .ok ns ↔
      ∃ is : List WrittenInteger,
        is.map WrittenInteger.text = texts ∧ is.map WrittenInteger.value = ns := by
  rw [mapM_eq_ok_iff]
  constructor
  · intro h
    induction h with
    | nil => exact ⟨[], rfl, rfl⟩
    | @cons t n texts ns hn _ ih =>
      obtain ⟨i, rfl, rfl⟩ := exists_written (htexts t List.mem_cons_self) hn
      obtain ⟨is, rfl, rfl⟩ := ih fun u hu => htexts u (List.mem_cons_of_mem _ hu)
      exact ⟨i :: is, rfl, rfl⟩
  · rintro ⟨is, rfl, rfl⟩
    rw [List.forall₂_map_left_iff, List.forall₂_map_right_iff, List.forall₂_same]
    exact fun i _ => i.integerOf_text

section Lists

variable {α : Type} {n : Nat} {f : List Token → Except LiteralFault α}
  {g : List Int → Except LiteralFault α} {s : List Char} {a : α}

/-- **Integers with commas between them.** A value that is made of the integers of such a list is
made of those that the text is made of. -/
theorem integers_eq_ok_iff (hn : IsRowOfKinds (listKinds .integer n))
    (hf : ∀ tokens, f tokens = (textsOf .integer tokens).mapM integerOf >>= g) :
    (readTokens (.sequence (listKinds .integer n)) s >>= f) = .ok a ↔
      ∃ is, is.length = n ∧ WritesIntegers is s ∧ g (is.map WrittenInteger.value) = .ok a := by
  have hunplaced : ∀ tokens, f tokens = f ((tokens.map Token.lexeme).map unplaced) :=
    fun tokens => by rw [hf, hf, ← textsOf_unplaced]
  have htexts := textsOf_numberLexemes (k := .integer) (by decide)
  rw [bind_readTokens_eq_ok_iff hunplaced]
  constructor
  · rintro ⟨ls, hls, ha⟩
    obtain ⟨texts, ⟨rfl, hrow⟩, hs, rfl⟩ := (lexes_numbers_iff hn).1 hls
    rw [hf, htexts] at ha
    obtain ⟨ns, hns, ha⟩ := exists_ok_of_bind ha
    obtain ⟨is, rfl, rfl⟩ := (mapM_integerOf_eq_ok_iff hrow).1 hns
    exact ⟨is, (List.length_map _).symm, hs, ha⟩
  · rintro ⟨is, rfl, hs, ha⟩
    have hrow : ∀ t ∈ is.map WrittenInteger.text, RowText .integer t := by
      intro t ht
      obtain ⟨i, -, rfl⟩ := List.mem_map.1 ht
      exact i.rowText
    refine ⟨_, (lexes_numbers_iff hn).2 ⟨_, ⟨List.length_map _, hrow⟩, hs, rfl⟩, ?_⟩
    rw [hf, htexts, (mapM_integerOf_eq_ok_iff hrow).2 ⟨is, rfl, rfl⟩]
    exact ha

/-- Integers within the digit limit are read back. -/
theorem integers_join (hn : IsRowOfKinds (listKinds .integer n))
    (hf : ∀ tokens, f tokens = (textsOf .integer tokens).mapM integerOf >>= g) {ns : List Int}
    (hlen : ns.length = n) (h : ∀ n ∈ ns, isWritable n = true) (ha : g ns = .ok a) :
    (readTokens (.sequence (listKinds .integer n)) (join [','] (ns.map intText)) >>= f)
      = .ok a := by
  obtain ⟨is, his⟩ := exists_forall₂ fun n hn => exists_written_intText (h n hn)
  have htexts : is.map WrittenInteger.text = ns.map intText :=
    map_eq_of_forall₂ his fun _ _ hi => hi.1
  have hvalues : is.map WrittenInteger.value = ns :=
    (map_eq_of_forall₂ his fun _ _ hi => hi.2).trans (List.map_id ns)
  refine (integers_eq_ok_iff hn hf).2 ⟨is, his.length_eq.symm.trans hlen, ?_, by rwa [hvalues]⟩
  rw [WritesIntegers, htexts, join_eq_flatten]
  exact gapped_flatten _

end Lists

/-! ## Insets and dimensions -/

theorem insets_eq_ok_iff {s : List Char} {i : Insets} :
    insets s = .ok i ↔
      ∃ top left bottom right : WrittenInteger, WritesIntegers [top, left, bottom, right] s ∧
        i = ⟨top.value, left.value, bottom.value, right.value⟩ := by
  refine (integers_eq_ok_iff (n := 4) (by decide) fun _ => rfl).trans ⟨?_, ?_⟩
  · rintro ⟨is, hlen, hs, hi⟩
    match is, hlen with
    | [top, left, bottom, right], _ => exact ⟨top, left, bottom, right, hs, (Except.ok.inj hi).symm⟩
  · rintro ⟨top, left, bottom, right, hs, rfl⟩
    exact ⟨[top, left, bottom, right], rfl, hs, rfl⟩

theorem dimension_eq_ok_iff {s : List Char} {d : Dimension} :
    dimension s = .ok d ↔
      ∃ width height : WrittenInteger, WritesIntegers [width, height] s ∧
        d = ⟨width.value, height.value⟩ := by
  refine (integers_eq_ok_iff (n := 2) (by decide) fun _ => rfl).trans ⟨?_, ?_⟩
  · rintro ⟨is, hlen, hs, hd⟩
    match is, hlen with
    | [width, height], _ => exact ⟨width, height, hs, (Except.ok.inj hd).symm⟩
  · rintro ⟨width, height, hs, rfl⟩
    exact ⟨[width, height], rfl, hs, rfl⟩

/-- **Insets are read back from their text.** -/
theorem insets_join {i : Insets}
    (h : ∀ n ∈ [i.top, i.left, i.bottom, i.right], isWritable n = true) :
    insets (join [','] ([i.top, i.left, i.bottom, i.right].map intText)) = .ok i :=
  integers_join (n := 4) (by decide) (fun _ => rfl) rfl h rfl

/-- **Dimensions are read back from their text.** -/
theorem dimension_join {d : Dimension} (h : ∀ n ∈ [d.width, d.height], isWritable n = true) :
    dimension (join [','] ([d.width, d.height].map intText)) = .ok d :=
  integers_join (n := 2) (by decide) (fun _ => rfl) rfl h rfl

theorem isWritable_of_insets {s : List Char} {i : Insets} (h : insets s = .ok i) :
    ∀ n ∈ [i.top, i.left, i.bottom, i.right], isWritable n = true := by
  obtain ⟨top, left, bottom, right, -, rfl⟩ := insets_eq_ok_iff.1 h
  simp [WrittenInteger.isWritable_value]

theorem isWritable_of_dimension {s : List Char} {d : Dimension} (h : dimension s = .ok d) :
    ∀ n ∈ [d.width, d.height], isWritable n = true := by
  obtain ⟨width, height, -, rfl⟩ := dimension_eq_ok_iff.1 h
  simp [WrittenInteger.isWritable_value]

end Styling.Literal

namespace Styling

open Styling.Decimal Styling.Literal Styling.Text

/-! ## Texts and values -/

def WritesInsets (raw : String) (v : Value) : Prop :=
  ∃ top left bottom right : WrittenInteger, WritesIntegers [top, left, bottom, right] raw.toList ∧
    v = .insets ⟨top.value, left.value, bottom.value, right.value⟩

def WritesDimension (raw : String) (v : Value) : Prop :=
  ∃ width height : WrittenInteger, WritesIntegers [width, height] raw.toList ∧
    v = .dimension ⟨width.value, height.value⟩

/-- Integers within the digit limit have a text for which it depends on the reader alone whether it
is read back. -/
theorem format_of_writable {v : Value} {ns : List Int} (hv : v.formatChars = formatInts ns)
    (h : ∀ n ∈ ns, isWritable n = true) :
    v.format = .ok (String.ofList (join [','] (ns.map intText))) := by
  rw [Value.format, hv, formatInts_ok h]
  rfl

/-- **The texts of insets and dimensions.** Insets are read from the texts of four integers with
commas between them and gaps around them, a dimension from those of two, and both from no other
text. What is written of insets and of a dimension is read back. -/
theorem readGeometry_grammar :
    ReadsExactly readInsets WritesInsets ∧ ReadsExactly readDimension WritesDimension ∧
    (∀ i : Insets, (∀ n ∈ [i.top, i.left, i.bottom, i.right], isWritable n = true) →
      ∃ text, (Value.insets i).format = .ok text ∧ ∀ key, readInsets key text = .ok (.insets i)) ∧
    ∀ d : Dimension, (∀ n ∈ [d.width, d.height], isWritable n = true) →
      ∃ text, (Value.dimension d).format = .ok text ∧
        ∀ key, readDimension key text = .ok (.dimension d) := by
  refine ⟨readsExactly_structured fun raw v => ?_, readsExactly_structured fun raw v => ?_,
    fun i hi => ?_, fun d hd => ?_⟩
  · simp only [insets_eq_ok_iff]
    constructor
    · rintro ⟨top, left, bottom, right, hs, rfl⟩
      exact ⟨_, ⟨top, left, bottom, right, hs, rfl⟩, rfl⟩
    · rintro ⟨_, ⟨top, left, bottom, right, hs, rfl⟩, rfl⟩
      exact ⟨top, left, bottom, right, hs, rfl⟩
  · simp only [dimension_eq_ok_iff]
    constructor
    · rintro ⟨width, height, hs, rfl⟩
      exact ⟨_, ⟨width, height, hs, rfl⟩, rfl⟩
    · rintro ⟨_, ⟨width, height, hs, rfl⟩, rfl⟩
      exact ⟨width, height, hs, rfl⟩
  · have hformat : (Value.insets i).formatChars
        = formatInts [i.top, i.left, i.bottom, i.right] := by rw [Value.formatChars]
    refine ⟨_, format_of_writable hformat hi, fun key => ?_⟩
    rw [readInsets, structured, String.toList_ofList, insets_join hi]
  · have hformat : (Value.dimension d).formatChars = formatInts [d.width, d.height] := by
      rw [Value.formatChars]
    refine ⟨_, format_of_writable hformat hd, fun key => ?_⟩
    rw [readDimension, structured, String.toList_ofList, dimension_join hd]

/-- Insets and a dimension with signs and a zero among their integers are read back. -/
theorem readGeometry_written_signed :
    (∃ text, (Value.insets ⟨-1, 0, 20, 3⟩).format = .ok text ∧
      ∀ key, readInsets key text = .ok (.insets ⟨-1, 0, 20, 3⟩)) ∧
    ∃ text, (Value.dimension ⟨640, -480⟩).format = .ok text ∧
      ∀ key, readDimension key text = .ok (.dimension ⟨640, -480⟩) :=
  ⟨readGeometry_grammar.2.2.1 ⟨-1, 0, 20, 3⟩ (by decide +kernel),
    readGeometry_grammar.2.2.2 ⟨640, -480⟩ (by decide +kernel)⟩

example : readInsets "margin" " +1,\t-02 ,3,4\n" = .ok (.insets ⟨1, -2, 3, 4⟩) := by cbv

example : (readDimension "size" "1, - 2").toOption = none := by cbv

end Styling
