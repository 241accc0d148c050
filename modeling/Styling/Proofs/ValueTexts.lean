import Mathlib
import Styling.Proofs.Values

/-!
# What parses can be formatted

Lists, tuples, dictionaries and objects have no style text, an integer can have too many digits for
one, and so can the size of a font. No text of a style has such a value: the built-in rules read
values that can be formatted only (`formattable_of_readValue`), and for the rest a text refers to
the store (`Coercer.formattable_of_coerce`). So every mapping that was read can be written if the
values of the store can, and the only value with an empty text is the empty text of the store
(`Coercer.exists_formatStyle_of_readStyle`).
-/

set_option autoImplicit false

namespace Styling

open Styling.Decimal Styling.Literal Styling.Text

/-! ## Values that can be formatted -/

/-- A value of a kind that has a style text, all of whose integers are within the digit limit. The
sizes of a font are doubles. -/
inductive Value.Formattable : Value → Prop where
  | null : Formattable .null
  | flag (b : Bool) : Formattable (.flag b)
  | whole (n : Int) (h : Decimal.isWritable n = true) : Formattable (.whole n)
  | real (x : Double) : Formattable (.real x)
  | text (s : String) : Formattable (.text s)
  | color (c : Color) : Formattable (.color c)
  | insets (i : Insets) (h : ∀ n ∈ [i.top, i.left, i.bottom, i.right], Decimal.isWritable n = true) :
      Formattable (.insets i)
  | dimension (d : Dimension) (h : ∀ n ∈ [d.width, d.height], Decimal.isWritable n = true) :
      Formattable (.dimension d)
  | font (f : Font) (hs : ∀ n ∈ f.size, ∃ x, n = .real x)
      (hr : ∀ n ∈ f.relativeSize, ∃ x, n = .real x) : Formattable (.font f)

theorem join_ne_nil {sep : List Char} {ps : List (List Char)} (hne : ps ≠ [])
    (hps : ∀ p ∈ ps, p ≠ []) : join sep ps ≠ [] := by
  cases ps with
  | nil => contradiction
  | cons p ps =>
    rw [join_cons]
    exact List.append_ne_nil_of_left_ne_nil (hps p List.mem_cons_self) _

/-- Even the empty family has a text, which is a pair of quotation marks. -/
theorem familyText_ne_nil (name : List Char) : familyText name ≠ [] := by
  rw [familyText]
  split
  · next hbare =>
    rintro rfl
    contradiction
  · rw [quotedFamily_eq]
    exact List.cons_ne_nil _ _

/-- A font with doubles as sizes has a text, which is not empty. -/
theorem Font.exists_text {f : Font} (hs : ∀ n ∈ f.size, ∃ x, n = .real x)
    (hr : ∀ n ∈ f.relativeSize, ∃ x, n = .real x) : ∃ text, f.format = .ok text ∧ text ≠ [] := by
  obtain ⟨size, hsize, hparts⟩ := Font.exists_sizePart hs hr
  refine ⟨_, Font.format_eq hsize, ?_⟩
  rw [partsText]
  split
  · decide
  · next hne =>
    refine join_ne_nil (by simpa using hne) fun p hp => ?_
    rw [List.mem_append, List.mem_append] at hp
    rcases hp with (hp | hp) | hp
    · exact isWord_ne_nil (isWord_of_style (styles_subset f p hp))
    · exact (hparts p hp).nonempty
    · rw [Font.familyPart] at hp
      split at hp
      · contradiction
      · next hnames =>
        obtain rfl := List.mem_singleton.1 hp
        refine join_ne_nil (by simpa using hnames) fun t ht => ?_
        obtain ⟨name, -, rfl⟩ := List.mem_map.1 ht
        exact familyText_ne_nil name.toList

/-- **Every such value has a text**, and only the empty text has an empty one. -/
theorem Value.Formattable.exists_text {v : Value} (h : v.Formattable) :
    ∃ text, v.formatChars = .ok text ∧ (text = [] → v = .text "") := by
  -- But for texts, whose characters are those of the value, the text is never empty.
  have hnonempty {text : List Char} (hv : v.formatChars = .ok text) (hne : text ≠ []) :
      ∃ text, v.formatChars = .ok text ∧ (text = [] → v = .text "") :=
    ⟨text, hv, fun he => absurd he hne⟩
  cases h with
  | null => exact hnonempty rfl (by decide)
  | flag b => exact hnonempty rfl (by cases b <;> decide)
  | whole n hn =>
    have hn : ∀ m ∈ [n], Decimal.isWritable m = true := List.forall_mem_singleton.2 hn
    exact hnonempty (by rw [Value.formatChars]; exact formatInts_ok hn)
      (isPart_join_intText (List.cons_ne_nil _ _)).nonempty
  | real x => exact hnonempty rfl (isPart_doubleText x).nonempty
  | text s => exact ⟨s.toList, rfl, fun hs => by rw [String.toList_eq_nil_iff.1 hs]⟩
  | color c => exact hnonempty rfl (isRaw_hex c).nonempty
  | insets i hi =>
    exact hnonempty (by rw [Value.formatChars]; exact formatInts_ok hi)
      (isPart_join_intText (List.cons_ne_nil _ _)).nonempty
  | dimension d hd =>
    exact hnonempty (by rw [Value.formatChars]; exact formatInts_ok hd)
      (isPart_join_intText (List.cons_ne_nil _ _)).nonempty
  | font f hs hr =>
    obtain ⟨text, htext, hne⟩ := Font.exists_text hs hr
    exact hnonempty htext hne

/-! ## What is read can be formatted -/

theorem formattable_of_numberOf? {s : List Char} {v : Value} (h : numberOf? s = some (.ok v)) :
    v.Formattable := by
  rcases numberOf?_ok h with ⟨n, rfl, hn⟩ | ⟨x, rfl⟩
  · exact .whole n hn
  · exact .real x

/-- A literal of no kind can be formatted; if it is a text, it is the text that was read. -/
theorem formattable_of_readLiteral {key raw : String} {v : Value} (h : readLiteral key raw = .ok v) :
    v.Formattable ∧ ∀ s, v = .text s → s = raw := by
  rw [readLiteral] at h
  split at h
  · obtain rfl := Except.ok.inj h
    exact ⟨.flag true, by simp⟩
  split at h
  · obtain rfl := Except.ok.inj h
    exact ⟨.flag false, by simp⟩
  cases hnumber : numberOf? raw.toList with
  | some r =>
    simp only [hnumber] at h
    rw [h] at hnumber
    refine ⟨formattable_of_numberOf? hnumber, ?_⟩
    rintro s rfl
    rcases numberOf?_ok hnumber with ⟨n, hn, -⟩ | ⟨x, hx⟩ <;> contradiction
  | none =>
    simp only [hnumber] at h
    split at h
    · obtain ⟨c, -, rfl⟩ := structured_ok h
      exact ⟨.color c, by simp⟩
    · obtain rfl := Except.ok.inj h
      exact ⟨.text raw, fun s hs => (Value.text.inj hs).symm⟩

/-- A value of a key with a kind can be formatted, and it is no text. -/
theorem KeyKind.formattable_of_converter {kind : KeyKind} {key raw : String} {v : Value}
    (h : kind.rule.converter key raw = .ok v) : v.Formattable ∧ ∀ s, v ≠ .text s := by
  cases kind with
  | color =>
    obtain ⟨c, -, rfl⟩ := structured_ok h
    exact ⟨.color c, by simp⟩
  | insets =>
    obtain ⟨i, hi, rfl⟩ := structured_ok h
    exact ⟨.insets i (isWritable_of_insets hi), by simp⟩
  | dimension =>
    obtain ⟨d, hd, rfl⟩ := structured_ok h
    exact ⟨.dimension d (isWritable_of_dimension hd), by simp⟩
  | font =>
    obtain ⟨f, hf, rfl⟩ := structured_ok h
    obtain ⟨hspelled, -⟩ := spelled_of_font hf (P := fun _ => True) trivial fun _ _ => trivial
    refine ⟨.font f (fun n hn => ?_) hspelled.relativeSize, by simp⟩
    obtain ⟨x, hx, -⟩ := hspelled.size n hn
    exact ⟨x, hx⟩
  | number =>
    have h : (numberOf? raw.toList).getD _ = .ok v := h
    cases hnumber : numberOf? raw.toList with
    | none => simp [hnumber] at h
    | some r =>
      rw [hnumber, Option.getD_some] at h
      rw [h] at hnumber
      refine ⟨formattable_of_numberOf? hnumber, ?_⟩
      rintro s rfl
      rcases numberOf?_ok hnumber with ⟨n, hn, -⟩ | ⟨x, hx⟩ <;> contradiction

/-- **The built-in rules read values that can be formatted**, and a text only as itself. -/
theorem formattable_of_readValue {key raw : String} {v : Value}
    (h : readValue builtinRules key raw = .ok v) : v.Formattable ∧ ∀ s, v = .text s → s = raw := by
  rw [readValue] at h
  split at h
  · obtain rfl := Except.ok.inj h
    exact ⟨.null, by simp⟩
  rw [converterFor_builtin] at h
  cases hk : keyKind? key with
  | none =>
    rw [hk] at h
    exact formattable_of_readLiteral h
  | some kind =>
    rw [hk] at h
    obtain ⟨hv, hno⟩ := KeyKind.formattable_of_converter h
    exact ⟨hv, fun s hs => absurd hs (hno s)⟩

/-! ## Texts with references -/

variable {c : Coercer}

/-- The value is what the store has for the name that the text refers to. -/
def Coercer.IsStored (c : Coercer) (raw : String) (v : Value) : Prop :=
  ∃ name, c.referenceName? raw = some name ∧ c.defaults.get? name = some v

theorem Coercer.formattable_of_coerce (hrules : c.rules = builtinRules)
    (hstore : ∀ name v, c.defaults.get? name = some v → v.Formattable) {key raw : String}
    (hraw : raw ≠ "") {v : Value} (h : c.coerce key raw = .ok v) :
    v.Formattable ∧ (v = .text "" → c.IsStored raw v) := by
  rw [Coercer.coerce] at h
  split at h
  · next name hname =>
    obtain rfl := Except.ok.inj h
    rw [Coercer.named]
    -- A name that the store does not have stands for null.
    cases hget : c.defaults.get? name with
    | none => exact ⟨.null, by simp⟩
    | some v => exact ⟨hstore name v hget, fun _ => ⟨name, hname, hget⟩⟩
  · rw [hrules] at h
    obtain ⟨hv, htext⟩ := formattable_of_readValue h
    exact ⟨hv, fun he => absurd (htext "" he).symm hraw⟩

/-- The value text of a statement is not empty, whatever separates it from the key. -/
theorem splitStatement_ne_empty {keySeparator s : List Char} {key raw : String}
    (h : splitStatement keySeparator s = .ok (key, raw)) : raw ≠ "" := by
  rw [splitStatement] at h
  split at h
  · contradiction
  split at h
  · contradiction
  split at h
  · contradiction
  split at h
  · contradiction
  next hvalue =>
    obtain ⟨-, rfl⟩ := Prod.mk.inj (Except.ok.inj h)
    rw [Ne, String.ofList_eq_empty_iff]
    simpa using hvalue

/-- One of the statements of a text gives this value text for a key. -/
def Coercer.Gives (c : Coercer) (text key raw : String) : Prop :=
  ∃ s ∈ statements c.settings.separator.toList text.toList,
    splitStatement c.settings.keySeparator.toList s = .ok (key, raw)

/-- Every entry of a mapping that was read is what the coercer makes of a statement. -/
theorem Coercer.exists_gives {text : String} {style : Table Value}
    (h : c.readStyle (some text) = .ok (some style)) {key : String} {v : Value}
    (hv : style.get? key = some v) : ∃ raw, c.Gives text key raw ∧ c.coerce key raw = .ok v := by
  obtain ⟨es, -, hread, rfl⟩ := Coercer.readText_eq_some h
  obtain ⟨s, hs, hentry⟩ := exists_of_mem_right (Coercer.readStatements_eq_ok_iff.1 hread)
    (Table.mem_ofList (Table.mem_of_get? hv))
  obtain ⟨raw, hsplit, hcoerce⟩ := Coercer.readStatement_eq_ok hentry
  exact ⟨raw, ⟨s, hs, hsplit⟩, hcoerce⟩

/-- **What parses can be formatted.** Let all values of the store be of kinds that have style texts,
with integers within the digit limit and with doubles as sizes of fonts. Then every mapping that is
read from a text by the built-in rules, under any settings, is written without an error, and so is
each of its values. The text of a value is empty only if the value is an empty text, and one of the
statements refers to it in the store. -/
theorem Coercer.exists_formatStyle_of_readStyle (hrules : c.rules = builtinRules)
    (hstore : ∀ name v, c.defaults.get? name = some v → v.Formattable) {text : String}
    {style : Table Value} (h : c.readStyle (some text) = .ok (some style)) :
    (∃ written, formatStyle style = .ok written) ∧
    ∀ key v, style.get? key = some v → ∃ t, v.format = .ok t ∧
      (t = "" → v = .text "" ∧ ∃ raw, c.Gives text key raw ∧ c.IsStored raw v) := by
  have hentries : ∀ key v, style.get? key = some v → ∃ raw, c.Gives text key raw ∧
      v.Formattable ∧ (v = .text "" → c.IsStored raw v) := by
    intro key v hv
    obtain ⟨raw, ⟨s, hs, hsplit⟩, hcoerce⟩ := Coercer.exists_gives h hv
    exact ⟨raw, ⟨s, hs, hsplit⟩,
      Coercer.formattable_of_coerce hrules hstore (splitStatement_ne_empty hsplit) hcoerce⟩
  constructor
  · have htexts : ∀ e ∈ style.entries, ∃ text, e.2.formatChars = .ok text := by
      intro e he
      obtain ⟨-, -, hv, -⟩ := hentries e.1 e.2 (Table.get?_of_mem he)
      obtain ⟨text, htext, -⟩ := hv.exists_text
      exact ⟨text, htext⟩
    obtain ⟨ss, hss, -⟩ := formatEntries_ok htexts
    exact ⟨_, by rw [formatStyle, hss]; rfl⟩
  · intro key v hv
    obtain ⟨raw, hgives, hformattable, hstored⟩ := hentries key v hv
    obtain ⟨t, ht, hempty⟩ := hformattable.exists_text
    refine ⟨String.ofList t, by rw [Value.format, ht]; rfl, fun he => ?_⟩
    have hnil := hempty (String.ofList_eq_empty_iff.1 he)
    exact ⟨hnil, raw, hgives, hstored hnil⟩

/-- A store with an empty text and a font of an infinite size. The text refers to both of them and
to a name that is not there. -/
theorem Coercer.exists_formatStyle_of_readStyle_stored :
    let title : Font := ⟨["Fira Sans"], some (.real (.infinite false)), none, true, false⟩
    let c : Coercer :=
      ⟨.ofList [("blank", .text ""), ("title", .font title)], builtinRules, .standard⟩
    let text := "hint: $blank; labelFont: $title; arc: 8; iconSize: 16,-4; margin: $none"
    let style : Table Value := .ofList [("hint", .text ""), ("labelFont", .font title),
      ("arc", .whole 8), ("iconSize", .dimension ⟨16, -4⟩), ("margin", .null)]
    (∀ name v, c.defaults.get? name = some v → v.Formattable) ∧
      c.readStyle (some text) = .ok (some style) ∧ (∃ written, formatStyle style = .ok written) ∧
      ∃ t, (Value.text "").format = .ok t ∧ t = "" ∧
        ∃ raw, c.Gives text "hint" raw ∧ c.IsStored raw (.text "") := by
  intro title c text style
  have hstore : ∀ name v, c.defaults.get? name = some v → v.Formattable := by
    intro name v hv
    have hmem : (name, v) ∈ [("blank", Value.text ""), ("title", .font title)] :=
      Table.mem_of_get? hv
    simp only [List.mem_cons, Prod.mk.injEq, List.not_mem_nil, or_false] at hmem
    rcases hmem with ⟨-, rfl⟩ | ⟨-, rfl⟩
    · exact .text ""
    · exact .font title (by simp [title]) (by simp [title])
  have hread : c.readStyle (some text) = .ok (some style) := by
    simp only [c, title, text, style]
    cbv
  obtain ⟨hwritten, hvalues⟩ := Coercer.exists_formatStyle_of_readStyle rfl hstore hread
  obtain ⟨t, ht, hempty⟩ := hvalues "hint" (.text "") rfl
  obtain rfl : "" = t := Except.ok.inj ht
  exact ⟨hstore, hread, hwritten, "", rfl, rfl, (hempty rfl).2⟩

end Styling
