import Styling.Proofs.Quotation
import Styling.Proofs.Values

/-!
# Which fonts survive being written

A font whose sizes are doubles always has a text. `FontSurvives` says, in terms of its families and
sizes alone, when an equal font is read from that text (`readFont_format_iff`). What can go wrong is
that a family cannot be closed by its quotation mark, that the first family starts with a style
word, that there are two sizes of which one is written, that a size is not finite, or that an
absolute size is written with a minus sign and read as a relative one.

The families of a font that was read can be written between quotation marks, so a font with other
families is equal to none that was read; the same goes for two sizes. Of the remaining fonts those
that survive are the unambiguous ones. A negative size needs an argument of its own, since a
negative zero is lost though it equals the other zero (`size_lost_of_isNegative`).
-/

set_option autoImplicit false

namespace Styling

open Styling.Decimal Styling.Literal Styling.Text

/-! ## Families in words -/

/-- One or more words with single spaces between them. -/
def IsWordList (name : List Char) : Prop :=
  ∃ ws, ws ≠ [] ∧ (∀ w ∈ ws, isWord w = true) ∧ name = join [' '] ws

/-- Two or more words with single spaces between them, of which the first is a style word. -/
def StartsWithStyle (name : List Char) : Prop :=
  ∃ first second rest, first ∈ styleWords ∧ (∀ w ∈ second :: rest, isWord w = true) ∧
    name = join [' '] (first :: second :: rest)

theorem isWordList_iff {name : List Char} :
    IsWordList name ↔ (pieces [' '] name).all isWord = true := by
  rw [List.all_eq_true]
  constructor
  · rintro ⟨ws, hne, hws, rfl⟩
    have hfree : ∀ w ∈ ws, ' ' ∉ w := fun w hw hspace =>
      absurd (isWordRest_of_isWord (hws w hw) ' ' hspace) (by decide)
    rwa [pieces_join hne hfree]
  · intro h
    exact ⟨pieces [' '] name, pieces_ne_nil _ _, h, (join_pieces (by simp) name).symm⟩

/-- A family is written bare when it is a list of words and no style word. -/
theorem isBareFamily_iff {name : List Char} :
    isBareFamily name = true ↔ IsWordList name ∧ name ∉ styleWords := by
  rw [isBareFamily, Bool.and_eq_true, isWordList_iff]
  simp

theorem startsWithStyle_iff {name : List Char} :
    startsWithStyle name = true ↔ StartsWithStyle name := by
  rw [startsWithStyle, Bool.and_eq_true, List.contains_eq_mem, decide_eq_true_eq]
  constructor
  · rintro ⟨hbare, hfirst⟩
    have hwords := fun w hw => isWord_of_isBareFamily (w := w) hbare hw
    have hname := @join_pieces [' '] (by simp) name
    cases hpieces : pieces [' '] name with
    | nil => exact absurd hpieces (pieces_ne_nil _ _)
    | cons first more =>
      rw [hpieces] at hfirst hwords hname
      cases more with
      | nil =>
        -- A style word alone is not written bare.
        obtain rfl : first = name := hname
        exact absurd hfirst (isBareFamily_iff.1 hbare).2
      | cons second rest =>
        exact ⟨first, second, rest, hfirst, fun w hw => hwords w (List.mem_cons_of_mem _ hw),
          hname.symm⟩
  · rintro ⟨first, second, rest, hfirst, hrest, rfl⟩
    have hws : ∀ w ∈ first :: second :: rest, isWord w = true :=
      List.forall_mem_cons.2 ⟨isWord_of_style hfirst, hrest⟩
    have hfree : ∀ w ∈ first :: second :: rest, ' ' ∉ w := fun w hw hspace =>
      absurd (isWordRest_of_isWord (hws w hw) ' ' hspace) (by decide)
    refine ⟨isBareFamily_iff.2 ⟨⟨_, List.cons_ne_nil _ _, hws, rfl⟩, ?_⟩, ?_⟩
    · -- The space after the first word is in no style word.
      intro hmem
      have hspace : ' ' ∈ join [' '] (first :: second :: rest) := by simp [join]
      exact absurd (isWordRest_of_isWord (isWord_of_style hmem) ' ' hspace) (by decide)
    · rw [pieces_join (List.cons_ne_nil _ _) hfree]
      exact hfirst

/-- Families that are written bare could also stand between quotation marks, so it is enough that
the others can. -/
theorem quotable_iff_of_quoted {name : List Char} :
    quotable false name = true ↔
      (¬IsWordList name ∨ name ∈ styleWords → InQuotes Even name) := by
  rw [← quotable_iff]
  constructor
  · exact fun h _ => h
  · intro h
    by_cases hwords : IsWordList name
    · obtain ⟨ws, -, hws, rfl⟩ := hwords
      exact quotable_join hws
    · exact h (.inl hwords)

/-! ## Fonts with doubles for sizes -/

/-- A font whose sizes, where it has any, are doubles. -/
def Font.ofDoubles (families : List String) (size relativeSize : Option Double)
    (bold italic : Bool) : Font :=
  ⟨families, size.map .real, relativeSize.map .real, bold, italic⟩

/-- What the families and the sizes of a font are like if an equal font is read from its text. -/
structure FontSurvives (families : List String) (size relativeSize : Option Double) : Prop where
  oneSize : size = none ∨ relativeSize = none
  /-- An absolute size has no minus sign, not even that of a negative zero. -/
  absolute : ∀ x ∈ size, x.isFinite = true ∧ x.isNegative = false
  relative : ∀ x ∈ relativeSize, x.isFinite = true
  /-- A family that is not written bare can stand between quotation marks: its own marks come after
  even numbers of backslashes. -/
  closed : ∀ name ∈ families, ¬IsWordList name.toList ∨ name.toList ∈ styleWords →
    InQuotes Even name.toList
  /-- Without a size the first family is not taken for style words. -/
  unstyled : size = none → relativeSize = none →
    ∀ name ∈ families.head?, ¬StartsWithStyle name.toList

section Doubles

variable {families : List String} {size relativeSize : Option Double} {bold italic : Bool}

/-- The fonts that survive are those that texts can write without being taken for others. -/
theorem fontSurvives_iff :
    FontSurvives families size relativeSize ↔
      (Font.ofDoubles families size relativeSize bold italic).Spelled ∧
        (Font.ofDoubles families size relativeSize bold italic).isUnambiguous = true := by
  constructor
  · intro h
    refine ⟨⟨?_, ?_, ?_, fun name hname => quotable_iff_of_quoted.2 (h.closed name hname)⟩, ?_⟩
    · intro n hn
      obtain ⟨x, hx, rfl⟩ := Option.map_eq_some_iff.1 hn
      exact ⟨x, rfl, (h.absolute x hx).2⟩
    · intro n hn
      obtain ⟨x, -, rfl⟩ := Option.map_eq_some_iff.1 hn
      exact ⟨x, rfl⟩
    · exact h.oneSize.imp (by rintro rfl; rfl) (by rintro rfl; rfl)
    · have hsize : (size.map Number.real).all Number.isFinite = true := by
        rw [Option.all_eq_true]
        intro n hn
        obtain ⟨x, hx, rfl⟩ := Option.map_eq_some_iff.1 hn
        exact (h.absolute x hx).1
      have hrelative : (relativeSize.map Number.real).all Number.isFinite = true := by
        rw [Option.all_eq_true]
        intro n hn
        obtain ⟨x, hx, rfl⟩ := Option.map_eq_some_iff.1 hn
        exact h.relative x hx
      simp only [Font.isUnambiguous, Font.ofDoubles, hsize, hrelative, Bool.true_and]
      cases size with
      | some x => rfl
      | none =>
        cases relativeSize with
        | some x => rfl
        | none =>
          simp only [Option.map_none, Option.isSome_none, Bool.or_self, Bool.false_or,
            Option.all_eq_true]
          intro name hname
          have hfirst := h.unstyled rfl rfl name hname
          rw [← startsWithStyle_iff, Bool.not_eq_true] at hfirst
          simp [hfirst]
  · rintro ⟨hf, hu⟩
    simp only [Font.isUnambiguous, Font.ofDoubles, Bool.and_eq_true, Option.all_eq_true] at hu
    obtain ⟨⟨hsize, hrelative⟩, hfirst⟩ := hu
    refine ⟨?_, ?_, ?_, fun name hname => quotable_iff_of_quoted.1 (hf.families name hname), ?_⟩
    · exact hf.oneSize.imp Option.map_eq_none_iff.1 Option.map_eq_none_iff.1
    · rintro x rfl
      obtain ⟨y, hy, hneg⟩ := hf.size (.real x) rfl
      obtain rfl := Number.real.inj hy
      exact ⟨hsize _ rfl, hneg⟩
    · rintro x rfl
      exact hrelative (.real x) rfl
    · rintro rfl rfl name hname hstyle
      simp only [Option.map_none, Option.isSome_none, Bool.or_self, Bool.false_or,
        Option.all_eq_true] at hfirst
      have hno := hfirst name hname
      rw [startsWithStyle_iff.2 hstyle] at hno
      contradiction

/-- Every size that is a double has a text. -/
theorem Font.exists_format_ofDoubles :
    ∃ text, (Font.ofDoubles families size relativeSize bold italic).format = .ok text := by
  obtain ⟨part, hpart⟩ :
      ∃ part, (Font.ofDoubles families size relativeSize bold italic).sizePart = .ok part := by
    cases size with
    | some x => exact ⟨_, rfl⟩
    | none =>
      cases relativeSize with
      | some x => exact ⟨_, rfl⟩
      | none => exact ⟨_, rfl⟩
  exact ⟨_, Font.format_eq hpart⟩

end Doubles

/-! ## Negative sizes -/

theorem head_sizeText_of_isNegative {x : Double} (h : x.isNegative = true) :
    (sizeLayout.text x).head? = some '-' := by
  cases hx : x.isFinite with
  | true =>
    obtain ⟨n, htext, hsign, -⟩ := exists_sizeText hx
    rw [h, if_pos rfl] at hsign
    rw [← htext, Numeral.text, hsign]
    rfl
  | false =>
    cases x with
    | finite negative rank => contradiction
    | infinite negative =>
      obtain rfl : negative = true := h
      rfl
    | nan => contradiction

/-- **A negative size is lost.** It is written as a relative size of that value would be. -/
theorem size_lost_of_isNegative {f g : Font} {x : Double} (hx : x.isNegative = true)
    (hsize : f.size = some (.real x))
    (hfamilies : ∀ name ∈ f.families, quotable false name.toList = true) {text : List Char}
    (ht : f.format = .ok text) (hg : Literal.font text = .ok g) : g.size = none := by
  let f' : Font := { f with size := none, relativeSize := some (.real x) }
  have hspelled : f'.Spelled :=
    ⟨by simp [f'], fun n hn => ⟨x, (Option.some.inj hn).symm⟩, .inl rfl, hfamilies⟩
  have ht' : f'.format = .ok text := by
    have hpart : f.sizePart = .ok [sizeLayout.text x] := by
      rw [Font.sizePart, hsize]
      rfl
    have hpart' : f'.sizePart = .ok [sizeLayout.text x] := by
      show (relativeSizeText (.real x)).map ([·]) = _
      have hrelative : relativeSizeText (.real x) = .ok (sizeLayout.text x) := by
        show Except.ok (if (sizeLayout.text x).head? = some '-' then _ else _) = _
        rw [if_pos (head_sizeText_of_isNegative hx)]
      rw [hrelative]
      rfl
    rw [← ht, Font.format_eq hpart, Font.format_eq hpart']
    rfl
  cases hfinite : x.isFinite with
  | true =>
    have hu : f'.isUnambiguous = true := by
      simp [Font.isUnambiguous, f', Number.isFinite, hfinite]
    obtain ⟨text', htext', hread⟩ := font_readsBack hspelled hu
    obtain rfl : text = text' := Except.ok.inj (ht'.symm.trans htext')
    obtain rfl : g = f' := Except.ok.inj (hg.symm.trans hread)
    rfl
  | false =>
    have hinfinite : (f'.size.all Number.isFinite && f'.relativeSize.all Number.isFinite) = false :=
      by simp [f', Number.isFinite, hfinite]
    exact (sizes_of_not_finite hspelled hinfinite ht' hg).1

/-! ## Surviving fonts -/

/-- A font is spelled if an equal one is read from its text. -/
theorem spelled_of_same {families : List String} {size relativeSize : Option Double}
    {bold italic : Bool} {text : List Char} {g : Font}
    (ht : (Font.ofDoubles families size relativeSize bold italic).format = .ok text)
    (hg : Literal.font text = .ok g) (hfamilies : g.families = families)
    (hsize : sameOption Number.same g.size (size.map .real) = true)
    (hrelative : sameOption Number.same g.relativeSize (relativeSize.map .real) = true) :
    (Font.ofDoubles families size relativeSize bold italic).Spelled := by
  obtain ⟨hspelled, -⟩ := spelled_of_font hg (P := fun _ => True) trivial fun _ _ => trivial
  have hquotable : ∀ name ∈ families, quotable false name.toList = true :=
    hfamilies ▸ hspelled.families
  refine ⟨?_, ?_, ?_, hquotable⟩
  · intro n hn
    obtain ⟨x, rfl, rfl⟩ := Option.map_eq_some_iff.1 hn
    refine ⟨x, rfl, ?_⟩
    by_contra hneg
    rw [Bool.not_eq_false] at hneg
    rw [size_lost_of_isNegative hneg rfl hquotable ht hg] at hsize
    contradiction
  · intro n hn
    obtain ⟨x, -, rfl⟩ := Option.map_eq_some_iff.1 hn
    exact ⟨x, rfl⟩
  · rcases hspelled.oneSize with h | h
    · exact .inl (eq_none_of_same (h ▸ hsize))
    · exact .inr (eq_none_of_same (h ▸ hrelative))

/-- **Exactly which fonts survive being written.** Every font whose sizes are doubles has a text. A
font equal to it is read from that text if and only if it has at most one size, which is finite and
not negative if it is absolute, its families can be written, and without a size the first of them is
not taken for style words; then it is the font itself that is read. -/
theorem readFont_format_iff (key : String) (families : List String)
    (size relativeSize : Option Double) (bold italic : Bool) :
    ∃ text, (Value.font (.ofDoubles families size relativeSize bold italic)).format = .ok text ∧
      ((∃ v, readFont key text = .ok v ∧
          v.same (.font (.ofDoubles families size relativeSize bold italic)) = true) ↔
        FontSurvives families size relativeSize) ∧
      (FontSurvives families size relativeSize →
        readFont key text = .ok (.font (.ofDoubles families size relativeSize bold italic))) := by
  obtain ⟨text, ht⟩ :
      ∃ text, (Font.ofDoubles families size relativeSize bold italic).format = .ok text :=
    Font.exists_format_ofDoubles
  have hread : FontSurvives families size relativeSize →
      readFont key (String.ofList text) =
        .ok (.font (.ofDoubles families size relativeSize bold italic)) := by
    intro h
    obtain ⟨hf, hu⟩ := fontSurvives_iff.1 h
    obtain ⟨text', ht', hread⟩ := font_readsBack hf hu
    obtain rfl : text = text' := Except.ok.inj (ht.symm.trans ht')
    rw [readFont, structured, String.toList_ofList, hread]
  refine ⟨String.ofList text, ?_, ⟨?_, ?_⟩, hread⟩
  · show (Font.format _).map String.ofList = _
    rw [ht]
    rfl
  · rintro ⟨v, hv, hsame⟩
    obtain ⟨g, hg, rfl⟩ := structured_ok hv
    rw [String.toList_ofList] at hg
    obtain ⟨g', hg', hfamilies, hsize, hrelative⟩ := font_of_same hsame
    obtain rfl := Value.font.inj hg'
    have hf := spelled_of_same ht hg hfamilies hsize hrelative
    exact fontSurvives_iff.2 ⟨hf, isUnambiguous_of_same hf ht hg hfamilies hsize hrelative⟩
  · intro h
    obtain ⟨hf, hu⟩ := fontSurvives_iff.1 h
    exact ⟨_, hread h, hf.same_self hu⟩

/-- A style word may start a family that is not the first one. -/
theorem readFont_format_iff_second :
    let families := ["A \"B\"", "bold Arial"]
    FontSurvives families none none ∧
      ∃ text, (Value.font (.ofDoubles families none none false true)).format = .ok text ∧
        readFont "font" text = .ok (.font (.ofDoubles families none none false true)) := by
  intro families
  have hclosed : ∀ name ∈ families, InQuotes Even name.toList :=
    List.forall_mem_cons.2 ⟨by decide, List.forall_mem_singleton.2 (by decide)⟩
  have hfirst : ¬StartsWithStyle "A \"B\"".toList := by
    rw [← startsWithStyle_iff]
    decide
  have hsurvives : FontSurvives families none none :=
    ⟨.inl rfl, by simp, by simp, fun name hname _ => hclosed name hname, fun _ _ => by
      simpa [families] using hfirst⟩
  obtain ⟨text, hformat, -, hread⟩ := readFont_format_iff "font" families none none false true
  exact ⟨hsurvives, text, hformat, hread hsurvives⟩

end Styling
