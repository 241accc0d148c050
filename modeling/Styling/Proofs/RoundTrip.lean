import Mathlib
import Styling.Proofs.Store
import Styling.Proofs.Values

/-!
# Style texts written and read again

A mapping of keys to values that suit them is written as a text that reads as the same mapping, with
its keys in the same order (`readStyle_of_suits`).

The other way round, a mapping that was read from a text can always be written. Reading it again
gives an equal mapping exactly if all its values are faithful, and then it is the same mapping
(`reread_same_iff_isFaithful`). Fonts can be unfaithful, and so can numbers that overflow; a quoted
family whose first word is a style word is lost, since it is written without its quotation marks
(`not_reread_same_quoted`).
-/

set_option autoImplicit false

namespace Styling

open Styling.Text

/-! ## Mappings whose values suit their keys -/

/-- Every key can stand in a statement, and every value suits its key. -/
def Table.IsSuitable (style : Table Value) : Prop :=
  ∀ e ∈ style.entries, IsKey e.1 ∧ Suits e.1 e.2

/-- Entries that are read again from their own texts are read as themselves. -/
theorem forall₂_rereads_self {es : List (String × Value)}
    (h : ∀ e ∈ es, ∃ text, e.2.formatChars = .ok text
      ∧ Coercer.standard.coerce e.1 (String.ofList text) = .ok e.2) :
    List.Forall₂ (Rereads Coercer.standard) es es := by
  rw [List.forall₂_same]
  intro e he
  exact ⟨rfl, h e he⟩

/-- **Writing and reading.** A mapping with at least one entry, with keys that can stand in
statements and values that suit them, is written as a text from which the same mapping is read: the
same keys in the same order, each with the same value. -/
theorem readStyle_of_suits {style : Table Value} (hne : style.entries ≠ [])
    (h : style.IsSuitable) :
    ∃ text, formatStyle style = .ok text
      ∧ Coercer.standard.readStyle (some text) = .ok (some style) := by
  -- Each value has a text of its own that is read back for its key.
  have hback := fun e he => (h e he).2.reads_back
  have hstated : ∀ e ∈ style.entries, IsStated e := by
    intro e he
    obtain ⟨text, htext, hraw, -⟩ := hback e he
    exact ⟨(h e he).1, text, htext, hraw⟩
  obtain ⟨text, hformat, hread⟩ := Coercer.readStyle_formatStyle (c := .standard) rfl hne hstated
  refine ⟨text, hformat, (hread style).2 (forall₂_rereads_self ?_)⟩
  intro e he
  obtain ⟨text, htext, -, hv⟩ := hback e he
  exact ⟨text, htext, hv⟩

/-- Values of all kinds. -/
theorem readStyle_of_suits_mixed :
    let style : Table Value := ⟨[("Button.background", .color ⟨255, 136, 0, 128⟩),
      ("margin", .insets ⟨-1, 0, 20, 3⟩), ("preferredSize", .dimension ⟨100, -24⟩),
      ("titleFont", .null), ("arc", .whole (-8)),
      ("line WIDTH", .real (.finite false ⟨4607182418800017409, by decide⟩)), ("on", .flag true),
      ("name", .text "a: b#"), ("tint", .color ⟨1, 2, 3, 255⟩)], by decide⟩
    (style.entries ≠ [] ∧ style.IsSuitable)
      ∧ ∃ text, formatStyle style = .ok text
        ∧ Coercer.standard.readStyle (some text) = .ok (some style) := by
  intro style
  have hne : style.entries ≠ [] := List.cons_ne_nil _ _
  have hsuitable : style.IsSuitable := by
    rw [Table.IsSuitable, List.forall_mem_cons, List.forall_mem_cons, List.forall_mem_cons,
      List.forall_mem_cons, List.forall_mem_cons, List.forall_mem_cons, List.forall_mem_cons,
      List.forall_mem_cons, List.forall_mem_singleton]
    exact ⟨⟨by decide, .color _ (Or.inl rfl)⟩,
      ⟨by decide, .insets _ rfl (by decide +kernel)⟩,
      ⟨by decide, .dimension _ rfl (by decide +kernel)⟩,
      ⟨by decide, .null⟩, ⟨by decide, .whole _ (Or.inl rfl) (by decide +kernel)⟩,
      ⟨by decide, .real _ (Or.inl rfl) rfl⟩, ⟨by decide, .flag _ rfl⟩,
      ⟨by decide, .text _ rfl ⟨by decide, by decide, by decide, by decide, by decide, by decide⟩⟩,
      ⟨by decide, .color _ (Or.inr rfl)⟩⟩
  exact ⟨⟨hne, hsuitable⟩, readStyle_of_suits hne hsuitable⟩

/-! ## Mappings that were read -/

/-- Every value is read again from its own text. -/
def Table.isFaithful (style : Table Value) : Bool := style.entries.all fun e => e.2.isFaithful

theorem Table.isFaithful_iff {style : Table Value} :
    style.isFaithful = true ↔ ∀ e ∈ style.entries, e.2.isFaithful = true := by
  rw [Table.isFaithful, List.all_eq_true]

/-- Two mappings of equal size are equal if each entry of the one has an equal value in the
other. -/
theorem Table.same_self {style : Table Value} (h : ∀ e ∈ style.entries, e.2.same e.2 = true) :
    style.same style = true := by
  rw [Table.same, Bool.and_eq_true, List.all_eq_true]
  refine ⟨by simp, ?_⟩
  intro e he
  rw [Table.get?_of_mem he]
  exact h e he

/-- In an equal mapping that was read again, the value in the place of an entry is equal to that of
the entry. -/
theorem same_of_rereads {style again : Table Value} {e f : String × Value}
    (hsame : again.same style = true) (he : e ∈ style.entries) (hf : f ∈ again.entries)
    (hkey : f.1 = e.1) : f.2.same e.2 = true := by
  rw [Table.same, Bool.and_eq_true, List.all_eq_true] at hsame
  have h := hsame.2 f hf
  rw [hkey, Table.get?_of_mem he] at h
  exact h

/-- **Reading and writing and reading again.** A mapping that was read from a text has a text
itself. What is read from it is equal to the mapping if and only if all values of the mapping are
faithful, and then it is the mapping itself. -/
theorem reread_same_iff_isFaithful {text : String} {style : Table Value}
    (h : Coercer.standard.readStyle (some text) = .ok (some style)) :
    ∃ formatted, formatStyle style = .ok formatted
      ∧ ((∃ again, Coercer.standard.readStyle (some formatted) = .ok (some again)
          ∧ again.same style = true) ↔ style.isFaithful = true)
      ∧ (style.isFaithful = true →
          Coercer.standard.readStyle (some formatted) = .ok (some style)) := by
  obtain ⟨hne, hentries⟩ := Coercer.readText_entries rfl h
  -- Every value has been read from a text of its own, so it can be written.
  have htexts : ∀ e ∈ style.entries, IsKey e.1 ∧ ∃ text, IsTextFor e.1 e.2 text := by
    intro e he
    obtain ⟨hkey, raw, hraw, hv⟩ := hentries e he
    exact ⟨hkey, coerce_reread hraw hv⟩
  have hstated : ∀ e ∈ style.entries, IsStated e := by
    intro e he
    obtain ⟨hkey, text, htext⟩ := htexts e he
    exact ⟨hkey, text, htext.written, htext.raw⟩
  obtain ⟨formatted, hformat, hread⟩ :=
    Coercer.readStyle_formatStyle (c := .standard) rfl hne hstated
  have hback : style.isFaithful = true →
      Coercer.standard.readStyle (some formatted) = .ok (some style) := by
    intro hfaithful
    rw [Table.isFaithful_iff] at hfaithful
    refine (hread style).2 (forall₂_rereads_self ?_)
    intro e he
    obtain ⟨-, text, htext⟩ := htexts e he
    exact ⟨text, htext.written, htext.reads (hfaithful e he)⟩
  refine ⟨formatted, hformat, ⟨?_, ?_⟩, hback⟩
  · rintro ⟨again, hagain, hsame⟩
    rw [Table.isFaithful_iff]
    intro e he
    -- The entry has been read again, and as an equal value, so its value is faithful.
    obtain ⟨f, hf, hkey, text, htext, hv⟩ := exists_of_mem_left ((hread again).1 hagain) he
    obtain ⟨-, t, ht⟩ := htexts e he
    obtain rfl : text = t := Except.ok.inj (htext.symm.trans ht.written)
    exact ht.faithful f.2 hv (same_of_rereads hsame he hf hkey)
  · intro hfaithful
    refine ⟨style, hback hfaithful, Table.same_self ?_⟩
    intro e he
    obtain ⟨-, text, htext⟩ := htexts e he
    exact htext.same_self (Table.isFaithful_iff.1 hfaithful e he)

/-- A mapping of a font and a number, which is read again as it was. -/
theorem reread_same_iff_isFaithful_font :
    let text := "font: bold \"Segoe UI\", Arial; arc: 8"
    let style : Table Value := ⟨[("font", .font ⟨["Segoe UI", "Arial"], none, none, true,
      false⟩), ("arc", .whole 8)], by decide⟩
    Coercer.standard.readStyle (some text) = .ok (some style)
      ∧ ∃ formatted, formatStyle style = .ok formatted
        ∧ ((∃ again, Coercer.standard.readStyle (some formatted) = .ok (some again)
            ∧ again.same style = true) ↔ style.isFaithful = true)
        ∧ (style.isFaithful = true →
            Coercer.standard.readStyle (some formatted) = .ok (some style)) := by
  intro text style
  have hread : Coercer.standard.readStyle (some text) = .ok (some style) := by
    cbv
  exact ⟨hread, reread_same_iff_isFaithful hread⟩

/-- A quoted family whose first word is a style word is written without quotation marks, and read
again as a style and another family. -/
theorem not_reread_same_quoted :
    ¬∀ (text : String) (style : Table Value),
      Coercer.standard.readStyle (some text) = .ok (some style) →
      ∃ formatted again, formatStyle style = .ok formatted
        ∧ Coercer.standard.readStyle (some formatted) = .ok (some again)
        ∧ again.same style = true := by
  intro hall
  have hread : Coercer.standard.readStyle (some "font: \"bold Arial\"") = .ok (some
      (Table.ofList [("font", .font ⟨["bold Arial"], none, none, false, false⟩)])) := by
    cbv
  have hwrite : formatStyle (Table.ofList
      [("font", .font ⟨["bold Arial"], none, none, false, false⟩)]) = .ok "font: bold Arial" := by
    cbv
  have hagain : Coercer.standard.readStyle (some "font: bold Arial") = .ok (some
      (Table.ofList [("font", .font ⟨["Arial"], none, none, true, false⟩)])) := by
    cbv
  obtain ⟨formatted, again, hformat, h, hsame⟩ := hall _ _ hread
  rw [hwrite] at hformat
  obtain rfl := Except.ok.inj hformat
  rw [hagain] at h
  obtain rfl := Option.some.inj (Except.ok.inj h)
  exact absurd hsame (by decide)

end Styling
