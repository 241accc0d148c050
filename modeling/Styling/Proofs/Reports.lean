import Styling.Proofs.Inference
import Styling.Proofs.Spelling

/-!
# Reported statements

A syntax error names the statement that it is about: the statement of the text if its marks are
wrong, and else its key and its value text, put together anew. Either way the reported statement is
read like the one that failed (`Coercer.readStatement_reported`), because the converters report the
key and the text that they were given (`ReportsGiven`).

Reading stops at the first statement with an error (`Coercer.readText_eq_error_iff`). What stands
before that statement is a text whose statements are those before it (`exists_around`), so it is
read without an error, and reading the reported statement alone gives the same error
(`Coercer.readStyle_reported`).
-/

set_option autoImplicit false

namespace Styling

open Styling.Text

/-! ## Converters -/

/-- The converters for the kinds of value, and the one for literals of any kind. -/
def converters : List Converter :=
  [readColor, readInsets, readDimension, readFont, readNumber, readLiteral]

/-- The style errors of a converter are about the key and the text that it was given. -/
def ReportsGiven (read : Converter) : Prop :=
  ∀ key raw e error, read key raw = .error e → e.styleError? = some error →
    ∃ fault, e = .badValue key raw fault

theorem reportsGiven_of_mem {read : Converter} (h : read ∈ converters) : ReportsGiven read := by
  intro key raw e error hread he
  simp only [converters, List.mem_cons, List.not_mem_nil, or_false] at h
  rcases h with rfl | rfl | rfl | rfl | rfl | rfl
  · exact structured_error hread
  · exact structured_error hread
  · exact structured_error hread
  · exact structured_error hread
  · rcases readNumber_error hread with hfault | ⟨n, rfl, -⟩
    · exact hfault
    · cases he
  · obtain ⟨n, rfl, -⟩ := readLiteral_eq_error_iff.1 hread
    cases he

variable {c : Coercer}

theorem Coercer.reportsGiven_coerce (hrules : ∀ r ∈ c.rules, r.converter ∈ converters) :
    ReportsGiven c.coerce := by
  intro key raw e error hread he
  rw [coerce] at hread
  split at hread
  · cases hread
  rw [readValue] at hread
  split at hread
  · cases hread
  refine reportsGiven_of_mem ?_ key raw e error hread he
  rw [converterFor]
  split
  · next r hr => exact hrules r (List.mem_of_find?_eq_some hr)
  · simp [converters]

/-! ## One statement -/

/-- An error of the marks of a statement is a style error. -/
theorem splitStatement_error {s : List Char} {e : ReadError}
    (h : splitStatement [':'] s = .error e) : ∃ fault, e = .malformed fault (String.ofList s) := by
  rw [splitStatement, if_neg (by simp)] at h
  split at h
  · exact ⟨.missingColon, (Except.error.inj h).symm⟩
  split at h
  · exact ⟨.missingKey, (Except.error.inj h).symm⟩
  split at h
  · exact ⟨.missingValue, (Except.error.inj h).symm⟩
  · cases h

/-- An error of a statement is one of its marks, or else one of its value. -/
theorem Coercer.readStatement_eq_error_iff (hc : c.settings = .standard) {s : List Char}
    {e : ReadError} :
    c.readStatement s = .error e ↔
      splitStatement [':'] s = .error e ∨
        ∃ key raw, splitStatement [':'] s = .ok (key, raw) ∧ c.coerce key raw = .error e := by
  rw [readStatement, keySeparator_of_standard hc]
  cases splitStatement [':'] s with
  | error e' => simp
  | ok p =>
    obtain ⟨key, raw⟩ := p
    cases hv : c.coerce key raw <;> simp [hv]

theorem isPart_of_mem_statements {text s : List Char} (h : s ∈ statements [';'] text) :
    IsPart [';'] s := by
  obtain ⟨hne, hfree⟩ := mem_statements h
  rw [statements, List.mem_filter, List.mem_map] at h
  obtain ⟨⟨p, -, rfl⟩, -⟩ := h
  refine ⟨trim_trim p, hne, fun c hc => ?_⟩
  rw [List.mem_singleton]
  rintro rfl
  exact hfree hc

/-- **The reported statement is read like the one that failed.** -/
theorem Coercer.readStatement_reported (hc : c.settings = .standard)
    (hrules : ∀ r ∈ c.rules, r.converter ∈ converters) {s : List Char} (hs : IsPart [';'] s)
    {e : ReadError} {error : StyleError} (h : c.readStatement s = .error e)
    (he : e.styleError? = some error) :
    ∃ reported : String, error.statement? = some (some reported) ∧
      IsPart [';'] reported.toList ∧ c.readStatement reported.toList = .error e := by
  rcases (readStatement_eq_error_iff hc).1 h with hsplit | ⟨key, raw, hsplit, hcoerce⟩
  · obtain ⟨fault, rfl⟩ := splitStatement_error hsplit
    obtain rfl := Option.some.inj he
    refine ⟨String.ofList s, rfl, ?_⟩
    rw [String.toList_ofList]
    exact ⟨hs, h⟩
  · have hfree : ';' ∉ s := fun hm => hs.free ';' hm List.mem_cons_self
    obtain ⟨hkey, hraw⟩ := splitStatement_ok hfree hsplit
    obtain ⟨fault, rfl⟩ := reportsGiven_coerce hrules key raw e error hcoerce he
    obtain rfl := Option.some.inj he
    refine ⟨key ++ ": " ++ raw, rfl, ?_⟩
    have htext : (key ++ ": " ++ raw).toList = key.toList ++ [':', ' '] ++ raw.toList := by simp
    rw [htext]
    have hk : IsPart [';'] key.toList := hkey.mono (by simp)
    refine ⟨hk.append hraw (by simp),
      (readStatement_eq_error_iff hc).2 (.inr ⟨key, raw, ?_, hcoerce⟩)⟩
    -- The key holds no colon, so the statement is cut where it was put together.
    simpa using splitStatement_written hkey hraw (a := []) (b := []) (c := [' ']) (d := [])
      rfl rfl (by decide) rfl

/-! ## Whole texts -/

/-- The error of a text is that of its first statement with an error. -/
theorem Coercer.readText_eq_error_iff (hc : c.settings = .standard) {text : List Char}
    {e : ReadError} :
    c.readText text = .error e ↔
      ∃ before s after, statements [';'] text = before ++ s :: after ∧
        (∀ t ∈ before, ∃ entry, c.readStatement t = .ok entry) ∧ c.readStatement s = .error e := by
  rw [readText_eq (separator_of_standard hc), readStatements_eq_mapM, ← mapM_eq_error_iff]
  cases (statements [';'] text).mapM c.readStatement <;> simp [Except.map]

theorem Coercer.exists_readText (hc : c.settings = .standard) {text : List Char}
    (h : ∀ s ∈ statements [';'] text, ∃ entry, c.readStatement s = .ok entry) :
    ∃ m, c.readText text = .ok m := by
  obtain ⟨entries, hentries⟩ := exists_forall₂ h
  rw [readText_eq (separator_of_standard hc), readStatements_eq_ok_iff.2 hentries]
  exact ⟨_, rfl⟩

/-- A statement alone fails as it does in a text. -/
theorem Coercer.readText_statement (hc : c.settings = .standard) {s : List Char}
    (hs : IsPart [';'] s) {e : ReadError} (h : c.readStatement s = .error e) :
    c.readText s = .error e := by
  have hstatements : statements [';'] s = [s] := statements_join (List.forall_mem_singleton.2 hs)
  exact (readText_eq_error_iff hc).2 ⟨[], s, [], hstatements, List.forall_mem_nil _, h⟩

/-! ## The text around a statement -/

theorem join_around (sep first s last : List Char) (ps qs : List (List Char)) :
    join sep (ps ++ (first ++ s ++ last) :: qs)
      = join sep (ps ++ [first]) ++ s ++ join sep (last :: qs) := by
  cases ps with
  | nil => simp [join_cons]
  | cons p ps => simp [join_cons]

/-- The statements of joined pieces are the pieces, trimmed, without the blank ones. -/
theorem statements_join_pieces {sep : Char} {ps : List (List Char)} (hne : ps ≠ [])
    (hfree : ∀ p ∈ ps, sep ∉ p) :
    statements [sep] (join [sep] ps) = (ps.map trim).filter (!·.isEmpty) := by
  rw [statements, pieces_join hne hfree]

/-- The piece that a statement is made of, and the pieces before and after it. -/
theorem exists_piece {sep : Char} {text s : List Char} {ss ts : List (List Char)}
    (h : statements [sep] text = ss ++ s :: ts) :
    ∃ ps p qs, pieces [sep] text = ps ++ p :: qs ∧ (ps.map trim).filter (!·.isEmpty) = ss ∧
      trim p = s ∧ (qs.map trim).filter (!·.isEmpty) = ts := by
  obtain ⟨us, vs, htrim, hus, hvs⟩ := List.filter_eq_append_iff.1 h
  obtain ⟨blanks, ws, rfl, hblanks, -, hws⟩ := List.filter_eq_cons_iff.1 hvs
  obtain ⟨ps, rest, hpieces, rfl, hrest⟩ := List.map_eq_append_iff.1 htrim
  obtain ⟨ps', last, rfl, rfl, hlast⟩ := List.map_eq_append_iff.1 hrest
  obtain ⟨p, qs, rfl, rfl, rfl⟩ := List.map_eq_cons_iff.1 hlast
  refine ⟨ps ++ ps', p, qs, by rw [hpieces, List.append_assoc], ?_, rfl, hws⟩
  rw [List.map_append, List.filter_append, hus, List.filter_eq_nil_iff.2 hblanks, List.append_nil]

/-- **A text can be taken apart around each of its statements**, so that the texts before and after
it have the statements before and after it. -/
theorem exists_around {sep : Char} {text s : List Char} {ss ts : List (List Char)}
    (h : statements [sep] text = ss ++ s :: ts) :
    ∃ before after, text = before ++ s ++ after ∧ statements [sep] before = ss ∧
      statements [sep] after = ts := by
  obtain ⟨ps, p, qs, hpieces, rfl, rfl, rfl⟩ := exists_piece h
  obtain ⟨first, last, hfirst, hlast, hp⟩ := exists_blanks p
  have hfree : ∀ q ∈ ps ++ p :: qs, sep ∉ q := by
    intro q hq hsep
    rw [← hpieces] at hq
    exact (mem_of_mem_pieces hq hsep).2 rfl
  have hsep : sep ∉ p := hfree p (by simp)
  rw [hp] at hsep
  simp only [List.mem_append, not_or] at hsep
  obtain ⟨⟨hsep_first, -⟩, hsep_last⟩ := hsep
  refine ⟨join [sep] (ps ++ [first]), join [sep] (last :: qs), ?_, ?_, ?_⟩
  · rw [← join_around, ← hp, ← hpieces]
    exact (join_pieces (List.cons_ne_nil sep []) text).symm
  · have hfree_before : ∀ q ∈ ps ++ [first], sep ∉ q := by
      intro q hq
      rcases List.mem_append.1 hq with hq | hq
      · exact hfree q (List.mem_append_left _ hq)
      · rwa [List.mem_singleton.1 hq]
    rw [statements_join_pieces (by simp) hfree_before]
    simp [trim_eq_nil_iff.2 hfirst]
  · have hfree_after : ∀ q ∈ last :: qs, sep ∉ q := by
      refine List.forall_mem_cons.2 ⟨hsep_last, fun q hq => ?_⟩
      exact hfree q (List.mem_append_right _ (List.mem_cons_of_mem p hq))
    rw [statements_join_pieces (List.cons_ne_nil _ _) hfree_after, statementsOf_cons_blank hlast]

/-! ## Reports -/

/-- **A reported statement reproduces its error.** Whenever the reading of a text ends with a style
error, the error names a statement, and reading this statement alone ends with the same error. The
error is that of one statement of the text, and the text before that statement is read without an
error. -/
theorem Coercer.readStyle_reported (hc : c.settings = .standard)
    (hrules : ∀ r ∈ c.rules, r.converter ∈ converters) {text : String} {e : ReadError}
    {error : StyleError} (h : c.readStyle (some text) = .error e)
    (he : e.styleError? = some error) :
    ∃ reported, error.statement? = some (some reported) ∧
      c.readStyle (some reported) = .error e ∧
      ∃ before failed after : String, text = before ++ failed ++ after ∧
        statements [';'] text.toList =
          statements [';'] before.toList ++ failed.toList :: statements [';'] after.toList ∧
        c.readStatement failed.toList = .error e ∧
        ∃ m, c.readStyle (some before) = .ok m := by
  obtain ⟨ss, s, ts, hstatements, hss, hs⟩ := (readText_eq_error_iff hc).1 h
  have hmem : s ∈ statements [';'] text.toList := by simp [hstatements]
  have hpart := isPart_of_mem_statements hmem
  obtain ⟨reported, hreported, hpart', hs'⟩ := readStatement_reported hc hrules hpart hs he
  refine ⟨reported, hreported, readText_statement hc hpart' hs', ?_⟩
  obtain ⟨before, after, htext, rfl, rfl⟩ := exists_around hstatements
  refine ⟨String.ofList before, String.ofList s, String.ofList after, ?_, ?_, ?_, ?_⟩
  · rw [← String.ofList_append, ← String.ofList_append, ← htext, String.ofList_toList]
  · simpa only [String.toList_ofList] using hstatements
  · rwa [String.toList_ofList]
  · rw [readStyle, String.toList_ofList]
    exact exists_readText hc hss

/-- The second statement of a text is reported, with one space after its colon. -/
theorem Coercer.readStyle_reported_second :
    let c : Coercer :=
      ⟨.ofList [("a", .whole 1)], [⟨["tint"], readColor⟩, ⟨["on"], readLiteral⟩], .standard⟩
    let text := "on: $a;; Tint :\t#12345 ; b"
    let e : ReadError := .badValue "Tint" "#12345" (.literal (.hexCount 5))
    c.readStyle (some text) = .error e ∧ c.readStyle (some "Tint: #12345") = .error e ∧
      ∃ before failed after : String, text = before ++ failed ++ after ∧
        c.readStatement failed.toList = .error e ∧ ∃ m, c.readStyle (some before) = .ok m := by
  intro c text e
  have h : c.readStyle (some text) = .error e := by cbv
  have hrules : ∀ r ∈ c.rules, r.converter ∈ converters := by simp [c, converters]
  obtain ⟨reported, hreported, hread, before, failed, after, htext, -, hfailed, hbefore⟩ :=
    Coercer.readStyle_reported rfl hrules h rfl
  obtain rfl : "Tint: #12345" = reported := Option.some.inj (Option.some.inj hreported)
  exact ⟨h, hread, before, failed, after, htext, hfailed, hbefore⟩

end Styling
