import Styling.Command
import Styling.Proofs.Reports

/-!
# The command line on style texts

Each way in which the reading of a style can fail is followed to the report that the command line
makes of it. An error of a statement is a style error, which is reported, but for one: a plain
integer can have more digits than are read (`coerce_error`). Reading stops at the first statement
with an error (`Coercer.readText_eq_error_iff`), and what was read can always be written
(`exists_formatStyle`).

So a run on a style text shows the style or reports a syntax error, unless it stops at such an
integer; then the error leaves the program without a report (`runProgram_style`).
-/

set_option autoImplicit false

namespace Styling

open Styling.Decimal Styling.Text

/-! ## Lines of output -/

theorem withoutSequences_append {s : List Char} (h : '\x1b' ∉ s) (t : List Char) :
    withoutSequences (s ++ t) = s ++ withoutSequences t := by
  induction s with
  | nil => rfl
  | cons c s ih =>
    rw [List.mem_cons, not_or] at h
    have hc : ∀ r, withoutSequences (c :: r) = c :: withoutSequences r := fun r =>
      withoutSequences.eq_3 c r fun _ he _ => h.1 he.symm
    rw [List.cons_append, hc, ih h.2, List.cons_append]

/-- What holds no control sequences stays in front of a line. -/
theorem outputLine_append {s : String} (h : '\x1b' ∉ s.toList) (t : String) :
    outputLine (s ++ t) = s ++ outputLine t := by
  rw [outputLine, String.toList_append, withoutSequences_append h, String.ofList_append,
    String.ofList_toList, String.append_assoc]
  rfl

theorem outputLine_of_not_mem {s : String} (h : '\x1b' ∉ s.toList) :
    outputLine s = s ++ "\n" := by
  have hempty : outputLine "" = "\n" := by simp [outputLine, withoutSequences]
  rw [← hempty, ← outputLine_append h, String.append_empty]

/-! ## Errors of values -/

/-- The key asks for a number or for nothing, so that a plain integer can be read for it. -/
def TakesInteger (key : String) : Prop := keyKind? key = some .number ∨ keyKind? key = none

/-- An error of a value is reported for its key, unless the value is an integer that is too long.
-/
theorem coerce_error {key raw : String} {e : ReadError}
    (h : Coercer.standard.coerce key raw = .error e) :
    (∃ fault, e = .badValue key raw fault) ∨
      ∃ n, e = .digits (.reading n) ∧ TakesInteger key ∧ IsOverlong raw.toList n := by
  rw [← String.ofList_toList (s := raw)] at h
  by_cases hr : raw.toList.head? = some '$'
  · rw [coerce_reference hr] at h
    cases h
  by_cases hn : raw.toList = "null".toList
  · rw [hn, coerce_null] at h
    cases h
  rw [coerce_of_ne hr hn, String.ofList_toList] at h
  -- The structured kinds report all their errors; numbers and literals are left.
  cases hk : keyKind? key with
  | none =>
    rw [hk] at h
    obtain ⟨n, he, hlong⟩ := readLiteral_eq_error_iff.1 h
    exact .inr ⟨n, he, .inr hk, hlong⟩
  | some kind =>
    rw [hk] at h
    cases kind with
    | color | insets | dimension | font => exact .inl (structured_error h)
    | number =>
      exact (readNumber_error h).imp_right fun ⟨n, he, hlong⟩ => ⟨n, he, .inl hk, hlong⟩

/-- An integer that is too long is refused as such where an integer can stand. -/
theorem coerce_overlong {key raw : String} {n : Nat} (hk : TakesInteger key)
    (h : IsOverlong raw.toList n) :
    Coercer.standard.coerce key raw = .error (.digits (.reading n)) := by
  obtain ⟨hreference, hword⟩ := h.ne
  simp only [List.mem_cons, List.not_mem_nil, or_false, not_or] at hword
  have hread : Coercer.standard.coerce key (String.ofList raw.toList) = _ :=
    coerce_of_ne hreference hword.1
  rw [String.ofList_toList] at hread
  rw [hread]
  rcases hk with hk | hk
  · rw [hk]
    show readNumber key raw = _
    rw [readNumber, numberOf?_overlong h]
    rfl
  · rw [hk]
    exact readLiteral_eq_error_iff.2 ⟨n, rfl, h⟩

/-! ## Errors of texts -/

/-- A statement for which an integer is given that is too long. -/
def HasOverlong (s : List Char) (n : Nat) : Prop :=
  ∃ key raw, splitStatement [':'] s = .ok (key, raw) ∧ TakesInteger key ∧ IsOverlong raw.toList n

/-- An error of a statement is a style error, unless the statement gives an integer that is too
long. -/
theorem readStatement_error {s : List Char} {e : ReadError}
    (h : Coercer.standard.readStatement s = .error e) :
    (∃ error, e.styleError? = some error) ∨ ∃ n, e = .digits (.reading n) ∧ HasOverlong s n := by
  rcases (Coercer.readStatement_eq_error_iff rfl).1 h with hsplit | ⟨key, raw, hsplit, hv⟩
  · obtain ⟨fault, rfl⟩ := splitStatement_error hsplit
    exact .inl ⟨_, rfl⟩
  · rcases coerce_error hv with ⟨fault, rfl⟩ | ⟨n, rfl, hk, hlong⟩
    · exact .inl ⟨_, rfl⟩
    · exact .inr ⟨n, rfl, key, raw, hsplit, hk, hlong⟩

theorem HasOverlong.readStatement {s : List Char} {n : Nat} (h : HasOverlong s n) :
    Coercer.standard.readStatement s = .error (.digits (.reading n)) := by
  obtain ⟨key, raw, hsplit, hk, hlong⟩ := h
  exact (Coercer.readStatement_eq_error_iff rfl).2
    (.inr ⟨key, raw, hsplit, coerce_overlong hk hlong⟩)

/-- The statements of a text can be read up to one with this property. -/
def StopsAt (P : List Char → Prop) (text : List Char) : Prop :=
  ∃ before s after, statements [';'] text = before ++ s :: after ∧
    (∀ t ∈ before, ∃ entry, Coercer.standard.readStatement t = .ok entry) ∧ P s

/-- A style can be read up to a statement that gives an integer of so many digits, which are more
than are read. -/
def StopsAtInteger (style : String) (n : Nat) : Prop :=
  StopsAt (fun s => HasOverlong s n) style.toList

theorem StopsAtInteger.readText {style : String} {n : Nat} (h : StopsAtInteger style n) :
    Coercer.standard.readText style.toList = .error (.digits (.reading n)) := by
  obtain ⟨before, s, after, hstatements, hbefore, hs⟩ := h
  exact (Coercer.readText_eq_error_iff rfl).2
    ⟨before, s, after, hstatements, hbefore, hs.readStatement⟩

/-- An error of a text is a style error, unless reading stops at an integer that is too long. -/
theorem readText_error {style : String} {e : ReadError}
    (h : Coercer.standard.readText style.toList = .error e) :
    (∃ error, e.styleError? = some error) ∨
      ∃ n, e = .digits (.reading n) ∧ StopsAtInteger style n := by
  obtain ⟨before, s, after, hstatements, hbefore, hs⟩ :=
    (Coercer.readText_eq_error_iff rfl).1 h
  exact (readStatement_error hs).imp_right fun ⟨n, he, hlong⟩ =>
    ⟨n, he, before, s, after, hstatements, hbefore, hlong⟩

/-- A mapping that was read can be written. -/
theorem exists_formatStyle {text : List Char} {m : Table Value}
    (h : Coercer.standard.readText text = .ok (some m)) : ∃ out, formatStyle m = .ok out := by
  obtain ⟨-, hentries⟩ := Coercer.readText_entries rfl h
  have htexts : ∀ e ∈ m.entries, ∃ out, e.2.formatChars = .ok out := by
    intro e he
    obtain ⟨-, raw, hraw, hv⟩ := hentries e he
    obtain ⟨out, hout⟩ := coerce_reread hraw hv
    exact ⟨out, hout.written⟩
  obtain ⟨ss, hss, -⟩ := formatEntries_ok htexts
  exact ⟨_, by rw [formatStyle, hss]; rfl⟩

/-! ## Runs -/

/-- What a command makes of a mapping. -/
def Command.present : Command → Table Value → Except FormatError String
  | .parse, m => .ok (showEntries m)
  | .format, m => (formatStyle m).map outputLine

/-- After two hyphens the argument is the style, whatever it looks like. -/
theorem runProgram_eq (c : Command) (style : String) :
    runProgram [c.name, "--", style] = Command.runStyle false .standard style c.present := by
  cases c <;> rfl

theorem Command.exists_present (c : Command) {text : List Char} {m : Table Value}
    (h : Coercer.standard.readText text = .ok (some m)) : ∃ out, c.present m = .ok out := by
  cases c with
  | parse => exact ⟨_, rfl⟩
  | format =>
    obtain ⟨out, hout⟩ := exists_formatStyle h
    exact ⟨outputLine out, by rw [present, hout]; rfl⟩

/-- What a command on a style comes to. -/
inductive StyleRun (c : Command) (style : String) : CommandResult → Prop where
  /-- The text says nothing. -/
  | nothing (h : Coercer.standard.readStyle (some style) = .ok none) :
      StyleRun c style ⟨0, "(no style)\n", "", none⟩
  | shown {m : Table Value} {out : String}
      (h : Coercer.standard.readStyle (some style) = .ok (some m)) (hout : c.present m = .ok out) :
      StyleRun c style ⟨0, out, "", none⟩
  | refused {e : ReadError} {error : StyleError}
      (h : Coercer.standard.readStyle (some style) = .error e)
      (he : e.styleError? = some error) :
      StyleRun c style ⟨1, "", "Syntax error: " ++ outputLine error.message, none⟩
  /-- An error leaves the program without a report. -/
  | escaped {n : Nat} (h : StopsAtInteger style n) :
      StyleRun c style ⟨1, "", "", some (.read (.digits (.reading n)))⟩

/-- The run ends with success, or with a syntax error on the error stream and nothing else. -/
def CommandResult.IsOrderly (r : CommandResult) : Prop :=
  r.fault = none ∧ (r.exitCode = 0 ∨
    r.exitCode = 1 ∧ r.output = "" ∧ ∃ message, r.errors = "Syntax error: " ++ message ++ "\n")

theorem styleRun_runProgram (c : Command) (style : String) :
    StyleRun c style (runProgram [c.name, "--", style]) := by
  rw [runProgram_eq, Command.runStyle]
  have hlog : Command.logText false .standard style = "" := rfl
  cases h : Coercer.standard.readText style.toList with
  | error e =>
    simp only [hlog]
    rcases readText_error h with ⟨error, he⟩ | ⟨n, rfl, hstops⟩
    · have hline : outputLine ("Syntax error: " ++ error.message) =
          "Syntax error: " ++ outputLine error.message := outputLine_append (by decide) _
      simp only [he, hline, String.empty_append]
      exact .refused h he
    · exact .escaped hstops
  | ok m =>
    cases m with
    | none =>
      simp only [hlog, outputLine_of_not_mem (s := "(no style)") (by decide)]
      exact .nothing h
    | some m =>
      obtain ⟨out, hout⟩ := c.exists_present h
      simp only [hout, hlog]
      exact .shown h hout

/-- **What a command does on a style text.** For every text, a command shows the style that the text
says, or reports its syntax error on the error stream alone, or stops at a plain integer that has
more digits than are read and ends with that error unreported. The last comes about exactly for the
texts that can be read up to such an integer; on all others the run is orderly. -/
theorem runProgram_style (c : Command) (style : String) :
    StyleRun c style (runProgram [c.name, "--", style]) ∧
      ((runProgram [c.name, "--", style]).IsOrderly ↔ ¬∃ n, StopsAtInteger style n) := by
  have hrun := styleRun_runProgram c style
  refine ⟨hrun, ?_, fun hno => ?_⟩
  · rintro ⟨hfault, -⟩ ⟨n, hstops⟩
    rw [runProgram_eq, Command.runStyle, hstops.readText] at hfault
    cases hfault
  · generalize runProgram [c.name, "--", style] = r at hrun ⊢
    cases hrun with
    | nothing h => exact ⟨rfl, .inl rfl⟩
    | shown h hout => exact ⟨rfl, .inl rfl⟩
    | refused h he => exact ⟨rfl, .inr ⟨rfl, rfl, _, String.append_assoc.symm⟩⟩
    | escaped h => exact absurd ⟨_, h⟩ hno

/-- A single statement stops at its integer if the integer is too long. -/
theorem stopsAtInteger_statement {key : String} {digits : List Char} (hkey : IsKey key)
    (hk : TakesInteger key) (hdigits : ∀ c ∈ digits, isBasicDigit c = true)
    (hlen : digitLimit < digits.length) :
    StopsAtInteger (String.ofList (key.toList ++ ':' :: digits)) digits.length := by
  have hne : digits ≠ [] := by
    rintro rfl
    exact absurd hlen (by decide)
  have hraw : IsRaw digits := isPart_of_visible hne fun c hc =>
    ⟨isVisible_of_isBasicDigit (hdigits c hc), by
      rw [List.mem_singleton]
      rintro rfl
      exact absurd (hdigits _ hc) (by decide)⟩
  have hpart : IsPart [';'] (key.toList ++ ':' :: digits) := by
    have hk' : IsPart [';'] key.toList := hkey.mono (by simp)
    simpa using hk'.append hraw (m := [':']) (by simp)
  have hsplit : splitStatement [':'] (key.toList ++ ':' :: digits) =
      .ok (key, String.ofList digits) := by
    simpa using splitStatement_written hkey hraw (a := []) (b := []) (c := []) (d := [])
      rfl rfl rfl rfl
  have hinteger : Integer.ofText? digits = some ⟨none, digits⟩ := by
    have hall : digits.all isDigit = true :=
      List.all_eq_true.2 fun c hc => isDigit_of_isBasicDigit (hdigits c hc)
    simp [Integer.ofText?, splitSign_of_basic hdigits, hall, hne]
  refine ⟨[], key.toList ++ ':' :: digits, [], ?_, fun t ht => absurd ht List.not_mem_nil,
    key, String.ofList digits, hsplit, hk, ⟨none, digits⟩, ?_, rfl, hlen⟩
  · rw [String.toList_ofList]
    exact statements_join (List.forall_mem_singleton.2 hpart)
  · rw [String.toList_ofList, hinteger]

/-- An arc of 4301 digits ends the program without a report. -/
theorem not_isOrderly_overlong :
    ¬∀ (c : Command) (style : String), (runProgram [c.name, "--", style]).IsOrderly := by
  intro hall
  have hstops : StopsAtInteger (String.ofList ("arc".toList ++ ':' :: List.replicate 4301 '1'))
      (List.replicate 4301 '1').length :=
    stopsAtInteger_statement (by decide) (.inl (by decide))
      (fun c hc => List.eq_of_mem_replicate hc ▸ by decide)
      (by rw [List.length_replicate]; decide)
  obtain ⟨hfault, -⟩ := hall .parse
    (String.ofList ("arc".toList ++ ':' :: List.replicate 4301 '1'))
  rw [runProgram_eq, Command.runStyle, hstops.readText] at hfault
  cases hfault

end Styling
