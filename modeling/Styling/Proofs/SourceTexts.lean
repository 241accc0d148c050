import Styling.Annotation
import Styling.Proofs.SourceScanning

/-!
# Texts of annotations

An expression that a text writes is also the argument that the text writes in square brackets
(`FinalName.ofText_annotate`). The first word of a text is a name in its expression
(`SourceExpr.exists_scanned_word`), so an expression that mentions no final type has no text that
looks like one (`SourceExpr.finalInner?_eq_none`).
-/

set_option autoImplicit false

namespace Styling

open Styling.Text

/-! ## Lines -/

theorem unifyLineEnds_cons {c : Char} {s : List Char} (hc : c ≠ '\r') :
    unifyLineEnds (c :: s) = c :: unifyLineEnds s := by
  rw [unifyLineEnds]
  · rw [if_neg hc]
  · simp [hc]

theorem unifyLineEnds_append {p : List Char} (hp : '\r' ∉ p) (s : List Char) :
    unifyLineEnds (p ++ s) = p ++ unifyLineEnds s := by
  induction p with
  | nil => rfl
  | cons c p ih =>
    rw [List.mem_cons, not_or] at hp
    rw [List.cons_append, unifyLineEnds_cons (Ne.symm hp.1), ih hp.2, List.cons_append]

theorem unifyLineEnds_concat {c : Char} (hc : c ≠ '\n') (hr : c ≠ '\r') (s : List Char) :
    unifyLineEnds (s ++ [c]) = unifyLineEnds s ++ [c] := by
  fun_induction unifyLineEnds s with
  | case1 => simp [unifyLineEnds, hr]
  | case2 s ih => simp [unifyLineEnds, ih]
  | case3 d s hno ih =>
    rw [List.cons_append, unifyLineEnds, ih]
    · rfl
    · rintro t rfl ht
      cases s with
      | nil => exact hc (List.cons.inj ht).1
      | cons a s =>
        obtain ⟨rfl, -⟩ := List.cons.inj ht
        exact hno s rfl rfl

/-- The text that is scanned: without the blanks in front, and with line feeds only. -/
def sourceLines (s : List Char) : List Char :=
  unifyLineEnds (s.dropWhile fun c => c = ' ' || c = '\t')

theorem sourceTokens_eq_ok_iff {s : List Char} {r : TokenRun} :
    sourceTokens s = .ok r ↔ '\x00' ∉ s ∧ ∃ r₀, Scanned s [] s r₀ ∧
      { r₀ with tokens := joinTexts r₀.tokens } = r := by
  rw [sourceTokens]
  simp only [List.contains_eq_mem, decide_eq_true_eq, ← scanTokens_eq_ok_iff]
  by_cases hnull : '\x00' ∈ s
  · simp [hnull]
  · cases scanTokens s [] s <;> simp [hnull, Except.map]

/-- Reading a text succeeds with the expression of its tokens. -/
theorem SourceExpr.ofText_eq_ok_iff {s : List Char} {e : SourceExpr} :
    SourceExpr.ofText s = .ok e ↔
      '\x00' ∉ sourceLines s ∧ ∃ r rest, Scanned (sourceLines s) [] (sourceLines s) r ∧
        runTokens (joinPlain (r.tokens.map PlacedToken.token) ++ [.lineEnd]) readingStart
          = some (.ended e, rest) := by
  have hread : SourceExpr.ofText s = .ok e ↔
      ∃ r, sourceTokens (sourceLines s) = .ok r ∧ r.read = .ok e := by
    rw [ofText, ← sourceLines]
    cases sourceTokens (sourceLines s) with
    | error m => simp
    | ok r => cases hr : r.read <;> simp [hr]
  rw [hread]
  simp only [sourceTokens_eq_ok_iff, TokenRun.read_eq_ok_iff]
  constructor
  · rintro ⟨-, ⟨hnull, r, hscan, rfl⟩, rest, hrun⟩
    exact ⟨hnull, r, rest, hscan, by rwa [map_joinTexts] at hrun⟩
  · rintro ⟨hnull, r, rest, hscan, hrun⟩
    exact ⟨_, ⟨hnull, r, hscan, rfl⟩, rest, by rwa [map_joinTexts]⟩

/-! ## Words -/

/-- A name in a source text: a word that is neither a keyword nor the marker of a text. -/
structure IsSourceName (word : List Char) : Prop where
  head : word.head?.all isNameStart = true
  tail : word.tail.all isNameRest = true
  nonempty : word ≠ []
  unmarked : textMarker? word = none
  token : SourceToken.ofWord word = .name (String.ofList word)

/-- A name is a token where it ends. -/
theorem IsSourceName.sourceToken?_eq {c : Char} {cs rest : List Char}
    (h : IsSourceName (c :: cs)) (hrest : ∀ d ∈ rest.head?, isNameRest d = false) :
    sourceToken? c (cs ++ rest) = .ok (some (.name (String.ofList (c :: cs)), rest)) := by
  obtain ⟨htake, hdrop⟩ := span_append (List.all_eq_true.1 h.tail) hrest
  rw [sourceToken?, if_pos (by simpa using h.head), List.tail_cons] at *
  rw [htake, hdrop, wordToken, h.token]
  rintro raw quote rest' hmarker
  simp [h.unmarked] at hmarker

theorem IsSourceName.not_mem_return {word : List Char} (h : IsSourceName word) : '\r' ∉ word := by
  intro hmem
  obtain ⟨c, cs, rfl⟩ := List.exists_cons_of_ne_nil h.nonempty
  rcases List.mem_cons.1 hmem with rfl | hcs
  · have hhead : isNameStart '\r' = true := h.head
    exact absurd hhead (by decide)
  · exact absurd (List.all_eq_true.1 h.tail _ hcs) (by decide)

theorem isSourceName_final : IsSourceName "Final".toList where
  head := by decide
  tail := by decide
  nonempty := by decide
  unmarked := by decide
  token := rfl

theorem isSourceName_classVar : IsSourceName "ClassVar".toList where
  head := by decide
  tail := by decide
  nonempty := by decide
  unmarked := by decide
  token := rfl

theorem isSourceName_typing : IsSourceName "typing".toList where
  head := by decide
  tail := by decide
  nonempty := by decide
  unmarked := by decide
  token := rfl

/-- The two ways to write the form of final types. -/
inductive FinalName where
  | bare
  | qualified

def FinalName.text : FinalName → String
  | .bare => "Final"
  | .qualified => "typing.Final"

def FinalName.expr : FinalName → SourceExpr
  | .bare => .name "Final"
  | .qualified => .member (.name "typing") "Final"

/-- The tokens of a name for the form, up to the bracket that opens. -/
def FinalName.tokens : FinalName → List SourceToken
  | .bare => [.name "Final", .mark '[']
  | .qualified => [.name "typing", .mark '.', .name "Final", .mark '[']

theorem FinalName.runTokens_tokens (n : FinalName) :
    runTokens n.tokens readingStart = some (argumentStart n.expr) := by
  cases n <;> rfl

/-- A mark is a token by itself, if it is not the first of three points. -/
theorem sourceToken?_mark {c : Char} {cs : List Char} (hname : isNameStart c = false)
    (hnumber : startsNumber (c :: cs) = false) (hquote : isQuote c = false)
    (hprint : isPrintable c = true) (hdots : c = '.' → dropPrefix? ['.', '.'] cs = none) :
    sourceToken? c cs = .ok (some (.mark c, cs)) := by
  rw [sourceToken?, if_neg (by simp [hname]), if_neg (by simp [hnumber]),
    if_neg (by simp [hquote]), if_neg (by simp [hprint])]
  by_cases hc : c = '.'
  · rw [hdots hc]
  · simp only [hc, if_false]
    split <;> rfl

theorem sourceToken?_bracket (s : List Char) :
    sourceToken? '[' s = .ok (some (.mark '[', s)) := by
  have hdigit : isBasicDigit '[' = false := by decide
  exact sourceToken?_mark (by decide) (by simp [startsNumber_cons, hdigit]) (by decide) (by decide)
    (by simp)

theorem isBasicDigit_of_isNameStart {c : Char} (h : isNameStart c = true) :
    isBasicDigit c = false := by
  by_contra hdigit
  simp only [isBasicDigit, Bool.not_eq_false, Bool.and_eq_true, decide_eq_true_eq, Char.le_def,
    UInt32.le_iff_toNat_le] at hdigit
  simp only [isNameStart, isForeignLetter, isWordStart, Bool.or_eq_true, Bool.and_eq_true,
    decide_eq_true_eq, Char.le_def, UInt32.le_iff_toNat_le, Char.toNat] at h
  obtain ((⟨hlow, -⟩ | ⟨hlow, -⟩) | rfl) | ⟨hlow, -⟩ := h
  · exact absurd (hlow.trans hdigit.2) (by decide)
  · exact absurd (hlow.trans hdigit.2) (by decide)
  · exact absurd hdigit.2 (by decide)
  · exact absurd (hlow.trans hdigit.2) (by decide)

theorem sourceToken?_point {c : Char} {s : List Char} (hc : isNameStart c = true) :
    sourceToken? '.' (c :: s) = .ok (some (.mark '.', c :: s)) := by
  have hpoint : c ≠ '.' := by
    rintro rfl
    exact absurd hc (by decide)
  have hzero : isBasicDigit '.' = false := by decide
  have hnumber : startsNumber ('.' :: c :: s) = false := by
    simp [startsNumber_cons, hzero, isBasicDigit_of_isNameStart hc]
  exact sourceToken?_mark (by decide) hnumber (by decide) (by decide)
    (fun _ => by simp [dropPrefix?, hpoint.symm])

theorem FinalName.joinPlain_tokens (n : FinalName) (ts : List SourceToken) :
    joinPlain (n.tokens ++ ts) = n.tokens ++ joinPlain ts := by
  cases n <;> rfl

theorem FinalName.scanned {whole s : List Char} {r : TokenRun} (n : FinalName)
    (h : Scanned whole [⟨'[', s.length + 1⟩] s r) :
    ∃ r', Scanned whole [] (n.text.toList ++ '[' :: s) r' ∧
      r'.tokens.map PlacedToken.token = n.tokens ++ r.tokens.map PlacedToken.token := by
  have hend : isNameRest '[' = false := by decide
  have hpoint : isNameRest '.' = false := by decide
  have hfinal := @IsSourceName.sourceToken?_eq 'F' "inal".toList ('[' :: s) isSourceName_final
    (by simpa using hend)
  have hbracketed : ∃ r', Scanned whole [] ("Final".toList ++ '[' :: s) r' ∧
      r'.tokens.map PlacedToken.token
        = .name "Final" :: .mark '[' :: r.tokens.map PlacedToken.token :=
    ⟨_, .token (by decide) hfinal rfl (.token (by decide) (sourceToken?_bracket s) rfl h), rfl⟩
  cases n with
  | bare => exact hbracketed
  | qualified =>
    obtain ⟨r', hr', htokens⟩ := hbracketed
    have htyping := @IsSourceName.sourceToken?_eq 't' "yping".toList
      ('.' :: ("Final".toList ++ '[' :: s)) isSourceName_typing (by simpa using hpoint)
    have hdot := sourceToken?_point (c := 'F') (s := "inal".toList ++ '[' :: s) (by decide)
    refine ⟨_, .token (by decide) htyping rfl (.token (by decide) hdot rfl hr'), ?_⟩
    simp [TokenRun.map_after, htokens, FinalName.tokens]

/-! ## Arguments -/

/-- The text writes the expression, and no comment goes on behind it. -/
structure WritesExpr (text : String) (e : SourceExpr) : Prop where
  reads : SourceExpr.ofText text.toList = .ok e
  closed : endsInComment (unifyLineEnds text.toList) = false

/-- The text of a final annotation. -/
def FinalName.annotate (n : FinalName) (text : String) : String := n.text ++ "[" ++ text ++ "]"

theorem Scanned.blanks {whole s b : List Char} {opened : List OpenBracket} {r : TokenRun}
    (hb : ∀ c ∈ b, isSourceBlank c = true) (h : Scanned whole opened s r) :
    Scanned whole opened (b ++ s) r := by
  induction b with
  | nil => exact h
  | cons c b ih =>
    obtain ⟨hc, hb⟩ := List.forall_mem_cons.1 hb
    exact .blank hc (ih hb)

theorem endsInComment_blanks {s b : List Char} (hb : ∀ c ∈ b, isSourceBlank c = true) :
    endsInComment (b ++ s) = endsInComment s := by
  induction b with
  | nil => rfl
  | cons c b ih =>
    obtain ⟨hc, hb⟩ := List.forall_mem_cons.1 hb
    rw [List.cons_append, endsInComment_blank hc, ih hb]

/-- The blanks that are dropped in front of a text mean nothing in it. -/
theorem exists_lead_blanks (s : List Char) :
    ∃ b, unifyLineEnds s = b ++ sourceLines s ∧ ∀ c ∈ b, isSourceBlank c = true := by
  let p : Char → Bool := fun c => c = ' ' || c = '\t'
  have hmem : ∀ c ∈ s.takeWhile p, c = ' ' ∨ c = '\t' := by
    intro c hc
    simpa [p] using List.mem_takeWhile_imp hc
  refine ⟨s.takeWhile p, ?_, ?_⟩
  · rw [sourceLines, ← unifyLineEnds_append, List.takeWhile_append_dropWhile]
    intro hr
    rcases hmem _ hr with h | h <;> exact absurd h (by decide)
  · intro c hc
    rcases hmem c hc with rfl | rfl <;> decide

theorem FinalName.sourceLines_annotate (n : FinalName) (text : String) :
    sourceLines (n.annotate text).toList
      = n.text.toList ++ '[' :: (unifyLineEnds text.toList ++ [']']) := by
  have hlines : unifyLineEnds (text.toList ++ [']']) = unifyLineEnds text.toList ++ [']'] :=
    unifyLineEnds_concat (by decide) (by decide) _
  have htext : (n.annotate text).toList = (n.text.toList ++ ['[']) ++ (text.toList ++ [']']) := by
    simp [annotate, String.toList_append]
  have hdrop : ((n.text.toList ++ ['[']) ++ (text.toList ++ [']'])).dropWhile
      (fun c => c = ' ' || c = '\t') = (n.text.toList ++ ['[']) ++ (text.toList ++ [']']) := by
    cases n <;> simp [FinalName.text]
  rw [sourceLines, htext, hdrop, unifyLineEnds_append (by cases n <;> decide), hlines]
  simp

/-- The tokens of an expression leave no bracket open. -/
theorem Scanned.unclosed_eq_none {whole s : List Char} {r : TokenRun} {e : SourceExpr}
    {rest : List Frame} (hscan : Scanned whole [] s r)
    (hrun : runTokens (joinPlain (r.tokens.map PlacedToken.token) ++ [.lineEnd]) readingStart
      = some (.ended e, rest)) : r.unclosed = none := by
  have hbrackets := bracketsOn_of_run hrun
  rw [bracketsOn_joinPlain] at hbrackets
  have hunclosed := hscan.unclosed
  rw [List.map_nil, hbrackets] at hunclosed
  simpa using hunclosed

/-- A final annotation has the tokens of the form, those of its type, and the bracket. -/
theorem FinalName.scanned_annotate (n : FinalName) {text : String} {r : TokenRun}
    (hscan : Scanned (sourceLines text.toList) [] (sourceLines text.toList) r)
    (hclosed : r.unclosed = none) (hcomment : endsInComment (unifyLineEnds text.toList) = false) :
    ∃ r', Scanned (sourceLines (n.annotate text).toList) [] (sourceLines (n.annotate text).toList)
        r' ∧
      r'.tokens.map PlacedToken.token
        = n.tokens ++ (withoutLayout (r.tokens.map PlacedToken.token) ++ [.mark ']']) := by
  obtain ⟨b, hb, hblank⟩ := exists_lead_blanks text.toList
  rw [hb, endsInComment_blanks hblank] at hcomment
  obtain ⟨r₁, hscan₁, htokens₁⟩ := hscan.inside (sourceLines (n.annotate text).toList)
    [⟨'[', (unifyLineEnds text.toList ++ [']']).length + 1⟩] hclosed hcomment rfl
  have hinside := hscan₁.blanks hblank
  rw [← List.append_assoc, ← hb] at hinside
  obtain ⟨r₂, hscan₂, htokens₂⟩ := n.scanned hinside
  rw [htokens₁] at htokens₂
  rw [n.sourceLines_annotate] at hscan₂ ⊢
  exact ⟨r₂, hscan₂, htokens₂⟩

/-- What a text writes is the argument that it writes in the brackets of a final annotation. -/
theorem FinalName.ofText_annotate (n : FinalName) {text : String} {e : SourceExpr}
    (h : WritesExpr text e) :
    SourceExpr.ofText (n.annotate text).toList = .ok (.subscript n.expr e) := by
  obtain ⟨hnull, r, rest, hscan, hrun⟩ := SourceExpr.ofText_eq_ok_iff.1 h.reads
  obtain ⟨r', hscan', htokens⟩ := n.scanned_annotate hscan (hscan.unclosed_eq_none hrun) h.closed
  obtain ⟨rest', hrun'⟩ := exists_run_argument n.expr hrun
  refine SourceExpr.ofText_eq_ok_iff.2 ⟨?_, r', rest', hscan', ?_⟩
  · obtain ⟨b, hb, hblank⟩ := exists_lead_blanks text.toList
    have hnullb : '\x00' ∉ b := fun hmem => absurd (hblank _ hmem) (by decide)
    rw [n.sourceLines_annotate, hb]
    cases n <;> simp [FinalName.text, hnull, hnullb]
  · rw [runTokens_append] at hrun
    obtain ⟨q, hq, -⟩ := Option.bind_eq_some_iff.1 hrun
    rw [htokens, n.joinPlain_tokens, joinPlain_append_mark,
      joinPlain_withoutLayout (LinesAround.of_run hq), List.append_assoc, runTokens_append,
      n.runTokens_tokens, List.append_assoc]
    exact hrun'

/-! ## Blanks -/

/-- The code points of the blanks. -/
def blankCodes : List Nat := blankRanges.flatMap fun r => List.range' r.1 (r.2 + 1 - r.1)

theorem forall_isBlank {P : Char → Prop} (h : ∀ n ∈ blankCodes, P (Char.ofNat n)) {c : Char}
    (hc : isBlank c = true) : P c := by
  obtain ⟨r, hr, hbounds⟩ := List.any_eq_true.1 hc
  simp only [Bool.and_eq_true, decide_eq_true_eq] at hbounds
  have hmem : c.toNat ∈ blankCodes :=
    List.mem_flatMap.2 ⟨r, hr, List.mem_range'_1.2 ⟨hbounds.1, by omega⟩⟩
  rw [← Char.ofNat_toNat c]
  exact h _ hmem

theorem isNameRest_of_isBlank {c : Char} (hc : isBlank c = true) : isNameRest c = false :=
  forall_isBlank (P := fun c => isNameRest c = false) (by decide +kernel) hc

theorem isNameStart_of_isBlank {c : Char} (hc : isBlank c = true) : isNameStart c = false :=
  forall_isBlank (P := fun c => isNameStart c = false) (by decide +kernel) hc

/-- A blank that separates no tokens cannot be shown, and no token starts with it. -/
theorem isBlank_of_sourceToken? {c : Char} {cs rest : List Char} {t : SourceToken}
    (hc : startsToken c = true) (h : sourceToken? c cs = .ok (some (t, rest))) :
    isBlank c = false := by
  by_contra hblank
  simp only [Bool.not_eq_false] at hblank
  have hfault : startsToken c = true → isNameStart c = false ∧ isBasicDigit c = false ∧ c ≠ '.' ∧
      isQuote c = false ∧ isPrintable c = false :=
    forall_isBlank (P := fun c => startsToken c = true → isNameStart c = false ∧
      isBasicDigit c = false ∧ c ≠ '.' ∧ isQuote c = false ∧ isPrintable c = false)
      (by decide +kernel) hblank
  obtain ⟨hname, hdigit, hpoint, hquote, hprint⟩ := hfault hc
  rw [sourceToken?, if_neg (by simp [hname]), startsNumber_cons, if_neg (by simp [hdigit, hpoint]),
    if_neg (by simp [hquote]), if_pos (by simp [hprint])] at h
  cases h

theorem isBlank_of_isSourceBlank {c : Char} (hc : isSourceBlank c = true) : isBlank c = true := by
  simp only [isSourceBlank, Bool.or_eq_true, decide_eq_true_eq] at hc
  obtain (rfl | rfl) | rfl := hc <;> decide

theorem trimStart_cons_of_isBlank {c : Char} (hc : isBlank c = true) (s : List Char) :
    trimStart (c :: s) = trimStart s := by
  rw [trimStart, List.dropWhile_cons, if_pos hc, trimStart]

theorem trimStart_cons_of_not_isBlank {c : Char} (hc : isBlank c = false) (s : List Char) :
    trimStart (c :: s) = c :: s := by
  rw [trimStart, List.dropWhile_cons, if_neg (by simp [hc])]

/-! ## First words -/

/-- The name that a text starts with is a token of it, and what follows the name gives others. -/
theorem Scanned.exists_after_word {whole s word rest : List Char} {opened : List OpenBracket}
    {r : TokenRun} (h : Scanned whole opened s r) (hword : IsSourceName word)
    (hrest : ∀ c ∈ rest.head?, isNameRest c = false) (hs : trimStart s = word ++ rest) :
    .name (String.ofList word) ∈ r.tokens.map PlacedToken.token ∧
      ∃ opened' r', Scanned whole opened' rest r' ∧
        ∀ t ∈ r'.tokens.map PlacedToken.token, t ∈ r.tokens.map PlacedToken.token := by
  obtain ⟨c, cs, rfl⟩ := List.exists_cons_of_ne_nil hword.nonempty
  have hstart : isNameStart c = true := hword.head
  -- A character that is no blank is the start of the name.
  have hfirst : ∀ {d : Char} {ds : List Char}, isBlank d = false →
      trimStart (d :: ds) = c :: cs ++ rest → d = c ∧ ds = cs ++ rest := by
    intro d ds hd h
    rw [trimStart_cons_of_not_isBlank hd] at h
    exact List.cons.inj h
  induction h with
  | nil => simp [trimStart] at hs
  | joined h _ =>
    obtain ⟨rfl, -⟩ := hfirst (by decide) hs
    exact absurd hstart (by decide)
  | newline h ih =>
    rw [trimStart_cons_of_isBlank (by decide)] at hs
    obtain ⟨hmem, opened', r', hr', hsub⟩ := ih hs
    rw [TokenRun.map_after]
    exact ⟨List.mem_append_right _ hmem, opened', r', hr',
      fun t ht => List.mem_append_right _ (hsub t ht)⟩
  | blank hc h ih =>
    rw [trimStart_cons_of_isBlank (isBlank_of_isSourceBlank hc)] at hs
    exact ih hs
  | comment h _ =>
    obtain ⟨rfl, -⟩ := hfirst (by decide) hs
    exact absurd hstart (by decide)
  | @token _ opened' d ds rest' t r' hd ht hb h _ =>
    obtain ⟨rfl, rfl⟩ := hfirst (isBlank_of_sourceToken? hd ht) hs
    rw [hword.sourceToken?_eq hrest] at ht
    cases ht
    rw [TokenRun.map_after]
    exact ⟨List.mem_append_left _ List.mem_cons_self, opened', r', h,
      fun t ht => List.mem_append_right _ ht⟩

/-- Between a module and the name of a member there is the point alone. -/
theorem Scanned.after_point {whole cs : List Char} {c : Char} {opened : List OpenBracket}
    {r : TokenRun} (h : Scanned whole opened ('.' :: c :: cs) r) (hc : isNameStart c = true) :
    ∃ opened' r', Scanned whole opened' (c :: cs) r' ∧
      r = r'.after [⟨.mark '.', cs.length + 2⟩] := by
  cases h with
  | blank hblank => exact absurd hblank (by decide)
  | @token _ opened' _ _ rest t r' hd ht hb h =>
    rw [sourceToken?_point hc] at ht
    cases ht
    exact ⟨opened', r', h, rfl⟩

theorem trimStart_unifyLineEnds (s : List Char) :
    trimStart (unifyLineEnds s) = unifyLineEnds (trimStart s) := by
  fun_induction unifyLineEnds s with
  | case1 => rfl
  | case2 s ih =>
    rw [trimStart_cons_of_isBlank (by decide), trimStart_cons_of_isBlank (by decide),
      trimStart_cons_of_isBlank (by decide), ih]
  | case3 c s hno ih =>
    by_cases hc : isBlank c = true
    · have hline : isBlank (if c = '\r' then '\n' else c) = true := by
        split
        · decide
        · exact hc
      rw [trimStart_cons_of_isBlank hline, trimStart_cons_of_isBlank hc, ih]
    · simp only [Bool.not_eq_true] at hc
      have hr : c ≠ '\r' := by
        rintro rfl
        exact absurd hc (by decide)
      rw [if_neg hr, trimStart_cons_of_not_isBlank hc, trimStart_cons_of_not_isBlank hc,
        unifyLineEnds_cons hr]

theorem head?_unifyLineEnds {p : Char → Bool} (hline : p '\n' = false) {s : List Char}
    (h : ∀ c ∈ s.head?, p c = false) : ∀ c ∈ (unifyLineEnds s).head?, p c = false := by
  fun_cases unifyLineEnds s with
  | case1 => simp
  | case2 s => simpa using hline
  | case3 c s hno =>
    have hc : p c = false := h c rfl
    simp only [List.head?_cons, Option.mem_some_iff, forall_eq']
    split
    · exact hline
    · exact hc

theorem mem_joinPlain {word : String} {ts : List SourceToken} (h : SourceToken.name word ∈ ts) :
    SourceToken.name word ∈ joinPlain ts := by
  induction ts with
  | nil => exact h
  | cons t ts ih =>
    rw [joinPlain_cons]
    obtain ⟨heq, -⟩ | ⟨s, u, rest, rfl, hjoin, heq⟩ := joinFront_cases t (joinPlain ts)
    · rw [heq]
      exact (List.mem_cons.1 h).elim (fun ht => ht ▸ List.mem_cons_self)
        fun hts => List.mem_cons_of_mem _ (ih hts)
    · have hts : SourceToken.name word ∈ joinPlain ts := ih (by simpa using h)
      rw [hjoin] at hts
      rw [heq]
      exact List.mem_cons_of_mem _ (by simpa using hts)

section

variable {text : String} {e : SourceExpr} {word rest : List Char}

/-- The tokens of a text that starts with a name: the name is one of them, and so are the tokens
of what follows it. -/
theorem SourceExpr.exists_scanned_word (h : SourceExpr.ofText text.toList = .ok e)
    (hword : IsSourceName word) (hrest : ∀ c ∈ rest.head?, isNameRest c = false)
    (hs : trimStart text.toList = word ++ rest) :
    e.mentions (String.ofList word) = true ∧
      ∃ whole opened r, Scanned whole opened (unifyLineEnds rest) r ∧
        ∀ name, SourceToken.name name ∈ r.tokens.map PlacedToken.token →
          e.mentions name = true := by
  obtain ⟨-, r, frames, hscan, hrun⟩ := SourceExpr.ofText_eq_ok_iff.1 h
  have hmentions : ∀ name, SourceToken.name name ∈ r.tokens.map PlacedToken.token →
      e.mentions name = true :=
    fun name hname => mentions_of_run hrun (mem_joinPlain hname)
  obtain ⟨b, hb, hblank⟩ := exists_lead_blanks text.toList
  have hstart : trimStart (sourceLines text.toList) = word ++ unifyLineEnds rest := by
    have hblanks : isBlankText b = true :=
      List.all_eq_true.2 fun c hc => isBlank_of_isSourceBlank (hblank c hc)
    rw [← trimStart_append_blank hblanks, ← hb, trimStart_unifyLineEnds, hs,
      unifyLineEnds_append hword.not_mem_return]
  obtain ⟨hmem, opened, r', hr', hsub⟩ :=
    hscan.exists_after_word hword (head?_unifyLineEnds (by decide) hrest) hstart
  exact ⟨hmentions _ hmem, _, opened, r', hr', fun name hname => hmentions name (hsub _ hname)⟩

/-- An expression mentions the member of the module that its text starts with. -/
theorem SourceExpr.mentions_member (h : SourceExpr.ofText text.toList = .ok e)
    (hword : IsSourceName word) (hrest : ∀ c ∈ rest.head?, isNameRest c = false)
    (hs : trimStart text.toList = "typing".toList ++ '.' :: (word ++ rest)) :
    e.mentions (String.ofList word) = true := by
  have hpoint : isNameRest '.' = false := by decide
  obtain ⟨-, whole, opened, r, hscan, hmentions⟩ :=
    exists_scanned_word h isSourceName_typing (by simpa using hpoint) hs
  obtain ⟨c, cs, rfl⟩ := List.exists_cons_of_ne_nil hword.nonempty
  have hc : isNameStart c = true := hword.head
  rw [unifyLineEnds_cons (by decide), unifyLineEnds_append hword.not_mem_return] at hscan
  obtain ⟨opened', r', hr', rfl⟩ := hscan.after_point hc
  have hstart : trimStart (c :: cs ++ unifyLineEnds rest) = c :: cs ++ unifyLineEnds rest := by
    refine trimStart_cons_of_not_isBlank ?_ _
    by_contra hblank
    simp [isNameStart_of_isBlank (by simpa using hblank)] at hc
  obtain ⟨hmem, -⟩ :=
    hr'.exists_after_word hword (head?_unifyLineEnds (by decide) hrest) hstart
  exact hmentions _ (by rw [TokenRun.map_after]; exact List.mem_append_right _ hmem)

/-- A text of an expression that does not mention final types is not the text of one. -/
theorem SourceExpr.finalInner?_eq_none (h : SourceExpr.ofText text.toList = .ok e)
    (hfinal : e.mentions "Final" = false) : finalInner? (trim text.toList) = none := by
  obtain ⟨b, hb, hblank⟩ := trimEnd_append (trimStart text.toList)
  have hs : trimStart text.toList = trim text.toList ++ b := hb
  by_contra hinner
  -- Where the pattern matches, the text starts with the name, or with the module and the name.
  obtain ⟨tail, htail, hmodule⟩ : ∃ tail, (∀ c ∈ (tail ++ b).head?, isNameRest c = false) ∧
      dropModule (trim text.toList) = "Final".toList ++ tail := by
    rw [finalInner?] at hinner
    split at hinner
    · next hdrop =>
      refine ⟨[], ?_, dropPrefix?_eq_some_iff.1 hdrop⟩
      intro c hc
      exact isNameRest_of_isBlank (List.all_eq_true.1 hblank c (List.mem_of_mem_head? hc))
    · next rest hdrop =>
      have hend : isNameRest '[' = false := by decide
      exact ⟨'[' :: rest, by simpa using hend, dropPrefix?_eq_some_iff.1 hdrop⟩
    · exact (hinner rfl).elim
  rw [dropModule] at hmodule
  cases hdrop : dropPrefix? "typing.".toList (trim text.toList) with
  | none =>
    rw [hdrop, Option.getD_none] at hmodule
    rw [hmodule, List.append_assoc] at hs
    obtain ⟨hmentions, -⟩ := exists_scanned_word h isSourceName_final htail hs
    exact absurd hfinal (by simpa using hmentions)
  | some s =>
    rw [hdrop, Option.getD_some] at hmodule
    rw [dropPrefix?_eq_some_iff.1 hdrop, hmodule] at hs
    have hmentions := mentions_member h isSourceName_final htail (by simpa using hs)
    exact absurd hfinal (by simpa using hmentions)

/-- An annotation that does not mention class variables is not one of a class variable. -/
theorem SourceExpr.isClassVariable_eq_false (h : SourceExpr.ofText text.toList = .ok e)
    (hshared : e.mentions "ClassVar" = false) :
    (.source text : Annotation).isClassVariable = false := by
  by_contra hvariable
  simp only [Bool.and_eq_true, Annotation.isClassVariable, decide_eq_true_eq,
    Bool.not_eq_false] at hvariable
  have hs := List.takeWhile_append_dropWhile (p := isNameRest) (l := trimStart text.toList)
  rw [hvariable.1] at hs
  have hrest : ∀ c ∈ ((trimStart text.toList).dropWhile isNameRest).head?,
      isNameRest c = false := by
    intro c hc
    have hhead := List.head?_dropWhile_not isNameRest (trimStart text.toList)
    rw [hc] at hhead
    simpa using hhead
  obtain ⟨hmentions, -⟩ := exists_scanned_word h isSourceName_classVar hrest hs.symm
  exact absurd hshared (by simpa using hmentions)

end

end Styling
