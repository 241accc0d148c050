import Styling.Decimal.Numeral
import Styling.Source.Fault
import Styling.Text.Split
import Styling.Text.Word
import Styling.Value

/-!
# Tokens of source texts

A source text is taken apart into names, constants and marks. Inside brackets a line feed means
nothing; outside it ends the expression. Brackets have to match.
-/

namespace Styling

open Styling.Text Styling.Decimal

inductive SourceToken where
  | name (s : String)
  /-- A word that is no name. -/
  | keyword (s : String)
  /-- A text or a number. -/
  | constant (v : Value)
  | mark (c : Char)
  | dots
  | lineEnd
  /-- Blanks at the start of a line with something else in it. -/
  | indent

/-- A token, and how many characters are left from its start on. -/
structure PlacedToken where
  token : SourceToken
  left : Nat

/-! ## Names -/

/-- A character of some alphabet other than the basic one. -/
def isForeignLetter (c : Char) : Bool := 0x80 ≤ c.toNat && isPrintable c

/-- A character that can start a name. -/
def isNameStart (c : Char) : Bool := isWordStart c || isForeignLetter c

/-- A character that can go on with a name. -/
def isNameRest (c : Char) : Bool := isWordRest c || isForeignLetter c

/-- The words that are no names. -/
def sourceKeywords : List String :=
  ["and", "as", "assert", "async", "await", "break", "class", "continue", "def", "del", "elif",
   "else", "except", "finally", "for", "from", "global", "if", "import", "in", "is", "lambda",
   "nonlocal", "not", "or", "pass", "raise", "return", "try", "while", "with", "yield"]

/-- The token of a word. -/
def SourceToken.ofWord (word : List Char) : SourceToken :=
  let s := String.ofList word
  if sourceKeywords.contains s then .keyword s else .name s

/-! ## Texts -/

/-- What one character after a backslash stands for. -/
def escapedChars : List (Char × Char) :=
  [('\\', '\\'), (singleQuote, singleQuote), ('"', '"'), ('a', '\x07'), ('b', '\x08'),
   ('f', '\x0c'), ('n', '\n'), ('r', '\r'), ('t', '\t'), ('v', '\x0b')]

/-- The number that digits write in a base up to sixteen. -/
def radixValue (base : Nat) (digits : List Char) : Nat :=
  digits.foldl (fun n c => base * n + hexValue c) 0

/-- The character with a given number of hexadecimal digits at the start of a text. -/
def numberedChar (digits : Nat) (s : List Char) : List Char × Nat :=
  let code := s.take digits
  if code.length = digits && code.all isHexDigit then
    ([Char.ofNat (radixValue 16 code)], digits + 1)
  else (['\\'], 0)

/-- What a backslash stands for together with the characters after it, and how many of those that
takes. A backslash that escapes nothing stands for itself. -/
def escaped : List Char → List Char × Nat
  | [] => (['\\'], 0)
  | '\n' :: _ => ([], 1)
  | 'x' :: s => numberedChar 2 s
  | 'u' :: s => numberedChar 4 s
  | 'U' :: s => numberedChar 8 s
  | c :: s =>
    -- An octal code has one to three digits.
    let octal := ((c :: s).take 3).takeWhile fun d => '0' ≤ d && d ≤ '7'
    if octal.isEmpty then
      match escapedChars.find? fun e => e.1 = c with
      | some e => ([e.2], 1)
      | none => (['\\'], 0)
    else ([Char.ofNat (radixValue 8 octal)], octal.length)

/-- A text without its escapes; `skip` characters of one are still to be passed over. -/
def unescape : Nat → List Char → List Char
  | _, [] => []
  | skip + 1, _ :: cs => unescape skip cs
  | 0, c :: cs =>
    if c = '\\' then
      -- What the escape takes is skipped one by one, so that the recursion follows the text.
      let (shown, used) := escaped cs
      shown ++ unescape used cs
    else c :: unescape 0 cs

/-- The characters up to the quotation marks that close a text, escapes as they are written, and
what follows those marks. A text within single marks ends in its line. -/
def quotedPart (closing : List Char) : List Char → Option (List Char × List Char)
  | [] => none
  -- A mark after a backslash closes nothing.
  | '\\' :: c :: cs => (quotedPart closing cs).map fun p => ('\\' :: c :: p.1, p.2)
  | c :: cs =>
    match dropPrefix? closing (c :: cs) with
    | some rest => some ([], rest)
    | none =>
      if c = '\n' && closing.length = 1 then none
      else (quotedPart closing cs).map fun p => (c :: p.1, p.2)

theorem quotedPart_length {closing s : List Char} {p : List Char × List Char}
    (h : quotedPart closing s = some p) : p.2.length ≤ s.length := by
  fun_induction quotedPart closing s generalizing p with
  | case1 => simp at h
  | case2 c cs ih =>
    obtain ⟨q, hq, rfl⟩ := Option.map_eq_some_iff.1 h
    have := ih hq
    simp only [List.length_cons]
    omega
  | case3 c cs _ rest hr =>
    obtain rfl := Option.some.inj h
    have := congrArg List.length (dropPrefix?_eq_some_iff.1 hr)
    simp only [List.length_append] at this ⊢
    omega
  | case4 => simp at h
  | case5 c cs _ _ _ ih =>
    obtain ⟨q, hq, rfl⟩ := Option.map_eq_some_iff.1 h
    have := ih hq
    simp only [List.length_cons]
    omega

/-- The text that a quotation mark starts, and what follows it. Three marks start a text that may
go over several lines. -/
def sourceText? (raw : Bool) (quote : Char) (s : List Char) : Option (SourceToken × List Char) :=
  let part :=
    match dropPrefix? [quote, quote] s with
    | some rest => quotedPart [quote, quote, quote] rest
    | none => quotedPart [quote] s
  part.map fun p =>
    (.constant (.text (String.ofList (if raw then p.1 else unescape 0 p.1))), p.2)

/-- A character that starts a text. -/
def isQuote (c : Char) : Bool := c = '"' || c = singleQuote

/-- A word in front of a text that says how it is to be read: as it is written, or as usual. -/
def textMarker? (word : List Char) : Option Bool :=
  if word = ['r'] || word = ['R'] then some true
  else if word = ['u'] || word = ['U'] then some false
  else none

/-! ## Numbers -/

/-- A digit, or the underscore that may stand between two digits. -/
def isDigitOrUnderscore (c : Char) : Bool := isBasicDigit c || c = '_'

/-- The characters that a number takes from the start of a text up to the sign of its exponent, and
what follows them. -/
def numberStem (s : List Char) : List Char × List Char :=
  let whole := s.takeWhile isWordRest
  match s.dropWhile isWordRest with
  | '.' :: rest =>
    -- After anything but digits, a point stands in front of the name of a member.
    if whole.all isDigitOrUnderscore then
      (whole ++ '.' :: rest.takeWhile isWordRest, rest.dropWhile isWordRest)
    else (whole, '.' :: rest)
  | rest => (whole, rest)

/-- The word ends in the mark of an exponent. -/
def awaitsExponent (word : List Char) : Bool :=
  word.getLast?.any (fun c => c = 'e' || c = 'E')
    && !(word.take 2 = ['0', 'x'] || word.take 2 = ['0', 'X'])

/-- The characters that a number takes from the start of a text, and what follows them. -/
def numberWord (s : List Char) : List Char × List Char :=
  match numberStem s with
  | (stem, sign :: c :: rest) =>
    -- A sign belongs to the number only between the mark of an exponent and a digit.
    if awaitsExponent stem && (sign = '+' || sign = '-') && isBasicDigit c then
      (stem ++ sign :: (c :: rest).takeWhile isWordRest, (c :: rest).dropWhile isWordRest)
    else (stem, sign :: c :: rest)
  | p => p

/-- Every underscore of a number stands between two digits. -/
def underscoresFit (digit : Char → Bool) : List Char → Bool
  | [] => true
  | [c] => c ≠ '_'
  | c :: d :: s => (d ≠ '_' || (digit c && s.head?.any digit)) && underscoresFit digit (d :: s)

/-- A number in a base other than ten, with the name of the base. -/
def radixNumber (base : Nat) (baseName : String) (digits : List Char) :
    Except SourceFault Value :=
  let plain := digits.filter (· ≠ '_')
  -- The zero stands for the name of the base, after which an underscore may come.
  if plain.isEmpty || !underscoresFit isHexDigit ('0' :: digits) then
    .error (.badNumber ("invalid " ++ baseName ++ " literal"))
  else
    match plain.find? fun c => !(isHexDigit c && hexValue c < base) with
    | none => .ok (.whole (radixValue base plain))
    | some c =>
      .error (.badNumber (if isBasicDigit c then
          "invalid digit '" ++ c.toString ++ "' in " ++ baseName ++ " literal"
        else "invalid " ++ baseName ++ " literal"))

/-- The digits start with zero and are not zero. -/
def hasLeadingZero (digits : List Char) : Bool :=
  digits.head? = some '0' && digitsValue digits ≠ 0

/-- An integer in decimal digits starts with zero only if it is zero. -/
def leadingZeros : SourceFault :=
  .badNumber ("leading zeros in decimal integer literals are not permitted; "
    ++ "use an 0o prefix for octal integers")

/-- An integer in decimal digits. -/
def wholeNumber (digits : List Char) : Except SourceFault Value :=
  if hasLeadingZero digits then .error leadingZeros
  else
    match Integer.read ⟨none, digits⟩ with
    | .ok n => .ok (.whole n)
    | .error e =>
      .error (.badNumber (e.message ++ " - Consider hexadecimal for huge integer literals "
        ++ "to avoid decimal conversion limits."))

/-- Why a word that starts with a decimal digit is no number. The zeros it starts with are reported
before the letter that stops its digits. -/
def decimalFault (word : List Char) : SourceFault :=
  let digits := word.takeWhile isDigitOrUnderscore
  let rest := word.drop digits.length
  if hasLeadingZero (digits.filter (· ≠ '_')) && underscoresFit isBasicDigit digits
      && rest.head?.any (fun c => !(['.', 'e', 'E', 'j', 'J'].contains c)) then leadingZeros
  else .badNumber "invalid decimal literal"

/-- A number in decimal digits. -/
def decimalNumber (word : List Char) : Except SourceFault Value :=
  let plain := word.filter (· ≠ '_')
  match Numeral.scan isBasicDigit plain, underscoresFit isBasicDigit word with
  | some (n, []), true =>
    if n.point || n.exponent.isSome then .ok (.real n.double) else wholeNumber plain
  | _, _ => .error (decimalFault word)

/-- The number that a word writes. -/
def sourceNumber (word : List Char) : Except SourceFault Value :=
  match word with
  | '0' :: mark :: digits =>
    if mark = 'x' || mark = 'X' then radixNumber 16 "hexadecimal" digits
    else if mark = 'o' || mark = 'O' then radixNumber 8 "octal" digits
    else if mark = 'b' || mark = 'B' then radixNumber 2 "binary" digits
    else decimalNumber word
  | word => decimalNumber word

/-! ## Tokens -/

/-- The text starts with a number. -/
def startsNumber : List Char → Bool
  | '.' :: c :: _ => isBasicDigit c
  | c :: _ => isBasicDigit c
  | [] => false

/-- The token that a word or a sign starts. -/
def wordToken (word rest : List Char) : Option (SourceToken × List Char) :=
  match textMarker? word, rest with
  | some raw, quote :: rest =>
    if isQuote quote then sourceText? raw quote rest else some (.ofWord word, quote :: rest)
  | _, rest => some (.ofWord word, rest)

/-- The first token of a source text, which starts with no blank, and the rest of it; nothing if
a text has no end. -/
def sourceToken? (c : Char) (cs : List Char) : Except SourceFault (Option (SourceToken × List Char)) :=
  if isNameStart c then .ok (wordToken (c :: cs.takeWhile isNameRest) (cs.dropWhile isNameRest))
  else if startsNumber (c :: cs) then
    let (word, rest) := numberWord (c :: cs)
    (sourceNumber word).map fun v => some (.constant v, rest)
  else if isQuote c then .ok (sourceText? false c cs)
  else if !isPrintable c then .error (.unprintable c)
  else
    -- Three dots are one token; behind another mark the two dots are left for later.
    match dropPrefix? ['.', '.'] cs with
    | some rest => .ok (some (if c = '.' then (.dots, rest) else (.mark c, cs)))
    | none => .ok (some (.mark c, cs))

theorem length_dropWhile_lt (p : Char → Bool) (c : Char) (cs : List Char) :
    (cs.dropWhile p).length < (c :: cs).length := by
  have := (List.dropWhile_suffix p (l := cs)).length_le
  simp only [List.length_cons]
  omega

theorem sourceText?_length {raw : Bool} {quote : Char} {s r : List Char} {t : SourceToken}
    (h : sourceText? raw quote s = some (t, r)) : r.length ≤ s.length := by
  simp only [sourceText?, Option.map_eq_some_iff] at h
  obtain ⟨p, hp, he⟩ := h
  obtain ⟨-, rfl⟩ := Prod.mk.inj he
  split at hp
  · next rest hr =>
    have := congrArg List.length (dropPrefix?_eq_some_iff.1 hr)
    have := quotedPart_length hp
    simp only [List.length_append] at *
    omega
  · exact quotedPart_length hp

theorem wordToken_length {word rest r : List Char} {t : SourceToken}
    (h : wordToken word rest = some (t, r)) : r.length ≤ rest.length := by
  unfold wordToken at h
  split at h
  · split at h
    · have := sourceText?_length h
      simp only [List.length_cons]
      omega
    · obtain ⟨-, rfl⟩ := Prod.mk.inj (Option.some.inj h)
      exact Nat.le_refl _
  · obtain ⟨-, rfl⟩ := Prod.mk.inj (Option.some.inj h)
    exact Nat.le_refl _

theorem numberStem_append (s : List Char) : (numberStem s).1 ++ (numberStem s).2 = s := by
  have hs := List.takeWhile_append_dropWhile (p := isWordRest) (l := s)
  simp only [numberStem]
  split
  · next rest hr =>
    rw [hr] at hs
    split
    · simpa using hs
    · exact hs
  · exact hs

/-- A number and what follows it are the text. -/
theorem numberWord_append (s : List Char) : (numberWord s).1 ++ (numberWord s).2 = s := by
  have hs := numberStem_append s
  unfold numberWord
  split
  · next stem sign c rest hr =>
    rw [hr] at hs
    split
    · simpa using hs
    · exact hs
  · exact hs

theorem numberStem_ne_nil {s : List Char} (h : startsNumber s = true) : (numberStem s).1 ≠ [] := by
  unfold startsNumber at h
  split at h
  · have hpoint : isWordRest '.' = false := by decide
    simp [numberStem, hpoint]
  · next c cs _ =>
    have hc : isWordRest c = true := by simp [isWordRest, h]
    simp only [numberStem, List.takeWhile_cons_of_pos hc]
    split
    · split <;> simp
    · simp
  · contradiction

theorem numberWord_ne_nil {s : List Char} (h : startsNumber s = true) : (numberWord s).1 ≠ [] := by
  have hstem := numberStem_ne_nil h
  unfold numberWord
  split
  · next hr =>
    rw [hr] at hstem
    split
    · simp
    · exact hstem
  · exact hstem

theorem numberWord_length {s : List Char} (h : startsNumber s = true) :
    (numberWord s).2.length < s.length := by
  have hword := List.length_pos_iff.2 (numberWord_ne_nil h)
  have hs := congrArg List.length (numberWord_append s)
  rw [List.length_append] at hs
  omega

theorem sourceToken?_length {c : Char} {cs r : List Char} {t : SourceToken}
    (h : sourceToken? c cs = .ok (some (t, r))) : r.length < (c :: cs).length := by
  unfold sourceToken? at h
  split at h
  · have := wordToken_length (Except.ok.inj h)
    exact Nat.lt_of_le_of_lt this (length_dropWhile_lt _ _ _)
  · split at h
    · next hn =>
      have := numberWord_length hn
      cases hv : sourceNumber (numberWord (c :: cs)).1 with
      | error e => simp [hv, Except.map] at h
      | ok v =>
        simp only [hv, Except.map, Except.ok.injEq, Option.some.injEq, Prod.mk.injEq] at h
        obtain ⟨-, rfl⟩ := h
        exact this
    · split at h
      · have := sourceText?_length (Except.ok.inj h)
        simp only [List.length_cons]
        omega
      · split at h
        · simp at h
        · split at h
          · next rest hr =>
            have := congrArg List.length (dropPrefix?_eq_some_iff.1 hr)
            split at h <;>
              (simp only [Except.ok.injEq, Option.some.injEq, Prod.mk.injEq] at h
               obtain ⟨-, rfl⟩ := h
               simp only [List.length_append, List.length_cons, List.length_nil] at *
               omega)
          · simp only [Except.ok.injEq, Option.some.injEq, Prod.mk.injEq] at h
            obtain ⟨-, rfl⟩ := h
            simp

/-! ## Brackets -/

/-- The bracket that closes what another one opens. -/
def closingBracket? : Char → Option Char
  | '(' => some ')'
  | '[' => some ']'
  | '\x7b' => some '\x7d'
  | _ => none

/-- A bracket that closes. -/
def isClosingBracket (c : Char) : Bool := c = ')' || c = ']' || c = '\x7d'

/-- An open bracket, and how many characters are left from it on. -/
structure OpenBracket where
  bracket : Char
  left : Nat

/-- The open brackets after a token, innermost first. -/
def SourceToken.bracketsAfter (whole : List Char) (left : Nat) :
    SourceToken → List OpenBracket → Except Malformed (List OpenBracket)
  | .mark c, opened =>
    if (closingBracket? c).isSome then .ok (⟨c, left⟩ :: opened)
    else if !isClosingBracket c then .ok opened
    else
      let line := lineAt whole left
      match opened with
      | [] => .error ⟨.unmatched c, line⟩
      | o :: outer =>
        if closingBracket? o.bracket = some c then .ok outer
        else
          -- The line of the open bracket is told only if it is another one.
          let openLine := lineAt whole o.left
          .error ⟨.mismatched c o.bracket (if openLine = line then none else some openLine), line⟩
  | _, opened => .ok opened

/-! ## Whole texts -/

/-- The tokens of a text, and the innermost bracket that is still open at its end. -/
structure TokenRun where
  tokens : List PlacedToken
  unclosed : Option OpenBracket

/-- Puts tokens in front. -/
def TokenRun.after (r : TokenRun) (tokens : List PlacedToken) : TokenRun :=
  { r with tokens := tokens ++ r.tokens }

/-- A character that separates tokens and means nothing. -/
def isSourceBlank (c : Char) : Bool := c = ' ' || c = '\t' || c = '\x0c'

/-- The tokens of a line feed outside brackets. -/
def lineEndTokens (left : Nat) (rest : List Char) : List PlacedToken :=
  let inner := rest.dropWhile isSourceBlank
  if inner.length = rest.length || inner.head? = some '\n' || inner.head? = some '#' then
    [⟨.lineEnd, left⟩]
  else [⟨.lineEnd, left⟩, ⟨.indent, inner.length⟩]

/-- The tokens of the text `s`, with which the text `whole` ends. -/
def scanTokens (whole : List Char) (opened : List OpenBracket) (s : List Char) :
    Except Malformed TokenRun :=
  match s with
  | [] => .ok ⟨[], opened.head?⟩
  -- A backslash at the end of a line joins the next one to it.
  | '\\' :: '\n' :: cs => scanTokens whole opened cs
  | c :: cs =>
    let left := cs.length + 1
    if c = '\n' then
      (scanTokens whole opened cs).map fun r =>
        r.after (if opened.isEmpty then lineEndTokens left cs else [])
    else if isSourceBlank c then scanTokens whole opened cs
    else if c = '#' then scanTokens whole opened (cs.dropWhile (· ≠ '\n'))
    else if c = '\\' then .error ⟨.strayBackslash, lineAt whole left⟩
    else
      match _h : sourceToken? c cs with
      | .error fault => .error ⟨fault, lineAt whole left⟩
      | .ok none =>
        -- A text over several lines is open to the last line, any other only to the end of its own.
        let long := (dropPrefix? [c, c] cs).isSome
        let line := lineAt whole left
        .error ⟨.unterminated long (if long then lineCount whole else line), line⟩
      | .ok (some (token, rest)) =>
        match token.bracketsAfter whole left opened with
        | .error e => .error e
        | .ok opened => (scanTokens whole opened rest).map (TokenRun.after · [⟨token, left⟩])
termination_by s.length
decreasing_by
  · simp only [List.length_cons]; omega
  · simp
  · simp
  · exact length_dropWhile_lt _ _ _
  · exact sourceToken?_length _h

/-- Texts side by side are one text. -/
def joinTexts : List PlacedToken → List PlacedToken
  | [] => []
  | p :: ps =>
    match p.token, joinTexts ps with
    | .constant (.text s), ⟨.constant (.text t), _⟩ :: rest =>
      ⟨.constant (.text (s ++ t)), p.left⟩ :: rest
    | _, rest => p :: rest

/-- A text in which every line ends in a line feed alone. -/
def unifyLineEnds : List Char → List Char
  | [] => []
  | '\r' :: '\n' :: s => '\n' :: unifyLineEnds s
  | c :: s => (if c = '\r' then '\n' else c) :: unifyLineEnds s

/-- The tokens of a source text. -/
def sourceTokens (s : List Char) : Except Malformed TokenRun :=
  if s.contains '\x00' then .error ⟨.nullCharacter, 1⟩
  else (scanTokens s [] s).map fun r => { r with tokens := joinTexts r.tokens }

end Styling
