import Styling.Decimal.Numeral
import Styling.Text.Quoted
import Styling.Text.Split
import Styling.Text.Word

/-!
# Tokens of structured literals

Colors, insets, dimensions and fonts are written in tokens with gaps between them. Which kinds of
token can come next depends on what came before; of these kinds the first that fits is taken. A
token is a non-empty part of the text, in its place (`lexeme?_append`).
-/

namespace Styling.Literal

open Styling.Decimal Styling.Text

/-- The kinds of token, in the order in which they are tried. -/
inductive TokenKind where
  | number | word | integer | quoted | hex | digits | italic | plain | bold | rgba | rgb
  | comma | opening | closing
deriving DecidableEq, Repr

namespace TokenKind

/-- All kinds, in the order in which they are tried. -/
def all : List TokenKind :=
  [number, word, integer, quoted, hex, digits, italic, plain, bold, rgba, rgb, comma, opening,
   closing]

/-- The name of a kind in messages. -/
def label : TokenKind → String
  | number => "SIGNED_NUMBER"
  | word => "CNAME"
  | integer => "SIGNED_INT"
  | quoted => "ESCAPED_STRING"
  | hex => "HEX_COLOR"
  | digits => "INT"
  | italic => "ITALIC"
  | plain => "PLAIN"
  | bold => "BOLD"
  | rgba => "RGBA"
  | rgb => "RGB"
  | comma => "COMMA"
  | opening => "LPAR"
  | closing => "RPAR"

/-- The text of a kind that is a fixed word. -/
def keyword? : TokenKind → Option (List Char)
  | italic => some "italic".toList
  | plain => some "plain".toList
  | bold => some "bold".toList
  | rgba => some "rgba".toList
  | rgb => some "rgb".toList
  | _ => none

end TokenKind

/-! ## Lexemes -/

/-- The part of a text up to the quotation mark that closes it, and the rest. A mark after an odd
number of backslashes does not close, and the text ends at the end of the line. -/
def closeQuote (escaped : Bool) : List Char → Option (List Char × List Char)
  | [] => none
  | c :: cs =>
    if c = '\n' then none
    else if c = '"' && !escaped then some ([c], cs)
    else (closeQuote (c = '\\' && !escaped) cs).map fun p => (c :: p.1, p.2)

/-- A non-empty run of characters with a property. -/
def run? (p : Char → Bool) (s : List Char) : Option (List Char × List Char) :=
  if (s.takeWhile p).isEmpty then none else some (s.takeWhile p, s.dropWhile p)

/-- A fixed text. -/
def fixed? (w s : List Char) : Option (List Char × List Char) :=
  (dropPrefix? w s).map (w, ·)

/-- A word and what follows it. -/
def word? : List Char → Option (List Char × List Char)
  | [] => none
  | c :: cs =>
    if isWordStart c then some (c :: cs.takeWhile isWordRest, cs.dropWhile isWordRest) else none

/-- Digits after an optional sign. -/
def integer? (s : List Char) : Option (List Char × List Char) :=
  (run? isBasicDigit (splitSign s).2).map fun p => ((splitSign s).1.toList ++ p.1, p.2)

/-- The token of a kind that a text starts with, and the rest of the text. -/
def TokenKind.lexeme? (kind : TokenKind) (s : List Char) : Option (List Char × List Char) :=
  match kind with
  | .number => (Numeral.scan isBasicDigit s).map fun p => (p.1.text, p.2)
  | .word => word? s
  | .integer => integer? s
  | .quoted =>
    match s with
    | '"' :: cs => (closeQuote false cs).map fun p => ('"' :: p.1, p.2)
    | _ => none
  | .hex =>
    match s with
    | '#' :: cs => (run? isHexDigit cs).map fun p => ('#' :: p.1, p.2)
    | _ => none
  | .digits => run? isBasicDigit s
  | .italic => fixed? "italic".toList s
  | .plain => fixed? "plain".toList s
  | .bold => fixed? "bold".toList s
  | .rgba => fixed? "rgba".toList s
  | .rgb => fixed? "rgb".toList s
  | .comma => fixed? [','] s
  | .opening => fixed? ['('] s
  | .closing => fixed? [')'] s

/-! ## The next token -/

/-- The kinds to try where `admitted` can come: a fixed word is not tried beside words, of which it
is a special case. -/
def tried (admitted : List TokenKind) : List TokenKind :=
  TokenKind.all.filter fun k =>
    admitted.contains k && !(k.keyword?.isSome && admitted.contains .word)

/-- The admitted kind of a word: that of the fixed word it is, if there is one. -/
def wordKind (admitted : List TokenKind) (lexeme : List Char) : TokenKind :=
  (admitted.find? fun k => k.keyword? = some lexeme).getD .word

/-- The token that a text starts with, where the kinds `admitted` can come. -/
def nextToken? (admitted : List TokenKind) (s : List Char) :
    Option (TokenKind × List Char × List Char) :=
  (tried admitted).findSome? fun k =>
    (k.lexeme? s).map fun p => (if k = .word then wordKind admitted p.1 else k, p.1, p.2)

/-! ## A token is a part of the text -/

theorem closeQuote_append {e : Bool} {s l r : List Char} (h : closeQuote e s = some (l, r)) :
    s = l ++ r := by
  induction s generalizing e l with
  | nil => simp [closeQuote] at h
  | cons c cs ih =>
    simp only [closeQuote] at h
    split at h
    · contradiction
    · split at h
      · obtain ⟨rfl, rfl⟩ : [c] = l ∧ cs = r := by simpa using h
        simp
      · obtain ⟨⟨p, q⟩, hp, he⟩ := Option.map_eq_some_iff.1 h
        obtain ⟨rfl, rfl⟩ : c :: p = l ∧ q = r := by simpa using he
        rw [ih hp, List.cons_append]

theorem run?_append {p : Char → Bool} {s l r : List Char} (h : run? p s = some (l, r)) :
    s = l ++ r ∧ l ≠ [] := by
  unfold run? at h
  split at h
  · contradiction
  · next hne =>
    obtain ⟨rfl, rfl⟩ : s.takeWhile p = l ∧ s.dropWhile p = r := by simpa using h
    exact ⟨List.takeWhile_append_dropWhile.symm, by simpa using hne⟩

theorem fixed?_append {w s l r : List Char} (h : fixed? w s = some (l, r)) :
    s = l ++ r ∧ l = w := by
  obtain ⟨t, ht, he⟩ := Option.map_eq_some_iff.1 h
  obtain ⟨rfl, rfl⟩ : w = l ∧ t = r := by simpa using he
  exact ⟨dropPrefix?_eq_some_iff.1 ht, rfl⟩

theorem word?_append {s l r : List Char} (h : word? s = some (l, r)) : s = l ++ r ∧ l ≠ [] := by
  cases s with
  | nil => simp [word?] at h
  | cons c cs =>
    simp only [word?] at h
    split at h
    · obtain ⟨rfl, rfl⟩ : c :: cs.takeWhile isWordRest = l ∧ cs.dropWhile isWordRest = r := by
        simpa using h
      simp [List.takeWhile_append_dropWhile]
    · contradiction

theorem integer?_append {s l r : List Char} (h : integer? s = some (l, r)) :
    s = l ++ r ∧ l ≠ [] := by
  obtain ⟨⟨p, q⟩, hp, he⟩ := Option.map_eq_some_iff.1 h
  obtain ⟨rfl, rfl⟩ : (splitSign s).1.toList ++ p = l ∧ q = r := by simpa using he
  obtain ⟨ha, hne⟩ := run?_append hp
  exact ⟨by rw [List.append_assoc, ← ha]; exact eq_of_splitSign s, by simp [hne]⟩

theorem number_append {s l r : List Char} (h : TokenKind.number.lexeme? s = some (l, r)) :
    s = l ++ r ∧ l ≠ [] := by
  obtain ⟨⟨n, t⟩, hn, he⟩ := Option.map_eq_some_iff.1 h
  obtain ⟨rfl, rfl⟩ : n.text = l ∧ t = r := by simpa using he
  refine ⟨Numeral.eq_of_scan hn, ?_⟩
  simp only [Numeral.scan, Option.map_eq_some_iff] at hn
  obtain ⟨⟨⟨w, p, f⟩, u⟩, hd, he⟩ := hn
  obtain ⟨rfl, -⟩ := Prod.mk.inj he
  rcases Numeral.digits_or_point_of_scanDigits hd with hw | rfl
  · simp [Numeral.text, hw]
  · simp [Numeral.text]

/-- A token is a non-empty start of the text, and the rest follows it. -/
theorem lexeme?_append {kind : TokenKind} {s l r : List Char} (h : kind.lexeme? s = some (l, r)) :
    s = l ++ r ∧ l ≠ [] := by
  cases kind with
  | number => exact number_append h
  | word => exact word?_append h
  | integer => exact integer?_append h
  | digits => exact run?_append h
  | quoted =>
    simp only [TokenKind.lexeme?] at h
    split at h
    · obtain ⟨⟨p, q⟩, hp, he⟩ := Option.map_eq_some_iff.1 h
      obtain ⟨rfl, rfl⟩ : '"' :: p = l ∧ q = r := by simpa using he
      simp [closeQuote_append hp]
    · contradiction
  | hex =>
    simp only [TokenKind.lexeme?] at h
    split at h
    · obtain ⟨⟨p, q⟩, hp, he⟩ := Option.map_eq_some_iff.1 h
      obtain ⟨rfl, rfl⟩ : '#' :: p = l ∧ q = r := by simpa using he
      simp [(run?_append hp).1]
    · contradiction
  | _ =>
    obtain ⟨ha, rfl⟩ := fixed?_append h
    exact ⟨ha, by decide⟩

/-- The next token is a non-empty start of the text, and the rest follows it. -/
theorem nextToken?_append {admitted : List TokenKind} {s l r : List Char} {k : TokenKind}
    (h : nextToken? admitted s = some (k, l, r)) : s = l ++ r ∧ l ≠ [] := by
  obtain ⟨k', -, hk⟩ := List.exists_of_findSome?_eq_some h
  obtain ⟨⟨p, q⟩, hp, he⟩ := Option.map_eq_some_iff.1 hk
  obtain ⟨-, rfl, rfl⟩ : _ ∧ p = l ∧ q = r := by simpa using he
  exact lexeme?_append hp

end Styling.Literal
