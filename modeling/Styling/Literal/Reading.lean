import Styling.Literal.Token
import Styling.Value

/-!
# Reading the tokens of a literal

Each kind of literal is a walk from place to place. A place says which kinds of token can come
next and whether the literal can end there; a token leads to the next place. Gaps between tokens
are passed over. `readTokens` gives the tokens of a whole text, or says what stands in the way.
-/

namespace Styling.Literal

open Styling.Decimal Styling.Text

/-- A position in a text: its line, and the character in the line, both from one. -/
structure Position where
  line : Nat
  column : Nat
deriving DecidableEq, Repr

/-- Where every text starts. -/
def Position.start : Position := ⟨1, 1⟩

/-- The position after a character. -/
def Position.after (p : Position) (c : Char) : Position :=
  if c = '\n' then ⟨p.line + 1, 1⟩ else ⟨p.line, p.column + 1⟩

/-- The position after a part of the text. -/
def Position.past (p : Position) (s : List Char) : Position := s.foldl Position.after p

structure Token where
  kind : TokenKind
  text : List Char
  position : Position

/-- Why a text is no literal of its kind. -/
inductive LiteralFault where
  /-- This token cannot come here. -/
  | unexpectedToken (token : Token)
  /-- The text cannot end here; the position is that of its last token. -/
  | unexpectedEnd (position : Position)
  /-- No token starts with this character. -/
  | noToken (c : Char) (position : Position)
  /-- A hexadecimal color with a wrong number of digits. -/
  | hexCount (digits : Nat)
  | channel (fault : ChannelFault)
  | digits (excess : DigitExcess)

/-- The message about a token at a position. -/
def unexpectedMessage (label text : String) (p : Position) : String :=
  "Unexpected token Token('" ++ label ++ "', " ++ text ++ ") at line " ++ toString p.line
    ++ ", column " ++ toString p.column ++ "."

/-- The reason as one line. The character that no token starts with is shown as it is, so that the
line ends there if it is a line break. -/
def LiteralFault.reason : LiteralFault → String
  | .unexpectedToken t =>
    unexpectedMessage t.kind.label (String.ofList (quoted t.text)) t.position
  | .unexpectedEnd p => unexpectedMessage "$END" "''" p
  | .noToken c p =>
    String.ofList (firstLine ("No terminal matches '".toList ++ [c]
      ++ ("' in the current parser context, at line " ++ toString p.line ++ " col "
        ++ toString p.column).toList))
  | .hexCount n => "expected 3, 4, 6 or 8 hex digits, got " ++ toString n
  | .channel fault => fault.message
  | .digits excess => excess.message

/-! ## Places -/

/-- A place in a literal. -/
inductive Place where
  /-- Tokens of these kinds follow, and nothing else. -/
  | sequence (kinds : List TokenKind)
  /-- A color starts here. -/
  | color
  /-- Style words of a font may stand here, and all that can follow them. -/
  | fontStyle
  /-- Families may start here. -/
  | families
  /-- A family has to start here. -/
  | family
  /-- After a word of a family. -/
  | afterWord
  /-- After a family in quotation marks. -/
  | afterQuoted

/-- The kinds of token of `n` numbers with commas between them, each number of kind `k`. -/
def listKinds (k : TokenKind) : Nat → List TokenKind
  | 0 => []
  | 1 => [k]
  | n + 1 => k :: .comma :: listKinds k n

/-- The kinds of token of `n` channels in brackets. -/
def channelKinds (n : Nat) : List TokenKind := .opening :: listKinds .digits n ++ [.closing]

namespace Place

/-- Where insets start: four integers. -/
def insets : Place := .sequence (listKinds .integer 4)

/-- Where a dimension starts: two integers. -/
def dimension : Place := .sequence (listKinds .integer 2)

/-- Where a font starts. -/
def font : Place := .fontStyle

/-- The kinds of token that can come next. -/
def admits : Place → List TokenKind
  | sequence [] => []
  | sequence (k :: _) => [k]
  | color => [.hex, .rgba, .rgb]
  | fontStyle => [.bold, .italic, .plain, .number, .quoted, .word]
  | families => [.quoted, .word]
  | family => [.quoted, .word]
  | afterWord => [.word, .comma]
  | afterQuoted => [.comma]

/-- The literal can end here. -/
def mayEnd : Place → Bool
  | sequence kinds => kinds.isEmpty
  | color => false
  | family => false
  | _ => true

/-- The place after a token of one of the admitted kinds. -/
def next : Place → TokenKind → Place
  | sequence kinds, _ => sequence kinds.tail
  | color, .rgb => sequence (channelKinds 3)
  | color, .rgba => sequence (channelKinds 4)
  | color, _ => sequence []
  | _, .quoted => afterQuoted
  | _, .word => afterWord
  | _, .comma => family
  | _, .number => families
  | _, _ => fontStyle

end Place

/-! ## Reading -/

/-- Blanks that may stand between tokens. -/
def isGap (c : Char) : Bool :=
  c = ' ' || c = '\t' || c = '\x0c' || c = '\r' || c = '\n'

/-- What stands in the way where none of the admitted tokens does: another token, or else a
character. -/
def obstacle (c : Char) (s : List Char) (p : Position) : LiteralFault :=
  match nextToken? TokenKind.all (c :: s) with
  | some (kind, text, _) => .unexpectedToken ⟨kind, text, p⟩
  | none => .noToken c p

/-- The tokens of a text that stands at a place and a position. The last token, which the end of
the text is reported at, started at `last`. -/
def readFrom (place : Place) (position last : Position) (s : List Char) :
    Except LiteralFault (List Token) :=
  let here := position.past (s.takeWhile isGap)
  match _hs : s.dropWhile isGap with
  | [] => if place.mayEnd then .ok [] else .error (.unexpectedEnd last)
  | c :: cs =>
    -- Only the admitted kinds are tried: a longer token of another kind does not win.
    match _ht : nextToken? place.admits (c :: cs) with
    | some (kind, text, rest) =>
      match readFrom (place.next kind) (here.past text) here rest with
      | .ok tokens => .ok (⟨kind, text, here⟩ :: tokens)
      | .error fault => .error fault
    | none => .error (obstacle c cs here)
termination_by s.length
decreasing_by
  -- A token is not empty, so the rest is shorter than the text.
  obtain ⟨ha, hne⟩ := nextToken?_append _ht
  have h1 : (s.dropWhile isGap).length ≤ s.length := by
    have := congrArg List.length (List.takeWhile_append_dropWhile (p := isGap) (l := s))
    simp only [List.length_append] at this
    omega
  have h2 := List.length_pos_iff.2 hne
  have h3 := congrArg List.length ha
  rw [_hs] at h1
  simp only [List.length_append] at h3
  omega

/-- The tokens of a literal that starts at a place. -/
def readTokens (place : Place) (s : List Char) : Except LiteralFault (List Token) :=
  readFrom place .start .start s

end Styling.Literal
