import Styling.Literal.Reading

/-!
# Structured literals

Colors, insets, dimensions and fonts from their texts. The tokens are read first, so a text that
has the wrong shape is reported as such even if one of its numbers is out of range as well.
-/

namespace Styling.Literal

open Styling.Decimal Styling.Text

/-- The texts of the tokens of a kind. -/
def textsOf (kind : TokenKind) (tokens : List Token) : List (List Char) :=
  (tokens.filter fun t => t.kind = kind).map Token.text

/-- The number that an integer token writes. -/
def integerOf (s : List Char) : Except LiteralFault Int :=
  match (Integer.mk (splitSign s).1 (splitSign s).2).read with
  | .ok n => .ok n
  | .error e => .error (.digits e)

/-! ## Colors -/

/-- The value of two hexadecimal digits as a channel. -/
def hexChannel (a b : Char) : Fin 256 := Fin.ofNat 256 (16 * hexValue a + hexValue b)

/-- The color of hexadecimal digits: one or two for each channel, opaque without a fourth. -/
def hexColor : List Char → Except LiteralFault Color
  | [r, g, b] => .ok ⟨hexChannel r r, hexChannel g g, hexChannel b b, 255⟩
  | [r, g, b, a] => .ok ⟨hexChannel r r, hexChannel g g, hexChannel b b, hexChannel a a⟩
  | [r, r', g, g', b, b'] => .ok ⟨hexChannel r r', hexChannel g g', hexChannel b b', 255⟩
  | [r, r', g, g', b, b', a, a'] =>
    .ok ⟨hexChannel r r', hexChannel g g', hexChannel b b', hexChannel a a'⟩
  | digits => .error (.hexCount digits.length)

/-- The color of three or four channels in decimal; without a fourth it is opaque. -/
def decimalColor (channels : List Int) : Except LiteralFault Color :=
  let color := match channels with
    | [r, g, b] => Color.ofChannels r g b 255
    | [r, g, b, a] => Color.ofChannels r g b a
    | _ => Color.ofChannels 0 0 0 0
  match color with
  | .ok c => .ok c
  | .error fault => .error (.channel fault)

/-- The color that some tokens write. -/
def colorOf (tokens : List Token) : Except LiteralFault Color :=
  match textsOf .hex tokens with
  | text :: _ => hexColor (text.drop 1)
  | [] => do decimalColor (← (textsOf .digits tokens).mapM integerOf)

/-! ## Insets and dimensions -/

/-- The insets that some tokens write: top, left, bottom and right. -/
def insetsOf (tokens : List Token) : Except LiteralFault Insets := do
  match ← (textsOf .integer tokens).mapM integerOf with
  | [top, left, bottom, right] => return ⟨top, left, bottom, right⟩
  | _ => return ⟨0, 0, 0, 0⟩

/-- The dimension that some tokens write: width and height. -/
def dimensionOf (tokens : List Token) : Except LiteralFault Dimension := do
  match ← (textsOf .integer tokens).mapM integerOf with
  | [width, height] => return ⟨width, height⟩
  | _ => return ⟨0, 0⟩

/-! ## Fonts -/

/-- A text with every escaped quotation mark replaced by the mark alone. -/
def unescapeQuotes : List Char → List Char
  | '\\' :: '"' :: cs => '"' :: unescapeQuotes cs
  | c :: cs => c :: unescapeQuotes cs
  | [] => []

/-- The family name in a token between quotation marks. -/
def unquoteFamily (s : List Char) : List Char := unescapeQuotes (s.drop 1).dropLast

/-- The double that a number token writes. -/
def doubleOf (s : List Char) : Double :=
  match Numeral.scan isBasicDigit s with
  | some (n, _) => n.double
  | none => .nan

/-- Adds a word to the last family. -/
def addWord (word : List Char) (families : List (List Char)) : List (List Char) :=
  match families.getLast? with
  | some family => families.dropLast ++ [family ++ ' ' :: word]
  | none => [word]

/-- A font of which some tokens have been read. The last family can take another word while
`inFamily` holds. -/
structure FontReading where
  font : Font
  families : List (List Char)
  inFamily : Bool

def FontReading.start : FontReading := ⟨Font.plain, [], false⟩

/-- What a token adds to the font. A number with a sign is a relative size; a word continues the
family that the word before it belongs to. -/
def FontReading.add (r : FontReading) (t : Token) : FontReading :=
  match t.kind with
  | .bold => { r with font := { r.font with bold := true } }
  | .italic => { r with font := { r.font with italic := true } }
  | .number =>
    let size := some (Number.real (doubleOf t.text))
    if (splitSign t.text).1.isSome then { r with font := { r.font with relativeSize := size } }
    else { r with font := { r.font with size := size } }
  | .quoted => { r with families := r.families ++ [unquoteFamily t.text], inFamily := false }
  | .word =>
    if r.inFamily then { r with families := addWord t.text r.families }
    else { r with families := r.families ++ [t.text], inFamily := true }
  | .comma => { r with inFamily := false }
  | _ => r

/-- The font that some tokens write. -/
def fontOf (tokens : List Token) : Font :=
  let r := tokens.foldl FontReading.add FontReading.start
  { r.font with families := r.families.map String.ofList }

/-! ## Whole texts -/

def color (s : List Char) : Except LiteralFault Color := readTokens .color s >>= colorOf

def insets (s : List Char) : Except LiteralFault Insets := readTokens .insets s >>= insetsOf

def dimension (s : List Char) : Except LiteralFault Dimension :=
  readTokens .dimension s >>= dimensionOf

def font (s : List Char) : Except LiteralFault Font := (readTokens .font s).map fontOf

end Styling.Literal
