import Styling.Kind
import Styling.Text.Split
import Styling.Text.Word
import Styling.Value.Written

/-!
# The style text of a value

`Value.format` writes a value as it stands in a style. Only the values that a style text can hold
have such a form.
-/

namespace Styling

open Styling.Decimal Styling.Text

/-- Why a value has no style text. -/
inductive FormatError where
  /-- Values of this kind have no style text. -/
  | unsupported (kind : String)
  /-- The size of a font is an integer out of the range of doubles. -/
  | sizeOverflow
  /-- An integer has too many digits. -/
  | digits (excess : DigitExcess)
deriving DecidableEq, Repr

def FormatError.message : FormatError → String
  | .unsupported kind => "cannot format value of type " ++ kind
  | .sizeOverflow => "int too large to convert to float"
  | .digits excess => excess.message

/-! ## Colors -/

/-- Two lower-case hexadecimal digits. -/
def hexPair (n : Fin 256) : List Char := hexDigits 2 n

/-- The hexadecimal text of a color, without the alpha channel if the color is opaque. -/
def Color.hex (c : Color) : List Char :=
  '#' :: hexPair c.red ++ hexPair c.green ++ hexPair c.blue
    ++ (if c.alpha.val = 255 then [] else hexPair c.alpha)

/-! ## Fonts -/

/-- The words of a font that give its style. A family of that name has to be quoted. -/
def styleWords : List (List Char) := ["bold".toList, "italic".toList, "plain".toList]

/-- A family that can stand without quotation marks: words with one space between them, but not a
style word alone. -/
def isBareFamily (name : List Char) : Bool :=
  (pieces [' '] name).all isWord && !styleWords.contains name

/-- A family between double quotation marks; those inside it are escaped. -/
def quotedFamily (name : List Char) : List Char :=
  '"' :: name.flatMap (fun c => if c = '"' then ['\\', '"'] else [c]) ++ ['"']

/-- The text of a family. -/
def familyText (name : List Char) : List Char :=
  if isBareFamily name then name else quotedFamily name

/-- A number as a double. -/
def Number.double : Number → Except FormatError Double
  | .flag b => .ok (Double.ofRank false (nearestRank b.toNat 1))
  | .whole n =>
    match Double.ofInt? n with
    | some x => .ok x
    | none => .error .sizeOverflow
  | .real x => .ok x

/-- Sizes are written like doubles, but whole ones without the point. -/
def sizeLayout : Layout := { doubleLayout with pointZero := false }

/-- The text of a size. -/
def sizeText (n : Number) : Except FormatError (List Char) := n.double.map sizeLayout.text

/-- The text of a relative size, which always has a sign. -/
def relativeSizeText (n : Number) : Except FormatError (List Char) :=
  (sizeText n).map fun s => if s.head? = some '-' then s else '+' :: s

/-- The size part of a font; an absolute size goes before a relative one. -/
def Font.sizePart (f : Font) : Except FormatError (List (List Char)) :=
  match f.size, f.relativeSize with
  | some n, _ => (sizeText n).map ([·])
  | none, some n => (relativeSizeText n).map ([·])
  | none, none => .ok []

/-- The text of a font; the word for an unchanged font if there is nothing else to say. -/
def Font.format (f : Font) : Except FormatError (List Char) :=
  f.sizePart.map fun size =>
    let parts := (if f.bold then ["bold".toList] else [])
      ++ (if f.italic then ["italic".toList] else [])
      ++ size
      ++ (if f.families.isEmpty then []
          else [join [',', ' '] (f.families.map fun s => familyText s.toList)])
    if parts.isEmpty then "plain".toList else join [' '] parts

/-! ## Values -/

/-- Integers with commas between them. -/
def formatInts (ns : List Int) : Except FormatError (List Char) :=
  match ns.mapM writeInt with
  | .ok ts => .ok (join [','] ts)
  | .error e => .error (.digits e)

/-- The style text of a value, as characters. -/
def Value.formatChars : Value → Except FormatError (List Char)
  | .null => .ok "null".toList
  | .flag b => .ok (if b then "true".toList else "false".toList)
  | .whole n => formatInts [n]
  | .real x => .ok (doubleText x)
  | .text s => .ok s.toList
  | .color c => .ok c.hex
  | .insets i => formatInts [i.top, i.left, i.bottom, i.right]
  | .dimension d => formatInts [d.width, d.height]
  | .font f => f.format
  | v => .error (.unsupported v.kind.name)

/-- The style text of a value. -/
def Value.format (v : Value) : Except FormatError String := v.formatChars.map String.ofList

end Styling
