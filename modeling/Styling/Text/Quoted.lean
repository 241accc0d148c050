import Styling.Text.Blank
import Styling.Text.Digit
import Styling.Text.PrintableTable

/-!
# Quoted text

How a text is shown inside quotes, so that its ends and its unprintable characters can be seen.
-/

namespace Styling.Text

/-- A character that is shown as it is. -/
def isPrintable (c : Char) : Bool :=
  if c.toNat < 0x7f then 0x20 ≤ c.toNat else inRanges printableRanges c.toNat

/-- The last `digits` hexadecimal digits of a number. -/
def hexDigits : (digits : Nat) → Nat → List Char
  | 0, _ => []
  | k + 1, n => hexDigits k (n / 16) ++ [hexDigit (n % 16)]

/-- The single quotation mark. -/
def singleQuote : Char := '\x27'

/-- The quotation mark around a text: the single one, unless the text holds it and holds no
double one. -/
def quoteFor (s : List Char) : Char :=
  if s.contains singleQuote && !s.contains '"' then '"' else singleQuote

/-- The escape of a character that is not printable: its code in two, four or eight digits. -/
def codeEscape (c : Char) : List Char :=
  if c.toNat ≤ 0xff then '\\' :: 'x' :: hexDigits 2 c.toNat
  else if c.toNat ≤ 0xffff then '\\' :: 'u' :: hexDigits 4 c.toNat
  else '\\' :: 'U' :: hexDigits 8 c.toNat

/-- A character as it stands between quotation marks `quote`. -/
def quoteChar (quote c : Char) : List Char :=
  if c = quote || c = '\\' then ['\\', c]
  else if c = '\n' then ['\\', 'n']
  else if c = '\r' then ['\\', 'r']
  else if c = '\t' then ['\\', 't']
  else if isPrintable c then [c]
  else codeEscape c

/-- A text between quotation marks. -/
def quoted (s : List Char) : List Char :=
  let quote := quoteFor s
  quote :: s.flatMap (quoteChar quote) ++ [quote]

/-- The quoted form of a string. -/
def quotedString (s : String) : String := String.ofList (quoted s.toList)

end Styling.Text
