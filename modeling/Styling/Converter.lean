import Styling.Error
import Styling.Literal.Structured

/-!
# Converters

A converter reads the text of a value for a key. The structured kinds report the key and the text
of a value they cannot read. Numbers and plain literals are read by their form alone; a literal
that has no other form is a text.
-/

namespace Styling

open Styling.Decimal Styling.Text

/-- What is wrong with a statement. -/
inductive StatementFault where
  | missingColon | missingKey | missingValue
deriving DecidableEq, Repr

def StatementFault.message (fault : StatementFault) (statement : String) : String :=
  (match fault with
    | .missingColon => "missing colon in '"
    | .missingKey => "missing key in '"
    | .missingValue => "missing value in '") ++ statement ++ "'"

/-- What is wrong with the text of a value. -/
inductive ValueFault where
  | notNumber
  | literal (fault : Literal.LiteralFault)

def ValueFault.reason : ValueFault → String
  | .notNumber => "expected a number"
  | .literal fault => fault.reason

/-- Why a style text cannot be read. -/
inductive ReadError where
  | malformed (fault : StatementFault) (statement : String)
  | badValue (key raw : String) (fault : ValueFault)
  /-- A separator of the settings is empty. -/
  | emptySeparator
  /-- A plain integer has too many digits. -/
  | digits (excess : DigitExcess)

/-- The style error of a malformed text. The two other causes are no style errors. -/
def ReadError.styleError? : ReadError → Option StyleError
  | .malformed fault statement => some (.malformed (fault.message statement) (some statement))
  | .badValue key raw fault => some (.badValue key raw fault.reason)
  | .emptySeparator => none
  | .digits _ => none

def ReadError.message (e : ReadError) : String :=
  match e, e.styleError? with
  | _, some error => error.message
  | .digits excess, none => excess.message
  | _, none => "empty separator"

/-- Reads the text of a value for a key. -/
abbrev Converter := (key raw : String) → Except ReadError Value

/-- A structured literal as a value; what is wrong with it is reported for the key. -/
def structured {α : Type} (read : List Char → Except Literal.LiteralFault α) (value : α → Value) :
    Converter := fun key raw =>
  match read raw.toList with
  | .ok a => .ok (value a)
  | .error fault => .error (.badValue key raw (.literal fault))

def readColor : Converter := structured Literal.color .color

def readInsets : Converter := structured Literal.insets .insets

def readDimension : Converter := structured Literal.dimension .dimension

def readFont : Converter := structured Literal.font .font

/-- The number that a text writes, if it writes one. -/
def numberOf? (s : List Char) : Option (Except ReadError Value) :=
  match Integer.ofText? s with
  | some n =>
    some (match n.read with
      | .ok n => .ok (.whole n)
      | .error e => .error (.digits e))
  | none => (Numeral.ofText? s).map fun n => .ok (.real n.double)

/-- A number, with or without a point. -/
def readNumber : Converter := fun key raw =>
  (numberOf? raw.toList).getD (.error (.badValue key raw .notNumber))

/-- A hexadecimal color in one of its lengths. -/
def isHexColor : List Char → Bool
  | '#' :: digits => digits.all isHexDigit && [3, 4, 6, 8].contains digits.length
  | _ => false

/-- A value whose key says nothing about its kind: a truth value, a number or a hexadecimal color
if it looks like one, and else the text itself. -/
def readLiteral : Converter := fun key raw =>
  if raw = "true" then .ok (.flag true)
  else if raw = "false" then .ok (.flag false)
  else
    match numberOf? raw.toList with
    | some r => r
    | none => if isHexColor raw.toList then readColor key raw else .ok (.text raw)

end Styling
