import Styling.Text.Quoted

/-!
# Faults of source texts

Why a source text is no expression, and in which of its lines.
-/

namespace Styling

open Styling.Text

inductive SourceFault where
  /-- Something stands where it cannot stand. -/
  | unexpected
  /-- Two expressions stand side by side inside brackets. -/
  | missingComma
  | unexpectedIndent
  | neverClosed (bracket : Char)
  | unmatched (bracket : Char)
  /-- A bracket closes one of another form; that one's line is given if it is an earlier one. -/
  | mismatched (bracket opened : Char) (line : Option Nat)
  /-- A text has no end; the last line that may belong to it is given. -/
  | unterminated (long : Bool) (lastLine : Nat)
  /-- A backslash stands between tokens. -/
  | strayBackslash
  | unprintable (c : Char)
  | badNumber (reason : String)
  | nullCharacter
deriving DecidableEq, Repr

/-- The number of a character in capital hexadecimal digits, four at least. -/
def characterNumber (c : Char) : String :=
  let digits := if c.toNat < 0x10000 then 4 else if c.toNat < 0x100000 then 5 else 6
  String.ofList ((hexDigits digits c.toNat).map Char.toUpper)

def SourceFault.message : SourceFault → String
  | .unexpected => "invalid syntax"
  | .missingComma => "invalid syntax. Perhaps you forgot a comma?"
  | .unexpectedIndent => "unexpected indent"
  | .neverClosed bracket => "'" ++ bracket.toString ++ "' was never closed"
  | .unmatched bracket => "unmatched '" ++ bracket.toString ++ "'"
  | .mismatched bracket opened line =>
    "closing parenthesis '" ++ bracket.toString ++ "' does not match opening parenthesis '"
      ++ opened.toString ++ "'" ++ (line.map fun n => " on line " ++ toString n).getD ""
  | .unterminated long lastLine =>
    "unterminated " ++ (if long then "triple-quoted " else "")
      ++ "string literal (detected at line " ++ toString lastLine ++ ")"
  | .strayBackslash => "unexpected character after line continuation character"
  | .unprintable c => "invalid non-printable character U+" ++ characterNumber c
  | .badNumber reason => reason
  | .nullCharacter => "source code string cannot contain null bytes"

/-- A fault and the line in which it was found, counted from one. -/
structure Malformed where
  fault : SourceFault
  line : Nat
deriving DecidableEq, Repr

def Malformed.message (m : Malformed) : String :=
  match m.fault with
  | .nullCharacter => m.fault.message
  | fault => fault.message ++ " (<string>, line " ++ toString m.line ++ ")"

/-- The line of the place in a text from which on `left` characters are left. -/
def lineAt (s : List Char) (left : Nat) : Nat := (s.take (s.length - left)).count '\n' + 1

/-- The number of lines of a text; a line feed at its end opens no further line. -/
def lineCount (s : List Char) : Nat :=
  s.count '\n' + (if s.getLast?.all (· = '\n') then 0 else 1)

end Styling
