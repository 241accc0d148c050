import Styling.Converter
import Styling.Text.Lowercase

/-!
# Rules

The key of a statement says how its value is read: a rule has suffixes, and a key that ends in one
of them, upper and lower case alike, is read by its converter. The first rule that fits counts, so
that a rule put in front overrides the others for exactly the keys it fits (`readValue_cons`).
-/

namespace Styling

open Styling.Text

/-- Suffixes of keys with the converter for them. -/
structure Rule where
  suffixes : List String
  converter : Converter

/-- The key ends in one of the suffixes. -/
def Rule.fits (r : Rule) (key : String) : Bool :=
  r.suffixes.any fun s => (lowercase s.toList).isSuffixOf (lowercase key.toList)

/-- The rules that are there from the start. -/
def builtinRules : List Rule :=
  [⟨["color", "background", "foreground"], readColor⟩,
   ⟨["insets", "margin", "margins", "padding"], readInsets⟩,
   ⟨["size"], readDimension⟩,
   ⟨["font"], readFont⟩,
   ⟨["width", "height", "arc", "gap", "thickness"], readNumber⟩]

/-- The converter for a key: that of the first rule that fits, or else the one for literals of any
kind. -/
def converterFor (rules : List Rule) (key : String) : Converter :=
  match rules.find? fun r => r.fits key with
  | some r => r.converter
  | none => readLiteral

/-- The value of a text for a key. The word for no value is read alike for every key. -/
def readValue (rules : List Rule) : Converter := fun key raw =>
  if raw = "null" then .ok .null else converterFor rules key key raw

/-- Rules with one more in front of them, which takes precedence over them all. -/
def register (rules : List Rule) (r : Rule) : List Rule := r :: rules

/-- Rules after some registrations, given in the order in which they are made. -/
def registerAll (rules registered : List Rule) : List Rule := registered.foldl register rules

/-- A rule in front of others decides the keys it fits and leaves the rest to them. -/
theorem converterFor_cons (r : Rule) (rules : List Rule) (key : String) :
    converterFor (r :: rules) key = if r.fits key then r.converter else converterFor rules key := by
  by_cases h : r.fits key = true <;> simp [converterFor, h]

theorem readValue_cons {r : Rule} {rules : List Rule} {key : String} (h : r.fits key = false)
    (raw : String) : readValue (r :: rules) key raw = readValue rules key raw := by
  simp [readValue, converterFor_cons, h]

end Styling
