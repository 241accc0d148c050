import Styling.Text.Digit

/-!
# Words

Words of the basic alphabet, as they name font families and keywords.
-/

namespace Styling.Text

/-- A letter of the basic alphabet or an underscore. -/
def isWordStart (c : Char) : Bool :=
  ('a' ≤ c && c ≤ 'z') || ('A' ≤ c && c ≤ 'Z') || c = '_'

/-- A character inside a word. -/
def isWordRest (c : Char) : Bool := isWordStart c || isBasicDigit c

/-- A word: a letter or underscore, then letters, digits and underscores. -/
def isWord : List Char → Bool
  | [] => false
  | c :: cs => isWordStart c && cs.all isWordRest

end Styling.Text
