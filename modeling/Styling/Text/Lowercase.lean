import Styling.Text.Blank
import Styling.Text.CaseTable

/-!
# Lower case

The lower-case form of a text, letter by letter. Two letters need more than a table: the dotted
capital I becomes an i followed by a combining dot, and the capital sigma has a form of its own at
the end of a word.
-/

namespace Styling.Text

/-- A character in a run of the table. -/
def CaseRun.covers (r : CaseRun) (n : Nat) : Bool :=
  r.first ≤ n && n ≤ r.last && (n - r.first) % r.step = 0

/-- The one character that is the lower case of `c`, by the table. -/
def lowerChar (c : Char) : Char :=
  if c.toNat < 0x80 then
    if 0x41 ≤ c.toNat && c.toNat ≤ 0x5a then Char.ofNat (c.toNat + 0x20) else c
  else
    match lowercaseRuns.find? fun r => r.covers c.toNat with
    | some r => Char.ofNat (Int.toNat (c.toNat + r.shift))
    | none => c

/-- The first of `s` that is not passed over has case. -/
def meetsCased (s : List Char) : Bool :=
  match s.dropWhile fun c => inRanges caselessMarkRanges c.toNat with
  | [] => false
  | c :: _ => inRanges casedRanges c.toNat

/-- The capital sigma, the one letter whose lower case depends on its neighbours. -/
def capitalSigma : Char := Char.ofNat 0x3a3

/-- The capital I with a dot, the one letter whose lower case has two characters. -/
def dottedCapitalI : Char := Char.ofNat 0x130

/-- The lower case of `c` between the characters `before` (nearest first) and `after`. A sigma
takes its final form after a cased letter, unless another one follows. -/
def lowerBetween (before : List Char) (c : Char) (after : List Char) : List Char :=
  if c = capitalSigma then
    [Char.ofNat (if meetsCased before && !meetsCased after then 0x3c2 else 0x3c3)]
  else if c = dottedCapitalI then ['i', Char.ofNat 0x307]
  else [lowerChar c]

/-- Lower case of the rest of a text whose part `before`, read backwards, has been passed. -/
def lowercaseFrom (before : List Char) : List Char → List Char
  | [] => []
  | c :: after => lowerBetween before c after ++ lowercaseFrom (c :: before) after

/-- The text in lower case. -/
def lowercase (s : List Char) : List Char := lowercaseFrom [] s

end Styling.Text
