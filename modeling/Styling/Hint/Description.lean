import Styling.Hint
import Styling.Value.Written

/-!
# How hints are shown

The written form of a hint shows it as messages do. Its description is shorter: it leaves out
where classes come from, and the order of arms and of literal values does not show in it.
-/

namespace Styling

open Styling.Text

/-- A name with arguments in square brackets. -/
def bracketed (name : String) (arguments : List String) : String :=
  name ++ "[" ++ commaSeparated arguments ++ "]"

/-! ## Written form -/

/-- Where a hint is written: by itself, among the arguments of a form, or as an arm between
bars. -/
inductive HintPlace where
  | alone | argument | arm
deriving DecidableEq

/-- The name of a class with its module, which is left out for the classes of the language. -/
def Kind.fullName : Kind → String
  | .color => Kind.color.path
  | .insets => Kind.insets.path
  | .dimension => Kind.dimension.path
  | .font => Kind.font.path
  | .other name => if name = "Annotated" then "typing.Annotated" else name
  | k => k.name

def Kind.writtenIn (k : Kind) : HintPlace → String
  | .alone => "<class '" ++ k.fullName ++ "'>"
  | .argument => k.fullName
  | .arm => if k = .null then "None" else k.fullName

/-- A name with arguments, of which there may be none. -/
def withArguments (name : String) (arguments : List String) : String :=
  bracketed name (if arguments.isEmpty then ["()"] else arguments)

/-- A union of arms that has been built by a form. -/
def writtenUnion (arms : List String) : String :=
  match arms.filter (· ≠ Kind.null.name), arms with
  | [arm], [_, _] => bracketed "typing.Optional" [arm]
  | _, arms => bracketed "typing.Union" arms

mutual

def Hint.writtenIn (place : HintPlace) : Hint → String
  | .any => "typing.Any"
  | .null => "None"
  | .kind k => k.writtenIn place
  | .variable name => "~" ++ name
  | .form name => "typing." ++ name
  | .union true arms => writtenUnion (Hint.writtenAllIn .argument arms)
  | .union false arms => String.intercalate " | " (Hint.writtenAllIn .arm arms)
  | .literal members => withArguments "typing.Literal" (Hint.writtenAllIn .argument members)
  | .container k contents => withArguments k.fullName (Hint.writtenAllIn .argument contents)
  | .final h => bracketed "typing.Final" [Hint.writtenIn .argument h]
  | .classVariable h => bracketed "typing.ClassVar" [Hint.writtenIn .argument h]
  | .annotated h notes =>
    bracketed "typing.Annotated" (Hint.writtenIn .argument h :: Hint.writtenAllIn .alone notes)
  | .forward name => "ForwardRef(" ++ quotedString name ++ ")"
  | .ellipsis => if place = .alone then "Ellipsis" else "..."
  | .object _ text => text
  | .other v => v.written
  | .tuple items => writtenTuple (Hint.writtenAllIn .alone items)
  | .list items => "[" ++ commaSeparated (Hint.writtenAllIn .alone items) ++ "]"

def Hint.writtenAllIn (place : HintPlace) : List Hint → List String
  | [] => []
  | h :: hs => Hint.writtenIn place h :: Hint.writtenAllIn place hs

end

/-- The written form of a hint. -/
def Hint.written (h : Hint) : String := h.writtenIn .alone

/-! ## Description -/

/-- Texts in ascending order of their characters. -/
def ascending (ts : List String) : List String := ts.mergeSort fun a b => !(b < a)

mutual

/-- The description of a hint. -/
def Hint.describe : Hint → String
  | .any => "Any"
  | .null => "None"
  | .kind k => k.name
  | .variable name => name
  | .form name => if name = "Final" then name else (Hint.form name).written
  | .union _ arms => bracketed "Union" (ascending (Hint.describeAll arms))
  | .literal members => bracketed "Literal" (ascending (members.map Hint.written))
  | .container k contents => bracketed k.name (Hint.describeAll contents)
  | .final h => bracketed "Final" [Hint.describe h]
  | .classVariable h => bracketed "ClassVar" [Hint.describe h]
  | .annotated h _ => bracketed "Annotated" [Hint.describe h]
  | .forward name => quotedString name
  | .ellipsis => "..."
  | .object _ text => text
  | .other v => v.written
  | .tuple items => (Hint.tuple items).written
  | .list items => (Hint.list items).written

def Hint.describeAll : List Hint → List String
  | [] => []
  | h :: hs => Hint.describe h :: Hint.describeAll hs

end

end Styling
