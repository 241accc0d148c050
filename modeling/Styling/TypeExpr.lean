import Styling.Hint.Forms
import Styling.Hint.Names

/-!
# Type expressions

Types as they are written in a declaration. A type expression can be taken as it is, which gives a
hint, or as the source text of an annotation, which is read only when the hint is needed.
-/

namespace Styling

inductive TypeExpr where
  /-- A name, or three dots. -/
  | named (name : String)
  | optional (t : TypeExpr)
  | union (ts : List TypeExpr)
  /-- Types with bars between them. -/
  | bars (ts : List TypeExpr)
  | literal (values : List Value)
  | list (t : TypeExpr)
  | dict (key value : TypeExpr)
  | tuple (ts : List TypeExpr)
  | final (t : TypeExpr)
  | classVariable (t : TypeExpr)
  | annotated (t : TypeExpr)
  /-- The name of a type, in quotation marks. -/
  | forward (name : String)
  /-- Any source text. -/
  | source (text : String)

instance : Inhabited TypeExpr := ⟨.named "Any"⟩

/-- What an annotated type is annotated with. -/
def annotationNote : String := "note"

/-- Joins hints to a union from the left. -/
def Hint.makeBars : List Hint → Except Misuse Hint
  | [] => .ok (.union false [])
  | h :: hs => hs.foldlM Hint.makeEither h

mutual

/-- The hint that a type expression builds. -/
def TypeExpr.hint : TypeExpr → Except Misuse Hint
  | .named name =>
    if name = "..." then .ok .ellipsis else .ok ((Hint.named? name).getD (.forward name))
  | .optional t => t.hint >>= Hint.makeOptional
  | .union ts => TypeExpr.hints ts >>= Hint.makeUnion
  | .bars ts => TypeExpr.hints ts >>= Hint.makeBars
  | .literal values => .ok (Hint.literalOf (Hint.ofValues values))
  | .list t => t.hint.map fun h => .container .list [h]
  | .dict k v => do return .container .dict [← k.hint, ← v.hint]
  | .tuple ts => (TypeExpr.hints ts).map (.container .tuple)
  | .final t => t.hint >>= Hint.makeFinal
  | .classVariable t => t.hint >>= Hint.makeClassVariable
  | .annotated t => do Hint.makeAnnotated (← t.hint) [.other (.text annotationNote)]
  | .forward name => .ok (.other (.text name))
  | .source text => .ok (.other (.text text))

def TypeExpr.hints : List TypeExpr → Except Misuse (List Hint)
  | [] => .ok []
  | t :: ts => do return (← t.hint) :: (← TypeExpr.hints ts)

end

mutual

/-- The source text of a type expression. -/
def TypeExpr.text : TypeExpr → String
  | .named name => name
  | .optional t => bracketed "Optional" [t.text]
  | .union ts => bracketed "Union" (TypeExpr.texts ts)
  | .bars ts => String.intercalate " | " (TypeExpr.texts ts)
  | .literal values => bracketed "Literal" (values.map Value.written)
  | .list t => bracketed "list" [t.text]
  | .dict k v => bracketed "dict" [k.text, v.text]
  | .tuple ts => bracketed "tuple" (TypeExpr.texts ts)
  | .final t => bracketed "Final" [t.text]
  | .classVariable t => bracketed "ClassVar" [t.text]
  | .annotated t => bracketed "Annotated" [t.text, Text.quotedString annotationNote]
  | .forward name => Text.quotedString name
  | .source text => text

def TypeExpr.texts : List TypeExpr → List String
  | [] => []
  | t :: ts => t.text :: TypeExpr.texts ts

end

/-- How the type of a field is declared: by a hint, or by source text that is read later. -/
inductive Annotation where
  | hint (hint : Hint)
  | source (text : String)

instance : Inhabited Annotation := ⟨.hint .any⟩

/-- The annotation of a type expression that is taken as it is. A name in quotation marks alone is
source text. -/
def TypeExpr.annotation : TypeExpr → Except Misuse Annotation
  | .forward name => .ok (.source name)
  | t => t.hint.map .hint

end Styling
