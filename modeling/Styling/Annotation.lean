import Styling.Table
import Styling.TypeExpr

/-!
# Annotations in source text

An annotation that is given as text is read when the slots of its class are collected. Its names
mean what the scope around the class says, which is what the class itself binds them to and else
what `Hint.named?` says (`Scope.ofBindings`); an unknown name leaves the text unread. A text that
says the field is final does so even if it cannot be read (`finalInner?`).

Not every expression is one that types are written with (`SourceExpr`): a text can also call a
function, compute with numbers or display a dictionary. What such a text comes to is for the program
around to say, so it is a part of the scope (`Scope.outcome?`).
-/

namespace Styling

open Styling.Text

/-! ## Meaning -/

/-- Why an annotation cannot be read. -/
inductive SourceError where
  | unknownName (name : String)
  | misuse (misuse : Misuse)
  | malformed (fault : Malformed)
deriving DecidableEq, Repr

def SourceError.message : SourceError → String
  | .unknownName name => "name '" ++ name ++ "' is not defined"
  | .misuse m => m.message
  | .malformed m => m.message

/-- What evaluating a text comes to, for the texts that are expressions of another sort than
`SourceExpr`; nothing for a text that is no expression at all. -/
abbrev Outcomes := String → Option (Except SourceError Hint)

/-- What the names in an annotation mean and what their members do, nothing if they are unknown; and
what the texts come to that are written with more than types. -/
structure Scope where
  name? : String → Option Hint
  member? : Hint → String → Option Hint
  outcome? : Outcomes

/-- The scope of a class with some bindings. -/
def Scope.ofBindings (bindings : Table Value) (outcome? : Outcomes) : Scope where
  name? name :=
    -- No binding can change what a constant name means.
    match (if constantNames.contains name then none else bindings.get? name) with
    | some v => some (Hint.ofValue v)
    | none => Hint.named? name
  member? _ _ := none
  outcome?

/-- What a name means in a scope. -/
def Scope.meaningOf (scope : Scope) (name : String) : Except SourceError Hint :=
  match scope.name? name with
  | some h => .ok h
  | none => .error (.unknownName name)

/-- What a member of a hint means in a scope. -/
def Scope.memberOf (scope : Scope) (h : Hint) (part : String) : Except SourceError Hint :=
  match scope.member? h part with
  | some g => .ok g
  | none => .error (.misuse (.noMember (h.noMember part)))

/-- A refusal as an error of the annotation. -/
def refused {α : Type} : Except Misuse α → Except SourceError α
  | .ok a => .ok a
  | .error m => .error (.misuse m)

mutual

/-- The hint that an expression means. Its parts are taken from left to right, and the first one
without a meaning is reported. -/
def SourceExpr.hint (scope : Scope) : SourceExpr → Except SourceError Hint
  | .name s => scope.meaningOf s
  | .constant v => .ok (Hint.ofValue v)
  | .dots => .ok .ellipsis
  | .member e part => do
    let h ← e.hint scope
    scope.memberOf h part
  | .subscript e argument => do
    let h ← e.hint scope
    let a ← argument.hint scope
    refused (h.subscript a)
  | .either left right => do
    let a ← left.hint scope
    let b ← right.hint scope
    refused (Hint.makeEither a b)
  | .negative e => do
    let h ← e.hint scope
    refused h.negate
  | .tuple items => do return .tuple (← SourceExpr.hints scope items)
  | .list items => do return .list (← SourceExpr.hints scope items)

def SourceExpr.hints (scope : Scope) : List SourceExpr → Except SourceError (List Hint)
  | [] => .ok []
  | e :: es => do return (← e.hint scope) :: (← SourceExpr.hints scope es)

end

/-- The hint that a source text means. -/
def hintOfText (scope : Scope) (text : String) : Except SourceError Hint :=
  match SourceExpr.ofText text.toList with
  | .ok e => e.hint scope
  | .error m => (scope.outcome? text).getD (.error (.malformed m))

/-! ## Declared types -/

/-- The text after an optional module name. -/
def dropModule (s : List Char) : List Char := (dropPrefix? "typing.".toList s).getD s

/-- The text inside the brackets of a final annotation; an empty one if there are no brackets. -/
def finalInner? (s : List Char) : Option (List Char) :=
  match dropPrefix? "Final".toList (dropModule s) with
  | some [] => some []
  | some ('[' :: rest) => if rest.getLast? = some ']' then some rest.dropLast else none
  | _ => none

/-- What is known about the type of a field: the hint or, while it cannot be read, its text. -/
inductive Resolved where
  | hint (hint : Hint)
  | text (text : String)

/-- A text result stands for an annotation that has not been read. -/
def Resolved.ofHint : Hint → Resolved
  | .other (.text s) => .text s
  | h => .hint h

/-- Reads an annotation text. An unknown name, which is returned beside, leaves it unread. -/
def resolveText (scope : Scope) (text : String) :
    Except SourceError (Resolved × Option String) :=
  match hintOfText scope text with
  | .ok h => .ok (Resolved.ofHint h, none)
  | .error (.unknownName name) => .ok (.text text, some name)
  | .error e => .error e

/-- The declared type of a field: a hint, and whether the field is final. -/
structure Declared where
  hint : Hint
  isFinal : Bool

/-- The hint itself, or every value for a text that cannot be read. -/
def Resolved.orAny : Resolved → Hint
  | .hint h => h
  | .text _ => .any

/-- The declared type that a hint gives. -/
def Declared.ofHint : Hint → Declared
  | .final h => ⟨(Resolved.ofHint h).orAny, true⟩
  | .form "Final" => ⟨.any, true⟩
  | h => ⟨h, false⟩

/-- The declared type that an unread text gives, with the unknown names met. -/
def Declared.ofText (scope : Scope) (text : String) :
    List String × Except SourceError Declared :=
  match finalInner? (trim text.toList) with
  | none => ([], .ok ⟨.any, false⟩)
  | some [] => ([], .ok ⟨.any, true⟩)
  | some inner =>
    match resolveText scope (String.ofList inner) with
    | .ok (r, unknown) => (unknown.toList, .ok ⟨r.orAny, true⟩)
    | .error e => ([], .error e)

/-- The declared type of an annotation in a scope, and the unknown names met. -/
def Annotation.declared (scope : Scope) :
    Annotation → List String × Except SourceError Declared
  | .hint h => ([], .ok (Declared.ofHint h))
  | .source text =>
    match resolveText scope text with
    | .error e => ([], .error e)
    | .ok (.hint h, _) => ([], .ok (Declared.ofHint h))
    | .ok (.text s, unknown) =>
      -- The inner text is tried as well, so an unknown name can be reported twice.
      let (names, declared) := Declared.ofText scope s
      (unknown.toList ++ names, declared)

/-- The annotation declares a variable of the class: its text starts with that word. -/
def Annotation.isClassVariable : Annotation → Bool
  | .hint (.classVariable _) => true
  | .hint (.form name) => name = "ClassVar"
  | .hint _ => false
  | .source text =>
    let s := trimStart text.toList
    s.takeWhile isNameRest = "ClassVar".toList
      && (trimStart (s.dropWhile isNameRest)).head? != some '.'

end Styling
