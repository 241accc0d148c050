import Styling.Hint.Comparison
import Styling.Source.Expr

/-!
# Forms of types

What the type-building forms make of their arguments, and which arguments they refuse: a form that
lacks its own arguments cannot be one, a final or class-variable type cannot stand inside another
type, and a text stands for the type of that name only if it is an expression.
-/

namespace Styling

/-! ## Arguments -/

/-- The refusal of a form that cannot stand inside another one. -/
def Hint.notInside (h : Hint) : Misuse := .unfit (h.written ++ " is not valid as type argument")

/-- A hint as an argument of a form. Null stands for its kind, and a text for the type of that
name. Special forms are allowed under `annotated` only, and several hints in the place of one are
refused with a rule that they break. -/
def Hint.asArgument (rule : String) (allowSpecial : Bool) : Hint → Except Misuse Hint
  | .null => .ok (.kind .null)
  | .other (.text name) =>
    if canNameType name.toList then .ok (.forward name) else .error (.badName name)
  | .final h => if allowSpecial then .ok (.final h) else .error (Hint.final h).notInside
  | .classVariable h =>
    if allowSpecial then .ok (.classVariable h) else .error (Hint.classVariable h).notInside
  | .form name =>
    if allowSpecial && (name = "Final" || name = "ClassVar") then .ok (.form name)
    else .error (.unfit ("Plain typing." ++ name ++ " is not valid as type argument"))
  | .annotated (.form name) notes =>
    if allowSpecial then .ok (.annotated (.form name) notes)
    else .error (Hint.annotated (.form name) notes).notInside
  | .tuple items =>
    .error (.unfit (rule ++ " Got " ++ ((Hint.tuple items).written.take 100).toString ++ "."))
  | h => .ok h

/-- Every hint as an argument, or the first refusal. -/
def Hint.asArguments (rule : String) : List Hint → Except Misuse (List Hint)
  | [] => .ok []
  | h :: hs =>
    match h.asArgument rule false with
    | .error e => .error e
    | .ok a => (Hint.asArguments rule hs).map (a :: ·)

/-! ## Forms -/

def Hint.makeUnion (hs : List Hint) : Except Misuse Hint :=
  if hs.isEmpty then .error (.unfit "Cannot take a Union of no types.")
  else Hint.asArguments "Union[arg, ...]: each arg must be a type." hs >>= Hint.unionOf true

def Hint.makeOptional (h : Hint) : Except Misuse Hint :=
  h.asArgument "typing.Optional requires a single type." false >>= fun a =>
    Hint.unionOf true [a, .kind .null]

def Hint.makeFinal (h : Hint) : Except Misuse Hint :=
  (h.asArgument "typing.Final accepts only single type." false).map .final

def Hint.makeClassVariable (h : Hint) : Except Misuse Hint :=
  (h.asArgument "typing.ClassVar accepts only single type." false).map .classVariable

/-- The members that an argument of a literal type brings into it. -/
def Hint.members : Hint → List Hint
  | .literal members => members
  | h => [h]

def Hint.makeLiteral (hs : List Hint) : Hint := Hint.literalOf (hs.flatMap Hint.members)

/-! ## Members -/

/-- The name of what a hint is, for messages about operations that it does not have. -/
def Hint.operandName : Hint → String
  | .any => "_AnyMeta"
  | .null => "NoneType"
  | .kind _ => "type"
  | .variable _ => "TypeVar"
  | .form name => if name = "Literal" then "_LiteralSpecialForm" else "_SpecialForm"
  | .union formed _ => if formed then "_UnionGenericAlias" else "types.UnionType"
  | .literal _ => "_LiteralGenericAlias"
  | .container _ _ => "types.GenericAlias"
  | .final _ => "_GenericAlias"
  | .classVariable _ => "_GenericAlias"
  | .annotated _ _ => "_AnnotatedAlias"
  | .forward _ => "ForwardRef"
  | .ellipsis => "ellipsis"
  | .object className _ => className
  | .other v => v.kind.name
  | .tuple _ => "tuple"
  | .list _ => "list"

/-- The message about a member that a hint does not have. Built hints pass the question on to what
they are built of. -/
def Hint.noMember (part : String) : Hint → String
  | .any => "type object 'Any' has no attribute '" ++ part ++ "'"
  | .kind k => "type object '" ++ k.name ++ "' has no attribute '" ++ part ++ "'"
  | .container k _ => "type object '" ++ k.name ++ "' has no attribute '" ++ part ++ "'"
  | .annotated h _ => Hint.noMember part h
  | .form _ => part
  | .union true _ => part
  | .literal _ => part
  | .final _ => part
  | .classVariable _ => part
  | h => "'" ++ h.operandName ++ "' object has no attribute '" ++ part ++ "'"

/-- The hint is an object that does not know its module. -/
def Hint.lacksModule : Hint → Bool
  | .ellipsis => true
  | .list _ => true
  | .object className _ => className = "NotImplementedType"
  | .other v =>
    match v.kind with
    | .color => false
    | .insets => false
    | .dimension => false
    | .font => false
    | .other _ => false
    | _ => true
  | _ => false

/-- Annotating an annotated type adds to its notes. -/
def Hint.makeAnnotated (h : Hint) (notes : List Hint) : Except Misuse Hint :=
  match h.asArgument "Annotated[t, ...]: t must be a type." true with
  | .error e => .error e
  | .ok (.annotated inner before) => .ok (.annotated inner (before ++ notes))
  | .ok a =>
    if a.lacksModule then .error (.noMember (a.noMember "__module__"))
    else .ok (.annotated a notes)

/-! ## Bars -/

/-- The hint was built by a form; with such a hint, any other can be joined to a union. -/
def Hint.isFormed : Hint → Bool
  | .union formed _ => formed
  | .variable _ => true
  | .form _ => true
  | .literal _ => true
  | .final _ => true
  | .classVariable _ => true
  | .annotated _ _ => true
  | .forward _ => true
  | _ => false

/-- The hint is a class, a container of given contents, a union or null. -/
def Hint.isPlain : Hint → Bool
  | .any => true
  | .null => true
  | .kind _ => true
  | .container _ _ => true
  | .union _ _ => true
  | _ => false

/-- The integer whose binary digits are set where one of two integers has them set. Negative
integers have all digits set from some place on. -/
def bitOr (m n : Int) : Int :=
  -- One digit more than the longer one has is left for the sign.
  let digits := max m.natAbs.log2 n.natAbs.log2 + 2
  (BitVec.ofInt digits m ||| BitVec.ofInt digits n).toInt

/-- What a bar between two values computes: truth values and integers are joined digit by digit, and
dictionaries entry by entry, where the second one goes before. -/
def Value.either? (v w : Value) : Option Value :=
  match v, w with
  | .flag b, .flag c => some (.flag (b || c))
  | .dict es, .dict fs => some (Value.ofEntries (es ++ fs))
  | v, w =>
    match v.number?.bind Number.integer?, w.number?.bind Number.integer? with
    | some m, some n => some (.whole (bitOr m n))
    | _, _ => none

/-- Two hints with a bar between them: their union, or what the bar computes if they are values.
Null alone makes no union with itself. -/
def Hint.makeEither (a b : Hint) : Except Misuse Hint :=
  if a.isFormed || b.isFormed then Hint.makeUnion [a, b]
  else
    match a, b with
    | .null, .null => .error (refusal a b)
    | .other v, .other w =>
      match v.either? w with
      | some u => .ok (.other u)
      | none => .error (refusal a b)
    | a, b => if a.isPlain && b.isPlain then Hint.unionOf false [a, b] else .error (refusal a b)
where
  refusal (a b : Hint) : Misuse :=
    .unfit ("unsupported operand type(s) for |: '" ++ a.operandName ++ "' and '" ++ b.operandName
      ++ "'")

/-! ## Type variables -/

mutual

/-- A type variable occurs in the hint. -/
def Hint.hasVariable : Hint → Bool
  | .variable _ => true
  | .union _ arms => Hint.anyVariable arms
  | .literal members => Hint.anyVariable members
  | .container _ contents => Hint.anyVariable contents
  | .final h => Hint.hasVariable h
  | .classVariable h => Hint.hasVariable h
  | .annotated h _ => Hint.hasVariable h
  | _ => false

def Hint.anyVariable : List Hint → Bool
  | [] => false
  | h :: hs => Hint.hasVariable h || Hint.anyVariable hs

end

mutual

/-- The hint with another one in the place of its type variables. -/
def Hint.substitute (a : Hint) : Hint → Except Misuse Hint
  | .variable _ => .ok a
  | .union formed arms => Hint.substituteAll a arms >>= Hint.unionOf formed
  | .literal members => (Hint.substituteAll a members).map .literal
  | .container k contents => (Hint.substituteAll a contents).map (.container k)
  | .final h => (Hint.substitute a h).map .final
  | .classVariable h => (Hint.substitute a h).map .classVariable
  | .annotated h notes => (Hint.substitute a h).map (.annotated · notes)
  | h => .ok h

def Hint.substituteAll (a : Hint) : List Hint → Except Misuse (List Hint)
  | [] => .ok []
  | h :: hs => do return (← Hint.substitute a h) :: (← Hint.substituteAll a hs)

end

/-- A built hint with arguments for its type variable. -/
def Hint.specialize (h : Hint) (arguments : List Hint) : Except Misuse Hint :=
  if !h.hasVariable then .error (.unfit (h.written ++ " is not a generic class"))
  else
    match arguments with
    | [a] =>
      a.asArgument "Parameters to generic types must be types." false >>= fun a =>
        Hint.substitute a h
    | as =>
      .error (.unfit ("Too " ++ (if as.isEmpty then "few" else "many") ++ " arguments for "
        ++ h.written ++ "; actual " ++ toString as.length ++ ", expected 1"))

/-! ## Square brackets -/

/-- The classes that take types for their contents. -/
def Kind.isContainer : Kind → Bool
  | .list => true
  | .dict => true
  | .tuple => true
  | .other name =>
    ["set", "frozenset", "type", "enumerate", "ExceptionGroup", "BaseExceptionGroup"].contains name
  | _ => false

/-- The hints that stand side by side in brackets. -/
def Hint.sideBySide : Hint → List Hint
  | .tuple items => items
  | h => [h]

/-- What a form makes of what stands in square brackets after it. -/
def Hint.applyForm (name : String) (argument : Hint) : Except Misuse Hint :=
  match name with
  | "Optional" => Hint.makeOptional argument
  | "Union" => Hint.makeUnion argument.sideBySide
  | "Literal" => .ok (Hint.makeLiteral argument.sideBySide)
  | "Final" => Hint.makeFinal argument
  | "ClassVar" => Hint.makeClassVariable argument
  | name => .error (.unfit ("typing." ++ name ++ " is not subscriptable"))

/-- A class with what stands in square brackets after it. -/
def Kind.subscript (k : Kind) (argument : Hint) : Except Misuse Hint :=
  if k = .other "Annotated" then
    match argument with
    | .tuple (a :: note :: notes) => Hint.makeAnnotated a (note :: notes)
    | _ =>
      .error (.unfit ("Annotated[...] should be used with at least two arguments (a type and an "
        ++ "annotation)."))
  else if k.isContainer then .ok (.container k argument.sideBySide)
  else .error (.unfit ("type '" ++ k.name ++ "' is not subscriptable"))

/-- The integer that stands in the place of a type. -/
def Hint.integer? : Hint → Option Int
  | .other v => v.number?.bind Number.integer?
  | _ => none

/-- The place that an index names among some items; a negative one counts from their end. -/
def placeOf? (count : Nat) (index : Int) : Option Nat :=
  let place := if index < 0 then index + count else index
  if 0 ≤ place && place < count then some place.toNat else none

/-- The first index past the machine size. -/
def indexLimit : Int := 0x8000000000000000

/-- The item that an index names. -/
def itemAt (name : String) (items : List Hint) (index : Int) : Except Misuse Hint :=
  -- An index past the machine size is refused before the items are counted.
  if index < -indexLimit || indexLimit ≤ index then
    .error (.noItem "cannot fit 'int' into an index-sized integer")
  else
    match (placeOf? items.length index).bind fun place => items[place]? with
    | some h => .ok h
    | none => .error (.noItem (name ++ " index out of range"))

/-- One of several items. -/
def Hint.pick (name : String) (items : List Hint) (argument : Hint) : Except Misuse Hint :=
  match argument.integer? with
  | some index => itemAt name items index
  | none =>
    .error (.unfit (name ++ " indices must be integers or slices, not " ++ argument.operandName))

/-- A character of a text. -/
def Hint.pickCharacter (text : String) (argument : Hint) : Except Misuse Hint :=
  match argument.integer? with
  | some index => itemAt "string" (text.toList.map fun c => .other (.text c.toString)) index
  | none => .error (.unfit ("string indices must be integers, not '" ++ argument.operandName ++ "'"))

/-- A hint with what stands in square brackets after it. -/
def Hint.subscript (h argument : Hint) : Except Misuse Hint :=
  match h with
  | .form name => Hint.applyForm name argument
  | .kind k => k.subscript argument
  | .any => .error (.unfit "type 'Any' is not subscriptable")
  | .union _ _ => h.specialize argument.sideBySide
  | .literal _ => h.specialize argument.sideBySide
  | .container _ _ => h.specialize argument.sideBySide
  | .final _ => h.specialize argument.sideBySide
  | .classVariable _ => h.specialize argument.sideBySide
  | .annotated _ _ => h.specialize argument.sideBySide
  | .tuple items => Hint.pick "tuple" items argument
  | .list items => Hint.pick "list" items argument
  | .other (.text text) => Hint.pickCharacter text argument
  | h => .error (.unfit ("'" ++ h.operandName ++ "' object is not subscriptable"))

/-! ## Other operations -/

/-- The opposite of a number in the place of a type. -/
def Hint.negate : Hint → Except Misuse Hint
  | .other (.whole n) => .ok (.other (.whole (-n)))
  | .other (.real x) => .ok (.other (.real x.opposite))
  | .other (.flag b) => .ok (.other (.whole (if b then -1 else 0)))
  | h => .error (.unfit ("bad operand type for unary -: '" ++ h.operandName ++ "'"))

end Styling
