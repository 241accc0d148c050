import Styling.Hint.Description

/-!
# Comparing hints

A union is flat and has every arm once, so hints are compared when a union is built of them. Two
literal types are compared as sets of their members. Without a hash for each of those that fails,
and with it the union that needs the comparison (`Hint.unionOf`).
-/

namespace Styling

/-- An operation on types was refused. -/
inductive Misuse where
  | unfit (message : String)
  /-- The text is no name of a type. -/
  | badName (text : String)
  /-- There is no item at this place. -/
  | noItem (message : String)
  | noMember (message : String)
deriving DecidableEq, Repr

def Misuse.message : Misuse → String
  | .unfit message => message
  | .badName text =>
    "Forward reference must be an expression -- got " ++ Text.quotedString text
  | .noItem message => message
  | .noMember message => message

/-- Something has no hash, on account of a value of this kind. -/
def Misuse.unhashable (k : Kind) : Misuse := .unfit ("unhashable type: '" ++ k.name ++ "'")

/-! ## Equality that can fail -/

mutual

/-- Whether two hints are equal. What they are built of is compared from left to right, up to the
first difference. -/
def Hint.compare : Hint → Hint → Except Misuse Bool
  | .literal hs, .literal gs =>
    match Hint.firstUnhashable? (hs ++ gs) with
    | none => .ok ((Hint.literal hs).same (.literal gs))
    | some k => .error (.unhashable k)
  | .union formed hs, .union formed' gs =>
    match Hint.firstUnhashable? (hs ++ gs) with
    | none => .ok ((Hint.union formed hs).same (.union formed' gs))
    | some k =>
      -- A form compares the arms themselves where they make no set.
      if formed || formed' then
        (Hint.compareIn hs gs).map fun all => all && hs.length = gs.length
      else .error (.unhashable k)
  | .container j hs, .container k gs => if j = k then Hint.compareAll hs gs else .ok false
  | .final h, .final g => Hint.compare h g
  | .classVariable h, .classVariable g => Hint.compare h g
  | .annotated h ms, .annotated g ns => do
    if ← Hint.compare h g then Hint.compareAll ms ns else return false
  | .tuple hs, .tuple gs => Hint.compareAll hs gs
  | .list hs, .list gs => if hs.length = gs.length then Hint.compareAll hs gs else .ok false
  | h, g => .ok (h.same g)

/-- Comparison one by one. -/
def Hint.compareAll : List Hint → List Hint → Except Misuse Bool
  | [], [] => .ok true
  | h :: hs, g :: gs => do if ← Hint.compare h g then Hint.compareAll hs gs else return false
  | _, _ => .ok false

/-- Each hint has an equal one among others. -/
def Hint.compareIn : List Hint → List Hint → Except Misuse Bool
  | [], _ => .ok true
  | h :: hs, gs => do
    if ← gs.anyM fun g => Hint.compare h g then Hint.compareIn hs gs else return false

end

/-! ## Unions -/

/-- A hint equals one of those that a union has. A form compares them with the hint, and a bar the
hint with them. -/
def Hint.isAmong (formed : Bool) (kept : List Hint) (h : Hint) : Except Misuse Bool :=
  kept.anyM fun k => if formed then k.compare h else h.compare k

/-- The first of every group of equal hints. -/
def Hint.distinct (formed : Bool) (hs : List Hint) : Except Misuse (List Hint) :=
  hs.foldlM (fun kept h =>
    (Hint.isAmong formed kept h).map fun among => if among then kept else kept ++ [h]) []

/-- The arms that a hint brings into a union. -/
def Hint.arms : Hint → List Hint
  | .union _ arms => arms
  -- In a union null stands for its kind.
  | .null => [.kind .null]
  | h => [h]

/-- What arms without repetitions make: no union if there is a single one. -/
def Hint.ofArms (formed : Bool) : List Hint → Hint
  | [h] => h
  | arms => .union formed arms

/-- The union of hints, unless their arms cannot be compared. -/
def Hint.unionOf (formed : Bool) (hs : List Hint) : Except Misuse Hint :=
  (Hint.distinct formed (hs.flatMap Hint.arms)).map (Hint.ofArms formed)

end Styling
