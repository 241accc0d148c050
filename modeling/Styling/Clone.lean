import Styling.Object

/-!
# Fresh copies

A fresh instance of what a prototype is: by its own clone method if it has one, and else by the
construction of its class without arguments.
-/

namespace Styling

/-- Why a copy could not be made. -/
inductive CloneCause where
  /-- What stands in the place of the method cannot be called. -/
  | notCallable
  /-- The construction needs arguments. -/
  | needsArguments
  /-- A default cannot be set. -/
  | badAttribute (e : AttributeError)
  /-- The method or the construction failed with an error of this name. -/
  | raised (name : String)
deriving DecidableEq, Repr

/-- A copy of an instance of the class at `path` could not be made. -/
structure CloneError where
  path : String
  cause : CloneCause
deriving DecidableEq, Repr

def CloneError.styleError (e : CloneError) : StyleError :=
  .badAssignment ("failed to clone '" ++ e.path ++ "'") none

/-- What a prototype offers for making a copy. -/
structure Prototype (α : Type) where
  /-- Module and name of its class. -/
  path : String
  /-- What its clone method does, if it has one. -/
  clone : Option (Except CloneCause α)
  /-- What the construction of its class without arguments does. -/
  construct : Except CloneCause α

/-- A fresh copy. -/
def Prototype.fresh {α : Type} (p : Prototype α) : Except CloneError α :=
  match p.clone.getD p.construct with
  | .ok a => .ok a
  | .error cause => .error ⟨p.path, cause⟩

/-! ## Values -/

/-- The value that its kind constructs without arguments. -/
def Value.construct : Value → Except CloneCause Value
  | .null => .ok .null
  | .flag _ => .ok (.flag false)
  | .whole _ => .ok (.whole 0)
  | .real _ => .ok (.real (Decimal.Double.zero false))
  | .text _ => .ok (.text "")
  | .font _ => .ok (.font .plain)
  | .list _ => .ok (.list [])
  | .tuple _ => .ok (.tuple [])
  | .dict _ => .ok (.dict [])
  | _ => .error .needsArguments

/-- Values have no clone method. -/
def Value.prototype (v : Value) : Prototype Value := ⟨v.kind.path, none, v.construct⟩

/-! ## Objects -/

/-- Some value other than null. -/
def isGiven : Option Value → Bool
  | none => false
  | some v => v.kind != .null

/-- An attribute named for the method counts as one unless it is null; no value can be called. -/
def Classes.prototype (cs : Classes) (o : Instance) : Prototype Instance where
  path := ((cs.classOf o).map Class.path).getD ""
  clone :=
    if isGiven (cs.binding? o "clone") || isGiven (cs.attribute? o "clone") then
      some (.error .notCallable)
    else none
  construct :=
    match cs.newInstance o.index with
    | .ok o => .ok o
    | .error e => .error (.badAttribute e)

end Styling
