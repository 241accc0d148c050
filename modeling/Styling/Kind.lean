import Styling.Value

/-!
# Kinds of values

The classes that values belong to. A truth value is also an integer, and every value is an object;
apart from that a value belongs to its own kind only (`admits_iff`).
-/

namespace Styling

inductive Kind where
  | object | int | float | str | bool | null | list | dict | tuple
  | color | insets | dimension | font
  /-- A class of which no style value is. -/
  | other (name : String)
deriving DecidableEq, Repr

def Kind.name : Kind → String
  | object => "object"
  | int => "int"
  | float => "float"
  | str => "str"
  | bool => "bool"
  | null => "NoneType"
  | list => "list"
  | dict => "dict"
  | tuple => "tuple"
  | color => "Color"
  | insets => "Insets"
  | dimension => "Dimension"
  | font => "Font"
  | other name => name

/-- Module and name of a kind. -/
def Kind.path : Kind → String
  | color => "restyle.model.values.Color"
  | insets => "restyle.model.values.Insets"
  | dimension => "restyle.model.values.Dimension"
  | font => "restyle.model.values.Font"
  | other name => "__main__." ++ name
  | k => "builtins." ++ k.name

/-- The kind of a value. -/
def Value.kind : Value → Kind
  | .null => .null
  | .flag _ => .bool
  | .whole _ => .int
  | .real _ => .float
  | .text _ => .str
  | .color _ => .color
  | .insets _ => .insets
  | .dimension _ => .dimension
  | .font _ => .font
  | .list _ => .list
  | .tuple _ => .tuple
  | .dict _ => .dict
  | .foreign _ => .other "Opaque"

/-- Values of a kind belong to another kind, too. -/
def Kind.isBelow (k above : Kind) : Bool :=
  k = above || above = .object || (k = .bool && above = .int)

/-- The value belongs to the kind. -/
def Kind.admits (k : Kind) (v : Value) : Bool := v.kind.isBelow k

theorem Kind.admits_iff {k : Kind} {v : Value} :
    k.admits v = true ↔ v.kind = k ∨ k = .object ∨ (v.kind = .bool ∧ k = .int) := by
  simp [admits, isBelow, or_assoc]

end Styling
