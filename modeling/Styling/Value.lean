import Styling.Decimal.Layout
import Styling.Table

/-!
# Style values

The values that a style can set: colors, insets, dimensions, fonts, plain numbers and texts. A
reference can bring in any value of the program around, so lists, dictionaries and objects that
only that program knows are values too.
-/

namespace Styling

open Styling.Decimal

/-- The channels of a color, in the order in which they are checked. -/
inductive Channel where
  | red | green | blue | alpha
deriving DecidableEq, Repr

def Channel.name : Channel → String
  | .red => "red"
  | .green => "green"
  | .blue => "blue"
  | .alpha => "alpha"

/-- A channel was given a value outside 0 to 255. -/
structure ChannelFault where
  channel : Channel
  value : Int
deriving DecidableEq

def ChannelFault.message (f : ChannelFault) : String :=
  "Color channel " ++ f.channel.name ++ " out of range: " ++ String.ofList (intText f.value)

/-- A color with four channels of eight bits. -/
structure Color where
  red : Fin 256
  green : Fin 256
  blue : Fin 256
  alpha : Fin 256
deriving DecidableEq

/-- A number as a channel. -/
def Channel.check (channel : Channel) (n : Int) : Except ChannelFault (Fin 256) :=
  if h : 0 ≤ n ∧ n ≤ 255 then .ok ⟨n.toNat, by omega⟩ else .error ⟨channel, n⟩

/-- The color of four numbers, unless one is out of range; the first such one is reported. -/
def Color.ofChannels (red green blue alpha : Int) : Except ChannelFault Color := do
  let r ← Channel.red.check red
  let g ← Channel.green.check green
  let b ← Channel.blue.check blue
  let a ← Channel.alpha.check alpha
  return ⟨r, g, b, a⟩

/-- Space around the four edges of a rectangle. -/
structure Insets where
  top : Int
  left : Int
  bottom : Int
  right : Int
deriving DecidableEq

structure Dimension where
  width : Int
  height : Int
deriving DecidableEq

/-- A number, whose kind is kept: a truth value counts as 0 or 1. -/
inductive Number where
  | flag (b : Bool)
  | whole (n : Int)
  | real (x : Double)
deriving DecidableEq

/-- A font: families in order of preference, a size or a size relative to the inherited font, and
the style. -/
structure Font where
  families : List String
  size : Option Number
  relativeSize : Option Number
  bold : Bool
  italic : Bool
deriving DecidableEq

/-- The font that leaves everything as it is. -/
def Font.plain : Font := ⟨[], none, none, false, false⟩

/-- The preferred family; empty if there is none. -/
def Font.family (f : Font) : String := f.families.head?.getD ""

inductive Value where
  | null
  | flag (b : Bool)
  | whole (n : Int)
  | real (x : Double)
  | text (s : String)
  | color (c : Color)
  | insets (i : Insets)
  | dimension (d : Dimension)
  | font (f : Font)
  | list (items : List Value)
  | tuple (items : List Value)
  | dict (entries : List (Value × Value))
  /-- An object of the program around, known by its name only. -/
  | foreign (name : String)

instance : Inhabited Value := ⟨.null⟩

/-! ## Equality

Numbers are equal when they are the same number, whatever their kind; all other values only to
values of their own kind. A number that is no number equals nothing, not even itself. -/

/-- The integer that a number is by its kind. -/
def Number.integer? : Number → Option Int
  | .flag b => some (if b then 1 else 0)
  | .whole n => some n
  | .real _ => none

def Number.same (a b : Number) : Bool :=
  match a, b with
  | .real x, .real y => x.same y
  | .real x, b => b.integer?.any x.isInt
  | a, .real y => a.integer?.any y.isInt
  | a, b => a.integer? = b.integer?

/-- Equality of optional values. -/
def sameOption {α : Type} (same : α → α → Bool) : Option α → Option α → Bool
  | none, none => true
  | some a, some b => same a b
  | _, _ => false

def Font.same (f g : Font) : Bool :=
  f.families = g.families && sameOption Number.same f.size g.size
    && sameOption Number.same f.relativeSize g.relativeSize
    && f.bold = g.bold && f.italic = g.italic

/-- A value as a number. -/
def Value.number? : Value → Option Number
  | .flag b => some (.flag b)
  | .whole n => some (.whole n)
  | .real x => some (.real x)
  | _ => none

/-- Equality of values that hold no others. -/
def Value.sameAtom (v w : Value) : Bool :=
  match v.number?, w.number? with
  | some a, some b => a.same b
  | none, none =>
    match v, w with
    | .null, .null => true
    | .text s, .text t => s = t
    | .color c, .color d => c = d
    | .insets i, .insets j => i = j
    | .dimension d, .dimension e => d = e
    | .font f, .font g => f.same g
    | .foreign m, .foreign n => m = n
    | _, _ => false
  | _, _ => false

mutual

/-- Equality of values. -/
def Value.same : Value → Value → Bool
  | .list xs, .list ys => Value.sameAll xs ys
  | .tuple xs, .tuple ys => Value.sameAll xs ys
  | .dict es, .dict fs => es.length = fs.length && Value.entriesIn es fs
  | v, w => Value.sameAtom v w

/-- Equality item by item. -/
def Value.sameAll : List Value → List Value → Bool
  | [], [] => true
  | x :: xs, y :: ys => Value.same x y && Value.sameAll xs ys
  | _, _ => false

/-- Every entry has an equal one among others. -/
def Value.entriesIn : List (Value × Value) → List (Value × Value) → Bool
  | [], _ => true
  | (k, v) :: es, fs =>
    (fs.any fun f => Value.same k f.1 && Value.same v f.2) && Value.entriesIn es fs

end

/-- Sets an entry of a dictionary: an equal key keeps its place and takes the new value. -/
def Value.putEntry (key value : Value) : List (Value × Value) → List (Value × Value)
  | [] => [(key, value)]
  | (k, v) :: es =>
    if Value.same k key then (k, value) :: es else (k, v) :: Value.putEntry key value es

/-- The dictionary of some pairs, in which no two keys are equal. -/
def Value.ofEntries (pairs : List (Value × Value)) : Value :=
  .dict (pairs.foldl (fun es e => Value.putEntry e.1 e.2 es) [])

/-- Equality of tables: the same names with equal values, in any order. -/
def Table.same (t u : Table Value) : Bool :=
  t.size = u.size && t.entries.all fun e => (u.get? e.1).any (e.2.same ·)

end Styling
