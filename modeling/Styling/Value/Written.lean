import Styling.Text.Quoted
import Styling.Value

/-!
# How messages show values

The written form of a value names its kind and all its parts; texts are quoted.
-/

namespace Styling

open Styling.Decimal Styling.Text

/-- Texts one after the other with a separator between them. -/
def commaSeparated : List String → String := String.intercalate ", "

def writtenFlag (b : Bool) : String := if b then "True" else "False"

def writtenInt (n : Int) : String := String.ofList (intText n)

def writtenDouble (x : Double) : String := String.ofList (doubleText x)

/-- Items in round brackets; a single one is followed by a comma. -/
def writtenTuple : List String → String
  | [item] => "(" ++ item ++ ",)"
  | items => "(" ++ commaSeparated items ++ ")"

def Color.written (c : Color) : String :=
  "Color(red=" ++ toString c.red.val ++ ", green=" ++ toString c.green.val
    ++ ", blue=" ++ toString c.blue.val ++ ", alpha=" ++ toString c.alpha.val ++ ")"

def Insets.written (i : Insets) : String :=
  "Insets(top=" ++ writtenInt i.top ++ ", left=" ++ writtenInt i.left
    ++ ", bottom=" ++ writtenInt i.bottom ++ ", right=" ++ writtenInt i.right ++ ")"

def Dimension.written (d : Dimension) : String :=
  "Dimension(width=" ++ writtenInt d.width ++ ", height=" ++ writtenInt d.height ++ ")"

def Number.written : Number → String
  | .flag b => writtenFlag b
  | .whole n => writtenInt n
  | .real x => writtenDouble x

def writtenOption : Option Number → String
  | some n => n.written
  | none => "None"

def Font.written (f : Font) : String :=
  "Font(families=" ++ writtenTuple (f.families.map quotedString)
    ++ ", size=" ++ writtenOption f.size ++ ", relative_size=" ++ writtenOption f.relativeSize
    ++ ", bold=" ++ writtenFlag f.bold ++ ", italic=" ++ writtenFlag f.italic ++ ")"

mutual

/-- The written form of a value. -/
def Value.written : Value → String
  | .null => "None"
  | .flag b => writtenFlag b
  | .whole n => writtenInt n
  | .real x => writtenDouble x
  | .text s => quotedString s
  | .color c => c.written
  | .insets i => i.written
  | .dimension d => d.written
  | .font f => f.written
  | .list items => "[" ++ commaSeparated (Value.writtenAll items) ++ "]"
  | .tuple items => writtenTuple (Value.writtenAll items)
  | .dict entries => "\x7b" ++ commaSeparated (Value.writtenEntries entries) ++ "\x7d"
  | .foreign name => "<opaque " ++ name ++ ">"

def Value.writtenAll : List Value → List String
  | [] => []
  | v :: vs => Value.written v :: Value.writtenAll vs

def Value.writtenEntries : List (Value × Value) → List String
  | [] => []
  | (k, v) :: es => (Value.written k ++ ": " ++ Value.written v) :: Value.writtenEntries es

end

/-- Every integer of a number has a text within the limit. -/
def Number.isWritable : Number → Bool
  | .whole n => Decimal.isWritable n
  | _ => true

mutual

/-- Every integer in a value has a text within the limit. -/
def Value.isWritable : Value → Bool
  | .whole n => Decimal.isWritable n
  | .insets i => [i.top, i.left, i.bottom, i.right].all Decimal.isWritable
  | .dimension d => [d.width, d.height].all Decimal.isWritable
  | .font f => f.size.all Number.isWritable && f.relativeSize.all Number.isWritable
  | .list items => Value.areWritable items
  | .tuple items => Value.areWritable items
  | .dict entries => Value.entriesWritable entries
  | _ => true

def Value.areWritable : List Value → Bool
  | [] => true
  | v :: vs => Value.isWritable v && Value.areWritable vs

def Value.entriesWritable : List (Value × Value) → Bool
  | [] => true
  | (k, v) :: es => Value.isWritable k && Value.isWritable v && Value.entriesWritable es

end

/-- The text of a value where a name is wanted: a text as it is, anything else as written. -/
def Value.asName : Value → String
  | .text s => s
  | v => v.written

/-- The text of a store of named values, which shows the names only. -/
def Table.writtenNames (t : Table Value) : String :=
  "Defaults(keys=[" ++ commaSeparated (t.keys.map quotedString) ++ "])"

/-- The entries of a dictionary as a table. -/
def Value.tableOf (entries : List (Value × Value)) : Table Value :=
  Table.ofList (entries.map fun e => (e.1.asName, e.2))

end Styling
