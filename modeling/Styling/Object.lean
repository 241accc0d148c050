import Styling.Error
import Styling.Slot

/-!
# Objects

Instances of classes with their attributes. An attribute that an instance lacks is looked up among
the bindings of its class and its ancestors; only the instance's own attributes can be set, and
frozen classes refuse that.

All attributes are plain ones: setting one keeps the value as it is given, touches no other, and
can fail only where a frozen class refuses it. Classes that set or read attributes in a way of their
own, by a method for all of them or by properties and other descriptors for single ones, are not
represented.
-/

namespace Styling

structure Instance where
  /-- The place of its class among the classes built. -/
  index : Nat
  attributes : Table Value

/-- Why an attribute cannot be read or set. -/
inductive AttributeError where
  | missing (className name : String)
  | frozen (name : String)
deriving DecidableEq, Repr

def AttributeError.message : AttributeError → String
  | .missing className name => "'" ++ className ++ "' object has no attribute '" ++ name ++ "'"
  | .frozen name => "cannot assign to field " ++ Text.quotedString name

namespace Classes

/-- The class of an instance. -/
def classOf (cs : Classes) (o : Instance) : Option Class := cs[o.index]?

/-- The classes in which something about an instance is looked up, nearest first. -/
def lookupClasses (cs : Classes) (o : Instance) : List (Nat × Class) :=
  (cs.linearization (.declared o.index)).filterMap fun r =>
    match r with
    | .declared i => cs[i]?.map fun c => (i, c)
    | .library _ => none

/-- The value that the class of an instance, or an ancestor, binds to a name. -/
def binding? (cs : Classes) (o : Instance) (name : String) : Option Value :=
  (cs.lookupClasses o).findSome? fun p => p.2.bindings.get? name

/-- The value of an attribute. -/
def attribute? (cs : Classes) (o : Instance) (name : String) : Option Value :=
  match o.attributes.get? name with
  | some v => some v
  | none => cs.binding? o name

/-- A frozen record class refuses to set any attribute of its own instances, and its fields on
the instances of its descendants. -/
def refuses (o : Instance) (name : String) (p : Nat × Class) : Bool :=
  p.2.decl.frozen && p.2.table.any fun table =>
    p.1 = o.index || (table.get? name).any fun f => !f.shared

/-- Sets an attribute. -/
def setAttribute (cs : Classes) (o : Instance) (name : String) (value : Value) :
    Except AttributeError Instance :=
  if (cs.lookupClasses o).any (refuses o name) then .error (.frozen name)
  else .ok { o with attributes := o.attributes.set name value }

/-- Sets fields to their defaults, in order. A frozen class does so without asking itself. -/
def setDefaults (cs : Classes) (direct : Bool) (o : Instance) :
    List (String × FieldEntry) → Except AttributeError Instance
  | [] => .ok o
  | (name, field) :: rest =>
    match field.default with
    | none => cs.setDefaults direct o rest
    | some v =>
      if field.shared then cs.setDefaults direct o rest
      else if direct then
        cs.setDefaults direct { o with attributes := o.attributes.set name v } rest
      else
        match cs.setAttribute o name v with
        | .error e => .error e
        | .ok o => cs.setDefaults direct o rest

/-- The class that constructs the instances, with its field table: the nearest record class. The
dictionaries of the library have a construction of their own, which sets no field. -/
def constructor? (cs : Classes) : List ClassRef → Option (Class × Table FieldEntry)
  | [] => none
  | .library name :: order => if name = "dict" then none else cs.constructor? order
  | .declared i :: order =>
    match cs[i]?.bind fun c => c.table.map (c, ·) with
    | some p => some p
    | none => cs.constructor? order

/-- A new instance: the class that constructs it sets all fields of its table. -/
def newInstance (cs : Classes) (index : Nat) : Except AttributeError Instance :=
  match cs.constructor? (cs.linearization (.declared index)) with
  | none => .ok ⟨index, .empty⟩
  | some (c, table) => cs.setDefaults c.decl.frozen ⟨index, .empty⟩ table.entries

end Classes

/-! ## Writing to a slot -/

/-- Why a value cannot be written for a key. -/
inductive AssignError where
  | unknownKey (key : String)
  | readOnly (slot key : String)
  /-- The value does not fit the declared type of the slot. -/
  | unfit (slot key : String) (value : Value)
  /-- A value that does not fit cannot even be shown. -/
  | digits (excess : Decimal.DigitExcess)
  /-- The attribute of the slot has no value, or allows no other. -/
  | badAttribute (e : AttributeError)
  /-- The annotation of a slot cannot be read. -/
  | source (e : SourceError)

/-- The style error that a refusal is, if it is one. -/
def AssignError.styleError? : AssignError → Option StyleError
  | .unknownKey key => some (.unknownKey key)
  | .readOnly slot key => some (.badAssignment ("field '" ++ slot ++ "' is final") (some key))
  | .unfit slot key value =>
    some (.badAssignment
      ("value " ++ value.written ++ " does not fit type of field '" ++ slot ++ "'") (some key))
  | _ => none

def AssignError.message (e : AssignError) : String :=
  match e with
  | .digits excess => excess.message
  | .badAttribute e => e.message
  | .source e => e.message
  | e => (e.styleError?.map StyleError.message).getD ""

/-- What a write to a slot has changed: the value before, the instance after, and the slot. -/
structure Written where
  old : Value
  object : Instance
  slot : Slot

/-- Writes a value for a key to the slot of that name. The checks come in a fixed order: the slot
must be there, be writable and fit the value; the attribute must have a value and allow another. -/
def Classes.write (cs : Classes) (slots : Table Slot) (checkTypes : Bool) (o : Instance)
    (key : String) (value : Value) : Except AssignError Written :=
  match slots.get? key with
  | none => .error (.unknownKey key)
  | some slot =>
    if slot.readOnly then .error (.readOnly slot.qualifiedName key)
    else if checkTypes && !slot.hint.accepts value then
      -- The message shows the value, which fails for an integer with too many digits.
      if value.isWritable then .error (.unfit slot.qualifiedName key value)
      else .error (.digits .writing)
    else
      match cs.attribute? o slot.name with
      | none =>
        .error (.badAttribute (.missing (cs.nameOf (.declared o.index)) slot.name))
      | some old =>
        match cs.setAttribute o slot.name value with
        | .error e => .error (.badAttribute e)
        | .ok object => .ok ⟨old, object, slot⟩

end Styling
