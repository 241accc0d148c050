import Styling.Annotation
import Styling.Class.LibraryModules

/-!
# Classes

Classes with declared fields. A class has a linearization: itself, then all its ancestors, each
before its own ancestors and in the order in which the bases are given. A record class knows all
fields of its instances; the others only bind values and inherit.

Classes are built one after the other, and a class names its bases by their places in the list of
the classes before it.

A class consists of its fields and bindings. It has no methods, so none that would set or read the
attributes of instances in a way of its own, and nothing that it binds is a property or another
descriptor.
-/

namespace Styling

open Styling.Text

/-- A class by its place among the classes built, or a class of the library by its name. -/
inductive ClassRef where
  | declared (index : Nat)
  | library (name : String)
deriving DecidableEq, Repr

/-- The class that all others descend from. -/
def ClassRef.root : ClassRef := .library "object"

/-- A field as a class declares it. -/
structure FieldDecl where
  name : String
  annotation : Annotation
  /-- The value on a new instance; without one the field is left unset. -/
  default : Option Value
  /-- Style keys may write to the field. -/
  styleable : Bool
  readOnly : Bool

/-- A class as it is declared. -/
structure ClassDecl where
  name : String
  bases : List String
  fields : List FieldDecl
  moduleName : String
  qualifiedName : String
  /-- The fields are fields of the instances, and not only bindings of the class. -/
  isRecord : Bool
  /-- The fields of instances cannot be set. -/
  frozen : Bool
  /-- What the annotation texts come to that are written with more than types. -/
  outcome? : Outcomes := fun _ => none

/-- What the complete field table of a record class says about a field. -/
structure FieldEntry where
  default : Option Value
  /-- The field is a variable of the class and no field of its instances. -/
  shared : Bool

structure Class where
  decl : ClassDecl
  /-- The class itself, then its ancestors in the order of look-up. -/
  linearization : List ClassRef
  /-- Values bound by the class itself. -/
  bindings : Table Value
  /-- The fields of the instances, of a record class. -/
  table : Option (Table FieldEntry)

/-- Module and name of a class. -/
def Class.path (c : Class) : String := c.decl.moduleName ++ "." ++ c.decl.qualifiedName

/-- Classes in the order in which they are built. -/
abbrev Classes := List Class

/-- Why a class cannot be built. -/
inductive ClassError where
  | unknownBase (name : String)
  | duplicateBase (name : String)
  /-- No order of the ancestors respects all bases; these classes stand against each other. -/
  | noLinearization (names : List String)
  | frozenBase
  | unfrozenBase
  /-- A class variable cannot have a default that is made anew for each instance. -/
  | freshDefault (field : String)
deriving DecidableEq, Repr

def ClassError.message : ClassError → String
  | .unknownBase name => "name '" ++ name ++ "' is not defined"
  | .duplicateBase name => "duplicate base class " ++ name
  | .noLinearization names =>
    "Cannot create a consistent method resolution\norder (MRO) for bases " ++ commaSeparated names
  | .frozenBase => "cannot inherit non-frozen dataclass from a frozen one"
  | .unfrozenBase => "cannot inherit frozen dataclass from a non-frozen one"
  | .freshDefault field => "field " ++ field ++ " cannot have a default factory"

/-! ## Linearization -/

/-- The class stands behind the head of no row. -/
def isFree (rows : List (List ClassRef)) (c : ClassRef) : Bool :=
  rows.all fun row => !row.tail.contains c

/-- The first head that stands behind no other head. -/
def nextRef? (rows : List (List ClassRef)) : Option ClassRef :=
  (rows.filterMap List.head?).find? (isFree rows)

/-- The rows without a class at their heads. -/
def advanceRows (c : ClassRef) (rows : List (List ClassRef)) : List (List ClassRef) :=
  rows.map fun row => if row.head? = some c then row.tail else row

/-- Merges rows into one that respects the order of each. At most `steps` classes are taken; the
heads that are left over are reported. -/
def mergeRows : (steps : Nat) → List (List ClassRef) → Except (List ClassRef) (List ClassRef)
  | steps, rows =>
    if rows.all List.isEmpty then .ok []
    else
      match steps, nextRef? rows with
      | steps + 1, some c => (mergeRows steps (advanceRows c rows)).map (c :: ·)
      | _, _ => .error (rows.filterMap List.head?).eraseDups

/-- The linearization of a class that has been built, or of a library class. -/
def Classes.linearization (cs : Classes) : ClassRef → List ClassRef
  | .declared i => (cs[i]?.map Class.linearization).getD []
  | .library name => if name = "object" then [.root] else [.library name, .root]

/-- The name of a class. -/
def Classes.nameOf (cs : Classes) : ClassRef → String
  | .declared i => (cs[i]?.map fun c => c.decl.name).getD ""
  | .library name => name

/-- The linearization of a new class with some bases. -/
def Classes.linearize (cs : Classes) (new : ClassRef) (bases : List ClassRef) :
    Except ClassError (List ClassRef) :=
  let bases := if bases.isEmpty then [.root] else bases
  -- The bases are a row of their own, which keeps their order.
  let rows := bases.map cs.linearization ++ [bases]
  -- Each step takes a class away from some row, so their total length is enough.
  match mergeRows rows.flatten.length rows with
  | .ok order => .ok (new :: order)
  | .error heads => .error (.noLinearization (heads.map cs.nameOf))

/-! ## Fields -/

/-- The library classes that can be bases. -/
def libraryBases : List String := ["ABC", "Generic", "dict", "object"]

/-- The class that a name means: the last one built under it, or a library class. -/
def Classes.resolve? (cs : Classes) (name : String) : Option ClassRef :=
  match (cs.zipIdx.filter fun p => p.1.decl.name = name).getLast? with
  | some (_, i) => some (.declared i)
  | none => if libraryBases.contains name then some (.library name) else none

/-- The value can be shared: it is no list and no dictionary. -/
def Value.isShareable : Value → Bool
  | .list _ => false
  | .dict _ => false
  | _ => true

/-- The values that a class binds: the defaults of its fields, and of a record class only those
that can be shared. -/
def ClassDecl.bindings (d : ClassDecl) : Table Value :=
  Table.ofList (d.fields.filterMap fun f =>
    match f.default with
    | some v => if !d.isRecord || v.isShareable then some (f.name, v) else none
    | none => none)

/-- The field table that a class has or inherits. -/
def Classes.tableOf (cs : Classes) (order : List ClassRef) : Option (Class × Table FieldEntry) :=
  order.findSome? fun r =>
    match r with
    | .declared i => cs[i]?.bind fun c => c.table.map (c, ·)
    | .library _ => none

/-- The record classes, own or inherited, that the ancestors bring in, most distant first. -/
def Classes.inheritedTables (cs : Classes) (order : List ClassRef) :
    List (Class × Table FieldEntry) :=
  order.tail.reverse.filterMap fun r => cs.tableOf (cs.linearization r)

/-- The entry of a declared field. -/
def FieldDecl.entry (f : FieldDecl) : FieldEntry := ⟨f.default, f.annotation.isClassVariable⟩

/-- The default is made anew for each instance although the field belongs to the class. -/
def FieldDecl.isBadDefault (f : FieldDecl) : Bool :=
  f.annotation.isClassVariable && f.default.any fun v => !v.isShareable

/-- The complete field table of a record class: those of its ancestors, most distant first, and
then its own fields. -/
def Classes.recordTable (cs : Classes) (d : ClassDecl) (order : List ClassRef) :
    Except ClassError (Table FieldEntry) :=
  let inherited := cs.inheritedTables order
  let anyFrozen := inherited.any fun p => p.1.decl.frozen
  match d.fields.find? FieldDecl.isBadDefault with
  | some f => .error (.freshDefault f.name)
  | none =>
    -- Frozen classes and others do not descend from each other.
    if anyFrozen && !d.frozen then .error .frozenBase
    else if !inherited.isEmpty && !anyFrozen && d.frozen then .error .unfrozenBase
    else
      .ok ((inherited.foldl (fun t p => Table.update t p.2) Table.empty).setAll
        (d.fields.map fun f => (f.name, f.entry)))

/-- Finds every base, or reports the first unknown one. -/
def Classes.resolveAll (cs : Classes) : List String → Except ClassError (List ClassRef)
  | [] => .ok []
  | name :: names =>
    match cs.resolve? name with
    | none => .error (.unknownBase name)
    | some r => (cs.resolveAll names).map (r :: ·)

/-- The first of some classes that comes again after it. -/
def repeated? : List ClassRef → Option ClassRef
  | [] => none
  | r :: rs => if rs.contains r then some r else repeated? rs

/-- Fields declared under one name are one field, at the first place and with the last meaning. -/
def ClassDecl.distinctFields (d : ClassDecl) : List FieldDecl :=
  (Table.ofList (d.fields.map fun f => (f.name, f))).entries.map Prod.snd

/-- The class of a declaration. -/
def Classes.build (cs : Classes) (declaration : ClassDecl) : Except ClassError Class := do
  let d := { declaration with fields := declaration.distinctFields }
  let bases ← cs.resolveAll d.bases
  match repeated? bases with
  | some r => .error (.duplicateBase (cs.nameOf r))
  | none =>
    -- The new class has the place after all classes that are there.
    let order ← cs.linearize (.declared cs.length) bases
    let table ← if d.isRecord then (cs.recordTable d order).map some else .ok none
    return ⟨d, order, d.bindings, table⟩

/-- The classes of some declarations, each of which may use those before it. -/
def Classes.ofDecls (ds : List ClassDecl) : Except ClassError Classes :=
  ds.foldlM (fun cs d => do return cs ++ [← cs.build d]) []

end Styling
