import Styling.Class
import Styling.Log
import Styling.Settings

/-!
# Slots

A slot is a field that style keys may write to. A class has the slots that it and its ancestors
declare, without those in the library or behind a boundary; for a name that is declared more than
once, the first class in the order of look-up counts. The slots of a class are collected once for
given settings and then kept in a registry.
-/

namespace Styling

open Styling.Text

structure Slot where
  /-- The name of the class that declares the field. -/
  ownerName : String
  /-- Module and name of that class. -/
  ownerPath : String
  name : String
  hint : Hint
  readOnly : Bool

/-- The full name of a slot, as messages show it. -/
def Slot.qualifiedName (s : Slot) : String := s.ownerPath ++ "." ++ s.name

/-- The part of a module name before its first point. -/
def topModule (name : String) : String := String.ofList (name.toList.takeWhile (· ≠ '.'))

/-- The class belongs to the library or lies behind a boundary of the settings. -/
def Class.isBoundary (c : Class) (settings : Settings) : Bool :=
  libraryModules.contains (topModule c.decl.moduleName)
    || settings.boundaryModules.contains (topModule c.decl.moduleName)

/-- What a collection of slots gives: the entries it logs, and the slots or an error. -/
abbrev Collected (α : Type) := List LogEntry × Except SourceError α

/-- The scope of the annotations of a class. -/
def Class.scope (c : Class) : Scope := .ofBindings c.bindings c.decl.outcome?

/-- The slot of one field, with the names of a scope. -/
def Class.slotIn (scope : Scope) (c : Class) (f : FieldDecl) : Collected Slot :=
  let (unknown, declared) := f.annotation.declared scope
  (unknown.map fun name => .unresolved c.decl.qualifiedName f.name name,
    declared.map fun d =>
      ⟨c.decl.name, c.path, f.name, d.hint, f.readOnly || c.decl.frozen || d.isFinal⟩)

/-- The slots of some fields, up to the first whose annotation cannot be read. -/
def Class.slotsIn (scope : Scope) (c : Class) : List FieldDecl → Collected (List (String × Slot))
  | [] => ([], .ok [])
  | f :: fs =>
    -- The annotation of a field that is no slot is not read, so it cannot fail.
    if !f.styleable then c.slotsIn scope fs
    else
      match c.slotIn scope f with
      | (log, .error e) => (log, .error e)
      | (log, .ok slot) =>
        let (more, rest) := c.slotsIn scope fs
        (log ++ more, rest.map ((f.name, slot) :: ·))

/-- The slots that a class declares itself; only record classes do. -/
def Class.ownSlotsIn (scope : Scope) (c : Class) : Collected (List (String × Slot)) :=
  if c.table.isSome then c.slotsIn scope c.decl.fields else ([], .ok [])

/-- The slot of one field. -/
def Class.slotOf (c : Class) (f : FieldDecl) : Collected Slot := c.slotIn c.scope f

/-- The slots that a class declares itself. -/
def Class.ownSlots (c : Class) : Collected (List (String × Slot)) := c.ownSlotsIn c.scope

/-- Adds slots under names that are new. -/
def addNew (slots : Table Slot) (more : List (String × Slot)) : Table Slot :=
  more.foldl (fun t e => if t.contains e.1 then t else t.set e.1 e.2) slots

/-- Adds the slots that the classes of a linearization declare, nearest first. -/
def Classes.addSlots (cs : Classes) (settings : Settings) :
    Table Slot → List ClassRef → Collected (Table Slot)
  | slots, [] => ([], .ok slots)
  | slots, .library _ :: order => cs.addSlots settings slots order
  | slots, .declared i :: order =>
    match cs[i]? with
    | none => cs.addSlots settings slots order
    | some c =>
      if c.isBoundary settings then cs.addSlots settings slots order
      else
        match c.ownSlots with
        | (log, .error e) => (log, .error e)
        | (log, .ok own) =>
          let (more, result) := cs.addSlots settings (addNew slots own) order
          (log ++ more, result)

/-- All slots of a class. -/
def Classes.collectSlots (cs : Classes) (settings : Settings) (c : Class) :
    Collected (Table Slot) :=
  cs.addSlots settings .empty c.linearization

/-! ## The registry -/

/-- The slots that have been collected for a class, given by its place, and settings. -/
structure Registration where
  index : Nat
  settings : Settings
  slots : Table Slot

abbrev Registry := List Registration

/-- The slots kept for a class and settings. -/
def Registry.find? (r : Registry) (index : Nat) (settings : Settings) : Option (Table Slot) :=
  (List.find? (fun e => e.index = index && e.settings.same settings) r).map Registration.slots

/-- The slots of a class: those that are kept, or else collected now and kept from then on. A class
that is not there has none. -/
def Registry.slots (r : Registry) (cs : Classes) (settings : Settings) (index : Nat) :
    Registry × Collected (Table Slot) :=
  match r.find? index settings with
  | some slots => (r, [], .ok slots)
  | none =>
    match cs[index]? with
    | none => (r, [], .ok .empty)
    | some c =>
      match cs.collectSlots settings c with
      -- A collection that fails is not kept: the next one logs and fails again.
      | (log, .error e) => (r, log, .error e)
      | (log, .ok slots) =>
        (r ++ [⟨index, settings, slots⟩],
          log ++ [.registered slots.size c.decl.qualifiedName], .ok slots)

end Styling
