import Styling.Proofs.Tables
import Styling.Slot

/-!
# Fields under other annotations

A class can be declared with another annotation of one of its fields. Unless the two differ in
whether the field is a variable of the class, the class that is built is the same in all but that
annotation (`Classes.build_annotated`).
-/

set_option autoImplicit false

namespace Styling

/-- The field with an annotation, if it is the one of that name. -/
def FieldDecl.annotated (name : String) (a : Annotation) (f : FieldDecl) : FieldDecl :=
  if f.name = name then { f with annotation := a } else f

/-- The class with an annotation of one field. -/
def ClassDecl.annotated (d : ClassDecl) (name : String) (a : Annotation) : ClassDecl :=
  { d with fields := d.fields.map (FieldDecl.annotated name a) }

section

variable {name : String} {a b : Annotation} (f : FieldDecl)

@[simp] theorem FieldDecl.annotated_name : (f.annotated name a).name = f.name := by
  rw [annotated]
  split <;> rfl

@[simp] theorem FieldDecl.annotated_default : (f.annotated name a).default = f.default := by
  rw [annotated]
  split <;> rfl

@[simp] theorem FieldDecl.annotated_styleable :
    (f.annotated name a).styleable = f.styleable := by
  rw [annotated]
  split <;> rfl

theorem FieldDecl.annotated_of_eq (h : f.name = name) :
    f.annotated name a = { f with annotation := a } := if_pos h

theorem FieldDecl.annotated_of_ne (h : f.name ≠ name) : f.annotated name a = f := if_neg h

theorem FieldDecl.entry_annotated (h : a.isClassVariable = b.isClassVariable) :
    (f.annotated name a).entry = (f.annotated name b).entry := by
  by_cases hf : f.name = name
  · simp [f.annotated_of_eq hf, entry, h]
  · rw [f.annotated_of_ne hf, f.annotated_of_ne hf]

theorem FieldDecl.isBadDefault_annotated (h : a.isClassVariable = b.isClassVariable) :
    (f.annotated name a).isBadDefault = (f.annotated name b).isBadDefault := by
  by_cases hf : f.name = name
  · simp [f.annotated_of_eq hf, isBadDefault, h]
  · rw [f.annotated_of_ne hf, f.annotated_of_ne hf]

end

/-- Which fields are marked does not depend on an annotation. -/
theorem FieldDecl.filter_annotated (name : String) (a : Annotation) (fs : List FieldDecl) :
    (fs.map (FieldDecl.annotated name a)).filter FieldDecl.styleable
      = (fs.filter FieldDecl.styleable).map (FieldDecl.annotated name a) := by
  rw [List.filter_map]
  congr 1
  simp [Function.comp_def]

theorem ClassDecl.distinctFields_annotated (d : ClassDecl) (name : String) (a : Annotation) :
    (d.annotated name a).distinctFields
      = d.distinctFields.map (FieldDecl.annotated name a) := by
  have hpairs : (d.annotated name a).fields.map (fun f => (f.name, f))
      = (d.fields.map fun f => (f.name, f)).map fun e => (e.1, e.2.annotated name a) := by
    simp [annotated, Function.comp_def]
  rw [distinctFields, hpairs, Table.ofList_mapValues]
  simp [Table.mapValues, distinctFields, Function.comp_def]

section

variable (name : String) {a b : Annotation} (h : a.isClassVariable = b.isClassVariable)
  (d : ClassDecl) (fs : List FieldDecl)

include h

/-- What the field table of a class keeps does not depend on an annotation. -/
theorem Classes.recordTable_annotated (cs : Classes) (order : List ClassRef) :
    cs.recordTable { d with fields := fs.map (FieldDecl.annotated name a) } order
      = cs.recordTable { d with fields := fs.map (FieldDecl.annotated name b) } order := by
  have hentry : ∀ f : FieldDecl, ((f.annotated name a).name, (f.annotated name a).entry)
      = ((f.annotated name b).name, (f.annotated name b).entry) := by
    intro f
    simp [f.entry_annotated h]
  have hbad : ∀ f : FieldDecl, (f.annotated name a).isBadDefault
      = (f.annotated name b).isBadDefault := fun f => f.isBadDefault_annotated h
  have hfind : ((fs.map (FieldDecl.annotated name a)).find? FieldDecl.isBadDefault).map
      FieldDecl.name = ((fs.map (FieldDecl.annotated name b)).find? FieldDecl.isBadDefault).map
        FieldDecl.name := by
    simp [List.find?_map, Function.comp_def, hbad]
  unfold recordTable
  simp only [List.map_map, Function.comp_def, hentry]
  cases hx : (fs.map (FieldDecl.annotated name a)).find? FieldDecl.isBadDefault with
  | none =>
    cases hy : (fs.map (FieldDecl.annotated name b)).find? FieldDecl.isBadDefault with
    | none => rfl
    | some g => simp [hx, hy] at hfind
  | some f =>
    cases hy : (fs.map (FieldDecl.annotated name b)).find? FieldDecl.isBadDefault with
    | none => simp [hx, hy] at hfind
    | some g =>
      have hname : f.name = g.name := by simpa [hx, hy] using hfind
      simp [hname]

omit h in
theorem ClassDecl.bindings_annotated (a b : Annotation) :
    { d with fields := fs.map (FieldDecl.annotated name a) }.bindings
      = { d with fields := fs.map (FieldDecl.annotated name b) }.bindings := by
  simp [bindings, List.filterMap_map]

/-- **A class under another annotation of a field is the same in all else.** -/
theorem Classes.build_annotated (cs : Classes) :
    cs.build (d.annotated name b) = (cs.build (d.annotated name a)).map fun c =>
      { c with decl := { c.decl with
        fields := d.distinctFields.map (FieldDecl.annotated name b) } } := by
  unfold build
  simp only [ClassDecl.distinctFields_annotated]
  simp only [ClassDecl.annotated, bind, Except.bind]
  cases cs.resolveAll d.bases with
  | error e => rfl
  | ok bases =>
    simp only
    cases repeated? bases with
    | some r => rfl
    | none =>
      simp only
      cases cs.linearize (.declared cs.length) bases with
      | error e => rfl
      | ok order =>
        simp only
        rw [← recordTable_annotated name h d d.distinctFields cs order,
          ClassDecl.bindings_annotated name d d.distinctFields b a]
        by_cases hrecord : d.isRecord = true
        · simp only [hrecord, if_true]
          cases cs.recordTable _ order <;> rfl
        · simp only [hrecord]
          rfl

end

end Styling
