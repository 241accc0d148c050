import Styling.Proofs.Separation
import Styling.Proofs.Tables
import Styling.Statement

/-!
# Style texts one after the other

Where the separator is a single character, two texts with the separator between them have the
statements of the first and then those of the second (`statements_append`), and statements are read
one by one (`Coercer.readStatements_append`). Both halves can be blank, and blanks can be
separators: a blank text has no statements (`statements_eq_nil_of_blank`), so the short way out for
blank texts gives what reading them would give (`Coercer.readText_eq`). What two texts say together
is therefore known from what each of them says (`Coercer.readStyle_append`).
-/

set_option autoImplicit false

namespace Styling

open Styling.Text

/-! ## Statements -/

theorem statements_append (sep : Char) (a b : List Char) :
    statements [sep] (a ++ sep :: b) = statements [sep] a ++ statements [sep] b := by
  rw [statements, pieces_append, List.map_append, List.filter_append]
  rfl

/-- The pieces of a blank text are blank, whatever it is cut at. -/
theorem statements_eq_nil_of_blank {text : List Char} (h : isBlankText text = true) (sep : Char) :
    statements [sep] text = [] := by
  rw [statements, List.filter_eq_nil_iff]
  intro s hs
  obtain ⟨p, hp, rfl⟩ := List.mem_map.1 hs
  have hblank : isBlankText p = true :=
    List.all_eq_true.2 fun c hc => List.all_eq_true.1 h c (mem_of_mem_pieces hp hc).1
  simp [trim_eq_nil_iff.2 hblank]

theorem Coercer.readStatements_append (c : Coercer) (ss ts : List (List Char)) :
    c.readStatements (ss ++ ts) = (do
      let es ← c.readStatements ss
      let fs ← c.readStatements ts
      return es ++ fs) := by
  induction ss with
  | nil =>
    show c.readStatements ts = _
    cases c.readStatements ts <;> rfl
  | cons s ss ih =>
    rw [List.cons_append, Coercer.readStatements, Coercer.readStatements, ih]
    cases c.readStatement s with
    | error e => rfl
    | ok entry =>
      cases c.readStatements ss with
      | error e => rfl
      | ok es => cases c.readStatements ts <;> rfl

/-! ## Mappings -/

/-- The mapping of the entries of a text. A text without entries has none. -/
def mappingOf (es : List (String × Value)) : Option (Table Value) :=
  if es.isEmpty then none else some (Table.ofList es)

/-- What two texts say together: the second one sets its keys in the mapping of the first. -/
def together : Option (Table Value) → Option (Table Value) → Option (Table Value)
  | none, n => n
  | some m, none => some m
  | some m, some n => some (m.update n)

theorem mappingOf_append (es fs : List (String × Value)) :
    mappingOf (es ++ fs) = together (mappingOf es) (mappingOf fs) := by
  cases es with
  | nil => rfl
  | cons e es =>
    cases fs with
    | nil => rw [List.append_nil]; rfl
    | cons f fs => exact congrArg some (Table.ofList_append (e :: es) (f :: fs))

/-- A text says what its statements say, also if it is blank. -/
theorem Coercer.readText_eq {c : Coercer} {sep : Char} (h : c.settings.separator = sep.toString)
    (text : List Char) :
    c.readText text = (c.readStatements (statements [sep] text)).map mappingOf := by
  have hsep : c.settings.separator.toList = [sep] := by simp [h]
  rw [Coercer.readText]
  by_cases hb : isBlankText text = true
  · rw [if_pos hb, statements_eq_nil_of_blank hb]
    rfl
  · rw [if_neg hb, if_neg (by rw [h]; simp), hsep]
    cases c.readStatements (statements [sep] text) with
    | error e => rfl
    | ok es => cases es <;> rfl

/-- **What two texts say together is known from what each of them says.** Of two texts with the
separator between them, the error of the first is the error of the whole, and else the error of the
second; without errors the mapping of the second is written over that of the first, whose keys keep
their places. -/
theorem Coercer.readStyle_append {c : Coercer} {sep : Char}
    (h : c.settings.separator = sep.toString) (a b : String) :
    c.readStyle (some (a ++ c.settings.separator ++ b)) = (do
      let m ← c.readStyle (some a)
      let n ← c.readStyle (some b)
      return together m n) ∧
    ∀ m n : Table Value,
      (m.update n).keys = m.keys ++ n.keys.filter (· ∉ m.keys) ∧
        ∀ key, (m.update n).get? key = (n.get? key).or (m.get? key) := by
  refine ⟨?_, fun m n => ⟨Table.keys_update m n, Table.get?_update m n⟩⟩
  have htext : (a ++ c.settings.separator ++ b).toList = a.toList ++ sep :: b.toList := by
    rw [h]
    simp
  simp only [Coercer.readStyle, htext, Coercer.readText_eq h, statements_append,
    Coercer.readStatements_append]
  cases c.readStatements (statements [sep] a.toList) with
  | error e => rfl
  | ok es =>
    cases c.readStatements (statements [sep] b.toList) with
    | error e => rfl
    | ok fs => exact congrArg Except.ok (mappingOf_append es fs)

/-- Statements in lines, the last one before the cut blank, with a key on both sides of it. -/
theorem Coercer.readStyle_append_lines :
    let c : Coercer := ⟨.empty, builtinRules, { Settings.standard with separator := "\n" }⟩
    c.settings.separator = Char.toString '\n' ∧
      c.readStyle (some ("arc: 1\n gap: 2\n" ++ c.settings.separator ++ "arc: 3")) = (do
        let m ← c.readStyle (some "arc: 1\n gap: 2\n")
        let n ← c.readStyle (some "arc: 3")
        return together m n) := by
  intro c
  have h : c.settings.separator = Char.toString '\n' := by decide
  exact ⟨h, (Coercer.readStyle_append h _ _).1⟩

end Styling
