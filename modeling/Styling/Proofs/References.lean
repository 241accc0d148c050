import Mathlib
import Styling.Proofs.Statements

/-!
# References

The named values of a coercer matter for a text only through the names that its references mention
(`Settings.Mentions`). Two coercers that differ in their named values alone, and not in those of the
mentioned names, make the same of a text: the argument goes up from one value text
(`coerce_congr`) over a statement and the statements to the whole text (`readStyle_congr`). What a
reference stands for gets into the mapping as it is, whatever text it may be
(`readStyle_get?_reference`). Both hold for all marks, also for empty ones: with an empty reference
mark every value text is a reference.
-/

set_option autoImplicit false

namespace Styling

/-- A statement of the text has a reference to the name as its value text. -/
def Settings.Mentions (settings : Settings) (text : List Char) (name : String) : Prop :=
  ∃ s ∈ statements settings.separator.toList text, ∃ key,
    splitStatement settings.keySeparator.toList s = .ok (key, settings.referenceMark ++ name)

namespace Coercer

variable {c : Coercer} {others : Table Value}

/-! ## One value text -/

theorem referenceName?_eq_some_iff {raw name : String} :
    c.referenceName? raw = some name ↔ raw = c.settings.referenceMark ++ name := by
  simp only [referenceName?, Option.map_eq_some_iff, Text.dropPrefix?_eq_some_iff]
  constructor
  · rintro ⟨rest, hraw, rfl⟩
    exact String.toList_inj.1 (by simpa using hraw)
  · rintro rfl
    exact ⟨name.toList, String.toList_append, String.ofList_toList⟩

/-- A reference stands for the named value as it is, for every key. -/
theorem coerce_reference (key name : String) :
    c.coerce key (c.settings.referenceMark ++ name) = .ok (c.named name) := by
  rw [coerce, referenceName?_eq_some_iff.2 rfl]

/-- Named values decide about a value text only if it is a reference to one of them. -/
theorem coerce_congr {raw : String} (h : ∀ name, raw = c.settings.referenceMark ++ name →
      c.named name = (others.get? name).getD .null)
    (key : String) : { c with defaults := others }.coerce key raw = c.coerce key raw := by
  have hname : { c with defaults := others }.referenceName? raw = c.referenceName? raw := rfl
  rw [coerce, coerce, hname]
  cases hr : c.referenceName? raw with
  | none => rfl
  | some name => exact congrArg Except.ok (h name (referenceName?_eq_some_iff.1 hr)).symm

/-! ## Statements and texts -/

theorem readStatement_congr {s : List Char}
    (h : ∀ key name, splitStatement c.settings.keySeparator.toList s =
      .ok (key, c.settings.referenceMark ++ name) → c.named name = (others.get? name).getD .null) :
    { c with defaults := others }.readStatement s = c.readStatement s := by
  rw [readStatement, readStatement]
  cases hsplit : splitStatement c.settings.keySeparator.toList s with
  | error e => rfl
  | ok p =>
    obtain ⟨key, raw⟩ := p
    have hv : { c with defaults := others }.coerce key raw = c.coerce key raw := by
      refine coerce_congr (fun name hraw => h key name ?_) key
      rw [hsplit, hraw]
    simp only [hv]

theorem readStatements_congr {ss : List (List Char)}
    (h : ∀ s ∈ ss, ∀ key name, splitStatement c.settings.keySeparator.toList s =
      .ok (key, c.settings.referenceMark ++ name) → c.named name = (others.get? name).getD .null) :
    { c with defaults := others }.readStatements ss = c.readStatements ss := by
  induction ss with
  | nil => rfl
  | cons s ss ih =>
    rw [readStatements, readStatements, readStatement_congr (h s List.mem_cons_self),
      ih fun t ht => h t (List.mem_cons_of_mem s ht)]

/-- Coercers with the same values for the mentioned names make the same of a text. -/
theorem readStyle_congr {text : String}
    (h : ∀ name, c.settings.Mentions text.toList name →
      c.named name = (others.get? name).getD .null) :
    { c with defaults := others }.readStyle (some text) = c.readStyle (some text) := by
  have hall : { c with defaults := others }.readStatements
      (statements c.settings.separator.toList text.toList) =
        c.readStatements (statements c.settings.separator.toList text.toList) :=
    readStatements_congr fun s hs key name hsplit => h name ⟨s, hs, key, hsplit⟩
  rw [readStyle, readStyle, readText, readText, hall]

/-- A key whose last statement has a reference to a name has the named value. -/
theorem readStyle_get?_reference {text : String} {m : Table Value}
    (h : c.readStyle (some text) = .ok (some m)) {before after : List (List Char)} {s : List Char}
    (hss : statements c.settings.separator.toList text.toList = before ++ s :: after)
    {key name : String} (hs : splitStatement c.settings.keySeparator.toList s =
      .ok (key, c.settings.referenceMark ++ name))
    (hlast : ∀ t ∈ after, ∀ raw, splitStatement c.settings.keySeparator.toList t ≠ .ok (key, raw)) :
    m.get? key = some (c.named name) := by
  obtain ⟨es, -, hr, rfl⟩ := readText_eq_some h
  rw [hss] at hr
  -- The entry of the statement is the last one with its key.
  obtain ⟨first, e, last, rfl, -, he, hafter⟩ :=
    exists_of_forall₂_append (readStatements_eq_ok_iff.1 hr)
  obtain ⟨raw, hsplit, hv⟩ := readStatement_eq_ok he
  obtain ⟨rfl, rfl⟩ : key = e.1 ∧ c.settings.referenceMark ++ name = raw := by
    simpa [hs] using hsplit
  have hvalue : c.named name = e.2 := Except.ok.inj (coerce_reference e.1 name ▸ hv)
  rw [hvalue]
  refine Table.get?_ofList_of_last fun hm => ?_
  obtain ⟨f, hf, hkey⟩ := List.mem_map.1 hm
  obtain ⟨t, ht, hread⟩ := exists_of_mem_right hafter hf
  obtain ⟨rawLast, hsplitLast, -⟩ := readStatement_eq_ok hread
  exact hlast t ht rawLast (hkey ▸ hsplitLast)

/-- **The named values matter only where they are referred to.** Two stores of named values that
give the same for every name that a reference of the text mentions lead to the same outcome, be it a
mapping, none or an error. In a mapping that was read, a key whose last statement has a reference as
its value text has exactly the named value, which is not read or resolved again. -/
theorem readStyle_references (rules : List Rule) (settings : Settings) (text : String)
    {defaults others : Table Value}
    (h : ∀ name, settings.Mentions text.toList name →
      (defaults.get? name).getD .null = (others.get? name).getD .null) :
    readStyle ⟨defaults, rules, settings⟩ (some text) =
      readStyle ⟨others, rules, settings⟩ (some text) ∧
    ∀ m, readStyle ⟨defaults, rules, settings⟩ (some text) = .ok (some m) →
      ∀ before s after key name,
        statements settings.separator.toList text.toList = before ++ s :: after →
        splitStatement settings.keySeparator.toList s = .ok (key, settings.referenceMark ++ name) →
        (∀ t ∈ after, ∀ raw, splitStatement settings.keySeparator.toList t ≠ .ok (key, raw)) →
        m.get? key = some ((defaults.get? name).getD .null) := by
  refine ⟨(readStyle_congr (c := ⟨defaults, rules, settings⟩) h).symm, ?_⟩
  intro m hm before s after key name hss hs hlast
  exact readStyle_get?_reference hm hss hs hlast

/-- A key that is given again, by a reference to a text that looks like a reference itself. The name
in that text is not mentioned, so the value of this name does not matter. -/
theorem readStyle_references_text :
    let settings := Settings.standard
    let text := "arc: 1; arc: $b"
    let defaults : Table Value := .ofList [("a", .whole 1), ("b", .text "$a")]
    let others : Table Value := .ofList [("b", .text "$a"), ("a", .whole 2)]
    (∀ name, settings.Mentions text.toList name →
      (defaults.get? name).getD .null = (others.get? name).getD .null) ∧
    (defaults.get? "a" = some (.whole 1) ∧ others.get? "a" = some (.whole 2)) ∧
    readStyle ⟨defaults, builtinRules, settings⟩ (some text) =
      readStyle ⟨others, builtinRules, settings⟩ (some text) ∧
    ∃ m, readStyle ⟨defaults, builtinRules, settings⟩ (some text) = .ok (some m) ∧
      m.get? "arc" = some (.text "$a") := by
  intro settings text defaults others
  have hss : statements settings.separator.toList text.toList =
      ["arc: 1".toList] ++ "arc: $b".toList :: [] := by decide
  have hone : splitStatement settings.keySeparator.toList "arc: 1".toList = .ok ("arc", "1") := by
    cbv
  have hb : splitStatement settings.keySeparator.toList "arc: $b".toList = .ok ("arc", "$b") := by
    cbv
  have hagree : ∀ name, settings.Mentions text.toList name →
      (defaults.get? name).getD .null = (others.get? name).getD .null := by
    rintro name ⟨s, hs, key, hsplit⟩
    rw [hss, List.singleton_append, List.mem_pair] at hs
    rcases hs with rfl | rfl
    · obtain ⟨-, hraw⟩ := Prod.mk.inj (Except.ok.inj (hone.symm.trans hsplit))
      have hhead := congrArg (fun raw => raw.toList.head?) hraw
      simp [settings, Settings.standard] at hhead
    · obtain ⟨-, hraw⟩ := Prod.mk.inj (Except.ok.inj (hb.symm.trans hsplit))
      obtain rfl : "b" = name := by
        simpa [settings, Settings.standard, ← String.toList_inj] using hraw
      rfl
  obtain ⟨hsame, hlast⟩ := readStyle_references builtinRules settings text hagree
  have hread : readStyle ⟨defaults, builtinRules, settings⟩ (some text) =
      .ok (some (.ofList [("arc", .text "$a")])) := by cbv
  exact ⟨hagree, ⟨rfl, rfl⟩, hsame, _, hread, hlast _ hread _ _ _ "arc" "b" hss hb (by simp)⟩

end Coercer

end Styling
