import Mathlib.Data.List.Induction
import Styling.Rule

/-!
# Registered rules

Rules are registered one after the other, each in front of those that are there. Which converter
reads the values of a key is then a matter of the rules that match the key (`DecidedBy`): the last
one registered, or else the first one of the rules at the start, or else the converter for literals.

A parser shows its rules only by the values it reads. Rules that choose the same converters go on to
do so after any registration (`ChoosesAlike.register`), so parsers with such rules cannot be told
apart by any uses (`ChoosesAlike.readings_eq`). Two rules that match no key in common choose alike in
either order, and so they can be registered in either order at any point of a run.
-/

set_option autoImplicit false

namespace Styling

open Styling.Text

/-! ## Keys that match -/

/-- One of the suffixes of the rule ends the key, both in lower case. -/
def Rule.Matches (r : Rule) (key : String) : Prop :=
  ∃ s ∈ r.suffixes, lowercase s.toList <:+ lowercase key.toList

theorem Rule.fits_iff {r : Rule} {key : String} : r.fits key = true ↔ r.Matches key := by
  simp [fits, Matches]

theorem Rule.fits_eq_false_iff {r : Rule} {key : String} :
    r.fits key = false ↔ ¬r.Matches key := by
  rw [← Rule.fits_iff, Bool.not_eq_true]

/-! ## The converter of a key -/

/-- The converter for a key after some registrations. -/
inductive DecidedBy (initial registered : List Rule) (key : String) : Converter → Prop where
  /-- The last rule registered that matches the key. -/
  | registered {earlier later : List Rule} {r : Rule} (h : registered = earlier ++ r :: later)
      (hr : r.Matches key) (hlater : ∀ s ∈ later, ¬s.Matches key) :
      DecidedBy initial registered key r.converter
  /-- No registered rule matches, and of those at the start this is the first that does. -/
  | initial {before after : List Rule} {r : Rule} (h : initial = before ++ r :: after)
      (hr : r.Matches key) (hbefore : ∀ s ∈ before, ¬s.Matches key)
      (hregistered : ∀ s ∈ registered, ¬s.Matches key) :
      DecidedBy initial registered key r.converter
  /-- No rule matches. -/
  | literal (hinitial : ∀ s ∈ initial, ¬s.Matches key)
      (hregistered : ∀ s ∈ registered, ¬s.Matches key) :
      DecidedBy initial registered key readLiteral

theorem registerAll_concat (rules registered : List Rule) (r : Rule) :
    registerAll rules (registered ++ [r]) = r :: registerAll rules registered := by
  rw [registerAll, List.foldl_append]
  rfl

theorem registerAll_eq (rules registered : List Rule) :
    registerAll rules registered = registered.reverse ++ rules := by
  induction registered using List.reverseRecOn with
  | nil => rfl
  | append_singleton registered r ih => rw [registerAll_concat, ih, List.reverse_concat]; rfl

/-- The first of some rules that matches the key decides it. -/
theorem converterFor_of_first {before after : List Rule} {r : Rule} {key : String}
    (hr : r.Matches key) (hbefore : ∀ s ∈ before, ¬s.Matches key) :
    converterFor (before ++ r :: after) key = r.converter := by
  have hfind : (before ++ r :: after).find? (fun s => s.fits key) = some r := by
    refine List.find?_eq_some_iff_append.2 ⟨Rule.fits_iff.2 hr, before, after, rfl, ?_⟩
    intro s hs
    rw [Rule.fits_eq_false_iff.2 (hbefore s hs), Bool.not_false]
  rw [converterFor, hfind]

theorem converterFor_of_none {rules : List Rule} {key : String}
    (h : ∀ s ∈ rules, ¬s.Matches key) : converterFor rules key = readLiteral := by
  have hfind : rules.find? (fun s => s.fits key) = none := by
    refine List.find?_eq_none.2 fun s hs => ?_
    rw [Rule.fits_iff]
    exact h s hs
  rw [converterFor, hfind]

theorem DecidedBy.converterFor_eq {initial registered : List Rule} {key : String}
    {convert : Converter} (h : DecidedBy initial registered key convert) :
    converterFor (registerAll initial registered) key = convert := by
  rw [registerAll_eq]
  cases h with
  | @registered earlier later r h hr hlater =>
    -- What was registered after the rule stands before it.
    have hsplit : registered.reverse ++ initial
        = later.reverse ++ r :: (earlier.reverse ++ initial) := by
      simp [h]
    rw [hsplit]
    exact converterFor_of_first hr fun s hs => hlater s (List.mem_reverse.1 hs)
  | @initial before after r h hr hbefore hregistered =>
    rw [h, ← List.append_assoc]
    refine converterFor_of_first hr fun s hs => ?_
    rcases List.mem_append.1 hs with hs | hs
    · exact hregistered s (List.mem_reverse.1 hs)
    · exact hbefore s hs
  | literal hinitial hregistered =>
    refine converterFor_of_none fun s hs => ?_
    rcases List.mem_append.1 hs with hs | hs
    · exact hregistered s (List.mem_reverse.1 hs)
    · exact hinitial s hs

/-- Of the rules that match a key one is the first, if there are any. -/
theorem exists_first_match (rules : List Rule) (key : String) :
    (∃ before r after, rules = before ++ r :: after ∧ r.Matches key ∧
      ∀ s ∈ before, ¬s.Matches key) ∨ ∀ s ∈ rules, ¬s.Matches key := by
  cases hfind : rules.find? fun s => s.fits key with
  | none =>
    refine .inr fun s hs => ?_
    rw [← Rule.fits_iff]
    exact List.find?_eq_none.1 hfind s hs
  | some r =>
    obtain ⟨hr, before, after, h, hbefore⟩ := List.find?_eq_some_iff_append.1 hfind
    refine .inl ⟨before, r, after, h, Rule.fits_iff.1 hr, fun s hs => ?_⟩
    rw [← Rule.fits_eq_false_iff]
    simpa using hbefore s hs

theorem exists_decidedBy (initial registered : List Rule) (key : String) :
    ∃ convert, DecidedBy initial registered key convert := by
  -- The last match among the registered rules is the first one of them in reverse.
  rcases exists_first_match registered.reverse key with
    ⟨later, r, earlier, h, hr, hlater⟩ | hregistered
  · have hsplit : registered = earlier.reverse ++ r :: later.reverse := by
      rw [← List.reverse_reverse registered, h]
      simp
    exact ⟨_, .registered hsplit hr fun s hs => hlater s (List.mem_reverse.1 hs)⟩
  have hnone : ∀ s ∈ registered, ¬s.Matches key :=
    fun s hs => hregistered s (List.mem_reverse.2 hs)
  rcases exists_first_match initial key with ⟨before, r, after, h, hr, hbefore⟩ | hinitial
  · exact ⟨_, .initial h hr hbefore hnone⟩
  · exact ⟨_, .literal hinitial hnone⟩

/-! ## Uses of a parser -/

/-- A use of a parser: a registration, or the reading of a value. -/
inductive ParserUse where
  | register (r : Rule)
  | read (key raw : String)

/-- What a parser with some rules answers to uses of it. A registration has no answer. -/
def readings : List Rule → List ParserUse → List (Except ReadError Value)
  | _, [] => []
  | rules, .register r :: uses => readings (register rules r) uses
  | rules, .read key raw :: uses => readValue rules key raw :: readings rules uses

/-- The rules have the same converter for every key. -/
def ChoosesAlike (rules others : List Rule) : Prop :=
  ∀ key, converterFor rules key = converterFor others key

namespace ChoosesAlike

variable {rules others : List Rule}

theorem readValue_eq (h : ChoosesAlike rules others) (key raw : String) :
    readValue rules key raw = readValue others key raw := by
  rw [readValue, readValue, h key]

/-- The step: a registration cannot tell such rules apart. -/
theorem register (h : ChoosesAlike rules others) (r : Rule) :
    ChoosesAlike (register rules r) (Styling.register others r) := by
  intro key
  rw [Styling.register, Styling.register, converterFor_cons, converterFor_cons, h key]

/-- The run: no uses can. -/
theorem readings_eq (h : ChoosesAlike rules others) (uses : List ParserUse) :
    readings rules uses = readings others uses := by
  induction uses generalizing rules others with
  | nil => rfl
  | cons use uses ih =>
    cases use with
    | register r => exact ih (h.register r)
    | read key raw => rw [readings, readings, h.readValue_eq, ih h]

/-- Rules that match no key in common can stand in either order. -/
theorem swap {r s : Rule} (hrs : ∀ key, ¬(r.Matches key ∧ s.Matches key)) (rules : List Rule) :
    ChoosesAlike (s :: r :: rules) (r :: s :: rules) := by
  intro key
  simp only [converterFor_cons]
  by_cases hr : r.fits key = true
  · have hs : s.fits key = false :=
      Rule.fits_eq_false_iff.2 fun hs => hrs key ⟨Rule.fits_iff.1 hr, hs⟩
    simp [hr, hs]
  · simp [hr]

end ChoosesAlike

theorem readings_swap {r s : Rule} (hrs : ∀ key, ¬(r.Matches key ∧ s.Matches key))
    (rules : List Rule) (before after : List ParserUse) :
    readings rules (before ++ .register r :: .register s :: after)
      = readings rules (before ++ .register s :: .register r :: after) := by
  induction before generalizing rules with
  | nil => exact (ChoosesAlike.swap hrs rules).readings_eq after
  | cons use before ih =>
    cases use with
    | register t => exact ih (register rules t)
    | read key raw => exact congrArg (readValue rules key raw :: ·) (ih rules)

/-! ## Precedence -/

/-- **Registered rules override exactly the keys they match.** After any registrations, for each
key: the values but null are read by the converter of the last rule registered that matches the key,
or else of the first such rule of those at the start, or else by the one for literals. One more
registration changes nothing for a key that its rule does not match. And two rules that match no key
in common can be registered one right after the other in either order: nothing that the parser is
used for before or after that can show it. -/
theorem readValue_registerAll (initial registered : List Rule) :
    (∀ key, (∃ convert, DecidedBy initial registered key convert) ∧
      ∀ convert, DecidedBy initial registered key convert →
        ∀ raw, raw ≠ "null" → readValue (registerAll initial registered) key raw = convert key raw) ∧
    (∀ r key, ¬Rule.Matches r key → ∀ raw,
      readValue (registerAll initial (registered ++ [r])) key raw
        = readValue (registerAll initial registered) key raw) ∧
    ∀ r s, (∀ key, ¬(Rule.Matches r key ∧ Rule.Matches s key)) → ∀ before after,
      readings (registerAll initial registered) (before ++ .register r :: .register s :: after)
        = readings (registerAll initial registered)
            (before ++ .register s :: .register r :: after) := by
  refine ⟨fun key => ⟨exists_decidedBy initial registered key, ?_⟩, ?_, ?_⟩
  · intro convert hdecided raw hraw
    rw [readValue, if_neg hraw, hdecided.converterFor_eq]
  · intro r key hr raw
    rw [registerAll_concat]
    exact readValue_cons (Rule.fits_eq_false_iff.2 hr) raw
  · intro r s hrs before after
    exact readings_swap hrs (registerAll initial registered) before after

/-- Suffixes in mixed case, one with a built-in suffix at its end, and a rule without suffixes that
is registered last. -/
theorem readValue_registerAll_overlapping :
    let line : Rule := ⟨["LineColor", "edge"], readNumber⟩
    let label : Rule := ⟨["Label"], readFont⟩
    let mute : Rule := ⟨[], readInsets⟩
    let rules := registerAll builtinRules [line, label]
    DecidedBy builtinRules [line, label, mute] "topLINEcolor" readNumber ∧
      readValue (registerAll builtinRules [line, label, mute]) "topLINEcolor" "5"
        = .ok (.whole 5) ∧
      ¬mute.Matches "topLINEcolor" ∧
      readValue (registerAll builtinRules ([line, label] ++ [mute])) "topLINEcolor" "5"
        = readValue rules "topLINEcolor" "5" ∧
      (∀ key, ¬(line.Matches key ∧ label.Matches key)) ∧
      readings rules [.register line, .register label, .read "topLINEcolor" "5"]
        = readings rules [.register label, .register line, .read "topLINEcolor" "5"] := by
  intro line label mute rules
  have hmute : ∀ key, ¬mute.Matches key := by
    rintro key ⟨s, hs, -⟩
    cases hs
  have hlabel : ¬label.Matches "topLINEcolor" := by
    rw [← Rule.fits_eq_false_iff]
    decide
  have hapart : ∀ key, ¬(line.Matches key ∧ label.Matches key) := by
    rintro key ⟨⟨s, hs, hskey⟩, t, ht, htkey⟩
    -- Of two suffixes of one key the shorter is a suffix of the longer.
    have hst := List.suffix_or_suffix_of_suffix hskey htkey
    simp only [line, label, List.mem_cons, List.not_mem_nil, or_false] at hs ht
    subst ht
    rcases hs with rfl | rfl <;> revert hst <;> decide
  have hdecided : DecidedBy builtinRules [line, label, mute] "topLINEcolor" readNumber := by
    have hsplit : [line, label, mute] = [] ++ line :: [label, mute] := rfl
    refine .registered hsplit ?_ ?_
    · rw [← Rule.fits_iff]
      decide
    · intro s hs
      simp only [List.mem_cons, List.not_mem_nil, or_false] at hs
      rcases hs with rfl | rfl
      · exact hlabel
      · exact hmute _
  obtain ⟨hread, -, -⟩ := readValue_registerAll builtinRules [line, label, mute]
  obtain ⟨-, hmore, hswap⟩ := readValue_registerAll builtinRules [line, label]
  have hvalue : readNumber "topLINEcolor" "5" = .ok (.whole 5) := by rfl
  exact ⟨hdecided, ((hread _).2 _ hdecided "5" (by decide)).trans hvalue, hmute _,
    hmore mute _ (hmute _) "5", hapart,
    hswap line label hapart [] [.read "topLINEcolor" "5"]⟩

end Styling
