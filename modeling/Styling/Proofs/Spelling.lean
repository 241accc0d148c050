import Mathlib
import Styling.Proofs.Concatenation
import Styling.Proofs.Statements

/-!
# Texts that spell pairs

A text spells pairs of a key and a value text when it has a statement for each of them, in their
order, with blanks around keys and value texts and with blank statements anywhere (`Spells`). Under
the standard marks the texts that spell pairs are all texts that have a mapping, and the mapping
follows from the pairs alone: `Coercer.readStyle_spells` is the main statement.

The step is one piece of a text between separators (`SpellsPair.splitStatement`,
`spellsPair_of_splitStatement`); the induction over the pieces follows the constructors of
`SpellsPieces` in one direction and the pieces in the other.
-/

set_option autoImplicit false

namespace Styling

open Styling.Text

/-! ## Spelling -/

/-- A key and a value text that a statement can have. -/
def IsPair (e : String × String) : Prop := IsKey e.1 ∧ IsRaw e.2.toList

instance (e : String × String) : Decidable (IsPair e) := inferInstanceAs (Decidable (_ ∧ _))

/-- A piece of a text spells a pair: key, colon and value text, with blanks around both texts. -/
inductive SpellsPair (e : String × String) : List Char → Prop where
  | intro {a b c d : List Char} (ha : isBlankText a = true) (hb : isBlankText b = true)
      (hc : isBlankText c = true) (hd : isBlankText d = true) :
      SpellsPair e (a ++ e.1.toList ++ b ++ ':' :: (c ++ e.2.toList ++ d))

/-- The pieces of a text spell pairs in their order. Blank pieces may stand anywhere. -/
inductive SpellsPieces : List (String × String) → List (List Char) → Prop where
  | nil : SpellsPieces [] []
  | blank {pairs : List (String × String)} {p : List Char} {ps : List (List Char)}
      (hp : isBlankText p = true) (h : SpellsPieces pairs ps) : SpellsPieces pairs (p :: ps)
  | pair {e : String × String} {pairs : List (String × String)} {p : List Char}
      {ps : List (List Char)} (hp : SpellsPair e p) (h : SpellsPieces pairs ps) :
      SpellsPieces (e :: pairs) (p :: ps)

/-- The text is made of pieces that spell the pairs, with separators between them. -/
def Spells (pairs : List (String × String)) (text : List Char) : Prop :=
  ∃ ps, SpellsPieces pairs ps ∧ text = join [';'] ps

/-! ## One piece -/

theorem not_mem_of_isBlankText {c : Char} (hc : isBlank c = false) {s : List Char}
    (h : isBlankText s = true) : c ∉ s := by
  intro hm
  rw [List.all_eq_true.1 h c hm] at hc
  cases hc

/-- What is left of a text after trimming stands between two blank parts of it. -/
theorem exists_blanks (s : List Char) :
    ∃ a b, isBlankText a = true ∧ isBlankText b = true ∧ s = a ++ trim s ++ b := by
  obtain ⟨b, hb, hblank⟩ := trimEnd_append (trimStart s)
  refine ⟨s.takeWhile isBlank, b, List.all_takeWhile, hblank, ?_⟩
  rw [List.append_assoc, trim, ← hb]
  exact List.takeWhile_append_dropWhile.symm

/-- A piece that spells a pair is a statement of this pair and holds no separator. -/
theorem SpellsPair.splitStatement {e : String × String} {p : List Char} (h : SpellsPair e p)
    (he : IsPair e) :
    trim p ≠ [] ∧ ';' ∉ p ∧ Styling.splitStatement [':'] (trim p) = .ok e := by
  obtain ⟨hkey, hraw⟩ := he
  cases h with
  | @intro a b c d ha hb hc hd =>
    have hsemi {s : List Char} (hs : isBlankText s = true) : ';' ∉ s :=
      not_mem_of_isBlankText (by decide) hs
    -- Trimming takes the outer blanks away; the key and the value text are trimmed themselves.
    have hpart : IsPart [] (e.1.toList ++ (b ++ ':' :: c) ++ e.2.toList) :=
      (hkey.mono (by simp)).append (hraw.mono (by simp)) (by simp)
    have htrim : trim (a ++ e.1.toList ++ b ++ ':' :: (c ++ e.2.toList ++ d)) =
        e.1.toList ++ (b ++ ':' :: c) ++ e.2.toList := by
      refine Eq.trans ?_ ((trim_surrounded ha hd _).trans hpart.trimmed)
      simp
    refine ⟨by rw [htrim]; exact hpart.nonempty, ?_, ?_⟩
    · intro hm
      simp only [List.mem_append, List.mem_cons] at hm
      rcases hm with ((hm | hm) | hm) | hm | (hm | hm) | hm
      · exact hsemi ha hm
      · exact hkey.free ';' hm (by simp)
      · exact hsemi hb hm
      · exact absurd hm (by decide)
      · exact hsemi hc hm
      · exact hraw.free ';' hm (by simp)
      · exact hsemi hd hm
    · have hsplit := splitStatement_written hkey hraw (a := []) (d := []) rfl hb hc rfl
      rw [htrim]
      simpa using hsplit

/-- A piece that is a statement of a pair spells it. -/
theorem spellsPair_of_splitStatement {e : String × String} {p : List Char}
    (h : splitStatement [':'] (trim p) = .ok e) : SpellsPair e p := by
  obtain ⟨k, v, hs, -, ⟨hk, -⟩, hv, -⟩ := splitStatement_inv h
  obtain ⟨a, d, ha, hd, hp⟩ := exists_blanks p
  obtain ⟨a', b, ha', hb, hk'⟩ := exists_blanks k
  obtain ⟨c, d', hc, hd', hv'⟩ := exists_blanks v
  have happend {s t : List Char} (hs : isBlankText s = true) (ht : isBlankText t = true) :
      isBlankText (s ++ t) = true := by
    rw [isBlankText, List.all_append, Bool.and_eq_true]
    exact ⟨hs, ht⟩
  have hspelled : p = (a ++ a') ++ e.1.toList ++ b ++ ':' :: (c ++ e.2.toList ++ (d' ++ d)) := by
    calc p = a ++ trim p ++ d := hp
      _ = a ++ (a' ++ trim k ++ b ++ ':' :: (c ++ trim v ++ d')) ++ d := by rw [hs, ← hk', ← hv']
      _ = _ := by
        rw [hk, hv]
        simp
  rw [hspelled]
  exact .intro (happend ha ha') hb hc (happend hd' hd)

/-! ## All pieces -/

/-- The statements of pieces: the pieces that are not blank, trimmed. -/
theorem statements_eq (text : List Char) :
    statements [';'] text = ((pieces [';'] text).map trim).filter (!·.isEmpty) := rfl

theorem statementsOf_cons_blank {p : List Char} (hp : isBlankText p = true)
    (ps : List (List Char)) :
    ((p :: ps).map trim).filter (!·.isEmpty) = (ps.map trim).filter (!·.isEmpty) := by
  rw [List.map_cons, trim_eq_nil_iff.2 hp]
  rfl

theorem statementsOf_cons {p : List Char} (hp : trim p ≠ []) (ps : List (List Char)) :
    ((p :: ps).map trim).filter (!·.isEmpty) = trim p :: (ps.map trim).filter (!·.isEmpty) := by
  rw [List.map_cons, List.filter_cons_of_pos (by simpa using hp)]

/-- Statements of pairs, one for each. -/
abbrev AreStatements (pairs : List (String × String)) (ss : List (List Char)) : Prop :=
  List.Forall₂ (fun e s => splitStatement [':'] s = .ok e) pairs ss

theorem SpellsPieces.statements {pairs : List (String × String)} {ps : List (List Char)}
    (h : SpellsPieces pairs ps) (hpairs : ∀ e ∈ pairs, IsPair e) :
    (∀ p ∈ ps, ';' ∉ p) ∧ AreStatements pairs ((ps.map trim).filter (!·.isEmpty)) := by
  induction h with
  | nil => exact ⟨fun p hp => absurd hp List.not_mem_nil, .nil⟩
  | @blank pairs p ps hp _ ih =>
    obtain ⟨hfree, hall⟩ := ih hpairs
    refine ⟨List.forall_mem_cons.2 ⟨not_mem_of_isBlankText (by decide) hp, hfree⟩, ?_⟩
    rwa [statementsOf_cons_blank hp]
  | @pair e pairs p ps hp _ ih =>
    obtain ⟨hfree, hall⟩ := ih fun d hd => hpairs d (List.mem_cons_of_mem e hd)
    obtain ⟨hne, hsemi, hsplit⟩ := hp.splitStatement (hpairs e List.mem_cons_self)
    refine ⟨List.forall_mem_cons.2 ⟨hsemi, hfree⟩, ?_⟩
    rw [statementsOf_cons hne]
    exact .cons hsplit hall

theorem spellsPieces_of_statements {pairs : List (String × String)} {ps : List (List Char)}
    (h : AreStatements pairs ((ps.map trim).filter (!·.isEmpty))) : SpellsPieces pairs ps := by
  induction ps generalizing pairs with
  | nil =>
    cases h
    exact .nil
  | cons p ps ih =>
    by_cases hp : isBlankText p = true
    · rw [statementsOf_cons_blank hp] at h
      exact .blank hp (ih h)
    · rw [statementsOf_cons (mt trim_eq_nil_iff.1 hp)] at h
      cases h with
      | cons hsplit hall => exact .pair (spellsPair_of_splitStatement hsplit) (ih hall)

/-- The statements of a text that spells pairs are statements of these pairs. -/
theorem Spells.statements {pairs : List (String × String)} {text : List Char}
    (h : Spells pairs text) (hpairs : ∀ e ∈ pairs, IsPair e) :
    AreStatements pairs (Styling.statements [';'] text) := by
  obtain ⟨ps, hps, rfl⟩ := h
  obtain ⟨hfree, hall⟩ := hps.statements hpairs
  cases ps with
  | nil =>
    cases hps
    exact .nil
  | cons p ps =>
    rw [statements_eq, pieces_join (List.cons_ne_nil p ps) hfree]
    exact hall

/-- A text whose statements are statements of pairs spells these pairs, which are such that a text
can spell them. -/
theorem spells_of_statements {pairs : List (String × String)} {text : List Char}
    (h : AreStatements pairs (statements [';'] text)) :
    Spells pairs text ∧ ∀ e ∈ pairs, IsPair e := by
  refine ⟨⟨pieces [';'] text, spellsPieces_of_statements h, ?_⟩, fun e he => ?_⟩
  · exact (join_pieces (List.cons_ne_nil ';' []) text).symm
  · obtain ⟨s, hs, hsplit⟩ := exists_of_mem_left h he
    exact splitStatement_ok (mem_statements hs).2 hsplit

/-- A text has no statements just when it is made of blanks and separators. -/
theorem statements_eq_nil_iff {text : List Char} :
    statements [';'] text = [] ↔ ∀ a ∈ text, isBlank a = true ∨ a = ';' := by
  have hblank : statements [';'] text = [] ↔ ∀ p ∈ pieces [';'] text, isBlankText p = true := by
    simp [statements_eq, trim_eq_nil_iff]
  rw [hblank]
  constructor
  · intro h a ha
    rw [← join_pieces (List.cons_ne_nil ';' []) text] at ha
    rcases mem_join ha with ha | ⟨p, hp, hap⟩
    · exact Or.inr (List.mem_singleton.1 ha)
    · exact Or.inl (List.all_eq_true.1 (h p hp) a hap)
  · intro h p hp
    refine List.all_eq_true.2 fun a ha => ?_
    obtain ⟨hat, hne⟩ := mem_of_mem_pieces hp ha
    exact (h a hat).resolve_right hne

/-! ## Reading -/

namespace Coercer

/-- A key with what the coercer makes of its value text. -/
def coercePair (c : Coercer) (e : String × String) : Except ReadError (String × Value) :=
  (c.coerce e.1 e.2).map (e.1, ·)

variable {c : Coercer}

theorem coercePair_eq_ok_iff {e : String × String} {entry : String × Value} :
    c.coercePair e = .ok entry ↔ entry.1 = e.1 ∧ c.coerce e.1 e.2 = .ok entry.2 :=
  map_pair_eq_ok_iff

theorem exists_coercePair {e : String × String} (h : ∃ value, c.coerce e.1 e.2 = .ok value) :
    ∃ entry, c.coercePair e = .ok entry := by
  obtain ⟨value, hv⟩ := h
  exact ⟨(e.1, value), coercePair_eq_ok_iff.2 ⟨rfl, hv⟩⟩

theorem coercePair_of_error {e : String × String} {error : ReadError}
    (h : c.coerce e.1 e.2 = .error error) : c.coercePair e = .error error := by
  rw [coercePair, h]
  rfl

theorem readStatement_eq_coercePair {s : List Char} {e : String × String}
    (h : splitStatement c.settings.keySeparator.toList s = .ok e) :
    c.readStatement s = c.coercePair e := by
  rw [readStatement, h, coercePair]
  cases hv : c.coerce e.1 e.2 <;> simp only [hv, Except.map]

/-- What a text that spells pairs says follows from the pairs alone. -/
theorem readStyle_eq_coercePairs (hc : c.settings = .standard) {pairs : List (String × String)}
    (hpairs : ∀ e ∈ pairs, IsPair e) {text : String} (h : Spells pairs text.toList) :
    c.readStyle (some text) = (pairs.mapM c.coercePair).map mappingOf := by
  rw [readStyle, readText_eq (separator_of_standard hc), readStatements_eq_mapM]
  refine congrArg _ (mapM_congr ((h.statements hpairs).flip.imp fun s e hsplit => ?_))
  exact readStatement_eq_coercePair (by rwa [keySeparator_of_standard hc])

theorem mappingOf_eq_none_iff {es : List (String × Value)} : mappingOf es = none ↔ es = [] := by
  cases es <;> simp [mappingOf]

/-- A text that has a mapping spells pairs. -/
theorem exists_spells (hc : c.settings = .standard) {text : String} {m : Table Value}
    (h : c.readStyle (some text) = .ok (some m)) :
    ∃ pairs, pairs ≠ [] ∧ (∀ e ∈ pairs, IsPair e) ∧ Spells pairs text.toList := by
  rw [readStyle, readText_eq (separator_of_standard hc)] at h
  cases hr : c.readStatements (statements [';'] text.toList) with
  | error error => simp [hr, Except.map] at h
  | ok entries =>
    have hm : mappingOf entries = some m := by simpa [hr, Except.map] using h
    have hall := readStatements_eq_ok_iff.1 hr
    have hsplits : ∀ s ∈ statements [';'] text.toList, ∃ e, splitStatement [':'] s = .ok e := by
      intro s hs
      obtain ⟨e, -, he⟩ := exists_of_mem_left hall hs
      obtain ⟨raw, hsplit, -⟩ := readStatement_eq_ok he
      exact ⟨_, keySeparator_of_standard hc ▸ hsplit⟩
    obtain ⟨pairs, hpairs⟩ := exists_forall₂ hsplits
    obtain ⟨hspells, hpair⟩ := spells_of_statements hpairs.flip
    refine ⟨pairs, ?_, hpair, hspells⟩
    -- Without pairs there would be no statements, no entries and so no mapping.
    rintro rfl
    rw [List.forall₂_nil_right_iff.1 hpairs, List.forall₂_nil_left_iff] at hall
    rw [mappingOf_eq_none_iff.2 hall] at hm
    cases hm

/-- A style that may be missing says nothing just when it is missing or made of blanks and
separators. -/
theorem readStyle_eq_none_iff (hc : c.settings = .standard) {given : Option String} :
    c.readStyle given = .ok none ↔
      ∀ text ∈ given, ∀ a ∈ text.toList, isBlank a = true ∨ a = ';' := by
  cases given with
  | none => simp [readStyle]
  | some text =>
    simp only [Option.mem_def, Option.some.injEq, forall_eq']
    rw [← statements_eq_nil_iff, readStyle, readText_eq (separator_of_standard hc)]
    constructor
    · intro h
      cases hr : c.readStatements (statements [';'] text.toList) with
      | error error => simp [hr, Except.map] at h
      | ok entries =>
        have hnone : mappingOf entries = none := by simpa [hr, Except.map] using h
        have hall := readStatements_eq_ok_iff.1 hr
        rwa [mappingOf_eq_none_iff.1 hnone, List.forall₂_nil_right_iff] at hall
    · intro h
      rw [h]
      rfl

/-- **The statement format is read exactly.** Under the standard marks, a text that spells pairs
gives the error of the first pair that the coercer refuses, and else a mapping: its keys are those
of the pairs, each in the place where it comes first, and each has the value of the last pair with
it. Every text that gives a mapping spells pairs, and the texts that give none are those of blanks
and separators. -/
theorem readStyle_spells (hc : c.settings = .standard) :
    (∀ pairs text, pairs ≠ [] → (∀ e ∈ pairs, IsPair e) → Spells pairs text.toList →
      (∀ before e after error, pairs = before ++ e :: after →
        (∀ d ∈ before, ∃ value, c.coerce d.1 d.2 = .ok value) →
        c.coerce e.1 e.2 = .error error → c.readStyle (some text) = .error error) ∧
      ((∀ e ∈ pairs, ∃ value, c.coerce e.1 e.2 = .ok value) →
        ∃ m, c.readStyle (some text) = .ok (some m) ∧
          m.keys = (pairs.map Prod.fst).eraseDups ∧
          ∀ before e after, pairs = before ++ e :: after → e.1 ∉ after.map Prod.fst →
            ∃ value, c.coerce e.1 e.2 = .ok value ∧ m.get? e.1 = some value)) ∧
    (∀ text m, c.readStyle (some text) = .ok (some m) →
      ∃ pairs, pairs ≠ [] ∧ (∀ e ∈ pairs, IsPair e) ∧ Spells pairs text.toList) ∧
    ∀ given, c.readStyle given = .ok none ↔
      ∀ text ∈ given, ∀ a ∈ text.toList, isBlank a = true ∨ a = ';' := by
  refine ⟨fun pairs text hne hpairs hspells => ?_, fun text m h => exists_spells hc h,
    fun given => readStyle_eq_none_iff hc⟩
  rw [readStyle_eq_coercePairs hc hpairs hspells]
  constructor
  · rintro before e after error rfl hbefore he
    rw [mapM_eq_error (fun d hd => exists_coercePair (hbefore d hd)) (coercePair_of_error he)]
    rfl
  · intro hall
    obtain ⟨entries, hrel⟩ := exists_forall₂ fun e he => exists_coercePair (hall e he)
    have hkeys {es : List (String × String)} {fs : List (String × Value)}
        (h : List.Forall₂ (fun e f => c.coercePair e = .ok f) es fs) :
        fs.map Prod.fst = es.map Prod.fst :=
      map_eq_of_forall₂ h fun e f h => (coercePair_eq_ok_iff.1 h).1
    have hm : mappingOf entries = some (.ofList entries) := by
      cases entries with
      | nil => exact absurd (List.forall₂_nil_right_iff.1 hrel) hne
      | cons f entries => rfl
    refine ⟨.ofList entries, by rw [mapM_eq_ok_iff.2 hrel, ← hm]; rfl, ?_, ?_⟩
    · rw [Table.keys_ofList, hkeys hrel]
    · rintro before e after rfl hlast
      obtain ⟨first, f, last, rfl, -, hf, hafter⟩ := exists_of_forall₂_append hrel
      obtain ⟨hkey, hv⟩ := coercePair_eq_ok_iff.1 hf
      refine ⟨f.2, hv, ?_⟩
      rw [← hkey]
      refine Table.get?_ofList_of_last ?_
      rwa [hkeys hafter, hkey]

/-- A key that is given twice, a value text with a colon, blanks and blank statements. -/
theorem readStyle_spells_twice :
    let c := Coercer.standard
    let pairs := [("arc", "1"), ("icon", "a:b"), ("arc", "2")]
    let text := "arc: 1;\u2003icon:a:b ; ;arc\t:2;"
    c.settings = .standard ∧ (∀ e ∈ pairs, IsPair e) ∧ Spells pairs text.toList ∧
      ∃ m, c.readStyle (some text) = .ok (some m) ∧ m.keys = ["arc", "icon"] ∧
        m.get? "arc" = some (.whole 2) := by
  intro c pairs text
  have hpairs : ∀ e ∈ pairs, IsPair e := by decide
  have hspells : Spells pairs text.toList := by
    refine ⟨["arc: 1".toList, "\u2003icon:a:b ".toList, [' '], "arc\t:2".toList, []], ?_, by decide⟩
    exact .pair (.intro (a := []) (b := []) (c := [' ']) (d := []) rfl rfl rfl rfl) <|
      .pair (.intro (a := ['\u2003']) (b := []) (c := []) (d := [' ']) (by decide) rfl rfl rfl) <|
      .blank rfl <|
      .pair (.intro (a := []) (b := ['\t']) (c := []) (d := []) rfl (by decide) rfl rfl) <|
      .blank rfl .nil
  have hcoerced : ∀ e ∈ pairs, ∃ value, c.coerce e.1 e.2 = .ok value := by
    rw [List.forall_mem_cons, List.forall_mem_cons, List.forall_mem_singleton]
    exact ⟨⟨.whole 1, by cbv⟩, ⟨.text "a:b", by cbv⟩, ⟨.whole 2, by cbv⟩⟩
  have hread := (readStyle_spells (c := c) rfl).1 pairs text (by decide) hpairs hspells
  obtain ⟨m, hm, hkeys, hlast⟩ := hread.2 hcoerced
  obtain ⟨value, hv, hget⟩ := hlast [("arc", "1"), ("icon", "a:b")] ("arc", "2") [] rfl (by decide)
  have htwo : c.coerce "arc" "2" = .ok (.whole 2) := by cbv
  obtain rfl : Value.whole 2 = value := Except.ok.inj (htwo.symm.trans hv)
  exact ⟨rfl, hpairs, hspells, m, hm, hkeys, hget⟩

end Coercer

end Styling
