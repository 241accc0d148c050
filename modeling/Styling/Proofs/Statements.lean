import Styling.Proofs.Separation
import Styling.Proofs.Sequences
import Styling.Proofs.Tables
import Styling.Statement

/-!
# Statements read and written

Under the standard marks, what `readStyle` makes of a text depends on keys and value texts only.
Every entry of a mapping that was read has a key and a value text that a statement can hold
(`readText_entries`). A mapping whose keys and formatted values are of that kind is written as a
text that is read entry by entry, in the same order (`readStyle_formatStyle`): the values of the
second reading are what the coercer makes of the formatted values, and nothing gets lost or moved
between the statements.
-/

set_option autoImplicit false

namespace Styling

open Styling.Text

/-- A key that a statement can have. -/
abbrev IsKey (key : String) : Prop := IsPart [':', ';'] key.toList

/-- A value text that a statement can have. -/
abbrev IsRaw (raw : List Char) : Prop := IsPart [';'] raw

/-! ## One statement -/

/-- Key and value text with blanks around them, as they are read from a statement. -/
theorem splitStatement_written {key raw a b c d : List Char} (hkey : IsPart [':', ';'] key)
    (hraw : IsRaw raw) (ha : isBlankText a = true) (hb : isBlankText b = true)
    (hc : isBlankText c = true) (hd : isBlankText d = true) :
    splitStatement [':'] (a ++ key ++ b ++ ':' :: (c ++ raw ++ d))
      = .ok (String.ofList key, String.ofList raw) := by
  -- No blank is a colon, so the cut is right after the key and its blanks.
  have hcolon : ∀ s, isBlankText s = true → ':' ∉ s := by
    intro s hs hm
    have hblank : isBlank ':' = true := List.all_eq_true.1 hs ':' hm
    exact absurd hblank (by decide)
  have hfree : ':' ∉ a ++ key ++ b := by
    intro hm
    rw [List.mem_append, List.mem_append] at hm
    rcases hm with (hm | hm) | hm
    · exact hcolon a ha hm
    · exact hkey.free ':' hm (by simp)
    · exact hcolon b hb hm
  have hcut := cutAt_append hfree (c ++ raw ++ d)
  have hk : trim (a ++ key ++ b) = key := by rw [trim_surrounded ha hb, hkey.trimmed]
  have hr : trim (c ++ raw ++ d) = raw := by rw [trim_surrounded hc hd, hraw.trimmed]
  rw [splitStatement, if_neg (by simp), hcut]
  simp only [hk, hr, List.isEmpty_eq_false_iff.2 hkey.nonempty,
    List.isEmpty_eq_false_iff.2 hraw.nonempty, Bool.false_eq_true, ↓reduceIte]

/-- Key and value text of a statement are what stands around its first colon, trimmed. -/
theorem splitStatement_inv {s : List Char} {e : String × String}
    (h : splitStatement [':'] s = .ok e) :
    ∃ k v, s = k ++ ':' :: v ∧ ':' ∉ k ∧
      (e.1.toList = trim k ∧ trim k ≠ []) ∧ (e.2.toList = trim v ∧ trim v ≠ []) := by
  rw [splitStatement, if_neg (by simp)] at h
  cases hcut : cutAt [':'] s with
  | none => simp [hcut] at h
  | some p =>
    obtain ⟨k, v⟩ := p
    rw [hcut] at h
    obtain ⟨hcolon, rfl⟩ := cutAt_eq_some_iff.1 hcut
    by_cases hk : (trim k).isEmpty = true
    · simp [hk] at h
    by_cases hv : (trim v).isEmpty = true
    · simp [hk, hv] at h
    simp only [if_neg hk, if_neg hv, Except.ok.injEq] at h
    obtain rfl := h
    exact ⟨k, v, rfl, hcolon, ⟨String.toList_ofList, by simpa using hk⟩,
      String.toList_ofList, by simpa using hv⟩

/-- What is read from a statement is a key and a value text that a statement can have. -/
theorem splitStatement_ok {s : List Char} {key raw : String} (hfree : ';' ∉ s)
    (h : splitStatement [':'] s = .ok (key, raw)) : IsKey key ∧ IsRaw raw.toList := by
  obtain ⟨k, v, rfl, hcolon, ⟨hk, hkne⟩, hv, hvne⟩ := splitStatement_inv h
  dsimp only at hk hv
  rw [List.mem_append, List.mem_cons, not_or, not_or] at hfree
  -- The key stands before the first colon, so it has none; the value text may have colons.
  constructor
  · refine ⟨by rw [hk]; exact trim_trim k, by rwa [hk], ?_⟩
    intro c hc
    have hck : c ∈ k := mem_of_mem_trim (hk ▸ hc)
    simp [ne_of_mem_of_not_mem hck hcolon, ne_of_mem_of_not_mem hck hfree.1]
  · refine ⟨by rw [hv]; exact trim_trim v, by rwa [hv], ?_⟩
    intro c hc
    have hcv : c ∈ v := mem_of_mem_trim (hv ▸ hc)
    simp [ne_of_mem_of_not_mem hcv hfree.2.2]

/-! ## Many statements -/

theorem mem_statements {text s : List Char} (h : s ∈ statements [';'] text) :
    s ≠ [] ∧ ';' ∉ s := by
  rw [statements, List.mem_filter, List.mem_map] at h
  obtain ⟨⟨p, hp, rfl⟩, hne⟩ := h
  refine ⟨by simpa using hne, ?_⟩
  intro hm
  exact (mem_of_mem_pieces hp (mem_of_mem_trim hm)).2 rfl

/-- Statements written one after the other are read as these statements. -/
theorem statements_join {ss : List (List Char)} (hss : ∀ s ∈ ss, IsPart [';'] s) :
    statements [';'] (join [';', ' '] ss) = ss := by
  cases ss with
  | nil => rfl
  | cons s ss =>
    have htrim : ∀ t ∈ ss, trim (' ' :: t) = t := by
      intro t ht
      have := trim_surrounded (a := [' ']) (b := []) (by decide) rfl t
      rw [List.append_nil, (hss t (List.mem_cons_of_mem s ht)).trimmed] at this
      exact this
    have hfree : ∀ p ∈ s :: ss.map ([' '] ++ ·), ';' ∉ p := by
      intro p hp
      rcases List.mem_cons.1 hp with rfl | hp
      · exact fun hm => (hss p List.mem_cons_self).free ';' hm (by simp)
      · obtain ⟨t, ht, rfl⟩ := List.mem_map.1 hp
        intro hm
        rcases List.mem_append.1 hm with hm | hm
        · simp at hm
        · exact (hss t (List.mem_cons_of_mem s ht)).free ';' hm (by simp)
    -- The space of the separator goes to the statement after it and is trimmed away there.
    have hmap : (s :: ss.map ([' '] ++ ·)).map trim = s :: ss := by
      rw [List.map_cons, (hss s List.mem_cons_self).trimmed, List.map_map]
      congr 1
      exact (List.map_congr_left htrim).trans (List.map_id ss)
    rw [statements, show ([';', ' '] : List Char) = [';'] ++ [' '] from rfl, join_append_sep,
      pieces_join (List.cons_ne_nil _ _) hfree, hmap, List.filter_eq_self]
    intro t ht
    simpa using (hss t ht).nonempty

/-- Statements are read one by one, in their order. -/
theorem Coercer.readStatements_eq_mapM (c : Coercer) (ss : List (List Char)) :
    c.readStatements ss = ss.mapM c.readStatement := by
  induction ss with
  | nil => rfl
  | cons s ss ih =>
    rw [Coercer.readStatements, ih]
    cases hs : c.readStatement s with
    | error e => rw [mapM_cons_of_error hs]
    | ok entry =>
      rw [mapM_cons_of_ok hs]
      cases ss.mapM c.readStatement <;> rfl

theorem Coercer.readStatements_eq_ok_iff {c : Coercer} {ss : List (List Char)}
    {es : List (String × Value)} :
    c.readStatements ss = .ok es ↔ List.Forall₂ (fun s e => c.readStatement s = .ok e) ss es := by
  rw [Coercer.readStatements_eq_mapM, mapM_eq_ok_iff]

/-! ## Whole texts -/

variable {c : Coercer}

theorem Coercer.separator_of_standard (hc : c.settings = .standard) :
    c.settings.separator = Char.toString ';' := by
  rw [hc]
  rfl

theorem Coercer.keySeparator_of_standard (hc : c.settings = .standard) :
    c.settings.keySeparator.toList = [':'] := by
  rw [hc]
  rfl

theorem Coercer.readStatement_eq_ok {s : List Char} {e : String × Value}
    (h : c.readStatement s = .ok e) :
    ∃ raw, splitStatement c.settings.keySeparator.toList s = .ok (e.1, raw)
      ∧ c.coerce e.1 raw = .ok e.2 := by
  unfold Coercer.readStatement at h
  cases hsplit : splitStatement c.settings.keySeparator.toList s with
  | error f => simp [hsplit] at h
  | ok p =>
    obtain ⟨key, raw⟩ := p
    rw [hsplit] at h
    cases hv : c.coerce key raw with
    | error f => simp [hv] at h
    | ok value =>
      obtain rfl : (key, value) = e := by simpa [hv] using h
      exact ⟨raw, rfl, hv⟩

/-- A mapping that was read is that of the statements, of which there is one at least. -/
theorem Coercer.readText_eq_some {text : List Char} {style : Table Value}
    (h : c.readText text = .ok (some style)) :
    ∃ es, es ≠ [] ∧ c.readStatements (statements c.settings.separator.toList text) = .ok es ∧
      style = Table.ofList es := by
  unfold Coercer.readText at h
  split at h
  · simp at h
  split at h
  · contradiction
  cases hr : c.readStatements (statements c.settings.separator.toList text) with
  | error e => simp [hr] at h
  | ok es =>
    cases es with
    | nil => simp [hr] at h
    | cons e es => exact ⟨e :: es, List.cons_ne_nil e es, rfl, by simpa [hr, eq_comm] using h⟩

/-- **The keys and values of a mapping that was read.** Every entry has a key that a statement can
have, and its value is what the coercer makes of a value text that a statement can have. -/
theorem Coercer.readText_entries (hc : c.settings = .standard) {text : List Char}
    {style : Table Value} (h : c.readText text = .ok (some style)) :
    style.entries ≠ [] ∧ ∀ e ∈ style.entries, IsKey e.1
      ∧ ∃ raw : String, IsRaw raw.toList ∧ c.coerce e.1 raw = .ok e.2 := by
  obtain ⟨es, hne, hr, rfl⟩ := Coercer.readText_eq_some h
  refine ⟨fun he => hne (Table.isEmpty_ofList.1 he), ?_⟩
  intro d hd
  -- The entry comes from one of the statements.
  have hall := Coercer.readStatements_eq_ok_iff.1 hr
  obtain ⟨s, hs, hread⟩ := exists_of_mem_right hall (Table.mem_ofList hd)
  obtain ⟨raw, hsplit, hv⟩ := Coercer.readStatement_eq_ok hread
  rw [hc] at hs hsplit
  obtain ⟨hk, hraw⟩ := splitStatement_ok (mem_statements hs).2 hsplit
  exact ⟨hk, raw, hraw, hv⟩

/-! ## Mappings as texts -/

/-- An entry is written as a statement. -/
def Writes (e : String × Value) (s : List Char) : Prop :=
  ∃ text, e.2.formatChars = .ok text ∧ s = e.1.toList ++ ':' :: ' ' :: text

/-- An entry is read from the statement that another one is written as. -/
def Rereads (c : Coercer) (e again : String × Value) : Prop :=
  again.1 = e.1 ∧ ∃ text, e.2.formatChars = .ok text
    ∧ c.coerce e.1 (String.ofList text) = .ok again.2

/-- An entry is written as a statement from which its key and its value text can be read. -/
def IsStated (e : String × Value) : Prop :=
  IsKey e.1 ∧ ∃ text, e.2.formatChars = .ok text ∧ IsRaw text

theorem formatEntries_ok {es : List (String × Value)}
    (h : ∀ e ∈ es, ∃ text, e.2.formatChars = .ok text) :
    ∃ ss, formatEntries es = .ok ss ∧ List.Forall₂ Writes es ss := by
  induction es with
  | nil => exact ⟨[], rfl, List.Forall₂.nil⟩
  | cons e es ih =>
    obtain ⟨key, value⟩ := e
    obtain ⟨text, htext⟩ := h (key, value) List.mem_cons_self
    obtain ⟨ss, hss, hall⟩ := ih fun d hd => h d (List.mem_cons_of_mem _ hd)
    refine ⟨_, by rw [formatEntries, htext, hss], List.Forall₂.cons ⟨text, htext, rfl⟩ hall⟩

theorem IsStated.exists_text {e : String × Value} (he : IsStated e) :
    ∃ text, e.2.formatChars = .ok text := by
  obtain ⟨-, text, htext, -⟩ := he
  exact ⟨text, htext⟩

theorem IsStated.isPart {e : String × Value} (he : IsStated e) {s : List Char} (h : Writes e s) :
    IsPart [';'] s := by
  obtain ⟨hkey, text, htext, hraw⟩ := he
  obtain ⟨t, ht, rfl⟩ := h
  obtain rfl : text = t := by simpa [htext] using ht
  have hk : IsPart [';'] e.1.toList := hkey.mono (by simp)
  simpa using hk.append hraw (m := [':', ' ']) (by simp)

theorem IsStated.readStatement (hc : c.settings = .standard) {e again : String × Value}
    (he : IsStated e) {s : List Char} (h : Writes e s) :
    c.readStatement s = .ok again ↔ Rereads c e again := by
  obtain ⟨hkey, text, htext, hraw⟩ := he
  obtain ⟨t, ht, rfl⟩ := h
  obtain rfl : text = t := by simpa [htext] using ht
  -- A key holds no separator, so the statement is split where it was put together.
  have hsplit : splitStatement [':'] (e.1.toList ++ ':' :: ' ' :: text)
      = .ok (e.1, String.ofList text) := by
    simpa using splitStatement_written hkey hraw (a := []) (b := []) (c := [' ']) (d := [])
      rfl rfl (by decide) rfl
  rw [Coercer.readStatement, Coercer.keySeparator_of_standard hc, hsplit]
  constructor
  · intro h
    cases hv : c.coerce e.1 (String.ofList text) with
    | error f => simp [hv] at h
    | ok value =>
      obtain rfl : (e.1, value) = again := by simpa [hv] using h
      exact ⟨rfl, text, htext, hv⟩
  · rintro ⟨hk, t, ht, hv⟩
    obtain rfl : text = t := by simpa [htext] using ht
    simp only [hv]
    rw [← hk]

theorem forall₂_writes_iff (hc : c.settings = .standard) {es : List (String × Value)}
    (hes : ∀ e ∈ es, IsStated e) {ss : List (List Char)} (h : List.Forall₂ Writes es ss)
    {fs : List (String × Value)} :
    List.Forall₂ (fun s f => c.readStatement s = .ok f) ss fs ↔ List.Forall₂ (Rereads c) es fs := by
  induction h generalizing fs with
  | nil => simp
  | @cons e s es ss hes' _ ih =>
    have he := hes e List.mem_cons_self
    have hrest := @ih fun d hd => hes d (List.mem_cons_of_mem e hd)
    simp only [List.forall₂_cons_left_iff, he.readStatement hc hes', hrest]

theorem keys_of_rereads {es fs : List (String × Value)} (h : List.Forall₂ (Rereads c) es fs) :
    fs.map Prod.fst = es.map Prod.fst :=
  map_eq_of_forall₂ h fun _ _ hr => hr.1

/-- **A mapping is read again entry by entry.** A mapping with keys and formatted values that
statements can have is written as a text, and reading that text gives the same keys in the same
order, each with what the coercer makes of its formatted value. -/
theorem Coercer.readStyle_formatStyle (hc : c.settings = .standard) {style : Table Value}
    (hne : style.entries ≠ []) (h : ∀ e ∈ style.entries, IsStated e) :
    ∃ text, formatStyle style = .ok text ∧ ∀ again,
      c.readStyle (some text) = .ok (some again)
        ↔ List.Forall₂ (Rereads c) style.entries again.entries := by
  obtain ⟨ss, hformat, hwrites⟩ := formatEntries_ok fun e he => (h e he).exists_text
  refine ⟨String.ofList (join [';', ' '] ss), by rw [formatStyle, hformat]; rfl, ?_⟩
  intro again
  have hparts : ∀ s ∈ ss, IsPart [';'] s := by
    intro s hs
    obtain ⟨e, he, hw⟩ := exists_of_mem_right hwrites hs
    exact (h e he).isPart hw
  have hss : ss ≠ [] := by
    rintro rfl
    exact hne (List.forall₂_nil_right_iff.1 hwrites)
  have hjoin : IsPart [] (join [';', ' '] ss) :=
    isPart_join (by simp) hss fun s hs => (hparts s hs).mono (by simp)
  have hblank : isBlankText (join [';', ' '] ss) = false := by
    rw [← Bool.not_eq_true, ← trim_eq_nil_iff, hjoin.trimmed]
    exact hjoin.nonempty
  have hmark : c.settings.separator = ";" := by rw [hc]; rfl
  rw [Coercer.readStyle, Coercer.readText, String.toList_ofList, hblank, hmark]
  simp only [Bool.false_eq_true, ↓reduceIte, show (";" : String).isEmpty = false from rfl,
    show (";" : String).toList = [';'] from rfl, statements_join hparts]
  -- What is read statement by statement has the keys of the mapping, so no key comes twice.
  have hiff : ∀ fs, c.readStatements ss = .ok fs ↔ List.Forall₂ (Rereads c) style.entries fs :=
    fun fs => by rw [Coercer.readStatements_eq_ok_iff, forall₂_writes_iff hc h hwrites]
  have hnodup : ∀ fs, List.Forall₂ (Rereads c) style.entries fs → (fs.map Prod.fst).Nodup := by
    intro fs hfs
    rw [keys_of_rereads hfs]
    exact style.distinct
  cases hr : c.readStatements ss with
  | error e =>
    constructor
    · intro hx
      contradiction
    · intro hall
      rw [← hiff, hr] at hall
      contradiction
  | ok fs =>
    have hfs := (hiff fs).1 hr
    cases fs with
    | nil => exact absurd (List.forall₂_nil_right_iff.1 hfs) hne
    | cons f fs =>
      constructor
      · intro hx
        obtain rfl : Table.ofList (f :: fs) = again := by simpa using hx
        rwa [Table.entries_ofList (hnodup _ hfs)]
      · intro hall
        obtain heq : f :: fs = again.entries := by simpa [hr] using (hiff again.entries).2 hall
        have hof : Table.ofList (f :: fs) = again :=
          Table.ext ((Table.entries_ofList (hnodup _ hfs)).trans heq)
        simp [hof]

end Styling
