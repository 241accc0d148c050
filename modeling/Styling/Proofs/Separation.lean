import Mathlib.Data.List.Basic
import Mathlib.Data.List.TakeWhile
import Styling.Text.Blank
import Styling.Text.Split
import Styling.Text.Word

/-!
# Separating and trimming

`pieces` at a single character is the inverse of `join` on parts that are free of the character
(`pieces_join`), and it takes apart a text written from two others at the separator between them
(`pieces_append`). `cutAt` at a single character finds its first occurrence and nothing else
(`cutAt_eq_some_iff`). A text is trimmed when it neither starts nor ends with a blank
(`trim_eq_self_iff`), and blanks around a text do not survive trimming (`trim_surrounded`).

A part (`IsPart`) is a trimmed text that is not empty and free of given marks: what stands between
the separators of a style.
-/

set_option autoImplicit false

namespace Styling.Text

/-! ## Pieces at a single character -/

theorem dropPrefix?_singleton (c a : Char) (s : List Char) :
    dropPrefix? [c] (a :: s) = if c = a then some s else none := by
  simp [dropPrefix?]

theorem pieces_nil (c : Char) : pieces [c] [] = [[]] := rfl

theorem pieces_cons_self (c : Char) (s : List Char) :
    pieces [c] (c :: s) = [] :: pieces [c] s := by
  simp [pieces, piecesFrom, dropPrefix?_singleton]

theorem pieces_cons_of_ne {c a : Char} (h : a ≠ c) (s : List Char) :
    pieces [c] (a :: s) = consHead a (pieces [c] s) := by
  simp [pieces, piecesFrom, dropPrefix?_singleton, Ne.symm h]

theorem pieces_ne_nil (sep s : List Char) : pieces sep s ≠ [] := piecesFrom_ne_nil sep 0 s

theorem consHead_append {ps : List (List Char)} (h : ps ≠ []) (c : Char) (qs : List (List Char)) :
    consHead c (ps ++ qs) = consHead c ps ++ qs := by
  cases ps with
  | nil => contradiction
  | cons p ps => rfl

/-- Two texts with the separator between them have the pieces of the first and then those of the
second. -/
theorem pieces_append (c : Char) (s t : List Char) :
    pieces [c] (s ++ c :: t) = pieces [c] s ++ pieces [c] t := by
  induction s with
  | nil => exact pieces_cons_self c t
  | cons a s ih =>
    by_cases ha : a = c
    · subst ha
      rw [List.cons_append, pieces_cons_self, pieces_cons_self, ih, List.cons_append]
    · rw [List.cons_append, pieces_cons_of_ne ha, pieces_cons_of_ne ha, ih]
      exact consHead_append (pieces_ne_nil [c] s) a _

theorem pieces_of_not_mem {c : Char} {s : List Char} (h : c ∉ s) : pieces [c] s = [s] := by
  induction s with
  | nil => rfl
  | cons a s ih =>
    have ha : c ≠ a := List.ne_of_not_mem_cons h
    have hs : c ∉ s := List.not_mem_of_not_mem_cons h
    rw [pieces_cons_of_ne (Ne.symm ha), ih hs, consHead]

/-- **Cutting at the separator takes a joined text apart into what it was joined from.** -/
theorem pieces_join {c : Char} {ps : List (List Char)} (hne : ps ≠ [])
    (hfree : ∀ p ∈ ps, c ∉ p) : pieces [c] (join [c] ps) = ps := by
  induction ps with
  | nil => contradiction
  | cons p ps ih =>
    have hp : pieces [c] p = [p] := pieces_of_not_mem (hfree p List.mem_cons_self)
    cases ps with
    | nil => exact hp
    | cons q qs =>
      have hrest := ih (List.cons_ne_nil q qs) fun r hr => hfree r (List.mem_cons_of_mem p hr)
      rw [join, List.append_assoc, List.singleton_append, pieces_append, hp, hrest]
      rfl

theorem mem_consHead {c a : Char} {p : List Char} {ps : List (List Char)} (hne : ps ≠ [])
    (hp : p ∈ consHead a ps) (hc : c ∈ p) : c = a ∨ ∃ q ∈ ps, c ∈ q := by
  cases ps with
  | nil => contradiction
  | cons q qs =>
    rcases List.mem_cons.1 hp with rfl | hp
    · rcases List.mem_cons.1 hc with rfl | hc
      · exact Or.inl rfl
      · exact Or.inr ⟨q, List.mem_cons_self, hc⟩
    · exact Or.inr ⟨p, List.mem_cons_of_mem q hp, hc⟩

/-- No piece holds the separator, and every character of a piece comes from the text. -/
theorem mem_of_mem_pieces {c d : Char} {s p : List Char} (hp : p ∈ pieces [c] s) (hd : d ∈ p) :
    d ∈ s ∧ d ≠ c := by
  induction s generalizing p with
  | nil =>
    rw [pieces_nil, List.mem_singleton] at hp
    subst hp
    contradiction
  | cons a s ih =>
    by_cases ha : a = c
    · subst ha
      rw [pieces_cons_self] at hp
      rcases List.mem_cons.1 hp with rfl | hp
      · contradiction
      · exact (ih hp hd).imp_left (List.mem_cons_of_mem a)
    · rw [pieces_cons_of_ne ha] at hp
      rcases mem_consHead (pieces_ne_nil [c] s) hp hd with rfl | ⟨q, hq, hdq⟩
      · exact ⟨List.mem_cons_self, ha⟩
      · exact (ih hq hdq).imp_left (List.mem_cons_of_mem a)

/-- A separator of two parts is its first part, and then the second in front of what follows. -/
theorem join_append_sep (sep gap p : List Char) (ps : List (List Char)) :
    join (sep ++ gap) (p :: ps) = join sep (p :: ps.map (gap ++ ·)) := by
  induction ps generalizing p with
  | nil => rfl
  | cons q qs ih =>
    have hgap : join sep ((gap ++ q) :: qs.map (gap ++ ·))
        = gap ++ join sep (q :: qs.map (gap ++ ·)) := by
      cases qs with
      | nil => rfl
      | cons r rs => simp [join, List.append_assoc]
    rw [List.map_cons, join, join, ih, hgap]
    simp [List.append_assoc]

theorem join_cons (sep p : List Char) (ps : List (List Char)) :
    join sep (p :: ps) = p ++ ps.flatMap (sep ++ ·) := by
  induction ps generalizing p with
  | nil => simp [join]
  | cons q qs ih => rw [join, ih, List.flatMap_cons, List.append_assoc, List.append_assoc]

theorem mem_join {sep : List Char} {c : Char} {ps : List (List Char)} (h : c ∈ join sep ps) :
    c ∈ sep ∨ ∃ p ∈ ps, c ∈ p := by
  induction ps with
  | nil => contradiction
  | cons p ps ih =>
    cases ps with
    | nil => exact Or.inr ⟨p, List.mem_cons_self, h⟩
    | cons q qs =>
      rw [join, List.mem_append, List.mem_append] at h
      rcases h with (h | h) | h
      · exact Or.inr ⟨p, List.mem_cons_self, h⟩
      · exact Or.inl h
      · rcases ih h with h | ⟨r, hr, hc⟩
        · exact Or.inl h
        · exact Or.inr ⟨r, List.mem_cons_of_mem p hr, hc⟩

/-! ## The first occurrence of a character -/

theorem cutAt_cons_self (c : Char) (s : List Char) : cutAt [c] (c :: s) = some ([], s) := by
  simp [cutAt, dropPrefix?_singleton]

theorem cutAt_cons_of_ne {c a : Char} (h : a ≠ c) (s : List Char) :
    cutAt [c] (a :: s) = (cutAt [c] s).map fun p => (a :: p.1, p.2) := by
  simp [cutAt, dropPrefix?_singleton, Ne.symm h]

theorem cutAt_append {c : Char} {before : List Char} (h : c ∉ before) (after : List Char) :
    cutAt [c] (before ++ c :: after) = some (before, after) := by
  induction before with
  | nil => exact cutAt_cons_self c after
  | cons a s ih =>
    have ha : c ≠ a := List.ne_of_not_mem_cons h
    have hs : c ∉ s := List.not_mem_of_not_mem_cons h
    rw [List.cons_append, cutAt_cons_of_ne (Ne.symm ha), ih hs, Option.map_some]

theorem not_mem_of_cutAt {c : Char} {s before after : List Char}
    (h : cutAt [c] s = some (before, after)) : c ∉ before := by
  induction s generalizing before with
  | nil => simp [cutAt] at h
  | cons a s ih =>
    by_cases ha : a = c
    · subst ha
      rw [cutAt_cons_self, Option.some.injEq, Prod.mk.injEq] at h
      obtain ⟨rfl, -⟩ := h
      exact List.not_mem_nil
    · rw [cutAt_cons_of_ne ha] at h
      obtain ⟨⟨b, r⟩, hb, he⟩ := Option.map_eq_some_iff.1 h
      obtain ⟨rfl, rfl⟩ := Prod.mk.inj he
      exact List.not_mem_cons_of_ne_of_not_mem (Ne.symm ha) (ih hb)

/-- The cut at a character is at its first occurrence. -/
theorem cutAt_eq_some_iff {c : Char} {s before after : List Char} :
    cutAt [c] s = some (before, after) ↔ c ∉ before ∧ s = before ++ c :: after := by
  constructor
  · intro h
    refine ⟨not_mem_of_cutAt h, ?_⟩
    rw [eq_of_cutAt h, List.append_assoc, List.singleton_append]
  · rintro ⟨h, rfl⟩
    exact cutAt_append h after

/-! ## Runs of characters -/

/-- A run of characters with a property ends where a character without it follows. -/
theorem span_append {p : Char → Bool} {s t : List Char} (hs : ∀ c ∈ s, p c = true)
    (ht : ∀ c ∈ t.head?, p c = false) :
    (s ++ t).takeWhile p = s ∧ (s ++ t).dropWhile p = t := by
  have htake : t.takeWhile p = [] := by
    cases t with
    | nil => rfl
    | cons c t => rw [List.takeWhile_cons, ht c rfl, if_neg (by simp)]
  have hdrop : t.dropWhile p = t := by
    cases t with
    | nil => rfl
    | cons c t => rw [List.dropWhile_cons, ht c rfl, if_neg (by simp)]
  rw [List.takeWhile_append_of_pos hs, List.dropWhile_append_of_pos hs, htake, hdrop]
  simp

/-! ## Trimming -/

theorem trimStart_eq_self_iff {s : List Char} :
    trimStart s = s ↔ ∀ c ∈ s.head?, isBlank c = false := by
  cases s with
  | nil => simp [trimStart]
  | cons a s =>
    constructor
    · intro h c hc
      obtain rfl : a = c := by simpa using hc
      exact trimStart_head h
    · intro h
      have ha : isBlank a = false := h a rfl
      simp [trimStart, ha]

theorem trimEnd_eq_reverse (s : List Char) : trimEnd s = (trimStart s.reverse).reverse := rfl

theorem trimStart_suffix (s : List Char) : trimStart s <:+ s := List.dropWhile_suffix isBlank

theorem trimEnd_initial (s : List Char) : trimEnd s <+: s := by
  obtain ⟨t, ht, -⟩ := trimEnd_append s
  exact ⟨t, ht.symm⟩

theorem mem_of_mem_trim {c : Char} {s : List Char} (h : c ∈ trim s) : c ∈ s :=
  (trimStart_suffix s).subset ((trimEnd_initial (trimStart s)).subset h)

theorem trimEnd_eq_self_iff {s : List Char} :
    trimEnd s = s ↔ ∀ c ∈ s.getLast?, isBlank c = false := by
  rw [trimEnd_eq_reverse, List.reverse_eq_iff, trimStart_eq_self_iff, List.head?_reverse]

/-- A text is trimmed when it neither starts nor ends with a blank. -/
theorem trim_eq_self_iff {s : List Char} :
    trim s = s ↔ (∀ c ∈ s.head?, isBlank c = false) ∧ ∀ c ∈ s.getLast?, isBlank c = false := by
  rw [← trimStart_eq_self_iff, ← trimEnd_eq_self_iff]
  constructor
  · intro h
    -- Neither step of trimming can have shortened the text.
    have hstart : trimStart s = s := by
      refine (trimStart_suffix s).eq_of_length_le ?_
      calc s.length = (trim s).length := by rw [h]
        _ ≤ (trimStart s).length := (trimEnd_initial (trimStart s)).length_le
    refine ⟨hstart, ?_⟩
    rw [trim, hstart] at h
    exact h
  · rintro ⟨hstart, hend⟩
    rw [trim, hstart, hend]

theorem trim_trim (s : List Char) : trim (trim s) = trim s := by
  rw [trim_eq_self_iff]
  constructor
  · intro c hc
    obtain ⟨r, hr⟩ := List.head?_eq_some_iff.1 hc
    exact trim_head hr
  · intro c hc
    obtain ⟨r, hr⟩ := List.getLast?_eq_some_iff.1 hc
    exact trim_last hr

theorem trimStart_append_blank {a : List Char} (h : isBlankText a = true) (s : List Char) :
    trimStart (a ++ s) = trimStart s := by
  induction a with
  | nil => rfl
  | cons c a ih =>
    obtain ⟨hc, ha⟩ : isBlank c = true ∧ isBlankText a = true := by
      simpa [isBlankText] using h
    rw [← ih ha]
    simp [trimStart, hc]

theorem isBlankText_reverse (s : List Char) : isBlankText s.reverse = isBlankText s :=
  List.all_reverse

theorem trimEnd_append_blank {b : List Char} (h : isBlankText b = true) (s : List Char) :
    trimEnd (s ++ b) = trimEnd s := by
  rw [trimEnd_eq_reverse, trimEnd_eq_reverse, List.reverse_append,
    trimStart_append_blank (by rw [isBlankText_reverse]; exact h)]

theorem trimStart_eq_nil_iff {s : List Char} : trimStart s = [] ↔ isBlankText s = true := by
  rw [trimStart, List.dropWhile_eq_nil_iff, isBlankText, List.all_eq_true]

/-- Trimming leaves nothing of a blank text, and only of a blank one. -/
theorem trim_eq_nil_iff {s : List Char} : trim s = [] ↔ isBlankText s = true := by
  rw [← trimStart_eq_nil_iff]
  constructor
  · intro h
    cases hs : trimStart s with
    | nil => rfl
    | cons c r =>
      -- The first character that is left is no blank, so trimming at the end stops before it.
      have hc : isBlank c = false := trimStart_head hs
      obtain ⟨t, ht, hblank⟩ := trimEnd_append (trimStart s)
      rw [show trimEnd (trimStart s) = [] from h, List.nil_append] at ht
      rw [← ht, hs] at hblank
      simp [isBlankText, hc] at hblank
  · intro h
    rw [trim, h]
    rfl

/-- Blanks around a text do not change what trimming gives. -/
theorem trim_surrounded {a b : List Char} (ha : isBlankText a = true) (hb : isBlankText b = true)
    (s : List Char) : trim (a ++ s ++ b) = trim s := by
  rw [trim, List.append_assoc, trimStart_append_blank ha]
  by_cases hs : trimStart s = []
  · -- A blank text stays blank with blanks after it.
    have hall : isBlankText (s ++ b) = true := by
      rw [isBlankText, List.all_append, Bool.and_eq_true]
      exact ⟨trimStart_eq_nil_iff.1 hs, hb⟩
    rw [trimStart_eq_nil_iff.2 hall, trim, hs]
  · have hdrop : trimStart (s ++ b) = trimStart s ++ b := by
      rw [trimStart, List.dropWhile_append, if_neg (by simpa [trimStart] using hs)]
      rfl
    rw [hdrop, trimEnd_append_blank hb]
    rfl

/-! ## Characters that are visible -/

/-- A character of the basic alphabet that is no blank and no control character. -/
def IsVisible (c : Char) : Prop := 0x21 ≤ c.toNat ∧ c.toNat ≤ 0x7e

theorem isBlank_of_isVisible {c : Char} (h : IsVisible c) : isBlank c = false := by
  obtain ⟨hlow, hhigh⟩ := h
  rw [isBlank, inRanges, List.any_eq_false]
  intro r hr
  simp only [blankRanges, List.mem_cons, List.not_mem_nil, or_false] at hr
  rw [Bool.and_eq_true, decide_eq_true_eq, decide_eq_true_eq]
  rcases hr with rfl | rfl | rfl | rfl | rfl | rfl | rfl | rfl | rfl | rfl <;> simp only <;> omega

theorem isVisible_of_range {low high c : Char} (hlow : 0x21 ≤ low.toNat) (hhigh : high.toNat ≤ 0x7e)
    (h : (low ≤ c && c ≤ high) = true) : IsVisible c := by
  rw [Bool.and_eq_true, decide_eq_true_eq, decide_eq_true_eq, Char.le_def, Char.le_def] at h
  have h1 : low.toNat ≤ c.toNat := UInt32.le_iff_toNat_le.1 h.1
  have h2 : c.toNat ≤ high.toNat := UInt32.le_iff_toNat_le.1 h.2
  exact ⟨by omega, by omega⟩

theorem isVisible_of_isBasicDigit {c : Char} (h : isBasicDigit c = true) : IsVisible c :=
  isVisible_of_range (by decide) (by decide) h

theorem isVisible_of_isHexDigit {c : Char} (h : isHexDigit c = true) : IsVisible c := by
  rw [isHexDigit, Bool.or_eq_true, Bool.or_eq_true] at h
  rcases h with (h | h) | h
  · exact isVisible_of_isBasicDigit h
  · exact isVisible_of_range (by decide) (by decide) h
  · exact isVisible_of_range (by decide) (by decide) h

theorem isVisible_of_isWordRest {c : Char} (h : isWordRest c = true) : IsVisible c := by
  rw [isWordRest, isWordStart, Bool.or_eq_true, Bool.or_eq_true, Bool.or_eq_true,
    decide_eq_true_eq] at h
  rcases h with ((h | h) | rfl) | h
  · exact isVisible_of_range (by decide) (by decide) h
  · exact isVisible_of_range (by decide) (by decide) h
  · exact ⟨by decide, by decide⟩
  · exact isVisible_of_isBasicDigit h

/-! ## Parts -/

/-- A trimmed text that is not empty and holds none of the marks. -/
structure IsPart (marks s : List Char) : Prop where
  trimmed : trim s = s
  nonempty : s ≠ []
  free : ∀ c ∈ s, c ∉ marks

instance (marks s : List Char) : Decidable (IsPart marks s) :=
  decidable_of_iff (trim s = s ∧ s ≠ [] ∧ s.all (!marks.contains ·) = true)
    ⟨fun ⟨h1, h2, h3⟩ => ⟨h1, h2, by simpa using h3⟩,
      fun ⟨h1, h2, h3⟩ => ⟨h1, h2, by simpa using h3⟩⟩

variable {marks : List Char}

/-- Two parts with anything free of the marks between them form a part. -/
theorem IsPart.append {s t : List Char} (hs : IsPart marks s) (ht : IsPart marks t)
    {m : List Char} (hm : ∀ c ∈ m, c ∉ marks) : IsPart marks (s ++ m ++ t) := by
  obtain ⟨hhead, -⟩ := trim_eq_self_iff.1 hs.trimmed
  obtain ⟨-, hlast⟩ := trim_eq_self_iff.1 ht.trimmed
  refine ⟨trim_eq_self_iff.2 ⟨?_, ?_⟩, ?_, ?_⟩
  · rwa [List.append_assoc, List.head?_append_of_ne_nil _ hs.nonempty]
  · rwa [List.getLast?_append_of_ne_nil _ ht.nonempty]
  · simp [hs.nonempty]
  · intro c hc
    rw [List.mem_append, List.mem_append] at hc
    rcases hc with (hc | hc) | hc
    · exact hs.free c hc
    · exact hm c hc
    · exact ht.free c hc

theorem isPart_join {sep : List Char} (hsep : ∀ c ∈ sep, c ∉ marks) {ps : List (List Char)}
    (hne : ps ≠ []) (hps : ∀ p ∈ ps, IsPart marks p) : IsPart marks (join sep ps) := by
  induction ps with
  | nil => contradiction
  | cons p ps ih =>
    have hp := hps p List.mem_cons_self
    cases ps with
    | nil => exact hp
    | cons q qs =>
      have hrest := ih (List.cons_ne_nil q qs) fun r hr => hps r (List.mem_cons_of_mem p hr)
      exact hp.append hrest hsep

/-- A text without blanks is trimmed. -/
theorem isPart_of_forall {s : List Char} (hne : s ≠ [])
    (h : ∀ c ∈ s, isBlank c = false ∧ c ∉ marks) : IsPart marks s := by
  refine ⟨trim_eq_self_iff.2 ⟨?_, ?_⟩, hne, fun c hc => (h c hc).2⟩
  · exact fun c hc => (h c (List.mem_of_mem_head? hc)).1
  · exact fun c hc => (h c (List.mem_of_mem_getLast? hc)).1

/-- A text of visible characters is a part, unless one of them is a mark. -/
theorem isPart_of_visible {s : List Char} (hne : s ≠ [])
    (h : ∀ c ∈ s, IsVisible c ∧ c ∉ marks) : IsPart marks s :=
  isPart_of_forall hne fun c hc => ⟨isBlank_of_isVisible (h c hc).1, (h c hc).2⟩

theorem IsPart.mono {few s : List Char} (h : IsPart marks s) (hsub : ∀ c ∈ few, c ∈ marks) :
    IsPart few s :=
  ⟨h.trimmed, h.nonempty, fun c hc hf => h.free c hc (hsub c hf)⟩

end Styling.Text
