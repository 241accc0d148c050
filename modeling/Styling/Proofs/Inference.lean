import Mathlib
import Styling.Proofs.Values

/-!
# Values read by their form

Numbers are read by their form alone, and so are the values of keys that ask for nothing. Of the
texts that look like integers only those with more digits than are read are refused (`IsOverlong`),
and nothing else of a literal is (`readLiteral_eq_error_iff`).

Whether a literal is a color is told from its characters, and what passes is read by the grammar of
colors. The two agree on trimmed texts that start like a color (`isHexColor_iff`), so such a literal
is the color that the grammar gives it, and the text itself where the grammar gives it none
(`readLiteral_outcome`).
-/

set_option autoImplicit false

namespace Styling

open Styling.Decimal Styling.Literal Styling.Text

/-! ## Integers with too many digits -/

theorem ofText?_eq_some_iff {s : List Char} {i : Integer} :
    Integer.ofText? s = some i ↔
      (IsSign i.sign ∧ i.digits ≠ [] ∧ ∀ c ∈ i.digits, isDigit c = true) ∧
        s = i.sign.toList ++ i.digits := by
  rw [Integer.ofText?]
  constructor
  · intro h
    simp only [Option.ite_none_right_eq_some, Bool.and_eq_true, Bool.not_eq_true',
      List.isEmpty_eq_false_iff, List.all_eq_true, Option.some.injEq] at h
    obtain ⟨⟨hne, hall⟩, rfl⟩ := h
    exact ⟨⟨isSign_splitSign s, hne, hall⟩, eq_of_splitSign s⟩
  · rintro ⟨⟨hsign, hne, hall⟩, rfl⟩
    have hhead := digits_head (t := []) isDigitClass_isDigit hne hall
    rw [List.append_nil] at hhead
    simp [splitSign_append hsign hhead, hne, List.all_eq_true.2 hall]

/-- An integer of so many digits, which are more than are read. -/
def IsOverlong (s : List Char) (digits : Nat) : Prop :=
  ∃ i, Integer.ofText? s = some i ∧ i.digits.length = digits ∧ digitLimit < digits

theorem isOverlong_iff {s : List Char} {n : Nat} :
    IsOverlong s n ↔
      ∃ sign digits, (IsSign sign ∧ ∀ c ∈ digits, isDigit c = true) ∧
        s = sign.toList ++ digits ∧ digits.length = n ∧ digitLimit < n := by
  constructor
  · rintro ⟨⟨sign, digits⟩, hi, hlen⟩
    obtain ⟨⟨hsign, -, hall⟩, hs⟩ := ofText?_eq_some_iff.1 hi
    exact ⟨sign, digits, ⟨hsign, hall⟩, hs, hlen⟩
  · rintro ⟨sign, digits, ⟨hsign, hall⟩, hs, rfl, hlimit⟩
    have hne : digits ≠ [] := by
      rintro rfl
      exact absurd hlimit (Nat.not_lt_zero _)
    exact ⟨⟨sign, digits⟩, ofText?_eq_some_iff.2 ⟨⟨hsign, hne, hall⟩, hs⟩, rfl, hlimit⟩

theorem numberOf?_error {s : List Char} {e : ReadError} (h : numberOf? s = some (.error e)) :
    ∃ n, e = .digits (.reading n) ∧ IsOverlong s n := by
  rw [numberOf?] at h
  cases hi : Integer.ofText? s with
  | none =>
    rw [hi] at h
    obtain ⟨n, -, hn⟩ := Option.map_eq_some_iff.1 h
    cases hn
  | some i =>
    by_cases hlen : i.digits.length ≤ digitLimit
    · simp [hi, Integer.read, hlen] at h
    · simp only [hi, Integer.read, hlen, if_false, Option.some.injEq, Except.error.injEq] at h
      exact ⟨i.digits.length, h.symm, i, hi, rfl, by omega⟩

theorem numberOf?_overlong {s : List Char} {n : Nat} (h : IsOverlong s n) :
    numberOf? s = some (.error (.digits (.reading n))) := by
  obtain ⟨i, hi, rfl, hlen⟩ := h
  simp only [numberOf?, hi, Integer.read, if_neg (Nat.not_le.2 hlen)]

theorem readNumber_error {key raw : String} {e : ReadError} (h : readNumber key raw = .error e) :
    (∃ fault, e = .badValue key raw fault) ∨
      ∃ n, e = .digits (.reading n) ∧ IsOverlong raw.toList n := by
  rw [readNumber] at h
  cases hn : numberOf? raw.toList with
  | none =>
    rw [hn] at h
    exact .inl ⟨.notNumber, (Except.error.inj h).symm⟩
  | some r =>
    rw [hn, Option.getD_some] at h
    exact .inr (numberOf?_error (hn.trans (congrArg some h)))

/-- A text that is read as an integer, of whatever length, is none of the words and no reference. -/
theorem IsOverlong.ne {s : List Char} {n : Nat} (h : IsOverlong s n) :
    s.head? ≠ some '$' ∧ s ∉ ["null".toList, "true".toList, "false".toList] := by
  obtain ⟨i, hi, -⟩ := h
  constructor
  · intro hs
    obtain ⟨r, rfl⟩ := List.head?_eq_some_iff.1 hs
    simp [Integer.ofText?, splitSign, isDigit, digitValue?] at hi
  · intro hs
    simp only [List.mem_cons, List.not_mem_nil, or_false] at hs
    have hnone : Integer.ofText? s = none := by
      rcases hs with rfl | rfl | rfl <;> decide
    rw [hnone] at hi
    cases hi

/-! ## Literals that start like a color -/

theorem isBlank_of_isGap {c : Char} (h : isGap c = true) : isBlank c = true := by
  simp only [isGap, Bool.or_eq_true, decide_eq_true_eq] at h
  rcases h with (((rfl | rfl) | rfl) | rfl) | rfl <;> decide

/-- There are no gaps around the only part of a trimmed text. -/
theorem eq_of_gapped {part s : List Char} (h : Gapped [part] s) (htrim : trim s = s) :
    s = part := by
  obtain ⟨hhead, hlast⟩ := trim_eq_self_iff.1 htrim
  cases h with
  | @part gap _ rest _ hgap h =>
    cases h with
    | done hrest =>
      have hgap_nil : gap = [] := by
        cases gap with
        | nil => rfl
        | cons c gap =>
          have hblank := isBlank_of_isGap (hgap c List.mem_cons_self)
          rw [hhead c rfl] at hblank
          contradiction
      have hrest_nil : rest = [] := by
        rcases List.eq_nil_or_concat rest with hnil | ⟨front, c, rfl⟩
        · exact hnil
        · have hblank := isBlank_of_isGap (hrest c (by simp))
          rw [hlast c (by simp)] at hblank
          contradiction
      rw [hgap_nil, hrest_nil, List.nil_append, List.append_nil]

/-- **The form of hexadecimal colors and the grammar agree** on trimmed texts that start like a
color. -/
theorem isHexColor_iff {s : List Char} (hhead : s.head? = some '#') (htrim : trim s = s) :
    isHexColor s = true ↔ ∃ c, color s = .ok c := by
  refine ⟨exists_color_of_isHexColor, ?_⟩
  rintro ⟨c, h⟩
  obtain ⟨ls, hls, hc⟩ := (bind_readTokens_eq_ok_iff colorOf_unplaced).1 h
  obtain ⟨k, text, row, ⟨hstart, hrow⟩, hs, rfl⟩ := lexes_color_iff.1 hls
  have hgap : ∀ c, isGap c = true → c ≠ '#' := by
    rintro c hc rfl
    contradiction
  -- Neither a gap nor one of the words starts like a color.
  have hword : ∀ w : List Char, ∀ t ∈ some ('r' :: w), t ≠ [] ∧ ∀ c ∈ t.head?, c ≠ '#' := by
    intro w t ht
    obtain rfl := Option.some.inj ht
    refine ⟨List.cons_ne_nil _ _, ?_⟩
    rintro c hc rfl
    exact absurd (Option.some.inj hc) (by decide)
  cases hstart with
  | hex hne hall =>
    cases hrow
    exact isHexColor_eq_true_iff.2 ⟨_, eq_of_gapped hs htrim, hall, c, hc⟩
  | rgb => exact absurd rfl (hs.head hgap (hword "gb".toList) '#' hhead)
  | rgba => exact absurd rfl (hs.head hgap (hword "gba".toList) '#' hhead)

/-! ## Literals -/

/-- **What is refused of literals.** A literal is refused exactly if it is an integer with more
digits than are read. -/
theorem readLiteral_eq_error_iff {key raw : String} {e : ReadError} :
    readLiteral key raw = .error e ↔ ∃ n, e = .digits (.reading n) ∧ IsOverlong raw.toList n := by
  constructor
  · intro h
    rw [readLiteral] at h
    split at h
    · cases h
    split at h
    · cases h
    cases hn : numberOf? raw.toList with
    | some r =>
      rw [hn] at h
      exact numberOf?_error (hn.trans (congrArg some h))
    | none =>
      simp only [hn] at h
      split at h
      · next hhex =>
        obtain ⟨c, hc⟩ := exists_color_of_isHexColor hhex
        rw [readColor, structured, hc] at h
        cases h
      · cases h
  · rintro ⟨n, rfl, hlong⟩
    obtain ⟨-, hword⟩ := hlong.ne
    simp only [List.mem_cons, List.not_mem_nil, or_false, not_or] at hword
    have htrue : raw ≠ "true" := fun ht => hword.2.1 (congrArg String.toList ht)
    have hfalse : raw ≠ "false" := fun hf => hword.2.2 (congrArg String.toList hf)
    rw [readLiteral, if_neg htrue, if_neg hfalse, numberOf?_overlong hlong]

/-- What starts like a hexadecimal color is one or is a text. -/
theorem readLiteral_of_hash {key raw : String} (hhead : raw.toList.head? = some '#') :
    readLiteral key raw
      = if isHexColor raw.toList then readColor key raw else .ok (.text raw) := by
  have hne : ∀ word : String, word.toList.head? ≠ some '#' → raw ≠ word := by
    rintro word hword rfl
    exact hword hhead
  obtain ⟨s, hs⟩ := List.head?_eq_some_iff.1 hhead
  have hnumber : numberOf? raw.toList = none := by rw [hs, numberOf?_hash]
  rw [readLiteral, if_neg (hne "true" (by decide)), if_neg (hne "false" (by decide)), hnumber]

/-- **What becomes of a literal.** It is never refused as a malformed value, and it is refused at
all exactly if it is made of a sign, if there is one, and more digits than are read. A trimmed
literal that starts like a hexadecimal color is the color that is read from it, and if none is it is
a text. -/
theorem readLiteral_outcome (key raw : String) :
    (∀ key' raw' fault, readLiteral key raw ≠ .error (.badValue key' raw' fault)) ∧
    (∀ e, readLiteral key raw = .error e ↔
      ∃ sign digits, (IsSign sign ∧ ∀ c ∈ digits, isDigit c = true) ∧
        raw.toList = sign.toList ++ digits ∧ digitLimit < digits.length ∧
        e = .digits (.reading digits.length)) ∧
    (raw.toList.head? = some '#' → trim raw.toList = raw.toList →
      (∀ c, readLiteral key raw = .ok (.color c) ↔ readColor key raw = .ok (.color c)) ∧
      ∀ e, readColor key raw = .error e → readLiteral key raw = .ok (.text raw)) := by
  refine ⟨fun key' raw' fault h => ?_, fun e => ?_, fun hhead htrim => ?_⟩
  · obtain ⟨n, he, -⟩ := readLiteral_eq_error_iff.1 h
    cases he
  · simp only [readLiteral_eq_error_iff, isOverlong_iff]
    constructor
    · rintro ⟨_, rfl, sign, digits, hdigits, hs, rfl, hlimit⟩
      exact ⟨sign, digits, hdigits, hs, hlimit, rfl⟩
    · rintro ⟨sign, digits, hdigits, hs, hlimit, rfl⟩
      exact ⟨_, rfl, sign, digits, hdigits, hs, rfl, hlimit⟩
  · rw [readLiteral_of_hash hhead]
    cases hhex : isHexColor raw.toList with
    | true =>
      obtain ⟨c, hc⟩ := exists_color_of_isHexColor hhex
      refine ⟨fun _ => .rfl, fun e he => ?_⟩
      rw [readColor, structured, hc] at he
      cases he
    | false =>
      refine ⟨fun c => ⟨fun h => ?_, fun h => ?_⟩, fun _ _ => rfl⟩
      · cases h
      -- Where the grammar reads a color, the form is that of one.
      have hcolor : ∃ c, color raw.toList = .ok c := by
        rw [readColor, structured] at h
        cases hr : color raw.toList with
        | ok c => exact ⟨c, rfl⟩
        | error fault =>
          rw [hr] at h
          cases h
      rw [(isHexColor_iff hhead htrim).2 hcolor] at hhex
      contradiction

/-- Three digits are a color, five are a text. -/
theorem readLiteral_outcome_hash :
    readLiteral "on" "#1aF" = .ok (.color ⟨0x11, 0xaa, 0xff, 0xff⟩) ∧
      readLiteral "on" "#12345" = .ok (.text "#12345") := by
  constructor
  · obtain ⟨hcolor, -⟩ := (readLiteral_outcome "on" "#1aF").2.2 (by decide) (by decide)
    exact (hcolor _).2 (by cbv)
  · obtain ⟨-, htext⟩ := (readLiteral_outcome "on" "#12345").2.2 (by decide) (by decide)
    exact htext (.badValue "on" "#12345" (.literal (.hexCount 5))) (by cbv)

end Styling
