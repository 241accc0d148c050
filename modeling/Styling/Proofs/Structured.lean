import Styling.Converter
import Styling.Proofs.Lexing
import Styling.Value.Format

/-!
# Texts of integers and colors

Steps of the reader that do not depend on the kind of literal: where one kind of token can come
(`nextToken?_singleton`), and where a run of characters ends (`run?_append_of`). For the texts that
the formatter gives to integers and colors it is shown what they are made of: a sign and digits
(`intText_eq`), and the digits that the color is made from (`hexColor_hexText`). An integer that was
read has such a text (`Integer.isWritable_of_read`).
-/

set_option autoImplicit false

namespace Styling.Literal

open Styling.Decimal Styling.Text

theorem isGap_of_isVisible {c : Char} (h : IsVisible c) : isGap c = false := by
  obtain ⟨hlow, -⟩ := h
  have hne : ∀ d : Char, d.toNat < 0x21 → c ≠ d := by
    rintro d hd rfl
    omega
  simp [isGap, hne ' ' (by decide), hne '\t' (by decide), hne '\x0c' (by decide),
    hne '\r' (by decide), hne '\n' (by decide)]

/-- Where one kind of token can come, it is the next one if the text has it. -/
theorem nextToken?_singleton {k : TokenKind} (hk : k ≠ .word) (s : List Char) :
    nextToken? [k] s = (k.lexeme? s).map fun p => (k, p.1, p.2) := by
  have htried : tried [k] = [k] := by cases k <;> rfl
  rw [nextToken?, htried, List.findSome?_cons]
  simp only [hk, ↓reduceIte, List.findSome?_nil]
  cases k.lexeme? s <;> rfl

theorem run?_append_of {p : Char → Bool} {s t : List Char} (hne : s ≠ [])
    (hs : ∀ c ∈ s, p c = true) (ht : ∀ c ∈ t.head?, p c = false) :
    run? p (s ++ t) = some (s, t) := by
  obtain ⟨htake, hdrop⟩ := span_append hs ht
  rw [run?, htake, hdrop, if_neg (by simpa using hne)]

/-! ## Integers -/

/-- A minus sign for negative numbers. -/
def signOf (n : Int) : Option Char := if n < 0 then some '-' else none

theorem isSign_signOf (n : Int) : IsSign (signOf n) := by
  rw [signOf]
  split
  · exact Or.inr (Or.inl rfl)
  · exact Or.inl rfl

theorem intText_eq (n : Int) : intText n = (signOf n).toList ++ natText n.natAbs := by
  cases n with
  | ofNat m =>
    have hnone : signOf (Int.ofNat m) = none := if_neg (by simp)
    rw [hnone]
    rfl
  | negSucc m =>
    have hminus : signOf (Int.negSucc m) = some '-' := if_pos (Int.negSucc_lt_zero m)
    rw [hminus]
    rfl

theorem mem_intText {n : Int} {c : Char} (h : c ∈ intText n) :
    isBasicDigit c = true ∨ c = '-' := by
  rw [intText_eq, List.mem_append] at h
  rcases h with h | h
  · rw [signOf] at h
    split at h
    · exact Or.inr (List.mem_singleton.1 h)
    · contradiction
  · exact Or.inl (natText_basic h)

theorem intText_ne_nil (n : Int) : intText n ≠ [] := by
  rw [intText_eq]
  simp [natText_ne_nil]

theorem isVisible_intText {n : Int} {c : Char} (h : c ∈ intText n) : IsVisible c := by
  rcases mem_intText h with h | rfl
  · exact isVisible_of_isBasicDigit h
  · exact ⟨by decide, by decide⟩

/-- An integer that was read is within the limit. -/
theorem Integer.isWritable_of_read {i : Integer} {n : Int} (h : i.read = .ok n) :
    isWritable n = true := by
  rw [Integer.read] at h
  split at h
  · next hlen =>
    obtain rfl := Except.ok.inj h
    have hlt : digitsValue i.digits < 10 ^ digitLimit :=
      Nat.lt_of_lt_of_le (digitsValue_lt i.digits) (Nat.pow_le_pow_right (by decide) hlen)
    have habs : i.value.natAbs = digitsValue i.digits := by
      rw [Integer.value]
      split <;> omega
    rw [isWritable, habs, decide_eq_true_eq]
    exact hlt
  · contradiction

/-- Two steps give a result only if the first one does. -/
theorem exists_ok_of_bind {ε α β : Type} {x : Except ε α} {f : α → Except ε β} {b : β}
    (h : x >>= f = .ok b) : ∃ a, x = .ok a ∧ f a = .ok b := by
  cases x with
  | error e => contradiction
  | ok a => exact ⟨a, rfl, h⟩

theorem formatInts_ok {ns : List Int} (h : ∀ n ∈ ns, isWritable n = true) :
    formatInts ns = .ok (join [','] (ns.map intText)) := by
  have hmap : ns.mapM writeInt = .ok (ns.map intText) := by
    induction ns with
    | nil => rfl
    | cons n ns ih =>
      rw [List.mapM_cons, writeInt, if_pos (h n List.mem_cons_self),
        ih fun m hm => h m (List.mem_cons_of_mem n hm)]
      rfl
  rw [formatInts, hmap]

/-! ## Colors -/

theorem hexPair_eq (n : Fin 256) :
    hexPair n = [hexDigit (n.val / 16), hexDigit (n.val % 16)] := by
  have hlt : n.val / 16 < 16 := by omega
  rw [hexPair, hexDigits, hexDigits, hexDigits, Nat.mod_eq_of_lt hlt]
  rfl

theorem hexPair_hexDigits (n : Fin 256) : ∀ c ∈ hexPair n, isHexDigit c = true := by
  intro c hc
  rw [hexPair_eq, List.mem_cons, List.mem_singleton] at hc
  rcases hc with rfl | rfl
  · exact isHexDigit_hexDigit (by omega)
  · exact isHexDigit_hexDigit (by omega)

/-- The two digits of a channel are read as that channel. -/
theorem hexChannel_hexDigit (n : Fin 256) :
    hexChannel (hexDigit (n.val / 16)) (hexDigit (n.val % 16)) = n := by
  rw [hexChannel, hexValue_hexDigit (by omega), hexValue_hexDigit (by omega), Nat.div_add_mod]
  exact Fin.ofNat_val_eq_self n

/-- The digits of a color. -/
def hexText (c : Color) : List Char :=
  hexPair c.red ++ hexPair c.green ++ hexPair c.blue
    ++ (if c.alpha.val = 255 then [] else hexPair c.alpha)

theorem hex_eq (c : Color) : c.hex = '#' :: hexText c := by
  simp [Color.hex, hexText, List.append_assoc]

theorem hexText_hexDigits (c : Color) : ∀ d ∈ hexText c, isHexDigit d = true := by
  intro d hd
  rw [hexText, List.mem_append, List.mem_append, List.mem_append] at hd
  rcases hd with ((hd | hd) | hd) | hd
  · exact hexPair_hexDigits c.red d hd
  · exact hexPair_hexDigits c.green d hd
  · exact hexPair_hexDigits c.blue d hd
  · split at hd
    · contradiction
    · exact hexPair_hexDigits c.alpha d hd

theorem hexColor_hexText (c : Color) : hexColor (hexText c) = .ok c := by
  rw [hexText, hexPair_eq, hexPair_eq, hexPair_eq, hexPair_eq]
  split
  · next ha =>
    have hopaque : (255 : Fin 256) = c.alpha := Fin.ext ha.symm
    show Except.ok (Color.mk _ _ _ _) = _
    rw [hexChannel_hexDigit, hexChannel_hexDigit, hexChannel_hexDigit, hopaque]
  · show Except.ok (Color.mk _ _ _ _) = _
    rw [hexChannel_hexDigit, hexChannel_hexDigit, hexChannel_hexDigit, hexChannel_hexDigit]

end Styling.Literal
