import Styling.Proofs.Structured

/-!
# Rows of tokens

Numbers with commas between them, with or without brackets around them, are rows of tokens: the
kinds of the tokens are known beforehand, one after the other. No two numbers stand side by side in
a row, so where one token ends does not depend on gaps, and gaps can stand before all tokens and at
the end, or be missing (`Gapped`).

A text has the lexemes of a row exactly if it is made of the texts of such tokens
(`lexes_row_iff`). For numbers with commas between them this means that the numbers can be any texts
of their kind (`lexes_numbers_iff`).

What is proved in this way of a literal is carried over to its converter (`ReadsExactly`): it reads
the texts that write a value, and reports all others.
-/

set_option autoImplicit false

namespace Styling.Literal

open Styling.Decimal Styling.Text

/-! ## Gaps -/

/-- A text is made of some parts, with gaps before them and at the end. -/
inductive Gapped : List (List Char) → List Char → Prop where
  | done {gap : List Char} (hgap : ∀ c ∈ gap, isGap c = true) : Gapped [] gap
  | part {gap part rest : List Char} {parts : List (List Char)}
      (hgap : ∀ c ∈ gap, isGap c = true) (h : Gapped parts rest) :
      Gapped (part :: parts) (gap ++ (part ++ rest))

theorem Lexes.gapped {place : Place} {s : List Char} {ls : List Lexeme} (h : Lexes place s ls) :
    Gapped (ls.map Prod.snd) s := by
  induction h with
  | done _ hgap => exact .done hgap
  | token hgap _ ht _ ih =>
    rw [(nextToken?_append ht).1]
    exact .part hgap ih

/-- There need not be gaps. -/
theorem gapped_flatten (parts : List (List Char)) : Gapped parts parts.flatten := by
  induction parts with
  | nil => exact .done (List.forall_mem_nil _)
  | cons part parts ih => exact .part (List.forall_mem_nil _) ih

/-- What holds of gaps and of the first character of the first part holds of the first character of
the text. -/
theorem Gapped.head {parts : List (List Char)} {s : List Char} (h : Gapped parts s)
    {p : Char → Prop} (hgap : ∀ c, isGap c = true → p c)
    (hpart : ∀ t ∈ parts.head?, t ≠ [] ∧ ∀ c ∈ t.head?, p c) : ∀ c ∈ s.head?, p c := by
  cases h with
  | done hall => exact fun c hc => hgap c (hall c (List.mem_of_mem_head? hc))
  | @part gap part rest parts hall _ =>
    obtain ⟨hne, hhead⟩ := hpart part rfl
    intro c hc
    cases gap with
    | nil =>
      rw [List.nil_append, List.head?_append_of_ne_nil _ hne] at hc
      exact hhead c hc
    | cons d gap =>
      obtain rfl : d = c := Option.some.inj hc
      exact hgap d (hall d List.mem_cons_self)

/-! ## Lexemes and what follows them -/

theorem run?_eq_some_iff {p : Char → Bool} {s l r : List Char} :
    run? p s = some (l, r) ↔
      (l ≠ [] ∧ ∀ c ∈ l, p c = true) ∧ s = l ++ r ∧ ∀ c ∈ r.head?, p c = false := by
  constructor
  · intro h
    obtain ⟨hs, hne⟩ := run?_append h
    rw [run?] at h
    split at h
    · contradiction
    · obtain ⟨rfl, rfl⟩ : s.takeWhile p = l ∧ s.dropWhile p = r := by simpa using h
      refine ⟨⟨hne, fun c hc => List.mem_takeWhile_imp hc⟩, hs, fun c hc => ?_⟩
      have hhead := List.head?_dropWhile_not p s
      rw [Option.mem_def.1 hc] at hhead
      simpa using hhead
  · rintro ⟨⟨hne, hl⟩, rfl, hr⟩
    exact run?_append_of hne hl hr

theorem fixed?_eq_some_iff {w s l r : List Char} :
    fixed? w s = some (l, r) ↔ l = w ∧ s = l ++ r := by
  constructor
  · intro h
    exact (fixed?_append h).symm
  · rintro ⟨rfl, rfl⟩
    rw [fixed?, dropPrefix?_eq_some_iff.2 rfl]
    rfl

/-- Digits of the basic alphabet, at least one. -/
def IsDigits (s : List Char) : Prop := s ≠ [] ∧ ∀ c ∈ s, isBasicDigit c = true

theorem integer?_eq_some_iff {s l r : List Char} :
    integer? s = some (l, r) ↔
      (∃ sign digits, IsSign sign ∧ IsDigits digits ∧ l = sign.toList ++ digits) ∧
        s = l ++ r ∧ ∀ c ∈ r.head?, isBasicDigit c = false := by
  constructor
  · intro h
    obtain ⟨hs, -⟩ := integer?_append h
    obtain ⟨⟨digits, rest⟩, hrun, he⟩ := Option.map_eq_some_iff.1 h
    obtain ⟨rfl, rfl⟩ := Prod.mk.inj he
    obtain ⟨hdigits, -, hr⟩ := run?_eq_some_iff.1 hrun
    exact ⟨⟨_, digits, isSign_splitSign s, hdigits, rfl⟩, hs, hr⟩
  · rintro ⟨⟨sign, digits, hsign, hdigits, rfl⟩, rfl, hr⟩
    have hsplit : splitSign (sign.toList ++ (digits ++ r)) = (sign, digits ++ r) :=
      splitSign_append hsign (digits_head isDigitClass_isBasicDigit hdigits.1 hdigits.2)
    rw [List.append_assoc, integer?, hsplit, run?_eq_some_iff.2 ⟨hdigits, rfl, hr⟩]
    rfl

/-! ## Rows -/

/-- The texts of the tokens in a row. -/
inductive RowText : TokenKind → List Char → Prop where
  | integer {sign : Option Char} {digits : List Char} (hs : IsSign sign) (hd : IsDigits digits) :
      RowText .integer (sign.toList ++ digits)
  | digits {s : List Char} (h : IsDigits s) : RowText .digits s
  | comma : RowText .comma [',']
  | opening : RowText .opening ['(']
  | closing : RowText .closing [')']

/-- Numbers end where no digit follows. -/
def isNumberKind (k : TokenKind) : Bool := k = .integer || k = .digits

/-- The kinds of the tokens in a row. -/
def rowKinds : List TokenKind := [.integer, .digits, .comma, .opening, .closing]

variable {k : TokenKind} {text rest s : List Char}

theorem RowText.ne_nil (h : RowText k text) : text ≠ [] := by
  cases h with
  | integer _ hd => exact List.append_ne_nil_of_right_ne_nil _ hd.1
  | digits h => exact h.1
  | comma | opening | closing => exact List.cons_ne_nil _ _

theorem isVisible_of_isSign {sign : Option Char} (h : IsSign sign) : ∀ c ∈ sign, IsVisible c := by
  intro c hc
  rcases h with rfl | rfl | rfl
  · contradiction
  · obtain rfl : '-' = c := Option.some.inj hc
    exact ⟨by decide, by decide⟩
  · obtain rfl : '+' = c := Option.some.inj hc
    exact ⟨by decide, by decide⟩

theorem RowText.isVisible (h : RowText k text) : ∀ c ∈ text, IsVisible c := by
  intro c hc
  cases h with
  | integer hs hd =>
    rcases List.mem_append.1 hc with hc | hc
    · exact isVisible_of_isSign hs c (Option.mem_toList.1 hc)
    · exact isVisible_of_isBasicDigit (hd.2 c hc)
  | digits h => exact isVisible_of_isBasicDigit (h.2 c hc)
  | comma | opening | closing =>
    rw [List.mem_singleton.1 hc]
    exact ⟨by decide, by decide⟩

/-- A token of a row that is no number does not start with a digit. -/
theorem RowText.head (h : RowText k text) (hk : isNumberKind k = false) :
    ∀ c ∈ text.head?, isBasicDigit c = false := by
  intro c hc
  cases h with
  | integer | digits => contradiction
  | comma | opening | closing =>
    rw [← Option.some.inj hc]
    decide

theorem RowText.lexeme? (h : RowText k text)
    (hr : isNumberKind k = true → ∀ c ∈ rest.head?, isBasicDigit c = false) :
    k.lexeme? (text ++ rest) = some (text, rest) := by
  cases h with
  | integer hs hd => exact integer?_eq_some_iff.2 ⟨⟨_, _, hs, hd, rfl⟩, rfl, hr rfl⟩
  | digits h => exact run?_eq_some_iff.2 ⟨h, rfl, hr rfl⟩
  | comma | opening | closing => exact fixed?_eq_some_iff.2 ⟨rfl, rfl⟩

theorem rowText_of_lexeme? (hk : k ∈ rowKinds) (h : k.lexeme? s = some (text, rest)) :
    RowText k text := by
  simp only [rowKinds, List.mem_cons, List.not_mem_nil, or_false] at hk
  rcases hk with rfl | rfl | rfl | rfl | rfl
  · obtain ⟨⟨sign, digits, hs, hd, rfl⟩, -⟩ := integer?_eq_some_iff.1 h
    exact .integer hs hd
  · exact .digits (run?_eq_some_iff.1 h).1
  · rw [(fixed?_eq_some_iff.1 h).1]
    exact .comma
  · rw [(fixed?_eq_some_iff.1 h).1]
    exact .opening
  · rw [(fixed?_eq_some_iff.1 h).1]
    exact .closing

/-- Lexemes of some kinds, in their order, with texts that tokens of a row can have. -/
abbrev AreRow (kinds : List TokenKind) (ls : List Lexeme) : Prop :=
  List.Forall₂ (fun k l => l.1 = k ∧ RowText k l.2) kinds ls

/-- Kinds of tokens that can stand in a row: no two numbers come side by side. -/
def IsRowOfKinds (kinds : List TokenKind) : Prop :=
  (∀ k ∈ kinds, k ∈ rowKinds) ∧
    kinds.IsChain fun a b => (isNumberKind a && isNumberKind b) = false

instance (kinds : List TokenKind) : Decidable (IsRowOfKinds kinds) :=
  inferInstanceAs (Decidable (_ ∧ _))

theorem areRow_of_lexes {kinds : List TokenKind} (hk : ∀ k ∈ kinds, k ∈ rowKinds)
    {ls : List Lexeme} (h : Lexes (.sequence kinds) s ls) : AreRow kinds ls := by
  induction kinds generalizing s ls with
  | nil =>
    cases h with
    | done => exact .nil
    | token _ _ ht _ => cases ht
  | cons k kinds ih =>
    cases h with
    | done hend _ => cases hend
    | token _ _ ht h =>
      have hword : k ≠ .word := by
        rintro rfl
        exact absurd (hk .word List.mem_cons_self) (by decide)
      rw [Place.admits, nextToken?_singleton hword] at ht
      obtain ⟨⟨text, rest⟩, hlexeme, he⟩ := Option.map_eq_some_iff.1 ht
      simp only [Prod.mk.injEq] at he
      obtain ⟨rfl, rfl, rfl⟩ := he
      refine .cons ⟨rfl, rowText_of_lexeme? (hk k List.mem_cons_self) hlexeme⟩ ?_
      exact ih (fun k hk' => hk k (List.mem_cons_of_mem _ hk')) h

theorem AreRow.lexes {kinds : List TokenKind} (hchain : IsRowOfKinds kinds) {ls : List Lexeme}
    (h : AreRow kinds ls) (hs : Gapped (ls.map Prod.snd) s) : Lexes (.sequence kinds) s ls := by
  induction h generalizing s with
  | nil =>
    cases hs with
    | done hgap => exact .done rfl hgap
  | @cons k l kinds ls hl hrest ih =>
    obtain ⟨kind, text⟩ := l
    obtain ⟨rfl, htext⟩ := hl
    cases hs with
    | @part gap _ rest _ hgap hs =>
      obtain ⟨hmem, hchain⟩ := hchain
      have hword : kind ≠ .word := by
        rintro rfl
        exact absurd (hmem .word List.mem_cons_self) (by decide)
      -- What follows a number is a gap or a token that is no number.
      have hend : isNumberKind kind = true → ∀ c ∈ rest.head?, isBasicDigit c = false := by
        intro hnumber
        refine hs.head (fun c hc => ?_) fun t ht => ?_
        · rw [← Bool.not_eq_true]
          intro hdigit
          rw [isGap_of_isVisible (isVisible_of_isBasicDigit hdigit)] at hc
          contradiction
        · cases hrest with
          | nil => cases ht
          | @cons k' l' kinds' ls' hl' _ =>
            obtain rfl : l'.2 = t := Option.some.inj ht
            have hpair := (List.isChain_cons_cons.1 hchain).1
            rw [hnumber, Bool.true_and] at hpair
            exact ⟨hl'.2.ne_nil, hl'.2.head hpair⟩
      have hstop : ∀ c ∈ (text ++ rest).head?, isGap c = false := by
        intro c hc
        rw [List.head?_append_of_ne_nil _ htext.ne_nil] at hc
        exact isGap_of_isVisible (htext.isVisible c (List.mem_of_mem_head? hc))
      refine .token hgap hstop ?_ (ih ⟨fun k hk => hmem k (List.mem_cons_of_mem _ hk), ?_⟩ hs)
      · rw [Place.admits, nextToken?_singleton hword, htext.lexeme? hend]
        rfl
      · exact List.IsChain.of_cons hchain

/-- **The lexemes of a row.** A text has some lexemes in a row exactly if they are of the kinds of
the row, one for one, and the text is made of their texts, whatever gaps there are. -/
theorem lexes_row_iff {kinds : List TokenKind} (hk : IsRowOfKinds kinds) {ls : List Lexeme} :
    Lexes (.sequence kinds) s ls ↔ AreRow kinds ls ∧ Gapped (ls.map Prod.snd) s :=
  ⟨fun h => ⟨areRow_of_lexes hk.1 h, h.gapped⟩, fun ⟨hrow, hs⟩ => hrow.lexes hk hs⟩

/-! ## Numbers with commas between them -/

/-- Texts with commas between them. -/
def commaSeparated (texts : List (List Char)) : List (List Char) := List.intersperse [','] texts

theorem join_eq_flatten (texts : List (List Char)) :
    join [','] texts = (commaSeparated texts).flatten := by
  match texts with
  | [] => rfl
  | [t] => exact (List.append_nil t).symm
  | t :: u :: texts =>
    have ih := join_eq_flatten (u :: texts)
    rw [join, ih, List.append_assoc]
    rfl

/-- The lexemes of numbers of a kind with commas between them. -/
def numberLexemes (k : TokenKind) (texts : List (List Char)) : List Lexeme :=
  List.intersperse (.comma, [',']) (texts.map (k, ·))

theorem map_numberLexemes (k : TokenKind) (texts : List (List Char)) :
    (numberLexemes k texts).map Prod.snd = commaSeparated texts := by
  match texts with
  | [] => rfl
  | [t] => rfl
  | t :: u :: texts =>
    have ih := map_numberLexemes k (u :: texts)
    rw [numberLexemes, List.map_cons] at ih ⊢
    rw [List.map_cons, List.intersperse_cons_cons, List.map_cons, List.map_cons, ih]
    rfl

theorem textsOf_numberLexemes {k : TokenKind} (hk : k ≠ .comma) (texts : List (List Char)) :
    textsOf k ((numberLexemes k texts).map unplaced) = texts := by
  match texts with
  | [] => rfl
  | [t] => simp [numberLexemes, textsOf, unplaced]
  | t :: u :: texts =>
    have ih := textsOf_numberLexemes hk (u :: texts)
    simp only [numberLexemes, textsOf, List.map_cons, List.intersperse_cons_cons, unplaced,
      List.filter_cons, decide_true, Ne.symm hk, decide_false, Bool.false_eq_true,
      ↓reduceIte] at ih ⊢
    rw [ih]

theorem listKinds_succ {n : Nat} (hn : n ≠ 0) (k : TokenKind) :
    listKinds k (n + 1) = k :: .comma :: listKinds k n := by
  cases n with
  | zero => contradiction
  | succ n => rfl

/-- Numbers with commas between them are a row. -/
theorem areRow_numberLexemes {k : TokenKind} {texts : List (List Char)}
    (h : ∀ t ∈ texts, RowText k t) :
    AreRow (listKinds k texts.length) (numberLexemes k texts) := by
  match texts with
  | [] => exact .nil
  | [t] => exact .cons ⟨rfl, h t List.mem_cons_self⟩ .nil
  | t :: u :: texts =>
    have hrest := areRow_numberLexemes fun v hv => h v (List.mem_cons_of_mem t hv)
    exact .cons ⟨rfl, h t List.mem_cons_self⟩ (.cons ⟨rfl, .comma⟩ hrest)

/-- A row of numbers with commas between them has no other lexemes. -/
theorem exists_numberLexemes {k : TokenKind} {n : Nat} {ls : List Lexeme}
    (h : AreRow (listKinds k n) ls) :
    ∃ texts : List (List Char),
      texts.length = n ∧ (∀ t ∈ texts, RowText k t) ∧ ls = numberLexemes k texts := by
  induction n using listKinds.induct generalizing ls with
  | case1 =>
    cases h
    exact ⟨[], rfl, List.forall_mem_nil _, rfl⟩
  | case2 =>
    cases h with
    | @cons _ l _ _ hl hrest =>
      cases hrest
      obtain ⟨kind, text⟩ := l
      obtain ⟨rfl, ht⟩ := hl
      exact ⟨[text], rfl, List.forall_mem_singleton.2 ht, rfl⟩
  | case3 n hn ih =>
    rw [listKinds_succ hn] at h
    cases h with
    | @cons _ l _ _ hl h =>
      cases h with
      | @cons _ m _ _ hm hrest =>
        obtain ⟨kind, text⟩ := l
        obtain ⟨rfl, ht⟩ := hl
        obtain ⟨kind, mark⟩ := m
        obtain ⟨rfl, hmark⟩ := hm
        cases hmark
        obtain ⟨texts, rfl, htexts, rfl⟩ := ih hrest
        refine ⟨text :: texts, rfl, List.forall_mem_cons.2 ⟨ht, htexts⟩, ?_⟩
        cases texts with
        | nil => exact absurd rfl hn
        | cons u texts => rfl

/-- The lexemes of numbers with commas between them are those of any such texts. -/
theorem lexes_numbers_iff {k : TokenKind} {n : Nat} (hk : IsRowOfKinds (listKinds k n))
    {ls : List Lexeme} :
    Lexes (.sequence (listKinds k n)) s ls ↔
      ∃ texts : List (List Char), (texts.length = n ∧ ∀ t ∈ texts, RowText k t) ∧
        Gapped (commaSeparated texts) s ∧ ls = numberLexemes k texts := by
  rw [lexes_row_iff hk]
  constructor
  · rintro ⟨hrow, hs⟩
    obtain ⟨texts, hlen, htexts, rfl⟩ := exists_numberLexemes hrow
    exact ⟨texts, ⟨hlen, htexts⟩, by rwa [map_numberLexemes] at hs, rfl⟩
  · rintro ⟨texts, ⟨rfl, htexts⟩, hs, rfl⟩
    exact ⟨areRow_numberLexemes htexts, by rwa [map_numberLexemes]⟩

/-! ## What is read of a row -/

/-- A literal has a value if its text has lexemes that write the value. -/
theorem bind_readTokens_eq_ok_iff {α : Type} {place : Place}
    {f : List Token → Except LiteralFault α}
    (hf : ∀ tokens, f tokens = f ((tokens.map Token.lexeme).map unplaced)) {a : α} :
    (readTokens place s >>= f) = .ok a ↔
      ∃ ls, Lexes place s ls ∧ f (ls.map unplaced) = .ok a := by
  constructor
  · intro h
    obtain ⟨tokens, hread, ha⟩ := exists_ok_of_bind h
    exact ⟨_, lexes_of_readTokens hread, (hf tokens).symm.trans ha⟩
  · rintro ⟨ls, hls, ha⟩
    obtain ⟨tokens, hread, rfl⟩ := readTokens_of_lexes hls
    rw [hread, ← ha, ← hf]
    rfl

/-- A number of a row has a value if it has no more digits than are read. -/
theorem integerOf_eq_ok_iff {sign : Option Char} (hs : IsSign sign) {digits : List Char}
    (hd : IsDigits digits) {n : Int} :
    integerOf (sign.toList ++ digits) = .ok n ↔
      digits.length ≤ digitLimit ∧ (Integer.mk sign digits).value = n := by
  have hhead := digits_head (t := []) isDigitClass_isBasicDigit hd.1 hd.2
  rw [List.append_nil] at hhead
  rw [integerOf, splitSign_append hs hhead, Integer.read]
  by_cases hlen : digits.length ≤ digitLimit
  · simp [hlen]
  · simp [hlen]

end Styling.Literal

/-! ## Converters -/

namespace Styling

/-- A converter reads the texts that write a value as that value. Every other text it refuses as a
malformed value, with the key and the text that it was given. -/
def ReadsExactly (read : Converter) (writes : String → Value → Prop) : Prop :=
  ∀ key raw, (∀ v, read key raw = .ok v ↔ writes raw v) ∧
    ((∃ fault, read key raw = .error (.badValue key raw fault)) ↔ ∀ v, ¬writes raw v)

theorem readsExactly_structured {α : Type} {read : List Char → Except Literal.LiteralFault α}
    {value : α → Value} {writes : String → Value → Prop}
    (h : ∀ raw v, writes raw v ↔ ∃ a, read raw.toList = .ok a ∧ v = value a) :
    ReadsExactly (structured read value) writes := by
  intro key raw
  simp only [h, structured]
  cases read raw.toList with
  | ok a => simp [eq_comm]
  | error fault => simp

end Styling
