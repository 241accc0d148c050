import Styling.Proofs.Sequences
import Styling.Source.Expr

/-!
# Expressions inside brackets

An expression is read with a stack of what is open around it, and a token can do no more than a few
things with the top of that stack (`SourceToken.Leads`). No step looks below what it opens or
closes. So what a whole text writes is read alike inside the square brackets of another expression
(`Inside.run`): where the text itself would end its expression, the bracket does. Line ends, which
mean nothing inside brackets, can only stand in front of the expression and behind it
(`LinesAround.of_run`).

Nothing that has been read gets lost. Every name among the tokens of an expression is mentioned in
it (`mentions_of_run`).
-/

set_option autoImplicit false

namespace Styling

/-! ## Rows of tokens -/

/-- What some tokens lead to; nothing if one of them cannot stand where it does. -/
def runTokens : List SourceToken → Reached × List Frame → Option (Reached × List Frame)
  | [], p => some p
  | t :: ts, p => (t.step p.1 p.2).bind (runTokens ts)

/-- Where every expression starts. -/
def readingStart : Reached × List Frame := (.wanted, [.enclosed .text []])

theorem runTokens_append (ts us : List SourceToken) (p : Reached × List Frame) :
    runTokens (ts ++ us) p = (runTokens ts p).bind (runTokens us) := by
  induction ts generalizing p with
  | nil => rfl
  | cons t ts ih =>
    simp only [List.cons_append, runTokens]
    cases t.step p.1 p.2 with
    | none => rfl
    | some q => exact ih q

/-- Tokens are an expression if they lead to it and the end of the line comes after them. -/
theorem readSource_eq_ok_iff {ps : List PlacedToken} {reached : Reached} {frames : List Frame}
    {e : SourceExpr} :
    readSource ps reached frames = .ok e ↔
      ∃ rest, runTokens (ps.map PlacedToken.token ++ [.lineEnd]) (reached, frames)
        = some (.ended e, rest) := by
  induction ps generalizing reached frames with
  | nil =>
    rw [readSource]
    cases h : SourceToken.lineEnd.step reached frames with
    | none => simp [runTokens, h]
    | some p =>
      obtain ⟨r, rest⟩ := p
      cases r <;> simp [runTokens, h]
  | cons p ps ih =>
    rw [readSource]
    cases h : p.token.step reached frames with
    | none =>
      have hnone : ∀ stop : Stop, (Except.error stop : Except Stop SourceExpr) ≠ .ok e := by simp
      simp only [List.map_cons, List.cons_append, runTokens, h, Option.bind_none, reduceCtorEq,
        exists_false, iff_false]
      split <;> exact hnone _
    | some q => simpa [runTokens, h] using ih

theorem TokenRun.read_eq_ok_iff {r : TokenRun} {e : SourceExpr} :
    r.read = .ok e ↔
      ∃ rest, runTokens (r.tokens.map PlacedToken.token ++ [.lineEnd]) readingStart
        = some (.ended e, rest) :=
  readSource_eq_ok_iff

/-! ## Single tokens -/

/-- The expression that a token is by itself. -/
def SourceToken.operand? : SourceToken → Option SourceExpr
  | .name s => some (.name s)
  | .constant v => some (.constant v)
  | .dots => some .dots
  | _ => none

/-- The enclosure that a bracket opens in front of an expression. -/
inductive Opens : Char → Enclosure → Prop
  | round : Opens '(' .round
  | square : Opens '[' .square

/-- Everything that a token can do. -/
inductive SourceToken.Leads : SourceToken → Reached × List Frame → Reached × List Frame → Prop
  | operand {t : SourceToken} {e : SourceExpr} {fs : List Frame} (h : t.operand? = some e) :
    Leads t (.wanted, fs) (.complete e, fs)
  | bracket {c : Char} {enclosure : Enclosure} {fs : List Frame} (h : Opens c enclosure) :
    Leads (.mark c) (.wanted, fs) (.wanted, .enclosed enclosure [] :: fs)
  | minus {fs : List Frame} : Leads (.mark '-') (.wanted, fs) (.wanted, .minus :: fs)
  | closeAfterComma {c : Char} {enclosure : Enclosure} {items : List SourceExpr} {e : SourceExpr}
      {fs : List Frame} (hc : enclosure.closedBy c = true)
      (he : enclosure.close items none = some e) :
    Leads (.mark c) (.wanted, .enclosed enclosure items :: fs) (.complete e, fs)
  | emptyLine : Leads .lineEnd readingStart readingStart
  | endAfterComma {items : List SourceExpr} {e : SourceExpr}
      (he : Enclosure.text.close items none = some e) :
    Leads .lineEnd (.wanted, [.enclosed .text items]) (.ended e, [.enclosed .text items])
  | part {e : SourceExpr} {s : String} {fs : List Frame} :
    Leads (.name s) (.memberOf e, fs) (.complete (.member e s), fs)
  | point {e : SourceExpr} {fs : List Frame} :
    Leads (.mark '.') (.complete e, fs) (.memberOf e, fs)
  | arguments {e : SourceExpr} {fs : List Frame} :
    Leads (.mark '[') (.complete e, fs) (.wanted, .enclosed (.arguments e) [] :: fs)
  | bar {e e' : SourceExpr} {fs fs' : List Frame} (h : closeOperators e fs = (e', fs')) :
    Leads (.mark '|') (.complete e, fs) (.wanted, .either e' :: fs')
  | comma {e e' : SourceExpr} {enclosure : Enclosure} {items : List SourceExpr}
      {fs fs' : List Frame} (h : closeOperators e fs = (e', .enclosed enclosure items :: fs')) :
    Leads (.mark ',') (.complete e, fs) (.wanted, .enclosed enclosure (items ++ [e']) :: fs')
  | close {c : Char} {e e' r : SourceExpr} {enclosure : Enclosure} {items : List SourceExpr}
      {fs fs' : List Frame} (h : closeOperators e fs = (e', .enclosed enclosure items :: fs'))
      (hc : enclosure.closedBy c = true) (hr : enclosure.close items (some e') = some r) :
    Leads (.mark c) (.complete e, fs) (.complete r, fs')
  | endComplete {e e' r : SourceExpr} {items : List SourceExpr} {fs : List Frame}
      (h : closeOperators e fs = (e', [.enclosed .text items]))
      (hr : Enclosure.text.close items (some e') = some r) :
    Leads .lineEnd (.complete e, fs) (.ended r, [.enclosed .text items])
  | afterEnd {e : SourceExpr} {fs : List Frame} : Leads .lineEnd (.ended e, fs) (.ended e, fs)

theorem closeBracket_eq_some_iff {c : Char} {last : Option SourceExpr} {fs : List Frame}
    {q : Reached × List Frame} :
    closeBracket c last fs = some q ↔
      ∃ enclosure items e fs', fs = .enclosed enclosure items :: fs' ∧
        enclosure.closedBy c = true ∧ enclosure.close items last = some e ∧
        q = (.complete e, fs') := by
  unfold closeBracket
  split
  · next enclosure items fs' =>
    constructor
    · intro h
      split at h
      · next hc =>
        obtain ⟨e, he, rfl⟩ := Option.map_eq_some_iff.1 h
        exact ⟨enclosure, items, e, fs', rfl, hc, he, rfl⟩
      · cases h
    · rintro ⟨_, _, e, _, hfs, hc, he, rfl⟩
      cases hfs
      simp [hc, he]
  · next hno =>
    simp only [reduceCtorEq, false_iff, not_exists, not_and]
    rintro enclosure items e fs' rfl
    exact (hno enclosure items fs' rfl).elim

theorem endLine_eq_some_iff {last : Option SourceExpr} {fs : List Frame}
    {q : Reached × List Frame} :
    endLine last fs = some q ↔
      ∃ items e, fs = [.enclosed .text items] ∧ Enclosure.text.close items last = some e ∧
        q = (.ended e, fs) := by
  unfold endLine
  split
  · next items =>
    simp only [Option.map_eq_some_iff]
    constructor
    · rintro ⟨e, he, rfl⟩
      exact ⟨items, e, rfl, he, rfl⟩
    · rintro ⟨_, e, hfs, he, rfl⟩
      cases hfs
      exact ⟨e, he, rfl⟩
  · next hno =>
    simp only [reduceCtorEq, false_iff, not_exists, not_and]
    rintro items e rfl
    exact (hno items rfl).elim

theorem SourceToken.leads_of_step {t : SourceToken} {p q : Reached × List Frame}
    (h : t.step p.1 p.2 = some q) : t.Leads p q := by
  obtain ⟨reached, fs⟩ := p
  cases reached with
  | wanted =>
    simp only [step] at h
    split at h
    · cases h
      exact .operand rfl
    · cases h
      exact .operand rfl
    · cases h
      exact .operand rfl
    · cases h
      exact .bracket .round
    · cases h
      exact .bracket .square
    · cases h
      exact .minus
    · obtain ⟨enclosure, items, e, fs', rfl, hc, he, rfl⟩ := closeBracket_eq_some_iff.1 h
      exact .closeAfterComma hc he
    · split at h
      · cases h
        exact .emptyLine
      · obtain ⟨items, e, rfl, he, rfl⟩ := endLine_eq_some_iff.1 h
        exact .endAfterComma he
    · cases h
  | memberOf e =>
    simp only [step] at h
    split at h
    · cases h
      exact .part
    · cases h
  | complete e =>
    simp only [step] at h
    split at h
    · cases h
      exact .point
    · cases h
      exact .arguments
    · cases h
      exact .bar rfl
    · split at h
      · next hclose =>
        cases h
        exact .comma hclose
      · cases h
    · obtain ⟨enclosure, items, r, fs', hfs, hc, hr, rfl⟩ := closeBracket_eq_some_iff.1 h
      exact .close (Prod.ext rfl hfs) hc hr
    · obtain ⟨items, r, hfs, hr, rfl⟩ := endLine_eq_some_iff.1 h
      rw [hfs]
      exact .endComplete (Prod.ext rfl hfs) hr
    · cases h
  | ended e =>
    simp only [step] at h
    split at h
    · cases h
      exact .afterEnd
    · cases h

theorem Enclosure.closedBy_eq_true {enclosure : Enclosure} {c : Char}
    (h : enclosure.closedBy c = true) : c = ')' ∨ c = ']' := by
  cases enclosure <;> simp_all [closedBy]

/-- The description is complete. -/
theorem SourceToken.Leads.step {t : SourceToken} {p q : Reached × List Frame} (h : t.Leads p q) :
    t.step p.1 p.2 = some q := by
  cases h with
  | operand h =>
    cases t <;> cases h <;> rfl
  | bracket h => cases h <;> rfl
  | closeAfterComma hc he =>
    obtain rfl | rfl := Enclosure.closedBy_eq_true hc <;>
      exact closeBracket_eq_some_iff.2 ⟨_, _, _, _, rfl, hc, he, rfl⟩
  | @endAfterComma items _ he =>
    cases items with
    | nil => cases he
    | cons item items => exact endLine_eq_some_iff.2 ⟨_, _, rfl, he, rfl⟩
  | bar h => simp [SourceToken.step, h]
  | comma h => simp [SourceToken.step, h]
  | close h hc hr =>
    obtain rfl | rfl := Enclosure.closedBy_eq_true hc <;>
      simpa [SourceToken.step, h] using
        closeBracket_eq_some_iff.2 ⟨_, _, _, _, rfl, hc, hr, rfl⟩
  | endComplete h hr =>
    simpa [SourceToken.step, h] using endLine_eq_some_iff.2 ⟨_, _, rfl, hr, rfl⟩
  | minus => rfl
  | emptyLine => rfl
  | part => rfl
  | point => rfl
  | arguments => rfl
  | afterEnd => rfl

theorem SourceToken.step_eq_some_iff {t : SourceToken} {p q : Reached × List Frame} :
    t.step p.1 p.2 = some q ↔ t.Leads p q :=
  ⟨leads_of_step, Leads.step⟩

theorem runTokens_cons_eq_some_iff {t : SourceToken} {ts : List SourceToken}
    {p q : Reached × List Frame} :
    runTokens (t :: ts) p = some q ↔ ∃ p', t.Leads p p' ∧ runTokens ts p' = some q := by
  simp [runTokens, Option.bind_eq_some_iff, SourceToken.step_eq_some_iff]

/-! ## Inside brackets -/

/-- What closes operators finds an enclosure, and what is below makes no difference to it. -/
theorem closeOperators_append (e : SourceExpr) (fs : List Frame) :
    ∃ e' fs', (fs' = [] ∨ ∃ enclosure items rest, fs' = .enclosed enclosure items :: rest) ∧
      ∀ enclosure items rest, closeOperators e (fs ++ .enclosed enclosure items :: rest)
        = (e', fs' ++ .enclosed enclosure items :: rest) := by
  induction fs generalizing e with
  | nil => exact ⟨e, [], Or.inl rfl, fun _ _ _ => rfl⟩
  | cons f fs ih =>
    cases f with
    | either left => exact ih (.either left e)
    | minus => exact ih (.negative e)
    | enclosed enclosure items =>
      exact ⟨e, .enclosed enclosure items :: fs, Or.inr ⟨enclosure, items, fs, rfl⟩,
        fun _ _ _ => rfl⟩

/-- What two readings have reached, the one of a text by itself and the other of the same text in
square brackets after `head`. Where the first one is done, the other one waits for the bracket. -/
inductive Inside (head : SourceExpr) : Reached × List Frame → Reached × List Frame → Prop
  | reading {reached : Reached} {fs : List Frame} {items : List SourceExpr}
      (h : ∀ e, reached ≠ .ended e) :
    Inside head (reached, fs ++ [.enclosed .text items])
      (reached, fs ++ [.enclosed (.arguments head) items, .enclosed .text []])
  | done {e : SourceExpr} {fs : List Frame} {q : Reached × List Frame}
      (h : (SourceToken.mark ']').Leads q
        (.complete (.subscript head e), [.enclosed .text []])) :
    Inside head (.ended e, fs) q

/-- Closing operators ends in the enclosure that all stands in, or in one further up. -/
theorem Inside.enclosures (head : SourceExpr) {e : SourceExpr} {fs : List Frame}
    {items : List SourceExpr} {e' : SourceExpr} {enclosure : Enclosure}
    {items' : List SourceExpr} {fs' : List Frame}
    (h : closeOperators e (fs ++ [.enclosed .text items])
      = (e', .enclosed enclosure items' :: fs')) :
    (enclosure = .text ∧ items' = items ∧ fs' = [] ∧
      closeOperators e (fs ++ [.enclosed (.arguments head) items, .enclosed .text []])
        = (e', [.enclosed (.arguments head) items, .enclosed .text []])) ∨
    ∃ rest, fs' = rest ++ [.enclosed .text items] ∧
      closeOperators e (fs ++ [.enclosed (.arguments head) items, .enclosed .text []])
        = (e', .enclosed enclosure items'
            :: (rest ++ [.enclosed (.arguments head) items, .enclosed .text []])) := by
  obtain ⟨e₁, fs₁, hshape, hclose⟩ := closeOperators_append e fs
  rw [hclose .text items []] at h
  rw [hclose (.arguments head) items [.enclosed .text []]]
  obtain ⟨rfl, hfs⟩ := Prod.mk.inj h
  obtain rfl | ⟨enclosure₁, items₁, rest, rfl⟩ := hshape
  · cases hfs
    exact Or.inl ⟨rfl, rfl, rfl, rfl⟩
  · cases hfs
    exact Or.inr ⟨rest, rfl, rfl⟩

/-- What a text makes of its items when it ends is the argument that brackets make of them. -/
theorem Enclosure.close_arguments (head : SourceExpr) {items : List SourceExpr}
    {last : Option SourceExpr} {e : SourceExpr} (h : Enclosure.text.close items last = some e) :
    (Enclosure.arguments head).close items last = some (.subscript head e) := by
  cases items <;> cases last <;> cases h <;> rfl

/-- A token leads both readings on; a line end is not there inside the brackets. -/
theorem Inside.leads {head : SourceExpr} {t : SourceToken} {p p' q : Reached × List Frame}
    (hpq : Inside head p q) (h : t.Leads p p') :
    (t = .lineEnd ∧ Inside head p' q) ∨
      t ≠ .lineEnd ∧ ∃ q', t.Leads q q' ∧ Inside head p' q' := by
  cases hpq with
  | done hq =>
    cases h with
    | afterEnd => exact Or.inl ⟨rfl, .done hq⟩
  | @reading reached fs items hended =>
    generalize hF : fs ++ [Frame.enclosed Enclosure.text items] = F at h
    cases h with
    | operand he =>
      subst hF
      exact Or.inr ⟨fun ht => by simp [ht, SourceToken.operand?] at he, _, .operand he,
        .reading (by simp)⟩
    | @bracket c enclosure _ hc =>
      subst hF
      exact Or.inr ⟨by simp, _, .bracket hc,
        @Inside.reading head _ (.enclosed enclosure [] :: fs) items (by simp)⟩
    | minus =>
      subst hF
      exact Or.inr ⟨by simp, _, .minus, @Inside.reading head _ (.minus :: fs) items (by simp)⟩
    | closeAfterComma hc he =>
      cases fs with
      | nil =>
        cases hF
        cases hc
      | cons f fs =>
        cases hF
        exact Or.inr ⟨by simp, _, .closeAfterComma hc he, .reading (by simp)⟩
    | emptyLine =>
      obtain ⟨rfl, rfl⟩ : fs = [] ∧ items = [] := by simpa [List.append_eq_singleton_iff] using hF
      exact Or.inl ⟨rfl, @Inside.reading head _ [] [] hended⟩
    | @endAfterComma items' _ he =>
      obtain ⟨rfl, rfl⟩ : fs = [] ∧ items = items' := by
        simpa [List.append_eq_singleton_iff] using hF
      exact Or.inl ⟨rfl, .done (.closeAfterComma rfl (Enclosure.close_arguments head he))⟩
    | part =>
      subst hF
      exact Or.inr ⟨by simp, _, .part, .reading (by simp)⟩
    | point =>
      subst hF
      exact Or.inr ⟨by simp, _, .point, .reading (by simp)⟩
    | @arguments e =>
      subst hF
      exact Or.inr ⟨by simp, _, .arguments,
        @Inside.reading head _ (.enclosed (.arguments e) [] :: fs) items (by simp)⟩
    | @bar e _ _ _ hclose =>
      subst hF
      obtain ⟨e₁, fs₁, -, hall⟩ := closeOperators_append e fs
      obtain ⟨rfl, rfl⟩ := Prod.mk.inj ((hall _ _ _).symm.trans hclose)
      exact Or.inr ⟨by simp, _, .bar (hall _ _ _),
        @Inside.reading head _ (.either e₁ :: fs₁) items (by simp)⟩
    | @comma e e' enclosure items' _ _ hclose =>
      subst hF
      obtain ⟨rfl, rfl, rfl, hinside⟩ | ⟨rest, rfl, hinside⟩ := enclosures head hclose
      · exact Or.inr ⟨by simp, _, .comma hinside,
          @Inside.reading head _ [] (items' ++ [e']) (by simp)⟩
      · exact Or.inr ⟨by simp, _, .comma hinside,
          @Inside.reading head _ (.enclosed enclosure (items' ++ [e']) :: rest) items (by simp)⟩
    | close hclose hc hr =>
      subst hF
      obtain ⟨rfl, -⟩ | ⟨rest, rfl, hinside⟩ := enclosures head hclose
      · cases hc
      · exact Or.inr ⟨by simp, _, .close hinside hc hr, .reading (by simp)⟩
    | @endComplete _ e' _ items' _ hclose hr =>
      subst hF
      obtain ⟨-, rfl, -, hinside⟩ | ⟨rest, hrest, -⟩ := enclosures head hclose
      · exact Or.inl ⟨rfl, .done (.close hinside rfl (Enclosure.close_arguments head hr))⟩
      · simp at hrest
    | afterEnd => exact (hended _ rfl).elim

/-- Line ends and what they put before a line. -/
def SourceToken.isLayout : SourceToken → Bool
  | .lineEnd => true
  | .indent => true
  | _ => false

theorem SourceToken.isLayout_of_leads {t : SourceToken} {p q : Reached × List Frame}
    (h : t.Leads p q) : t.isLayout = true ↔ t = .lineEnd := by
  cases h with
  | @operand t => cases t <;> simp_all [operand?, isLayout]
  | _ => simp [isLayout]

/-- The tokens that mean something inside brackets. -/
def withoutLayout (ts : List SourceToken) : List SourceToken := ts.filter fun t => !t.isLayout

@[simp] theorem withoutLayout_nil : withoutLayout [] = [] := rfl

theorem withoutLayout_cons {t : SourceToken} (ht : t.isLayout = false) (ts : List SourceToken) :
    withoutLayout (t :: ts) = t :: withoutLayout ts := by
  simp [withoutLayout, ht]

theorem withoutLayout_cons_of_layout {t : SourceToken} (ht : t.isLayout = true)
    (ts : List SourceToken) : withoutLayout (t :: ts) = withoutLayout ts := by
  simp [withoutLayout, ht]

@[simp] theorem withoutLayout_append (ts us : List SourceToken) :
    withoutLayout (ts ++ us) = withoutLayout ts ++ withoutLayout us :=
  List.filter_append ts us

theorem withoutLayout_eq_nil_iff {ts : List SourceToken} :
    withoutLayout ts = [] ↔ ∀ t ∈ ts, t.isLayout = true := by
  simp [withoutLayout]

/-- Inside brackets the tokens of a text lead on to an expression that waits for the bracket. -/
theorem Inside.run {head : SourceExpr} {ts : List SourceToken} {p p' q : Reached × List Frame}
    (hpq : Inside head p q) (h : runTokens ts p = some p') :
    ∃ q', runTokens (withoutLayout ts) q = some q' ∧ Inside head p' q' := by
  induction ts generalizing p q with
  | nil =>
    cases h
    exact ⟨q, rfl, hpq⟩
  | cons t ts ih =>
    obtain ⟨p₁, hleads, hrun⟩ := runTokens_cons_eq_some_iff.1 h
    have hlayout := SourceToken.isLayout_of_leads hleads
    obtain ⟨rfl, hpq₁⟩ | ⟨hline, q₁, hq, hpq₁⟩ := hpq.leads hleads
    · rw [withoutLayout_cons_of_layout rfl]
      exact ih hpq₁ hrun
    · obtain ⟨q', hq', hdone⟩ := ih hpq₁ hrun
      refine ⟨q', ?_, hdone⟩
      rw [withoutLayout_cons (by simpa using mt hlayout.1 hline)]
      exact runTokens_cons_eq_some_iff.2 ⟨q₁, hq, hq'⟩

/-- Where a text is read that stands in square brackets after `head`. -/
def argumentStart (head : SourceExpr) : Reached × List Frame :=
  (.wanted, [.enclosed (.arguments head) [], .enclosed .text []])

/-- What a text writes is also what it writes in square brackets, line ends apart. -/
theorem exists_run_argument (head : SourceExpr) {e : SourceExpr} {ts : List SourceToken}
    {rest : List Frame} (h : runTokens (ts ++ [.lineEnd]) readingStart = some (.ended e, rest)) :
    ∃ rest', runTokens (withoutLayout ts ++ [.mark ']', .lineEnd]) (argumentStart head)
      = some (.ended (.subscript head e), rest') := by
  have hstart : Inside head readingStart (argumentStart head) :=
    @Inside.reading head _ [] [] (by simp)
  obtain ⟨q, hq, hdone⟩ := hstart.run h
  rw [withoutLayout_append, withoutLayout_cons_of_layout rfl, withoutLayout_nil,
    List.append_nil] at hq
  cases hdone with
  | reading hended => exact (hended _ rfl).elim
  | done hclose =>
    refine ⟨[.enclosed .text []], ?_⟩
    rw [runTokens_append, hq]
    exact runTokens_cons_eq_some_iff.2 ⟨_, hclose, rfl⟩

/-! ## Line ends -/

/-- Layout comes only behind the other tokens. -/
def EndsInLines : List SourceToken → Prop
  | [] => True
  | t :: ts => if t.isLayout then ∀ u ∈ ts, u.isLayout = true else EndsInLines ts

/-- Layout comes only in front of the other tokens and behind them. -/
def LinesAround : List SourceToken → Prop
  | [] => True
  | t :: ts => if t.isLayout then LinesAround ts else EndsInLines ts

theorem SourceToken.Leads.ne_start {t : SourceToken} {p q : Reached × List Frame}
    (h : t.Leads p q) (ht : t ≠ .lineEnd) : q ≠ readingStart := by
  intro hq
  cases h with
  | bracket h => cases h <;> simp [readingStart] at hq
  | comma => simp [readingStart] at hq
  | emptyLine => exact ht rfl
  | _ => cases hq

theorem SourceToken.Leads.exists_ended {p q : Reached × List Frame}
    (h : SourceToken.lineEnd.Leads p q) (hp : p ≠ readingStart) :
    ∃ e rest, q = (.ended e, rest) := by
  cases h with
  | operand h => cases h
  | emptyLine => exact (hp rfl).elim
  | endAfterComma => exact ⟨_, _, rfl⟩
  | endComplete => exact ⟨_, _, rfl⟩
  | afterEnd => exact ⟨_, _, rfl⟩

theorem isLayout_of_run_ended {ts : List SourceToken} {e : SourceExpr} {fs : List Frame}
    {q : Reached × List Frame} (h : runTokens ts (.ended e, fs) = some q) :
    ∀ t ∈ ts, t.isLayout = true := by
  induction ts with
  | nil => simp
  | cons t ts ih =>
    obtain ⟨p, hleads, hrun⟩ := runTokens_cons_eq_some_iff.1 h
    cases hleads with
    | afterEnd => exact List.forall_mem_cons.2 ⟨rfl, ih hrun⟩

theorem EndsInLines.of_run {ts : List SourceToken} {p q : Reached × List Frame}
    (hp : p ≠ readingStart) (h : runTokens ts p = some q) : EndsInLines ts := by
  induction ts generalizing p with
  | nil => trivial
  | cons t ts ih =>
    obtain ⟨p₁, hleads, hrun⟩ := runTokens_cons_eq_some_iff.1 h
    rw [EndsInLines]
    split
    · next hlayout =>
      obtain rfl := (SourceToken.isLayout_of_leads hleads).1 hlayout
      obtain ⟨e, rest, rfl⟩ := hleads.exists_ended hp
      exact isLayout_of_run_ended hrun
    · next hlayout =>
      exact ih (hleads.ne_start (mt (SourceToken.isLayout_of_leads hleads).2 hlayout)) hrun

theorem LinesAround.of_run {ts : List SourceToken} {p q : Reached × List Frame}
    (h : runTokens ts p = some q) : LinesAround ts := by
  induction ts generalizing p with
  | nil => trivial
  | cons t ts ih =>
    obtain ⟨p₁, hleads, hrun⟩ := runTokens_cons_eq_some_iff.1 h
    rw [LinesAround]
    split
    · exact ih hrun
    · next hlayout =>
      exact .of_run (hleads.ne_start (mt (SourceToken.isLayout_of_leads hleads).2 hlayout)) hrun

/-! ## Names -/

mutual

/-- The word is a name in the expression, or the name of a member. -/
def SourceExpr.mentions (word : String) : SourceExpr → Bool
  | .name s => s = word
  | .constant _ => false
  | .dots => false
  | .member e s => e.mentions word || s = word
  | .subscript e argument => e.mentions word || argument.mentions word
  | .either left right => left.mentions word || right.mentions word
  | .negative e => e.mentions word
  | .tuple items => SourceExpr.anyMentions word items
  | .list items => SourceExpr.anyMentions word items

def SourceExpr.anyMentions (word : String) : List SourceExpr → Bool
  | [] => false
  | e :: es => e.mentions word || SourceExpr.anyMentions word es

end

theorem SourceExpr.anyMentions_append (word : String) (es fs : List SourceExpr) :
    SourceExpr.anyMentions word (es ++ fs)
      = (SourceExpr.anyMentions word es || SourceExpr.anyMentions word fs) := by
  induction es with
  | nil => rfl
  | cons e es ih => simp [SourceExpr.anyMentions, ih, Bool.or_assoc]

/-- The word is a name in what the enclosure itself brings into its expression. -/
def Enclosure.mentions (word : String) : Enclosure → Bool
  | .arguments e => e.mentions word
  | _ => false

def Frame.mentions (word : String) : Frame → Bool
  | .either left => left.mentions word
  | .minus => false
  | .enclosed enclosure items => enclosure.mentions word || SourceExpr.anyMentions word items

/-- The word is a name in what has been read. -/
def readMentions (word : String) : Reached × List Frame → Bool
  | (.wanted, fs) => fs.any (Frame.mentions word)
  | (.complete e, fs) => e.mentions word || fs.any (Frame.mentions word)
  | (.memberOf e, fs) => e.mentions word || fs.any (Frame.mentions word)
  | (.ended e, _) => e.mentions word

theorem closeOperators_mentions (word : String) (e : SourceExpr) (fs : List Frame) :
    readMentions word (.complete (closeOperators e fs).1, (closeOperators e fs).2)
      = readMentions word (.complete e, fs) := by
  fun_induction closeOperators e fs with
  | case1 e fs ih =>
    rw [ih]
    simp [readMentions, SourceExpr.mentions, Frame.mentions]
  | case2 e left fs ih =>
    rw [ih]
    simp [readMentions, SourceExpr.mentions, Frame.mentions, Bool.or_comm, Bool.or_left_comm]
  | case3 => rfl

theorem Enclosure.close_mentions {word : String} {enclosure : Enclosure}
    {items : List SourceExpr} {last : Option SourceExpr} {e : SourceExpr}
    (h : enclosure.close items last = some e) :
    e.mentions word = (enclosure.mentions word
      || SourceExpr.anyMentions word (items ++ last.toList)) := by
  cases enclosure <;> cases items <;> cases last <;> cases h <;>
    simp [Enclosure.mentions, SourceExpr.mentions, SourceExpr.anyMentions,
      SourceExpr.anyMentions_append]

/-- The token is the word as a name. -/
def SourceToken.isName (word : String) : SourceToken → Bool
  | .name s => s = word
  | _ => false

theorem readMentions_of_leads {word : String} {t : SourceToken} {p q : Reached × List Frame}
    (h : t.Leads p q) : readMentions word q = (t.isName word || readMentions word p) := by
  cases h with
  | @operand t e fs h =>
    cases t <;> cases h <;> simp [readMentions, SourceToken.isName, SourceExpr.mentions]
  | bracket h =>
    cases h <;> simp [readMentions, SourceToken.isName, Frame.mentions, Enclosure.mentions,
      SourceExpr.anyMentions]
  | closeAfterComma hc he =>
    simp [readMentions, SourceToken.isName, Frame.mentions, Enclosure.close_mentions he]
  | emptyLine => rfl
  | endAfterComma he =>
    simp [readMentions, SourceToken.isName, Frame.mentions, Enclosure.close_mentions he]
  | @bar e _ fs _ h =>
    have hkeep := closeOperators_mentions word e fs
    simp only [h, readMentions] at hkeep
    simp [readMentions, SourceToken.isName, Frame.mentions, hkeep]
  | @comma e _ _ _ fs _ h =>
    have hkeep := closeOperators_mentions word e fs
    simp only [h, readMentions, List.any_cons, Frame.mentions] at hkeep
    simp [readMentions, SourceToken.isName, Frame.mentions, SourceExpr.anyMentions_append,
      SourceExpr.anyMentions, ← hkeep, Bool.or_comm, Bool.or_left_comm, Bool.or_assoc]
  | @close _ e _ _ _ _ fs _ h hc hr =>
    have hkeep := closeOperators_mentions word e fs
    simp only [h, readMentions, List.any_cons, Frame.mentions] at hkeep
    simp [readMentions, SourceToken.isName, Enclosure.close_mentions hr,
      SourceExpr.anyMentions_append, SourceExpr.anyMentions, ← hkeep, Bool.or_comm,
      Bool.or_left_comm, Bool.or_assoc]
  | @endComplete e _ _ _ fs h hr =>
    have hkeep := closeOperators_mentions word e fs
    simp only [h, readMentions, List.any_cons, Frame.mentions] at hkeep
    simp [readMentions, SourceToken.isName, Enclosure.close_mentions hr, Enclosure.mentions,
      SourceExpr.anyMentions_append, SourceExpr.anyMentions, ← hkeep, Bool.or_comm]
  | _ => simp [readMentions, SourceToken.isName, Frame.mentions, Enclosure.mentions,
      SourceExpr.mentions, SourceExpr.anyMentions, Bool.or_comm, Bool.or_left_comm]

theorem readMentions_of_run (word : String) {ts : List SourceToken} {p q : Reached × List Frame}
    (h : runTokens ts p = some q) :
    readMentions word q = (ts.any (SourceToken.isName word) || readMentions word p) := by
  induction ts generalizing p with
  | nil =>
    cases h
    simp
  | cons t ts ih =>
    obtain ⟨p₁, hleads, hrun⟩ := runTokens_cons_eq_some_iff.1 h
    rw [ih hrun, readMentions_of_leads hleads, List.any_cons,
      Bool.or_left_comm, Bool.or_assoc]

/-- A name among the tokens of an expression is a name in it. -/
theorem mentions_of_run {word : String} {ts : List SourceToken} {e : SourceExpr}
    {rest : List Frame} (h : runTokens (ts ++ [.lineEnd]) readingStart = some (.ended e, rest))
    (hword : SourceToken.name word ∈ ts) : e.mentions word = true := by
  have hrun := readMentions_of_run word h
  rw [show e.mentions word = readMentions word (.ended e, rest) from rfl, hrun]
  have hany : ts.any (SourceToken.isName word) = true :=
    List.any_eq_true.2 ⟨_, hword, by simp [SourceToken.isName]⟩
  simp [hany]

/-! ## Open brackets -/

/-- The bracket that opened the frame. -/
def Frame.bracket? : Frame → Option Char
  | .enclosed .round _ => some '('
  | .enclosed .square _ => some '['
  | .enclosed (.arguments _) _ => some '['
  | _ => none

/-- The brackets that are open, innermost first. -/
def openBrackets : Reached × List Frame → List Char
  | (.ended _, _) => []
  | (_, fs) => fs.filterMap Frame.bracket?

/-- The brackets that are open after a token, if it closes no other than the innermost one. -/
def SourceToken.bracketsOn (brackets : List Char) : SourceToken → List Char
  | .mark c =>
    if (closingBracket? c).isSome then c :: brackets
    else if isClosingBracket c then brackets.tail
    else brackets
  | _ => brackets

theorem closeOperators_brackets (e : SourceExpr) (fs : List Frame) :
    (closeOperators e fs).2.filterMap Frame.bracket? = fs.filterMap Frame.bracket? := by
  fun_induction closeOperators e fs with
  | case1 e fs ih => exact ih
  | case2 e left fs ih => exact ih
  | case3 => rfl

theorem Enclosure.exists_bracket {enclosure : Enclosure} {c : Char} (items : List SourceExpr)
    (hc : enclosure.closedBy c = true) :
    ∃ o, (Frame.enclosed enclosure items).bracket? = some o := by
  cases enclosure with
  | text => cases hc
  | round => exact ⟨_, rfl⟩
  | square => exact ⟨_, rfl⟩
  | arguments e => exact ⟨_, rfl⟩

theorem SourceToken.bracketsOn_closing {c : Char} (hc : c = ')' ∨ c = ']')
    (brackets : List Char) : (SourceToken.mark c).bracketsOn brackets = brackets.tail := by
  obtain rfl | rfl := hc <;> rfl

theorem openBrackets_of_leads {t : SourceToken} {p q : Reached × List Frame} (h : t.Leads p q) :
    openBrackets q = t.bracketsOn (openBrackets p) := by
  cases h with
  | @operand t _ _ h => cases t <;> cases h <;> rfl
  | bracket h => cases h <;> rfl
  | @closeAfterComma _ _ items _ _ hc he =>
    obtain ⟨o, ho⟩ := Enclosure.exists_bracket items hc
    rw [SourceToken.bracketsOn_closing (Enclosure.closedBy_eq_true hc)]
    simp [openBrackets, ho]
  | @bar e _ fs _ h =>
    have hkeep := closeOperators_brackets e fs
    rw [h] at hkeep
    exact hkeep
  | @comma e _ enclosure _ fs _ h =>
    have hkeep := closeOperators_brackets e fs
    rw [h] at hkeep
    cases enclosure <;> exact hkeep
  | @close _ e _ _ _ items fs _ h hc hr =>
    have hkeep := closeOperators_brackets e fs
    obtain ⟨o, ho⟩ := Enclosure.exists_bracket items hc
    rw [h, List.filterMap_cons, ho] at hkeep
    rw [SourceToken.bracketsOn_closing (Enclosure.closedBy_eq_true hc)]
    simp [openBrackets, ← hkeep]
  | @endComplete e _ _ _ fs h hr =>
    have hkeep := closeOperators_brackets e fs
    rw [h] at hkeep
    exact hkeep
  | _ => rfl

theorem openBrackets_of_run {ts : List SourceToken} {p q : Reached × List Frame}
    (h : runTokens ts p = some q) :
    openBrackets q = ts.foldl SourceToken.bracketsOn (openBrackets p) := by
  induction ts generalizing p with
  | nil =>
    cases h
    rfl
  | cons t ts ih =>
    obtain ⟨p₁, hleads, hrun⟩ := runTokens_cons_eq_some_iff.1 h
    rw [ih hrun, openBrackets_of_leads hleads]
    rfl

/-- The tokens of an expression close every bracket. -/
theorem bracketsOn_of_run {ts : List SourceToken} {e : SourceExpr} {rest : List Frame}
    (h : runTokens (ts ++ [.lineEnd]) readingStart = some (.ended e, rest)) :
    ts.foldl SourceToken.bracketsOn [] = [] := by
  have hrun := openBrackets_of_run h
  rw [List.foldl_append] at hrun
  exact hrun.symm

end Styling
