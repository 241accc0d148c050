import Mathlib.Data.List.Forall2
import Styling.Proofs.Apply
import Styling.Proofs.Tables

/-!
# The calls that a style makes

Whatever a style does to its target, it does by calls of the apply function. With `recorded` the
apply function keeps a record of its calls and of what came of each; `Makes` says that an action
adds some calls to the record and otherwise does the same with the record as without it.

The calls for some entries are made in the order of the entries and end right after the first one
that raises an error (`MadeFor`, `makes_writeEntries`). Reading a style makes no calls
(`makes_read`). The main statement is `applyStyle_calls`: a style makes the calls for the values
before it and then those for its own entries, and what it comes to follows from what came of these
calls (`StyleOutcome`).
-/

set_option autoImplicit false

namespace Styling

variable {σ ε η α β : Type}

/-! ## Records of calls -/

/-- A call of an apply function, with what came of it. -/
structure Call (ε : Type) where
  key : String
  value : Value
  result : Except ε Value

/-- The apply function with a record of its calls, oldest first, beside its state. -/
def recorded (apply : ApplyFunction σ ε) : ApplyFunction (List (Call ε) × σ) ε :=
  fun key value s =>
    match apply key value ⟨s.state.2, s.log⟩ with
    | .ok old t => .ok old ⟨(s.state.1 ++ [⟨key, value, .ok old⟩], t.state), t.log⟩
    | .error e t => .error e ⟨(s.state.1 ++ [⟨key, value, .error e⟩], t.state), t.log⟩

/-- A state with a record of calls beside it. -/
def Logged.withCalls (s : Logged σ) (calls : List (Call ε)) : Logged (List (Call ε) × σ) :=
  ⟨(calls, s.state), s.log⟩

/-- A result that is reached in a state. -/
def reached : Except η α → σ → EStateM.Result η σ α
  | .ok a, s => .ok a s
  | .error e, s => .error e s

/-- An action comes to a result and a state. Done with a record, it comes to the same and adds some
calls to the record. -/
structure Makes (action : Action σ η α) (onRecord : Action (List (Call ε) × σ) η α)
    (s : Logged σ) (calls : List (Call ε)) (result : Except η α) (t : Logged σ) : Prop where
  plain : action s = reached result t
  noted : ∀ before, onRecord (s.withCalls before) = reached result (t.withCalls (before ++ calls))

namespace Makes

variable {action : Action σ η α} {onRecord : Action (List (Call ε) × σ) η α} {s t u : Logged σ}
  {calls more : List (Call ε)}

theorem pure (a : α) (s : Logged σ) :
    Makes (ε := ε) (η := η) (Pure.pure a) (Pure.pure a) s [] (.ok a) s :=
  ⟨rfl, fun before => by rw [List.append_nil]; rfl⟩

/-- The calls of two actions one after the other. -/
theorem bind {a : α} (h : Makes action onRecord s calls (.ok a) t) {next : α → Action σ η β}
    {nextOnRecord : α → Action (List (Call ε) × σ) η β} {result : Except η β}
    (hn : Makes (next a) (nextOnRecord a) t more result u) :
    Makes (action >>= next) (onRecord >>= nextOnRecord) s (calls ++ more) result u := by
  constructor
  · show EStateM.bind action next s = _
    rw [EStateM.bind, h.plain]
    exact hn.plain
  · intro before
    show EStateM.bind onRecord nextOnRecord (s.withCalls before) = _
    rw [EStateM.bind, h.noted, ← List.append_assoc]
    exact hn.noted _

/-- What is made of the result afterwards takes no calls. -/
theorem bind_pure {a : α} (h : Makes action onRecord s calls (.ok a) t) (f : α → β) :
    Makes (action >>= fun a => Pure.pure (f a)) (onRecord >>= fun a => Pure.pure (f a)) s calls
      (.ok (f a)) t := by
  rw [← List.append_nil calls]
  exact h.bind (.pure (f a) t)

/-- An action that fails is the last one. -/
theorem bind_error {e : η} (h : Makes action onRecord s calls (.error e) t)
    (next : α → Action σ η β) (nextOnRecord : α → Action (List (Call ε) × σ) η β) :
    Makes (action >>= next) (onRecord >>= nextOnRecord) s calls (.error e) t := by
  constructor
  · show EStateM.bind action next s = _
    rw [EStateM.bind, h.plain]
    rfl
  · intro before
    show EStateM.bind onRecord nextOnRecord (s.withCalls before) = _
    rw [EStateM.bind, h.noted]
    rfl

theorem adaptExcept {result : Except η α} (h : Makes action onRecord s calls result t)
    {η' : Type} (f : η → η') :
    Makes (action.adaptExcept f) (onRecord.adaptExcept f) s calls (result.mapError f) t := by
  constructor
  · rw [EStateM.adaptExcept, h.plain]
    cases result <;> rfl
  · intro before
    rw [EStateM.adaptExcept, h.noted]
    cases result <;> rfl

end Makes

theorem makes_report (entries : List LogEntry) (s : Logged σ) :
    Makes (ε := ε) (η := η) (report entries) (report entries) s [] (.ok ())
      ⟨s.state, s.log ++ entries⟩ :=
  ⟨rfl, fun before => by rw [List.append_nil]; rfl⟩

variable (apply : ApplyFunction σ ε)

/-- A call of the apply function makes that call. -/
theorem makes_apply (key : String) (value : Value) (s : Logged σ) :
    ∃ result t, Makes (apply key value) (recorded apply key value) s [⟨key, value, result⟩]
      result t := by
  cases h : apply key value s with
  | ok old t =>
    refine ⟨.ok old, t, h, fun before => ?_⟩
    have hs : apply key value ⟨(s.withCalls before).state.2, (s.withCalls before).log⟩ =
        .ok old t := h
    rw [recorded, hs]
    rfl
  | error e t =>
    refine ⟨.error e, t, h, fun before => ?_⟩
    have hs : apply key value ⟨(s.withCalls before).state.2, (s.withCalls before).log⟩ =
        .error e t := h
    rw [recorded, hs]
    rfl

/-! ## Calls for entries -/

/-- Calls are made for entries in their order. They end right after the first one that raises an
error, which is given; without an error there is a call for every entry. -/
inductive MadeFor : List (String × Value) → List (Call ε) → Option ε → Prop where
  | nil : MadeFor [] [] none
  | raised (key : String) (value : Value) (rest : List (String × Value)) (e : ε) :
      MadeFor ((key, value) :: rest) [⟨key, value, .error e⟩] (some e)
  | returned (key : String) (value old : Value) {rest : List (String × Value)}
      {calls : List (Call ε)} {error : Option ε} (h : MadeFor rest calls error) :
      MadeFor ((key, value) :: rest) (⟨key, value, .ok old⟩ :: calls) error

/-- What a call gave back, under its key. -/
def Call.answer? (c : Call ε) : Option (String × Value) :=
  match c.result with
  | .ok old => some (c.key, old)
  | .error _ => none

/-- What the calls that returned gave back. -/
def answers (calls : List (Call ε)) : List (String × Value) := calls.filterMap Call.answer?

/-- An entry binds the key of a call to what the call gave back. -/
def BindsAnswer (e : String × Value) (c : Call ε) : Prop := c.key = e.1 ∧ c.result = .ok e.2

namespace MadeFor

variable {es fs : List (String × Value)} {calls more : List (Call ε)} {error : Option ε}

/-- Calls that have all returned can be followed by others. -/
theorem append (h : MadeFor es calls none) (hm : MadeFor fs more error) :
    MadeFor (es ++ fs) (calls ++ more) error := by
  generalize hn : (none : Option ε) = first at h
  induction h with
  | nil => exact hm
  | raised key value rest e => cases hn
  | returned key value old _ ih => exact .returned key value old (ih hn)

/-- After an error it does not matter which entries were left. -/
theorem append_raised {e : ε} (h : MadeFor es calls (some e)) (fs : List (String × Value)) :
    MadeFor (es ++ fs) calls (some e) := by
  generalize hn : some e = first at h ⊢
  induction h with
  | nil => cases hn
  | raised key value rest e => exact .raised key value (rest ++ fs) e
  | returned key value old _ ih => exact .returned key value old (ih hn)

/-- Where all calls returned, there is an answer for the key of every entry. -/
theorem answers_of_none (h : MadeFor es calls none) :
    (answers calls).map Prod.fst = es.map Prod.fst ∧ calls.length = es.length ∧
      List.Forall₂ BindsAnswer (answers calls) calls := by
  generalize hn : (none : Option ε) = first at h
  induction h with
  | nil => exact ⟨rfl, rfl, .nil⟩
  | raised key value rest e => cases hn
  | returned key value old _ ih =>
    obtain ⟨hkeys, hlength, hall⟩ := ih hn
    have hanswers (calls : List (Call ε)) :
        answers (⟨key, value, .ok old⟩ :: calls) = (key, old) :: answers calls := rfl
    rw [hanswers]
    refine ⟨?_, ?_, .cons ⟨rfl, rfl⟩ hall⟩
    · rw [List.map_cons, List.map_cons, hkeys]
    · rw [List.length_cons, List.length_cons, hlength]

end MadeFor

/-- A result unless an error was raised. -/
def unlessRaised (a : α) : Option ε → Except ε α
  | none => .ok a
  | some e => .error e

/-- Writing entries makes the calls for them and gives what these gave back. -/
theorem makes_writeEntries (entry : String → Value → LogEntry) (es : List (String × Value))
    (acc : Table Value) (s : Logged σ) :
    ∃ calls error t, MadeFor es calls error ∧
      Makes (writeEntries apply entry es acc) (writeEntries (recorded apply) entry es acc) s calls
        (unlessRaised (acc.setAll (answers calls)) error) t := by
  induction es generalizing acc s with
  | nil => exact ⟨[], none, s, .nil, .pure acc s⟩
  | cons e es ih =>
    obtain ⟨key, value⟩ := e
    obtain ⟨result, t, ht⟩ := makes_apply apply key value s
    cases result with
    | error e =>
      exact ⟨_, some e, t, .raised key value es e, ht.bind_error _ _⟩
    | ok old =>
      -- The entry is logged, and the calls for the rest follow the one for this entry.
      obtain ⟨calls, error, u, hmade, hu⟩ :=
        ih (acc.set key old) ⟨t.state, t.log ++ [entry key value]⟩
      exact ⟨_, error, u, .returned key value old hmade,
        ht.bind ((makes_report [entry key value] t).bind hu)⟩

/-- The entries of a table that may be missing. -/
def entriesOf : Option (Table Value) → List (String × Value)
  | none => []
  | some t => t.entries

theorem makes_revert (old : Option (Table Value)) (s : Logged σ) :
    ∃ calls error t, MadeFor (entriesOf old) calls error ∧
      Makes (revert apply old) (revert (recorded apply) old) s calls (unlessRaised () error) t := by
  cases old with
  | none => exact ⟨[], none, s, .nil, .pure () s⟩
  | some old =>
    obtain ⟨calls, error, t, hmade, ht⟩ := makes_writeEntries apply .reverted old.entries .empty s
    refine ⟨calls, error, t, hmade, ?_⟩
    cases error with
    | some e => exact ht.bind_error _ _
    | none => exact ht.bind_pure fun _ => ()

theorem makes_applyMapping (m : Table Value) (s : Logged σ) :
    ∃ calls error t, MadeFor m.entries calls error ∧
      Makes (applyMapping apply m) (applyMapping (recorded apply) m) s calls
        (unlessRaised (if m.isEmpty then none else some (.ofList (answers calls))) error) t := by
  cases he : m.isEmpty with
  | true =>
    have hnil : m.entries = [] := by simpa [Table.isEmpty] using he
    refine ⟨[], none, s, hnil ▸ .nil, ?_⟩
    rw [applyMapping, applyMapping, he, if_pos rfl, if_pos rfl]
    exact .pure none s
  | false =>
    obtain ⟨calls, error, t, hmade, ht⟩ := makes_writeEntries apply .applied m.entries .empty s
    refine ⟨calls, error, t, hmade, ?_⟩
    rw [applyMapping, applyMapping, he, if_neg (by simp), if_neg (by simp)]
    cases error with
    | some e => exact ht.bind_error _ _
    | none => exact ht.bind_pure some

/-! ## Reading -/

/-- The mapping that a style says: that of its text, the style itself, or none. -/
def Style.reading (coercer : Coercer) : Style → Except ReadError (Option (Table Value))
  | .absent => .ok none
  | .text x => coercer.readText x.toList
  | .mapping m => .ok (some m)
  | .unsupported _ => .ok none

/-- Reading a style makes no calls. -/
theorem makes_read (coercer : Coercer) (style : Style) (s : Logged σ) :
    ∃ t, Makes (ε := ε) (style.read (ε := η) coercer) (style.read coercer) s []
      ((style.reading coercer).mapError .read) t := by
  cases style with
  | absent => exact ⟨s, .pure none s⟩
  | mapping m => exact ⟨s, .pure (some m) s⟩
  | unsupported kind => exact ⟨_, (makes_report _ s).bind (.pure none _)⟩
  | text x =>
    refine ⟨⟨s.state, s.log ++ coercer.references x.toList⟩, ?_⟩
    simp only [Style.read, Style.reading]
    cases coercer.readText x.toList with
    | ok m => exact (makes_report _ s).bind (.pure m _)
    | error e =>
      refine (makes_report _ s).bind ⟨rfl, fun before => ?_⟩
      rw [List.append_nil]
      rfl

/-! ## Styles -/

/-- The entries that a style writes; none if it cannot be read. -/
def Style.newEntries (coercer : Coercer) (style : Style) : List (String × Value) :=
  match style.reading coercer with
  | .ok m => entriesOf m
  | .error _ => []

/-- What a style comes to, after calls of which the first so many have reverted the values before.
-/
inductive StyleOutcome (coercer : Coercer) (style : Style) (reverts : Nat)
    (calls : List (Call ε)) : Option ε → Except (ApplyError ε) (Option (Table Value)) → Prop where
  /-- An error of a call is the error of the whole, whether the style can be read or not. -/
  | raised (e : ε) : StyleOutcome coercer style reverts calls (some e) (.error (.target e))
  | unreadable {e : ReadError} (h : style.reading coercer = .error e) :
      StyleOutcome coercer style reverts calls none (.error (.read e))
  | nothing {m : Option (Table Value)} (h : style.reading coercer = .ok m)
      (he : entriesOf m = []) : StyleOutcome coercer style reverts calls none (.ok none)
  /-- The keys of the style are bound to what their own calls gave back. -/
  | replaced {m old : Table Value} (h : style.reading coercer = .ok (some m))
      (he : m.entries ≠ []) (hk : old.keys = m.keys)
      (ho : List.Forall₂ BindsAnswer old.entries (calls.drop reverts)) :
      StyleOutcome coercer style reverts calls none (.ok (some old))

/-- The calls for the style come after those of the revert. -/
theorem StyleOutcome.after {coercer : Coercer} {style : Style} {reverts news : List (Call ε)}
    {error : Option ε} {result : Except (ApplyError ε) (Option (Table Value))}
    (h : StyleOutcome coercer style 0 news error result) :
    StyleOutcome coercer style reverts.length (reverts ++ news) error result := by
  cases h with
  | raised e => exact .raised e
  | unreadable h => exact .unreadable h
  | nothing h he => exact .nothing h he
  | replaced h he hk ho => exact .replaced h he hk (by rwa [List.drop_left])

theorem applyStyle_none (coercer : Coercer) (style : Style) :
    applyStyle apply coercer none style = (do
      match ← style.read coercer with
      | none => return none
      | some m => (applyMapping apply m).adaptExcept .target) := rfl

/-- The calls of a style where no others are in effect. -/
theorem makes_new (coercer : Coercer) (style : Style) (s : Logged σ) :
    ∃ calls error result t, MadeFor (style.newEntries coercer) calls error ∧
      StyleOutcome coercer style 0 calls error result ∧
      Makes (applyStyle apply coercer none style) (applyStyle (recorded apply) coercer none style)
        s calls result t := by
  obtain ⟨t, ht⟩ := makes_read (ε := ε) (η := ε) coercer style s
  rw [applyStyle_none, applyStyle_none, Style.newEntries]
  cases hm : style.reading coercer with
  | error e =>
    rw [hm] at ht
    exact ⟨[], none, .error (.read e), t, .nil, .unreadable hm, ht.bind_error _ _⟩
  | ok m =>
    rw [hm] at ht
    cases m with
    | none => exact ⟨[], none, .ok none, t, .nil, .nothing hm rfl, ht.bind (.pure none t)⟩
    | some m =>
      obtain ⟨calls, error, u, hmade, hu⟩ := makes_applyMapping apply m t
      refine ⟨calls, error, _, u, hmade, ?_, ht.bind (hu.adaptExcept ApplyError.target)⟩
      cases error with
      | some e => exact .raised e
      | none =>
        cases he : m.isEmpty with
        | true => exact .nothing hm (by simpa [Table.isEmpty, entriesOf] using he)
        | false =>
          -- The keys are distinct, so the table of the answers has just these entries.
          obtain ⟨hkeys, -, hall⟩ := hmade.answers_of_none
          have hentries : (Table.ofList (answers calls)).entries = answers calls :=
            Table.entries_ofList (by rw [hkeys]; exact m.distinct)
          refine .replaced hm (by simpa [Table.isEmpty] using he) ?_ ?_
          · rw [Table.keys, hentries, hkeys]
            rfl
          · rw [hentries]
            exact hall

/-- What a style does where others are in effect: the revert first, and then what it does where
there are none. -/
theorem applyStyle_after_revert (coercer : Coercer) (old : Option (Table Value)) (style : Style) :
    applyStyle apply coercer old style = (do
      (revert apply old).adaptExcept .target
      applyStyle apply coercer none style) := by
  funext s
  simp only [applyStyle, bind, EStateM.bind]
  cases (revert apply old).adaptExcept ApplyError.target s <;> rfl

/-- A mapping that may be missing, as a style. -/
def Style.ofMapping : Option (Table Value) → Style
  | none => .absent
  | some m => .mapping m

/-- A text does what its mapping does, after the references that it resolves have been logged. -/
theorem applyStyle_text (coercer : Coercer) (text : String) :
    applyStyle apply coercer none (.text text) = (do
      report (coercer.references text.toList)
      match coercer.readText text.toList with
      | .ok m => applyStyle apply coercer none (.ofMapping m)
      | .error e => throw (.read e)) := by
  funext s
  cases hr : coercer.readText text.toList with
  | error e =>
    simp only [applyStyle_eq, revert_none, Style.read_text, bind, EStateM.bind, report_eq, hr]
    rfl
  | ok m =>
    simp only [applyStyle_eq, revert_none, Style.read_text, bind, EStateM.bind, report_eq, hr]
    cases m <;> rfl

/-- **The calls of a style.** For every apply function and from every state, a style makes calls for
the values before it and then for its own entries, in their order and up to the first one that
raises an error; that error, the error in its text, or what its own calls gave back is what it comes
to. The revert does not depend on the style, and a text does what the mapping does that is read from
it. -/
theorem applyStyle_calls (coercer : Coercer) (old : Option (Table Value)) :
    (∀ (style : Style) (s : Logged σ), ∃ calls error result t,
      MadeFor (entriesOf old ++ style.newEntries coercer) calls error ∧
      StyleOutcome coercer style (entriesOf old).length calls error result ∧
      Makes (applyStyle apply coercer old style) (applyStyle (recorded apply) coercer old style) s
        calls result t) ∧
    (∀ style, applyStyle apply coercer old style = (do
      (revert apply old).adaptExcept .target
      applyStyle apply coercer none style)) ∧
    ∀ text, applyStyle apply coercer none (.text text) = (do
      report (coercer.references text.toList)
      match coercer.readText text.toList with
      | .ok m => applyStyle apply coercer none (.ofMapping m)
      | .error e => throw (.read e)) := by
  refine ⟨fun style s => ?_, applyStyle_after_revert apply coercer old,
    applyStyle_text apply coercer⟩
  rw [applyStyle_after_revert, applyStyle_after_revert (recorded apply)]
  obtain ⟨reverts, error, t, hreverts, ht⟩ := makes_revert apply old s
  have ht := ht.adaptExcept (ApplyError.target (ε := ε))
  cases error with
  | some e => exact ⟨reverts, some e, _, t, hreverts.append_raised _, .raised e, ht.bind_error _ _⟩
  | none =>
    -- All values before are back, and only now the style is read.
    obtain ⟨news, error, result, u, hnews, hout, hu⟩ := makes_new apply coercer style t
    obtain ⟨-, hlength, -⟩ := hreverts.answers_of_none
    exact ⟨reverts ++ news, error, result, u, hreverts.append hnews, hlength ▸ hout.after,
      ht.bind hu⟩

end Styling
