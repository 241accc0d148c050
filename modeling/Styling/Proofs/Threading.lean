import Styling.Proofs.Calls
import Styling.Target

/-!
# Old values kept and old values handed on

A styler keeps the values before its style from one update to the next. Without a styler these
values are handed on: each style is applied with the values that the one before gave back. An update
is two applications, one that reverts and one that applies, with the values dropped in between;
`Styler.update_eq` says what they come to together. From this step it follows for whole runs, up to
the first update that fails, that both ways make the same calls and come to the same
(`Styler.steps_agree_handOn`).

They part only where the run ends in an error. The values handed on are then still the ones from
before, while the styler has dropped them once all were written back (`keptOnError`).
-/

set_option autoImplicit false

namespace Styling

variable {σ ε η α : Type}

/-! ## One update -/

/-- The values that a styler still keeps after an update that failed: those from before if it was
the revert that failed. -/
def keptOnError (apply : ApplyFunction σ ε) (old : Option (Table Value)) (s : Logged σ) :
    Option (Table Value) :=
  match revert apply old s with
  | .error _ _ => old
  | .ok _ _ => none

/-- An update does what the style does after the values kept so far. -/
theorem Styler.update_eq (styler : Styler) (apply : ApplyFunction σ ε) (coercer : Coercer)
    (style : Style) (s : Logged σ) :
    styler.update apply coercer style s =
      match applyStyle apply coercer styler.oldValues style s with
      | .ok old t => (⟨old⟩, .ok () t)
      | .error e t => (⟨keptOnError apply styler.oldValues s⟩, .error e t) := by
  obtain ⟨old⟩ := styler
  cases old with
  | none => rfl
  | some old =>
    rw [applyStyle_after_revert]
    simp only [update, keptOnError, applyStyle_absent, bind, EStateM.bind, EStateM.adaptExcept]
    -- A revert that fails is the end of both; otherwise the style meets no values before it.
    cases revert apply (some old) s with
    | error e t => rfl
    | ok _ t => rfl

/-! ## Runs -/

/-- One style of a run: where it was applied, what calls that made, what it came to, and the old
values and the state afterwards. -/
structure RunStep (σ ε : Type) where
  before : Logged σ
  calls : List (Call ε)
  result : Except (ApplyError ε) Unit
  oldValues : Option (Table Value)
  after : Logged σ

/-- The calls that an action makes, taken from its run on a record. -/
def callsMade (onRecord : Action (List (Call ε) × σ) η α) (s : Logged σ) : List (Call ε) :=
  match onRecord (s.withCalls []) with
  | .ok _ t => t.state.1
  | .error _ t => t.state.1

/-- Applies styles one after the other, each with the values that the one before gave back. A style
that fails ends the run, and the values stay as they were. -/
def handOn (apply : ApplyFunction σ ε) (coercer : Coercer) :
    Option (Table Value) → Logged σ → List Style → List (RunStep σ ε)
  | _, _, [] => []
  | old, s, style :: styles =>
    let calls := callsMade (applyStyle (recorded apply) coercer old style) s
    match applyStyle apply coercer old style s with
    | .ok next t => ⟨s, calls, .ok (), next, t⟩ :: handOn apply coercer next t styles
    | .error e t => [⟨s, calls, .error e, old, t⟩]

/-- Updates a styler with styles one after the other. An update that fails ends the run. -/
def Styler.steps (apply : ApplyFunction σ ε) (coercer : Coercer) :
    Styler → Logged σ → List Style → List (RunStep σ ε)
  | _, _, [] => []
  | styler, s, style :: styles =>
    let calls := callsMade (fun r => (styler.update (recorded apply) coercer style r).2) s
    match styler.update apply coercer style s with
    | (next, .ok () t) =>
      ⟨s, calls, .ok (), next.oldValues, t⟩ :: Styler.steps apply coercer next t styles
    | (next, .error e t) => [⟨s, calls, .error e, next.oldValues, t⟩]

/-- An update and a style with values handed on make the same calls and come to the same. The old
values are equal after a step that returns. After one that fails, those handed on are from before
it, and the styler has what is kept of them. -/
structure RunStep.Agrees (apply : ApplyFunction σ ε) (updated handed : RunStep σ ε) : Prop where
  before : updated.before = handed.before
  calls : updated.calls = handed.calls
  result : updated.result = handed.result
  after : updated.after = handed.after
  returned : handed.result = .ok () → updated.oldValues = handed.oldValues
  failed : ∀ e, handed.result = .error e →
    updated.oldValues = keptOnError apply handed.oldValues handed.before

/-- An update makes the calls of the style after the values kept so far. -/
theorem Styler.callsMade_update (styler : Styler) (apply : ApplyFunction σ ε) (coercer : Coercer)
    (style : Style) (s : Logged σ) :
    callsMade (fun r => (styler.update (recorded apply) coercer style r).2) s =
      callsMade (applyStyle (recorded apply) coercer styler.oldValues style) s := by
  simp only [callsMade, Styler.update_eq]
  cases applyStyle (recorded apply) coercer styler.oldValues style (s.withCalls []) <;> rfl

/-- A styler that keeps some values agrees with these values handed on. -/
theorem Styler.steps_agree (apply : ApplyFunction σ ε) (coercer : Coercer) (styler : Styler)
    (s : Logged σ) (styles : List Style) :
    List.Forall₂ (RunStep.Agrees apply) (styler.steps apply coercer s styles)
      (handOn apply coercer styler.oldValues s styles) := by
  induction styles generalizing styler s with
  | nil => exact .nil
  | cons style styles ih =>
    rw [steps, handOn, callsMade_update, update_eq]
    cases applyStyle apply coercer styler.oldValues style s with
    | ok old t =>
      refine .cons ⟨rfl, rfl, rfl, rfl, fun _ => rfl, fun e he => ?_⟩ (ih ⟨old⟩ t)
      cases he
    | error e t =>
      refine .cons ⟨rfl, rfl, rfl, rfl, fun h => ?_, fun _ _ => rfl⟩ .nil
      cases h

/-- **A styler does what handing the old values on does.** For every apply function, every state and
all styles, a new styler that is updated with the styles, and the styles applied with the old values
handed on from none, take the same steps up to the first one that fails: the same calls with the same
results, the same state and log, the same error. The old values are equal after every step that
returns. After the one that fails, the values handed on are those from before it; the styler has the
same ones if the revert failed, and none if the revert was complete. -/
theorem Styler.steps_agree_handOn (apply : ApplyFunction σ ε) (coercer : Coercer) (s : Logged σ)
    (styles : List Style) :
    List.Forall₂ (RunStep.Agrees apply) (Styler.new.steps apply coercer s styles)
      (handOn apply coercer none s styles) :=
  Styler.steps_agree apply coercer .new s styles

/-- After an update that has reverted the style before and then fails, the values handed on are
those from before it and the styler has none. -/
theorem Styler.not_oldValues_eq_handOn :
    ¬∀ (σ ε : Type) (apply : ApplyFunction σ ε) (coercer : Coercer) (s : Logged σ)
      (styles : List Style),
      (Styler.new.steps apply coercer s styles).map RunStep.oldValues =
        (handOn apply coercer none s styles).map RunStep.oldValues := by
  intro hall
  let start : Logged Recorder :=
    ⟨⟨.ofList [("arc", .whole 1)], .ofList [("gap", .style (.unknownKey "gap"))], []⟩, []⟩
  let styles : List Style :=
    [.mapping (.ofList [("arc", .whole 8)]), .mapping (.ofList [("gap", .whole 2)])]
  have h := congrArg (List.map Option.isSome)
    (hall Recorder Refusal Recorder.apply .standard start styles)
  exact absurd h (by decide +kernel)

end Styling
