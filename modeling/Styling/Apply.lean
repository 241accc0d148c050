import Styling.Statement

/-!
# Applying styles

A style is applied through an apply function, which performs one change and gives back the value
that was in effect before. The values before are kept and written back when the style is replaced:
`applyStyle` first reverts, then applies, and a `Styler` keeps the values between updates.

An apply function acts on a state of any type and can stop with an error of any type; the state
and the log survive the error.
-/

namespace Styling

open Styling.Text

/-- A state with the log of what was done to it, oldest entry first. -/
structure Logged (σ : Type) where
  state : σ
  log : List LogEntry

/-- A step that changes a logged state and gives a result or an error. -/
abbrev Action (σ ε α : Type) := EStateM ε (Logged σ) α

/-- Performs the change of one key and gives back the value before. -/
abbrev ApplyFunction (σ ε : Type) := String → Value → Action σ ε Value

variable {σ ε : Type}

/-- Adds entries to the log. -/
def report (entries : List LogEntry) : Action σ ε Unit :=
  modify fun s => { s with log := s.log ++ entries }

/-- A style as it can be given: none, a text, a mapping, or something of another kind. -/
inductive Style where
  | absent
  | text (s : String)
  | mapping (m : Table Value)
  | unsupported (kind : Kind)

/-- A value as a style. -/
def Style.ofValue : Value → Style
  | .null => .absent
  | .text s => .text s
  | .dict entries => .mapping (Value.tableOf entries)
  | v => .unsupported v.kind

/-- Why a style was not applied to its end: its text cannot be read, or the target refused. -/
inductive ApplyError (ε : Type) where
  | read (e : ReadError)
  | target (e : ε)

/-- Writes entries one after the other, and binds each key to the value before its write. -/
def writeEntries (apply : ApplyFunction σ ε) (entry : String → Value → LogEntry) :
    List (String × Value) → Table Value → Action σ ε (Table Value)
  | [], old => pure old
  | (key, value) :: rest, old => do
    let previous ← apply key value
    -- A write that is refused is not logged.
    report [entry key value]
    writeEntries apply entry rest (old.set key previous)

/-- Writes the values before a style back. -/
def revert (apply : ApplyFunction σ ε) (old : Option (Table Value)) : Action σ ε Unit :=
  match old with
  | none => pure ()
  | some old => do
    let _ ← writeEntries apply .reverted old.entries .empty

/-- Applies a mapping. There are no values before an empty one. -/
def applyMapping (apply : ApplyFunction σ ε) (style : Table Value) :
    Action σ ε (Option (Table Value)) :=
  if style.isEmpty then pure none
  else do return some (← writeEntries apply .applied style.entries .empty)

/-- The mapping of a style; none for a style that says nothing. -/
def Style.read (coercer : Coercer) (style : Style) :
    Action σ (ApplyError ε) (Option (Table Value)) :=
  match style with
  | .absent => pure none
  | .mapping m => pure (some m)
  | .unsupported kind => do
    report [.ignored kind.name]
    return none
  | .text s => do
    report (coercer.references s.toList)
    match coercer.readText s.toList with
    | .ok style => return style
    | .error e => throw (.read e)

/-- Reverts old values, then applies a style. The revert is complete before the style is read, so
that it does not depend on what the style is. The result has the values before the style. -/
def applyStyle (apply : ApplyFunction σ ε) (coercer : Coercer) (old : Option (Table Value))
    (style : Style) : Action σ (ApplyError ε) (Option (Table Value)) := do
  (revert apply old).adaptExcept .target
  match ← style.read coercer with
  | none => return none
  | some m => (applyMapping apply m).adaptExcept .target

/-! ## Stylers -/

/-- Keeps the values before the current style; none while no style is applied. -/
structure Styler where
  oldValues : Option (Table Value)

def Styler.new : Styler := ⟨none⟩

/-- Applies a style where none is in effect. The values before are kept only if it was applied to
its end. -/
def Styler.applyNew (apply : ApplyFunction σ ε) (coercer : Coercer) (style : Style)
    (s : Logged σ) : Styler × EStateM.Result (ApplyError ε) (Logged σ) Unit :=
  match applyStyle apply coercer none style s with
  | .ok old s => (⟨old⟩, .ok () s)
  | .error e s => (⟨none⟩, .error e s)

/-- Replaces the current style. The old values are kept until all of them have been written back,
so that a revert that was refused can be tried again. -/
def Styler.update (styler : Styler) (apply : ApplyFunction σ ε) (coercer : Coercer)
    (style : Style) (s : Logged σ) :
    Styler × EStateM.Result (ApplyError ε) (Logged σ) Unit :=
  match styler.oldValues with
  | none => Styler.applyNew apply coercer style s
  | some old =>
    match applyStyle apply coercer (some old) .absent s with
    -- The old values stay whole: the next try writes them all again.
    | .error e s => (styler, .error e s)
    | .ok _ s => Styler.applyNew apply coercer style s

/-- Reverts the current style. -/
def Styler.reset (styler : Styler) (apply : ApplyFunction σ ε) (coercer : Coercer)
    (s : Logged σ) : Styler × EStateM.Result (ApplyError ε) (Logged σ) Unit :=
  styler.update apply coercer .absent s

end Styling
