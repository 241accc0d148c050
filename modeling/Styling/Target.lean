import Styling.Apply
import Styling.Object

/-!
# Targets

What styles are applied to: objects with slots, one after the other until one of them owns the
key, or a recorder, a keyed store that can be told to refuse keys. A scene has both.
-/

namespace Styling

/-! ## Objects -/

/-- The objects, by their places, with their classes and the registry of slots. -/
structure Workspace where
  classes : Classes
  objects : List Instance
  registry : Registry

/-- The slots of the class of an object. The collection is logged, and kept if it succeeds. -/
def Workspace.slots (settings : Settings) (index : Nat) :
    Action Workspace SourceError (Table Slot) := fun s =>
  let (registry, log, result) := s.state.registry.slots s.state.classes settings index
  let s : Logged Workspace := ⟨{ s.state with registry := registry }, s.log ++ log⟩
  match result with
  | .ok slots => .ok slots s
  | .error e => .error e s

/-- Writes a value to an object, for a key, and gives back the value before. -/
def Workspace.assign (settings : Settings) (place : Nat) : ApplyFunction Workspace AssignError :=
  fun key value => do
    match (← get).state.objects[place]? with
    | none => throw (.unknownKey key)
    | some o =>
      -- The slots are collected before the write and stay so if it is refused.
      let slots ← (Workspace.slots settings o.index).adaptExcept .source
      match (← get).state.classes.write slots settings.checkTypes o key value with
      | .error e => throw e
      | .ok w =>
        modify fun s =>
          { s with state := { s.state with objects := s.state.objects.set place w.object } }
        report [.assigned w.slot.qualifiedName value w.old]
        return w.old

/-- Writes a value to the first of some objects that has a slot for the key. -/
def Workspace.assignFirst (settings : Settings) : List Nat → ApplyFunction Workspace AssignError
  | [], key, _ => throw (.unknownKey key)
  | place :: places, key, value => fun s =>
    match Workspace.assign settings place key value s with
    -- Only an unknown key is passed on; every other refusal is final.
    | .error (.unknownKey _) s => Workspace.assignFirst settings places key value s
    | r => r

/-! ## Recorders -/

/-- How a recorder refuses a key. -/
inductive Refusal where
  | style (e : StyleError)
  /-- The key is reported as missing. -/
  | missing (name : String)

def Refusal.message : Refusal → String
  | .style e => e.message
  | .missing name => Text.quotedString name

/-- A keyed store that records the writes to it. -/
structure Recorder where
  values : Table Value
  refusals : Table Refusal
  /-- The writes that were not refused, oldest first. -/
  calls : List (String × Value)

/-- Writes to a recorder: a refused key changes nothing, any other gets the value, and the value
before is null if there was none. -/
def Recorder.apply : ApplyFunction Recorder Refusal := fun key value s =>
  match s.state.refusals.get? key with
  | some refusal => .error refusal s
  | none =>
    .ok ((s.state.values.get? key).getD .null)
      { s with state :=
        { s.state with
          values := s.state.values.set key value
          calls := s.state.calls ++ [(key, value)] } }

/-! ## Scenes -/

/-- An action on a part of a state. -/
def onPart {σ τ ε α : Type} (part : σ → τ) (replace : τ → σ → σ) (action : Action τ ε α) :
    Action σ ε α := fun s =>
  match action ⟨part s.state, s.log⟩ with
  | .ok a t => .ok a ⟨replace t.state s.state, t.log⟩
  | .error e t => .error e ⟨replace t.state s.state, t.log⟩

/-- The objects and the recorder that styles can be applied to. -/
structure Scene where
  workspace : Workspace
  recorder : Recorder

def onWorkspace {ε α : Type} (action : Action Workspace ε α) : Action Scene ε α :=
  onPart Scene.workspace (fun w s => { s with workspace := w }) action

def onRecorder {ε α : Type} (action : Action Recorder ε α) : Action Scene ε α :=
  onPart Scene.recorder (fun r s => { s with recorder := r }) action

/-- What a style is applied to. -/
inductive Target where
  | recorder
  /-- The objects at some places, tried in this order. -/
  | objects (places : List Nat)

inductive TargetError where
  | object (e : AssignError)
  | recorder (e : Refusal)

/-- The apply function of a target. -/
def Target.apply (settings : Settings) : Target → ApplyFunction Scene TargetError
  | .recorder, key, value => (onRecorder (Recorder.apply key value)).adaptExcept .recorder
  | .objects places, key, value =>
    (onWorkspace (Workspace.assignFirst settings places key value)).adaptExcept .object

end Styling
