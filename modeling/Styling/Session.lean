import Styling.Clone
import Styling.Target

/-!
# Sessions

A session is a scene whose objects have names, with a styler on one of its targets. It is changed
step by step. A step that fails leaves what it had changed before it failed, and the session goes
on.
-/

namespace Styling

/-- A style as a step gives it: itself, or as what is attached to an object. -/
inductive StyleSource where
  | given (style : Style)
  | attached (object : String)

/-- The values before a style, as a step gives them. -/
inductive OldValues where
  | given (old : Option (Table Value))
  /-- What the last application of a style that succeeded has given back. -/
  | last

/-- A target by the names of its objects. -/
inductive TargetName where
  | recorder
  | objects (names : List String)

inductive Step where
  | update (style : StyleSource)
  | reset
  /-- Writes to a copy of the values that the styler keeps. -/
  | writeToCopy (key : String) (value : Value)
  | apply (target : TargetName) (style : StyleSource) (old : OldValues)
  /-- Writes to one object, with the settings of the session or with others. -/
  | assign (object key : String) (value : Value) (settings : Option Settings)
  | assignFirst (target : TargetName) (key : String) (value : Value)
  | refuse (refusals : Table Refusal)
  | setAttribute (object name : String) (value : Value)
  | attachedStyle (object : String)
  | slots (object : String) (settings : Option Settings)
  | clone (object copy : String)

/-- What a step gives back. -/
inductive Outcome where
  | done
  | value (v : Value)
  | oldValues (old : Option (Table Value))
  | names (names : List String)

/-- Why a step fails. -/
inductive StepError where
  | read (e : ReadError)
  | target (e : TargetError)
  | badAttribute (e : AttributeError)
  | source (e : SourceError)
  | clone (e : CloneError)
  | unknownObject (name : String)

def ApplyError.toStepError : ApplyError TargetError → StepError
  | .read e => .read e
  | .target e => .target e

structure Session where
  coercer : Coercer
  /-- The places of the objects. -/
  names : Table Nat
  scene : Scene
  styler : Option (Target × Styler)
  lastOld : Option (Table Value)

namespace Session

/-! ## Names -/

/-- The place of an object. -/
def place (session : Session) (name : String) : Except StepError Nat :=
  match session.names.get? name with
  | some place => .ok place
  | none => .error (.unknownObject name)

def object (session : Session) (name : String) : Except StepError Instance :=
  match session.place name with
  | .error e => .error e
  | .ok place =>
    match session.scene.workspace.objects[place]? with
    | some o => .ok o
    | none => .error (.unknownObject name)

def target (session : Session) : TargetName → Except StepError Target
  | .recorder => .ok .recorder
  | .objects names => (names.mapM session.place).map .objects

/-- The style attached to an object; null if there is none. -/
def attachedStyle (session : Session) (name : String) : Except StepError Value :=
  (session.object name).map fun o =>
    (session.scene.workspace.classes.attribute? o "style").getD .null

def style (session : Session) : StyleSource → Except StepError Style
  | .given style => .ok style
  | .attached name => (session.attachedStyle name).map Style.ofValue

def oldValues (session : Session) : OldValues → Option (Table Value)
  | .given old => old
  | .last => session.lastOld

/-! ## Steps -/

/-- What a step comes to: the session after it, what it logs, and its outcome. -/
abbrev Stepped := Session × List LogEntry × Except StepError Outcome

/-- Performs an action on the scene. -/
def perform {ε α : Type} (session : Session) (action : Action Scene ε α) :
    Session × List LogEntry × Except ε α :=
  match action ⟨session.scene, []⟩ with
  | .ok a s => ({ session with scene := s.state }, s.log, .ok a)
  | .error e s => ({ session with scene := s.state }, s.log, .error e)

/-- A step that is one action on the scene. -/
def performStep {ε α : Type} (session : Session) (fault : ε → StepError) (outcome : α → Outcome)
    (action : Action Scene ε α) : Stepped :=
  match session.perform action with
  | (session, log, .ok a) => (session, log, .ok (outcome a))
  | (session, log, .error e) => (session, log, .error (fault e))

/-- Replaces the style of the styler, if there is one. -/
def updateStyler (session : Session) (style : Style) : Stepped :=
  match session.styler with
  | none => (session, [], .ok .done)
  | some (target, styler) =>
    match styler.update (target.apply session.coercer.settings) session.coercer style
        ⟨session.scene, []⟩ with
    | (styler, .ok _ s) =>
      ({ session with scene := s.state, styler := some (target, styler) }, s.log, .ok .done)
    | (styler, .error e s) =>
      ({ session with scene := s.state, styler := some (target, styler) }, s.log,
        .error e.toStepError)

/-- Applies a style to a target, and keeps the values before it for later steps. -/
def applyTo (session : Session) (target : Target) (style : Style) (old : Option (Table Value)) :
    Stepped :=
  match session.perform
      (applyStyle (target.apply session.coercer.settings) session.coercer old style) with
  | (session, log, .ok old) => ({ session with lastOld := old }, log, .ok (.oldValues old))
  | (session, log, .error e) => (session, log, .error e.toStepError)

/-- Sets an attribute of an object. -/
def setAttribute (session : Session) (place : Nat) (o : Instance) (name : String)
    (value : Value) : Stepped :=
  let workspace := session.scene.workspace
  match workspace.classes.setAttribute o name value with
  | .error e => (session, [], .error (.badAttribute e))
  | .ok o =>
    ({ session with scene := { session.scene with
        workspace := { workspace with objects := workspace.objects.set place o } } },
      [], .ok .done)

/-- Adds a fresh copy of an object under a name. -/
def clone (session : Session) (o : Instance) (copy : String) : Stepped :=
  let workspace := session.scene.workspace
  match (workspace.classes.prototype o).fresh with
  | .error e => (session, [], .error (.clone e))
  | .ok o =>
    ({ session with
        names := session.names.set copy workspace.objects.length
        scene := { session.scene with
          workspace := { workspace with objects := workspace.objects ++ [o] } } },
      [], .ok (.value (.text (workspace.classes.nameOf (.declared o.index)))))

/-- The slots of the class of an object, by name. -/
def slots (session : Session) (o : Instance) (settings : Settings) : Stepped :=
  session.performStep .source (fun slots => .names slots.keys)
    (onWorkspace (Workspace.slots settings o.index))

/-- A step that needs something found by name. -/
def withFound {α : Type} (session : Session) (found : Except StepError α) (f : α → Stepped) :
    Stepped :=
  match found with
  | .ok a => f a
  | .error e => (session, [], .error e)

/-- Forgets the calls that the recorder has taken so far. -/
def forgetCalls (session : Session) : Session :=
  { session with scene := { session.scene with
      recorder := { session.scene.recorder with calls := [] } } }

/-- One step. The calls of the recorder afterwards are those of this step. -/
def step (before : Session) (step : Step) : Stepped :=
  let session := before.forgetCalls
  match step with
  | .update source => session.withFound (session.style source) session.updateStyler
  | .reset => session.updateStyler .absent
  | .writeToCopy _ _ => (session, [], .ok .done)
  | .apply name source old =>
    session.withFound (session.target name) fun target =>
      session.withFound (session.style source) fun style =>
        session.applyTo target style (session.oldValues old)
  | .assign name key value settings =>
    session.withFound (session.place name) fun place =>
      session.performStep (fun e => .target (.object e)) .value
        (onWorkspace
          (Workspace.assign (settings.getD session.coercer.settings) place key value))
  | .assignFirst name key value =>
    session.withFound (session.target name) fun target =>
      session.performStep .target .value (target.apply session.coercer.settings key value)
  | .refuse refusals =>
    ({ session with scene := { session.scene with
        recorder := { session.scene.recorder with refusals := refusals } } }, [], .ok .done)
  | .setAttribute name attributeName value =>
    session.withFound (session.place name) fun place =>
      session.withFound (session.object name) fun o =>
        session.setAttribute place o attributeName value
  | .attachedStyle name =>
    (session, [], (session.attachedStyle name).map .value)
  | .slots name settings =>
    session.withFound (session.object name) fun o =>
      session.slots o (settings.getD session.coercer.settings)
  | .clone name copy =>
    session.withFound (session.object name) fun o => session.clone o copy

/-! ## Start -/

/-- New instances of the classes of some names. -/
def newObjects (classes : Classes) : List String → Except StepError (List Instance)
  | [] => .ok []
  | name :: names =>
    match classes.resolve? name with
    | some (.declared index) =>
      match classes.newInstance index with
      | .error e => .error (.badAttribute e)
      | .ok o => (newObjects classes names).map (o :: ·)
    | _ => .error (.unknownObject name)

/-- A session with new objects, given by their names and their classes. -/
def start (coercer : Coercer) (classes : Classes) (objects : List (String × String))
    (recorded : Table Value) (styled : Option TargetName) : Except StepError Session :=
  match newObjects classes (objects.map Prod.snd) with
  | .error e => .error e
  | .ok instances =>
    let session : Session :=
      { coercer := coercer
        names := Table.ofList ((objects.map Prod.fst).zipIdx)
        scene := ⟨⟨classes, instances, []⟩, ⟨recorded, .empty, []⟩⟩
        styler := none
        lastOld := none }
    match styled with
    | none => .ok session
    | some name =>
      (session.target name).map fun target =>
        { session with styler := some (target, .new) }

end Session

end Styling
