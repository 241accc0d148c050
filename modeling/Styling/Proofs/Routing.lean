import Styling.Proofs.Registry
import Styling.Target

/-!
# Where a key leads

A key leads to the first of some objects that has a slot for it. Which one that is depends on the
classes of the objects only (`Classes.route`), and with a sound registry a chain of objects does
exactly what the route says (`Workspace.assignFirst_spec`): one attribute of one object is set, or
nothing changes. `Classes.put_ok` says all that a write that succeeds can have done, and
`Classes.put_error` for which reasons a write can fail.
-/

set_option autoImplicit false

namespace Styling

/-! ## Writing to a known slot -/

/-- Writes a value for a key to a slot. -/
def Classes.put (cs : Classes) (checkTypes : Bool) (slot : Slot) (o : Instance) (key : String)
    (value : Value) : Except AssignError Written :=
  if slot.readOnly then .error (.readOnly slot.qualifiedName key)
  else if checkTypes && !slot.hint.accepts value then
    if value.isWritable then .error (.unfit slot.qualifiedName key value)
    else .error (.digits .writing)
  else
    match cs.attribute? o slot.name with
    | none => .error (.badAttribute (.missing (cs.nameOf (.declared o.index)) slot.name))
    | some old =>
      match cs.setAttribute o slot.name value with
      | .error e => .error (.badAttribute e)
      | .ok object => .ok ⟨old, object, slot⟩

theorem Classes.write_of_slot {slots : Table Slot} {key : String} {slot : Slot}
    (h : slots.get? key = some slot) (cs : Classes) (checkTypes : Bool) (o : Instance)
    (value : Value) :
    cs.write slots checkTypes o key value = cs.put checkTypes slot o key value := by
  simp only [Classes.write, h]
  rfl

/-- The attribute of an instance can be assigned: no frozen class stands against it. -/
def Classes.isAssignable (cs : Classes) (o : Instance) (name : String) : Bool :=
  !(cs.lookupClasses o).any (Classes.refuses o name)

theorem Classes.setAttribute_eq (cs : Classes) (o : Instance) (name : String) (value : Value) :
    cs.setAttribute o name value =
      if cs.isAssignable o name then .ok ⟨o.index, o.attributes.set name value⟩
      else .error (.frozen name) := by
  unfold Classes.setAttribute Classes.isAssignable
  cases (cs.lookupClasses o).any (Classes.refuses o name) <;> rfl

/-- All that holds of a write that succeeds, and all that is needed for one. -/
theorem Classes.put_ok {cs : Classes} {checkTypes : Bool} {slot : Slot} {o : Instance}
    {key : String} {value : Value} {w : Written} :
    cs.put checkTypes slot o key value = .ok w ↔
      slot.readOnly = false ∧ (checkTypes = true → slot.hint.accepts value = true) ∧
        cs.isAssignable o slot.name = true ∧ cs.attribute? o slot.name = some w.old ∧
        w.object = ⟨o.index, o.attributes.set slot.name value⟩ ∧ w.slot = slot := by
  obtain ⟨old, object, written⟩ := w
  rw [Classes.put, Classes.setAttribute_eq]
  constructor
  · -- The checks in the order in which they are made: each of them has been passed.
    intro h
    cases hr : slot.readOnly with
    | true => simp [hr] at h
    | false =>
      simp only [hr, Bool.false_eq_true, if_false] at h
      split at h
      · split at h <;> cases h
      · next hfit =>
        cases ha : cs.attribute? o slot.name with
        | none => simp [ha] at h
        | some before =>
          cases hs : cs.isAssignable o slot.name with
          | false => simp [ha, hs] at h
          | true =>
            simp only [ha, hs, if_true, Except.ok.injEq, Written.mk.injEq] at h
            obtain ⟨rfl, rfl, rfl⟩ := h
            refine ⟨rfl, fun hc => ?_, rfl, rfl, rfl, rfl⟩
            simpa [hc] using hfit
  · rintro ⟨hr, hfit, hs, ha, ho, hw⟩
    simp only at ha ho hw
    subst ho hw
    -- Where types are not checked the hint is not asked.
    have hfit' : (checkTypes && !written.hint.accepts value) = false := by
      cases checkTypes with
      | false => rfl
      | true => simp [hfit rfl]
    simp [hr, hfit', hs, ha]

/-- The value passes the type check of the slot, if there is one. -/
def Slot.Admits (slot : Slot) (settings : Settings) (value : Value) : Prop :=
  settings.checkTypes = true → slot.hint.accepts value = true

theorem Slot.not_admits_iff {slot : Slot} {settings : Settings} {value : Value} :
    ¬ slot.Admits settings value ↔
      settings.checkTypes = true ∧ slot.hint.accepts value = false := by
  simp [Admits]

/-- Why a slot refuses a value for its key: the first of the checks that the value does not pass, in
their order. -/
inductive Refused (cs : Classes) (checkTypes : Bool) (slot : Slot) (o : Instance) (key : String)
    (value : Value) : AssignError → Prop where
  | readOnly (h : slot.readOnly = true) :
    Refused cs checkTypes slot o key value (.readOnly slot.qualifiedName key)
  | unfit (hr : slot.readOnly = false) (hc : checkTypes = true)
    (hf : slot.hint.accepts value = false) (hw : value.isWritable = true) :
    Refused cs checkTypes slot o key value (.unfit slot.qualifiedName key value)
  /-- The value does not fit, and the message that says so cannot show it. -/
  | unshown (hr : slot.readOnly = false) (hc : checkTypes = true)
    (hf : slot.hint.accepts value = false) (hw : value.isWritable = false) :
    Refused cs checkTypes slot o key value (.digits .writing)
  | missing (hr : slot.readOnly = false) (hf : checkTypes = true → slot.hint.accepts value = true)
    (ha : cs.attribute? o slot.name = none) :
    Refused cs checkTypes slot o key value
      (.badAttribute (.missing (cs.nameOf (.declared o.index)) slot.name))
  | frozen (hr : slot.readOnly = false) (hf : checkTypes = true → slot.hint.accepts value = true)
    (ha : (cs.attribute? o slot.name).isSome = true) (hs : cs.isAssignable o slot.name = false) :
    Refused cs checkTypes slot o key value (.badAttribute (.frozen slot.name))

/-- A write fails for the reason that the slot has, and for no other. -/
theorem Classes.put_error {cs : Classes} {checkTypes : Bool} {slot : Slot} {o : Instance}
    {key : String} {value : Value} {e : AssignError} :
    cs.put checkTypes slot o key value = .error e ↔
      Refused cs checkTypes slot o key value e := by
  rw [Classes.put, Classes.setAttribute_eq]
  constructor
  · intro h
    cases hr : slot.readOnly with
    | true =>
      simp only [hr, if_true, Except.error.injEq] at h
      exact h ▸ .readOnly hr
    | false =>
      simp only [hr, Bool.false_eq_true, if_false] at h
      split at h
      · next hfit =>
        simp only [Bool.and_eq_true, Bool.not_eq_true'] at hfit
        cases hw : value.isWritable with
        | true =>
          simp only [hw, if_true, Except.error.injEq] at h
          exact h ▸ .unfit hr hfit.1 hfit.2 hw
        | false =>
          simp only [hw, Bool.false_eq_true, if_false, Except.error.injEq] at h
          exact h ▸ .unshown hr hfit.1 hfit.2 hw
      · next hfit =>
        have hfit' : checkTypes = true → slot.hint.accepts value = true := by
          intro hc
          simpa [hc] using hfit
        cases ha : cs.attribute? o slot.name with
        | none =>
          simp only [ha, Except.error.injEq] at h
          exact h ▸ .missing hr hfit' ha
        | some before =>
          cases hs : cs.isAssignable o slot.name with
          | true => simp [ha, hs] at h
          | false =>
            simp only [ha, hs, Bool.false_eq_true, if_false, Except.error.injEq] at h
            exact h ▸ .frozen hr hfit' (by rw [ha]; rfl) hs
  · intro h
    -- Where types are not checked the hint is not asked.
    have pass (hf : checkTypes = true → slot.hint.accepts value = true) :
        (checkTypes && !slot.hint.accepts value) = false := by
      cases checkTypes with
      | false => rfl
      | true => simp [hf rfl]
    cases h with
    | readOnly h => simp [h]
    | unfit hr hc hf hw => simp [hr, hc, hf, hw]
    | unshown hr hc hf hw => simp [hr, hc, hf, hw]
    | missing hr hf ha => simp [hr, pass hf, ha]
    | frozen hr hf ha hs =>
      obtain ⟨old, hold⟩ := Option.isSome_iff_exists.1 ha
      simp [hr, pass hf, hold, hs]

/-- A slot refuses an assignment for reasons of its own, never for the key being unknown. -/
theorem Classes.put_ne_unknownKey {cs : Classes} {checkTypes : Bool} {slot : Slot} {o : Instance}
    {key key' : String} {value : Value} :
    cs.put checkTypes slot o key value ≠ .error (.unknownKey key') := by
  intro h
  cases Classes.put_error.1 h

/-! ## Routes -/

/-- The first of some places whose object has a slot for a key, with that slot. The objects are
given by their classes. Slots are collected up to there, which can fail. -/
def Classes.route (cs : Classes) (settings : Settings) (indices : List Nat) (key : String) :
    List Nat → Except SourceError (Option (Nat × Slot))
  | [] => .ok none
  | place :: places =>
    match indices[place]? with
    | none => cs.route settings indices key places
    | some index =>
      match cs.slotsOf settings index with
      | .error e => .error e
      | .ok slots =>
        match slots.get? key with
        | some slot => .ok (some (place, slot))
        | none => cs.route settings indices key places

/-- A route leads to one of the places, and to a slot of the class of the object there. -/
theorem Classes.route_some {cs : Classes} {settings : Settings} {indices : List Nat}
    {key : String} {places : List Nat} {place : Nat} {slot : Slot}
    (h : cs.route settings indices key places = .ok (some (place, slot))) :
    place ∈ places ∧ ∃ index slots, indices[place]? = some index ∧
      cs.slotsOf settings index = .ok slots ∧ slots.get? key = some slot := by
  induction places with
  | nil => cases h
  | cons first places ih =>
    -- The first place is passed when its object is missing or has no slot for the key.
    have later (hl : cs.route settings indices key places = .ok (some (place, slot))) :
        place ∈ first :: places ∧ ∃ index slots, indices[place]? = some index ∧
          cs.slotsOf settings index = .ok slots ∧ slots.get? key = some slot :=
      ⟨List.mem_cons_of_mem _ (ih hl).1, (ih hl).2⟩
    simp only [Classes.route] at h
    cases hi : indices[first]? with
    | none =>
      simp only [hi] at h
      exact later h
    | some index =>
      cases hs : cs.slotsOf settings index with
      | error e => simp [hi, hs] at h
      | ok slots =>
        cases hk : slots.get? key with
        | none =>
          simp only [hi, hs, hk] at h
          exact later h
        | some found =>
          simp only [hi, hs, hk, Except.ok.injEq, Option.some.injEq, Prod.mk.injEq] at h
          obtain ⟨rfl, rfl⟩ := h
          exact ⟨List.mem_cons_self, index, slots, hi, hs, hk⟩

/-- A route is found out, whether it leads anywhere or not, where the slots of all objects can be
collected. -/
theorem Classes.exists_route {cs : Classes} {settings : Settings} {indices : List Nat}
    {places : List Nat}
    (h : ∀ place ∈ places, ∀ index, indices[place]? = some index →
      ∃ slots, cs.slotsOf settings index = .ok slots) (key : String) :
    ∃ target, cs.route settings indices key places = .ok target := by
  induction places with
  | nil => exact ⟨none, rfl⟩
  | cons first places ih =>
    have later := ih fun place hp => h place (List.mem_cons_of_mem _ hp)
    simp only [Classes.route]
    cases hi : indices[first]? with
    | none => exact later
    | some index =>
      obtain ⟨slots, hs⟩ := h first List.mem_cons_self index hi
      simp only [hs]
      cases slots.get? key with
      | none => exact later
      | some slot => exact ⟨some (first, slot), rfl⟩

theorem Classes.route_name {cs : Classes} {settings : Settings} {indices : List Nat}
    {key : String} {places : List Nat} {place : Nat} {slot : Slot}
    (h : cs.route settings indices key places = .ok (some (place, slot))) : slot.name = key := by
  obtain ⟨-, index, slots, -, hs, hk⟩ := Classes.route_some h
  exact Classes.slotsOf_name hs hk

/-! ## Chains of objects -/

namespace Workspace

/-- The classes of the objects, by their places. -/
def indices (w : Workspace) : List Nat := w.objects.map Instance.index

theorem indices_of_object {w : Workspace} {place : Nat} {o : Instance}
    (h : w.objects[place]? = some o) : w.indices[place]? = some o.index := by
  simp [indices, h]

/-- The value of an attribute of the object at a place. -/
def attributeAt (w : Workspace) (place : Nat) (name : String) : Option Value :=
  w.objects[place]?.bind fun o => w.classes.attribute? o name

/-- What writing a value to the first object with a slot for a key gives: the value before, and the
objects after. -/
def setFirst (w : Workspace) (settings : Settings) (places : List Nat) (key : String)
    (value : Value) : Except AssignError (Value × List Instance) :=
  match w.classes.route settings w.indices key places with
  | .error e => .error (.source e)
  | .ok none => .error (.unknownKey key)
  | .ok (some (place, slot)) =>
    match w.objects[place]? with
    | none => .error (.unknownKey key)
    | some o =>
      match w.classes.put settings.checkTypes slot o key value with
      | .error e => .error e
      | .ok written => .ok (written.old, w.objects.set place written.object)

/-- The action comes to a result that is known without the log and the registry: it fails and
leaves the objects, or gives a value and other objects. The registry stays sound. -/
def ComesTo (action : Action Workspace AssignError Value) (s : Logged Workspace)
    (result : Except AssignError (Value × List Instance)) : Prop :=
  ∃ t, t.state.classes = s.state.classes ∧ t.state.registry.Sound t.state.classes ∧
    match result with
    | .error e => action s = .error e t ∧ t.state.objects = s.state.objects
    | .ok (old, objects) => action s = .ok old t ∧ t.state.objects = objects

theorem slots_spec {s : Logged Workspace} (hs : s.state.registry.Sound s.state.classes)
    (settings : Settings) (index : Nat) :
    ∃ t, t.state.classes = s.state.classes ∧ t.state.registry.Sound t.state.classes ∧
      t.state.objects = s.state.objects ∧
      Workspace.slots settings index s =
        match s.state.classes.slotsOf settings index with
        | .ok slots => .ok slots t
        | .error e => .error e t := by
  -- Kept or collected now: what a sound registry gives are the slots of the class.
  have hr := hs.slots_result settings index
  have hk := hs.slots settings index
  unfold Workspace.slots
  cases hl : s.state.registry.slots s.state.classes settings index with
  | mk registry rest =>
    obtain ⟨log, result⟩ := rest
    rw [hl] at hr hk
    simp only at hr hk
    subst hr
    refine ⟨⟨{ s.state with registry := registry }, s.log ++ log⟩, rfl, hk, rfl, ?_⟩
    cases s.state.classes.slotsOf settings index <;> rfl

theorem get_eq (s : Logged Workspace) :
    (get : Action Workspace AssignError (Logged Workspace)) s = .ok s s := rfl

theorem assign_of_missing {settings : Settings} {place : Nat} {s : Logged Workspace}
    (h : s.state.objects[place]? = none) (key : String) (value : Value) :
    Workspace.assign settings place key value s = .error (.unknownKey key) s := by
  simp only [Workspace.assign, bind, EStateM.bind, get_eq, h]
  rfl

/-- Writing to one object is collecting the slots of its class and writing to one of them. -/
theorem assign_spec (settings : Settings) {place : Nat} {s : Logged Workspace} {o : Instance}
    (hs : s.state.registry.Sound s.state.classes) (ho : s.state.objects[place]? = some o)
    (key : String) (value : Value) :
    ComesTo (Workspace.assign settings place key value) s
      (match s.state.classes.slotsOf settings o.index with
        | .error e => .error (.source e)
        | .ok slots =>
          match s.state.classes.write slots settings.checkTypes o key value with
          | .error e => .error e
          | .ok w => .ok (w.old, s.state.objects.set place w.object)) := by
  -- The registry changes before the write is checked, the objects only after that.
  obtain ⟨t, hc, hr, hob, hslots⟩ := slots_spec hs settings o.index
  simp only [ComesTo, Workspace.assign, bind, EStateM.bind, get_eq, ho, EStateM.adaptExcept,
    hslots]
  cases hl : s.state.classes.slotsOf settings o.index with
  | error e => exact ⟨t, hc, hr, rfl, hob⟩
  | ok slots =>
    simp only [hc]
    cases hw : s.state.classes.write slots settings.checkTypes o key value with
    | error e => exact ⟨t, hc, hc ▸ hr, rfl, hob⟩
    | ok w =>
      refine ⟨⟨{ t.state with objects := t.state.objects.set place w.object },
        t.log ++ [.assigned w.slot.qualifiedName value w.old]⟩, hc, hr, rfl, ?_⟩
      simp [hob]

theorem setFirst_congr {w v : Workspace} (hc : w.classes = v.classes)
    (ho : w.objects = v.objects) (settings : Settings) (places : List Nat) (key : String)
    (value : Value) :
    w.setFirst settings places key value = v.setFirst settings places key value := by
  simp only [setFirst, indices, hc, ho]

/-- What an action comes to after a step that has changed the registry only. -/
theorem ComesTo.of_step {action : Action Workspace AssignError Value} {s t : Logged Workspace}
    {result : Except AssignError (Value × List Instance)} (hc : t.state.classes = s.state.classes)
    (ho : t.state.objects = s.state.objects) (h : ComesTo action t result)
    {whole : Action Workspace AssignError Value} (hw : whole s = action t) :
    ComesTo whole s result := by
  obtain ⟨u, hcu, hru, hu⟩ := h
  refine ⟨u, hcu.trans hc, hru, ?_⟩
  rw [hw]
  cases result with
  | error e => exact ⟨hu.1, hu.2.trans ho⟩
  | ok p => exact hu

/-- A chain of objects does what the route of the key says. -/
theorem assignFirst_spec (settings : Settings) {s : Logged Workspace}
    (hs : s.state.registry.Sound s.state.classes) (places : List Nat) (key : String)
    (value : Value) :
    ComesTo (Workspace.assignFirst settings places key value) s
      (s.state.setFirst settings places key value) := by
  induction places generalizing s with
  | nil => exact ⟨s, rfl, hs, rfl, rfl⟩
  | cons place places ih =>
    -- An object without the slot is passed; only the registry can change on the way.
    have pass {t : Logged Workspace} (hc : t.state.classes = s.state.classes)
        (ho : t.state.objects = s.state.objects) (hr : t.state.registry.Sound t.state.classes)
        (ha : Workspace.assign settings place key value s = .error (.unknownKey key) t) :
        ComesTo (Workspace.assignFirst settings (place :: places) key value) s
          (s.state.setFirst settings places key value) := by
      rw [← setFirst_congr hc ho]
      exact (ih hr).of_step hc ho (by simp only [Workspace.assignFirst, ha])
    cases ho : s.state.objects[place]? with
    | none =>
      have hi : s.state.indices[place]? = none := by simp [indices, ho]
      have hset : s.state.setFirst settings (place :: places) key value =
          s.state.setFirst settings places key value := by
        simp only [setFirst, Classes.route, hi]
      rw [hset]
      exact pass rfl rfl hs (assign_of_missing ho key value)
    | some o =>
      have hi : s.state.indices[place]? = some o.index := indices_of_object ho
      obtain ⟨t, hc, hr, ht⟩ := assign_spec settings hs ho key value
      cases hl : s.state.classes.slotsOf settings o.index with
      | error e =>
        simp only [hl] at ht
        refine ⟨t, hc, hr, ?_⟩
        simp only [setFirst, Classes.route, hi, hl]
        exact ⟨by simp only [Workspace.assignFirst, ht.1], ht.2⟩
      | ok slots =>
        simp only [hl] at ht
        cases hk : slots.get? key with
        | none =>
          simp only [Classes.write, hk] at ht
          have hset : s.state.setFirst settings (place :: places) key value =
              s.state.setFirst settings places key value := by
            simp only [setFirst, Classes.route, hi, hl, hk]
          rw [hset]
          exact pass hc ht.2 hr ht.1
        | some slot =>
          rw [Classes.write_of_slot hk] at ht
          refine ⟨t, hc, hr, ?_⟩
          simp only [setFirst, Classes.route, hi, hl, hk, ho]
          cases hw : s.state.classes.put settings.checkTypes slot o key value with
          | ok w =>
            simp only [hw] at ht
            exact ⟨by simp only [Workspace.assignFirst, ht.1], ht.2⟩
          | error e =>
            simp only [hw] at ht
            refine ⟨?_, ht.2⟩
            -- Only an unknown key makes the chain go on, and the key is known here.
            have hne : ∀ k, e ≠ .unknownKey k := fun k he => Classes.put_ne_unknownKey (he ▸ hw)
            simp only [Workspace.assignFirst, ht.1]
            split
            · next he =>
              cases he
              exact absurd rfl (hne _)
            · rfl

/-- All that a call of the chain can have done when it returns. -/
theorem assignFirst_ok {settings : Settings} {places : List Nat} {s t : Logged Workspace}
    {key : String} {value old : Value} (hs : s.state.registry.Sound s.state.classes)
    (h : Workspace.assignFirst settings places key value s = .ok old t) :
    t.state.classes = s.state.classes ∧ t.state.registry.Sound t.state.classes ∧
      s.state.setFirst settings places key value = .ok (old, t.state.objects) := by
  obtain ⟨u, hc, hr, hu⟩ := assignFirst_spec settings hs places key value
  cases hset : s.state.setFirst settings places key value with
  | error e =>
    rw [hset] at hu
    cases h.symm.trans hu.1
  | ok p =>
    obtain ⟨before, objects⟩ := p
    rw [hset] at hu
    obtain ⟨hu, rfl⟩ := hu
    cases h.symm.trans hu
    exact ⟨hc, hr, rfl⟩

/-- All that a call of the chain can have done when it fails. -/
theorem assignFirst_error {settings : Settings} {places : List Nat} {s t : Logged Workspace}
    {key : String} {value : Value} {e : AssignError}
    (hs : s.state.registry.Sound s.state.classes)
    (h : Workspace.assignFirst settings places key value s = .error e t) :
    t.state.classes = s.state.classes ∧ t.state.registry.Sound t.state.classes ∧
      t.state.objects = s.state.objects ∧
      s.state.setFirst settings places key value = .error e := by
  obtain ⟨u, hc, hr, hu⟩ := assignFirst_spec settings hs places key value
  cases hset : s.state.setFirst settings places key value with
  | error e' =>
    rw [hset] at hu
    cases h.symm.trans hu.1
    exact ⟨hc, hr, hu.2, rfl⟩
  | ok p =>
    rw [hset] at hu
    cases h.symm.trans hu.1

end Workspace

end Styling
