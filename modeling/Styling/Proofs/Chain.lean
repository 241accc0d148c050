import Styling.Proofs.Routing
import Styling.Proofs.Store

/-!
# A chain of objects is a store

Every key leads to one attribute of one object, so a chain of objects keeps a store: the value of a
key is the value of that attribute (`Workspace.valueFor`). `Reached` says what all states have in
common that writes through a chain lead to (`Workspace.reached_storeBacked`). No write opens or
closes a key, so entries are all written just when each of their values is open to its key from the
start (`Workspace.writeEntries_of_opens`, `Workspace.opens_of_writeEntries`). With type checks the
values of all slots also fit their declared types in each of these states (`Within`,
`Workspace.chain_storeBacked`).
-/

set_option autoImplicit false

namespace Styling

namespace Classes

variable {cs : Classes}

theorem binding?_congr {o p : Instance} (h : p.index = o.index) (name : String) :
    cs.binding? p name = cs.binding? o name := by
  simp only [binding?, lookupClasses, h]

theorem isAssignable_congr {o p : Instance} (h : p.index = o.index) (name : String) :
    cs.isAssignable p name = cs.isAssignable o name := by
  have hr : Classes.refuses p name = Classes.refuses o name := by
    funext c
    simp only [refuses, h]
  simp only [isAssignable, lookupClasses, h, hr]

/-- Setting an attribute is seen under its name only. -/
theorem attribute?_set (o : Instance) (name other : String) (value : Value) :
    cs.attribute? ⟨o.index, o.attributes.set name value⟩ other =
      if name = other then some value else cs.attribute? o other := by
  by_cases h : name = other
  · simp [attribute?, h]
  · simp only [attribute?, Table.get?_set, h, if_false]
    cases o.attributes.get? other with
    | some v => rfl
    | none => exact binding?_congr rfl other

end Classes

/-- Replacing an item by one that looks the same through a function does not show there. -/
theorem map_set_of_eq {α β : Type} {f : α → β} {xs : List α} {i : Nat} {a b : α}
    (h : xs[i]? = some a) (hf : f b = f a) : (xs.set i b).map f = xs.map f := by
  apply List.ext_getElem?
  intro j
  rw [List.getElem?_map, List.getElem?_map, List.getElem?_set]
  split
  · next hij =>
    subst hij
    obtain ⟨hlt, rfl⟩ := List.getElem?_eq_some_iff.1 h
    simp [hlt, hf]
  · rfl

namespace Workspace

variable (settings : Settings) (places : List Nat)

/-- The key leads to the object at a place. -/
def Leads (w : Workspace) (key : String) (place : Nat) : Prop :=
  ∃ slot, w.classes.route settings w.indices key places = .ok (some (place, slot))

/-- The value of the attribute that a key leads to; null if it leads nowhere. -/
def valueFor (w : Workspace) (key : String) : Value :=
  match w.classes.route settings w.indices key places with
  | .ok (some (place, slot)) => (w.attributeAt place slot.name).getD .null
  | _ => .null

/-- The values of all slots of the objects fit their declared types. -/
def Fits (w : Workspace) : Prop :=
  ∀ place ∈ places, ∀ index slots key slot value, w.indices[place]? = some index →
    w.classes.slotsOf settings index = .ok slots → slots.get? key = some slot →
    w.attributeAt place slot.name = some value → slot.hint.accepts value = true

/-- The values of all slots of an object fit, as far as its slots can be collected. -/
def fitsAt (w : Workspace) (place : Nat) : Bool :=
  match w.indices[place]? with
  | none => true
  | some index =>
    match w.classes.slotsOf settings index with
    | .error _ => true
    | .ok slots =>
      slots.entries.all fun e => (w.attributeAt place e.2.name).all fun v => e.2.hint.accepts v

/-- The attributes of all slots of the objects are their own, and not inherited from a class. -/
def OwnsSlots (w : Workspace) : Prop :=
  ∀ place ∈ places, ∀ o slots key slot, w.objects[place]? = some o →
    w.classes.slotsOf settings o.index = .ok slots → slots.get? key = some slot →
    slot.name ∈ o.attributes.keys

/-- The names of the attributes of each object, in their order. -/
def attributeNames (w : Workspace) : List (List String) := w.objects.map fun o => o.attributes.keys

/-- A value can be written for a key: the key leads to a slot that can be written, with an attribute
that has a value, and the value fits. -/
structure Opens (w : Workspace) (key : String) (value : Value) (place : Nat) (slot : Slot) :
    Prop where
  route : w.classes.route settings w.indices key places = .ok (some (place, slot))
  writable : slot.readOnly = false
  fits : settings.checkTypes = true → slot.hint.accepts value = true
  assignable : ∃ o, w.objects[place]? = some o ∧ w.classes.isAssignable o slot.name = true
  isSome : (w.attributeAt place slot.name).isSome = true

theorem attributeAt_congr {w v : Workspace} (hc : w.classes = v.classes)
    (ho : w.objects = v.objects) (place : Nat) (name : String) :
    w.attributeAt place name = v.attributeAt place name := by
  simp only [attributeAt, hc, ho]

variable {settings places}

theorem fits_iff {w : Workspace} :
    w.Fits settings places ↔ ∀ place ∈ places, w.fitsAt settings place = true := by
  constructor
  · intro h place hp
    -- Nothing is checked where there is no object, or where the slots cannot be collected.
    unfold fitsAt
    split
    · rfl
    · next index hi =>
      split
      · rfl
      · next slots hs =>
        refine List.all_eq_true.2 fun e he => ?_
        cases ha : w.attributeAt place e.2.name with
        | none => rfl
        | some v => exact h place hp index slots e.1 e.2 v hi hs (Table.get?_of_mem he) ha
  · intro h place hp index slots key slot value hi hs hk ha
    have hfit := h place hp
    simp only [fitsAt, hi, hs, List.all_eq_true] at hfit
    simpa [ha] using hfit (key, slot) (Table.mem_of_get? hk)

instance (w : Workspace) : Decidable (w.Fits settings places) := decidable_of_iff' _ fits_iff

/-- Setting an attribute of an object changes that attribute of that object and no other. -/
theorem attributeAt_set {w v : Workspace} (hc : v.classes = w.classes) {place : Nat}
    {o : Instance} {name : String} {value : Value} (ho : w.objects[place]? = some o)
    (hv : w.objects.set place ⟨o.index, o.attributes.set name value⟩ = v.objects)
    (other : Nat) (asked : String) :
    v.attributeAt other asked =
      if other = place ∧ asked = name then some value else w.attributeAt other asked := by
  simp only [attributeAt, hc, ← hv, List.getElem?_set]
  by_cases hother : place = other
  · subst hother
    obtain ⟨hlt, -⟩ := List.getElem?_eq_some_iff.1 ho
    simp only [if_true, hlt, Option.bind_some, true_and, ho]
    rw [Classes.attribute?_set]
    simp only [eq_comm]
  · have hother' : ¬ other = place := fun h => hother h.symm
    simp [hother, hother']

/-- The key of a write that succeeds is open to its value, and what the write changes is the one
attribute that the key leads to. -/
theorem setFirst_ok {w v : Workspace} {key : String} {value old : Value}
    (hc : v.classes = w.classes)
    (h : w.setFirst settings places key value = .ok (old, v.objects)) :
    old = w.valueFor settings places key ∧ v.indices = w.indices ∧
      (w.OwnsSlots settings places → v.attributeNames = w.attributeNames) ∧
      ∃ place slot, w.Opens settings places key value place slot ∧ ∀ other name,
        v.attributeAt other name =
          if other = place ∧ name = key then some value else w.attributeAt other name := by
  -- The key has a route, the object is there, and the slot has let the value pass.
  unfold setFirst at h
  cases hr : w.classes.route settings w.indices key places with
  | error e => simp [hr] at h
  | ok target =>
    cases target with
    | none => simp [hr] at h
    | some target =>
      obtain ⟨place, slot⟩ := target
      have hname : slot.name = key := Classes.route_name hr
      cases ho : w.objects[place]? with
      | none => simp [hr, ho] at h
      | some o =>
        cases hp : w.classes.put settings.checkTypes slot o key value with
        | error e => simp [hr, ho, hp] at h
        | ok written =>
          simp only [hr, ho, hp, Except.ok.injEq, Prod.mk.injEq] at h
          obtain ⟨rfl, hobjects⟩ := h
          obtain ⟨hread, hfit, hassign, hattr, hobj, -⟩ := Classes.put_ok.1 hp
          have hat : w.attributeAt place slot.name = some written.old := by
            simp [attributeAt, ho, hattr]
          rw [hobj] at hobjects
          refine ⟨by simp [valueFor, hr, hat], ?_, ?_, place, slot,
            ⟨hr, hread, hfit, ⟨o, ho, hassign⟩, by simp [hat]⟩, ?_⟩
          · rw [indices, ← hobjects]
            exact map_set_of_eq ho rfl
          · -- An attribute that the object owns already adds no name to it.
            intro hown
            rw [attributeNames, ← hobjects]
            refine map_set_of_eq ho ?_
            obtain ⟨hmem, index, slots, hi, hs, hk⟩ := Classes.route_some hr
            obtain rfl := Option.some.inj ((indices_of_object ho).symm.trans hi)
            exact (Table.keys_set _ _ _).trans (if_pos (hown place hmem o slots key slot ho hs hk))
          · rw [hname] at hobjects
            exact attributeAt_set hc ho hobjects

/-- A write gives a value to no attribute that had none, and takes it from none. -/
theorem isSome_setFirst {w v : Workspace} {key : String} {value old : Value}
    (hc : v.classes = w.classes)
    (h : w.setFirst settings places key value = .ok (old, v.objects)) (place : Nat)
    (name : String) : (v.attributeAt place name).isSome = (w.attributeAt place name).isSome := by
  obtain ⟨-, -, -, written, slot, hopen, hat⟩ := setFirst_ok hc h
  rw [hat]
  split
  · next hon =>
    -- The attribute that was written was there before.
    obtain ⟨rfl, rfl⟩ := hon
    rw [← Classes.route_name hopen.route, hopen.isSome]
    rfl
  · rfl

/-- A value that is open to a key is written. -/
theorem Opens.setFirst {w : Workspace} {key : String} {value : Value} {place : Nat} {slot : Slot}
    (h : w.Opens settings places key value place slot) :
    ∃ old objects, w.setFirst settings places key value = .ok (old, objects) := by
  obtain ⟨o, ho, hassign⟩ := h.assignable
  have hat := h.isSome
  simp only [attributeAt, ho, Option.bind_some] at hat
  obtain ⟨old, hold⟩ := Option.isSome_iff_exists.1 hat
  have hput : w.classes.put settings.checkTypes slot o key value =
      .ok ⟨old, ⟨o.index, o.attributes.set slot.name value⟩, slot⟩ :=
    Classes.put_ok.2 ⟨h.writable, h.fits, hassign, hold, rfl, rfl⟩
  exact ⟨old, w.objects.set place ⟨o.index, o.attributes.set slot.name value⟩, by
    simp [Workspace.setFirst, h.route, ho, hput]⟩

/-! ## States of a chain -/

/-- Objects of the same classes stand at the same places. -/
theorem exists_object {w v : Workspace} (h : w.indices = v.indices) {place : Nat} {o : Instance}
    (ho : w.objects[place]? = some o) : ∃ p, v.objects[place]? = some p ∧ o.index = p.index := by
  have hi : v.indices[place]? = some o.index := by
    rw [← h]
    exact indices_of_object ho
  obtain ⟨p, hp, hpo⟩ : ∃ p, v.objects[place]? = some p ∧ p.index = o.index := by
    simpa [indices] using hi
  exact ⟨p, hp, hpo.symm⟩

theorem Opens.congr {w v : Workspace} (hc : w.classes = v.classes) (hi : w.indices = v.indices)
    (hs : ∀ place name, (w.attributeAt place name).isSome = (v.attributeAt place name).isSome)
    {key : String} {value : Value} {place : Nat} {slot : Slot}
    (h : w.Opens settings places key value place slot) :
    v.Opens settings places key value place slot where
  route := by rw [← hc, ← hi]; exact h.route
  writable := h.writable
  fits := h.fits
  assignable := by
    obtain ⟨o, ho, hassign⟩ := h.assignable
    obtain ⟨p, hp, hop⟩ := exists_object hi ho
    exact ⟨p, hp, by rw [← hc, ← Classes.isAssignable_congr hop]; exact hassign⟩
  isSome := by rw [← hs]; exact h.isSome

theorem OwnsSlots.congr {w v : Workspace} (hc : w.classes = v.classes)
    (hi : w.indices = v.indices) (hn : w.attributeNames = v.attributeNames)
    (h : w.OwnsSlots settings places) : v.OwnsSlots settings places := by
  intro place hp o slots key slot ho hs hk
  obtain ⟨p, hpw, hpo⟩ := exists_object hi.symm ho
  have hkeys : p.attributes.keys = o.attributes.keys := by
    have hat := congrArg (fun names : List (List String) => names[place]?) hn
    simpa [attributeNames, ho, hpw] using hat
  rw [← hkeys]
  exact h place hp p slots key slot hpw (by rw [hc, ← hpo]; exact hs) hk

/-- What all states have in common that writes through a chain lead to from a state: the objects
are of the same classes and have the same attributes, and only those change that a key leads to. -/
structure Reached (settings : Settings) (places : List Nat) (base w : Workspace) : Prop where
  classes : w.classes = base.classes
  sound : w.registry.Sound w.classes
  indices : w.indices = base.indices
  isSome : ∀ place name, (w.attributeAt place name).isSome = (base.attributeAt place name).isSome
  frame : ∀ place name, ¬ base.Leads settings places name place →
    w.attributeAt place name = base.attributeAt place name
  names : base.OwnsSlots settings places → w.attributeNames = base.attributeNames

section Reached

variable {base w v : Workspace}

theorem Reached.refl (hs : w.registry.Sound w.classes) : Reached settings places w w :=
  ⟨rfl, hs, rfl, fun _ _ => rfl, fun _ _ _ => rfl, fun _ => rfl⟩

theorem Reached.route (h : Reached settings places base w) (key : String) :
    w.classes.route settings w.indices key places =
      base.classes.route settings base.indices key places := by
  rw [h.classes, h.indices]

theorem Reached.opens_iff (h : Reached settings places base w) {key : String} {value : Value}
    {place : Nat} {slot : Slot} :
    w.Opens settings places key value place slot ↔
      base.Opens settings places key value place slot :=
  ⟨Opens.congr h.classes h.indices h.isSome,
    Opens.congr h.classes.symm h.indices.symm fun place name => (h.isSome place name).symm⟩

/-- A write through the chain leads to such a state again. -/
theorem Reached.step (h : Reached settings places base w) {key : String} {value old : Value}
    (hcv : v.classes = w.classes) (hs : v.registry.Sound v.classes)
    (hv : w.setFirst settings places key value = .ok (old, v.objects)) :
    Reached settings places base v := by
  obtain ⟨-, hiv, hnames, place, slot, hopen, hat⟩ := setFirst_ok hcv hv
  refine ⟨hcv.trans h.classes, hs, hiv.trans h.indices, ?_, ?_, ?_⟩
  · intro other name
    rw [isSome_setFirst hcv hv, h.isSome]
  · -- No key leads to an attribute of the frame, so it is not the one that was written.
    intro other name hnot
    rw [hat]
    split
    · next hon =>
      obtain ⟨rfl, rfl⟩ := hon
      exact absurd ⟨slot, by rw [← h.route]; exact hopen.route⟩ hnot
    · exact h.frame other name hnot
  · intro hown
    have hnw := h.names hown
    exact (hnames (hown.congr h.classes.symm h.indices.symm hnw.symm)).trans hnw

/-- A call that fails leads to such a state as well. -/
theorem Reached.of_objects (h : Reached settings places base w) (hcv : v.classes = w.classes)
    (hs : v.registry.Sound v.classes) (ho : v.objects = w.objects) :
    Reached settings places base v := by
  have hiv : v.indices = w.indices := by simp only [Workspace.indices, ho]
  refine ⟨hcv.trans h.classes, hs, hiv.trans h.indices, ?_, ?_, ?_⟩
  · intro place name
    rw [attributeAt_congr hcv ho, h.isSome]
  · intro place name hnot
    rw [attributeAt_congr hcv ho, h.frame place name hnot]
  · intro hown
    have hnames : v.attributeNames = w.attributeNames := by simp only [attributeNames, ho]
    exact hnames.trans (h.names hown)

/-- States in which the keys have the same values have the same attributes. -/
theorem Reached.attributeAt_eq (hw : Reached settings places base w)
    (hv : Reached settings places base v)
    (hvalue : v.valueFor settings places = w.valueFor settings places) (place : Nat)
    (name : String) : v.attributeAt place name = w.attributeAt place name := by
  -- Either a key leads to the attribute and its value is known, or no write has reached it.
  by_cases hl : base.Leads settings places name place
  · obtain ⟨slot, hr⟩ := hl
    have hname : slot.name = name := Classes.route_name hr
    have hat := congrFun hvalue name
    have hsome := (hv.isSome place name).trans (hw.isSome place name).symm
    simp only [valueFor, hv.route, hw.route, hr, hname] at hat
    cases hb : w.attributeAt place name with
    | none =>
      rw [hb] at hsome
      simpa using hsome
    | some b =>
      rw [hb] at hsome hat
      obtain ⟨a, ha⟩ := Option.isSome_iff_exists.1 hsome
      rw [ha] at hat ⊢
      exact congrArg some hat
  · rw [hv.frame place name hl, hw.frame place name hl]

/-- **A chain of objects is a store**: a key stands for the attribute that it leads to. -/
theorem reached_storeBacked (settings : Settings) (places : List Nat) (base : Workspace) :
    StoreBacked (Reached settings places base) (valueFor settings places)
      (Workspace.assignFirst settings places) where
  refused := by
    intro key value s t e hw h
    obtain ⟨hcu, hru, hou, -⟩ := assignFirst_error hw.sound h
    refine ⟨hw.of_objects hcu hru hou, ?_⟩
    funext key
    simp only [valueFor, indices, hcu, hou, attributeAt]
  written := by
    intro key value old s t hw h
    obtain ⟨hcu, hru, hset⟩ := assignFirst_ok hw.sound h
    obtain ⟨hold, hit, -, place, slot, hopen, hat⟩ := setFirst_ok hcu hset
    refine ⟨hw.step hcu hru hset, hold, ?_⟩
    -- Another key leads to an attribute of another name, wherever that is.
    funext other
    by_cases hother : other = key
    · subst hother
      rw [Function.update_self]
      simp [valueFor, hcu, hit, hopen.route, hat, Classes.route_name hopen.route]
    · rw [Function.update_of_ne hother]
      unfold valueFor
      rw [hcu, hit]
      split
      · next place' slot' hr =>
        have hne : ¬ slot'.name = key := by
          rw [Classes.route_name hr]
          exact hother
        simp [hat, hne]
      · rfl

/-- A value that is open to its key is written by the chain. -/
theorem Opens.assignFirst {s : Logged Workspace} (hs : s.state.registry.Sound s.state.classes)
    {key : String} {value : Value} {place : Nat} {slot : Slot}
    (h : s.state.Opens settings places key value place slot) :
    ∃ old t, Workspace.assignFirst settings places key value s = .ok old t := by
  obtain ⟨old, objects, hset⟩ := h.setFirst
  obtain ⟨t, -, -, ht⟩ := assignFirst_spec settings hs places key value
  rw [hset] at ht
  exact ⟨old, t, ht.1⟩

/-- Entries that are open to their keys are all written. -/
theorem writeEntries_of_opens (entry : String → Value → LogEntry) {es : List (String × Value)}
    (acc : Table Value) {s : Logged Workspace} (hw : Reached settings places base s.state)
    (ho : ∀ e ∈ es, ∃ place slot, base.Opens settings places e.1 e.2 place slot) :
    ∃ old t, writeEntries (Workspace.assignFirst settings places) entry es acc s = .ok old t := by
  induction es generalizing acc s with
  | nil => exact ⟨acc, s, rfl⟩
  | cons e es ih =>
    obtain ⟨key, value⟩ := e
    obtain ⟨place, slot, hopen⟩ := ho (key, value) List.mem_cons_self
    obtain ⟨previous, t, ha⟩ := (hw.opens_iff.2 hopen).assignFirst hw.sound
    obtain ⟨hwt, -, -⟩ := (reached_storeBacked settings places base).written hw ha
    rw [writeEntries_cons, ha]
    exact ih _ hwt fun e he => ho e (List.mem_cons_of_mem _ he)

/-- Entries that were all written were open to their keys from the start. -/
theorem opens_of_writeEntries {entry : String → Value → LogEntry} {es : List (String × Value)}
    {acc old : Table Value} {s t : Logged Workspace} (hw : Reached settings places base s.state)
    (h : writeEntries (Workspace.assignFirst settings places) entry es acc s = .ok old t) :
    ∀ e ∈ es, ∃ place slot, base.Opens settings places e.1 e.2 place slot := by
  induction es generalizing acc s with
  | nil => simp
  | cons e es ih =>
    obtain ⟨key, value⟩ := e
    rw [writeEntries_cons] at h
    cases ha : Workspace.assignFirst settings places key value s with
    | error e u => simp [ha] at h
    | ok previous u =>
      simp only [ha] at h
      obtain ⟨hwu, -, -⟩ := (reached_storeBacked settings places base).written hw ha
      intro e he
      -- No write opens or closes a key, so the keys were open before the first one.
      rcases List.mem_cons.1 he with rfl | he
      · obtain ⟨hcu, -, hset⟩ := assignFirst_ok hw.sound ha
        obtain ⟨-, -, -, place, slot, hopen, -⟩ := setFirst_ok hcu hset
        exact ⟨place, slot, hw.opens_iff.1 hopen⟩
      · exact ih (s := ⟨u.state, u.log ++ [entry key value]⟩) hwu h e he

/-- All that holds after a mapping has been applied, whatever its order: its values were open to
their keys, the store has them, and the old values are those of the store before. A mapping without
entries has none. -/
theorem applyMapping_ok {s t : Logged Workspace} {m : Table Value} {old : Option (Table Value)}
    (hs : s.state.registry.Sound s.state.classes)
    (h : applyMapping (Workspace.assignFirst settings places) m s = .ok old t) :
    Reached settings places s.state t.state ∧
      (∀ e ∈ m.entries, ∃ place slot, s.state.Opens settings places e.1 e.2 place slot) ∧
      t.state.valueFor settings places =
        writeAll m.entries (s.state.valueFor settings places) ∧
      old = if m.isEmpty then none
        else some (displaced m.entries .empty (s.state.valueFor settings places)) := by
  have hstart : Reached settings places s.state s.state := .refl hs
  cases he : m.isEmpty with
  | true =>
    rw [applyMapping_of_isEmpty _ he] at h
    cases h
    have hnil : m.entries = [] := List.isEmpty_iff.1 he
    refine ⟨hstart, ?_, ?_, rfl⟩
    · rw [hnil]
      exact fun e he => absurd he List.not_mem_nil
    · rw [hnil, writeAll]
  | false =>
    rw [applyMapping_of_not_isEmpty _ he] at h
    cases hw : writeEntries (Workspace.assignFirst settings places) .applied m.entries .empty s with
    | error e u => simp [hw] at h
    | ok written u =>
      simp only [hw, EStateM.Result.ok.injEq] at h
      obtain ⟨rfl, rfl⟩ := h
      obtain ⟨hreached, hstore, rfl⟩ :=
        (reached_storeBacked settings places s.state).writeEntries_ok hstart hw
      exact ⟨hreached, opens_of_writeEntries hstart hw, hstore, rfl⟩

/-- A mapping whose values are open to their keys can be applied. -/
theorem exists_applyMapping {s : Logged Workspace} {m : Table Value}
    (hs : s.state.registry.Sound s.state.classes)
    (ho : ∀ e ∈ m.entries, ∃ place slot, s.state.Opens settings places e.1 e.2 place slot) :
    ∃ old t, applyMapping (Workspace.assignFirst settings places) m s = .ok old t := by
  cases he : m.isEmpty with
  | true => exact ⟨none, s, applyMapping_of_isEmpty _ he s⟩
  | false =>
    obtain ⟨old, u, hu⟩ := writeEntries_of_opens .applied .empty (.refl hs) ho
    exact ⟨some old, u, by rw [applyMapping_of_not_isEmpty _ he, hu]⟩

end Reached

/-! ## States of a chain in which all values fit -/

/-- What all states have in common that writes through a chain lead to from a state: the objects
are of the same classes and have the same attributes, only those change that a key leads to, and
the values of the slots fit. -/
structure Within (settings : Settings) (places : List Nat) (base w : Workspace) : Prop where
  classes : w.classes = base.classes
  sound : w.registry.Sound w.classes
  indices : w.indices = base.indices
  isSome : ∀ place name, (w.attributeAt place name).isSome = (base.attributeAt place name).isSome
  frame : ∀ place name, ¬ base.Leads settings places name place →
    w.attributeAt place name = base.attributeAt place name
  names : base.OwnsSlots settings places → w.attributeNames = base.attributeNames
  fits : w.Fits settings places

theorem Within.refl {w : Workspace} (hs : w.registry.Sound w.classes)
    (hf : w.Fits settings places) : Within settings places w w :=
  ⟨rfl, hs, rfl, fun _ _ => rfl, fun _ _ _ => rfl, fun _ => rfl, hf⟩

section Within

variable {base w : Workspace}

theorem Within.reached (h : Within settings places base w) : Reached settings places base w :=
  ⟨h.classes, h.sound, h.indices, h.isSome, h.frame, h.names⟩

theorem Reached.within (h : Reached settings places base w) (hf : w.Fits settings places) :
    Within settings places base w :=
  ⟨h.classes, h.sound, h.indices, h.isSome, h.frame, h.names, hf⟩

/-- A write whose value has been checked leaves all values fitting. -/
theorem Within.step (hc : settings.checkTypes = true) (h : Within settings places base w)
    {v : Workspace} {key : String} {value old : Value} (hcv : v.classes = w.classes)
    (hs : v.registry.Sound v.classes)
    (hv : w.setFirst settings places key value = .ok (old, v.objects)) :
    Within settings places base v := by
  refine (h.reached.step hcv hs hv).within ?_
  obtain ⟨-, hiv, -, place, slot, hopen, hat⟩ := setFirst_ok hcv hv
  intro other hother index slots key' slot' value' hi hsl hk hvalue
  rw [hiv] at hi
  rw [hcv] at hsl
  rw [hat] at hvalue
  split at hvalue
  · next hon =>
    -- The slot of the value that was written is the one that the check has been made for.
    obtain ⟨rfl, hkey⟩ := hon
    obtain ⟨-, index', slots', hi', hsl', hk'⟩ := Classes.route_some hopen.route
    obtain rfl := Option.some.inj (hi'.symm.trans hi)
    obtain rfl := Except.ok.inj (hsl'.symm.trans hsl)
    obtain rfl : key' = key := (Classes.slotsOf_name hsl hk).symm.trans hkey
    obtain rfl := Option.some.inj (hk'.symm.trans hk)
    obtain rfl := Option.some.inj hvalue
    exact hopen.fits hc
  · exact h.fits other hother index slots key' slot' value' hi hsl hk hvalue

/-- A call that fails changes no value. -/
theorem Within.of_objects (h : Within settings places base w) {v : Workspace}
    (hcv : v.classes = w.classes) (hs : v.registry.Sound v.classes) (ho : v.objects = w.objects) :
    Within settings places base v := by
  refine (h.reached.of_objects hcv hs ho).within ?_
  have hiv : v.indices = w.indices := by simp only [Workspace.indices, ho]
  intro place hp index slots key slot value hi hsl hk hvalue
  rw [attributeAt_congr hcv ho] at hvalue
  exact h.fits place hp index slots key slot value (hiv ▸ hi) (hcv ▸ hsl) hk hvalue

/-- **A chain of typed objects is a store** in which all values fit. -/
theorem chain_storeBacked (hc : settings.checkTypes = true) (places : List Nat)
    (base : Workspace) :
    StoreBacked (Within settings places base) (valueFor settings places)
      (Workspace.assignFirst settings places) where
  refused := by
    intro key value s t e hw h
    obtain ⟨hcu, hru, hou, -⟩ := assignFirst_error hw.sound h
    exact ⟨hw.of_objects hcu hru hou,
      ((reached_storeBacked settings places base).refused hw.reached h).2⟩
  written := by
    intro key value old s t hw h
    obtain ⟨hcu, hru, hset⟩ := assignFirst_ok hw.sound h
    exact ⟨hw.step hc hcu hru hset,
      ((reached_storeBacked settings places base).written hw.reached h).2⟩

end Within

end Workspace

end Styling
