import Styling.Proofs.Chain

/-!
# Writing an old value back

A write gives back the value before, and writing that one takes the write back: the attributes are
as they were, and an object that owns the attribute is the same again. The old value need not have
been checked before, so the second write is refused just when the old value does not fit, and then
it changes nothing (`Workspace.assign_back`). Values that do not fit are there where defaults or
other code put them (`Workspace.not_assign_back_of_unfit`).
-/

set_option autoImplicit false

namespace Styling

/-- Setting a name and then its old value leaves a table as it was. -/
theorem Table.set_set_of_get? {α : Type} {t : Table α} {key : String} {old : α}
    (h : t.get? key = some old) (value : α) : (t.set key value).set key old = t := by
  have hmem : key ∈ t.keys := contains_iff.1 (by rw [contains, h]; rfl)
  have hkeys : ((t.set key value).set key old).keys = t.keys := by
    rw [keys_set, keys_set, if_pos hmem, if_pos hmem]
  refine ext_get? hkeys fun other _ => ?_
  rw [get?_set, get?_set]
  split
  · next hkey => rw [← hkey, h]
  · rfl

namespace Workspace

variable {settings : Settings} {place : Nat} {key : String} {value : Value} {s : Logged Workspace}

/-- A write to an object with a slot for the key does what the slot does. -/
theorem assign_of_slot (hs : s.state.registry.Sound s.state.classes) {o : Instance}
    (ho : s.state.objects[place]? = some o) {slots : Table Slot}
    (hslots : s.state.classes.slotsOf settings o.index = .ok slots) {slot : Slot}
    (hk : slots.get? key = some slot) (value : Value) :
    ComesTo (Workspace.assign settings place key value) s
      (match s.state.classes.put settings.checkTypes slot o key value with
        | .error e => .error e
        | .ok w => .ok (w.old, s.state.objects.set place w.object)) := by
  have h := assign_spec settings hs ho key value
  rw [hslots] at h
  simp only at h
  rwa [Classes.write_of_slot hk] at h

/-- A write that succeeds has found a slot for its key. -/
theorem exists_slot_of_assign (hs : s.state.registry.Sound s.state.classes) {old : Value}
    {t : Logged Workspace} (h : Workspace.assign settings place key value s = .ok old t) :
    ∃ o slots slot, s.state.objects[place]? = some o ∧
      s.state.classes.slotsOf settings o.index = .ok slots ∧ slots.get? key = some slot := by
  cases ho : s.state.objects[place]? with
  | none =>
    rw [assign_of_missing ho] at h
    cases h
  | some o =>
    obtain ⟨u, -, -, hu⟩ := assign_spec settings hs ho key value
    cases hslots : s.state.classes.slotsOf settings o.index with
    | error e =>
      simp only [hslots] at hu
      rw [hu.1] at h
      cases h
    | ok slots =>
      cases hk : slots.get? key with
      | none =>
        simp only [hslots, Classes.write, hk] at hu
        rw [hu.1] at h
        cases h
      | some slot => exact ⟨o, slots, slot, rfl, hslots, hk⟩

/-- All that a write that succeeds has done. -/
theorem assign_ok (hs : s.state.registry.Sound s.state.classes) {o : Instance}
    (ho : s.state.objects[place]? = some o) {slots : Table Slot}
    (hslots : s.state.classes.slotsOf settings o.index = .ok slots) {slot : Slot}
    (hk : slots.get? key = some slot) {old : Value} {t : Logged Workspace}
    (h : Workspace.assign settings place key value s = .ok old t) :
    t.state.classes = s.state.classes ∧ t.state.registry.Sound t.state.classes ∧
      slot.readOnly = false ∧ s.state.classes.isAssignable o key = true ∧
      s.state.classes.attribute? o key = some old ∧
      t.state.objects = s.state.objects.set place ⟨o.index, o.attributes.set key value⟩ := by
  have hname : slot.name = key := Classes.slotsOf_name hslots hk
  obtain ⟨u, hc, hsound, hu⟩ := assign_of_slot hs ho hslots hk value
  cases hp : s.state.classes.put settings.checkTypes slot o key value with
  | error e =>
    simp only [hp] at hu
    rw [hu.1] at h
    cases h
  | ok w =>
    simp only [hp] at hu
    rw [hu.1] at h
    cases h
    obtain ⟨hr, -, hassign, hold, hobject, -⟩ := Classes.put_ok.1 hp
    rw [hname] at hassign hold hobject
    exact ⟨hc, hsound, hr, hassign, hold, by rw [hu.2, hobject]⟩

/-- After a write the object at its place is the one that the write has left. -/
theorem object_of_set {w v : Workspace} {o p : Instance} (ho : w.objects[place]? = some o)
    (hv : v.objects = w.objects.set place p) : v.objects[place]? = some p := by
  obtain ⟨hlt, -⟩ := List.getElem?_eq_some_iff.1 ho
  rw [hv, List.getElem?_set_self hlt]

/-- A write to an object is taken back: all attributes are as they were at the start, and if the
object owned the attribute of the key, the objects are the same. -/
structure TakenBack (start : Workspace) (place : Nat) (key : String) (w : Workspace) : Prop where
  classes : w.classes = start.classes
  attributes : ∀ other name, w.attributeAt other name = start.attributeAt other name
  objects : (∀ o, start.objects[place]? = some o → key ∈ o.attributes.keys) →
    w.objects = start.objects

/-- Setting an attribute and then its old value takes the first write back. -/
theorem takenBack_of_set {start w v : Workspace} {o : Instance} {old : Value}
    (hcw : w.classes = start.classes) (hcv : v.classes = w.classes)
    (ho : start.objects[place]? = some o) (hold : start.classes.attribute? o key = some old)
    (hw : w.objects = start.objects.set place ⟨o.index, o.attributes.set key value⟩)
    (hv : v.objects = w.objects.set place ⟨o.index, (o.attributes.set key value).set key old⟩) :
    TakenBack start place key v where
  classes := hcv.trans hcw
  attributes := by
    intro other name
    rw [attributeAt_set hcv (object_of_set ho hw) hv.symm, attributeAt_set hcw ho hw.symm]
    split
    · next hon =>
      obtain ⟨rfl, rfl⟩ := hon
      rw [attributeAt, ho, Option.bind_some, hold]
    · rfl
  objects := by
    intro hown
    -- The object's own attribute has the value that was found, not one of a class.
    obtain ⟨found, hfound⟩ := Option.isSome_iff_exists.1 (Table.contains_iff.2 (hown o ho))
    obtain rfl : found = old := by simpa [Classes.attribute?, hfound] using hold
    rw [hv, hw, List.set_set, Table.set_set_of_get? hfound]
    obtain ⟨hlt, rfl⟩ := List.getElem?_eq_some_iff.1 ho
    exact List.set_getElem_self hlt

section WritingBack

variable {o : Instance} {slots : Table Slot} {slot : Slot} {old : Value} {t : Logged Workspace}

/-- An old value that fits is written back. -/
theorem assign_back_of_admits (hs : s.state.registry.Sound s.state.classes)
    (ho : s.state.objects[place]? = some o)
    (hslots : s.state.classes.slotsOf settings o.index = .ok slots)
    (hk : slots.get? key = some slot)
    (h : Workspace.assign settings place key value s = .ok old t)
    (hadmits : slot.Admits settings old) :
    ∃ u, Workspace.assign settings place key old t = .ok value u ∧
      TakenBack s.state place key u.state := by
  have hname : slot.name = key := Classes.slotsOf_name hslots hk
  obtain ⟨hc, hsound, hr, hassign, hold, hobjects⟩ := assign_ok hs ho hslots hk h
  have ho' := object_of_set ho hobjects
  have hslots' : t.state.classes.slotsOf settings o.index = .ok slots := by rw [hc, hslots]
  -- The slot takes the old value for the reasons for which it took the new one.
  have hput : t.state.classes.put settings.checkTypes slot
      ⟨o.index, o.attributes.set key value⟩ key old =
        .ok ⟨value, ⟨o.index, (o.attributes.set key value).set key old⟩, slot⟩ := by
    refine Classes.put_ok.2 ⟨hr, hadmits, ?_, ?_, by rw [hname], rfl⟩
    · rw [hc, hname, ← hassign]
      exact Classes.isAssignable_congr rfl key
    · rw [hname, Classes.attribute?_set, if_pos rfl]
  obtain ⟨u, hcu, -, hu⟩ := assign_of_slot hsound ho' hslots' hk old
  simp only [hput] at hu
  exact ⟨u, hu.1, takenBack_of_set hc hcu ho hold hobjects hu.2⟩

/-- An old value that does not fit is refused. -/
theorem assign_back_of_not_admits (hs : s.state.registry.Sound s.state.classes)
    (ho : s.state.objects[place]? = some o)
    (hslots : s.state.classes.slotsOf settings o.index = .ok slots)
    (hk : slots.get? key = some slot)
    (h : Workspace.assign settings place key value s = .ok old t)
    (hnot : ¬ slot.Admits settings old) :
    ∃ u, Workspace.assign settings place key old t =
        .error (if old.isWritable then .unfit slot.qualifiedName key old else .digits .writing) u ∧
      u.state.objects = t.state.objects := by
  obtain ⟨hc, hsound, hr, -, -, hobjects⟩ := assign_ok hs ho hslots hk h
  have ho' := object_of_set ho hobjects
  have hslots' : t.state.classes.slotsOf settings o.index = .ok slots := by rw [hc, hslots]
  obtain ⟨hcheck, hf⟩ := Slot.not_admits_iff.1 hnot
  have hput : t.state.classes.put settings.checkTypes slot
      ⟨o.index, o.attributes.set key value⟩ key old =
        .error (if old.isWritable then .unfit slot.qualifiedName key old
          else .digits .writing) := by
    rw [Classes.put_error]
    cases hw : old.isWritable with
    | true => exact .unfit hr hcheck hf hw
    | false => exact .unshown hr hcheck hf hw
  obtain ⟨u, -, -, hu⟩ := assign_of_slot hsound ho' hslots' hk old
  simp only [hput] at hu
  exact ⟨u, hu⟩

end WritingBack

end Workspace

/-- **A write is taken back by writing the old value, if that fits.** Let a write to an object
succeed, whatever its attributes and the settings are. Then its key has a slot. If the old value
passes the type check of the slot, or types are not checked, it can be written and gives back the
value that was written first; all attributes of all objects are as they were before the first write,
and the objects are the same if the attribute was the object's own. Else it is refused as unfit, or
because it cannot be shown, and nothing changes. What was looked up in the registry before does not
matter. -/
theorem Workspace.assign_back {settings : Settings} {place : Nat} {key : String} {value : Value}
    {classes : Classes} {objects : List Instance} {lookups : List (Settings × Nat)}
    {log : List LogEntry} {old : Value} {t : Logged Workspace}
    (h : Workspace.assign settings place key value
      ⟨⟨classes, objects, .after classes lookups⟩, log⟩ = .ok old t) :
    ∃ o slots slot, objects[place]? = some o ∧ classes.slotsOf settings o.index = .ok slots ∧
      slots.get? key = some slot ∧
      (slot.Admits settings old → ∃ u, Workspace.assign settings place key old t = .ok value u ∧
        TakenBack ⟨classes, objects, .after classes lookups⟩ place key u.state) ∧
      (¬ slot.Admits settings old → ∃ u, Workspace.assign settings place key old t =
          .error (if old.isWritable then .unfit slot.qualifiedName key old
            else .digits .writing) u ∧
        u.state.objects = t.state.objects) := by
  have hs : (Registry.after classes lookups).Sound classes := Registry.sound_after classes lookups
  obtain ⟨o, slots, slot, ho, hslots, hk⟩ := Workspace.exists_slot_of_assign hs h
  refine ⟨o, slots, slot, ho, hslots, hk, ?_, ?_⟩
  · intro hadmits
    exact Workspace.assign_back_of_admits hs ho hslots hk h hadmits
  · intro hnot
    exact Workspace.assign_back_of_not_admits hs ho hslots hk h hnot

/-- An object without attributes of its own: the default of its class is found, overwritten and
written back. -/
theorem Workspace.assign_back_inherited :
    let ds : List ClassDecl := [⟨"Button", [],
      [⟨"arc", .source "int", some (.whole 6), true, false⟩], "app.styles", "Button", true, false,
      fun _ => none⟩]
    let cs : Classes := (Classes.ofDecls ds).toOption.getD []
    let start : Logged Workspace := ⟨⟨cs, [⟨0, .empty⟩], .after cs []⟩, []⟩
    ∃ old t u, Workspace.assign .standard 0 "arc" (.whole 8) start = .ok old t ∧
      Workspace.assign .standard 0 "arc" old t = .ok (.whole 8) u ∧
      ∀ name, u.state.attributeAt 0 name = start.state.attributeAt 0 name := by
  intro ds cs start
  have hfits : (match Workspace.assign .standard 0 "arc" (.whole 8) start with
      | .ok old _ => (cs.slotsOf .standard 0).toOption.any fun slots =>
          (slots.get? "arc").any fun slot => slot.hint.accepts old
      | .error _ _ => false) = true := by
    decide +kernel
  cases h : Workspace.assign .standard 0 "arc" (.whole 8) start with
  | error e t => simp [h] at hfits
  | ok old t =>
    obtain ⟨o, slots, slot, ho, hslots, hk, hback, -⟩ := Workspace.assign_back h
    obtain rfl : o = ⟨0, .empty⟩ := (Option.some.inj ho).symm
    have hslots' : cs.slotsOf .standard 0 = .ok slots := hslots
    have hadmits : slot.Admits .standard old := by
      intro _
      simpa [h, hslots', hk, Except.toOption] using hfits
    obtain ⟨u, hu, htaken⟩ := hback hadmits
    exact ⟨old, t, u, rfl, hu, htaken.attributes 0⟩

/-- An attribute that is declared as an integer and holds null: the write of an integer succeeds,
and null is not taken back. -/
theorem Workspace.not_assign_back_of_unfit :
    ¬∀ (ds : List ClassDecl) (cs : Classes) (objects : List Instance)
      (lookups : List (Settings × Nat)) (log : List LogEntry) (settings : Settings) (place : Nat)
      (key : String) (value old : Value) (t : Logged Workspace), Classes.ofDecls ds = .ok cs →
      Workspace.assign settings place key value ⟨⟨cs, objects, .after cs lookups⟩, log⟩ =
        .ok old t →
      ∃ u, Workspace.assign settings place key old t = .ok value u ∧
        ∀ other name, u.state.attributeAt other name =
          (Workspace.mk cs objects (.after cs lookups)).attributeAt other name := by
  intro hall
  let ds : List ClassDecl := [⟨"A", [], [⟨"arc", .source "int", some .null, true, false⟩],
    "app.styles", "A", true, false, fun _ => none⟩]
  let cs : Classes := (Classes.ofDecls ds).toOption.getD []
  let objects : List Instance := [⟨0, .ofList [("arc", .null)]⟩]
  let start : Logged Workspace := ⟨⟨cs, objects, .after cs []⟩, []⟩
  have hbuilt : Classes.ofDecls ds = .ok cs := rfl
  have hrefused : (match Workspace.assign .standard 0 "arc" (.whole 5) start with
      | .ok old t =>
        match Workspace.assign .standard 0 "arc" old t with
        | .ok _ _ => false
        | .error _ _ => true
      | .error _ _ => false) = true := by
    decide +kernel
  cases h : Workspace.assign .standard 0 "arc" (.whole 5) start with
  | error e t => simp [h] at hrefused
  | ok old t =>
    obtain ⟨u, hu, -⟩ := hall ds cs objects [] [] .standard 0 "arc" (.whole 5) old t hbuilt h
    simp [h, hu] at hrefused

end Styling
