import Styling.Proofs.Chain
import Styling.Proofs.Styler

/-!
# Stacked styles on typed objects unwind

Styles are stacked on a chain of typed objects, each keeping the values before it. Taking them off
again, the last one first, is never refused: the values that a style has displaced fit their slots,
because all values do (`Workspace.undo`). Each style taken off leaves all attributes as they were
when it was put on (`stacked_unwinds`).
-/

set_option autoImplicit false

namespace Styling

variable {σ ε : Type}

/-! ## Stacks of styles -/

/-- What is kept of a style that was put on: the state before, and the values it has displaced. -/
structure Layer (σ : Type) where
  before : Logged σ
  old : Option (Table Value)

/-- Applies mappings one on top of the other; the last layer comes first. There is no stack when one
of them cannot be applied. -/
def stack (apply : ApplyFunction σ ε) (coercer : Coercer) :
    List (Table Value) → List (Layer σ) × Logged σ → Option (List (Layer σ) × Logged σ)
  | [], p => some p
  | m :: ms, (layers, s) =>
    match applyStyle apply coercer none (.mapping m) s with
    | .ok old t => stack apply coercer ms (⟨s, old⟩ :: layers, t)
    | .error _ _ => none

/-- All layers come off without an error, and each leaves a state that is related to the one before
the layer was put on. -/
def Unwinds (apply : ApplyFunction σ ε) (coercer : Coercer) (restored : σ → σ → Prop) :
    List (Layer σ) → Logged σ → Prop
  | [], _ => True
  | layer :: below, s =>
    ∃ t, applyStyle apply coercer layer.old .absent s = .ok none t ∧
      restored layer.before.state t.state ∧ Unwinds apply coercer restored below t

/-! ## Objects with the same attributes -/

namespace Workspace

/-- Objects of the same classes with the same attributes are the same objects. -/
theorem objects_eq {w v : Workspace} (hi : v.indices = w.indices)
    (hn : v.attributeNames = w.attributeNames)
    (ha : ∀ place name, v.attributeAt place name = w.attributeAt place name) :
    v.objects = w.objects := by
  apply List.ext_getElem?
  intro place
  cases hw : w.objects[place]? with
  | none =>
    have hlen : v.objects.length = w.objects.length := by
      simpa [indices] using congrArg List.length hi
    rw [List.getElem?_eq_none_iff] at hw ⊢
    omega
  | some o =>
    -- There is an object of the same class at the place; its attributes are compared by name.
    obtain ⟨p, hv, hop⟩ := exists_object hi.symm hw
    have hkeys : p.attributes.keys = o.attributes.keys := by
      have hat := congrArg (fun names : List (List String) => names[place]?) hn
      simpa [attributeNames, hw, hv] using hat
    have hattributes : p.attributes = o.attributes := by
      refine Table.ext_get? hkeys fun key hkey => ?_
      obtain ⟨a, hpa⟩ := Option.isSome_iff_exists.1 (Table.contains_iff.2 hkey)
      obtain ⟨b, hob⟩ := Option.isSome_iff_exists.1 (Table.contains_iff.2 (hkeys ▸ hkey))
      have hat := ha place key
      simp only [attributeAt, hw, hv, Option.bind_some, Classes.attribute?, hpa, hob] at hat
      rw [hpa, hob, hat]
    obtain ⟨index, attributes⟩ := p
    obtain ⟨index', attributes'⟩ := o
    simp only at hop hattributes
    rw [hv, hop, hattributes]

/-- The objects have the same attributes again. Objects that own the attributes of their slots are
the same objects again. -/
structure Restored (settings : Settings) (places : List Nat) (before after : Workspace) :
    Prop where
  classes : after.classes = before.classes
  sound : after.registry.Sound after.classes
  indices : after.indices = before.indices
  attributes : ∀ place name, after.attributeAt place name = before.attributeAt place name
  objects : before.OwnsSlots settings places → after.objects = before.objects

variable {settings : Settings} {places : List Nat} {base : Workspace}

theorem Restored.refl {w : Workspace} (hs : w.registry.Sound w.classes) :
    Restored settings places w w :=
  ⟨rfl, hs, rfl, fun _ _ => rfl, fun _ => rfl⟩

theorem Within.of_restored {w v : Workspace} (h : Within settings places base w)
    (hr : Restored settings places w v) : Within settings places base v := by
  refine ⟨hr.classes.trans h.classes, hr.sound, hr.indices.trans h.indices, ?_, ?_, ?_, ?_⟩
  · intro place name
    rw [hr.attributes, h.isSome]
  · intro place name hnot
    rw [hr.attributes, h.frame place name hnot]
  · intro hown
    have hnw := h.names hown
    have hv := hr.objects (hown.congr h.classes.symm h.indices.symm hnw.symm)
    exact (congrArg (List.map fun o : Instance => o.attributes.keys) hv).trans hnw
  · intro place hp index slots key slot value hi hsl hk hvalue
    rw [hr.attributes] at hvalue
    exact h.fits place hp index slots key slot value (hr.indices ▸ hi) (hr.classes ▸ hsl) hk hvalue

/-! ## Putting on and taking off -/

/-- The value that a key leads to fits there, so it is open to the key if any value is. -/
theorem Opens.valueFor {w : Workspace} (hf : w.Fits settings places) {key : String}
    {value : Value} {place : Nat} {slot : Slot}
    (h : w.Opens settings places key value place slot) :
    w.Opens settings places key (w.valueFor settings places key) place slot := by
  refine ⟨h.route, h.writable, fun _ => ?_, h.assignable, h.isSome⟩
  obtain ⟨v, hv⟩ := Option.isSome_iff_exists.1 h.isSome
  obtain ⟨hp, index, slots, hi, hs, hk⟩ := Classes.route_some h.route
  have hvalue : w.valueFor settings places key = v := by simp [Workspace.valueFor, h.route, hv]
  rw [hvalue]
  exact hf place hp index slots key slot v hi hs hk hv

/-- A state of the chain in which the keys have their values from the start has the attributes from
the start. -/
theorem Reached.restored {w : Workspace} (hs : base.registry.Sound base.classes)
    (h : Reached settings places base w)
    (hv : w.valueFor settings places = base.valueFor settings places) :
    Restored settings places base w := by
  have hattributes := Reached.attributeAt_eq (.refl hs) h hv
  exact ⟨h.classes, h.sound, h.indices, hattributes, fun hown =>
    objects_eq h.indices (h.names hown) hattributes⟩

theorem Restored.valueFor {w v : Workspace} (h : Restored settings places w v) :
    v.valueFor settings places = w.valueFor settings places := by
  funext key
  unfold Workspace.valueFor
  rw [h.classes, h.indices]
  split
  · rw [h.attributes]
  · rfl

/-- What a mapping has displaced can be written back. -/
theorem opens_of_applyMapping {m old : Table Value} {s t : Logged Workspace}
    (hs : s.state.registry.Sound s.state.classes) (hf : s.state.Fits settings places)
    (h : applyMapping (Workspace.assignFirst settings places) m s = .ok (some old) t) :
    ∀ e ∈ old.entries, ∃ place slot, s.state.Opens settings places e.1 e.2 place slot := by
  obtain ⟨-, hopens, -, hold⟩ := applyMapping_ok hs h
  split at hold
  · cases hold
  · obtain rfl := Option.some.inj hold
    -- A displaced value comes from a key of the mapping, which was open to another value.
    intro e hmem
    have hget := Table.get?_of_mem hmem
    rw [get?_displaced m.distinct] at hget
    split at hget
    · next hkey =>
      obtain ⟨f, hmem, hfe⟩ := List.mem_map.1 hkey
      obtain ⟨place, slot, hopen⟩ := hopens f hmem
      rw [← Option.some.inj hget, ← hfe]
      exact ⟨place, slot, hopen.valueFor hf⟩
    · cases hget

/-- A mapping that was applied to typed objects leaves typed objects, and comes off again. -/
theorem undo (hc : settings.checkTypes = true) {coercer : Coercer} {s t : Logged Workspace}
    {m : Table Value} {old : Option (Table Value)} (hs : s.state.registry.Sound s.state.classes)
    (hf : s.state.Fits settings places)
    (h : applyStyle (Workspace.assignFirst settings places) coercer none (.mapping m) s =
      .ok old t) :
    Within settings places s.state t.state ∧
      ∀ u : Logged Workspace, Restored settings places t.state u.state →
        ∃ v, applyStyle (Workspace.assignFirst settings places) coercer old .absent u =
          .ok none v ∧ Restored settings places s.state v.state := by
  have hbase : Within settings places s.state s.state := .refl hs hf
  have hb := chain_storeBacked hc places s.state
  rw [applyStyle_mapping] at h
  cases hm : applyMapping (Workspace.assignFirst settings places) m s with
  | error e u => simp [hm] at h
  | ok old' t' =>
    simp only [hm, EStateM.Result.ok.injEq] at h
    obtain ⟨rfl, rfl⟩ := h
    obtain ⟨hwt, hoverlay⟩ := Styler.applyMapping_ok hb hbase hm
    refine ⟨hwt, fun u hu => ?_⟩
    -- The revert cannot be refused: every old value fits the slot that it was taken from.
    have hwu : Within settings places s.state u.state := hwt.of_restored hu
    obtain ⟨v, hv⟩ : ∃ v, revert (Workspace.assignFirst settings places) old' u = .ok () v := by
      cases old' with
      | none => exact ⟨u, rfl⟩
      | some old =>
        obtain ⟨written, v, hwrite⟩ := writeEntries_of_opens .reverted .empty hwu.reached
          (opens_of_applyMapping hs hf hm)
        exact ⟨v, by rw [revert_some, hwrite]⟩
    refine ⟨v, by rw [applyStyle_absent, hv], ?_⟩
    obtain ⟨hwv, hread⟩ := Styler.revert_ok hb hwu hv
    exact hwv.reached.restored hs (by rw [hread, hu.valueFor, hoverlay])

end Workspace

/-- The invariant of stacking: values fit, now and before each layer, and the layers come off any
objects that have the attributes which the objects have now. -/
structure WellStacked (settings : Settings) (places : List Nat) (coercer : Coercer)
    (start : Workspace) (layers : List (Layer Workspace)) (s : Logged Workspace) : Prop where
  sound : s.state.registry.Sound s.state.classes
  fits : s.state.Fits settings places
  owns : start.OwnsSlots settings places → s.state.OwnsSlots settings places
  fitsBefore : ∀ layer ∈ layers, layer.before.state.Fits settings places
  ownsBefore : start.OwnsSlots settings places →
    ∀ layer ∈ layers, layer.before.state.OwnsSlots settings places
  unwinds : ∀ u : Logged Workspace, Workspace.Restored settings places s.state u.state →
    Unwinds (Workspace.assignFirst settings places) coercer
      (Workspace.Restored settings places) layers u

namespace WellStacked

variable {settings : Settings} {places : List Nat} {coercer : Coercer} {start : Workspace}
  {layers : List (Layer Workspace)} {s t : Logged Workspace}

/-- One more style. -/
theorem push (hc : settings.checkTypes = true)
    (h : WellStacked settings places coercer start layers s) {m : Table Value}
    {old : Option (Table Value)}
    (happly : applyStyle (Workspace.assignFirst settings places) coercer none (.mapping m) s =
      .ok old t) :
    WellStacked settings places coercer start (⟨s, old⟩ :: layers) t := by
  obtain ⟨hwt, hundo⟩ := Workspace.undo hc h.sound h.fits happly
  refine ⟨hwt.sound, hwt.fits, ?_, ?_, ?_, ?_⟩
  · intro hown
    have hs := h.owns hown
    exact hs.congr hwt.classes.symm hwt.indices.symm (hwt.names hs).symm
  · intro layer hl
    rcases List.mem_cons.1 hl with rfl | hl
    · exact h.fits
    · exact h.fitsBefore layer hl
  · intro hown layer hl
    rcases List.mem_cons.1 hl with rfl | hl
    · exact h.owns hown
    · exact h.ownsBefore hown layer hl
  · intro u hu
    -- The new layer comes off first; those below find the attributes that they were put on.
    obtain ⟨v, hv, hrestored⟩ := hundo u hu
    exact ⟨v, hv, hrestored, h.unwinds v hrestored⟩

/-- Any number of styles. -/
theorem stack (hc : settings.checkTypes = true)
    (h : WellStacked settings places coercer start layers s) {styles : List (Table Value)}
    {above : List (Layer Workspace)}
    (hstack : stack (Workspace.assignFirst settings places) coercer styles (layers, s) =
      some (above, t)) :
    WellStacked settings places coercer start above t := by
  induction styles generalizing layers s with
  | nil =>
    cases hstack
    exact h
  | cons m ms ih =>
    simp only [Styling.stack] at hstack
    cases happly :
      applyStyle (Workspace.assignFirst settings places) coercer none (.mapping m) s with
    | error e u => simp [happly] at hstack
    | ok old u =>
      simp only [happly] at hstack
      exact ih (h.push hc happly) hstack

end WellStacked

/-- **Stacked styles unwind.** On objects whose slot values fit their declared types, mappings that
are applied one on top of the other leave values that fit after every step, and come off again in
the opposite order: no revert is refused, and each one brings back the attributes from before its
mapping, or the very objects if these own the attributes of their slots. What was looked up in the
registry before does not matter. -/
theorem stacked_unwinds {settings : Settings} (hc : settings.checkTypes = true)
    (places : List Nat) (coercer : Coercer) (classes : Classes) (objects : List Instance)
    (lookups : List (Settings × Nat)) (log : List LogEntry)
    (hf : (Workspace.mk classes objects (.after classes lookups)).Fits settings places)
    (styles : List (Table Value)) {layers : List (Layer Workspace)} {t : Logged Workspace}
    (h : stack (Workspace.assignFirst settings places) coercer styles
      ([], ⟨⟨classes, objects, .after classes lookups⟩, log⟩) = some (layers, t)) :
    (∀ layer ∈ layers, layer.before.state.Fits settings places) ∧
      t.state.Fits settings places ∧
      ((Workspace.mk classes objects (.after classes lookups)).OwnsSlots settings places →
        ∀ layer ∈ layers, layer.before.state.OwnsSlots settings places) ∧
      Unwinds (Workspace.assignFirst settings places) coercer
        (Workspace.Restored settings places) layers t := by
  have hstart : WellStacked settings places coercer ⟨classes, objects, .after classes lookups⟩ []
      ⟨⟨classes, objects, .after classes lookups⟩, log⟩ :=
    ⟨Registry.sound_after classes lookups, hf, id, by simp, by simp, fun _ _ => trivial⟩
  have hend := hstart.stack hc h
  exact ⟨hend.fitsBefore, hend.fits, hend.ownsBefore, hend.unwinds t (.refl hend.sound)⟩

/-- Two objects share a slot name, one slot is optional and one takes doubles but holds an integer;
three mappings overlap in their keys. -/
theorem stacked_unwinds_overlapping :
    let field (name : String) (hint : Hint) : FieldDecl := ⟨name, .hint hint, none, true, false⟩
    let record (name : String) (index : Nat) (fields : List FieldDecl) : Class :=
      ⟨⟨name, [], fields, "app.styles", name, true, false, fun _ => none⟩,
        [.declared index, .root], .empty, some (.ofList (fields.map fun f => (f.name, f.entry)))⟩
    let classes : Classes :=
      [record "Edge" 0
          [field "arc" (.kind .int), field "color" (.union true [.kind .color, .kind .null])],
        record "Box" 1 [field "gap" (.kind .float), field "arc" (.kind .str)]]
    let objects : List Instance :=
      [⟨0, .ofList [("arc", .whole 6), ("color", .null)]⟩,
        ⟨1, .ofList [("gap", .whole 2), ("arc", .text "round")]⟩]
    let styles : List (Table Value) :=
      [.ofList [("arc", .flag true), ("gap", .whole 5)],
        .ofList [("color", .color ⟨255, 136, 0, 255⟩), ("arc", .whole 8)],
        .ofList [("gap", .real (.zero true)), ("color", .null)]]
    let start : Logged Workspace := ⟨⟨classes, objects, .after classes [(.standard, 1)]⟩, []⟩
    start.state.Fits .standard [0, 1] ∧
      ∃ layers t, stack (Workspace.assignFirst .standard [0, 1]) .standard styles ([], start) =
        some (layers, t) ∧ layers.length = 3 ∧
        Unwinds (Workspace.assignFirst .standard [0, 1]) .standard
          (Workspace.Restored .standard [0, 1]) layers t := by
  intro field record classes objects styles start
  have hf : start.state.Fits .standard [0, 1] := by decide +kernel
  have hstack : ((stack (Workspace.assignFirst .standard [0, 1]) .standard styles
      ([], start)).map fun p => p.1.length) = some 3 := by decide +kernel
  obtain ⟨⟨layers, t⟩, h, hlength⟩ := Option.map_eq_some_iff.1 hstack
  obtain ⟨-, -, -, hunwinds⟩ := stacked_unwinds rfl [0, 1] .standard classes objects
    [(.standard, 1)] [] hf styles h
  exact ⟨hf, layers, t, h, hlength, hunwinds⟩

end Styling
