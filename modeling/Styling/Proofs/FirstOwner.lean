import Styling.Proofs.Chain
import Styling.Proofs.Declarations

/-!
# The first owner of a key

A chain of objects passes over those that have no slot for a key and stops at the first other one
(`Workspace.route_of_first`). There the value is written, and one attribute of one object changes,
or the object refuses and nothing changes at all; what stands behind it in the chain is never tried
(`Workspace.assignFirst_outcome`). A chain also stops at an object whose slots cannot be collected,
although the object may declare nothing for the key (`Workspace.not_unknownKey_of_unreadable`).
-/

set_option autoImplicit false

namespace Styling

namespace Workspace

/-! ## Passing over objects -/

/-- The slots of the object at a place are known and none of them is for the key. A place without
an object is passed over as well. -/
def Passes (w : Workspace) (settings : Settings) (key : String) (place : Nat) : Prop :=
  ∀ o, w.objects[place]? = some o →
    ∃ slots, w.classes.slotsOf settings o.index = .ok slots ∧ slots.get? key = none

/-- The chain comes to a place: all places before it are passed over. -/
def ComesToPlace (w : Workspace) (settings : Settings) (places : List Nat) (key : String)
    (place : Nat) : Prop :=
  ∃ before after, places = before ++ place :: after ∧
    ∀ other ∈ before, w.Passes settings key other

/-- The first object of the chain that has a slot for the key, with its place and the slot. -/
structure FirstOwner (w : Workspace) (settings : Settings) (places : List Nat) (key : String)
    (place : Nat) (o : Instance) (slot : Slot) : Prop where
  first : w.ComesToPlace settings places key place
  object : w.objects[place]? = some o
  slot : ∃ slots, w.classes.slotsOf settings o.index = .ok slots ∧ slots.get? key = some slot

/-- The chain comes to an object whose slots cannot be collected. -/
structure FirstUnreadable (w : Workspace) (settings : Settings) (places : List Nat) (key : String)
    (place : Nat) (e : SourceError) : Prop where
  first : w.ComesToPlace settings places key place
  slots : ∃ o, w.objects[place]? = some o ∧ w.classes.slotsOf settings o.index = .error e

/-- Where a key leads: nowhere if all places are passed over, and else to the first other one. -/
inductive Routed (w : Workspace) (settings : Settings) (places : List Nat) (key : String) :
    Except SourceError (Option (Nat × Slot)) → Prop where
  | nowhere (h : ∀ place ∈ places, w.Passes settings key place) :
    Routed w settings places key (.ok none)
  | owner {place : Nat} {o : Instance} {slot : Slot}
    (h : w.FirstOwner settings places key place o slot) :
    Routed w settings places key (.ok (some (place, slot)))
  | unreadable {place : Nat} {e : SourceError} (h : w.FirstUnreadable settings places key place e) :
    Routed w settings places key (.error e)

section Routed

variable {w : Workspace} {settings : Settings} {key : String} {places : List Nat} {place : Nat}

theorem passes_of_missing (h : w.objects[place]? = none) : w.Passes settings key place := by
  intro o ho
  rw [h] at ho
  cases ho

theorem ComesToPlace.head : w.ComesToPlace settings (place :: places) key place :=
  ⟨[], places, rfl, fun _ h => absurd h List.not_mem_nil⟩

theorem ComesToPlace.cons {first : Nat} (hf : w.Passes settings key first)
    (h : w.ComesToPlace settings places key place) :
    w.ComesToPlace settings (first :: places) key place := by
  obtain ⟨before, after, rfl, hbefore⟩ := h
  exact ⟨first :: before, after, rfl, List.forall_mem_cons.2 ⟨hf, hbefore⟩⟩

/-- One more place in front that is passed over changes nothing. -/
theorem Routed.cons {first : Nat} (hf : w.Passes settings key first)
    {target : Except SourceError (Option (Nat × Slot))} (h : w.Routed settings places key target) :
    w.Routed settings (first :: places) key target := by
  cases h with
  | nowhere h => exact .nowhere (List.forall_mem_cons.2 ⟨hf, h⟩)
  | owner h => exact .owner ⟨h.first.cons hf, h.object, h.slot⟩
  | unreadable h => exact .unreadable ⟨h.first.cons hf, h.slots⟩

/-- The route of a key is decided by the first place that is not passed over. -/
theorem route_of_first (w : Workspace) (settings : Settings) (key : String) (places : List Nat) :
    w.Routed settings places key (w.classes.route settings w.indices key places) := by
  induction places with
  | nil => exact .nowhere fun _ h => absurd h List.not_mem_nil
  | cons first places ih =>
    cases ho : w.objects[first]? with
    | none =>
      have hi : w.indices[first]? = none := by simp [indices, ho]
      simp only [Classes.route, hi]
      exact ih.cons (passes_of_missing ho)
    | some o =>
      simp only [Classes.route, indices_of_object ho]
      cases hs : w.classes.slotsOf settings o.index with
      | error e => exact .unreadable ⟨.head, o, ho, hs⟩
      | ok slots =>
        simp only
        cases hk : slots.get? key with
        | some slot => exact .owner ⟨.head, ho, slots, hs, hk⟩
        | none =>
          -- The slots of the first object are known, and the key is not among them.
          have hpass : w.Passes settings key first := by
            intro p hp
            obtain rfl := Option.some.inj (ho.symm.trans hp)
            exact ⟨slots, hs, hk⟩
          exact ih.cons hpass

theorem FirstOwner.name {o : Instance} {slot : Slot}
    (h : w.FirstOwner settings places key place o slot) : slot.name = key := by
  obtain ⟨slots, hs, hk⟩ := h.slot
  exact Classes.slotsOf_name hs hk

end Routed

/-! ## What a call of the chain comes to -/

/-- The classes and the objects are as they were. -/
structure Unchanged (start w : Workspace) : Prop where
  classes : w.classes = start.classes
  objects : w.objects = start.objects

theorem Unchanged.attributeAt {start w : Workspace} (h : Unchanged start w) (place : Nat)
    (name : String) : w.attributeAt place name = start.attributeAt place name :=
  attributeAt_congr h.classes h.objects place name

/-- What writing a value for a key to a chain of objects comes to. -/
inductive ChainOutcome (settings : Settings) (places : List Nat) (key : String) (value : Value)
    (start : Workspace) : EStateM.Result AssignError (Logged Workspace) Value → Prop where
  /-- No object has a slot for the key. -/
  | unowned {t : Logged Workspace} (h : ∀ place ∈ places, start.Passes settings key place)
    (ht : Unchanged start t.state) :
    ChainOutcome settings places key value start (.error (.unknownKey key) t)
  /-- The value is written to the attribute of the first owner, and to no other. -/
  | written {place : Nat} {o : Instance} {slot : Slot} {old : Value} {t : Logged Workspace}
    (h : start.FirstOwner settings places key place o slot)
    (hold : start.attributeAt place key = some old)
    (hobjects : t.state.objects =
      start.objects.set place ⟨o.index, o.attributes.set key value⟩)
    (hat : ∀ other name, t.state.attributeAt other name =
      if other = place ∧ name = key then some value else start.attributeAt other name) :
    ChainOutcome settings places key value start (.ok old t)
  /-- The first owner refuses the value. -/
  | refused {place : Nat} {o : Instance} {slot : Slot} {e : AssignError} {t : Logged Workspace}
    (h : start.FirstOwner settings places key place o slot)
    (he : Refused start.classes settings.checkTypes slot o key value e)
    (ht : Unchanged start t.state) :
    ChainOutcome settings places key value start (.error e t)
  /-- The slots of an object before the first owner, or of the owner, cannot be collected. -/
  | unreadable {place : Nat} {e : SourceError} {t : Logged Workspace}
    (h : start.FirstUnreadable settings places key place e) (ht : Unchanged start t.state) :
    ChainOutcome settings places key value start (.error (.source e) t)

section ChainOutcome

variable {settings : Settings} {places : List Nat} {key : String} {value : Value}

theorem chainOutcome {s : Logged Workspace} (hs : s.state.registry.Sound s.state.classes) :
    ChainOutcome settings places key value s.state
      (Workspace.assignFirst settings places key value s) := by
  obtain ⟨t, hc, -, ht⟩ := assignFirst_spec settings hs places key value
  have hrouted := s.state.route_of_first settings key places
  rw [setFirst] at ht
  generalize s.state.classes.route settings s.state.indices key places = target at ht hrouted
  cases hrouted with
  | nowhere h =>
    rw [ht.1]
    exact .unowned h ⟨hc, ht.2⟩
  | unreadable h =>
    rw [ht.1]
    exact .unreadable h ⟨hc, ht.2⟩
  | @owner place o slot h =>
    simp only [h.object] at ht
    cases hp : s.state.classes.put settings.checkTypes slot o key value with
    | error e =>
      rw [hp] at ht
      rw [ht.1]
      exact .refused h (Classes.put_error.1 hp) ⟨hc, ht.2⟩
    | ok w =>
      rw [hp] at ht
      obtain ⟨-, -, -, hold, hobject, -⟩ := Classes.put_ok.1 hp
      rw [h.name] at hold hobject
      have hobjects : t.state.objects =
          s.state.objects.set place ⟨o.index, o.attributes.set key value⟩ := by
        rw [ht.2, hobject]
      have hat : s.state.attributeAt place key = some w.old := by
        rw [attributeAt, h.object, Option.bind_some, hold]
      rw [ht.1]
      exact .written h hat hobjects (attributeAt_set hc h.object hobjects.symm)

/-- Where some object is not passed over, the key is not reported as unknown. -/
theorem ChainOutcome.ne_unknownKey {start : Workspace}
    {result : EStateM.Result AssignError (Logged Workspace) Value}
    (h : ChainOutcome settings places key value start result) {place : Nat}
    (hp : place ∈ places) (hn : ¬ start.Passes settings key place) (other : String)
    (t : Logged Workspace) : result ≠ .error (.unknownKey other) t := by
  rintro rfl
  cases h with
  | unowned h ht => exact hn (h place hp)
  | refused h he ht => cases he

theorem assignFirst_cons (settings : Settings) (place : Nat) (places : List Nat) (key : String)
    (value : Value) (s : Logged Workspace) :
    Workspace.assignFirst settings (place :: places) key value s =
      match Workspace.assign settings place key value s with
      | .error (.unknownKey _) t => Workspace.assignFirst settings places key value t
      | result => result :=
  rfl

/-- The second part of a chain is tried after the first part has passed over the key. -/
theorem assignFirst_append (settings : Settings) (before after : List Nat) (key : String)
    (value : Value) (s : Logged Workspace) :
    Workspace.assignFirst settings (before ++ after) key value s =
      match Workspace.assignFirst settings before key value s with
      | .error (.unknownKey _) t => Workspace.assignFirst settings after key value t
      | result => result := by
  induction before generalizing s with
  | nil => rfl
  | cons place before ih =>
    rw [List.cons_append, assignFirst_cons, assignFirst_cons]
    cases Workspace.assign settings place key value s with
    | ok old t => rfl
    | error e t =>
      cases e with
      | unknownKey other => exact ih t
      | _ => rfl

/-- What stands behind an object that is not passed over does not matter. -/
theorem assignFirst_of_not_passes {s : Logged Workspace}
    (hs : s.state.registry.Sound s.state.classes) (before : List Nat) {place : Nat}
    (hn : ¬ s.state.Passes settings key place) (after : List Nat) :
    Workspace.assignFirst settings (before ++ place :: after) key value s =
      Workspace.assignFirst settings (before ++ [place]) key value s := by
  have houtcome : ChainOutcome settings (before ++ [place]) key value s.state
      (Workspace.assignFirst settings (before ++ [place]) key value s) := chainOutcome hs
  have hne := houtcome.ne_unknownKey (by simp) hn
  rw [← List.singleton_append, ← List.append_assoc, assignFirst_append]
  split
  · next other t ht => exact absurd ht (hne other t)
  · rfl

end ChainOutcome

end Workspace

/-- **A chain writes to the first owner of a key or changes nothing.** The outcome of a call is one
of four. If no object has a slot for the key, the key is reported as unknown. Else the first object
with a slot decides: its attribute takes the value, its value before is given back and every other
attribute of all objects stays; or it refuses, and all attributes stay. Where the slots of an object
cannot be collected up to there, that is the error, and all attributes stay. In the last three cases
what stands behind the object in the chain does not matter for the result, the log and the registry.
What was looked up in the registry before does not matter. -/
theorem Workspace.assignFirst_outcome (settings : Settings) (places : List Nat) (key : String)
    (value : Value) (classes : Classes) (objects : List Instance)
    (lookups : List (Settings × Nat)) (log : List LogEntry) :
    let start : Logged Workspace := ⟨⟨classes, objects, .after classes lookups⟩, log⟩
    let result := Workspace.assignFirst settings places key value start
    Workspace.ChainOutcome settings places key value start.state result ∧
      ∀ before place after, places = before ++ place :: after →
        ¬ start.state.Passes settings key place → ∀ others,
          Workspace.assignFirst settings (before ++ place :: others) key value start = result := by
  intro start result
  have hs : start.state.registry.Sound start.state.classes := Registry.sound_after classes lookups
  refine ⟨chainOutcome hs, ?_⟩
  rintro before place after rfl hn others
  exact (assignFirst_of_not_passes hs before hn others).trans
    (assignFirst_of_not_passes hs before hn after).symm

/-- A chain with repetitions: the object that is tried first, and once more, has no slot for the key,
and the one behind it takes the value. -/
theorem Workspace.assignFirst_outcome_second :
    let field (name : String) (hint : Hint) : FieldDecl := ⟨name, .hint hint, none, true, false⟩
    let record (name : String) (index : Nat) (fields : List FieldDecl) : Class :=
      ⟨⟨name, [], fields, "app.styles", name, true, false, fun _ => none⟩,
        [.declared index, .root], .empty, some (.ofList (fields.map fun f => (f.name, f.entry)))⟩
    let classes : Classes :=
      [record "Edge" 0 [field "arc" (.kind .int)],
        record "Box" 1 [field "gap" (.kind .float), field "arc" (.kind .str)]]
    let objects : List Instance :=
      [⟨0, .ofList [("arc", .whole 6)]⟩, ⟨1, .ofList [("gap", .whole 2), ("arc", .text "round")]⟩]
    let start : Logged Workspace := ⟨⟨classes, objects, .after classes [(.standard, 1)]⟩, []⟩
    ¬ start.state.Passes .standard "gap" 1 ∧
      ∃ old t, Workspace.ChainOutcome .standard [0, 0, 1, 0, 1] "gap" (.whole 5) start.state
          (.ok old t) ∧
        ∀ others, Workspace.assignFirst .standard ([0, 0] ++ 1 :: others) "gap" (.whole 5) start =
          .ok old t := by
  intro field record classes objects start
  have hslot : ((classes.slotsOf .standard 1).toOption.bind fun slots =>
      slots.get? "gap").isSome = true := by
    decide +kernel
  have hnot : ¬ start.state.Passes .standard "gap" 1 := by
    intro hpass
    obtain ⟨slots, hs, hk⟩ := hpass _ rfl
    have hs' : classes.slotsOf .standard 1 = .ok slots := hs
    simp [hs', hk, Except.toOption] at hslot
  have hok : (answer (Workspace.assignFirst .standard [0, 0, 1, 0, 1] "gap" (.whole 5)
      start)).toOption.isSome = true := by
    decide +kernel
  obtain ⟨houtcome, hlater⟩ := Workspace.assignFirst_outcome .standard [0, 0, 1, 0, 1] "gap"
    (.whole 5) classes objects [(.standard, 1)] []
  have hsame := hlater [0, 0] 1 [0, 1] rfl hnot
  cases h : Workspace.assignFirst .standard [0, 0, 1, 0, 1] "gap" (.whole 5) start with
  | error e t => simp [h, answer, Except.toOption] at hok
  | ok old t =>
    rw [h] at houtcome
    exact ⟨hnot, old, t, houtcome, fun others => (hsame others).trans h⟩

/-- A class with one field, whose annotation joins a type and a name in quotation marks, which is no
type: no object of the chain declares anything for the key, but the key is not reported as
unknown. -/
theorem Workspace.not_unknownKey_of_unreadable :
    ¬∀ (ds : List ClassDecl) (cs : Classes) (objects : List Instance)
      (lookups : List (Settings × Nat)) (log : List LogEntry) (settings : Settings)
      (places : List Nat) (key : String) (value : Value), Classes.ofDecls ds = .ok cs →
      (∀ place ∈ places, ∀ o, objects[place]? = some o → ∀ i c,
        .declared i ∈ cs.linearization (.declared o.index) → cs[i]? = some c →
          ¬ c.Declares settings key) →
      ∃ t, Workspace.assignFirst settings places key value
        ⟨⟨cs, objects, .after cs lookups⟩, log⟩ = .error (.unknownKey key) t := by
  intro hall
  let d : ClassDecl := ⟨"A", [], [⟨"tint", .source "Color | 'Later'", some .null, true, false⟩],
    "app.styles", "A", true, false, fun _ => none⟩
  let c : Class := ⟨d, [.declared 0, .root], .ofList [("tint", .null)],
    some (.ofList [("tint", ⟨some .null, false⟩)])⟩
  let objects : List Instance := [⟨0, .ofList [("tint", .null)]⟩]
  have hbuilt : Classes.ofDecls [d] = .ok [c] := rfl
  have hnone : ∀ place ∈ [0], ∀ o, objects[place]? = some o → ∀ i c',
      .declared i ∈ Classes.linearization [c] (.declared o.index) → [c][i]? = some c' →
        ¬ c'.Declares .standard "gap" := by
    intro place hp o ho i c' _ hc' hdeclares
    obtain ⟨-, -, f, hf, -, hname⟩ := hdeclares
    obtain rfl : c' = c := List.mem_singleton.1 (List.mem_of_getElem? hc')
    obtain rfl := List.mem_singleton.1 hf
    exact absurd hname (by decide)
  have hfails : (match Workspace.assignFirst .standard [0] "gap" (.whole 8)
        ⟨⟨[c], objects, .after [c] []⟩, []⟩ with
      | .error (.unknownKey _) _ => false
      | _ => true) = true := by
    decide +kernel
  obtain ⟨t, ht⟩ := hall [d] [c] objects [] [] .standard [0] "gap" (.whole 8) hbuilt hnone
  rw [ht] at hfails
  cases hfails

end Styling
