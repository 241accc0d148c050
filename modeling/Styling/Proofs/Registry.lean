import Styling.Slot

/-!
# The registry keeps what collecting gives

The slots of a class are a function of the classes and the settings (`Classes.slotsOf`). A registry
is sound when each of its registrations is a value of that function. The empty registry is sound
and every look-up keeps soundness (`Registry.sound_after`), and a sound registry answers as if it
were empty (`Registry.Sound.slots_result`). A slot bears the name under which it is found
(`Classes.slotsOf_name`).
-/

set_option autoImplicit false

namespace Styling

/-! ## Settings that act alike -/

theorem Settings.contains_eq_of_same {a b : Settings} (h : a.same b = true) (name : String) :
    a.boundaryModules.contains name = b.boundaryModules.contains name := by
  simp only [Settings.same, Bool.and_eq_true, List.all_eq_true] at h
  obtain ⟨⟨-, hab⟩, hba⟩ := h
  rw [Bool.eq_iff_iff]
  constructor
  · intro hn
    exact hab name (List.contains_iff_mem.1 hn)
  · intro hn
    exact hba name (List.contains_iff_mem.1 hn)

theorem Class.isBoundary_eq_of_same {a b : Settings} (h : a.same b = true) (c : Class) :
    c.isBoundary a = c.isBoundary b := by
  simp only [Class.isBoundary, Settings.contains_eq_of_same h]

theorem Classes.addSlots_eq_of_same {a b : Settings} (h : a.same b = true) (cs : Classes)
    (slots : Table Slot) (order : List ClassRef) :
    cs.addSlots a slots order = cs.addSlots b slots order := by
  induction order generalizing slots with
  | nil => rfl
  | cons r order ih =>
    cases r with
    | library name => exact ih slots
    | declared i =>
      simp only [Classes.addSlots, Class.isBoundary_eq_of_same h, ih]

/-! ## The names of slots -/

/-- Each slot has the name under which it is found. -/
def IsNamed (slots : Table Slot) : Prop :=
  ∀ key slot, slots.get? key = some slot → slot.name = key

section Scopes

variable {scope : Scope} {c : Class}

theorem Class.slotIn_name {f : FieldDecl} {log : List LogEntry} {slot : Slot}
    (h : c.slotIn scope f = (log, .ok slot)) : slot.name = f.name := by
  simp only [Class.slotIn] at h
  cases hd : (f.annotation.declared scope).2 with
  | error e => simp [hd, Except.map] at h
  | ok d =>
    simp only [hd, Except.map, Prod.mk.injEq, Except.ok.injEq] at h
    rw [← h.2]

theorem Class.slotsIn_name {fs : List FieldDecl} {log : List LogEntry}
    {own : List (String × Slot)} (h : c.slotsIn scope fs = (log, .ok own)) :
    ∀ e ∈ own, e.2.name = e.1 := by
  induction fs generalizing log own with
  | nil =>
    cases h
    simp
  | cons f fs ih =>
    simp only [Class.slotsIn] at h
    split at h
    · exact ih h
    · cases hs : c.slotIn scope f with
      | mk first result =>
        cases result with
        | error e => simp [hs] at h
        | ok slot =>
          cases hr : c.slotsIn scope fs with
          | mk more rest =>
            cases rest with
            | error e => simp [hs, hr, Except.map] at h
            | ok others =>
              simp only [hs, hr, Except.map, Prod.mk.injEq, Except.ok.injEq] at h
              obtain ⟨-, rfl⟩ := h
              intro e he
              rcases List.mem_cons.1 he with rfl | he
              · exact Class.slotIn_name hs
              · exact ih hr e he

end Scopes

theorem Class.ownSlots_name {c : Class} {log : List LogEntry} {own : List (String × Slot)}
    (h : c.ownSlots = (log, .ok own)) : ∀ e ∈ own, e.2.name = e.1 := by
  unfold Class.ownSlots Class.ownSlotsIn at h
  split at h
  · exact Class.slotsIn_name h
  · cases h
    simp

theorem IsNamed.addNew {slots : Table Slot} (h : IsNamed slots) {own : List (String × Slot)}
    (ho : ∀ e ∈ own, e.2.name = e.1) : IsNamed (addNew slots own) := by
  unfold Styling.addNew
  induction own generalizing slots with
  | nil => exact h
  | cons e own ih =>
    refine ih ?_ fun e he => ho e (List.mem_cons_of_mem _ he)
    simp only
    split
    · exact h
    · intro key slot hk
      rw [Table.get?_set] at hk
      split at hk
      · next hek =>
        obtain rfl := Option.some.inj hk
        exact hek ▸ ho e List.mem_cons_self
      · exact h key slot hk

theorem Classes.addSlots_name {cs : Classes} {settings : Settings} {slots : Table Slot}
    (hn : IsNamed slots) {order : List ClassRef} {log : List LogEntry} {all : Table Slot}
    (h : cs.addSlots settings slots order = (log, .ok all)) : IsNamed all := by
  induction order generalizing slots log with
  | nil =>
    cases h
    exact hn
  | cons r order ih =>
    cases r with
    | library name => exact ih hn h
    | declared i =>
      simp only [Classes.addSlots] at h
      cases hc : cs[i]? with
      | none =>
        simp only [hc] at h
        exact ih hn h
      | some c =>
        simp only [hc] at h
        split at h
        · exact ih hn h
        · cases ho : c.ownSlots with
          | mk first result =>
            cases result with
            | error e => simp [ho] at h
            | ok own =>
              simp only [ho] at h
              cases hr : cs.addSlots settings (addNew slots own) order with
              | mk more rest =>
                simp only [hr, Prod.mk.injEq] at h
                obtain ⟨-, rfl⟩ := h
                -- The slots of this class keep their names, and so do those added after them.
                exact ih (hn.addNew (Class.ownSlots_name ho)) hr

/-! ## Soundness -/

/-- The slots of the class at a place. A class that is not there has none. -/
def Classes.slotsOf (cs : Classes) (settings : Settings) (index : Nat) :
    Except SourceError (Table Slot) :=
  match cs[index]? with
  | none => .ok .empty
  | some c => (cs.collectSlots settings c).2

theorem Classes.slotsOf_eq_of_same {a b : Settings} (h : a.same b = true) (cs : Classes)
    (index : Nat) : cs.slotsOf a index = cs.slotsOf b index := by
  unfold Classes.slotsOf Classes.collectSlots
  cases cs[index]? with
  | none => rfl
  | some c => simp only [Classes.addSlots_eq_of_same h]

theorem Classes.slotsOf_name {cs : Classes} {settings : Settings} {index : Nat}
    {slots : Table Slot} (h : cs.slotsOf settings index = .ok slots) {key : String} {slot : Slot}
    (hk : slots.get? key = some slot) : slot.name = key := by
  have hempty : IsNamed .empty := fun _ _ hn => by simp at hn
  unfold Classes.slotsOf at h
  cases hc : cs[index]? with
  | none =>
    simp only [hc, Except.ok.injEq] at h
    subst h
    exact hempty key slot hk
  | some c =>
    simp only [hc, Classes.collectSlots] at h
    exact Classes.addSlots_name hempty (Prod.ext rfl h) key slot hk

/-- Every registration is what collecting gives. -/
def Registry.Sound (cs : Classes) (r : Registry) : Prop :=
  ∀ e ∈ r, cs.slotsOf e.settings e.index = .ok e.slots

theorem Registry.sound_nil (cs : Classes) : Registry.Sound cs [] := by
  simp [Registry.Sound]

theorem Registry.Sound.find? {cs : Classes} {r : Registry} (hr : r.Sound cs)
    {settings : Settings} {index : Nat} {slots : Table Slot}
    (h : r.find? index settings = some slots) : cs.slotsOf settings index = .ok slots := by
  obtain ⟨e, he, rfl⟩ := Option.map_eq_some_iff.1 h
  have hp := List.find?_some he
  simp only [Bool.and_eq_true, decide_eq_true_eq] at hp
  obtain ⟨rfl, hs⟩ := hp
  rw [← Classes.slotsOf_eq_of_same hs]
  exact hr e (List.mem_of_find?_eq_some he)

/-- A look-up in a sound registry gives what collecting gives. -/
theorem Registry.Sound.slots_result {cs : Classes} {r : Registry} (hr : r.Sound cs)
    (settings : Settings) (index : Nat) :
    (r.slots cs settings index).2.2 = cs.slotsOf settings index := by
  unfold Registry.slots
  cases hf : r.find? index settings with
  | some slots => exact (hr.find? hf).symm
  | none =>
    unfold Classes.slotsOf
    cases hc : cs[index]? with
    | none => rfl
    | some c =>
      simp only
      cases hs : cs.collectSlots settings c with
      | mk log result => cases result <;> rfl

/-- A look-up keeps a registry sound. -/
theorem Registry.Sound.slots {cs : Classes} {r : Registry} (hr : r.Sound cs)
    (settings : Settings) (index : Nat) : (r.slots cs settings index).1.Sound cs := by
  unfold Registry.slots
  cases hf : r.find? index settings with
  | some slots => exact hr
  | none =>
    cases hc : cs[index]? with
    | none => exact hr
    | some c =>
      simp only
      cases hs : cs.collectSlots settings c with
      | mk log result =>
        cases result with
        | error e => exact hr
        | ok slots =>
          -- The one new entry holds what has just been collected.
          intro e he
          rcases List.mem_append.1 he with he | he
          · exact hr e he
          · obtain rfl := List.mem_singleton.1 he
            simp [Classes.slotsOf, hc, hs]

/-- The registry after some look-ups, each for settings and a class, from the start. -/
def Registry.after (cs : Classes) (lookups : List (Settings × Nat)) : Registry :=
  lookups.foldl (fun r l => (Registry.slots r cs l.1 l.2).1) []

theorem Registry.Sound.foldl {cs : Classes} (lookups : List (Settings × Nat)) {r : Registry}
    (hr : r.Sound cs) :
    Registry.Sound cs (lookups.foldl (fun r l => (Registry.slots r cs l.1 l.2).1) r) := by
  induction lookups generalizing r with
  | nil => exact hr
  | cons l lookups ih => exact ih (hr.slots l.1 l.2)

theorem Registry.sound_after (cs : Classes) (lookups : List (Settings × Nat)) :
    (Registry.after cs lookups).Sound cs :=
  (Registry.sound_nil cs).foldl lookups

end Styling
