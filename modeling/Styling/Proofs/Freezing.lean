import Styling.Proofs.Declarations
import Styling.Proofs.Hierarchies

/-!
# Errors of a write that are documented

A write to an object is documented to fail in three ways: there is no slot for the key, the slot is
read-only, or the value does not fit (`Documented`). A slot is read-only where the class that
declares it is frozen, but an attribute cannot be set where any class stands against it that the
object descends from (`Classes.Freezes`). The two differ for hierarchies that mix frozen classes
with others, and this is the first of two reasons for other errors; the second is a value that does
not fit and cannot be shown (`Workspace.assign_documented`,
`Workspace.not_assign_documented_of_mixed`). Neither an unfrozen record class nor a hierarchy in
which no class has several bases gives the first reason.
-/

set_option autoImplicit false

namespace Styling

/-! ## Frozen classes -/

namespace Classes

variable {cs : Classes} {o : Instance} {name : String}

/-- The class stands against setting an attribute of an instance: it is frozen, the instance
descends from it, and it is the class of the instance or has a field of that name. -/
def Freezes (cs : Classes) (o : Instance) (name : String) (c : Class) : Prop :=
  c.decl.frozen = true ∧ ∃ i table, .declared i ∈ cs.linearization (.declared o.index) ∧
    cs[i]? = some c ∧ c.table = some table ∧
    (i = o.index ∨ ∃ f, table.get? name = some f ∧ f.shared = false)

theorem Freezes.hasRecord {c : Class} (h : cs.Freezes o name c) :
    cs.HasRecord (cs.linearization (.declared o.index)) c := by
  obtain ⟨-, i, table, hi, hc, ht, -⟩ := h
  exact ⟨i, hi, hc, by rw [ht]; rfl⟩

theorem mem_lookupClasses {p : Nat × Class} :
    p ∈ cs.lookupClasses o ↔
      .declared p.1 ∈ cs.linearization (.declared o.index) ∧ cs[p.1]? = some p.2 := by
  obtain ⟨i, c⟩ := p
  rw [lookupClasses, List.mem_filterMap]
  constructor
  · rintro ⟨r, hr, hp⟩
    cases r with
    | library name => cases hp
    | declared j =>
      obtain ⟨d, hd, hp⟩ := Option.map_eq_some_iff.1 hp
      cases hp
      exact ⟨hr, hd⟩
  · rintro ⟨hi, hc⟩
    exact ⟨.declared i, hi, by simp [hc]⟩

theorem refuses_iff {p : Nat × Class} :
    refuses o name p = true ↔ p.2.decl.frozen = true ∧ ∃ table, p.2.table = some table ∧
      (p.1 = o.index ∨ ∃ f, table.get? name = some f ∧ f.shared = false) := by
  simp [refuses, Option.any_eq_true]

/-- An attribute can be set just when no class stands against it. -/
theorem isAssignable_eq_false_iff :
    cs.isAssignable o name = false ↔ ∃ c, cs.Freezes o name c := by
  rw [isAssignable, Bool.not_eq_false', List.any_eq_true]
  constructor
  · rintro ⟨⟨i, c⟩, hmem, hrefuses⟩
    obtain ⟨hi, hc⟩ := mem_lookupClasses.1 hmem
    obtain ⟨hf, table, ht, hwhy⟩ := refuses_iff.1 hrefuses
    exact ⟨c, hf, i, table, hi, hc, ht, hwhy⟩
  · rintro ⟨c, hf, i, table, hi, hc, ht, hwhy⟩
    exact ⟨(i, c), mem_lookupClasses.2 ⟨hi, hc⟩, refuses_iff.2 ⟨hf, table, ht, hwhy⟩⟩

end Classes

/-! ## Slots that can be written -/

/-- A slot that can be written is declared by a class that is not frozen. -/
theorem Class.slotOf_unfrozen {c : Class} {f : FieldDecl} {slot : Slot}
    (h : (c.slotOf f).2 = .ok slot) (hr : slot.readOnly = false) : c.decl.frozen = false := by
  rw [slotOf, slotIn] at h
  cases hd : (f.annotation.declared c.scope).2 with
  | error e => simp [hd, Except.map] at h
  | ok d =>
    simp only [hd, Except.map, Except.ok.injEq] at h
    subst h
    simp only [Bool.or_eq_false_iff] at hr
    exact hr.1.2

/-- The slots of a class come from marked fields of its record classes. -/
theorem Classes.exists_marked {cs : Classes} {settings : Settings} {index : Nat}
    {slots : Table Slot} (h : cs.slotsOf settings index = .ok slots) {key : String} {slot : Slot}
    (hk : slots.get? key = some slot) :
    ∃ c f, cs.HasRecord (cs.linearization (.declared index)) c ∧ c.Declares settings key ∧
      (c.slotOf f).2 = .ok slot := by
  rw [slotsOf_eq] at h
  cases hentries : (cs.marked settings (cs.linearization (.declared index))).mapM slotEntry with
  | error e => simp [hentries, Except.map] at h
  | ok entries =>
    simp only [hentries, Except.map, Except.ok.injEq] at h
    subst h
    rw [get?_addNew, Table.get?_empty, Option.none_or] at hk
    obtain ⟨⟨c, f⟩, hmarked, hentry⟩ :=
      exists_of_mem_right (mapM_eq_ok_iff.1 hentries) (mem_of_lookupIn hk)
    obtain ⟨rfl, hslot⟩ := slotEntry_eq_ok_iff.1 hentry
    obtain ⟨i, hi, hc, hf⟩ := Classes.mem_marked.1 hmarked
    have hdeclares : c.Declares settings f.name := Class.declares_iff.2 ⟨f, hf, rfl⟩
    exact ⟨c, f, ⟨i, hi, hc, hdeclares.2.1⟩, hdeclares, hslot⟩

/-- Where a class stands against a slot that can be written, classes of both kinds meet. -/
theorem Classes.WellBuilt.mixed {cs : Classes} (h : cs.WellBuilt) {settings : Settings}
    {o : Instance} {slots : Table Slot} (hs : cs.slotsOf settings o.index = .ok slots)
    {key : String} {slot : Slot} (hk : slots.get? key = some slot) (hr : slot.readOnly = false)
    {c : Class} (hc : cs.Freezes o key c) :
    let order := cs.linearization (.declared o.index)
    (∃ owner, cs.HasRecord order owner ∧ owner.decl.frozen = false ∧
      owner.Declares settings key) ∧ ¬ cs.IsSingle order ∧
    ∀ own, cs[o.index]? = some own → own.table.isSome = true → own.decl.frozen = true := by
  intro order
  obtain ⟨owner, f, howner, hdeclares, hslot⟩ := Classes.exists_marked hs hk
  have hunfrozen := Class.slotOf_unfrozen hslot hr
  refine ⟨⟨owner, howner, hunfrozen, hdeclares⟩, ?_, ?_⟩
  · intro hsingle
    have hsame := h.frozen_eq hsingle howner hc.hasRecord
    rw [hunfrozen, hc.1] at hsame
    cases hsame
  · intro own hown htable
    -- An unfrozen record class would descend from no frozen one.
    cases hf : own.decl.frozen with
    | true => rfl
    | false =>
      have hrecord := hc.hasRecord
      rw [Classes.linearization_of_getElem? hown] at hrecord
      have hnot := (h o.index own hown).unfrozen htable hf c hrecord
      rw [hc.1] at hnot
      cases hnot

/-! ## Documented errors -/

/-- The errors that a write is documented to end with: the key is unknown, or the slot is read-only
or does not fit the value, and the error is of the class for that and names the key. -/
inductive Documented (slots : Table Slot) (settings : Settings) (key : String) (value : Value)
    (e : AssignError) : Prop where
  | unknownKey (h : slots.get? key = none) (he : e.styleError? = some (.unknownKey key))
  | readOnly {slot : Slot} {message : String} (h : slots.get? key = some slot)
    (hr : slot.readOnly = true) (he : e.styleError? = some (.badAssignment message (some key)))
  | unfit {slot : Slot} {message : String} (h : slots.get? key = some slot)
    (hc : settings.checkTypes = true) (hf : slot.hint.accepts value = false)
    (he : e.styleError? = some (.badAssignment message (some key)))

theorem Documented.isSome {slots : Table Slot} {settings : Settings} {key : String}
    {value : Value} {e : AssignError} (h : Documented slots settings key value e) :
    e.styleError?.isSome = true := by
  cases h with
  | unknownKey h he => rw [he]; rfl
  | readOnly h hr he => rw [he]; rfl
  | unfit h hc hf he => rw [he]; rfl

/-- A write fails because there is no slot for the key, or because the slot refuses. -/
theorem Classes.write_error {cs : Classes} {slots : Table Slot} {checkTypes : Bool} {o : Instance}
    {key : String} {value : Value} {e : AssignError} :
    cs.write slots checkTypes o key value = .error e ↔
      (slots.get? key = none ∧ e = .unknownKey key) ∨
        ∃ slot, slots.get? key = some slot ∧ Refused cs checkTypes slot o key value e := by
  cases hk : slots.get? key with
  | none => simp [Classes.write, hk, eq_comm]
  | some slot =>
    rw [Classes.write_of_slot hk, Classes.put_error]
    simp

/-- Nothing but the slot of a key stands against a write: no frozen class does, and a value that
does not fit can be shown. -/
def Unhindered (cs : Classes) (settings : Settings) (o : Instance) (slots : Table Slot)
    (key : String) (value : Value) : Prop :=
  ∀ slot, slots.get? key = some slot → slot.readOnly = false →
    (slot.Admits settings value → ∀ c, ¬ cs.Freezes o key c) ∧
      (¬ slot.Admits settings value → value.isWritable = true)

section Documented

variable {cs : Classes} {settings : Settings} {o : Instance} {slots : Table Slot} {key : String}
  {value : Value}

/-- The reasons of a slot are documented, but for a value that cannot be shown, an attribute without
a value and a frozen class. -/
theorem Refused.documented (hu : Unhindered cs settings o slots key value) {slot : Slot}
    (hk : slots.get? key = some slot) (hname : slot.name = key)
    (hset : (cs.attribute? o slot.name).isSome = true) {e : AssignError}
    (h : Refused cs settings.checkTypes slot o key value e) :
    Documented slots settings key value e := by
  cases h with
  | readOnly hr => exact .readOnly hk hr rfl
  | unfit hr hc hf hw => exact .unfit hk hc hf rfl
  | unshown hr hc hf hw =>
    have hshown := (hu slot hk hr).2 (Slot.not_admits_iff.2 ⟨hc, hf⟩)
    rw [hw] at hshown
    cases hshown
  | missing hr hf ha => simp [ha] at hset
  | frozen hr hf ha hs =>
    obtain ⟨c, hc⟩ := Classes.isAssignable_eq_false_iff.1 hs
    exact absurd (hname ▸ hc) ((hu slot hk hr).1 hf c)

theorem Refused.frozen_of_freezes {slot : Slot} (hname : slot.name = key)
    (hr : slot.readOnly = false) (hadmits : slot.Admits settings value)
    (hset : (cs.attribute? o slot.name).isSome = true) {c : Class} (hc : cs.Freezes o key c) :
    Refused cs settings.checkTypes slot o key value (.badAttribute (.frozen key)) := by
  subst hname
  exact .frozen hr hadmits hset (Classes.isAssignable_eq_false_iff.2 ⟨c, hc⟩)

/-- All errors of a write are documented just when nothing but the slot stands against it. -/
theorem Classes.write_documented_iff
    (hname : ∀ key slot, slots.get? key = some slot → slot.name = key)
    (hset : ∀ key slot, slots.get? key = some slot → (cs.attribute? o slot.name).isSome = true) :
    (∀ e, cs.write slots settings.checkTypes o key value = .error e →
      Documented slots settings key value e) ↔ Unhindered cs settings o slots key value := by
  constructor
  · intro hall slot hk hr
    have undocumented {e : AssignError} (he : e.styleError? = none)
        (hrefused : Refused cs settings.checkTypes slot o key value e) : False := by
      have hsome := (hall e (Classes.write_error.2 (Or.inr ⟨slot, hk, hrefused⟩))).isSome
      rw [he] at hsome
      cases hsome
    constructor
    · intro hadmits c hc
      exact undocumented rfl
        (.frozen_of_freezes (hname key slot hk) hr hadmits (hset key slot hk) hc)
    · intro hnot
      obtain ⟨hc, hf⟩ := Slot.not_admits_iff.1 hnot
      cases hw : value.isWritable with
      | true => rfl
      | false => exact (undocumented rfl (.unshown hr hc hf hw)).elim
  · intro hu e he
    rcases Classes.write_error.1 he with ⟨hk, rfl⟩ | ⟨slot, hk, hrefused⟩
    · exact .unknownKey hk rfl
    · exact hrefused.documented hu hk (hname key slot hk) (hset key slot hk)

end Documented

/-- The errors of a write to an object are those of the write to its slots. -/
theorem Workspace.assign_error_iff {settings : Settings} {place : Nat} {s : Logged Workspace}
    {o : Instance} {slots : Table Slot} (hs : s.state.registry.Sound s.state.classes)
    (ho : s.state.objects[place]? = some o)
    (hslots : s.state.classes.slotsOf settings o.index = .ok slots) {key : String} {value : Value}
    {e : AssignError} :
    (∃ t, Workspace.assign settings place key value s = .error e t) ↔
      s.state.classes.write slots settings.checkTypes o key value = .error e := by
  obtain ⟨t, -, -, ht⟩ := Workspace.assign_spec settings hs ho key value
  simp only [hslots] at ht
  cases hw : s.state.classes.write slots settings.checkTypes o key value with
  | error e' =>
    simp only [hw] at ht
    simp [ht.1]
  | ok w =>
    simp only [hw] at ht
    simp [ht.1]

/-- **A write fails only as documented, unless frozen classes are mixed with others or a value
cannot be shown.** For an object of any class that can be declared, whose slots can be collected and
have values: all errors of a write are documented just when nothing but the slot stands against it.
A frozen class that stands against a slot that can be written gives an error of its own. It is one
among others: the slot is declared by a class that is not frozen, some class of the linearization
has several bases, and the class of the object is no unfrozen record class. What was looked up in
the registry before does not matter. -/
theorem Workspace.assign_documented {ds : List ClassDecl} {cs : Classes}
    (hbuilt : Classes.ofDecls ds = .ok cs) {objects : List Instance} {place : Nat} {o : Instance}
    (ho : objects[place]? = some o) {settings : Settings} {slots : Table Slot}
    (hslots : cs.slotsOf settings o.index = .ok slots)
    (hset : ∀ key slot, slots.get? key = some slot → (cs.attribute? o slot.name).isSome = true)
    (lookups : List (Settings × Nat)) (log : List LogEntry) (key : String) (value : Value) :
    let order := cs.linearization (.declared o.index)
    let result := Workspace.assign settings place key value
      ⟨⟨cs, objects, .after cs lookups⟩, log⟩
    ((∀ e t, result = .error e t → Documented slots settings key value e) ↔
      Unhindered cs settings o slots key value) ∧
    ∀ slot c, slots.get? key = some slot → slot.readOnly = false → cs.Freezes o key c →
      (slot.Admits settings value → ∃ t, result = .error (.badAttribute (.frozen key)) t) ∧
      (∃ owner, cs.HasRecord order owner ∧ owner.decl.frozen = false ∧
        owner.Declares settings key) ∧ ¬ cs.IsSingle order ∧
      ∀ own, cs[o.index]? = some own → own.table.isSome = true → own.decl.frozen = true := by
  intro order result
  have hsound : (Registry.after cs lookups).Sound cs := Registry.sound_after cs lookups
  have herror (e : AssignError) : (∃ t, result = .error e t) ↔
      cs.write slots settings.checkTypes o key value = .error e :=
    Workspace.assign_error_iff (s := ⟨⟨cs, objects, .after cs lookups⟩, log⟩) hsound ho hslots
  have hname (key : String) (slot : Slot) (hk : slots.get? key = some slot) : slot.name = key :=
    Classes.slotsOf_name hslots hk
  constructor
  · rw [← Classes.write_documented_iff hname hset]
    constructor
    · intro hall e he
      obtain ⟨t, ht⟩ := (herror e).2 he
      exact hall e t ht
    · intro hall e t ht
      exact hall e ((herror e).1 ⟨t, ht⟩)
  · intro slot c hk hr hc
    refine ⟨fun hadmits => ?_, (Classes.wellBuilt_ofDecls hbuilt).mixed hslots hk hr hc⟩
    have hfrozen := Refused.frozen_of_freezes (hname key slot hk) hr hadmits (hset key slot hk) hc
    exact (herror _).2 (Classes.write_error.2 (Or.inr ⟨slot, hk, hfrozen⟩))

/-- A class that is no record class itself, under a frozen class with an unmarked field and one that
is not frozen and marks a field of the same name. -/
theorem Workspace.assign_documented_mixed :
    let field (marked : Bool) : FieldDecl := ⟨"arc", .source "int", some (.whole 6), marked, false⟩
    let ds : List ClassDecl :=
      [⟨"Fixed", [], [field false], "app.styles", "Fixed", true, true, fun _ => none⟩,
        ⟨"Base", [], [field true], "app.styles", "Base", true, false, fun _ => none⟩,
        ⟨"Button", ["Fixed", "Base"], [], "app.styles", "Button", false, false, fun _ => none⟩]
    let cs : Classes := (Classes.ofDecls ds).toOption.getD []
    let o : Instance := ⟨2, .ofList [("arc", .whole 6)]⟩
    ∃ slots slot c, Classes.ofDecls ds = .ok cs ∧ cs.slotsOf .standard 2 = .ok slots ∧
      slots.get? "arc" = some slot ∧ slot.readOnly = false ∧ cs.Freezes o "arc" c ∧
      slot.Admits .standard (.whole 8) ∧
      (∃ t, Workspace.assign .standard 0 "arc" (.whole 8) ⟨⟨cs, [o], .after cs []⟩, []⟩ =
        .error (.badAttribute (.frozen "arc")) t) ∧
      ¬ cs.IsSingle (cs.linearization (.declared 2)) := by
  intro field ds cs o
  have hbuilt : Classes.ofDecls ds = .ok cs := rfl
  have hcollected : ((cs.slotsOf .standard 2).toOption.any fun slots =>
      (slots.entries.all fun e => (cs.attribute? o e.2.name).isSome) &&
        (slots.get? "arc").any fun slot => !slot.readOnly && slot.hint.accepts (.whole 8)) =
      true := by
    decide +kernel
  obtain ⟨c, hc⟩ : ∃ c, cs.Freezes o "arc" c :=
    Classes.isAssignable_eq_false_iff.1 (by decide +kernel)
  cases hslots : cs.slotsOf .standard 2 with
  | error e => simp [hslots, Except.toOption] at hcollected
  | ok slots =>
    simp only [hslots, Except.toOption, Option.any_some, Bool.and_eq_true, List.all_eq_true,
      Option.any_eq_true, Bool.not_eq_true'] at hcollected
    obtain ⟨hvalues, slot, hk, hr, hfits⟩ := hcollected
    have hadmits : slot.Admits .standard (.whole 8) := fun _ => hfits
    have hset (key : String) (slot : Slot) (h : slots.get? key = some slot) :
        (cs.attribute? o slot.name).isSome = true :=
      hvalues (key, slot) (Table.mem_of_get? h)
    have ho : [o][0]? = some o := rfl
    obtain ⟨-, hfrozen⟩ := Workspace.assign_documented hbuilt ho hslots hset [] [] "arc" (.whole 8)
    obtain ⟨herror, -, hsingle, -⟩ := hfrozen slot c hk hr hc
    exact ⟨slots, slot, c, hbuilt, rfl, hk, hr, hc, hadmits, herror hadmits, hsingle⟩

/-- A frozen record class under a frozen one and one that is not frozen and declares the slot: the
error is none of the documented ones. -/
theorem Workspace.not_assign_documented_of_mixed :
    ¬∀ (ds : List ClassDecl) (cs : Classes) (objects : List Instance) (place : Nat) (o : Instance)
      (settings : Settings) (slots : Table Slot) (lookups : List (Settings × Nat))
      (log : List LogEntry) (key : String) (value : Value) (e : AssignError)
      (t : Logged Workspace), Classes.ofDecls ds = .ok cs → objects[place]? = some o →
      cs.slotsOf settings o.index = .ok slots →
      (∀ key slot, slots.get? key = some slot → (cs.attribute? o slot.name).isSome = true) →
      Workspace.assign settings place key value ⟨⟨cs, objects, .after cs lookups⟩, log⟩ =
        .error e t → Documented slots settings key value e := by
  intro hall
  let field (name : String) (value : Int) : FieldDecl :=
    ⟨name, .source "int", some (.whole value), true, false⟩
  let ds : List ClassDecl :=
    [⟨"N", [], [field "arc" 6], "app.styles", "N", true, false, fun _ => none⟩,
      ⟨"F", [], [field "gap" 2], "app.styles", "F", true, true, fun _ => none⟩,
      ⟨"D", ["F", "N"], [], "app.styles", "D", true, true, fun _ => none⟩]
  let cs : Classes := (Classes.ofDecls ds).toOption.getD []
  let o : Instance := ⟨2, .ofList [("arc", .whole 6), ("gap", .whole 2)]⟩
  let start : Logged Workspace := ⟨⟨cs, [o], .after cs []⟩, []⟩
  have hbuilt : Classes.ofDecls ds = .ok cs := rfl
  have hvalues : ((cs.slotsOf .standard 2).toOption.any fun slots =>
      slots.entries.all fun e => (cs.attribute? o e.2.name).isSome) = true := by
    decide +kernel
  have hundocumented : (match Workspace.assign .standard 0 "arc" (.whole 8) start with
      | .ok _ _ => false
      | .error e _ => e.styleError?.isNone) = true := by
    decide +kernel
  cases hslots : cs.slotsOf .standard 2 with
  | error e => simp [hslots, Except.toOption] at hvalues
  | ok slots =>
    simp only [hslots, Except.toOption, Option.any_some, List.all_eq_true] at hvalues
    have hset (key : String) (slot : Slot) (h : slots.get? key = some slot) :
        (cs.attribute? o slot.name).isSome = true :=
      hvalues (key, slot) (Table.mem_of_get? h)
    cases hresult : Workspace.assign .standard 0 "arc" (.whole 8) start with
    | ok old t => simp [hresult] at hundocumented
    | error e t =>
      have hdocumented := hall ds cs [o] 0 o .standard slots [] [] "arc" (.whole 8) e t hbuilt rfl
        hslots hset hresult
      simp only [hresult, Option.isNone_iff_eq_none] at hundocumented
      have hsome := hdocumented.isSome
      rw [hundocumented] at hsome
      cases hsome

end Styling
