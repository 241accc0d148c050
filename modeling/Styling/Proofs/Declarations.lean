import Styling.Proofs.Routing
import Styling.Proofs.Sequences
import Styling.Proofs.Tables

/-!
# Slots and the fields that declare them

The slots of a class come from the marked fields of the classes in its linearization, without those
of the library and behind a boundary (`Classes.marked`). They are in the order of these fields, and
the first field with a name gives the slot of that name (`Classes.slotsOf_eq`). The fields are read
one after the other, and one whose annotation cannot be read ends the collection.

A workspace can have been used before: slots were looked up and values written, for any classes and
under any settings. No use changes the classes, and each keeps the registry sound
(`Use.perform_sound`), so after any uses the slots are still those of the marked fields
(`Classes.slotsAfter_marked`). One annotation that cannot be read is enough to leave a class without
any slots (`Classes.not_slotsAfter_of_unreadable`).
-/

set_option autoImplicit false

namespace Styling

/-! ## Adding new names -/

theorem addNew_append (t : Table Slot) (es fs : List (String × Slot)) :
    addNew t (es ++ fs) = addNew (addNew t es) fs := List.foldl_append

/-- A slot that is there stays; of new ones with a name the first counts. -/
theorem get?_addNew (t : Table Slot) (es : List (String × Slot)) (key : String) :
    (addNew t es).get? key = (t.get? key).or (lookupIn key es) := by
  induction es generalizing t with
  | nil => simp [addNew, lookupIn]
  | cons e es ih =>
    obtain ⟨name, slot⟩ := e
    have hcons : addNew t ((name, slot) :: es) =
        addNew (if t.contains name then t else t.set name slot) es := rfl
    rw [hcons, ih, lookupIn]
    by_cases hkey : name = key
    · subst hkey
      cases hget : t.get? name with
      | some old => simp [Table.contains, hget]
      | none => simp [Table.contains, hget]
    · rw [if_neg hkey]
      split
      · rfl
      · rw [Table.get?_set, if_neg hkey]

/-- The names come in the order in which they come first. -/
theorem keys_addNew (es : List (String × Slot)) :
    (addNew .empty es).keys = (es.map Prod.fst).eraseDups := by
  induction es using List.reverseRecOn with
  | nil => rfl
  | append_singleton es e ih =>
    have hlast : addNew .empty (es ++ [e]) = if (addNew .empty es).contains e.1
        then addNew .empty es else (addNew .empty es).set e.1 e.2 := by
      rw [addNew_append]
      rfl
    rw [hlast, List.map_append, List.map_singleton, Table.eraseDups_concat, ← ih]
    by_cases he : e.1 ∈ (addNew .empty es).keys
    · have hmem : e.1 ∈ es.map Prod.fst := by simpa [ih] using he
      rw [if_pos (Table.contains_iff.2 he), if_pos hmem]
    · have hmem : e.1 ∉ es.map Prod.fst := by simpa [ih] using he
      rw [if_neg (mt Table.contains_iff.1 he), if_neg hmem, Table.keys_set, if_neg he]

/-! ## Marked fields -/

/-- The fields that a class declares as slots under the settings, in their order. -/
def Class.markedFields (c : Class) (settings : Settings) : List FieldDecl :=
  if c.isBoundary settings || c.table.isNone then [] else c.decl.fields.filter FieldDecl.styleable

/-- The fields that the classes of a linearization declare as slots, each with its class. -/
def Classes.marked (cs : Classes) (settings : Settings) : List ClassRef → List (Class × FieldDecl)
  | [] => []
  | .library _ :: order => cs.marked settings order
  | .declared i :: order =>
    match cs[i]? with
    | none => cs.marked settings order
    | some c => (c.markedFields settings).map (c, ·) ++ cs.marked settings order

/-- The class is neither of the library nor behind a boundary, and declares a marked field of the
name itself. -/
def Class.Declares (c : Class) (settings : Settings) (name : String) : Prop :=
  c.isBoundary settings = false ∧ c.table.isSome = true ∧
    ∃ f ∈ c.decl.fields, f.styleable = true ∧ f.name = name

theorem Class.declares_iff {c : Class} {settings : Settings} {name : String} :
    c.Declares settings name ↔ ∃ f ∈ c.markedFields settings, f.name = name := by
  rw [Declares, markedFields]
  cases c.isBoundary settings <;> cases c.table <;> simp [and_assoc]

theorem Classes.mem_marked {cs : Classes} {settings : Settings} {order : List ClassRef}
    {p : Class × FieldDecl} :
    p ∈ cs.marked settings order ↔
      ∃ i, .declared i ∈ order ∧ cs[i]? = some p.1 ∧ p.2 ∈ p.1.markedFields settings := by
  obtain ⟨d, f⟩ := p
  induction order with
  | nil => simp [marked]
  | cons r order ih =>
    cases r with
    | library other => simp [marked, ih]
    | declared i =>
      rw [marked]
      cases hc : cs[i]? with
      | none => simp [ih, hc]
      | some c =>
        simp only [List.mem_append, ih, List.mem_map, Prod.mk.injEq]
        constructor
        · rintro (⟨g, hg, rfl, rfl⟩ | ⟨j, hj, hd, hf⟩)
          · exact ⟨i, List.mem_cons_self, hc, hg⟩
          · exact ⟨j, List.mem_cons_of_mem _ hj, hd, hf⟩
        · rintro ⟨j, hj, hd, hf⟩
          rcases List.mem_cons.1 hj with hj | hj
          · obtain rfl : j = i := ClassRef.declared.inj hj
            obtain rfl : c = d := Option.some.inj (hc.symm.trans hd)
            exact Or.inl ⟨f, hf, rfl, rfl⟩
          · exact Or.inr ⟨j, hj, hd, hf⟩

theorem Classes.mem_map_marked {cs : Classes} {settings : Settings} {order : List ClassRef}
    {name : String} :
    name ∈ (cs.marked settings order).map (fun p => p.2.name) ↔
      ∃ i c, .declared i ∈ order ∧ cs[i]? = some c ∧ c.Declares settings name := by
  simp only [List.mem_map, mem_marked, Class.declares_iff]
  constructor
  · rintro ⟨⟨c, f⟩, ⟨i, hi, hc, hf⟩, hname⟩
    exact ⟨i, c, hi, hc, f, hf, hname⟩
  · rintro ⟨i, c, hi, hc, f, hf, hname⟩
    exact ⟨(c, f), ⟨i, hi, hc, hf⟩, hname⟩

/-! ## Reading the fields -/

theorem resolveText_ne_unknownName {scope : Scope} {text name : String} :
    resolveText scope text ≠ .error (.unknownName name) := by
  intro h
  rw [resolveText] at h
  cases hh : hintOfText scope text with
  | ok hint => simp [hh] at h
  | error e => cases e <;> simp [hh] at h

theorem Declared.ofText_ne_unknownName {scope : Scope} {text name : String} :
    (Declared.ofText scope text).2 ≠ .error (.unknownName name) := by
  intro h
  rw [Declared.ofText] at h
  split at h
  · cases h
  · cases h
  · next inner _ _ =>
    cases hr : resolveText scope (String.ofList inner) with
    | ok p => simp [hr] at h
    | error e =>
      obtain rfl : e = .unknownName name := by simpa [hr] using h
      exact resolveText_ne_unknownName hr

/-- Unknown names leave an annotation unread and are no reason to give up. -/
theorem Annotation.declared_ne_unknownName {scope : Scope} {a : Annotation}
    {name : String} : (a.declared scope).2 ≠ .error (.unknownName name) := by
  intro h
  cases a with
  | hint hint => cases h
  | source text =>
    rw [declared] at h
    cases hr : resolveText scope text with
    | error e =>
      obtain rfl : e = .unknownName name := by simpa [hr] using h
      exact resolveText_ne_unknownName hr
    | ok p =>
      obtain ⟨resolved, unknown⟩ := p
      cases resolved with
      | hint hint => simp [hr] at h
      | text s => exact Declared.ofText_ne_unknownName (by simpa only [hr] using h)

theorem Class.slotOf_ne_unknownName {c : Class} {f : FieldDecl} {name : String} :
    (c.slotOf f).2 ≠ .error (.unknownName name) := by
  intro h
  rw [slotOf, slotIn] at h
  cases hd : (f.annotation.declared c.scope).2 with
  | ok d => simp [hd, Except.map] at h
  | error e =>
    obtain rfl : e = .unknownName name := by simpa [hd, Except.map] using h
    exact Annotation.declared_ne_unknownName hd

/-- The name of a field with its slot, with the names of a scope. -/
def Class.entryIn (scope : Scope) (c : Class) (f : FieldDecl) : Except SourceError (String × Slot) :=
  (c.slotIn scope f).2.map (f.name, ·)

/-- The name of a field with its slot. -/
def slotEntry (p : Class × FieldDecl) : Except SourceError (String × Slot) :=
  (p.1.slotOf p.2).2.map (p.2.name, ·)

theorem slotEntry_eq_ok_iff {p : Class × FieldDecl} {entry : String × Slot} :
    slotEntry p = .ok entry ↔ entry.1 = p.2.name ∧ (p.1.slotOf p.2).2 = .ok entry.2 :=
  map_pair_eq_ok_iff

theorem exists_slotEntry {p : Class × FieldDecl} (h : ∃ slot, (p.1.slotOf p.2).2 = .ok slot) :
    ∃ entry, slotEntry p = .ok entry := by
  obtain ⟨slot, hs⟩ := h
  exact ⟨(p.2.name, slot), slotEntry_eq_ok_iff.2 ⟨rfl, hs⟩⟩

theorem Class.slotsIn_eq_mapM (scope : Scope) (c : Class) (fs : List FieldDecl) :
    (c.slotsIn scope fs).2 = (fs.filter FieldDecl.styleable).mapM (c.entryIn scope) := by
  induction fs with
  | nil => rfl
  | cons f fs ih =>
    rw [slotsIn]
    cases hf : f.styleable with
    | false => simpa [hf] using ih
    | true =>
      rw [List.filter_cons_of_pos hf]
      cases hs : c.slotIn scope f with
      | mk log result =>
        cases result with
        | error e =>
          have he : c.entryIn scope f = .error e := by simp [entryIn, hs, Except.map]
          simp [mapM_cons_of_error he]
        | ok slot =>
          have hentry : c.entryIn scope f = .ok (f.name, slot) := by
            simp [entryIn, hs, Except.map]
          simp [mapM_cons_of_ok hentry, ih]

theorem Class.ownSlots_eq_mapM {c : Class} {settings : Settings}
    (hc : c.isBoundary settings = false) :
    c.ownSlots.2 = ((c.markedFields settings).map (c, ·)).mapM slotEntry := by
  rw [ownSlots, ownSlotsIn, markedFields, hc, List.mapM_map]
  cases c.table with
  | none => rfl
  | some table => exact c.slotsIn_eq_mapM c.scope c.decl.fields

theorem Classes.addSlots_eq_mapM (cs : Classes) (settings : Settings) (slots : Table Slot)
    (order : List ClassRef) :
    (cs.addSlots settings slots order).2 =
      ((cs.marked settings order).mapM slotEntry).map (addNew slots) := by
  induction order generalizing slots with
  | nil => rfl
  | cons r order ih =>
    cases r with
    | library name => exact ih slots
    | declared i =>
      rw [addSlots, marked]
      cases hc : cs[i]? with
      | none => exact ih slots
      | some c =>
        simp only
        cases hb : c.isBoundary settings with
        | true =>
          have hnone : c.markedFields settings = [] := by simp [Class.markedFields, hb]
          simpa [hnone] using ih slots
        | false =>
          -- First the fields of this class, then those of the classes after it.
          have hown := Class.ownSlots_eq_mapM hb
          rw [List.mapM_append, ← hown]
          cases ho : c.ownSlots with
          | mk log result =>
            cases result with
            | error e => rfl
            | ok own =>
              simp only [Bool.false_eq_true, if_false, ih]
              cases (cs.marked settings order).mapM slotEntry with
              | error e => rfl
              | ok others => exact congrArg Except.ok (addNew_append slots own others).symm

/-- The slots of a class are made from the marked fields. -/
theorem Classes.slotsOf_eq (cs : Classes) (settings : Settings) (index : Nat) :
    cs.slotsOf settings index =
      ((cs.marked settings (cs.linearization (.declared index))).mapM slotEntry).map
        (addNew .empty) := by
  rw [slotsOf, linearization]
  cases cs[index]? with
  | none => rfl
  | some c => exact cs.addSlots_eq_mapM settings .empty c.linearization

/-! ## Uses -/

/-- A use of the slots of a class: a look-up, or a write to an object of the class. -/
inductive Use where
  | slots (settings : Settings) (index : Nat)
  | assign (settings : Settings) (place : Nat) (key : String) (value : Value)

/-- What an action leaves behind, whether it fails or not. -/
def stateAfter {σ ε α : Type} : EStateM.Result ε σ α → σ
  | .ok _ s => s
  | .error _ s => s

/-- What an action answers. -/
def answer {σ ε α : Type} : EStateM.Result ε σ α → Except ε α
  | .ok a _ => .ok a
  | .error e _ => .error e

/-- The workspace after a use. -/
def Use.perform (s : Logged Workspace) : Use → Logged Workspace
  | .slots settings index => stateAfter (Workspace.slots settings index s)
  | .assign settings place key value => stateAfter (Workspace.assign settings place key value s)

/-- The slots of a class in a workspace that has been used before. The registry was empty at the
start. -/
def Classes.slotsAfter (cs : Classes) (objects : List Instance) (uses : List Use)
    (settings : Settings) (index : Nat) : Except SourceError (Table Slot) :=
  answer (Workspace.slots settings index (uses.foldl Use.perform ⟨⟨cs, objects, []⟩, []⟩))

theorem Workspace.ComesTo.stateAfter {action : Action Workspace AssignError Value}
    {s : Logged Workspace} {result : Except AssignError (Value × List Instance)}
    (h : Workspace.ComesTo action s result) :
    (Styling.stateAfter (action s)).state.classes = s.state.classes ∧
      (Styling.stateAfter (action s)).state.registry.Sound s.state.classes := by
  obtain ⟨t, hc, hr, ht⟩ := h
  rw [hc] at hr
  cases result with
  | error e =>
    rw [ht.1]
    exact ⟨hc, hr⟩
  | ok p =>
    rw [ht.1]
    exact ⟨hc, hr⟩

/-- No use changes the classes or makes the registry say anything else than collecting would. -/
theorem Use.perform_sound (use : Use) {s : Logged Workspace}
    (hs : s.state.registry.Sound s.state.classes) :
    (use.perform s).state.classes = s.state.classes ∧
      (use.perform s).state.registry.Sound s.state.classes := by
  cases use with
  | slots settings index =>
    obtain ⟨t, hc, hr, -, ht⟩ := Workspace.slots_spec hs settings index
    rw [perform, ht]
    cases s.state.classes.slotsOf settings index <;> exact ⟨hc, hc ▸ hr⟩
  | assign settings place key value =>
    cases ho : s.state.objects[place]? with
    | none =>
      rw [perform, Workspace.assign_of_missing ho]
      exact ⟨rfl, hs⟩
    | some o => exact (Workspace.assign_spec settings hs ho key value).stateAfter

theorem Use.foldl_perform_sound (uses : List Use) {s : Logged Workspace}
    (hs : s.state.registry.Sound s.state.classes) :
    (uses.foldl perform s).state.classes = s.state.classes ∧
      (uses.foldl perform s).state.registry.Sound s.state.classes := by
  induction uses generalizing s with
  | nil => exact ⟨rfl, hs⟩
  | cons use uses ih =>
    obtain ⟨hc, hr⟩ := use.perform_sound hs
    rw [← hc] at hr ⊢
    exact ih hr

/-- What was used before does not show in the slots. -/
theorem Classes.slotsAfter_eq (cs : Classes) (objects : List Instance) (uses : List Use)
    (settings : Settings) (index : Nat) :
    cs.slotsAfter objects uses settings index = cs.slotsOf settings index := by
  obtain ⟨hc, hr⟩ := Use.foldl_perform_sound uses (s := ⟨⟨cs, objects, []⟩, []⟩)
    (Registry.sound_nil cs)
  rw [← hc] at hr
  obtain ⟨t, -, -, -, ht⟩ := Workspace.slots_spec hr settings index
  rw [slotsAfter, ht, hc]
  cases cs.slotsOf settings index <;> rfl

/-! ## The slots of a class -/

/-- **The slots are those of the marked fields, whatever was used before.** After any look-ups and
writes, for any classes and under any settings, a class whose marked fields can all be read has a
slot for a name just when a class of its linearization, neither of the library nor behind a
boundary, declares a marked field of that name; the slot is that of the first such field, and the
slots are in the order of the fields. Else the first field that cannot be read gives the answer, for
another reason than an unknown name. -/
theorem Classes.slotsAfter_marked (cs : Classes) (objects : List Instance) (uses : List Use)
    (settings : Settings) (index : Nat) :
    let order := cs.linearization (.declared index)
    ((∀ p ∈ cs.marked settings order, ∃ slot, (p.1.slotOf p.2).2 = .ok slot) →
      ∃ slots, cs.slotsAfter objects uses settings index = .ok slots ∧
        (∀ name, slots.contains name = true ↔
          ∃ i c, .declared i ∈ order ∧ cs[i]? = some c ∧ c.Declares settings name) ∧
        (∀ before c f after, cs.marked settings order = before ++ (c, f) :: after →
          (∀ p ∈ before, p.2.name ≠ f.name) →
          ∃ slot, (c.slotOf f).2 = .ok slot ∧ slots.get? f.name = some slot) ∧
        slots.keys = ((cs.marked settings order).map fun p => p.2.name).eraseDups) ∧
    ∀ before c f after e, cs.marked settings order = before ++ (c, f) :: after →
      (∀ p ∈ before, ∃ slot, (p.1.slotOf p.2).2 = .ok slot) → (c.slotOf f).2 = .error e →
      cs.slotsAfter objects uses settings index = .error e ∧ ∀ name, e ≠ .unknownName name := by
  intro order
  rw [slotsAfter_eq, slotsOf_eq]
  constructor
  · intro hall
    obtain ⟨entries, hrel⟩ := exists_forall₂ fun p hp => exists_slotEntry (hall p hp)
    have hnames {ps : List (Class × FieldDecl)} {es : List (String × Slot)}
        (h : List.Forall₂ (fun p e => slotEntry p = .ok e) ps es) :
        es.map Prod.fst = ps.map fun p => p.2.name :=
      map_eq_of_forall₂ h fun p e he => (slotEntry_eq_ok_iff.1 he).1
    refine ⟨addNew .empty entries, by rw [mapM_eq_ok_iff.2 hrel]; rfl, fun name => ?_, ?_, ?_⟩
    · rw [Table.contains_iff, keys_addNew, List.mem_eraseDups, hnames hrel, mem_map_marked]
    · intro before c f after hmarked hbefore
      rw [hmarked] at hrel
      obtain ⟨first, e, last, rfl, hfirst, he, -⟩ := exists_of_forall₂_append hrel
      obtain ⟨hname, hslot⟩ := slotEntry_eq_ok_iff.1 he
      refine ⟨e.2, hslot, ?_⟩
      have hnew : e.1 ∉ first.map Prod.fst := by
        rw [hnames hfirst, hname]
        intro hm
        obtain ⟨p, hp, hpn⟩ := List.mem_map.1 hm
        exact hbefore p hp hpn
      have hlookup := lookupIn_append_of_not_mem hnew last
      rw [get?_addNew, ← hname, hlookup]
      rfl
    · rw [keys_addNew, hnames hrel]
  · intro before c f after e hmarked hbefore he
    have hentry : slotEntry (c, f) = .error e := by
      rw [slotEntry, he]
      rfl
    rw [hmarked, mapM_eq_error (fun p hp => exists_slotEntry (hbefore p hp)) hentry]
    refine ⟨rfl, ?_⟩
    rintro name rfl
    exact Class.slotOf_ne_unknownName he

/-- Two marked fields of a class under one that hides the first by an unmarked field, with a class
behind the boundary between them. That class was no boundary for the uses before. -/
theorem Classes.slotsAfter_marked_hidden :
    let ds : List ClassDecl :=
      [⟨"Base", [], [⟨"arc", .source "int", some (.whole 6), true, false⟩,
          ⟨"limit", .source "Decimal", some .null, true, false⟩],
          "app.styles", "Base", true, false, fun _ => none⟩,
        ⟨"Framed", ["Base"], [⟨"gap", .source "int", some (.whole 2), true, false⟩],
          "lib.frames", "Framed", true, false, fun _ => none⟩,
        ⟨"Button", ["Framed"], [⟨"arc", .source "int", some (.whole 8), false, false⟩,
          ⟨"tint", .source "Color", some .null, true, false⟩],
          "app.styles", "Button", true, false, fun _ => none⟩]
    let cs : Classes := (Classes.ofDecls ds).toOption.getD []
    let uses : List Use := [.slots .standard 2, .assign .standard 0 "gap" (.whole 4)]
    let settings : Settings := { Settings.standard with boundaryModules := ["lib"] }
    (∀ p ∈ cs.marked settings (cs.linearization (.declared 2)),
      ∃ slot, (p.1.slotOf p.2).2 = .ok slot) ∧
    ∃ slots, cs.slotsAfter [⟨2, .empty⟩] uses settings 2 = .ok slots ∧
      slots.keys = ["tint", "arc", "limit"] := by
  intro ds cs uses settings
  have hreadable : ∀ p ∈ cs.marked settings (cs.linearization (.declared 2)),
      (p.1.slotOf p.2).2.toOption.isSome = true := by
    decide +kernel
  have hread : ∀ p ∈ cs.marked settings (cs.linearization (.declared 2)),
      ∃ slot, (p.1.slotOf p.2).2 = .ok slot := by
    intro p hp
    have hsome := hreadable p hp
    cases hslot : (p.1.slotOf p.2).2 with
    | error e => simp [hslot, Except.toOption] at hsome
    | ok slot => exact ⟨slot, rfl⟩
  obtain ⟨slots, hslots, -, -, hkeys⟩ :=
    (Classes.slotsAfter_marked cs [⟨2, .empty⟩] uses settings 2).1 hread
  have hnames : ((cs.marked settings (cs.linearization (.declared 2))).map
      fun p => p.2.name).eraseDups = ["tint", "arc", "limit"] := by
    decide +kernel
  exact ⟨hread, slots, hslots, hkeys.trans hnames⟩

/-- One field whose annotation joins a type and a name in quotation marks, which is no type: the
class has no slots at all, not even for its other field. -/
theorem Classes.not_slotsAfter_of_unreadable :
    ¬∀ (ds : List ClassDecl) (cs : Classes) (objects : List Instance) (uses : List Use)
      (settings : Settings) (index : Nat) (name : String), Classes.ofDecls ds = .ok cs →
      ((∃ slots, cs.slotsAfter objects uses settings index = .ok slots ∧
        slots.contains name = true) ↔
      ∃ i c, .declared i ∈ cs.linearization (.declared index) ∧ cs[i]? = some c ∧
        c.Declares settings name) := by
  intro hall
  let d : ClassDecl := ⟨"A", [], [⟨"tint", .source "Color | 'Later'", some .null, true, false⟩,
    ⟨"arc", .source "int", some (.whole 6), true, false⟩], "app.styles", "A", true, false,
    fun _ => none⟩
  let c : Class := ⟨d, [.declared 0, .root], .ofList [("tint", .null), ("arc", .whole 6)],
    some (.ofList [("tint", ⟨some .null, false⟩), ("arc", ⟨some (.whole 6), false⟩)])⟩
  have hbuilt : Classes.ofDecls [d] = .ok [c] := rfl
  have hboundary : c.isBoundary .standard = false := by decide +kernel
  have hfails : (Classes.slotsOf [c] .standard 0).toOption.isNone = true := by decide +kernel
  have hdeclares : c.Declares .standard "arc" :=
    ⟨hboundary, rfl, ⟨"arc", .source "int", some (.whole 6), true, false⟩, by simp [c, d], rfl,
      rfl⟩
  obtain ⟨slots, hslots, -⟩ := (hall [d] [c] [] [] .standard 0 "arc" hbuilt).2
    ⟨0, c, List.mem_cons_self, rfl, hdeclares⟩
  rw [Classes.slotsAfter_eq] at hslots
  rw [hslots] at hfails
  cases hfails

end Styling
