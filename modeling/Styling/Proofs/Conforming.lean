import Styling.Proofs.Chain
import Styling.Proofs.Values

/-!
# Slots declared by the rules

The built-in rules say by the name of a key which values its texts have, and a slot can be declared
accordingly (`keyHint`). Whatever is read for a key is accepted by such a declaration
(`coerce_accepts`, `accepts_of_same`). So objects whose slots can be written and are all declared
like that refuse no value of a text: a write of one is made, or its key has no slot at all
(`Conforming.step`), and a text is applied to its end, or up to a key without a slot, or it cannot
be read and nothing has been written (`applyStyle_conforming`).
-/

set_option autoImplicit false

namespace Styling

/-! ## Hints that are the same -/

theorem Hint.hasSame_iff {hs : List Hint} {g : Hint} :
    Hint.hasSame hs g = true ↔ ∃ h ∈ hs, h.same g = true := by
  induction hs with
  | nil => simp [Hint.hasSame]
  | cons h hs ih => simp [Hint.hasSame, ih]

theorem Hint.eq_kind_of_same {h : Hint} {k : Kind} (hs : h.same (.kind k) = true) :
    h = .kind k := by
  cases h with
  | kind j =>
    have hjk : j = k := by simpa [Hint.same] using hs
    rw [hjk]
  | _ => simp [Hint.same] at hs

/-- A union of kinds, however it is put, accepts what one of the kinds accepts. -/
theorem Hint.accepts_of_same_union {h : Hint} {formed : Bool} {ks : List Kind} {v : Value}
    (hs : h.same (.union formed (ks.map .kind)) = true)
    (hv : (Hint.union formed (ks.map .kind)).accepts v = true) : h.accepts v = true := by
  cases h with
  | union _ arms =>
    simp only [Hint.same, Bool.and_eq_true, List.all_eq_true] at hs
    obtain ⟨g, hg, hgv⟩ := Hint.accepts_union.1 hv
    -- The kind that accepts the value is an arm of the other union, too.
    obtain ⟨a, ha, hag⟩ := Hint.hasSame_iff.1 (hs.2 g hg)
    obtain ⟨k, -, rfl⟩ := List.mem_map.1 hg
    obtain rfl := Hint.eq_kind_of_same hag
    exact Hint.accepts_union.2 ⟨_, ha, hgv⟩
  | _ => simp [Hint.same] at hs

/-! ## What the rules declare -/

/-- The kind of the values that a key asks for. A key for numbers takes doubles, and with them
integers. -/
def KeyKind.kind : KeyKind → Kind
  | color => .color
  | insets => .insets
  | dimension => .dimension
  | font => .font
  | number => .float

/-- The type that the rules declare for a key: the kind that the key asks for or null, and every
value where it asks for none. -/
def keyHint (key : String) : Hint :=
  match keyKind? key with
  | some k => .union true ([k.kind, .null].map .kind)
  | none => .any

theorem keyHint_of_kind {key : String} {k : KeyKind} (h : keyKind? key = some k) :
    keyHint key = .union true ([k.kind, .null].map .kind) := by
  rw [keyHint, h]

theorem keyHint_of_none {key : String} (h : keyKind? key = none) : keyHint key = .any := by
  rw [keyHint, h]

theorem keyHint_accepts_null (key : String) : (keyHint key).accepts .null = true := by
  cases hk : keyKind? key with
  | none => rw [keyHint_of_none hk]; rfl
  | some k => rw [keyHint_of_kind hk]; exact Hint.accepts_union.2 ⟨.kind .null, by simp, rfl⟩

/-- Values of a kind are accepted for the keys that ask for the kind, or for none. -/
theorem keyHint_accepts_kind {key : String} {k : KeyKind} {v : Value}
    (h : keyKind? key = some k ∨ keyKind? key = none) (hv : k.kind.accepts v = true) :
    (keyHint key).accepts v = true := by
  rcases h with hk | hk
  · rw [keyHint_of_kind hk]
    exact Hint.accepts_union.2 ⟨.kind k.kind, by simp, hv⟩
  · rw [keyHint_of_none hk]
    rfl

/-- Such a declaration can be put in more than one way, but always accepts the same values. -/
theorem accepts_of_same {h : Hint} {key : String} {v : Value}
    (hs : h.same (keyHint key) = true) (hv : (keyHint key).accepts v = true) :
    h.accepts v = true := by
  cases hk : keyKind? key with
  | none =>
    rw [keyHint_of_none hk] at hs
    cases h with
    | any => rfl
    | _ => simp [Hint.same] at hs
  | some k =>
    rw [keyHint_of_kind hk] at hs hv
    exact Hint.accepts_of_same_union hs hv

/-- **What is read for a key is accepted for it.** -/
theorem coerce_accepts {key raw : String} {v : Value} (hraw : IsRaw raw.toList)
    (h : Coercer.standard.coerce key raw = .ok v) : (keyHint key).accepts v = true := by
  rcases coerce_cases hraw h with hv | ⟨x, rfl, -, hk⟩ | ⟨f, rfl, hk, -⟩
  · cases hv with
    | null => exact keyHint_accepts_null key
    | color c hk => exact keyHint_accepts_kind hk rfl
    | insets i hk _ => exact keyHint_accepts_kind (Or.inl hk) rfl
    | dimension d hk _ => exact keyHint_accepts_kind (Or.inl hk) rfl
    | whole n hk _ => exact keyHint_accepts_kind hk rfl
    | real x hk _ => exact keyHint_accepts_kind hk rfl
    | flag b hk => rw [keyHint_of_none hk]; rfl
    | text s hk _ => rw [keyHint_of_none hk]; rfl
  -- A double need not be finite, and a font need not be one that is read again.
  · exact keyHint_accepts_kind hk rfl
  · exact keyHint_accepts_kind (Or.inl hk) rfl

/-! ## Objects that refuse no value of a text -/

/-- The slot can be written and is declared as the rules say for its name. -/
def Slot.isConforming (slot : Slot) : Bool := !slot.readOnly && slot.hint.same (keyHint slot.name)

namespace Workspace

variable {settings : Settings} {places : List Nat}

/-- There is an object, whose slots conform to the rules, and the attribute of each slot has a
value and allows another one. -/
def conformsAt (w : Workspace) (settings : Settings) (place : Nat) : Bool :=
  match w.objects[place]? with
  | none => false
  | some o =>
    match w.classes.slotsOf settings o.index with
    | .error _ => false
    | .ok slots =>
      slots.entries.all fun e =>
        e.2.isConforming && w.classes.isAssignable o e.2.name
          && (w.attributeAt place e.2.name).isSome

theorem conformsAt_iff {w : Workspace} {place : Nat} :
    w.conformsAt settings place = true ↔
      ∃ o slots, w.objects[place]? = some o ∧ w.classes.slotsOf settings o.index = .ok slots ∧
        ∀ key slot, slots.get? key = some slot → slot.isConforming = true ∧
          w.classes.isAssignable o slot.name = true ∧
          (w.attributeAt place slot.name).isSome = true := by
  constructor
  · intro h
    unfold conformsAt at h
    split at h
    · cases h
    · next o ho =>
      split at h
      · cases h
      · next slots hs =>
        refine ⟨o, slots, ho, hs, fun key slot hk => ?_⟩
        have he := List.all_eq_true.1 h (key, slot) (Table.mem_of_get? hk)
        simpa only [Bool.and_eq_true, and_assoc] using he
  · rintro ⟨o, slots, ho, hs, hall⟩
    simp only [conformsAt, ho, hs]
    refine List.all_eq_true.2 fun e he => ?_
    simpa only [Bool.and_eq_true, and_assoc] using hall e.1 e.2 (Table.get?_of_mem he)

/-- Conformance is a matter of the classes, of which of them the objects are, and of which
attributes have a value. -/
theorem conformsAt_congr {w v : Workspace} (hc : w.classes = v.classes)
    (hi : w.indices = v.indices)
    (hs : ∀ place name, (w.attributeAt place name).isSome = (v.attributeAt place name).isSome)
    {place : Nat} (h : w.conformsAt settings place = true) :
    v.conformsAt settings place = true := by
  obtain ⟨o, slots, ho, hsl, hall⟩ := conformsAt_iff.1 h
  obtain ⟨p, hp, hop⟩ := exists_object hi ho
  refine conformsAt_iff.2 ⟨p, slots, hp, by rw [← hc, ← hop]; exact hsl, fun key slot hk => ?_⟩
  obtain ⟨hconf, hassign, hsome⟩ := hall key slot hk
  exact ⟨hconf, by rw [← hc, ← Classes.isAssignable_congr hop]; exact hassign,
    by rw [← hs]; exact hsome⟩

/-- A key that leads to a slot of a conforming object is open to every value that the rules accept
for the key. -/
theorem opens_of_conforms {w : Workspace}
    (h : ∀ place ∈ places, w.conformsAt settings place = true) {key : String} {value : Value}
    (hv : (keyHint key).accepts value = true) {place : Nat} {slot : Slot}
    (hr : w.classes.route settings w.indices key places = .ok (some (place, slot))) :
    w.Opens settings places key value place slot := by
  obtain ⟨hp, index, slots, hi, hs, hk⟩ := Classes.route_some hr
  obtain ⟨o, slots', ho, hs', hall⟩ := conformsAt_iff.1 (h place hp)
  obtain rfl := Option.some.inj ((indices_of_object ho).symm.trans hi)
  obtain rfl := Except.ok.inj (hs'.symm.trans hs)
  obtain ⟨hconf, hassign, hsome⟩ := hall key slot hk
  simp only [Slot.isConforming, Bool.and_eq_true, Bool.not_eq_true'] at hconf
  rw [Classes.route_name hr] at hconf
  exact ⟨hr, hconf.1, fun _ => accepts_of_same hconf.2 hv, ⟨o, ho, hassign⟩, hsome⟩

/-- The states that writes lead to from a state with conforming objects: the classes of the objects
stay, and the objects still conform. -/
structure Conforming (settings : Settings) (places : List Nat) (base w : Workspace) : Prop where
  classes : w.classes = base.classes
  indices : w.indices = base.indices
  sound : w.registry.Sound w.classes
  conforms : ∀ place ∈ places, w.conformsAt settings place = true

namespace Conforming

variable {base : Workspace} {s : Logged Workspace}

theorem exists_route {w : Workspace} (h : Conforming settings places base w) (key : String) :
    ∃ target, w.classes.route settings w.indices key places = .ok target := by
  refine Classes.exists_route (fun place hp index hi => ?_) key
  obtain ⟨o, slots, ho, hs, -⟩ := conformsAt_iff.1 (h.conforms place hp)
  obtain rfl := Option.some.inj ((indices_of_object ho).symm.trans hi)
  exact ⟨slots, hs⟩

/-- The step: a value that the rules accept for its key is written, or the key has no slot. -/
theorem step (h : Conforming settings places base s.state) {key : String} {value : Value}
    (hv : (keyHint key).accepts value = true) :
    (∃ old t, Workspace.assignFirst settings places key value s = .ok old t ∧
      Conforming settings places base t.state) ∨
    ∃ t, Workspace.assignFirst settings places key value s = .error (.unknownKey key) t ∧
      base.classes.route settings base.indices key places = .ok none := by
  obtain ⟨t, hc, hs, ht⟩ := assignFirst_spec settings h.sound places key value
  obtain ⟨target, hr⟩ := h.exists_route key
  cases target with
  | none =>
    rw [setFirst, hr] at ht
    exact Or.inr ⟨t, ht.1, by rw [← h.classes, ← h.indices]; exact hr⟩
  | some target =>
    obtain ⟨place, slot⟩ := target
    obtain ⟨old, objects, hset⟩ := (opens_of_conforms h.conforms hv hr).setFirst
    rw [hset] at ht
    obtain ⟨hok, rfl⟩ := ht
    obtain ⟨-, hi, -, -⟩ := setFirst_ok hc hset
    have hsome := isSome_setFirst hc hset
    refine Or.inl ⟨old, t, hok, hc.trans h.classes, hi.trans h.indices, hs, fun place hp => ?_⟩
    exact conformsAt_congr hc.symm hi.symm (fun place name => (hsome place name).symm)
      (h.conforms place hp)

/-- The run: entries with such values are written up to a key without a slot. -/
theorem writeEntries {entry : String → Value → LogEntry} {es : List (String × Value)}
    (hes : ∀ e ∈ es, (keyHint e.1).accepts e.2 = true)
    (h : Conforming settings places base s.state) (acc : Table Value) :
    (∃ old t, Styling.writeEntries (Workspace.assignFirst settings places) entry es acc s =
      .ok old t ∧ Conforming settings places base t.state) ∨
    ∃ key t, Styling.writeEntries (Workspace.assignFirst settings places) entry es acc s =
        .error (.unknownKey key) t ∧
      key ∈ es.map Prod.fst ∧ base.classes.route settings base.indices key places = .ok none := by
  induction es generalizing acc s with
  | nil => exact Or.inl ⟨acc, s, rfl, h⟩
  | cons e es ih =>
    obtain ⟨key, value⟩ := e
    rw [writeEntries_cons]
    rcases h.step (hes (key, value) List.mem_cons_self) with ⟨old, t, ht, hconf⟩ | ⟨t, ht, hr⟩
    · rw [ht]
      rcases ih (s := ⟨t.state, t.log ++ [entry key value]⟩)
        (fun e he => hes e (List.mem_cons_of_mem _ he)) hconf (acc.set key old) with
        hok | ⟨other, u, hu, hmem, hr⟩
      · exact Or.inl hok
      · exact Or.inr ⟨other, u, hu, List.mem_cons_of_mem _ hmem, hr⟩
    · rw [ht]
      exact Or.inr ⟨key, t, rfl, List.mem_cons_self, hr⟩

end Conforming

/-- What a text comes to on objects that refuse none of its values. -/
inductive TextOutcome (settings : Settings) (places : List Nat) (start : Workspace)
    (text : String) :
    EStateM.Result (ApplyError AssignError) (Logged Workspace) (Option (Table Value)) → Prop where
  /-- It is applied to its end, and the objects refuse nothing of the next text either. -/
  | applied {old : Option (Table Value)} {t : Logged Workspace}
      (h : ∀ place ∈ places, t.state.conformsAt settings place = true) :
      TextOutcome settings places start text (.ok old t)
  /-- One of its keys has no slot in any of the objects. -/
  | unknown {style : Table Value} {key : String} {t : Logged Workspace}
      (h : Coercer.standard.readText text.toList = .ok (some style)) (hk : key ∈ style.keys)
      (hr : start.classes.route settings start.indices key places = .ok none) :
      TextOutcome settings places start text (.error (.target (.unknownKey key)) t)
  /-- It cannot be read, and nothing has been written. -/
  | unreadable {e : ReadError} {t : Logged Workspace}
      (h : Coercer.standard.readText text.toList = .error e) (hs : t.state = start) :
      TextOutcome settings places start text (.error (.read e) t)

end Workspace

/-- **No text is refused for the type of a value.** Let the slots of some objects be writable and
declared as the rules say for their names, with attributes that have values and allow others. Then
for every text, whatever was looked up in the registry before: it is applied to its end, or one of
its keys has no slot in any of the objects, or it cannot be read and nothing has been written. -/
theorem applyStyle_conforming (settings : Settings) (places : List Nat) (classes : Classes)
    (objects : List Instance) (lookups : List (Settings × Nat)) (log : List LogEntry)
    (h : ∀ place ∈ places,
      (Workspace.mk classes objects (.after classes lookups)).conformsAt settings place = true)
    (text : String) :
    Workspace.TextOutcome settings places ⟨classes, objects, .after classes lookups⟩ text
      (applyStyle (Workspace.assignFirst settings places) .standard none (.text text)
        ⟨⟨classes, objects, .after classes lookups⟩, log⟩) := by
  have hstart : Workspace.Conforming settings places ⟨classes, objects, .after classes lookups⟩
      ⟨classes, objects, .after classes lookups⟩ :=
    ⟨rfl, rfl, Registry.sound_after classes lookups, h⟩
  rw [applyStyle_eq, revert_none]
  simp only [Style.read_text]
  cases hr : Coercer.standard.readText text.toList with
  | error e => exact .unreadable hr rfl
  | ok m =>
    cases m with
    | none => exact .applied h
    | some style =>
      obtain ⟨hne, hentries⟩ := Coercer.readText_entries rfl hr
      have hempty : style.isEmpty = false := by simpa [Table.isEmpty] using hne
      have hes : ∀ e ∈ style.entries, (keyHint e.1).accepts e.2 = true := by
        intro e he
        obtain ⟨-, raw, hraw, hv⟩ := hentries e he
        exact coerce_accepts hraw hv
      simp only
      rw [applyMapping_of_not_isEmpty _ hempty]
      -- All of the text has been read by now; what is left is the writing.
      rcases Workspace.Conforming.writeEntries (s := ⟨_, log ++ _⟩) hes hstart .empty with
        ⟨old, t, ht, hconf⟩ | ⟨key, t, ht, hk, hroute⟩
      · rw [ht]
        exact .applied hconf.conforms
      · rw [ht]
        exact .unknown hr hk hroute

/-- The key for which a style has failed because no object has a slot for it. -/
def unknownKey? {α : Type} :
    EStateM.Result (ApplyError AssignError) (Logged Workspace) α → Option String
  | .error (.target (.unknownKey key)) _ => some key
  | _ => none

/-- The slots of two objects are declared in different ways for a color, a number, a font and any
value; the text has a reference without a value, a double that is not finite and, at its end, a key
without a slot. -/
theorem applyStyle_conforming_chain :
    let field (name : String) (hint : Hint) : FieldDecl := ⟨name, .hint hint, none, true, false⟩
    let record (name : String) (index : Nat) (fields : List FieldDecl) : Class :=
      ⟨⟨name, [], fields, "app.styles", name, true, false, fun _ => none⟩,
        [.declared index, .root], .empty, some (.ofList (fields.map fun f => (f.name, f.entry)))⟩
    let classes : Classes :=
      [record "Edge" 0
          [field "arc" (.union true [.kind .float, .kind .null]),
            field "lineColor" (.union false [.kind .null, .kind .color])],
        record "Title" 1 [field "titleFont" (.union true [.kind .font, .kind .null]),
          field "caption" .any]]
    let objects : List Instance :=
      [⟨0, .ofList [("arc", .whole 6), ("lineColor", .null)]⟩,
        ⟨1, .ofList [("titleFont", .null), ("caption", .text "none")]⟩]
    let start : Workspace := ⟨classes, objects, .after classes [(.standard, 1)]⟩
    let text := "caption: 12px; lineColor: $accent; arc: 1e999; titleFont: bold 9; shadow: 2"
    (∀ place ∈ [0, 1], start.conformsAt .standard place = true) ∧
      ∃ t, applyStyle (Workspace.assignFirst .standard [0, 1]) .standard none (.text text)
          ⟨start, []⟩ = .error (.target (.unknownKey "shadow")) t ∧
        classes.route .standard start.indices "shadow" [0, 1] = .ok none := by
  intro field record classes objects start text
  have hconf : ∀ place ∈ [0, 1], start.conformsAt .standard place = true := by decide +kernel
  have hout := applyStyle_conforming .standard [0, 1] classes objects [(.standard, 1)] [] hconf text
  have hkey : unknownKey? (applyStyle (Workspace.assignFirst .standard [0, 1]) .standard none
      (.text text) ⟨start, []⟩) = some "shadow" := by
    decide +kernel
  refine ⟨hconf, ?_⟩
  generalize applyStyle (Workspace.assignFirst .standard [0, 1]) .standard none (.text text)
    ⟨start, []⟩ = result at hout hkey
  cases hout with
  | applied h => contradiction
  | unreadable h hs => contradiction
  | unknown h hk hr =>
    obtain rfl := Option.some.inj hkey
    exact ⟨_, rfl, hr⟩

end Styling
