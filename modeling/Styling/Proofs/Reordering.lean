import Styling.Proofs.Unwinding

/-!
# The order of the entries of a mapping

Different keys lead to different attributes, and no write opens or closes a key. So the entries of a
mapping can be written to a chain of objects in any order: what is written and what is displaced
depends on the entries alone (`writeAll_eq_of_perm`, `get?_displaced_eq_of_perm`). If a mapping can
be applied, so can each reordering of it, with the same attributes and the same old values
(`applyStyle_reordered`).
-/

set_option autoImplicit false

namespace Styling

/-! ## Tables with the same entries -/

theorem Table.get?_eq_some_iff {α : Type} {t : Table α} {key : String} {value : α} :
    t.get? key = some value ↔ (key, value) ∈ t.entries :=
  ⟨Table.mem_of_get?, fun h => Table.get?_of_mem h⟩

/-- What is found in a table does not depend on the order of its entries. -/
theorem Table.get?_eq_of_perm {α : Type} {t u : Table α} (h : t.entries.Perm u.entries)
    (key : String) : t.get? key = u.get? key := by
  apply Option.ext
  intro value
  rw [Table.get?_eq_some_iff, Table.get?_eq_some_iff]
  exact h.mem_iff

variable {t u : Table Value}

/-- The store after writing does not depend on the order of the entries. -/
theorem writeAll_eq_of_perm (h : t.entries.Perm u.entries) (store : String → Value) :
    writeAll t.entries store = writeAll u.entries store := by
  rw [writeAll_entries, writeAll_entries]
  funext key
  rw [overlay_some_apply, overlay_some_apply, Table.get?_eq_of_perm h]

/-- The displaced values do not depend on the order of the entries. -/
theorem get?_displaced_eq_of_perm (h : t.entries.Perm u.entries) (store : String → Value) :
    (displaced t.entries .empty store).get? = (displaced u.entries .empty store).get? := by
  funext key
  rw [get?_displaced t.distinct, get?_displaced u.distinct]
  simp only [(h.map Prod.fst).mem_iff]

/-! ## Applying a mapping in another order -/

/-- **The order of the entries of a mapping does not matter.** If a mapping can be applied to a
chain of objects, then each reordering of it can be applied to the same objects. Both leave the same
attributes, and the very same objects where these own the attributes of their slots, and both give
back the same old values. What was looked up in the registry before does not matter. -/
theorem applyStyle_reordered {settings : Settings} {places : List Nat} {coercer : Coercer}
    {classes : Classes} {objects : List Instance} {lookups : List (Settings × Nat)}
    {log : List LogEntry} {m m' : Table Value} (hm : m.entries.Perm m'.entries)
    {old : Option (Table Value)} {s : Logged Workspace}
    (h : applyStyle (Workspace.assignFirst settings places) coercer none (.mapping m)
      ⟨⟨classes, objects, .after classes lookups⟩, log⟩ = .ok old s) :
    ∃ old' s', applyStyle (Workspace.assignFirst settings places) coercer none (.mapping m')
        ⟨⟨classes, objects, .after classes lookups⟩, log⟩ = .ok old' s' ∧
      (∀ place name, s'.state.attributeAt place name = s.state.attributeAt place name) ∧
      ((Workspace.mk classes objects (.after classes lookups)).OwnsSlots settings places →
        s'.state.objects = s.state.objects) ∧
      old'.map Table.get? = old.map Table.get? := by
  have hsound := Registry.sound_after classes lookups
  rw [applyStyle_mapping] at h
  cases hf : applyMapping (Workspace.assignFirst settings places) m
      ⟨⟨classes, objects, .after classes lookups⟩, log⟩ with
  | error e u => simp [hf] at h
  | ok first u =>
    simp only [hf, EStateM.Result.ok.injEq] at h
    obtain ⟨rfl, rfl⟩ := h
    obtain ⟨hreached, hopens, hstore, hold⟩ := Workspace.applyMapping_ok hsound hf
    -- The other order writes the same entries, and these are open to their keys from the start.
    obtain ⟨old', s', hm'⟩ := Workspace.exists_applyMapping hsound fun e he =>
      hopens e (hm.mem_iff.2 he)
    obtain ⟨hreached', -, hstore', hold'⟩ := Workspace.applyMapping_ok hsound hm'
    have hvalues : s'.state.valueFor settings places = u.state.valueFor settings places := by
      rw [hstore, hstore', writeAll_eq_of_perm hm]
    have hattributes := hreached.attributeAt_eq hreached' hvalues
    refine ⟨old', s', by rw [applyStyle_mapping, hm'], hattributes, fun hown => ?_, ?_⟩
    · exact Workspace.objects_eq (hreached'.indices.trans hreached.indices.symm)
        ((hreached'.names hown).trans (hreached.names hown).symm) hattributes
    · have hempty : m.isEmpty = m'.isEmpty := by
        simp only [Table.isEmpty, hm.isEmpty_eq]
      rw [hold, hold', hempty]
      split
      · rfl
      · rw [Option.map_some, Option.map_some, get?_displaced_eq_of_perm hm]

/-- Two objects share a slot name, and one slot that takes doubles holds an integer; the entries come
in the opposite order. -/
theorem applyStyle_reordered_reverse :
    let field (name : String) (hint : Hint) : FieldDecl := ⟨name, .hint hint, none, true, false⟩
    let record (name : String) (index : Nat) (fields : List FieldDecl) : Class :=
      ⟨⟨name, [], fields, "app.styles", name, true, false, fun _ => none⟩,
        [.declared index, .root], .empty, some (.ofList (fields.map fun f => (f.name, f.entry)))⟩
    let classes : Classes :=
      [record "Edge" 0
          [field "arc" (.kind .int), field "color" (.union true [.kind .color, .kind .null])],
        record "Box" 1 [field "gap" (.kind .float), field "arc" (.kind .str)]]
    let objects : List Instance :=
      [⟨0, .ofList [("arc", .whole 6), ("color", .null)]⟩,
        ⟨1, .ofList [("gap", .whole 2), ("arc", .text "round")]⟩]
    let start : Logged Workspace := ⟨⟨classes, objects, .after classes [(.standard, 1)]⟩, []⟩
    let entries : List (String × Value) :=
      [("color", .color ⟨255, 136, 0, 255⟩), ("arc", .flag true), ("gap", .real (.zero true))]
    let apply := Workspace.assignFirst .standard [0, 1]
    (Table.ofList entries).entries.Perm (Table.ofList entries.reverse).entries ∧
      ∃ old s old' s',
        applyStyle apply .standard none (.mapping (.ofList entries)) start = .ok old s ∧
        applyStyle apply .standard none (.mapping (.ofList entries.reverse)) start = .ok old' s' ∧
        (∀ place name, s'.state.attributeAt place name = s.state.attributeAt place name) ∧
        old'.map Table.get? = old.map Table.get? := by
  intro field record classes objects start entries apply
  have hperm : (Table.ofList entries).entries.Perm (Table.ofList entries.reverse).entries :=
    (List.reverse_perm entries).symm
  have hok : (match applyStyle apply .standard none (.mapping (.ofList entries)) start with
      | .ok _ _ => true
      | .error _ _ => false) = true := by
    decide +kernel
  cases h : applyStyle apply .standard none (.mapping (.ofList entries)) start with
  | error e s => simp [h] at hok
  | ok old s =>
    obtain ⟨old', s', h', hattributes, -, hvalues⟩ := applyStyle_reordered hperm h
    exact ⟨hperm, old, s, old', s', rfl, h', hattributes, hvalues⟩

end Styling
