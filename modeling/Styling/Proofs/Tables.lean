import Mathlib.Data.List.Induction
import Mathlib.Data.List.Nodup
import Styling.Table

/-!
# Tables by their names and look-up

A table is determined by the order of its names and by what is found under them
(`Table.ext_get?`). Pairs with distinct names make a table of just these pairs
(`Table.entries_ofList`); of other pairs, the first with a name gives it its place and the last its
value (`Table.keys_ofList`, `Table.get?_ofList_of_last`). Writing one table over another keeps the
places of the names that were there and takes the new values (`Table.keys_update`,
`Table.get?_update`), so a table of pairs can be made in two steps (`Table.ofList_append`).
-/

set_option autoImplicit false

namespace Styling

variable {α : Type}

/-! ## Setting one name -/

theorem setIn_of_not_mem {key : String} {value : α} {es : List (String × α)}
    (h : key ∉ es.map Prod.fst) : setIn key value es = es ++ [(key, value)] := by
  induction es with
  | nil => rfl
  | cons e es ih =>
    obtain ⟨k, v⟩ := e
    rw [List.map_cons, List.mem_cons, not_or] at h
    rw [setIn, if_neg (Ne.symm h.1), ih h.2, List.cons_append]

theorem mem_setIn {key : String} {value : α} {es : List (String × α)} {e : String × α}
    (h : e ∈ setIn key value es) : e = (key, value) ∨ e ∈ es := by
  induction es with
  | nil => exact Or.inl (List.mem_singleton.1 h)
  | cons d es ih =>
    obtain ⟨k, v⟩ := d
    rw [setIn] at h
    split at h
    · next hk =>
      rcases List.mem_cons.1 h with rfl | h
      · exact Or.inl (by rw [hk])
      · exact Or.inr (List.mem_cons_of_mem _ h)
    · rcases List.mem_cons.1 h with rfl | h
      · exact Or.inr List.mem_cons_self
      · exact (ih h).imp_right (List.mem_cons_of_mem _)

theorem setIn_map {β : Type} (f : α → β) (key : String) (value : α) (es : List (String × α)) :
    setIn key (f value) (es.map fun e => (e.1, f e.2))
      = (setIn key value es).map fun e => (e.1, f e.2) := by
  induction es with
  | nil => rfl
  | cons e es ih =>
    obtain ⟨k, v⟩ := e
    simp only [List.map_cons, setIn]
    split
    · rfl
    · rw [ih, List.map_cons]

/-- The first of the pairs with a name is found under it. -/
theorem lookupIn_append_of_not_mem {before : List (String × α)} {e : String × α}
    (h : e.1 ∉ before.map Prod.fst) (after : List (String × α)) :
    lookupIn e.1 (before ++ e :: after) = some e.2 := by
  induction before with
  | nil => simp [lookupIn]
  | cons d before ih =>
    rw [List.map_cons, List.mem_cons, not_or] at h
    rw [List.cons_append, lookupIn, if_neg (Ne.symm h.1), ih h.2]

/-- What is found under a name is one of the pairs. -/
theorem mem_of_lookupIn {key : String} {value : α} {es : List (String × α)}
    (h : lookupIn key es = some value) : (key, value) ∈ es := by
  induction es with
  | nil => cases h
  | cons e es ih =>
    obtain ⟨k, v⟩ := e
    rw [lookupIn] at h
    split at h
    · next hk =>
      obtain rfl := Option.some.inj h
      exact hk ▸ List.mem_cons_self
    · exact List.mem_cons_of_mem _ (ih h)

theorem setIn_ne_nil (key : String) (value : α) (es : List (String × α)) :
    setIn key value es ≠ [] := by
  cases es with
  | nil => exact List.cons_ne_nil _ _
  | cons e es =>
    rw [setIn]
    split <;> exact List.cons_ne_nil _ _

namespace Table

/-! ## Entries and look-up -/

/-- The entries of a table are found by their names. -/
theorem get?_of_mem {t : Table α} {e : String × α} (h : e ∈ t.entries) :
    t.get? e.1 = some e.2 := by
  obtain ⟨es, hd⟩ := t
  simp only [get?] at h ⊢
  induction es with
  | nil => cases h
  | cons f es ih =>
    obtain ⟨k, v⟩ := f
    obtain ⟨hk, hd⟩ := List.nodup_cons.1 hd
    rcases List.mem_cons.1 h with rfl | he
    · simp [lookupIn]
    · have hne : k ≠ e.1 := fun hke => hk (List.mem_map.2 ⟨e, he, hke.symm⟩)
      simpa [lookupIn, hne] using ih hd he

theorem mem_of_get? {t : Table α} {key : String} {value : α} (h : t.get? key = some value) :
    (key, value) ∈ t.entries :=
  mem_of_lookupIn h

/-- Tables with the same names in the same order and the same values are the same. -/
theorem ext_get? {t u : Table α} (hk : t.keys = u.keys)
    (hg : ∀ key ∈ t.keys, t.get? key = u.get? key) : t = u := by
  obtain ⟨es, hes⟩ := t
  obtain ⟨fs, hfs⟩ := u
  refine Table.ext ?_
  simp only [keys, get?] at hk hg ⊢
  -- The induction is on the entries of one table; those of the other are as many.
  induction es generalizing fs with
  | nil =>
    cases fs with
    | nil => rfl
    | cons f fs => simp at hk
  | cons e es ih =>
    cases fs with
    | nil => simp at hk
    | cons f fs =>
      obtain ⟨k, v⟩ := e
      obtain ⟨k', v'⟩ := f
      simp only [List.map_cons, List.cons.injEq] at hk
      obtain ⟨rfl, hk⟩ := hk
      obtain ⟨hnot, hes⟩ := List.nodup_cons.1 hes
      obtain ⟨-, hfs⟩ := List.nodup_cons.1 hfs
      have hv : v = v' := by simpa [lookupIn] using hg k List.mem_cons_self
      have htail : es = fs := by
        refine ih hes fs hfs hk fun key hkey => ?_
        have hne : ¬ k = key := fun h => hnot (h ▸ hkey)
        simpa [lookupIn, hne] using hg key (List.mem_cons_of_mem _ hkey)
      rw [hv, htail]

/-! ## Tables of pairs -/

theorem entries_setAll {t : Table α} {es : List (String × α)}
    (h : ((t.entries ++ es).map Prod.fst).Nodup) : (t.setAll es).entries = t.entries ++ es := by
  induction es generalizing t with
  | nil => simp
  | cons e es ih =>
    obtain ⟨key, value⟩ := e
    have hkey : key ∉ t.entries.map Prod.fst := by
      intro hm
      rw [List.map_append, List.nodup_append] at h
      exact h.2.2 key hm key (by simp) rfl
    have hset : (t.set key value).entries = t.entries ++ [(key, value)] := setIn_of_not_mem hkey
    rw [setAll_cons, ih (by rw [hset]; simpa using h), hset]
    simp

/-- A table of pairs with distinct names has these pairs as they are. -/
theorem entries_ofList {es : List (String × α)} (h : (es.map Prod.fst).Nodup) :
    (ofList es).entries = es := entries_setAll (t := .empty) h

theorem mem_setAll {t : Table α} {es : List (String × α)} {e : String × α}
    (h : e ∈ (t.setAll es).entries) : e ∈ t.entries ∨ e ∈ es := by
  induction es generalizing t with
  | nil => exact Or.inl h
  | cons d es ih =>
    rcases ih (t := t.set d.1 d.2) h with h | h
    · rcases mem_setIn h with rfl | h
      · exact Or.inr List.mem_cons_self
      · exact Or.inl h
    · exact Or.inr (List.mem_cons_of_mem d h)

theorem mem_ofList {es : List (String × α)} {e : String × α} (h : e ∈ (ofList es).entries) :
    e ∈ es :=
  (mem_setAll h).resolve_left List.not_mem_nil

/-- A function of the values can be applied before or after a table is made of the pairs. -/
theorem setAll_mapValues {β : Type} (t : Table α) (f : α → β) (es : List (String × α)) :
    (t.mapValues f).setAll (es.map fun e => (e.1, f e.2)) = (t.setAll es).mapValues f := by
  induction es generalizing t with
  | nil => rfl
  | cons e es ih =>
    have hset : (t.mapValues f).set e.1 (f e.2) = (t.set e.1 e.2).mapValues f :=
      ext (setIn_map f e.1 e.2 t.entries)
    rw [List.map_cons, setAll_cons, setAll_cons, hset, ih]

theorem ofList_mapValues {β : Type} (f : α → β) (es : List (String × α)) :
    ofList (es.map fun e => (e.1, f e.2)) = (ofList es).mapValues f :=
  setAll_mapValues .empty f es

theorem setAll_ne_nil {t : Table α} (h : t.entries ≠ []) (es : List (String × α)) :
    (t.setAll es).entries ≠ [] := by
  induction es generalizing t with
  | nil => exact h
  | cons e es ih => exact ih (setIn_ne_nil e.1 e.2 t.entries)

/-- A name stays in the table whatever is set after it, so only no pairs make an empty table. -/
theorem isEmpty_ofList {es : List (String × α)} : (ofList es).entries = [] ↔ es = [] := by
  constructor
  · intro h
    cases es with
    | nil => rfl
    | cons e es => exact absurd h (setAll_ne_nil (setIn_ne_nil e.1 e.2 []) es)
  · rintro rfl
    rfl

theorem eraseDups_concat (names : List String) (name : String) :
    (names ++ [name]).eraseDups =
      if name ∈ names then names.eraseDups else names.eraseDups ++ [name] := by
  rw [List.eraseDups_append]
  split
  · next h => simp [h, List.removeAll]
  · next h => simp [h, List.removeAll, List.eraseDups_cons]

/-- The names of a table of pairs come in the order in which they come first. -/
theorem keys_ofList (es : List (String × α)) : (ofList es).keys = (es.map Prod.fst).eraseDups := by
  -- The induction is from the end, where the pair is that is set last.
  induction es using List.reverseRecOn with
  | nil => rfl
  | append_singleton es e ih =>
    have hset : ofList (es ++ [e]) = (ofList es).set e.1 e.2 := setAll_append ..
    rw [hset, keys_set, ih, List.map_append, List.map_singleton, eraseDups_concat]
    simp only [List.mem_eraseDups]

theorem get?_setAll_of_not_mem {es : List (String × α)} {key : String}
    (h : key ∉ es.map Prod.fst) (t : Table α) : (t.setAll es).get? key = t.get? key := by
  induction es generalizing t with
  | nil => rfl
  | cons e es ih =>
    rw [List.map_cons, List.mem_cons, not_or] at h
    rw [setAll_cons, ih h.2, get?_set, if_neg (Ne.symm h.1)]

/-- The last of the pairs with a name decides what is found under it. -/
theorem get?_ofList_of_last {before after : List (String × α)} {e : String × α}
    (h : e.1 ∉ after.map Prod.fst) : (ofList (before ++ e :: after)).get? e.1 = some e.2 := by
  rw [ofList, setAll_append, setAll_cons, get?_setAll_of_not_mem h, get?_set, if_pos rfl]

/-! ## Writing one table over another -/

theorem keys_setAll {es : List (String × α)} (hd : (es.map Prod.fst).Nodup) (t : Table α) :
    (t.setAll es).keys = t.keys ++ (es.map Prod.fst).filter (· ∉ t.keys) := by
  induction es generalizing t with
  | nil => simp
  | cons e es ih =>
    obtain ⟨key, value⟩ := e
    obtain ⟨hkey, hd⟩ := List.nodup_cons.1 hd
    rw [setAll_cons, ih hd, keys_set, List.map_cons]
    by_cases hk : key ∈ t.keys
    · simp [hk]
    · -- The new name comes right after the old ones; it is no name of the pairs after it.
      have hfilter : (es.map Prod.fst).filter (· ∉ t.keys ++ [key])
          = (es.map Prod.fst).filter (· ∉ t.keys) := by
        refine List.filter_congr fun other hother => ?_
        have hne : other ≠ key := by
          rintro rfl
          exact hkey hother
        simp [hne]
      rw [if_neg hk, hfilter]
      simp [hk]

theorem get?_setAll {es : List (String × α)} (hd : (es.map Prod.fst).Nodup) (t : Table α)
    (key : String) : (t.setAll es).get? key = (lookupIn key es).or (t.get? key) := by
  induction es generalizing t with
  | nil => rfl
  | cons e es ih =>
    obtain ⟨first, value⟩ := e
    obtain ⟨hfirst, hd⟩ := List.nodup_cons.1 hd
    rw [setAll_cons, ih hd, get?_set, lookupIn]
    split
    · next hk =>
      subst hk
      -- The pairs after this one do not have its name.
      have hnone : lookupIn first es = none := by
        rw [← Option.not_isSome_iff_eq_none, lookupIn_isSome_iff]
        exact hfirst
      rw [hnone]
      rfl
    · rfl

/-- Names that were there keep their places, and the new ones follow in their order. -/
theorem keys_update (t u : Table α) : (t.update u).keys = t.keys ++ u.keys.filter (· ∉ t.keys) :=
  keys_setAll u.distinct t

/-- The table that is written over another one decides about its own names. -/
theorem get?_update (t u : Table α) (key : String) :
    (t.update u).get? key = (u.get? key).or (t.get? key) :=
  get?_setAll u.distinct t key

theorem update_set (t u : Table α) (key : String) (value : α) :
    t.update (u.set key value) = (t.update u).set key value := by
  refine ext_get? ?_ fun other _ => ?_
  · rw [keys_update, keys_set, keys_set, keys_update]
    by_cases hu : key ∈ u.keys <;> by_cases ht : key ∈ t.keys <;> simp [hu, ht]
  · rw [get?_update, get?_set, get?_set, get?_update]
    split <;> rfl

/-- Pairs can be set in a table of their own first, which is then written over the other one. -/
theorem update_setAll (t u : Table α) (es : List (String × α)) :
    t.update (u.setAll es) = (t.update u).setAll es := by
  induction es generalizing u with
  | nil => rfl
  | cons e es ih => rw [setAll_cons, ih, update_set, setAll_cons]

/-- **A table of pairs is made in two steps** by writing the table of the later ones over the table
of the earlier ones. -/
theorem ofList_append (es fs : List (String × α)) :
    ofList (es ++ fs) = (ofList es).update (ofList fs) := by
  rw [ofList, setAll_append, ofList, ofList, update_setAll]
  rfl

end Table

end Styling
