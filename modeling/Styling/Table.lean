/-!
# Tables with an order of entries

A table maps names to values and remembers the order in which the names came. Writing to a name
that is present keeps its place; a new name goes to the end. `get?_set` and `keys_set` say what a
write does to the two views of a table, its look-up and its list of names.
-/

namespace Styling

variable {α : Type}

/-- The entry for a name among pairs. -/
def lookupIn (key : String) : List (String × α) → Option α
  | [] => none
  | (k, v) :: rest => if k = key then some v else lookupIn key rest

/-- The pairs with a name set to a value: in its place, or at the end. -/
def setIn (key : String) (value : α) : List (String × α) → List (String × α)
  | [] => [(key, value)]
  | (k, v) :: rest => if k = key then (k, value) :: rest else (k, v) :: setIn key value rest

theorem keys_setIn (key : String) (value : α) (es : List (String × α)) :
    (setIn key value es).map Prod.fst =
      if key ∈ es.map Prod.fst then es.map Prod.fst else es.map Prod.fst ++ [key] := by
  induction es with
  | nil => simp [setIn]
  | cons e es ih =>
    obtain ⟨k, v⟩ := e
    by_cases h : k = key
    · simp [setIn, h]
    · have h' : ¬ key = k := fun e => h e.symm
      simp only [setIn, h, ↓reduceIte, List.map_cons, ih, List.mem_cons, h', false_or]
      split <;> simp

theorem lookupIn_setIn (key other : String) (value : α) (es : List (String × α)) :
    lookupIn other (setIn key value es) =
      if key = other then some value else lookupIn other es := by
  induction es with
  | nil => simp [setIn, lookupIn]
  | cons e es ih =>
    obtain ⟨k, v⟩ := e
    by_cases h : k = key
    · subst h
      by_cases ho : k = other <;> simp [setIn, lookupIn, ho]
    · by_cases ho : k = other
      · subst ho
        simp [setIn, lookupIn, h, Ne.symm h]
      · simp [setIn, lookupIn, h, ho, ih]

theorem lookupIn_isSome_iff {key : String} {es : List (String × α)} :
    (lookupIn key es).isSome = true ↔ key ∈ es.map Prod.fst := by
  induction es with
  | nil => simp [lookupIn]
  | cons e es ih =>
    obtain ⟨k, v⟩ := e
    by_cases h : k = key
    · simp [lookupIn, h]
    · simp [lookupIn, h, ih, Ne.symm h]

theorem nodup_keys_setIn {key : String} {value : α} {es : List (String × α)}
    (h : (es.map Prod.fst).Nodup) : ((setIn key value es).map Prod.fst).Nodup := by
  rw [keys_setIn]
  split
  · exact h
  · next hk =>
    refine List.nodup_append.2 ⟨h, by simp, ?_⟩
    rintro a ha b hb rfl
    exact hk (List.mem_singleton.1 hb ▸ ha)

/-- Values by name, in an order, no name twice. -/
structure Table (α : Type) where
  entries : List (String × α)
  distinct : (entries.map Prod.fst).Nodup

namespace Table

def empty : Table α := ⟨[], List.nodup_nil⟩

instance : Inhabited (Table α) := ⟨empty⟩

/-- The names, in their order. -/
def keys (t : Table α) : List String := t.entries.map Prod.fst

def size (t : Table α) : Nat := t.entries.length

def isEmpty (t : Table α) : Bool := t.entries.isEmpty

/-- The value of a name. -/
def get? (t : Table α) (key : String) : Option α := lookupIn key t.entries

def contains (t : Table α) (key : String) : Bool := (t.get? key).isSome

/-- Binds a name to a value: in its place if the name is present, else at the end. -/
def set (t : Table α) (key : String) (value : α) : Table α :=
  ⟨setIn key value t.entries, nodup_keys_setIn t.distinct⟩

/-- Binds the names of some pairs, one after the other. -/
def setAll (t : Table α) (pairs : List (String × α)) : Table α :=
  pairs.foldl (fun t e => t.set e.1 e.2) t

/-- The table of some pairs. A repeated name keeps its first place and takes its last value. -/
def ofList (pairs : List (String × α)) : Table α := empty.setAll pairs

/-- Writes the entries of another table over this one. -/
def update (t other : Table α) : Table α := t.setAll other.entries

/-- Applies a function to the values. -/
def mapValues {β : Type} (t : Table α) (f : α → β) : Table β :=
  ⟨t.entries.map fun e => (e.1, f e.2), by simpa [Function.comp_def] using t.distinct⟩

@[ext] theorem ext {t u : Table α} (h : t.entries = u.entries) : t = u := by
  cases t; cases u; cases h; rfl

@[simp] theorem get?_empty (key : String) : (empty : Table α).get? key = none := rfl

@[simp] theorem get?_set (t : Table α) (key other : String) (value : α) :
    (t.set key value).get? other = if key = other then some value else t.get? other :=
  lookupIn_setIn key other value t.entries

theorem keys_set (t : Table α) (key : String) (value : α) :
    (t.set key value).keys = if key ∈ t.keys then t.keys else t.keys ++ [key] :=
  keys_setIn key value t.entries

theorem contains_iff {t : Table α} {key : String} : t.contains key = true ↔ key ∈ t.keys :=
  lookupIn_isSome_iff

@[simp] theorem setAll_nil (t : Table α) : t.setAll [] = t := rfl

@[simp] theorem setAll_cons (t : Table α) (e : String × α) (es : List (String × α)) :
    t.setAll (e :: es) = (t.set e.1 e.2).setAll es := rfl

theorem setAll_append (t : Table α) (es fs : List (String × α)) :
    t.setAll (es ++ fs) = (t.setAll es).setAll fs := List.foldl_append

end Table

end Styling
