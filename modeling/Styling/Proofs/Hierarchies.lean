import Styling.Class

/-!
# Hierarchies of classes

A linearization is merged from those of the bases, and nothing is lost or added on the way
(`mem_mergeRows`). So the classes of a linearization come with all their ancestors
(`Classes.WellBuilt.mem_trans`), and no class before a place knows the class at it.

Frozen and other record classes do not descend from each other, but a frozen one may have bases of
both kinds. What is left of the rule is an invariant of the building of classes
(`Classes.WellBuilt`): the ancestors of an unfrozen record class are unfrozen, and without a class
that has several bases all record classes of a linearization are of one kind. Each new class keeps
it (`Classes.WellBuilt.concat`), so it holds of all classes that can be declared
(`Classes.wellBuilt_ofDecls`).
-/

set_option autoImplicit false

namespace Styling

/-! ## Merging rows -/

theorem head_of_nextRef? {rows : List (List ClassRef)} {c : ClassRef}
    (h : nextRef? rows = some c) : ∃ row ∈ rows, row.head? = some c :=
  List.mem_filterMap.1 (List.mem_of_find?_eq_some h)

/-- The class that is taken from the heads of the rows is all that the rows lose. -/
theorem mem_advanceRows {rows : List (List ClassRef)} {c : ClassRef}
    (hc : ∃ row ∈ rows, row.head? = some c) (r : ClassRef) :
    (∃ row ∈ rows, r ∈ row) ↔ r = c ∨ ∃ row ∈ advanceRows c rows, r ∈ row := by
  constructor
  · rintro ⟨row, hrow, hr⟩
    have hadvanced : (if row.head? = some c then row.tail else row) ∈ advanceRows c rows :=
      List.mem_map.2 ⟨row, hrow, rfl⟩
    by_cases hhead : row.head? = some c
    · rw [if_pos hhead] at hadvanced
      obtain ⟨rest, rfl⟩ := List.head?_eq_some_iff.1 hhead
      rcases List.mem_cons.1 hr with hr | hr
      · exact Or.inl hr
      · exact Or.inr ⟨rest, hadvanced, hr⟩
    · rw [if_neg hhead] at hadvanced
      exact Or.inr ⟨row, hadvanced, hr⟩
  · rintro (rfl | ⟨row', hrow', hr⟩)
    · obtain ⟨row, hrow, hhead⟩ := hc
      exact ⟨row, hrow, List.mem_of_head? hhead⟩
    · obtain ⟨row, hrow, rfl⟩ := List.mem_map.1 hrow'
      split at hr
      · exact ⟨row, hrow, List.mem_of_mem_tail hr⟩
      · exact ⟨row, hrow, hr⟩

theorem not_mem_of_empty {rows : List (List ClassRef)} (h : ∀ row ∈ rows, row = [])
    (r : ClassRef) : r ∈ ([] : List ClassRef) ↔ ∃ row ∈ rows, r ∈ row := by
  constructor
  · intro hr
    exact absurd hr List.not_mem_nil
  · rintro ⟨row, hrow, hr⟩
    rw [h row hrow] at hr
    exact hr

/-- A merge ends with rows that are all empty, or takes the next class and goes on. -/
theorem mergeRows_ok {steps : Nat} {rows : List (List ClassRef)} {order : List ClassRef}
    (h : mergeRows steps rows = .ok order) :
    ((∀ row ∈ rows, row = []) ∧ order = []) ∨
      ∃ left c rest, steps = left + 1 ∧ nextRef? rows = some c ∧
        mergeRows left (advanceRows c rows) = .ok rest ∧ order = c :: rest := by
  unfold mergeRows at h
  split at h
  · next hempty =>
    cases h
    exact Or.inl ⟨by simpa using hempty, rfl⟩
  · split at h
    · next left c hnext =>
      cases hrest : mergeRows left (advanceRows c rows) with
      | error heads => simp [hrest, Except.map] at h
      | ok rest =>
        simp only [hrest, Except.map, Except.ok.injEq] at h
        exact Or.inr ⟨left, c, rest, rfl, hnext, hrest, h.symm⟩
    · cases h

/-- Rows that are merged give just the classes that they have. -/
theorem mem_mergeRows {steps : Nat} {rows : List (List ClassRef)} {order : List ClassRef}
    (h : mergeRows steps rows = .ok order) (r : ClassRef) :
    r ∈ order ↔ ∃ row ∈ rows, r ∈ row := by
  induction steps generalizing rows order with
  | zero =>
    obtain ⟨hempty, rfl⟩ | ⟨left, c, rest, hsteps, -⟩ := mergeRows_ok h
    · exact (not_mem_of_empty hempty r)
    · cases hsteps
  | succ steps ih =>
    obtain ⟨hempty, rfl⟩ | ⟨left, c, rest, hsteps, hnext, hrest, rfl⟩ := mergeRows_ok h
    · exact (not_mem_of_empty hempty r)
    · obtain rfl := Nat.succ.inj hsteps
      rw [List.mem_cons, ih hrest, mem_advanceRows (head_of_nextRef? hnext)]

namespace Classes

variable {cs : Classes}

/-! ## Building a class -/

/-- A class of the library, or one that is there. -/
def Refers (cs : Classes) (r : ClassRef) : Prop := ∀ i, r = .declared i → i < cs.length

theorem refers_library (name : String) : cs.Refers (.library name) := by
  intro i h
  cases h

theorem resolve?_refers {name : String} {r : ClassRef} (h : cs.resolve? name = some r) :
    cs.Refers r := by
  unfold resolve? at h
  split at h
  · next c j hlast =>
    rintro i rfl
    obtain rfl := ClassRef.declared.inj (Option.some.inj h)
    have hmem := (List.mem_filter.1 (List.mem_of_getLast? hlast)).1
    exact (List.getElem?_eq_some_iff.1 (List.mem_zipIdx_iff_getElem?.1 hmem)).1
  · split at h
    · obtain rfl := Option.some.inj h
      exact refers_library name
    · cases h

theorem resolveAll_ok {names : List String} {bases : List ClassRef}
    (h : cs.resolveAll names = .ok bases) :
    bases.length = names.length ∧ ∀ b ∈ bases, cs.Refers b := by
  induction names generalizing bases with
  | nil =>
    cases h
    exact ⟨rfl, fun b hb => absurd hb List.not_mem_nil⟩
  | cons name names ih =>
    rw [resolveAll] at h
    cases hr : cs.resolve? name with
    | none => simp [hr] at h
    | some r =>
      cases hrest : cs.resolveAll names with
      | error e => simp [hr, hrest, Except.map] at h
      | ok rest =>
        simp only [hr, hrest, Except.map, Except.ok.injEq] at h
        subst h
        obtain ⟨hlength, hrefers⟩ := ih hrest
        exact ⟨by simp [hlength], List.forall_mem_cons.2 ⟨resolve?_refers hr, hrefers⟩⟩

/-- The classes right above a class: its bases, or the class that all others descend from. -/
def parents (bases : List ClassRef) : List ClassRef := if bases.isEmpty then [.root] else bases

theorem parents_refers {bases : List ClassRef} (h : ∀ b ∈ bases, cs.Refers b) :
    ∀ b ∈ parents bases, cs.Refers b := by
  unfold parents
  split
  · exact List.forall_mem_singleton.2 (refers_library "object")
  · exact h

theorem parents_single {bases : List ClassRef} (h : bases.length ≤ 1) :
    ∃ b, parents bases = [b] := by
  match bases, h with
  | [], _ => exact ⟨.root, rfl⟩
  | [b], _ => exact ⟨b, rfl⟩

/-- The rows that are merged are the linearizations of the parents, and the parents themselves. -/
theorem linearize_eq (cs : Classes) (new : ClassRef) (bases : List ClassRef) :
    cs.linearize new bases =
      let rows := (parents bases).map cs.linearization ++ [parents bases]
      match mergeRows rows.flatten.length rows with
      | .ok order => .ok (new :: order)
      | .error heads => .error (.noLinearization (heads.map cs.nameOf)) :=
  rfl

/-- Behind a new class stand its parents and what stands behind these. -/
theorem linearize_ok {new : ClassRef} {bases order : List ClassRef}
    (h : cs.linearize new bases = .ok order) :
    ∃ tail, order = new :: tail ∧
      ∀ r, r ∈ tail ↔ ∃ b ∈ parents bases, r = b ∨ r ∈ cs.linearization b := by
  simp only [linearize_eq] at h
  split at h
  · next tail hmerge =>
    cases h
    refine ⟨tail, rfl, fun r => ?_⟩
    rw [mem_mergeRows hmerge]
    simp only [List.mem_append, List.mem_map, List.mem_singleton]
    constructor
    · rintro ⟨row, ⟨b, hb, rfl⟩ | rfl, hr⟩
      · exact ⟨b, hb, Or.inr hr⟩
      · exact ⟨r, hr, Or.inl rfl⟩
    · rintro ⟨b, hb, rfl | hr⟩
      · exact ⟨parents bases, Or.inr rfl, hb⟩
      · exact ⟨cs.linearization b, Or.inl ⟨b, hb, rfl⟩, hr⟩
  · cases h

/-- A record class is frozen or not as its inherited tables allow. -/
theorem recordTable_ok {d : ClassDecl} {order : List ClassRef} {table : Table FieldEntry}
    (h : cs.recordTable d order = .ok table) :
    (d.frozen = false → ∀ p ∈ cs.inheritedTables order, p.1.decl.frozen = false) ∧
      (d.frozen = true → cs.inheritedTables order ≠ [] →
        ∃ p ∈ cs.inheritedTables order, p.1.decl.frozen = true) := by
  unfold recordTable at h
  simp only at h
  split at h
  · cases h
  · cases hany : (cs.inheritedTables order).any fun p => p.1.decl.frozen with
    | true =>
      obtain ⟨p, hp, hfrozen⟩ := List.any_eq_true.1 hany
      refine ⟨fun hd => ?_, fun _ _ => ⟨p, hp, hfrozen⟩⟩
      simp [hany, hd] at h
    | false =>
      have hall : ∀ p ∈ cs.inheritedTables order, p.1.decl.frozen = false := by
        simpa using hany
      refine ⟨fun _ => hall, fun hd hne => ?_⟩
      simp [hany, hd, hne] at h

/-- All that is known of a class that has been built. -/
theorem build_ok {d : ClassDecl} {c : Class} (h : cs.build d = .ok c) :
    ∃ bases, bases.length = c.decl.bases.length ∧ (∀ b ∈ bases, cs.Refers b) ∧
      cs.linearize (.declared cs.length) bases = .ok c.linearization ∧
      (c.table.isSome = true → ∃ table, cs.recordTable c.decl c.linearization = .ok table) := by
  unfold build at h
  simp only [bind, Except.bind] at h
  cases hb : cs.resolveAll d.bases with
  | error e => simp [hb] at h
  | ok bases =>
    simp only [hb] at h
    split at h
    · cases h
    · cases ho : cs.linearize (.declared cs.length) bases with
      | error e => simp [ho] at h
      | ok order =>
        simp only [ho] at h
        obtain ⟨hlength, hrefers⟩ := resolveAll_ok hb
        cases hr : d.isRecord with
        | false =>
          simp only [hr, Bool.false_eq_true, if_false, pure, Except.pure, Except.ok.injEq] at h
          subst h
          exact ⟨bases, hlength, hrefers, ho, fun htable => by cases htable⟩
        | true =>
          simp only [hr, if_true] at h
          split at h
          · cases h
          · next table htable =>
            simp only [pure, Except.pure, Except.ok.injEq] at h
            subst h
            refine ⟨bases, hlength, hrefers, ho, fun _ => ?_⟩
            cases hrecord : cs.recordTable _ order with
            | error e => simp [hrecord, Except.map] at htable
            | ok entries => exact ⟨entries, rfl⟩

/-! ## Classes of a linearization -/

/-- A record class of a linearization. -/
def HasRecord (cs : Classes) (order : List ClassRef) (c : Class) : Prop :=
  ∃ i, .declared i ∈ order ∧ cs[i]? = some c ∧ c.table.isSome = true

/-- No class of a linearization has more than one base. -/
def IsSingle (cs : Classes) (order : List ClassRef) : Prop :=
  ∀ i c, .declared i ∈ order → cs[i]? = some c → c.decl.bases.length ≤ 1

theorem HasRecord.mono {order order' : List ClassRef} {c : Class}
    (h : cs.HasRecord order c) (ho : ∀ r ∈ order, r ∈ order') : cs.HasRecord order' c := by
  obtain ⟨i, hi, hc⟩ := h
  exact ⟨i, ho _ hi, hc⟩

theorem mem_linearization_library {name : String} {r : ClassRef} :
    r ∈ cs.linearization (.library name) ↔ r = .library name ∨ r = .root := by
  rw [linearization]
  split
  · next hname => simp [hname, ClassRef.root]
  · simp

theorem not_mem_linearization_library {name : String} {i : Nat} :
    .declared i ∉ cs.linearization (.library name) := by
  simp [mem_linearization_library, ClassRef.root]

theorem linearization_of_getElem? {i : Nat} {c : Class} (h : cs[i]? = some c) :
    cs.linearization (.declared i) = c.linearization := by
  rw [linearization, h]
  rfl

/-- The table that a linearization has is that of one of its record classes. -/
theorem hasRecord_of_tableOf {order : List ClassRef} {p : Class × Table FieldEntry}
    (h : cs.tableOf order = some p) : cs.HasRecord order p.1 := by
  obtain ⟨r, hr, hp⟩ := List.exists_of_findSome?_eq_some h
  cases r with
  | library name => cases hp
  | declared i =>
    obtain ⟨c, hc, htable⟩ := Option.bind_eq_some_iff.1 hp
    obtain ⟨table, ht, rfl⟩ := Option.map_eq_some_iff.1 htable
    exact ⟨i, hr, hc, by rw [ht]; rfl⟩

/-- What holds of a class at its place. -/
structure WellPlaced (cs : Classes) (i : Nat) (c : Class) : Prop where
  first : c.linearization.head? = some (.declared i)
  le : ∀ j, .declared j ∈ c.linearization → j ≤ i
  /-- Ancestors come with their own ancestors. -/
  closed : ∀ r ∈ c.linearization, ∀ s ∈ cs.linearization r, s ∈ c.linearization
  /-- An unfrozen record class descends from no frozen one. -/
  unfrozen : c.table.isSome = true → c.decl.frozen = false →
    ∀ a, cs.HasRecord c.linearization a → a.decl.frozen = false
  /-- Where no class has several bases, frozen and other record classes do not meet. -/
  single : cs.IsSingle c.linearization → ∀ a b, cs.HasRecord c.linearization a →
    cs.HasRecord c.linearization b → a.decl.frozen = b.decl.frozen

/-- What holds of classes that have been built one after the other. -/
def WellBuilt (cs : Classes) : Prop := ∀ i c, cs[i]? = some c → cs.WellPlaced i c

namespace WellBuilt

theorem mem_self (h : cs.WellBuilt) {r : ClassRef} (hr : cs.Refers r) :
    r ∈ cs.linearization r := by
  cases r with
  | library name => exact mem_linearization_library.2 (Or.inl rfl)
  | declared i =>
    obtain ⟨c, hc⟩ : ∃ c, cs[i]? = some c := ⟨_, List.getElem?_eq_getElem (hr i rfl)⟩
    rw [linearization_of_getElem? hc]
    exact List.mem_of_head? (h i c hc).first

/-- A class of the linearization of a class has its whole linearization there. -/
theorem mem_trans (h : cs.WellBuilt) {b r s : ClassRef} (hr : r ∈ cs.linearization b)
    (hs : s ∈ cs.linearization r) : s ∈ cs.linearization b := by
  cases b with
  | library name =>
    rcases mem_linearization_library.1 hr with rfl | rfl
    · exact hs
    · exact mem_linearization_library.2 (Or.inr ((mem_linearization_library.1 hs).elim id id))
  | declared i =>
    cases hc : cs[i]? with
    | none => simp [linearization, hc] at hr
    | some c =>
      rw [linearization_of_getElem? hc] at hr ⊢
      exact (h i c hc).closed r hr s hs

theorem refers_of_mem (h : cs.WellBuilt) {b r : ClassRef} (hr : r ∈ cs.linearization b) :
    cs.Refers r := by
  rintro j rfl
  cases b with
  | library name => exact absurd hr not_mem_linearization_library
  | declared i =>
    cases hc : cs[i]? with
    | none => simp [linearization, hc] at hr
    | some c =>
      rw [linearization_of_getElem? hc] at hr
      exact Nat.lt_of_le_of_lt ((h i c hc).le j hr) (List.getElem?_eq_some_iff.1 hc).1

/-- The record classes of a linearization are of one kind where no class has several bases. -/
theorem frozen_eq (h : cs.WellBuilt) {b : ClassRef} (hs : cs.IsSingle (cs.linearization b))
    {a a' : Class} (ha : cs.HasRecord (cs.linearization b) a)
    (ha' : cs.HasRecord (cs.linearization b) a') : a.decl.frozen = a'.decl.frozen := by
  cases b with
  | library name =>
    obtain ⟨i, hi, -⟩ := ha
    exact absurd hi not_mem_linearization_library
  | declared i =>
    cases hc : cs[i]? with
    | none =>
      obtain ⟨j, hj, -⟩ := ha
      simp [linearization, hc] at hj
    | some c =>
      rw [linearization_of_getElem? hc] at hs ha ha'
      exact (h i c hc).single hs a a' ha ha'

/-- A record class has its own table. -/
theorem tableOf_eq (h : cs.WellBuilt) {i : Nat} {c : Class} {table : Table FieldEntry}
    (hc : cs[i]? = some c) (ht : c.table = some table) :
    cs.tableOf (cs.linearization (.declared i)) = some (c, table) := by
  obtain ⟨rest, hrest⟩ := List.head?_eq_some_iff.1 (h i c hc).first
  rw [linearization_of_getElem? hc, hrest]
  simp [tableOf, hc, ht]

/-- The record classes of a linearization without its head are just those whose tables a class with
that linearization inherits. -/
theorem hasRecord_iff_inheritedTables (h : cs.WellBuilt) (new : ClassRef) {tail : List ClassRef}
    (htail : ∀ r ∈ tail, ∀ s ∈ cs.linearization r, s ∈ tail) (a : Class) :
    cs.HasRecord tail a ↔ ∃ p ∈ cs.inheritedTables (new :: tail), p.1 = a := by
  simp only [inheritedTables, List.tail_cons, List.mem_filterMap, List.mem_reverse]
  constructor
  · rintro ⟨j, hj, ha, htable⟩
    obtain ⟨table, ht⟩ := Option.isSome_iff_exists.1 htable
    exact ⟨(a, table), ⟨.declared j, hj, h.tableOf_eq ha ht⟩, rfl⟩
  · rintro ⟨p, ⟨r, hr, hp⟩, rfl⟩
    obtain ⟨j, hj, ha, htable⟩ := hasRecord_of_tableOf hp
    exact ⟨j, htail r hr _ hj, ha, htable⟩

/-! ## One more class -/

/-- Behind a new class stand known classes with all their ancestors; those of its only base, if it
has no other. -/
theorem tail_of_build (h : cs.WellBuilt) {d : ClassDecl} {c : Class} (hc : cs.build d = .ok c) :
    ∃ tail, c.linearization = .declared cs.length :: tail ∧ (∀ r ∈ tail, cs.Refers r) ∧
      (∀ r ∈ tail, ∀ s ∈ cs.linearization r, s ∈ tail) ∧
      (c.decl.bases.length ≤ 1 → ∃ b, ∀ r, r ∈ tail ↔ r ∈ cs.linearization b) := by
  obtain ⟨bases, hlength, hrefers, horder, -⟩ := build_ok hc
  obtain ⟨tail, htail, hmem⟩ := linearize_ok horder
  have hparents := parents_refers hrefers
  -- A parent is the first class of its own linearization, so it need not be told apart.
  have hmem' (r : ClassRef) : r ∈ tail ↔ ∃ b ∈ parents bases, r ∈ cs.linearization b := by
    rw [hmem]
    constructor
    · rintro ⟨b, hb, rfl | hr⟩
      · exact ⟨r, hb, h.mem_self (hparents r hb)⟩
      · exact ⟨b, hb, hr⟩
    · rintro ⟨b, hb, hr⟩
      exact ⟨b, hb, Or.inr hr⟩
  refine ⟨tail, htail, ?_, ?_, ?_⟩
  · intro r hr
    obtain ⟨b, hb, hr⟩ := (hmem' r).1 hr
    exact h.refers_of_mem hr
  · intro r hr s hs
    obtain ⟨b, hb, hr⟩ := (hmem' r).1 hr
    exact (hmem' s).2 ⟨b, hb, h.mem_trans hr hs⟩
  · intro hle
    obtain ⟨b, hb⟩ := parents_single (hlength ▸ hle)
    exact ⟨b, fun r => by simp [hmem', hb]⟩

/-- A new record class that is not frozen has no frozen record class behind it; a frozen one has,
unless it has no record class behind it at all. -/
theorem frozen_of_build (h : cs.WellBuilt) {d : ClassDecl} {c : Class} (hc : cs.build d = .ok c)
    (hrecord : c.table.isSome = true) {tail : List ClassRef}
    (htail : c.linearization = .declared cs.length :: tail)
    (hclosed : ∀ r ∈ tail, ∀ s ∈ cs.linearization r, s ∈ tail) :
    (c.decl.frozen = false → ∀ a, cs.HasRecord tail a → a.decl.frozen = false) ∧
      (c.decl.frozen = true → ∀ a, cs.HasRecord tail a →
        ∃ b, cs.HasRecord tail b ∧ b.decl.frozen = true) := by
  obtain ⟨bases, -, -, -, htable⟩ := build_ok hc
  obtain ⟨table, htable⟩ := htable hrecord
  obtain ⟨hunfrozen, hfrozen⟩ := recordTable_ok htable
  rw [htail] at hunfrozen hfrozen
  have hiff := h.hasRecord_iff_inheritedTables (.declared cs.length) hclosed
  constructor
  · intro hf a ha
    obtain ⟨p, hp, rfl⟩ := (hiff a).1 ha
    exact hunfrozen hf p hp
  · intro hf a ha
    obtain ⟨p, hp, rfl⟩ := (hiff a).1 ha
    obtain ⟨q, hq, hqf⟩ := hfrozen hf (List.ne_nil_of_mem hp)
    exact ⟨q.1, (hiff q.1).2 ⟨q, hq, rfl⟩, hqf⟩

end WellBuilt

theorem linearization_concat {r : ClassRef} (hr : cs.Refers r) (c : Class) :
    Classes.linearization (cs ++ [c]) r = cs.linearization r := by
  cases r with
  | library name => rfl
  | declared i => rw [linearization, linearization, List.getElem?_append_left (hr i rfl)]

theorem getElem?_concat_of_mem {order : List ClassRef} (ho : ∀ r ∈ order, cs.Refers r)
    (c : Class) {i : Nat} (hi : .declared i ∈ order) : (cs ++ [c])[i]? = cs[i]? :=
  List.getElem?_append_left (ho _ hi i rfl)

theorem hasRecord_concat {order : List ClassRef} (ho : ∀ r ∈ order, cs.Refers r) (c a : Class) :
    Classes.HasRecord (cs ++ [c]) order a ↔ cs.HasRecord order a := by
  constructor
  · rintro ⟨i, hi, ha⟩
    exact ⟨i, hi, by rwa [getElem?_concat_of_mem ho c hi] at ha⟩
  · rintro ⟨i, hi, ha⟩
    exact ⟨i, hi, by rwa [getElem?_concat_of_mem ho c hi]⟩

theorem IsSingle.of_concat {order : List ClassRef} (ho : ∀ r ∈ order, cs.Refers r) {c : Class}
    (h : Classes.IsSingle (cs ++ [c]) order) : cs.IsSingle order := by
  intro i a hi ha
  exact h i a hi (by rwa [getElem?_concat_of_mem ho c hi])

/-- A class keeps its place when another one is added. -/
theorem WellPlaced.concat {i : Nat} {a : Class} (h : cs.WellPlaced i a)
    (hrefers : ∀ r ∈ a.linearization, cs.Refers r) (c : Class) :
    Classes.WellPlaced (cs ++ [c]) i a where
  first := h.first
  le := h.le
  closed := by
    intro r hr s hs
    rw [linearization_concat (hrefers r hr)] at hs
    exact h.closed r hr s hs
  unfrozen := by
    intro ht hf b hb
    exact h.unfrozen ht hf b ((hasRecord_concat hrefers c b).1 hb)
  single := by
    intro hs b b' hb hb'
    exact h.single (hs.of_concat hrefers) b b' ((hasRecord_concat hrefers c b).1 hb)
      ((hasRecord_concat hrefers c b').1 hb')

/-- The record classes of a new linearization are the new class, if it is one, and those behind
it. -/
theorem hasRecord_new {c : Class} {tail : List ClassRef}
    (htail : c.linearization = .declared cs.length :: tail) (hrefers : ∀ r ∈ tail, cs.Refers r)
    {a : Class} (h : Classes.HasRecord (cs ++ [c]) c.linearization a) :
    (a = c ∧ c.table.isSome = true) ∨ cs.HasRecord tail a := by
  obtain ⟨i, hi, ha, ht⟩ := h
  rw [htail] at hi
  rcases List.mem_cons.1 hi with hi | hi
  · obtain rfl := ClassRef.declared.inj hi
    obtain rfl : c = a := by simpa using ha
    exact Or.inl ⟨rfl, ht⟩
  · rw [getElem?_concat_of_mem hrefers c hi] at ha
    exact Or.inr ⟨i, hi, ha, ht⟩

/-- Where no class of the new linearization has several bases, its record classes are of one kind:
those behind the new class come from its only base, and it is of their kind. -/
theorem WellBuilt.frozen_eq_new (h : cs.WellBuilt) {d : ClassDecl} {c : Class}
    (hc : cs.build d = .ok c) {tail : List ClassRef}
    (htail : c.linearization = .declared cs.length :: tail) (hrefers : ∀ r ∈ tail, cs.Refers r)
    (hclosed : ∀ r ∈ tail, ∀ s ∈ cs.linearization r, s ∈ tail) {b : ClassRef}
    (hb : ∀ r, r ∈ tail ↔ r ∈ cs.linearization b)
    (hs : Classes.IsSingle (cs ++ [c]) c.linearization) {a a' : Class}
    (ha : Classes.HasRecord (cs ++ [c]) c.linearization a)
    (ha' : Classes.HasRecord (cs ++ [c]) c.linearization a') : a.decl.frozen = a'.decl.frozen := by
  have hbase : cs.IsSingle (cs.linearization b) := by
    intro i e hi he
    have hmem := (hb _).2 hi
    exact hs i e (by rw [htail]; exact List.mem_cons_of_mem _ hmem)
      (by rwa [getElem?_concat_of_mem hrefers c hmem])
  have hagree {e e' : Class} (he : cs.HasRecord tail e) (he' : cs.HasRecord tail e') :
      e.decl.frozen = e'.decl.frozen :=
    h.frozen_eq hbase (he.mono fun r => (hb r).1) (he'.mono fun r => (hb r).1)
  have hself (ht : c.table.isSome = true) {e : Class} (he : cs.HasRecord tail e) :
      c.decl.frozen = e.decl.frozen := by
    obtain ⟨hunfrozen, hfrozen⟩ := h.frozen_of_build hc ht htail hclosed
    cases hf : c.decl.frozen with
    | false => exact (hunfrozen hf e he).symm
    | true =>
      obtain ⟨e', he', hf'⟩ := hfrozen hf e he
      exact hf'.symm.trans (hagree he' he)
  rcases hasRecord_new htail hrefers ha with ⟨hac, ht⟩ | hat <;>
    rcases hasRecord_new htail hrefers ha' with ⟨hac', ht'⟩ | hat'
  · rw [hac, hac']
  · rw [hac, hself ht hat']
  · rw [hac', hself ht' hat]
  · exact hagree hat hat'

/-- A class that is built from well-built classes has its place behind them. -/
theorem WellBuilt.wellPlaced (h : cs.WellBuilt) {d : ClassDecl} {c : Class}
    (hc : cs.build d = .ok c) : Classes.WellPlaced (cs ++ [c]) cs.length c := by
  obtain ⟨tail, htail, hrefers, hclosed, hsingle⟩ := h.tail_of_build hc
  have hnew : (cs ++ [c])[cs.length]? = some c := by simp
  refine ⟨by rw [htail]; rfl, ?_, ?_, ?_, ?_⟩
  · intro j hj
    rw [htail] at hj
    rcases List.mem_cons.1 hj with hj | hj
    · exact Nat.le_of_eq (ClassRef.declared.inj hj)
    · exact Nat.le_of_lt (hrefers _ hj j rfl)
  · intro r hr s hs
    rw [htail] at hr ⊢
    rcases List.mem_cons.1 hr with rfl | hr
    · rwa [linearization_of_getElem? hnew, htail] at hs
    · rw [linearization_concat (hrefers r hr)] at hs
      exact List.mem_cons_of_mem _ (hclosed r hr s hs)
  · intro ht hf a ha
    rcases hasRecord_new htail hrefers ha with ⟨rfl, -⟩ | ha
    · exact hf
    · exact (h.frozen_of_build hc ht htail hclosed).1 hf a ha
  · intro hs a a' ha ha'
    have hself : .declared cs.length ∈ c.linearization := by
      rw [htail]
      exact List.mem_cons_self
    obtain ⟨b, hb⟩ := hsingle (hs cs.length c hself hnew)
    exact h.frozen_eq_new hc htail hrefers hclosed hb hs ha ha'

/-- The step: one more class leaves well-built classes well built. -/
theorem WellBuilt.concat (h : cs.WellBuilt) {d : ClassDecl} {c : Class}
    (hc : cs.build d = .ok c) : Classes.WellBuilt (cs ++ [c]) := by
  intro i a ha
  by_cases hi : i < cs.length
  · rw [List.getElem?_append_left hi] at ha
    refine (h i a ha).concat (fun r hr => ?_) c
    exact h.refers_of_mem (b := .declared i) (by rwa [linearization_of_getElem? ha])
  · -- Behind the classes that were there stands the new one only.
    obtain ⟨hlt, rfl⟩ := List.getElem?_eq_some_iff.1 ha
    obtain rfl : i = cs.length := by
      simp only [List.length_append, List.length_singleton] at hlt
      omega
    simpa using h.wellPlaced hc

/-- The run: so do any further ones. -/
theorem WellBuilt.of_foldlM (h : cs.WellBuilt) {ds : List ClassDecl} {all : Classes}
    (hall : ds.foldlM (fun cs d => do return cs ++ [← cs.build d]) cs = .ok all) :
    all.WellBuilt := by
  induction ds generalizing cs with
  | nil =>
    cases hall
    exact h
  | cons d ds ih =>
    rw [List.foldlM_cons] at hall
    cases hc : cs.build d with
    | error e => simp [hc, bind, Except.bind] at hall
    | ok c =>
      simp only [hc, bind, Except.bind, pure, Except.pure] at hall
      exact ih (h.concat hc) hall

/-- All classes that can be declared are well built. -/
theorem wellBuilt_ofDecls {ds : List ClassDecl} (h : Classes.ofDecls ds = .ok cs) :
    cs.WellBuilt :=
  WellBuilt.of_foldlM (fun i c hc => by simp at hc) h

end Classes

end Styling
