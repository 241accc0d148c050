import Styling.Proofs.Unions

/-!
# Types with notes

Notes can be put around any arm of a type, at any depth, and around the type as a whole. What stands
within notes is accepted no more: the type with its notes accepts just what the leaves outside all
notes accept (`NotedType.hint_acceptJust`). So it never accepts more than the type without them, and
it accepts a value as that one does unless only leaves within notes accept it
(`NotedType.accepts_same_iff`).
-/

set_option autoImplicit false

namespace Styling

/-- A type with notes around some of its arms, or around the whole. -/
inductive NotedType where
  | plain (t : TypeExpr)
  | optional (t : NotedType)
  | union (ts : List NotedType)
  | bars (ts : List NotedType)
  | annotated (t : NotedType) (notes : List Hint)

mutual

/-- The type without the notes. -/
def NotedType.bare : NotedType → TypeExpr
  | .plain t => t
  | .optional t => .optional t.bare
  | .union ts => .union (NotedType.bareAll ts)
  | .bars ts => .bars (NotedType.bareAll ts)
  | .annotated t _ => t.bare

def NotedType.bareAll : List NotedType → List TypeExpr
  | [] => []
  | t :: ts => t.bare :: NotedType.bareAll ts

end

mutual

/-- The hint that a type builds with its notes. -/
def NotedType.hint : NotedType → Except Misuse Hint
  | .plain t => t.hint
  | .optional t => t.hint >>= Hint.makeOptional
  | .union ts => NotedType.hints ts >>= Hint.makeUnion
  | .bars ts => NotedType.hints ts >>= Hint.makeBars
  | .annotated t notes => do Hint.makeAnnotated (← t.hint) notes

def NotedType.hints : List NotedType → Except Misuse (List Hint)
  | [] => .ok []
  | t :: ts => do return (← t.hint) :: (← NotedType.hints ts)

end

mutual

/-- The leaves that stand outside all notes. -/
def NotedType.exposed : NotedType → List TypeExpr
  | .plain t => t.leaves
  | .optional t => t.exposed ++ [.named "None"]
  | .union ts => NotedType.exposedOf ts
  | .bars ts => NotedType.exposedOf ts
  | .annotated _ _ => []

def NotedType.exposedOf : List NotedType → List TypeExpr
  | [] => []
  | t :: ts => t.exposed ++ NotedType.exposedOf ts

end

/-! ## Type expressions -/

mutual

/-- A type expression with its own notes. -/
def TypeExpr.noted : TypeExpr → NotedType
  | .optional t => .optional t.noted
  | .union ts => .union (TypeExpr.notedAll ts)
  | .bars ts => .bars (TypeExpr.notedAll ts)
  | .annotated t => .annotated t.noted [.other (.text annotationNote)]
  | t => .plain t

def TypeExpr.notedAll : List TypeExpr → List NotedType
  | [] => []
  | t :: ts => t.noted :: TypeExpr.notedAll ts

end

mutual

/-- With its own notes a type expression builds the hint that it builds anyway. -/
theorem TypeExpr.hint_noted (t : TypeExpr) : t.noted.hint = t.hint := by
  cases t with
  | optional t => rw [noted, NotedType.hint, TypeExpr.hint, TypeExpr.hint_noted t]
  | union ts => rw [noted, NotedType.hint, TypeExpr.hint, TypeExpr.hints_notedAll ts]
  | bars ts => rw [noted, NotedType.hint, TypeExpr.hint, TypeExpr.hints_notedAll ts]
  | annotated t => rw [noted, NotedType.hint, TypeExpr.hint, TypeExpr.hint_noted t]
  | _ => rfl

theorem TypeExpr.hints_notedAll (ts : List TypeExpr) :
    NotedType.hints (TypeExpr.notedAll ts) = TypeExpr.hints ts := by
  cases ts with
  | nil => rfl
  | cons t ts =>
    rw [notedAll, NotedType.hints, TypeExpr.hints, TypeExpr.hint_noted t,
      TypeExpr.hints_notedAll ts]

end

/-! ## What is left of a type within notes -/

namespace NotedType

mutual

theorem leaves_of_exposed (t : NotedType) {l : TypeExpr} (hl : l ∈ t.exposed) :
    l ∈ t.bare.leaves := by
  cases t with
  | plain t => exact hl
  | optional t =>
    rw [bare, TypeExpr.leaves]
    exact List.mem_append.2 ((List.mem_append.1 hl).imp_left (leaves_of_exposed t))
  | union ts => exact leavesOf_of_exposedOf ts hl
  | bars ts => exact leavesOf_of_exposedOf ts hl
  | annotated t notes => contradiction

theorem leavesOf_of_exposedOf (ts : List NotedType) {l : TypeExpr} (hl : l ∈ exposedOf ts) :
    l ∈ TypeExpr.leavesOf (bareAll ts) := by
  cases ts with
  | nil => contradiction
  | cons t ts =>
    rw [bareAll, TypeExpr.leavesOf]
    exact List.mem_append.2
      ((List.mem_append.1 hl).imp (leaves_of_exposed t) (leavesOf_of_exposedOf ts))

end

mutual

/-- The step, one case for each form of type: what is built with notes accepts what the leaves outside
them do. -/
theorem hint_acceptJust (t : NotedType) (ht : ∀ l ∈ t.exposed, l.HasDistinctKeys) {h : Hint}
    (hh : t.hint = .ok h) : Hint.AcceptJust [h] (TypeExpr.AcceptedBy t.exposed) := by
  cases t with
  | plain t => exact TypeExpr.acceptJust_leaves t ht hh
  | optional t =>
    rw [exposed] at ht ⊢
    obtain ⟨ht, -⟩ := List.forall_mem_append.1 ht
    rw [hint, bind_eq_ok_iff] at hh
    obtain ⟨g, hg, hh⟩ := hh
    exact TypeExpr.acceptJust_optional (hint_acceptJust t ht hg) hh
  | union ts =>
    rw [hint, bind_eq_ok_iff] at hh
    obtain ⟨hs, hg, hh⟩ := hh
    exact (hints_acceptJust ts ht hg).makeUnion hh
  | bars ts =>
    rw [hint, bind_eq_ok_iff] at hh
    obtain ⟨hs, hg, hh⟩ := hh
    exact (hints_acceptJust ts ht hg).makeBars hh
  | annotated t notes =>
    rw [hint, bind_eq_ok_iff] at hh
    obtain ⟨g, -, hh⟩ := hh
    obtain ⟨inner, all, rfl⟩ := Hint.exists_annotated hh
    -- Whatever the notes are around, nothing is left that accepts a value.
    exact Hint.AcceptJust.single_iff.2 ⟨(Hint.IsArm.annotated inner all).isSpread,
      fun v => by simp [Hint.accepts, exposed, TypeExpr.AcceptedBy]⟩

theorem hints_acceptJust (ts : List NotedType) (ht : ∀ l ∈ exposedOf ts, l.HasDistinctKeys)
    {hs : List Hint} (hh : hints ts = .ok hs) :
    Hint.AcceptJust hs (TypeExpr.AcceptedBy (exposedOf ts)) := by
  cases ts with
  | nil =>
    obtain rfl := Except.ok.inj hh
    exact TypeExpr.acceptJust_nil
  | cons t ts =>
    rw [exposedOf] at ht ⊢
    obtain ⟨ht, hts⟩ := List.forall_mem_append.1 ht
    simp only [hints, bind_eq_ok_iff] at hh
    obtain ⟨g, hg, gs, hgs, hr⟩ := hh
    obtain rfl := Except.ok.inj hr
    exact TypeExpr.acceptJust_cons (hint_acceptJust t ht hg) (hints_acceptJust ts hts hgs)

end

/-- **Notes keep all that they are around from accepting a value.** Let a type be one that can be
built both with its notes and without; dictionaries among the values of its literal types have distinct
keys, as all dictionaries do. With the notes it accepts what a leaf outside all of them accepts, and so
nothing that it does not accept without them. The two accept a value alike exactly if a leaf outside
the notes accepts the value or none of the leaves does. -/
theorem accepts_same_iff {t : NotedType} (ht : ∀ l ∈ t.bare.leaves, l.HasDistinctKeys) {h k : Hint}
    (hh : t.bare.hint = .ok h) (hk : t.hint = .ok k) (v : Value) :
    (k.accepts v = true ↔ TypeExpr.AcceptedBy t.exposed v) ∧
    (k.accepts v = true → h.accepts v = true) ∧
    (k.accepts v = h.accepts v ↔
      (TypeExpr.AcceptedBy t.bare.leaves v → TypeExpr.AcceptedBy t.exposed v)) := by
  have hexposed : ∀ l ∈ t.exposed, l.HasDistinctKeys := fun l hl => ht l (leaves_of_exposed t hl)
  obtain ⟨-, hks⟩ := Hint.AcceptJust.single_iff.1 (hint_acceptJust t hexposed hk)
  obtain ⟨-, hhs⟩ := Hint.AcceptJust.single_iff.1 (TypeExpr.acceptJust_leaves t.bare ht hh)
  have hfewer : TypeExpr.AcceptedBy t.exposed v → TypeExpr.AcceptedBy t.bare.leaves v :=
    fun ⟨l, hl, hacc⟩ => ⟨l, leaves_of_exposed t hl, hacc⟩
  refine ⟨hks v, fun hkv => (hhs v).2 (hfewer ((hks v).1 hkv)), ?_⟩
  rw [Bool.eq_iff_iff, hks, hhs]
  exact ⟨Iff.mpr, fun hmore => ⟨hfewer, hmore⟩⟩

/-- Notes around an optional type and around texts inside a union. An integer is accepted as before, on
account of the leaf for floats, but null is not. -/
theorem accepts_same_iff_nested :
    let t : NotedType := .union [
      .annotated (.optional (.plain (.named "int"))) [.other (.text "px")],
      .plain (.named "float"),
      .bars [.plain (.list (.named "str")),
        .annotated (.plain (.named "str")) [.other (.whole 1), .kind .str]]]
    ∃ h k, t.bare.hint = .ok h ∧ t.hint = .ok k ∧ (∀ l ∈ t.bare.leaves, l.HasDistinctKeys) ∧
      (k.accepts (.whole 7) = h.accepts (.whole 7) ∧ h.accepts (.whole 7) = true) ∧
      (k.accepts .null ≠ h.accepts .null ∧ ¬TypeExpr.AcceptedBy t.exposed .null) := by
  intro t
  have hleaves : t.bare.leaves = [.named "int", .named "None", .named "float",
    .list (.named "str"), .named "str"] := rfl
  have hexposed : t.exposed = [.named "float", .list (.named "str")] := rfl
  have ht : ∀ l ∈ t.bare.leaves, l.HasDistinctKeys := by
    rw [hleaves]
    simp [TypeExpr.HasDistinctKeys]
  have hh : t.bare.hint = .ok (.union true [.kind .int, .kind .null, .kind .float,
      .container .list [.kind .str], .kind .str]) := by
    simp only [t]
    cbv
  have hk : t.hint = .ok (.union true [
      .annotated (.union true [.kind .int, .kind .null]) [.other (.text "px")], .kind .float,
      .container .list [.kind .str], .annotated (.kind .str) [.other (.whole 1), .kind .str]]) := by
    simp only [t]
    cbv
  obtain ⟨-, -, hsame⟩ := accepts_same_iff ht hh hk (.whole 7)
  obtain ⟨hnull, -, -⟩ := accepts_same_iff ht hh hk .null
  have hfloat : TypeExpr.AcceptedBy t.exposed (.whole 7) :=
    ⟨.named "float", hexposed ▸ List.mem_cons_self, _, rfl, rfl⟩
  exact ⟨_, _, hh, hk, ht, ⟨hsame.2 fun _ => hfloat, rfl⟩, Bool.false_ne_true,
    fun hmore => Bool.false_ne_true (hnull.2 hmore)⟩

/-- An integer is accepted for the type of integers, but not for that type with a note. -/
theorem not_accepts_same :
    ¬∀ (t : NotedType) (h k : Hint), (∀ l ∈ t.bare.leaves, l.HasDistinctKeys) →
      t.bare.hint = .ok h → t.hint = .ok k → ∀ v, k.accepts v = h.accepts v := by
  intro hall
  let t : TypeExpr := .annotated (.named "int")
  have hk : t.noted.hint = .ok (.annotated (.kind .int) [.other (.text annotationNote)]) :=
    t.hint_noted.trans rfl
  have hkeys : ∀ l ∈ t.noted.bare.leaves, l.HasDistinctKeys := List.forall_mem_singleton.2 trivial
  have heq := hall t.noted (.kind .int) _ hkeys rfl hk (.whole 5)
  contradiction

end NotedType

end Styling
