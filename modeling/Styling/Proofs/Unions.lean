import Mathlib
import Styling.Proofs.Comparison
import Styling.Proofs.Equality
import Styling.Proofs.Sequences
import Styling.TypeExpr

/-!
# Unions as sets of their leaves

However unions and optional types are nested, and whichever of the two ways they are written in, the
hint that is built accepts a value exactly if one of the types at the leaves does
(`TypeExpr.accepts_iff_leaves`). A union leaves out the arms that equal others, so the step behind
this is that equal arms accept the same values (`Hint.IsArm.accepts_iff_of_compare`). It holds of
whatever can stand at a leaf (`TypeExpr.acceptJust_leaves`).
-/

set_option autoImplicit false

namespace Styling

/-! ## Arms -/

/-- A hint under which no value is checked. -/
def Hint.isUnchecked : Hint → Bool
  | .any | .variable _ | .form _ | .final _ | .classVariable _ | .forward _ | .ellipsis
  | .object _ _ | .other _ | .tuple _ | .list _ => true
  | _ => false

theorem Hint.accepts_of_isUnchecked {h : Hint} (hh : h.isUnchecked = true) (v : Value) :
    h.accepts v = true := by
  cases h <;> first | rfl | contradiction

theorem Hint.isUnchecked_eq_of_same {h g : Hint} (hs : h.same g = true) :
    h.isUnchecked = g.isUnchecked := by
  unfold Hint.same at hs
  -- Equal hints are of one form.
  split at hs <;> first | rfl | contradiction

theorem Hint.isUnchecked_eq_of_compare {h g : Hint} (hc : h.compare g = .ok true) :
    h.isUnchecked = g.isUnchecked := by
  unfold Hint.compare at hc
  split at hc
  all_goals first
    | rfl
    | exact Hint.isUnchecked_eq_of_same (Except.ok.inj hc)

/-- A hint that can be an arm of a union. -/
inductive Hint.IsArm : Hint → Prop where
  | unchecked {h : Hint} (hh : h.isUnchecked = true) : IsArm h
  | kind (k : Kind) : IsArm (.kind k)
  | container (k : Kind) (contents : List Hint) : IsArm (.container k contents)
  | literal {vs : List Value} (h : ∀ v ∈ vs, v.HasDistinctKeys) :
      IsArm (.literal (Hint.ofValues vs))
  | annotated (h : Hint) (notes : List Hint) : IsArm (.annotated h notes)

theorem Hint.accepts_literal {vs : List Value} {v : Value} :
    (Hint.literal (Hint.ofValues vs)).accepts v = true ↔ ∃ w ∈ vs, w.same v = true := by
  induction vs with
  | nil => simp [Hint.accepts, Hint.ofValues]
  | cons w vs ih =>
    simp only [Hint.accepts, Hint.ofValues, List.any_cons, Hint.toValue?_ofValue, Option.any_some,
      Bool.or_eq_true, List.mem_cons, exists_eq_or_imp] at ih ⊢
    rw [ih]

theorem sameMembers_left {vs ws : List Value} (h : sameMembers vs ws = true) :
    ∀ v ∈ vs, ∃ w ∈ ws, v.same w = true := by
  intro v hv
  rw [sameMembers, Bool.and_eq_true, List.all_eq_true] at h
  obtain ⟨w, hw, hvw⟩ := List.any_eq_true.1 (h.1 v hv)
  rw [Value.identical, Bool.and_eq_true] at hvw
  exact ⟨w, hw, hvw.2⟩

theorem sameMembers_symm {vs ws : List Value} (h : sameMembers vs ws = true) :
    sameMembers ws vs = true := by
  rwa [sameMembers, Bool.and_comm] at h

/-- A literal type accepts what one does that has the same members. -/
theorem Hint.accepts_literal_of_sameMembers {vs ws : List Value}
    (hkeys : ∀ v ∈ vs, v.HasDistinctKeys) (hs : sameMembers vs ws = true) {v : Value}
    (hv : (Hint.literal (Hint.ofValues vs)).accepts v = true) :
    (Hint.literal (Hint.ofValues ws)).accepts v = true := by
  obtain ⟨m, hm, hmv⟩ := Hint.accepts_literal.1 hv
  obtain ⟨w, hw, hmw⟩ := sameMembers_left hs m hm
  exact Hint.accepts_literal.2 ⟨w, hw, Value.same_trans ((hkeys m hm).same_symm hmw) hmv⟩

/-- **Equal arms accept the same values.** -/
theorem Hint.IsArm.accepts_iff_of_compare {h g : Hint} (ha : h.IsArm) (hg : g.IsArm)
    (hc : h.compare g = .ok true) {v : Value} : h.accepts v = true ↔ g.accepts v = true := by
  have hform := Hint.isUnchecked_eq_of_compare hc
  cases ha with
  | unchecked hh =>
    exact iff_of_true (Hint.accepts_of_isUnchecked hh v)
      (Hint.accepts_of_isUnchecked (hform ▸ hh) v)
  | kind j =>
    cases hg with
    | unchecked hu => exact absurd (hform.trans hu) Bool.false_ne_true
    | kind k =>
      obtain rfl : j = k := by simpa [Hint.compare, Hint.same] using hc
      rfl
    | _ => simp [Hint.compare, Hint.same] at hc
  | container j contents =>
    cases hg with
    | unchecked hu => exact absurd (hform.trans hu) Bool.false_ne_true
    | container k others =>
      rw [Hint.compare] at hc
      split at hc
      · next hk => rw [hk, Hint.accepts, Hint.accepts]
      · cases hc
    | _ => simp [Hint.compare, Hint.same] at hc
  | annotated inner notes =>
    cases hg with
    | unchecked hu => exact absurd (hform.trans hu) Bool.false_ne_true
    | annotated => rfl
    | _ => simp [Hint.compare, Hint.same] at hc
  | @literal vs hvs =>
    cases hg with
    | unchecked hu => exact absurd (hform.trans hu) Bool.false_ne_true
    | @literal ws hws =>
      rw [Hint.compare] at hc
      split at hc
      · simp only [Hint.same, Hint.toValues?_ofValues, Except.ok.injEq] at hc
        exact ⟨Hint.accepts_literal_of_sameMembers hvs hc,
          Hint.accepts_literal_of_sameMembers hws (sameMembers_symm hc)⟩
      · cases hc
    | _ => simp [Hint.compare, Hint.same] at hc

/-! ## Leaving out what equals something else -/

theorem distinctBy_concat {α : Type} (same : α → α → Bool) (xs : List α) (x : α) :
    distinctBy same (xs ++ [x]) =
      if (distinctBy same xs).any (same x) then distinctBy same xs else distinctBy same xs ++ [x] := by
  rw [distinctBy, List.foldl_append]
  rfl

theorem mem_of_mem_distinctBy {α : Type} {same : α → α → Bool} {xs : List α} {k : α}
    (h : k ∈ distinctBy same xs) : k ∈ xs := by
  induction xs using List.reverseRecOn with
  | nil => exact h
  | append_singleton xs x ih =>
    rw [distinctBy_concat] at h
    split at h
    · exact List.mem_append_left _ (ih h)
    · exact (List.mem_append.1 h).elim (fun hk => List.mem_append_left _ (ih hk))
        (List.mem_append_right _)

theorem ofValues_eq_map (vs : List Value) : Hint.ofValues vs = vs.map Hint.ofValue := by
  induction vs with
  | nil => rfl
  | cons v vs ih => rw [Hint.ofValues, ih, List.map_cons]

/-- A literal type has the values that it was given, less the repeated ones. -/
theorem isArm_literalOf {vs : List Value} (h : ∀ v ∈ vs, v.HasDistinctKeys) :
    (Hint.literalOf (Hint.ofValues vs)).IsArm := by
  have hsome : ∀ ms : List Hint, (∀ m ∈ ms, m ∈ Hint.ofValues vs) →
      ∃ ws, ms = Hint.ofValues ws ∧ ∀ w ∈ ws, w.HasDistinctKeys := by
    intro ms hms
    induction ms with
    | nil => exact ⟨[], rfl, by simp⟩
    | cons m ms ih =>
      obtain ⟨hm, hrest⟩ := List.forall_mem_cons.1 hms
      rw [ofValues_eq_map] at hm
      obtain ⟨v, hv, rfl⟩ := List.mem_map.1 hm
      obtain ⟨ws, rfl, hws⟩ := ih hrest
      exact ⟨v :: ws, rfl, List.forall_mem_cons.2 ⟨h v hv, hws⟩⟩
  obtain ⟨ws, hws, hkeys⟩ := hsome
    (if (Hint.firstUnhashable? (Hint.ofValues vs)).isSome then Hint.ofValues vs
      else distinctBy Hint.identical (Hint.ofValues vs)) (by
        intro m hm
        split at hm
        · exact hm
        · exact mem_of_mem_distinctBy hm)
  rw [Hint.literalOf, hws]
  exact .literal hkeys

/-! ## Building unions -/

/-- The arms that the hint brings into a union are arms. -/
def Hint.IsSpread (h : Hint) : Prop := ∀ a ∈ h.arms, a.IsArm

theorem Hint.accepts_null (v : Value) : Hint.null.accepts v = (Hint.kind .null).accepts v := by
  rw [Bool.eq_iff_iff]
  simp [Hint.accepts, Kind.accepts, Kind.admits_iff]

/-- A hint accepts what one of its arms does. -/
theorem Hint.accepts_iff_arms {h : Hint} {v : Value} :
    h.accepts v = true ↔ ∃ a ∈ h.arms, a.accepts v = true := by
  cases h with
  | union formed arms => exact Hint.accepts_union
  | null => simp [Hint.arms, Hint.accepts_null]
  | _ => simp [Hint.arms]

theorem Hint.IsArm.arms_eq {h : Hint} (ha : h.IsArm) : h.arms = [h] := by
  cases ha with
  | unchecked hh => cases h <;> first | rfl | contradiction
  | _ => rfl

theorem Hint.IsArm.isSpread {h : Hint} (ha : h.IsArm) : h.IsSpread := by
  rw [IsSpread, ha.arms_eq]
  exact List.forall_mem_singleton.2 ha

theorem Hint.isSpread_null : Hint.null.IsSpread := List.forall_mem_singleton.2 (.kind .null)

/-- As an argument a hint stays what it is, unless it is null or a text. -/
theorem Hint.asArgument_cases {h a : Hint} {rule : String} {special : Bool}
    (ha : h.asArgument rule special = .ok a) :
    a = h ∨ (h = .null ∧ a = .kind .null) ∨
      ∃ name, h = .other (.text name) ∧ a = .forward name := by
  unfold asArgument at ha
  split at ha
  · cases ha
    exact .inr (.inl ⟨rfl, rfl⟩)
  · split at ha <;> cases ha
    exact .inr (.inr ⟨_, rfl, rfl⟩)
  · split at ha <;> cases ha
    exact .inl rfl
  · split at ha <;> cases ha
    exact .inl rfl
  · split at ha <;> cases ha
    exact .inl rfl
  · split at ha <;> cases ha
    exact .inl rfl
  · cases ha
  · cases ha
    exact .inl rfl

/-- Together the hints accept just the values with a property. -/
structure Hint.AcceptJust (hs : List Hint) (P : Value → Prop) : Prop where
  spread : ∀ h ∈ hs, h.IsSpread
  accepts : ∀ v, (∃ h ∈ hs, h.accepts v = true) ↔ P v

namespace Hint.AcceptJust

variable {h a b r : Hint} {hs as : List Hint} {P Q : Value → Prop}

theorem single_iff : AcceptJust [h] P ↔ h.IsSpread ∧ ∀ v, h.accepts v = true ↔ P v := by
  constructor
  · exact fun hp => ⟨hp.spread h List.mem_cons_self, by simpa using hp.accepts⟩
  · exact fun ⟨hs, hv⟩ => ⟨List.forall_mem_singleton.2 hs, by simpa using hv⟩

theorem self (h : ∀ g ∈ hs, g.IsSpread) : AcceptJust hs fun v => ∃ g ∈ hs, g.accepts v = true :=
  ⟨h, fun _ => Iff.rfl⟩

theorem cons (hp : AcceptJust [h] P) (hq : AcceptJust hs Q) :
    AcceptJust (h :: hs) fun v => P v ∨ Q v :=
  ⟨List.forall_mem_cons.2 ⟨hp.spread h List.mem_cons_self, hq.spread⟩,
    fun v => by rw [← hp.accepts, ← hq.accepts]; simp⟩

theorem congr (hp : AcceptJust hs P) (h : ∀ v, P v ↔ Q v) : AcceptJust hs Q :=
  ⟨hp.spread, fun v => (hp.accepts v).trans (h v)⟩

/-- Arms without repetitions accept what they accept together. -/
theorem ofArms (hp : AcceptJust hs P) (ha : ∀ a ∈ hs, a.IsArm) (formed : Bool) :
    AcceptJust [Hint.ofArms formed hs] P := by
  unfold Hint.ofArms
  split
  · exact hp
  · exact single_iff.2 ⟨ha, fun v => Hint.accepts_union.trans (hp.accepts v)⟩

/-- A union of hints accepts what they accept together: for an arm that is left out, an equal one is
kept. -/
theorem unionOf (hp : AcceptJust hs P) {formed : Bool} (hr : Hint.unionOf formed hs = .ok r) :
    AcceptJust [r] P := by
  obtain ⟨kept, hkept, rfl⟩ := map_eq_ok_iff.1 hr
  obtain ⟨hmem, hcovers⟩ := Hint.keptOf_distinct hkept
  have harms : ∀ a ∈ hs.flatMap Hint.arms, a.IsArm := by
    intro a ha
    obtain ⟨g, hg, hag⟩ := List.mem_flatMap.1 ha
    exact hp.spread g hg a hag
  have hkeptArms : ∀ k ∈ kept, k.IsArm := fun k hk => harms k (hmem k hk)
  have hsame : AcceptJust kept P := by
    refine ⟨fun k hk => (hkeptArms k hk).isSpread, fun v => ?_⟩
    rw [← hp.accepts]
    constructor
    · rintro ⟨a, ha, hav⟩
      obtain ⟨g, hg, hag⟩ := List.mem_flatMap.1 (hmem a ha)
      exact ⟨g, hg, Hint.accepts_iff_arms.2 ⟨a, hag, hav⟩⟩
    · rintro ⟨g, hg, hgv⟩
      obtain ⟨a, hag, hav⟩ := Hint.accepts_iff_arms.1 hgv
      have ha : a ∈ hs.flatMap Hint.arms := List.mem_flatMap.2 ⟨g, hg, hag⟩
      rcases hcovers a ha with hin | ⟨k, hk, hka | hak⟩
      · exact ⟨a, hin, hav⟩
      · exact ⟨k, hk, ((hkeptArms k hk).accepts_iff_of_compare (harms a ha) hka).2 hav⟩
      · exact ⟨k, hk, ((harms a ha).accepts_iff_of_compare (hkeptArms k hk) hak).1 hav⟩
  exact hsame.ofArms hkeptArms formed

/-- As an argument a hint accepts what it does by itself. -/
theorem asArgument (hp : AcceptJust [h] P) {rule : String} {special : Bool}
    (ha : h.asArgument rule special = .ok a) : AcceptJust [a] P := by
  obtain rfl | ⟨rfl, rfl⟩ | ⟨name, rfl, rfl⟩ := Hint.asArgument_cases ha
  · exact hp
  · refine single_iff.2 ⟨(Hint.IsArm.kind .null).isSpread, fun v => ?_⟩
    rw [← (single_iff.1 hp).2, Hint.accepts_iff_arms, Hint.accepts_iff_arms]
    rfl
  · exact single_iff.2 ⟨(Hint.IsArm.unchecked rfl).isSpread, (single_iff.1 hp).2⟩

theorem asArguments (hp : AcceptJust hs P) {rule : String}
    (ha : Hint.asArguments rule hs = .ok as) : AcceptJust as P := by
  suffices h : AcceptJust as fun v => ∃ g ∈ hs, g.accepts v = true from h.congr hp.accepts
  have hspread := hp.spread
  clear hp
  induction hs generalizing as with
  | nil =>
    obtain rfl := Except.ok.inj ha
    exact self hspread
  | cons h hs ih =>
    obtain ⟨hh, hhs⟩ := List.forall_mem_cons.1 hspread
    rw [Hint.asArguments] at ha
    split at ha
    · contradiction
    · next b harg =>
      obtain ⟨bs, hrest, rfl⟩ := map_eq_ok_iff.1 ha
      have hone : AcceptJust [b] fun v => h.accepts v = true :=
        (AcceptJust.asArgument (self (List.forall_mem_singleton.2 hh)) harg).congr (by simp)
      exact (hone.cons (ih hrest hhs)).congr (by simp)

theorem makeUnion (hp : AcceptJust hs P) (hr : Hint.makeUnion hs = .ok r) : AcceptJust [r] P := by
  rw [Hint.makeUnion] at hr
  split at hr
  · contradiction
  obtain ⟨as, ha, hr⟩ := bind_eq_ok_iff.1 hr
  exact (hp.asArguments ha).unionOf hr

theorem makeOptional (hp : AcceptJust [h] P) (hr : h.makeOptional = .ok r) :
    AcceptJust [r] fun v => P v ∨ Hint.null.accepts v = true := by
  obtain ⟨a, ha, hr⟩ := bind_eq_ok_iff.1 hr
  have hnull : AcceptJust [Hint.null] fun v => Hint.null.accepts v = true :=
    single_iff.2 ⟨Hint.isSpread_null, fun _ => Iff.rfl⟩
  have hkind : Hint.null.asArgument "" false = .ok (.kind .null) := rfl
  exact ((hp.asArgument ha).cons (hnull.asArgument hkind)).unionOf hr

/-- Either of two hints. Both ways of building it make a union of them, or of two values another
one, under which nothing is checked. -/
theorem makeEither (hp : AcceptJust [a] P) (hq : AcceptJust [b] Q)
    (hr : a.makeEither b = .ok r) : AcceptJust [r] fun v => P v ∨ Q v := by
  have hpair := hp.cons hq
  unfold Hint.makeEither at hr
  split at hr
  · exact hpair.makeUnion hr
  split at hr
  · contradiction
  · split at hr
    · obtain rfl := Except.ok.inj hr
      obtain ⟨-, haccepts⟩ := single_iff.1 hp
      exact single_iff.2 ⟨(Hint.IsArm.unchecked rfl).isSpread,
        fun v => iff_of_true rfl (.inl ((haccepts v).1 rfl))⟩
    · contradiction
  · split at hr
    · exact hpair.unionOf hr
    · contradiction

theorem makeBars (hp : AcceptJust hs P) (hr : Hint.makeBars hs = .ok r) : AcceptJust [r] P := by
  cases hs with
  | nil =>
    obtain rfl := Except.ok.inj hr
    refine single_iff.2 ⟨fun a ha => absurd ha List.not_mem_nil, fun v => ?_⟩
    rw [← hp.accepts, Hint.accepts_union]
  | cons h hs =>
    obtain ⟨hh, hhs⟩ := List.forall_mem_cons.1 hp.spread
    -- From the left, the union of those before takes in one hint after the other.
    suffices hfold : ∀ (h : Hint) (Q : Value → Prop), AcceptJust [h] Q →
        hs.foldlM Hint.makeEither h = .ok r →
        AcceptJust [r] fun v => Q v ∨ ∃ g ∈ hs, g.accepts v = true by
      refine (hfold h _ (self (List.forall_mem_singleton.2 hh)) hr).congr fun v => ?_
      rw [← hp.accepts]
      simp
    clear hp hr
    induction hs with
    | nil =>
      intro h Q hq hr
      obtain rfl := Except.ok.inj hr
      exact hq.congr (by simp)
    | cons g hs ih =>
      intro h Q hq hr
      obtain ⟨hg, hhs⟩ := List.forall_mem_cons.1 hhs
      rw [List.foldlM_cons, bind_eq_ok_iff] at hr
      obtain ⟨k, he, hr⟩ := hr
      have hk := hq.makeEither (self (List.forall_mem_singleton.2 hg)) he
      exact (ih hhs k _ hk hr).congr fun v => by simp [or_assoc]

end Hint.AcceptJust

/-! ## Leaves -/

mutual

/-- The types at the leaves of nested unions and optional types. -/
def TypeExpr.leaves : TypeExpr → List TypeExpr
  | .optional t => t.leaves ++ [.named "None"]
  | .union ts => TypeExpr.leavesOf ts
  | .bars ts => TypeExpr.leavesOf ts
  | t => [t]

def TypeExpr.leavesOf : List TypeExpr → List TypeExpr
  | [] => []
  | t :: ts => t.leaves ++ TypeExpr.leavesOf ts

end

/-- The names that can stand at the leaves. The last one is that of a type variable. -/
def leafNames : List String :=
  ["None", "Any", "object", "int", "float", "str", "bool", "list", "dict", "tuple", "Color", "Insets",
   "Dimension", "Font", "T"]

/-- A type that can stand at a leaf. -/
inductive TypeExpr.IsLeaf : TypeExpr → Prop where
  | named {name : String} (h : name ∈ leafNames) : IsLeaf (.named name)
  | list (t : TypeExpr) : IsLeaf (.list t)
  | dict (key value : TypeExpr) : IsLeaf (.dict key value)
  | tuple (ts : List TypeExpr) : IsLeaf (.tuple ts)
  | literal {values : List Value} (h : ∀ v ∈ values, v.HasDistinctKeys) : IsLeaf (.literal values)

/-- One of the types accepts the value. -/
def TypeExpr.AcceptedBy (ls : List TypeExpr) (v : Value) : Prop :=
  ∃ l ∈ ls, ∃ g, l.hint = .ok g ∧ g.accepts v = true

theorem TypeExpr.acceptedBy_append {ls ms : List TypeExpr} {v : Value} :
    AcceptedBy (ls ++ ms) v ↔ AcceptedBy ls v ∨ AcceptedBy ms v := by
  simp only [AcceptedBy, List.mem_append, or_and_right, exists_or]

theorem TypeExpr.acceptedBy_singleton {t : TypeExpr} {h : Hint} (hh : t.hint = .ok h) {v : Value} :
    AcceptedBy [t] v ↔ h.accepts v = true := by
  simp [AcceptedBy, hh]

/-- No dictionary among the values of a literal type has two equal keys. -/
def TypeExpr.HasDistinctKeys : TypeExpr → Prop
  | .literal values => ∀ v ∈ values, v.HasDistinctKeys
  | _ => True

theorem TypeExpr.IsLeaf.hasDistinctKeys {t : TypeExpr} (ht : t.IsLeaf) : t.HasDistinctKeys := by
  cases ht with
  | literal hv => exact hv
  | _ => trivial

/-- The type is built as a union of others. -/
def TypeExpr.isUnion : TypeExpr → Bool
  | .optional _ | .union _ | .bars _ => true
  | _ => false

theorem Hint.isSpread_named? {name : String} {h : Hint} (hh : Hint.named? name = some h) :
    h.IsSpread := by
  have hshape : h = .null ∨ (∃ k, h = .kind k) ∨ h.isUnchecked = true := by
    unfold named? at hh
    split at hh
    all_goals first
      | (cases hh; simp [isUnchecked])
      | skip
    -- The other names are looked up in tables.
    split at hh
    · cases hh
      simp
    split at hh
    · cases hh
      simp [isUnchecked]
    · obtain ⟨shown, -, rfl⟩ := Option.map_eq_some_iff.1 hh
      simp
  obtain rfl | ⟨k, rfl⟩ | hu := hshape
  · exact isSpread_null
  · exact (IsArm.kind k).isSpread
  · exact (IsArm.unchecked hu).isSpread

/-- With notes a hint is an annotated one. -/
theorem Hint.exists_annotated {h r : Hint} {notes : List Hint} (hr : h.makeAnnotated notes = .ok r) :
    ∃ inner all, r = .annotated inner all := by
  rw [makeAnnotated] at hr
  split at hr
  · contradiction
  · exact ⟨_, _, (Except.ok.inj hr).symm⟩
  split at hr
  · contradiction
  · exact ⟨_, _, (Except.ok.inj hr).symm⟩

theorem TypeExpr.isSpread_hint {t : TypeExpr} (hu : t.isUnion = false) (ht : t.HasDistinctKeys)
    {h : Hint} (hh : t.hint = .ok h) : h.IsSpread := by
  cases t with
  | named name =>
    rw [TypeExpr.hint] at hh
    split at hh
    · obtain rfl := Except.ok.inj hh
      exact (Hint.IsArm.unchecked rfl).isSpread
    · obtain rfl := Except.ok.inj hh
      cases hname : Hint.named? name with
      | none => exact (Hint.IsArm.unchecked rfl).isSpread
      | some g => exact Hint.isSpread_named? hname
  | literal values =>
    obtain rfl := Except.ok.inj hh
    exact (isArm_literalOf ht).isSpread
  | list t =>
    rw [TypeExpr.hint] at hh
    obtain ⟨c, -, rfl⟩ := map_eq_ok_iff.1 hh
    exact (Hint.IsArm.container .list [c]).isSpread
  | dict key value =>
    simp only [TypeExpr.hint, bind_eq_ok_iff] at hh
    obtain ⟨k, -, v, -, hr⟩ := hh
    obtain rfl := Except.ok.inj hr
    exact (Hint.IsArm.container .dict [k, v]).isSpread
  | tuple ts =>
    rw [TypeExpr.hint] at hh
    obtain ⟨cs, -, rfl⟩ := map_eq_ok_iff.1 hh
    exact (Hint.IsArm.container .tuple cs).isSpread
  | final t =>
    rw [TypeExpr.hint, bind_eq_ok_iff] at hh
    obtain ⟨g, -, hr⟩ := hh
    obtain ⟨a, -, rfl⟩ := map_eq_ok_iff.1 hr
    exact (Hint.IsArm.unchecked rfl).isSpread
  | classVariable t =>
    rw [TypeExpr.hint, bind_eq_ok_iff] at hh
    obtain ⟨g, -, hr⟩ := hh
    obtain ⟨a, -, rfl⟩ := map_eq_ok_iff.1 hr
    exact (Hint.IsArm.unchecked rfl).isSpread
  | annotated t =>
    rw [TypeExpr.hint, bind_eq_ok_iff] at hh
    obtain ⟨g, -, hr⟩ := hh
    obtain ⟨inner, all, rfl⟩ := Hint.exists_annotated hr
    exact (Hint.IsArm.annotated inner all).isSpread
  | forward | source =>
    obtain rfl := Except.ok.inj hh
    exact (Hint.IsArm.unchecked rfl).isSpread
  | optional | union | bars => contradiction

theorem TypeExpr.acceptJust_leaf {t : TypeExpr} {h : Hint} (hs : h.IsSpread)
    (hh : t.hint = .ok h) : Hint.AcceptJust [h] (AcceptedBy [t]) :=
  Hint.AcceptJust.single_iff.2 ⟨hs, fun _ => (acceptedBy_singleton hh).symm⟩

theorem TypeExpr.acceptJust_nil : Hint.AcceptJust [] (AcceptedBy []) :=
  ⟨by simp, by simp [AcceptedBy]⟩

theorem TypeExpr.acceptJust_cons {ls ms : List TypeExpr} {h : Hint} {hs : List Hint}
    (hl : Hint.AcceptJust [h] (AcceptedBy ls)) (hm : Hint.AcceptJust hs (AcceptedBy ms)) :
    Hint.AcceptJust (h :: hs) (AcceptedBy (ls ++ ms)) :=
  (hl.cons hm).congr fun _ => acceptedBy_append.symm

theorem TypeExpr.acceptJust_optional {ls : List TypeExpr} {h r : Hint}
    (hl : Hint.AcceptJust [h] (AcceptedBy ls)) (hr : h.makeOptional = .ok r) :
    Hint.AcceptJust [r] (AcceptedBy (ls ++ [.named "None"])) := by
  refine (hl.makeOptional hr).congr fun v => ?_
  rw [acceptedBy_append, acceptedBy_singleton (t := .named "None") rfl]
  rfl

mutual

/-- The step, one case for each form of type: what is built accepts what the leaves do. -/
theorem TypeExpr.acceptJust_leaves (t : TypeExpr) (ht : ∀ l ∈ t.leaves, l.HasDistinctKeys)
    {h : Hint} (hh : t.hint = .ok h) : Hint.AcceptJust [h] (TypeExpr.AcceptedBy t.leaves) := by
  cases t with
  | optional t =>
    rw [TypeExpr.leaves] at ht ⊢
    obtain ⟨ht, -⟩ := List.forall_mem_append.1 ht
    rw [TypeExpr.hint, bind_eq_ok_iff] at hh
    obtain ⟨g, hg, hh⟩ := hh
    exact TypeExpr.acceptJust_optional (TypeExpr.acceptJust_leaves t ht hg) hh
  | union ts =>
    rw [TypeExpr.leaves] at ht ⊢
    rw [TypeExpr.hint, bind_eq_ok_iff] at hh
    obtain ⟨hs, hg, hh⟩ := hh
    exact (TypeExpr.acceptJust_leavesOf ts ht hg).makeUnion hh
  | bars ts =>
    rw [TypeExpr.leaves] at ht ⊢
    rw [TypeExpr.hint, bind_eq_ok_iff] at hh
    obtain ⟨hs, hg, hh⟩ := hh
    exact (TypeExpr.acceptJust_leavesOf ts ht hg).makeBars hh
  | _ =>
    exact TypeExpr.acceptJust_leaf (TypeExpr.isSpread_hint rfl (ht _ List.mem_cons_self) hh) hh

theorem TypeExpr.acceptJust_leavesOf (ts : List TypeExpr)
    (ht : ∀ l ∈ TypeExpr.leavesOf ts, l.HasDistinctKeys) {hs : List Hint}
    (hh : TypeExpr.hints ts = .ok hs) :
    Hint.AcceptJust hs (TypeExpr.AcceptedBy (TypeExpr.leavesOf ts)) := by
  cases ts with
  | nil =>
    obtain rfl := Except.ok.inj hh
    exact TypeExpr.acceptJust_nil
  | cons t ts =>
    rw [TypeExpr.leavesOf] at ht ⊢
    obtain ⟨ht, hts⟩ := List.forall_mem_append.1 ht
    simp only [TypeExpr.hints, bind_eq_ok_iff] at hh
    obtain ⟨g, hg, gs, hgs, hr⟩ := hh
    obtain rfl := Except.ok.inj hr
    exact TypeExpr.acceptJust_cons (TypeExpr.acceptJust_leaves t ht hg)
      (TypeExpr.acceptJust_leavesOf ts hts hgs)

end

theorem TypeExpr.hint_acceptJust (t : TypeExpr) (ht : ∀ l ∈ t.leaves, l.IsLeaf) {h : Hint}
    (hh : t.hint = .ok h) : Hint.AcceptJust [h] (TypeExpr.AcceptedBy t.leaves) :=
  TypeExpr.acceptJust_leaves t (fun l hl => (ht l hl).hasDistinctKeys) hh

theorem TypeExpr.acceptedBy_congr {ls ms : List TypeExpr} (h : ∀ l, l ∈ ls ↔ l ∈ ms) {v : Value} :
    AcceptedBy ls v ↔ AcceptedBy ms v := by
  simp only [AcceptedBy, h]

/-- **A type is the set of its leaves.** Let a type be built by any nesting of unions, bars and
optional types over leaves, so that it can be built. It accepts a value exactly if one of the leaves
does. So every type with the same leaves, however they are grouped, ordered and repeated, accepts
the same values if it can be built. With a leaf for floats all integers are accepted, but a truth
value only on account of another leaf. -/
theorem TypeExpr.accepts_iff_leaves {t : TypeExpr} (ht : ∀ l ∈ t.leaves, l.IsLeaf) {h : Hint}
    (hh : t.hint = .ok h) :
    (∀ v, h.accepts v = true ↔ ∃ l ∈ t.leaves, ∃ g, l.hint = .ok g ∧ g.accepts v = true) ∧
    (∀ (u : TypeExpr) (k : Hint), (∀ l, l ∈ u.leaves ↔ l ∈ t.leaves) → u.hint = .ok k →
      ∀ v, k.accepts v = h.accepts v) ∧
    (.named "float" ∈ t.leaves → ∀ n, h.accepts (.whole n) = true) ∧
    ∀ b, h.accepts (.flag b) = true → ∃ l ∈ t.leaves, l ≠ .named "float" ∧
      ∃ g, l.hint = .ok g ∧ g.accepts (.flag b) = true := by
  obtain ⟨-, haccepts⟩ := Hint.AcceptJust.single_iff.1 (TypeExpr.hint_acceptJust t ht hh)
  refine ⟨haccepts, fun u k hleaves hk v => ?_, fun hfloat n => ?_, fun b hb => ?_⟩
  · have hu : ∀ l ∈ u.leaves, l.IsLeaf := fun l hl => ht l ((hleaves l).1 hl)
    obtain ⟨-, hks⟩ := Hint.AcceptJust.single_iff.1 (TypeExpr.hint_acceptJust u hu hk)
    rw [Bool.eq_iff_iff, hks, haccepts, TypeExpr.acceptedBy_congr hleaves]
  · exact (haccepts _).2 ⟨_, hfloat, _, rfl, rfl⟩
  · obtain ⟨l, hl, g, hg, hgb⟩ := (haccepts _).1 hb
    refine ⟨l, hl, ?_, g, hg, hgb⟩
    -- A truth value is an integer by its class, but the check asks for its own kind.
    rintro rfl
    obtain rfl := Except.ok.inj hg
    contradiction

/-- Unions in unions, with repeated arms and a dictionary among the values of a literal type. -/
theorem TypeExpr.accepts_iff_leaves_nested :
    let choice : TypeExpr := .literal [.whole 1, .text "on",
      .ofEntries [(.text "a", .whole 1), (.flag true, .null), (.whole 1, .text "b")]]
    let t : TypeExpr := .optional (.union [.bars [.named "float", .list (.named "int")], choice,
      .union [.named "float", .named "float"]])
    let u : TypeExpr := .union [.optional (.named "float"), choice, .list (.named "int")]
    ∃ h k, t.hint = .ok h ∧ u.hint = .ok k ∧ (∀ l ∈ t.leaves, l.IsLeaf) ∧
      (∀ l, l ∈ u.leaves ↔ l ∈ t.leaves) ∧ (∀ v, k.accepts v = h.accepts v) ∧
      h.accepts (.whole 7) = true ∧ h.accepts (.flag false) = false := by
  intro choice t u
  have hchoice : choice.IsLeaf := by
    refine .literal fun v hv => ?_
    simp only [List.mem_cons, List.not_mem_nil, or_false] at hv
    rcases hv with rfl | rfl | rfl
    · exact .number rfl
    · exact .plain rfl
    · refine Value.hasDistinctKeys_ofEntries fun e he => ?_
      simp only [List.mem_cons, List.not_mem_nil, or_false] at he
      rcases he with rfl | rfl | rfl
      · exact ⟨.plain rfl, .number rfl⟩
      · exact ⟨.number rfl, .plain rfl⟩
      · exact ⟨.number rfl, .plain rfl⟩
  have htl : t.leaves = [.named "float", .list (.named "int"), choice, .named "float",
    .named "float", .named "None"] := rfl
  have hul : u.leaves = [.named "float", .named "None", choice, .list (.named "int")] := rfl
  have ht : ∀ l ∈ t.leaves, l.IsLeaf := by
    rw [htl]
    intro l hl
    simp only [List.mem_cons, List.not_mem_nil, or_false] at hl
    rcases hl with rfl | rfl | rfl | rfl | rfl | rfl
    · exact .named (by decide)
    · exact .list _
    · exact hchoice
    all_goals exact .named (by decide)
  have hsame : ∀ l, l ∈ u.leaves ↔ l ∈ t.leaves := by
    intro l
    rw [hul, htl]
    simp only [List.mem_cons, List.not_mem_nil, or_false]
    tauto
  let listed : Hint := .literal (Hint.ofValues
    [.whole 1, .text "on", .dict [(.text "a", .whole 1), (.flag true, .text "b")]])
  have hh : t.hint = .ok (.union true
      [.kind .float, .container .list [.kind .int], listed, .kind .null]) := by
    simp only [t, choice, listed]
    cbv
  have hk : u.hint = .ok (.union true
      [.kind .float, .kind .null, listed, .container .list [.kind .int]]) := by
    simp only [u, choice, listed]
    cbv
  obtain ⟨-, hregroup, hints, -⟩ := TypeExpr.accepts_iff_leaves ht hh
  have hfloat : TypeExpr.named "float" ∈ t.leaves := htl ▸ List.mem_cons_self
  exact ⟨_, _, hh, hk, ht, hsame, hregroup u _ hsame hk, hints hfloat 7, rfl⟩

end Styling
