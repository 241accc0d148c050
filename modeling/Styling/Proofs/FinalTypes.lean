import Styling.Proofs.SourceReading
import Styling.Proofs.Unions
import Styling.Annotation

/-!
# Where final types come from

Nothing that is done with types makes a final type out of others (`Hint.isFree_subscript` and its
like). So an expression means one only if it mentions the form of final types, or a name that means
it (`SourceExpr.isFree_hint`).
-/

set_option autoImplicit false

namespace Styling

/-! ## Free hints -/

mutual

/-- Neither the hint itself nor what can be taken out of it is a final type or their form. -/
def Hint.isFree : Hint → Bool
  | .form name => name ≠ "Final"
  | .final _ => false
  | .union _ arms => Hint.allFree arms
  | .tuple items => Hint.allFree items
  | .list items => Hint.allFree items
  | _ => true

def Hint.allFree : List Hint → Bool
  | [] => true
  | h :: hs => h.isFree && Hint.allFree hs

end

theorem Hint.allFree_iff {hs : List Hint} :
    Hint.allFree hs = true ↔ ∀ h ∈ hs, h.isFree = true := by
  induction hs with
  | nil => simp [Hint.allFree]
  | cons h hs ih => simp [Hint.allFree, ih]

mutual

theorem Hint.isFree_ofValue (v : Value) : (Hint.ofValue v).isFree = true := by
  cases v with
  | tuple items => simp [Hint.ofValue, Hint.isFree, Hint.allFree_ofValues items]
  | list items => simp [Hint.ofValue, Hint.isFree, Hint.allFree_ofValues items]
  | _ => rfl

theorem Hint.allFree_ofValues (vs : List Value) : Hint.allFree (Hint.ofValues vs) = true := by
  cases vs with
  | nil => rfl
  | cons v vs =>
    simp [Hint.ofValues, Hint.allFree, Hint.isFree_ofValue v, Hint.allFree_ofValues vs]

end

/-! ## Unions -/

theorem Hint.isFree_of_mem_arms {h g : Hint} (hh : h.isFree = true) (hg : g ∈ h.arms) :
    g.isFree = true := by
  cases h with
  | union formed arms => exact Hint.allFree_iff.1 hh g hg
  | null =>
    obtain rfl := List.mem_singleton.1 hg
    rfl
  | _ =>
    obtain rfl := List.mem_singleton.1 hg
    exact hh

theorem Hint.isFree_unionOf {hs : List Hint} {formed : Bool} {r : Hint}
    (h : ∀ g ∈ hs, g.isFree = true) (hr : Hint.unionOf formed hs = .ok r) : r.isFree = true := by
  obtain ⟨kept, hkept, rfl⟩ := map_eq_ok_iff.1 hr
  have hfree : ∀ k ∈ kept, k.isFree = true := by
    intro k hk
    obtain ⟨a, ha, hka⟩ := List.mem_flatMap.1 ((keptOf_distinct hkept).mem k hk)
    exact isFree_of_mem_arms (h a ha) hka
  unfold ofArms
  split
  · next g => exact hfree g (List.mem_singleton_self g)
  · exact Hint.allFree_iff.2 hfree

theorem Hint.isFree_asArgument {h a : Hint} {rule : String} {special : Bool}
    (hh : h.isFree = true) (ha : h.asArgument rule special = .ok a) : a.isFree = true := by
  obtain rfl | ⟨-, rfl⟩ | ⟨name, -, rfl⟩ := Hint.asArgument_cases ha
  · exact hh
  · rfl
  · rfl

theorem Hint.isFree_asArguments {hs as : List Hint} {rule : String}
    (hh : ∀ h ∈ hs, h.isFree = true) (ha : Hint.asArguments rule hs = .ok as) :
    ∀ a ∈ as, a.isFree = true := by
  induction hs generalizing as with
  | nil =>
    cases ha
    simp
  | cons h hs ih =>
    obtain ⟨hfirst, hrest⟩ := List.forall_mem_cons.1 hh
    rw [Hint.asArguments] at ha
    split at ha
    · cases ha
    · next a hx =>
      obtain ⟨as', hxs, rfl⟩ := map_eq_ok_iff.1 ha
      exact List.forall_mem_cons.2 ⟨isFree_asArgument hfirst hx, ih hrest hxs⟩

theorem Hint.isFree_makeUnion {hs : List Hint} {r : Hint} (hh : ∀ h ∈ hs, h.isFree = true)
    (hr : Hint.makeUnion hs = .ok r) : r.isFree = true := by
  rw [makeUnion] at hr
  split at hr
  · cases hr
  · obtain ⟨as, ha, hr⟩ := bind_eq_ok_iff.1 hr
    exact isFree_unionOf (isFree_asArguments hh ha) hr

theorem Hint.isFree_makeOptional {h r : Hint} (hh : h.isFree = true)
    (hr : h.makeOptional = .ok r) : r.isFree = true := by
  obtain ⟨a, ha, hr⟩ := bind_eq_ok_iff.1 hr
  refine isFree_unionOf ?_ hr
  simp only [List.mem_cons, List.not_mem_nil, or_false, forall_eq_or_imp, forall_eq]
  exact ⟨isFree_asArgument hh ha, rfl⟩

theorem Hint.isFree_makeEither {a b r : Hint} (ha : a.isFree = true) (hb : b.isFree = true)
    (hr : Hint.makeEither a b = .ok r) : r.isFree = true := by
  have hboth : ∀ h ∈ [a, b], h.isFree = true := by simp [ha, hb]
  unfold makeEither at hr
  split at hr
  · exact isFree_makeUnion hboth hr
  · split at hr
    · cases hr
    · split at hr <;> cases hr
      rfl
    · split at hr
      · exact isFree_unionOf hboth hr
      · cases hr

/-! ## Type variables -/

mutual

theorem Hint.isFree_substitute {a : Hint} (ha : a.isFree = true) (h : Hint)
    (hh : h.isFree = true) {r : Hint} (hr : Hint.substitute a h = .ok r) : r.isFree = true := by
  cases h with
  | «variable» name =>
    cases hr
    exact ha
  | union formed arms =>
    obtain ⟨hs, hhs, hr⟩ := bind_eq_ok_iff.1 hr
    exact isFree_unionOf
      (Hint.allFree_iff.1 (Hint.allFree_substituteAll ha arms hh hhs)) hr
  | final h => cases hh
  | literal | container =>
    obtain ⟨hs, -, rfl⟩ := map_eq_ok_iff.1 hr
    rfl
  | classVariable | annotated =>
    obtain ⟨g, -, rfl⟩ := map_eq_ok_iff.1 hr
    rfl
  | _ =>
    cases hr
    exact hh

theorem Hint.allFree_substituteAll {a : Hint} (ha : a.isFree = true) (hs : List Hint)
    (hh : Hint.allFree hs = true) {rs : List Hint} (hr : Hint.substituteAll a hs = .ok rs) :
    Hint.allFree rs = true := by
  cases hs with
  | nil =>
    cases hr
    rfl
  | cons h hs =>
    rw [Hint.allFree, Bool.and_eq_true] at hh
    simp only [Hint.substituteAll, bind_eq_ok_iff] at hr
    obtain ⟨g, hg, gs, hgs, hr⟩ := hr
    cases hr
    rw [Hint.allFree, Bool.and_eq_true]
    exact ⟨Hint.isFree_substitute ha h hh.1 hg, Hint.allFree_substituteAll ha hs hh.2 hgs⟩

end

theorem Hint.isFree_specialize {h r : Hint} {arguments : List Hint} (hh : h.isFree = true)
    (ha : ∀ a ∈ arguments, a.isFree = true) (hr : h.specialize arguments = .ok r) :
    r.isFree = true := by
  unfold specialize at hr
  split at hr
  · cases hr
  · split at hr
    · next a =>
      obtain ⟨b, hx, hr⟩ := bind_eq_ok_iff.1 hr
      exact isFree_substitute (isFree_asArgument (ha a List.mem_cons_self) hx) h hh hr
    · cases hr

/-! ## Square brackets -/

theorem Hint.isFree_sideBySide {h : Hint} (hh : h.isFree = true) :
    ∀ g ∈ h.sideBySide, g.isFree = true := by
  cases h with
  | tuple items => exact Hint.allFree_iff.1 hh
  | _ => simpa [sideBySide] using hh

theorem Hint.isFree_makeAnnotated {h r : Hint} {notes : List Hint}
    (hr : h.makeAnnotated notes = .ok r) : r.isFree = true := by
  rw [makeAnnotated] at hr
  split at hr
  · cases hr
  · cases hr
    rfl
  · split at hr <;> cases hr
    rfl

theorem isFree_itemAt {name : String} {items : List Hint} {index : Int} {r : Hint}
    (hi : ∀ h ∈ items, h.isFree = true) (hr : itemAt name items index = .ok r) :
    r.isFree = true := by
  rw [itemAt] at hr
  split at hr
  · cases hr
  · split at hr
    · next h hplace =>
      cases hr
      obtain ⟨place, -, hplace⟩ := Option.bind_eq_some_iff.1 hplace
      exact hi r (List.mem_of_getElem? hplace)
    · cases hr

theorem Hint.isFree_pick {name : String} {items : List Hint} {argument r : Hint}
    (hi : ∀ h ∈ items, h.isFree = true) (hr : Hint.pick name items argument = .ok r) :
    r.isFree = true := by
  rw [pick] at hr
  split at hr
  · exact isFree_itemAt hi hr
  · cases hr

theorem Hint.isFree_pickCharacter {text : String} {argument r : Hint}
    (hr : Hint.pickCharacter text argument = .ok r) : r.isFree = true := by
  rw [pickCharacter] at hr
  split at hr
  · refine isFree_itemAt ?_ hr
    intro h hh
    obtain ⟨c, -, rfl⟩ := List.mem_map.1 hh
    rfl
  · cases hr

theorem Hint.isFree_applyForm {name : String} {argument r : Hint} (hname : name ≠ "Final")
    (ha : argument.isFree = true) (hr : Hint.applyForm name argument = .ok r) :
    r.isFree = true := by
  unfold applyForm at hr
  split at hr
  · exact isFree_makeOptional ha hr
  · exact isFree_makeUnion (isFree_sideBySide ha) hr
  · cases hr
    rfl
  · exact (hname rfl).elim
  · obtain ⟨a, -, rfl⟩ := map_eq_ok_iff.1 hr
    rfl
  · cases hr

theorem Kind.isFree_subscript {k : Kind} {argument r : Hint}
    (hr : k.subscript argument = .ok r) : r.isFree = true := by
  unfold Kind.subscript at hr
  split at hr
  · split at hr
    · exact Hint.isFree_makeAnnotated hr
    · cases hr
  · split at hr <;> cases hr
    rfl

/-- What stands in square brackets makes no final type out of a free hint. -/
theorem Hint.isFree_subscript {h argument r : Hint} (hh : h.isFree = true)
    (ha : argument.isFree = true) (hr : h.subscript argument = .ok r) : r.isFree = true := by
  have hitems := isFree_sideBySide ha
  unfold subscript at hr
  split at hr
  · exact isFree_applyForm (by simpa [isFree] using hh) ha hr
  · exact Kind.isFree_subscript hr
  · cases hr
  · exact isFree_specialize hh hitems hr
  · exact isFree_specialize hh hitems hr
  · exact isFree_specialize hh hitems hr
  · exact isFree_specialize hh hitems hr
  · exact isFree_specialize hh hitems hr
  · exact isFree_specialize hh hitems hr
  · exact isFree_pick (Hint.allFree_iff.1 hh) hr
  · exact isFree_pick (Hint.allFree_iff.1 hh) hr
  · exact isFree_pickCharacter hr
  · cases hr

theorem Hint.isFree_negate {h r : Hint} (hr : h.negate = .ok r) : r.isFree = true := by
  unfold negate at hr
  split at hr <;> cases hr <;> rfl

/-! ## Expressions -/

/-- No name in a scope but that of the form means a final type, and no other member does. -/
structure Scope.IsPlain (scope : Scope) : Prop where
  name : ∀ s h, s ≠ "Final" → scope.name? s = some h → h.isFree = true
  member : ∀ g part h, part ≠ "Final" → scope.member? g part = some h → h.isFree = true

theorem Hint.isFree_named? {name : String} {h : Hint} (hname : name ≠ "Final")
    (hh : Hint.named? name = some h) : h.isFree = true := by
  unfold named? at hh
  split at hh
  all_goals first
    | (cases hh; rfl)
    | exact (hname rfl).elim
    | skip
  split at hh
  · cases hh
    rfl
  · split at hh
    · cases hh
      rfl
    · obtain ⟨shown, -, rfl⟩ := Option.map_eq_some_iff.1 hh
      rfl

/-- The values that a class binds are no types. -/
theorem Scope.isPlain_ofBindings (bindings : Table Value) (outcome? : Outcomes) :
    (Scope.ofBindings bindings outcome?).IsPlain where
  name s h hs hh := by
    rw [ofBindings] at hh
    simp only at hh
    split at hh
    · cases hh
      exact Hint.isFree_ofValue _
    · exact Hint.isFree_named? hs hh
  member g part h _ hh := by cases hh

theorem refused_eq_ok_iff {α : Type} {x : Except Misuse α} {a : α} :
    refused x = .ok a ↔ x = .ok a := by
  cases x <;> simp [refused]

mutual

/-- An expression that does not mention final types means none. -/
theorem SourceExpr.isFree_hint {scope : Scope} (hscope : scope.IsPlain) (e : SourceExpr)
    (he : e.mentions "Final" = false) {h : Hint} (hh : e.hint scope = .ok h) : h.isFree = true := by
  cases e with
  | name s =>
    simp only [SourceExpr.hint, Scope.meaningOf] at hh
    split at hh
    · next hs =>
      cases hh
      exact hscope.name s h (by simpa [SourceExpr.mentions] using he) hs
    · cases hh
  | constant v =>
    cases hh
    exact Hint.isFree_ofValue v
  | dots =>
    cases hh
    rfl
  | member e part =>
    rw [SourceExpr.mentions, Bool.or_eq_false_iff] at he
    rw [SourceExpr.hint, bind_eq_ok_iff] at hh
    obtain ⟨g, -, hpart⟩ := hh
    rw [Scope.memberOf] at hpart
    split at hpart
    · next hmember =>
      cases hpart
      exact hscope.member g part h (by simpa using he.2) hmember
    · cases hpart
  | subscript e argument =>
    rw [SourceExpr.mentions, Bool.or_eq_false_iff] at he
    simp only [SourceExpr.hint, bind_eq_ok_iff, refused_eq_ok_iff] at hh
    obtain ⟨g, hg, a, ha, hr⟩ := hh
    exact Hint.isFree_subscript (SourceExpr.isFree_hint hscope e he.1 hg)
      (SourceExpr.isFree_hint hscope argument he.2 ha) hr
  | either left right =>
    rw [SourceExpr.mentions, Bool.or_eq_false_iff] at he
    simp only [SourceExpr.hint, bind_eq_ok_iff, refused_eq_ok_iff] at hh
    obtain ⟨a, ha, b, hb, hr⟩ := hh
    exact Hint.isFree_makeEither (SourceExpr.isFree_hint hscope left he.1 ha)
      (SourceExpr.isFree_hint hscope right he.2 hb) hr
  | negative e =>
    simp only [SourceExpr.hint, bind_eq_ok_iff, refused_eq_ok_iff] at hh
    obtain ⟨g, -, hr⟩ := hh
    exact Hint.isFree_negate hr
  | tuple items =>
    rw [SourceExpr.hint, bind_eq_ok_iff] at hh
    obtain ⟨hs, hhs, hr⟩ := hh
    cases hr
    exact SourceExpr.allFree_hints hscope items he hhs
  | list items =>
    rw [SourceExpr.hint, bind_eq_ok_iff] at hh
    obtain ⟨hs, hhs, hr⟩ := hh
    cases hr
    exact SourceExpr.allFree_hints hscope items he hhs

theorem SourceExpr.allFree_hints {scope : Scope} (hscope : scope.IsPlain)
    (es : List SourceExpr) (he : SourceExpr.anyMentions "Final" es = false) {hs : List Hint}
    (hh : SourceExpr.hints scope es = .ok hs) : Hint.allFree hs = true := by
  cases es with
  | nil =>
    cases hh
    rfl
  | cons e es =>
    rw [SourceExpr.anyMentions, Bool.or_eq_false_iff] at he
    simp only [SourceExpr.hints, bind_eq_ok_iff] at hh
    obtain ⟨h, hx, hs', hxs, hr⟩ := hh
    cases hr
    rw [Hint.allFree, Bool.and_eq_true]
    exact ⟨SourceExpr.isFree_hint hscope e he.1 hx, SourceExpr.allFree_hints hscope es he.2 hxs⟩

end

end Styling
