import Styling.Proofs.Annotated
import Styling.Proofs.Declarations
import Styling.Proofs.FinalTypes
import Styling.Proofs.SourceTexts

/-!
# Final annotations

A field with a type in the brackets of a final annotation gets the slot that the type by itself
gives it, but read-only, and the slots of the other fields stay what they are
(`Classes.ownSlotsIn_annotate`). That does not depend on what the names mean: a final annotation is
recognized by its hint where all its names are known, and by its text where one is not, the name of
the form included.

There are two exceptions among the types that can be read or have an unknown name. A type that the
form refuses leaves the class without slots (`Classes.not_ownSlotsIn_annotate`). And a type whose
value is itself the text of a final annotation is taken for that annotation when it stands alone,
but for the name of an unknown type in the brackets of another one (`SourceExpr.IsReadIn.text`).
-/

set_option autoImplicit false

namespace Styling

open Styling.Text

/-! ## Types in a scope -/

/-- The text writes a type in which neither final types nor class variables occur. -/
structure WritesType (text : String) (e : SourceExpr) : Prop extends WritesExpr text e where
  notFinal : e.mentions "Final" = false
  notShared : e.mentions "ClassVar" = false

/-- Reading the type stops at no more than an unknown name. If the type turns out to be a text, that
is not the text of a final annotation itself. -/
structure SourceExpr.IsReadIn (e : SourceExpr) (scope : Scope) : Prop where
  unknown : ∀ err, e.hint scope = .error err → ∃ name, err = .unknownName name
  text : ∀ s, e.hint scope = .ok (.other (.text s)) → finalInner? (trim s.toList) = none

/-- What stands in front of the bracket is the form of final types or is unknown. -/
def FinalName.IsFinalIn (n : FinalName) (scope : Scope) : Prop :=
  n.expr.hint scope = .ok (.form "Final") ∨ ∃ name, n.expr.hint scope = .error (.unknownName name)

/-- The form is known and does not take the type. -/
def FinalName.Refuses (n : FinalName) (scope : Scope) (e : SourceExpr) (m : Misuse) : Prop :=
  n.expr.hint scope = .ok (.form "Final") ∧ ∃ h, e.hint scope = .ok h ∧ h.makeFinal = .error m

/-- What a type accepts in a scope, which is everything if it cannot be resolved. -/
def SourceExpr.acceptsIn (scope : Scope) (e : SourceExpr) (v : Value) : Bool :=
  match e.hint scope with
  | .ok h => h.accepts v
  | .error _ => true

/-! ## Declared types -/

theorem WritesExpr.hintOfText_eq {text : String} {e : SourceExpr} (h : WritesExpr text e)
    (scope : Scope) : hintOfText scope text = e.hint scope := by
  rw [hintOfText, h.reads]

theorem WritesExpr.ne_nil {text : String} {e : SourceExpr} (h : WritesExpr text e) :
    text.toList ≠ [] := by
  intro hnil
  have hreads := h.reads
  rw [hnil] at hreads
  obtain ⟨-, r, rest, hscan, hrun⟩ := SourceExpr.ofText_eq_ok_iff.1 hreads
  change Scanned [] [] [] r at hscan
  cases hscan
  cases hrun

theorem Resolved.ofHint_of_ne_text {h : Hint} (hh : ∀ s, h ≠ .other (.text s)) :
    Resolved.ofHint h = .hint h := by
  rw [ofHint]
  intro s hs
  exact hh s hs

/-- A hint that is free declares itself. -/
theorem Declared.ofHint_of_isFree {h : Hint} (hh : h.isFree = true) :
    Declared.ofHint h = ⟨h, false⟩ := by
  unfold ofHint
  split
  · cases hh
  · cases hh
  · rfl

/-- The type by itself declares a field that is not final and accepts what the type does. -/
theorem declared_of_writesType {scope : Scope} {text : String} {e : SourceExpr}
    (hscope : scope.IsPlain) (ht : WritesType text e) (he : e.IsReadIn scope) :
    ∃ g, ((.source text : Annotation).declared scope).2 = .ok ⟨g, false⟩ ∧
      ∀ v, g.accepts v = e.acceptsIn scope v := by
  have hinner : finalInner? (trim text.toList) = none :=
    SourceExpr.finalInner?_eq_none ht.reads ht.notFinal
  cases hx : e.hint scope with
  | error err =>
    obtain ⟨name, rfl⟩ := he.unknown err hx
    refine ⟨.any, ?_, fun v => by simp [SourceExpr.acceptsIn, hx, Hint.accepts]⟩
    simp [resolveText, Annotation.declared, ht.hintOfText_eq, hx, Declared.ofText, hinner]
  | ok h =>
    by_cases htext : ∃ s, h = .other (.text s)
    · obtain ⟨s, rfl⟩ := htext
      refine ⟨.any, ?_, fun v => by simp [SourceExpr.acceptsIn, hx, Hint.accepts]⟩
      simp [resolveText, Annotation.declared, ht.hintOfText_eq, hx, Resolved.ofHint,
        Declared.ofText, he.text s hx]
    · have hres := Resolved.ofHint_of_ne_text (not_exists.1 htext)
      refine ⟨h, ?_, fun v => by simp [SourceExpr.acceptsIn, hx]⟩
      have hfree := SourceExpr.isFree_hint hscope e ht.notFinal hx
      simp [resolveText, Annotation.declared, ht.hintOfText_eq, hx, hres,
        Declared.ofHint_of_isFree hfree]

/-- The text of a final annotation says so even where it cannot be read. -/
theorem FinalName.finalInner?_annotate (n : FinalName) (text : String) :
    finalInner? (trim (n.annotate text).toList) = some text.toList := by
  have htext : (n.annotate text).toList = n.text.toList ++ '[' :: (text.toList ++ [']']) := by
    simp [annotate, String.toList_append]
  have hlast : (n.annotate text).toList = (n.text.toList ++ '[' :: text.toList) ++ [']'] := by
    simp [htext]
  have htrim : trim (n.annotate text).toList = (n.annotate text).toList := by
    refine trim_eq_self_iff.2 ⟨?_, ?_⟩
    · rw [htext]
      cases n <;> simp [FinalName.text] <;> decide
    · rw [hlast, List.getLast?_append]
      simp
      decide
  rw [htrim, htext]
  cases n <;> simp [finalInner?, dropModule, dropPrefix?, FinalName.text]

/-- An argument accepts what it does by itself. -/
theorem Hint.accepts_asArgument {h a : Hint} {rule : String} {special : Bool}
    (ha : h.asArgument rule special = .ok a) (v : Value) : a.accepts v = h.accepts v := by
  obtain rfl | ⟨rfl, rfl⟩ | ⟨name, rfl, rfl⟩ := Hint.asArgument_cases ha
  · rfl
  · exact (Hint.accepts_null v).symm
  · rfl

/-- What is left of a hint that may be a text accepts what the hint does. -/
theorem Resolved.accepts_orAny (h : Hint) (v : Value) :
    (Resolved.ofHint h).orAny.accepts v = h.accepts v := by
  unfold ofHint
  split
  · rfl
  · rfl

/-- Where a final annotation cannot be read, the type in its brackets is read by itself. -/
theorem FinalName.declared_annotate_unread (n : FinalName) {scope : Scope} {text : String}
    {e : SourceExpr} (ht : WritesType text e) (he : e.IsReadIn scope) (name : String)
    (hname : hintOfText scope (n.annotate text) = .error (.unknownName name)) :
    ∃ g, ((.source (n.annotate text) : Annotation).declared scope).2 = .ok ⟨g, true⟩ ∧
      ∀ v, g.accepts v = e.acceptsIn scope v := by
  obtain ⟨c, cs, htext⟩ := List.exists_cons_of_ne_nil ht.toWritesExpr.ne_nil
  have hinner := n.finalInner?_annotate text
  have hdeclared : ((.source (n.annotate text) : Annotation).declared scope).2
      = (Declared.ofText scope (n.annotate text)).2 := by
    simp [resolveText, Annotation.declared, hname]
  have hback : String.ofList (c :: cs) = text := by rw [← htext, String.ofList_toList]
  rw [htext] at hinner
  cases hx : e.hint scope with
  | error err =>
    obtain ⟨unknown, rfl⟩ := he.unknown err hx
    refine ⟨.any, ?_, fun v => by simp [SourceExpr.acceptsIn, hx, Hint.accepts]⟩
    simp [hdeclared, Declared.ofText, hinner, hback, resolveText, ht.hintOfText_eq, hx,
      Resolved.orAny]
  | ok h =>
    refine ⟨(Resolved.ofHint h).orAny, ?_, fun v => by
      rw [Resolved.accepts_orAny, SourceExpr.acceptsIn, hx]⟩
    simp [hdeclared, Declared.ofText, hinner, hback, resolveText, ht.hintOfText_eq, hx]

/-- In the brackets of a final annotation the type declares a final field that accepts the same,
unless the form refuses the type. -/
theorem FinalName.declared_annotate (n : FinalName) {scope : Scope} {text : String}
    {e : SourceExpr} (ht : WritesType text e) (he : e.IsReadIn scope) (hn : n.IsFinalIn scope) :
    ((∀ m, ¬ n.Refuses scope e m) →
      ∃ g, ((.source (n.annotate text) : Annotation).declared scope).2 = .ok ⟨g, true⟩ ∧
        ∀ v, g.accepts v = e.acceptsIn scope v) ∧
    ∀ m, n.Refuses scope e m →
      ((.source (n.annotate text) : Annotation).declared scope).2 = .error (.misuse m) := by
  have hread : hintOfText scope (n.annotate text) = (SourceExpr.subscript n.expr e).hint scope := by
    rw [hintOfText, n.ofText_annotate ht.toWritesExpr]
  have hknown : n.expr.hint scope = .ok (.form "Final") → ∀ h, e.hint scope = .ok h →
      hintOfText scope (n.annotate text) = refused h.makeFinal := by
    intro hform h hh
    simp [hread, SourceExpr.hint, hform, hh, bind, Except.bind, Hint.subscript, Hint.applyForm]
  refine ⟨?_, ?_⟩
  · intro hrefuse
    obtain hform | ⟨name, hname⟩ := hn
    · cases hx : e.hint scope with
      | error err =>
        obtain ⟨name, rfl⟩ := he.unknown err hx
        refine n.declared_annotate_unread ht he name ?_
        rw [hread, SourceExpr.hint, hform, hx]
        rfl
      | ok h =>
        cases hfinal : h.makeFinal with
        | error m => exact (hrefuse m ⟨hform, h, hx, hfinal⟩).elim
        | ok r =>
          obtain ⟨a, ha, rfl⟩ := map_eq_ok_iff.1 hfinal
          refine ⟨(Resolved.ofHint a).orAny, ?_, fun v => ?_⟩
          · simp [resolveText, Annotation.declared, hknown hform h hx, hfinal, refused,
              Resolved.ofHint, Declared.ofHint]
          · rw [Resolved.accepts_orAny, Hint.accepts_asArgument ha, SourceExpr.acceptsIn, hx]
    · refine n.declared_annotate_unread ht he name ?_
      rw [hread, SourceExpr.hint, hname]
      rfl
  · rintro m ⟨hform, h, hx, hfinal⟩
    simp [resolveText, Annotation.declared, hknown hform h hx, hfinal, refused]

/-! ## Slots -/

/-- A slot of a field with a final type, and the one that the type by itself gives the field. Both
accept what the type does. -/
structure Slot.IsFinalOf (accepted : Value → Bool) (final plain : Slot) : Prop where
  ownerName : final.ownerName = plain.ownerName
  ownerPath : final.ownerPath = plain.ownerPath
  name : final.name = plain.name
  readOnly : final.readOnly = true
  accepts : ∀ v, final.hint.accepts v = accepted v
  plain_accepts : ∀ v, plain.hint.accepts v = accepted v

/-- Slots with their names, of a class with a final field and of one with the type of that field by
itself: that slot is final, and any other is the same. -/
def FinalEntry (field : String) (accepted : Value → Bool) (final plain : String × Slot) : Prop :=
  final.1 = plain.1 ∧
    if plain.1 = field then final.2.IsFinalOf accepted plain.2 else final.2 = plain.2

section

variable {c c' : Class} {scope : Scope} {field text : String} {e : SourceExpr} {n : FinalName}

/-- The class is another one with other fields. -/
def Class.HasOtherFields (c c' : Class) : Prop :=
  ∃ fs, c' = { c with decl := { c.decl with fields := fs } }

theorem Class.HasOtherFields.scope_eq (hc : c.HasOtherFields c') : c'.scope = c.scope := by
  obtain ⟨fs, rfl⟩ := hc
  rfl

theorem Class.HasOtherFields.table_eq (hc : c.HasOtherFields c') : c'.table = c.table := by
  obtain ⟨fs, rfl⟩ := hc
  rfl

theorem Class.HasOtherFields.slotIn_eq (hc : c.HasOtherFields c') (scope : Scope) (f : FieldDecl) :
    c'.slotIn scope f = c.slotIn scope f := by
  obtain ⟨fs, rfl⟩ := hc
  rfl

theorem Class.entryIn_eq (scope : Scope) (c : Class) (f : FieldDecl) :
    c.entryIn scope f = (f.annotation.declared scope).2.map fun d =>
      (f.name,
        ⟨c.decl.name, c.path, f.name, d.hint, f.readOnly || c.decl.frozen || d.isFinal⟩) := by
  rw [entryIn, slotIn]
  obtain ⟨names, declared⟩ := f.annotation.declared scope
  cases declared <;> rfl

/-- The entry of a field under the final annotation ends like that under its type by itself. -/
theorem Class.endAlike_entryIn (hc : c.HasOtherFields c') (hscope : scope.IsPlain)
    (ht : WritesType text e) (he : e.IsReadIn scope) (hn : n.IsFinalIn scope)
    (hrefuse : ∀ m, ¬ n.Refuses scope e m) (f : FieldDecl) :
    EndAlike (FinalEntry field (e.acceptsIn scope))
      (c'.entryIn scope (f.annotated field (.source (n.annotate text))))
      (c.entryIn scope (f.annotated field (.source text))) := by
  by_cases hf : f.name = field
  · obtain ⟨g, hg, haccepts⟩ := (n.declared_annotate ht he hn).1 hrefuse
    obtain ⟨g', hg', haccepts'⟩ := declared_of_writesType hscope ht he
    obtain ⟨fs, rfl⟩ := hc
    rw [f.annotated_of_eq hf, f.annotated_of_eq hf, Class.entryIn_eq, Class.entryIn_eq, hg, hg']
    refine .ok ⟨rfl, ?_⟩
    rw [if_pos hf]
    exact ⟨rfl, rfl, rfl, by simp, haccepts, haccepts'⟩
  · rw [f.annotated_of_ne hf, f.annotated_of_ne hf, Class.entryIn, hc.slotIn_eq, ← Class.entryIn]
    cases hx : c.entryIn scope f with
    | error err => exact .error err
    | ok p =>
      have hname : p.1 = f.name := (map_pair_eq_ok_iff.1 hx).1
      refine .ok ⟨rfl, ?_⟩
      rw [if_neg (hname ▸ hf)]

/-- A field whose type the form refuses has no entry. -/
theorem Class.entryIn_of_refuses (ht : WritesType text e) (he : e.IsReadIn scope)
    (hn : n.IsFinalIn scope) {m : Misuse} (hrefuse : n.Refuses scope e m) {f : FieldDecl}
    (hf : f.name = field) :
    c.entryIn scope (f.annotated field (.source (n.annotate text))) = .error (.misuse m) := by
  rw [f.annotated_of_eq hf, Class.entryIn_eq, (n.declared_annotate ht he hn).2 m hrefuse]
  rfl

/-- The slots of a record class come from its marked fields under their annotations. -/
theorem Class.ownSlotsIn_annotated (htable : c.table.isSome = true) {a : Annotation}
    {fs : List FieldDecl} (hfields : c.decl.fields = fs.map (FieldDecl.annotated field a)) :
    (c.ownSlotsIn scope).2 = (fs.filter FieldDecl.styleable).mapM fun f =>
      c.entryIn scope (f.annotated field a) := by
  rw [Class.ownSlotsIn, if_pos htable, Class.slotsIn_eq_mapM, hfields,
    FieldDecl.filter_annotated, List.mapM_map]
  rfl

/-- The class under the final annotation is there if the one under the type by itself is. -/
theorem Classes.build_annotate {cs : Classes} {d : ClassDecl} (n : FinalName)
    (ht : WritesType text e) (hc : cs.build (d.annotated field (.source text)) = .ok c) :
    ∃ c', cs.build (d.annotated field (.source (n.annotate text))) = .ok c' ∧ c.HasOtherFields c' ∧
      c.decl.fields = d.distinctFields.map (FieldDecl.annotated field (.source text)) ∧
      c'.decl.fields
        = d.distinctFields.map (FieldDecl.annotated field (.source (n.annotate text))) := by
  have hshared : (.source text : Annotation).isClassVariable
      = (.source (n.annotate text) : Annotation).isClassVariable := by
    rw [SourceExpr.isClassVariable_eq_false ht.reads ht.notShared,
      SourceExpr.isClassVariable_eq_false (n.ofText_annotate ht.toWritesExpr)]
    cases n <;> simp [SourceExpr.mentions, FinalName.expr, ht.notShared]
  have hself := Classes.build_annotated field
    (rfl : (.source text : Annotation).isClassVariable = _) d cs
  have hbuild := Classes.build_annotated field hshared d cs
  rw [hc] at hself hbuild
  have hfields := congrArg (fun c : Class => c.decl.fields) (Except.ok.inj hself)
  exact ⟨_, hbuild, ⟨_, rfl⟩, hfields, rfl⟩

end

/-- **A final annotation is read-only whether or not it can be resolved.** Let a class be built with
a field under a type in which neither final types nor class variables occur. Then the class is built
with the final annotation of that type, too. Take any scope in which the name of the form means
final types or nothing, and in which the type is read up to an unknown name at most.

If the form does not refuse the type, both classes give slots or both fail with the same error. The
slots have the names of the marked fields in their order; that of the field is read-only and accepts
what the type accepts, which is everything where a name is unknown, and each other one is the same
in both classes. If the form refuses the type of a marked field, the class under the final
annotation has no slots: it fails with that refusal, or as the other class does. -/
theorem Classes.ownSlotsIn_annotate {cs : Classes} {d : ClassDecl} {field text : String}
    {e : SourceExpr} (n : FinalName) (ht : WritesType text e) {c : Class}
    (hc : cs.build (d.annotated field (.source text)) = .ok c) :
    ∃ c', cs.build (d.annotated field (.source (n.annotate text))) = .ok c' ∧
      c'.scope = c.scope ∧ c.scope.IsPlain ∧
      ∀ scope : Scope, scope.IsPlain → n.IsFinalIn scope → e.IsReadIn scope →
        ((∀ m, ¬ n.Refuses scope e m) →
          EndAlike (List.Forall₂ (FinalEntry field (e.acceptsIn scope)))
            (c'.ownSlotsIn scope).2 (c.ownSlotsIn scope).2 ∧
          ∀ slots, c.table.isSome = true → (c'.ownSlotsIn scope).2 = .ok slots →
            slots.map Prod.fst = (c.decl.fields.filter FieldDecl.styleable).map FieldDecl.name) ∧
        ∀ m, n.Refuses scope e m → c.table.isSome = true →
          (∃ f ∈ c.decl.fields, f.name = field ∧ f.styleable = true) →
          ∃ err, (c'.ownSlotsIn scope).2 = .error err ∧
            (err = .misuse m ∨ (c.ownSlotsIn scope).2 = .error err) := by
  obtain ⟨c', hc', hother, hfields, hfields'⟩ := Classes.build_annotate n ht hc
  refine ⟨c', hc', hother.scope_eq, Scope.isPlain_ofBindings _ _,
    fun scope hscope hn he => ⟨fun hrefuse => ⟨?_, ?_⟩, ?_⟩⟩
  · by_cases htable : c.table.isSome = true
    · rw [Class.ownSlotsIn_annotated (hother.table_eq ▸ htable) hfields',
        Class.ownSlotsIn_annotated htable hfields]
      exact .mapM fun f _ => Class.endAlike_entryIn hother hscope ht he hn hrefuse f
    · rw [Class.ownSlotsIn, Class.ownSlotsIn, hother.table_eq, if_neg htable, if_neg htable]
      exact .ok .nil
  · intro slots htable hslots
    rw [Class.ownSlotsIn_annotated (hother.table_eq ▸ htable) hfields', mapM_eq_ok_iff] at hslots
    have hnames : slots.map Prod.fst
        = (d.distinctFields.filter FieldDecl.styleable).map FieldDecl.name :=
      map_eq_of_forall₂ hslots fun f p hp => by simpa using (map_pair_eq_ok_iff.1 hp).1
    rw [hnames, hfields, FieldDecl.filter_annotated]
    simp [Function.comp_def]
  · rintro m hm htable ⟨f, hf, hname, hmarked⟩
    rw [Class.ownSlotsIn_annotated (hother.table_eq ▸ htable) hfields',
      Class.ownSlotsIn_annotated htable hfields]
    refine exists_mapM_eq_error (fun f => Class.entryIn_of_refuses ht he hn hm)
      (fun f hf => ?_) ?_
    · rw [f.annotated_of_ne hf, f.annotated_of_ne hf, Class.entryIn, hother.slotIn_eq,
        Class.entryIn]
    · rw [hfields] at hf
      obtain ⟨g, hg, rfl⟩ := List.mem_map.1 hf
      exact ⟨g, List.mem_filter.2 ⟨hg, by simpa using hmarked⟩, by simpa using hname⟩

/-- A type with an unknown name, in a scope in which the module of the form is unknown as well. -/
theorem Classes.ownSlotsIn_annotate_unresolved :
    let d : ClassDecl := ⟨"A", [], [⟨"tint", .source "Later | None", some .null, true, false⟩,
      ⟨"arc", .source "int", some (.whole 6), true, false⟩], "app.styles", "A", true, false,
      fun _ => none⟩
    ∃ c slots,
      Classes.build [] (d.annotated "tint" (.source "typing.Final[Later | None]")) = .ok c ∧
      c.ownSlots.2 = .ok slots ∧ slots.map Prod.fst = ["tint", "arc"] ∧
      ∀ p ∈ slots, p.1 = "tint" → p.2.readOnly = true ∧ ∀ v, p.2.hint.accepts v = true := by
  intro d
  let text : String := "Later | None"
  let e : SourceExpr := .either (.name "Later") (.name "None")
  let c : Class := ⟨d, [.declared 0, .root], .ofList [("tint", .null), ("arc", .whole 6)],
    some (.ofList [("tint", ⟨some .null, false⟩), ("arc", ⟨some (.whole 6), false⟩)])⟩
  have ht : WritesType text e :=
    { reads := by
        simp only [text, e]
        cbv
      closed := by
        simp only [text]
        cbv
      notFinal := by decide
      notShared := by decide }
  have hsame : d.annotated "tint" (.source text) = d := by
    simp [ClassDecl.annotated, FieldDecl.annotated, d, text]
  have hc : Classes.build [] (d.annotated "tint" (.source text)) = .ok c := by
    rw [hsame]
    rfl
  have hlater : c.scope.meaningOf "Later" = .error (.unknownName "Later") := by
    rw [Scope.meaningOf,
      Option.isNone_iff_eq_none.1 (by decide +kernel : (c.scope.name? "Later").isNone)]
  have htyping : c.scope.meaningOf "typing" = .error (.unknownName "typing") := by
    rw [Scope.meaningOf,
      Option.isNone_iff_eq_none.1 (by decide +kernel : (c.scope.name? "typing").isNone)]
  have hunknown : e.hint c.scope = .error (.unknownName "Later") := by
    rw [SourceExpr.hint, SourceExpr.hint, hlater]
    rfl
  have hmodule : FinalName.qualified.expr.hint c.scope = .error (.unknownName "typing") := by
    rw [FinalName.expr, SourceExpr.hint, SourceExpr.hint, htyping]
    rfl
  have he : e.IsReadIn c.scope :=
    { unknown := by
        intro err herr
        rw [hunknown] at herr
        exact ⟨"Later", (Except.error.inj herr).symm⟩
      text := by
        intro s hs
        rw [hunknown] at hs
        cases hs }
  have hplain : (c.ownSlotsIn c.scope).2.toOption.isSome = true := by decide +kernel
  obtain ⟨c', hc', hscope, hfree, hslots⟩ := Classes.ownSlotsIn_annotate .qualified ht hc
  have hrefuse : ∀ m, ¬ FinalName.qualified.Refuses c.scope e m := by
    rintro m ⟨hform, -⟩
    rw [hmodule] at hform
    cases hform
  obtain ⟨hend, hnames⟩ := (hslots c.scope hfree (Or.inr ⟨_, hmodule⟩) he).1 hrefuse
  generalize hy : (c.ownSlotsIn c.scope).2 = y at hend hplain
  generalize hx : (c'.ownSlotsIn c.scope).2 = x at hend
  cases hend with
  | error err => cases hplain
  | @ok slots plains hall =>
    refine ⟨c', slots, hc', ?_, hnames slots rfl hx, ?_⟩
    · rw [Class.ownSlots, hscope, hx]
    · intro p hp hname
      obtain ⟨q, -, hsame, hfinal⟩ := exists_of_mem_left hall hp
      rw [if_pos (hsame ▸ hname)] at hfinal
      exact ⟨hfinal.readOnly, fun v => by rw [hfinal.accepts, SourceExpr.acceptsIn, hunknown]⟩

/-- A type that the form refuses, as its name is bound to a tuple in the class: the class has no
slots under the final annotation. -/
theorem Classes.not_ownSlotsIn_annotate :
    ¬∀ (cs : Classes) (d : ClassDecl) (field text : String) (e : SourceExpr) (n : FinalName)
      (c c' : Class), WritesType text e → cs.build (d.annotated field (.source text)) = .ok c →
      cs.build (d.annotated field (.source (n.annotate text))) = .ok c' →
      n.IsFinalIn c.scope → e.IsReadIn c.scope →
      EndAlike (List.Forall₂ (FinalEntry field (e.acceptsIn c.scope))) c'.ownSlots.2
        c.ownSlots.2 := by
  intro hall
  let d : ClassDecl := ⟨"A", [], [⟨"Color", .source "str", some (.tuple [.whole 1, .whole 2]), true,
    false⟩, ⟨"tint", .source "Color", some .null, true, false⟩], "app.styles", "A", true, false,
    fun _ => none⟩
  let e : SourceExpr := .name "Color"
  let built : String → Class := fun text =>
    ⟨d.annotated "tint" (.source text), [.declared 0, .root],
      .ofList [("Color", .tuple [.whole 1, .whole 2]), ("tint", .null)],
      some (.ofList [("Color", ⟨some (.tuple [.whole 1, .whole 2]), false⟩),
        ("tint", ⟨some .null, false⟩)])⟩
  have ht : WritesType "Color" e :=
    { reads := by
        simp only [e]
        cbv
      closed := by cbv
      notFinal := by decide
      notShared := by decide }
  have hplainBuild : Classes.build [] (d.annotated "tint" (.source "Color"))
      = .ok (built "Color") := by rfl
  have hfinalBuild :
      Classes.build [] (d.annotated "tint" (.source (FinalName.bare.annotate "Color")))
      = .ok (built (FinalName.bare.annotate "Color")) := by rfl
  have hcolor : e.hint (built "Color").scope
      = .ok (.tuple [.other (.whole 1), .other (.whole 2)]) := by rfl
  have hform : FinalName.bare.expr.hint (built "Color").scope = .ok (.form "Final") := by
    rfl
  have he : e.IsReadIn (built "Color").scope :=
    { unknown := fun err herr => by rw [hcolor] at herr; cases herr
      text := fun s hs => by rw [hcolor] at hs; cases hs }
  have hplain : (built "Color").ownSlots.2.toOption.isSome = true := by decide +kernel
  have hfinal : (built (FinalName.bare.annotate "Color")).ownSlots.2.toOption.isSome = false := by
    decide +kernel
  have hend := hall [] d "tint" "Color" e .bare _ _ ht hplainBuild hfinalBuild (Or.inl hform) he
  generalize (built "Color").ownSlots.2 = plain at hend hplain
  generalize (built (FinalName.bare.annotate "Color")).ownSlots.2 = final at hend hfinal
  cases hend with
  | ok h => cases hfinal
  | error err => cases hplain

end Styling
