import Styling.Proofs.Styler

/-!
# Updates that are refused on their way

A new style is written entry by entry, and one of the entries can be refused. The entries before it
stay written (`StoreBacked.writeEntries_error`), while the styler keeps the values before a style
only if the style was applied to its end. So a styler without old values has none after such an
update either, and a reset has nothing to write back: it brings the store from before the update
back just when the entries that were written had changed nothing (`Styler.reset_restores_iff`).
-/

set_option autoImplicit false

namespace Styling

variable {σ ε : Type}

/-- Where the keys are distinct, writing changes nothing only if every entry was there before. -/
theorem writeAll_eq_self_iff {es : List (String × Value)} (hd : (es.map Prod.fst).Nodup)
    (store : String → Value) : writeAll es store = store ↔ ∀ e ∈ es, store e.1 = e.2 := by
  constructor
  · intro h e he
    exact (congrFun h e.1).symm.trans (writeAll_of_mem hd he store)
  · intro h
    funext key
    by_cases hk : key ∈ es.map Prod.fst
    · obtain ⟨e, he, rfl⟩ := List.mem_map.1 hk
      exact (writeAll_of_mem hd he store).trans (h e he).symm
    · exact writeAll_of_not_mem hk store

namespace Styler

/-- The entries of a new style that are written before one of them is refused. -/
def writtenNew (apply : ApplyFunction σ ε) (coercer : Coercer) (style : Style) (s : Logged σ) :
    List (String × Value) :=
  match style.read (ε := ε) coercer s with
  | .ok (some m) t => writtenEntries apply .applied m.entries t
  | _ => []

/-- No key is written twice. -/
theorem nodup_writtenNew (apply : ApplyFunction σ ε) (coercer : Coercer) (style : Style)
    (s : Logged σ) : ((writtenNew apply coercer style s).map Prod.fst).Nodup := by
  rw [writtenNew]
  split
  · next m t _ =>
    exact m.distinct.sublist ((writtenEntries_sublist apply _ m.entries t).map Prod.fst)
  · exact List.nodup_nil

theorem update_new (apply : ApplyFunction σ ε) (coercer : Coercer) (style : Style)
    (s : Logged σ) :
    Styler.new.update apply coercer style s = applyNew apply coercer style s := rfl

/-- A styler that keeps nothing has nothing to write back. -/
theorem reset_new (apply : ApplyFunction σ ε) (coercer : Coercer) (s : Logged σ) :
    Styler.new.reset apply coercer s = (.new, .ok () s) := rfl

section Refused

variable {valid : σ → Prop} {read : σ → String → Value} {apply : ApplyFunction σ ε}

/-- A new style that fails leaves what was written of it in the store, and no values before it in
the styler. -/
theorem applyNew_error (hb : StoreBacked valid read apply) {coercer : Coercer} {style : Style}
    {styler : Styler} {s t : Logged σ} {e : ApplyError ε} (hv : valid s.state)
    (h : applyNew apply coercer style s = (styler, .error e t)) :
    styler = .new ∧
      read t.state = writeAll (writtenNew apply coercer style s) (read s.state) := by
  simp only [applyNew, applyStyle_eq, revert_none] at h
  rw [writtenNew]
  cases hr : style.read (ε := ε) coercer s with
  | error e' u =>
    simp only [hr, Prod.mk.injEq, EStateM.Result.error.injEq] at h
    obtain ⟨rfl, -, rfl⟩ := h
    exact ⟨rfl, congrArg read (Style.read_error hr)⟩
  | ok m u =>
    have hst := Style.read_ok hr
    cases m with
    | none => simp [hr] at h
    | some m =>
      simp only [hr] at h
      cases he : m.isEmpty with
      | true => simp [applyMapping_of_isEmpty apply he] at h
      | false =>
        rw [applyMapping_of_not_isEmpty apply he] at h
        cases hw : writeEntries apply .applied m.entries .empty u with
        | ok old v => simp [hw] at h
        | error e' v =>
          simp only [hw, Prod.mk.injEq, EStateM.Result.error.injEq] at h
          obtain ⟨rfl, -, rfl⟩ := h
          exact ⟨rfl, hst ▸ (hb.writeEntries_error (hst ▸ hv) hw).2⟩

/-- **What a reset can do after an update that failed.** A styler without old values takes a style
and the update fails, for whatever reason. The entries that were written stay in the store, and the
styler has no old values. So a reset, now or whenever the store is as it was left, returns and
writes nothing, and the store from before the update is back just when every entry that was written
had been there already. -/
theorem reset_restores_iff (hb : StoreBacked valid read apply) {coercer : Coercer} {style : Style}
    {styler : Styler} {s t : Logged σ} {e : ApplyError ε} (hv : valid s.state)
    (h : Styler.new.update apply coercer style s = (styler, .error e t)) :
    styler.oldValues = none ∧
      read t.state = writeAll (writtenNew apply coercer style s) (read s.state) ∧
      ∀ u, read u.state = read t.state →
        styler.reset apply coercer u = (styler, .ok () u) ∧
          (read u.state = read s.state ↔
            ∀ entry ∈ writtenNew apply coercer style s, read s.state entry.1 = entry.2) := by
  rw [update_new] at h
  obtain ⟨rfl, hread⟩ := applyNew_error hb hv h
  refine ⟨rfl, hread, fun u hu => ⟨reset_new apply coercer u, ?_⟩⟩
  rw [hu, hread]
  exact writeAll_eq_self_iff (nodup_writtenNew apply coercer style s) (read s.state)

/-- A refusal has ended the call. -/
def isRefused : Styler × EStateM.Result (ApplyError ε) (Logged σ) Unit → Bool
  | (_, .error (.target _) _) => true
  | _ => false

theorem exists_of_isRefused {r : Styler × EStateM.Result (ApplyError ε) (Logged σ) Unit}
    (h : isRefused r = true) : ∃ styler e t, r = (styler, .error (.target e) t) := by
  obtain ⟨styler, result⟩ := r
  cases result with
  | ok _ t => cases h
  | error e t =>
    cases e with
    | read e => cases h
    | target e => exact ⟨styler, e, t, rfl⟩

/-- The first of two keys is written with a value that it did not have, the second is refused. -/
theorem reset_restores_iff_refused :
    let start : Logged Recorder :=
      ⟨⟨.ofList [("arc", .whole 1)], .ofList [("gap", .style (.unknownKey "gap"))], []⟩, []⟩
    let style : Style := .text "arc: 8; gap: 2"
    ∃ styler e t, Styler.new.update Recorder.apply .standard style start =
        (styler, .error (.target e) t) ∧
      styler.reset Recorder.apply .standard t = (styler, .ok () t) ∧
      (t.state.read = start.state.read ↔ ∀ entry ∈ writtenNew Recorder.apply .standard style start,
        start.state.read entry.1 = entry.2) := by
  intro start style
  obtain ⟨styler, e, t, h⟩ := exists_of_isRefused
    (r := Styler.new.update Recorder.apply .standard style start) (by decide +kernel)
  exact ⟨styler, e, t, h, (reset_restores_iff Recorder.storeBacked trivial h).2.2 t rfl⟩

/-- A reset after a refused update need not bring the store back: a key that was written before
the refusal keeps its new value. -/
theorem not_reset_restores_refused :
    ¬∀ (σ ε : Type) (valid : σ → Prop) (read : σ → String → Value) (apply : ApplyFunction σ ε),
      StoreBacked valid read apply →
      ∀ (coercer : Coercer) (style : Style) (styler after : Styler) (s t u : Logged σ) (e : ε),
        valid s.state →
        Styler.new.update apply coercer style s = (styler, .error (.target e) t) →
        styler.reset apply coercer t = (after, .ok () u) →
        read u.state = read s.state := by
  intro hall
  let start : Logged Recorder :=
    ⟨⟨.ofList [("arc", .whole 1)], .ofList [("gap", .style (.unknownKey "gap"))], []⟩, []⟩
  let style : Style := .text "arc: 8; gap: 2"
  obtain ⟨styler, e, t, h⟩ := exists_of_isRefused
    (r := Styler.new.update Recorder.apply .standard style start) (by decide +kernel)
  have hnew := h
  rw [update_new] at hnew
  obtain ⟨rfl, hwritten⟩ := applyNew_error Recorder.storeBacked trivial hnew
  have hread : t.state.read = start.state.read :=
    hall _ _ _ _ _ Recorder.storeBacked _ _ _ _ _ _ _ _ trivial h (reset_new _ _ t)
  -- The arc is among the entries that were written, and had another value.
  have harc : (writeAll (writtenNew Recorder.apply .standard style start) start.state.read
      "arc").same (.whole 1) = false := by
    decide +kernel
  rw [← hwritten, hread] at harc
  exact absurd harc (by decide)

end Refused

end Styler

end Styling
