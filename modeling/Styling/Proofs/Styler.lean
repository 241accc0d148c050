import Styling.Proofs.Store

/-!
# Runs of a styler

A styler on an apply function that is backed by a store is called again and again, and each call
can be refused at any of its writes. The values that the styler keeps, laid over the store, are an
invariant of every call that is not interrupted between two writes of a new style
(`Styler.perform_restored`). So a run without such a call never loses the values from before the
first style (`Styler.run_keeps_original`).
-/

set_option autoImplicit false

namespace Styling

variable {σ ε : Type}

/-- A call of a styler. -/
inductive StylerCall where
  | update (style : Style)
  | reset

/-- The style that a call puts in the place of the current one. -/
def StylerCall.style : StylerCall → Style
  | .update style => style
  | .reset => .absent

/-- The first of some entries is written and one of the others is refused. -/
def isCutShort (apply : ApplyFunction σ ε) : List (String × Value) → Logged σ → Bool
  | [], _ => false
  | (key, value) :: rest, s =>
    match apply key value s with
    | .error _ _ => false
    | .ok old t =>
      match writeEntries apply .applied rest (Table.empty.set key old)
          ⟨t.state, t.log ++ [.applied key value]⟩ with
      | .ok _ _ => false
      | .error _ _ => true

namespace Styler

/-- Performs a call. -/
def perform (apply : ApplyFunction σ ε) (coercer : Coercer) (p : Styler × Logged σ) :
    StylerCall → Styler × EStateM.Result (ApplyError ε) (Logged σ) Unit
  | .update style => p.1.update apply coercer style p.2
  | .reset => p.1.reset apply coercer p.2

/-- Styler and state after a call, whether it has returned or not. -/
def settle : Styler × EStateM.Result (ApplyError ε) (Logged σ) Unit → Styler × Logged σ
  | (styler, .ok _ s) => (styler, s)
  | (styler, .error _ s) => (styler, s)

/-- Styler and state after some calls. A call that fails does not end the run. -/
def run (apply : ApplyFunction σ ε) (coercer : Coercer) :
    Styler × Logged σ → List StylerCall → Styler × Logged σ
  | p, [] => p
  | p, call :: calls => run apply coercer (settle (perform apply coercer p call)) calls

/-- The update is refused after it has written an entry of its new style. -/
def isInterrupted (apply : ApplyFunction σ ε) (coercer : Coercer) (style : Style)
    (p : Styler × Logged σ) : Bool :=
  match revert apply p.1.oldValues p.2 with
  | .error _ _ => false
  | .ok _ t =>
    match style.read (ε := ε) coercer t with
    | .ok (some m) u => isCutShort apply m.entries u
    | _ => false

/-- No call of a run is interrupted. -/
def runsThrough (apply : ApplyFunction σ ε) (coercer : Coercer) :
    Styler × Logged σ → List StylerCall → Bool
  | _, [] => true
  | p, call :: calls =>
    !isInterrupted apply coercer call.style p &&
      runsThrough apply coercer (settle (perform apply coercer p call)) calls

/-- What the store would be if the values kept by the styler were written back. -/
def original (read : σ → String → Value) (p : Styler × Logged σ) : String → Value :=
  overlay p.1.oldValues (read p.2.state)

theorem runsThrough_of_append {apply : ApplyFunction σ ε} {coercer : Coercer}
    {p : Styler × Logged σ} {before after : List StylerCall}
    (h : runsThrough apply coercer p (before ++ after) = true) :
    runsThrough apply coercer p before = true := by
  induction before generalizing p with
  | nil => rfl
  | cons call before ih =>
    simp only [List.cons_append, runsThrough, Bool.and_eq_true] at h ⊢
    exact ⟨h.1, ih h.2⟩

theorem reset_eq (styler : Styler) (apply : ApplyFunction σ ε) (coercer : Coercer)
    (s : Logged σ) : styler.reset apply coercer s = styler.update apply coercer .absent s := rfl

theorem perform_eq_update (apply : ApplyFunction σ ε) (coercer : Coercer)
    (p : Styler × Logged σ) (call : StylerCall) :
    perform apply coercer p call = p.1.update apply coercer call.style p.2 := by
  cases call <;> rfl

section Restored

variable {valid : σ → Prop} {read : σ → String → Value} {apply : ApplyFunction σ ε}

/-- A complete revert lays the old values over the store. -/
theorem revert_ok (hb : StoreBacked valid read apply) {old : Option (Table Value)}
    {s t : Logged σ} (hv : valid s.state) (h : revert apply old s = .ok () t) :
    valid t.state ∧ read t.state = overlay old (read s.state) := by
  cases old with
  | none =>
    cases h
    exact ⟨hv, rfl⟩
  | some old =>
    rw [revert_some] at h
    cases hw : writeEntries apply .reverted old.entries .empty s with
    | error e u => simp [hw] at h
    | ok written u =>
      simp only [hw, EStateM.Result.ok.injEq, true_and] at h
      subst h
      obtain ⟨hvu, hru, -⟩ := hb.writeEntries_ok hv hw
      exact ⟨hvu, hru.trans (writeAll_entries old _)⟩

/-- A revert that is refused on its way has lost nothing. -/
theorem revert_error (hb : StoreBacked valid read apply) {old : Option (Table Value)}
    {s t : Logged σ} {e : ε} (hv : valid s.state) (h : revert apply old s = .error e t) :
    valid t.state ∧ overlay old (read t.state) = overlay old (read s.state) := by
  cases old with
  | none => cases h
  | some old =>
    rw [revert_some] at h
    cases hw : writeEntries apply .reverted old.entries .empty s with
    | ok written u => simp [hw] at h
    | error e u =>
      simp only [hw, EStateM.Result.error.injEq] at h
      obtain ⟨-, rfl⟩ := h
      obtain ⟨hvu, hru⟩ := hb.writeEntries_error hv hw
      refine ⟨hvu, ?_⟩
      -- The entries written so far are among those that are laid over the store anyway.
      rw [hru]
      exact overlay_writeAll
        (fun e he => Table.get?_of_mem ((writtenEntries_sublist apply _ _ s).mem he)) _

/-- A mapping that is applied to its end can be taken back by the values before. -/
theorem applyMapping_ok (hb : StoreBacked valid read apply) {m : Table Value}
    {old : Option (Table Value)} {s t : Logged σ} (hv : valid s.state)
    (h : applyMapping apply m s = .ok old t) :
    valid t.state ∧ overlay old (read t.state) = read s.state := by
  cases he : m.isEmpty with
  | true =>
    rw [applyMapping_of_isEmpty apply he] at h
    cases h
    exact ⟨hv, rfl⟩
  | false =>
    rw [applyMapping_of_not_isEmpty apply he] at h
    cases hw : writeEntries apply .applied m.entries .empty s with
    | error e u => simp [hw] at h
    | ok written u =>
      simp only [hw, EStateM.Result.ok.injEq] at h
      obtain ⟨rfl, rfl⟩ := h
      obtain ⟨hvu, hru, hold⟩ := hb.writeEntries_ok hv hw
      refine ⟨hvu, ?_⟩
      rw [hru, hold, overlay_displaced m.distinct]

/-- A mapping that is refused, but not cut short, has written nothing. -/
theorem applyMapping_error (hb : StoreBacked valid read apply) {m : Table Value}
    {s t : Logged σ} {e : ε} (hv : valid s.state) (hc : isCutShort apply m.entries s = false)
    (h : applyMapping apply m s = .error e t) :
    valid t.state ∧ read t.state = read s.state := by
  cases he : m.isEmpty with
  | true =>
    rw [applyMapping_of_isEmpty apply he] at h
    cases h
  | false =>
    rw [applyMapping_of_not_isEmpty apply he] at h
    cases hes : m.entries with
    | nil => simp [Table.isEmpty, hes] at he
    | cons f rest =>
      obtain ⟨key, value⟩ := f
      rw [hes, writeEntries_cons] at h
      simp only [hes, isCutShort] at hc
      cases ha : apply key value s with
      | error e' u =>
        simp only [ha, EStateM.Result.error.injEq] at h
        obtain ⟨-, rfl⟩ := h
        exact hb.refused hv ha
      | ok previous u =>
        -- The first key is written, so a refusal after it would have cut the mapping short.
        simp only [ha] at h hc
        cases hw : writeEntries apply .applied rest (Table.empty.set key previous)
            ⟨u.state, u.log ++ [.applied key value]⟩ with
        | ok old v => simp [hw] at h
        | error e' v => simp [hw] at hc

/-- A style that is applied where none is in effect can be taken back, or has written nothing. -/
theorem applyNew_original (hb : StoreBacked valid read apply) (coercer : Coercer) (style : Style)
    {s : Logged σ} (hv : valid s.state)
    (hi : isInterrupted apply coercer style (.new, s) = false) :
    valid (settle (applyNew apply coercer style s)).2.state ∧
      original read (settle (applyNew apply coercer style s)) = read s.state := by
  simp only [isInterrupted, Styler.new, revert_none] at hi
  simp only [applyNew, applyStyle_eq, revert_none]
  -- Reading leaves the store alone; only a mapping that was read is written to it.
  cases hr : style.read (ε := ε) coercer s with
  | error e t =>
    have hst := Style.read_error hr
    exact ⟨hst ▸ hv, by simp [settle, original, hst]⟩
  | ok m t =>
    have hst := Style.read_ok hr
    have hvt : valid t.state := hst ▸ hv
    cases m with
    | none => exact ⟨hvt, by simp [settle, original, hst]⟩
    | some m =>
      simp only [hr] at hi
      cases ha : applyMapping apply m t with
      | ok old u =>
        obtain ⟨hvu, hou⟩ := applyMapping_ok hb hvt ha
        exact ⟨by simpa [ha, settle] using hvu, by simpa [ha, settle, original, hst] using hou⟩
      | error e u =>
        obtain ⟨hvu, hru⟩ := applyMapping_error hb hvt hi ha
        exact ⟨by simpa [ha, settle] using hvu, by simpa [ha, settle, original, hst] using hru⟩

/-- The step of a run: a call that is not interrupted keeps the original values. -/
theorem perform_original (hb : StoreBacked valid read apply) {coercer : Coercer}
    {p : Styler × Logged σ} {call : StylerCall} (hv : valid p.2.state)
    (hi : isInterrupted apply coercer call.style p = false) :
    valid (settle (perform apply coercer p call)).2.state ∧
      original read (settle (perform apply coercer p call)) = original read p := by
  obtain ⟨⟨old⟩, s⟩ := p
  rw [perform_eq_update]
  cases old with
  | none => exact applyNew_original hb coercer call.style hv hi
  | some old =>
    simp only [isInterrupted] at hi
    simp only [update, applyStyle_absent]
    cases hr : revert apply (some old) s with
    | error e t =>
      -- The old values are kept for the next try.
      obtain ⟨hvt, hot⟩ := revert_error hb hv hr
      exact ⟨hvt, hot⟩
    | ok u t =>
      obtain ⟨hvt, hrt⟩ := revert_ok hb hv hr
      simp only [hr] at hi
      obtain ⟨hvn, hon⟩ := applyNew_original hb coercer call.style hvt hi
      exact ⟨hvn, hon.trans hrt⟩

/-- A run that is never interrupted keeps the original values. -/
theorem run_original (hb : StoreBacked valid read apply) {coercer : Coercer}
    {calls : List StylerCall} {p : Styler × Logged σ} (hv : valid p.2.state)
    (hc : runsThrough apply coercer p calls = true) :
    valid (run apply coercer p calls).2.state ∧
      original read (run apply coercer p calls) = original read p := by
  induction calls generalizing p with
  | nil => exact ⟨hv, rfl⟩
  | cons call calls ih =>
    simp only [runsThrough, Bool.and_eq_true, Bool.not_eq_true'] at hc
    obtain ⟨hvs, hos⟩ := perform_original hb hv hc.1
    obtain ⟨hvr, hor⟩ := ih hvs hc.2
    exact ⟨hvr, hor.trans hos⟩

/-- A reset that returns has written all old values back and keeps none. -/
theorem reset_returns (hb : StoreBacked valid read apply) {coercer : Coercer}
    {p : Styler × Logged σ} {styler : Styler} {t : Logged σ} (hv : valid p.2.state)
    (h : p.1.reset apply coercer p.2 = (styler, .ok () t)) :
    styler.oldValues = none ∧ read t.state = original read p := by
  obtain ⟨⟨old⟩, s⟩ := p
  cases old with
  | none =>
    cases h
    exact ⟨rfl, rfl⟩
  | some old =>
    simp only [reset_eq, update, applyStyle_absent] at h
    cases hr : revert apply (some old) s with
    | error e u => simp [hr] at h
    | ok _ u =>
      obtain ⟨-, hru⟩ := revert_ok hb hv hr
      simp only [hr] at h
      cases h
      exact ⟨rfl, hru⟩

/-- **The original values are never lost.** Whatever calls a styler takes, and whichever of their
writes are refused, as long as no call is interrupted: at every point between two calls the store
with the kept values laid over it is the store from before the run, and a reset that returns has
brought that store back. -/
theorem run_keeps_original (hb : StoreBacked valid read apply) (coercer : Coercer)
    (start : Logged σ) (hv : valid start.state) (calls : List StylerCall)
    (hc : runsThrough apply coercer (.new, start) calls = true) :
    (∀ before after, calls = before ++ after →
      original read (run apply coercer (.new, start) before) = read start.state) ∧
    (∀ before after styler t, calls = before ++ .reset :: after →
      perform apply coercer (run apply coercer (.new, start) before) .reset = (styler, .ok () t) →
      styler.oldValues = none ∧ read t.state = read start.state) := by
  constructor
  · rintro before after rfl
    exact (run_original hb hv (runsThrough_of_append hc)).2
  · rintro before after styler t rfl hreset
    obtain ⟨hvr, hor⟩ := run_original hb hv (runsThrough_of_append hc)
    obtain ⟨hnone, hread⟩ := reset_returns hb hvr hreset
    exact ⟨hnone, hread.trans hor⟩

/-- Two keys are styled; the revert is refused at its second write and succeeds when it is tried
again, but the new style cannot be read; the one after that is refused at its first key. -/
theorem run_keeps_original_retried :
    let start : Logged (List Bool × Recorder) :=
      ⟨([false, false, false, true, false, false, true],
        ⟨.ofList [("arc", .whole 1), ("gap", .text "wide")], .empty, []⟩), []⟩
    let apply := onSchedule Recorder.apply (.missing "gap")
    let calls := [.update (.text "gap: 3; arc: 8"), .update .absent, .update (.text "arc"),
      .update (.mapping (.ofList [("arc", .whole 4)])), .reset]
    runsThrough apply .standard (.new, start) calls = true ∧
      original (fun p => p.2.read) (run apply .standard (.new, start) (calls.take 2)) =
        start.state.2.read := by
  intro start apply calls
  have hc : runsThrough apply .standard (.new, start) calls = true := by decide +kernel
  exact ⟨hc, (run_keeps_original (Recorder.storeBacked.onSchedule _) .standard start trivial calls
    hc).1 (calls.take 2) (calls.drop 2) rfl⟩

end Restored

end Styler

end Styling
