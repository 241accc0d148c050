import Styling.Apply

/-!
# Applying a style, step by step

The steps of `applyStyle` opened: each equation says how the result of a step follows from the
results of the steps inside it. Reading a style adds to the log and never changes the state
(`Style.read_ok`, `Style.read_error`), so whatever a style does to its target it does by writing
entries.
-/

set_option autoImplicit false

namespace Styling

variable {σ ε : Type} (apply : ApplyFunction σ ε)

theorem report_eq (entries : List LogEntry) (s : Logged σ) :
    report (ε := ε) entries s = .ok () ⟨s.state, s.log ++ entries⟩ := rfl

/-- The first of some entries is written before the rest of them, with a log entry in between. -/
theorem writeEntries_cons (entry : String → Value → LogEntry) (key : String) (value : Value)
    (rest : List (String × Value)) (old : Table Value) (s : Logged σ) :
    writeEntries apply entry ((key, value) :: rest) old s =
      match apply key value s with
      | .ok previous t =>
        writeEntries apply entry rest (old.set key previous)
          ⟨t.state, t.log ++ [entry key value]⟩
      | .error e t => .error e t := by
  simp only [writeEntries, bind, EStateM.bind, report_eq]
  cases apply key value s <;> rfl

theorem revert_none (s : Logged σ) : revert apply none s = .ok () s := rfl

theorem revert_some (old : Table Value) (s : Logged σ) :
    revert apply (some old) s =
      match writeEntries apply .reverted old.entries .empty s with
      | .ok _ t => .ok () t
      | .error e t => .error e t := by
  simp only [revert, bind, EStateM.bind]
  cases writeEntries apply .reverted old.entries .empty s <;> rfl

theorem applyMapping_of_isEmpty {m : Table Value} (h : m.isEmpty = true) (s : Logged σ) :
    applyMapping apply m s = .ok none s := by
  simp only [applyMapping, h, if_true]
  rfl

theorem applyMapping_of_not_isEmpty {m : Table Value} (h : m.isEmpty = false) (s : Logged σ) :
    applyMapping apply m s =
      match writeEntries apply .applied m.entries .empty s with
      | .ok old t => .ok (some old) t
      | .error e t => .error e t := by
  simp only [applyMapping, h, Bool.false_eq_true, if_false, bind, EStateM.bind]
  cases writeEntries apply .applied m.entries .empty s <;> rfl

/-- What a style says is applied after the revert is complete. -/
theorem applyStyle_eq (coercer : Coercer) (old : Option (Table Value)) (style : Style)
    (s : Logged σ) :
    applyStyle apply coercer old style s =
      match revert apply old s with
      | .error e t => .error (.target e) t
      | .ok _ t =>
        match style.read coercer t with
        | .error e u => .error e u
        | .ok none u => .ok none u
        | .ok (some m) u =>
          match applyMapping apply m u with
          | .ok old v => .ok old v
          | .error e v => .error (.target e) v := by
  simp only [applyStyle, bind, EStateM.bind, EStateM.adaptExcept]
  -- The three steps in their order; each failure ends the whole.
  cases revert apply old s with
  | error e t => rfl
  | ok _ t =>
    simp only
    cases style.read (ε := ε) coercer t with
    | error e u => rfl
    | ok m u =>
      cases m with
      | none => rfl
      | some m =>
        cases hm : applyMapping apply m u <;> simp [EStateM.adaptExcept, hm]

theorem applyStyle_absent (coercer : Coercer) (old : Option (Table Value)) (s : Logged σ) :
    applyStyle apply coercer old .absent s =
      match revert apply old s with
      | .error e t => .error (.target e) t
      | .ok _ t => .ok none t := by
  rw [applyStyle_eq]
  rfl

theorem applyStyle_mapping (coercer : Coercer) (m : Table Value) (s : Logged σ) :
    applyStyle apply coercer none (.mapping m) s =
      match applyMapping apply m s with
      | .ok old t => .ok old t
      | .error e t => .error (.target e) t := by
  rw [applyStyle_eq]
  rfl

/-- A text is read after the references in it have been logged. -/
theorem Style.read_text (coercer : Coercer) (x : String) (s : Logged σ) :
    (Style.text x).read (ε := ε) coercer s =
      match coercer.readText x.toList with
      | .ok m => .ok m ⟨s.state, s.log ++ coercer.references x.toList⟩
      | .error e => .error (.read e) ⟨s.state, s.log ++ coercer.references x.toList⟩ := by
  simp only [Style.read, bind, EStateM.bind, report_eq]
  cases coercer.readText x.toList <;> rfl

theorem Style.read_ok {coercer : Coercer} {style : Style} {m : Option (Table Value)}
    {s t : Logged σ} (h : style.read (ε := ε) coercer s = .ok m t) : t.state = s.state := by
  cases style with
  | absent => cases h; rfl
  | mapping m => cases h; rfl
  | unsupported kind => cases h; rfl
  | text x =>
    rw [Style.read_text] at h
    cases hr : coercer.readText x.toList with
    | ok style => rw [hr] at h; cases h; rfl
    | error e => rw [hr] at h; cases h

theorem Style.read_error {coercer : Coercer} {style : Style} {e : ApplyError ε}
    {s t : Logged σ} (h : style.read coercer s = .error e t) : t.state = s.state := by
  cases style with
  | absent => cases h
  | mapping m => cases h
  | unsupported kind => cases h
  | text x =>
    rw [Style.read_text] at h
    cases hr : coercer.readText x.toList with
    | ok style => rw [hr] at h; cases h
    | error e => rw [hr] at h; cases h; rfl

end Styling
