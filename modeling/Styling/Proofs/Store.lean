import Mathlib.Logic.Function.Basic
import Styling.Proofs.Apply
import Styling.Proofs.Tables
import Styling.Target

/-!
# Apply functions that keep a store

An apply function is backed by a store when each of its calls either refuses and leaves the store
as it is, or sets its key and gives back the value before (`StoreBacked`). Writing entries through
such a function is writing them to the store, up to the entry that is refused
(`StoreBacked.writeEntries_ok`, `StoreBacked.writeEntries_error`). Two consequences carry the
theory of stylers:

- While entries of a table are written back, the store with that table laid over it does not change
  (`overlay_writeAll`), however far the writing comes.
- The values that a completed application gives back, laid over the store after it, give the store
  before it (`overlay_displaced`).
-/

set_option autoImplicit false

namespace Styling

variable {σ ε : Type}

/-! ## Stores -/

/-- The store after some entries have been written to it in their order. -/
def writeAll : List (String × Value) → (String → Value) → String → Value
  | [], store => store
  | (key, value) :: rest, store => writeAll rest (Function.update store key value)

/-- The store with the values of a table laid over it. -/
def overlay (old : Option (Table Value)) (store : String → Value) (key : String) : Value :=
  (old.bind fun t => t.get? key).getD (store key)

/-- What a store held under the keys of some entries when each of them was written, added to the
values of an earlier table. -/
def displaced : List (String × Value) → Table Value → (String → Value) → Table Value
  | [], old, _ => old
  | (key, value) :: rest, old, store =>
    displaced rest (old.set key (store key)) (Function.update store key value)

@[simp] theorem overlay_none (store : String → Value) : overlay none store = store := rfl

@[simp] theorem overlay_empty (store : String → Value) :
    overlay (some .empty) store = store := rfl

theorem overlay_some_apply (old : Table Value) (store : String → Value) (key : String) :
    overlay (some old) store key = (old.get? key).getD (store key) := rfl

/-- A value that the table has anyway does not show through the table. -/
theorem overlay_update {old : Table Value} {key : String} {value : Value}
    (h : old.get? key = some value) (store : String → Value) :
    overlay (some old) (Function.update store key value) = overlay (some old) store := by
  funext other
  by_cases ho : other = key
  · subst ho
    simp [overlay_some_apply, h]
  · simp [overlay_some_apply, Function.update_of_ne ho]

/-- Entries of a table can be written under it without showing. -/
theorem overlay_writeAll {old : Table Value} {es : List (String × Value)}
    (h : ∀ e ∈ es, old.get? e.1 = some e.2) (store : String → Value) :
    overlay (some old) (writeAll es store) = overlay (some old) store := by
  induction es generalizing store with
  | nil => rfl
  | cons e es ih =>
    obtain ⟨key, value⟩ := e
    rw [writeAll, ih fun e he => h e (List.mem_cons_of_mem _ he)]
    exact overlay_update (h (key, value) List.mem_cons_self) store

/-- A key that no entry has keeps its value. -/
theorem writeAll_of_not_mem {es : List (String × Value)} {key : String}
    (h : key ∉ es.map Prod.fst) (store : String → Value) : writeAll es store key = store key := by
  induction es generalizing store with
  | nil => rfl
  | cons e es ih =>
    obtain ⟨k, v⟩ := e
    simp only [List.map_cons, List.mem_cons, not_or] at h
    rw [writeAll, ih h.2, Function.update_of_ne h.1]

/-- Where the keys are distinct, every entry is there after all have been written. -/
theorem writeAll_of_mem {es : List (String × Value)} (hd : (es.map Prod.fst).Nodup)
    {e : String × Value} (he : e ∈ es) (store : String → Value) :
    writeAll es store e.1 = e.2 := by
  induction es generalizing store with
  | nil => cases he
  | cons f es ih =>
    obtain ⟨k, v⟩ := f
    obtain ⟨hk, hd⟩ := List.nodup_cons.1 hd
    rw [writeAll]
    rcases List.mem_cons.1 he with rfl | he
    · rw [writeAll_of_not_mem hk, Function.update_self]
    · exact ih hd he _

/-- Writing all entries of a table lays it over the store. -/
theorem writeAll_entries (old : Table Value) (store : String → Value) :
    writeAll old.entries store = overlay (some old) store := by
  funext key
  rw [overlay_some_apply]
  cases hg : old.get? key with
  | none =>
    refine writeAll_of_not_mem ?_ store
    intro hk
    have hs := lookupIn_isSome_iff.2 hk
    rw [Table.get?] at hg
    simp [hg] at hs
  | some value => exact writeAll_of_mem old.distinct (Table.mem_of_get? hg) store

/-- The displaced values are those of the store before the writing, since no key comes twice. -/
theorem get?_displaced {es : List (String × Value)} (hd : (es.map Prod.fst).Nodup)
    (acc : Table Value) (store : String → Value) (key : String) :
    (displaced es acc store).get? key =
      if key ∈ es.map Prod.fst then some (store key) else acc.get? key := by
  induction es generalizing acc store with
  | nil => rfl
  | cons e es ih =>
    obtain ⟨first, value⟩ := e
    obtain ⟨hk, hd⟩ := List.nodup_cons.1 hd
    rw [displaced, ih hd]
    by_cases hf : key = first
    · subst hf
      have hk' : ¬ key ∈ es.map Prod.fst := hk
      simp [hk']
    · have hf' : ¬ first = key := fun h => hf h.symm
      simp only [List.map_cons, List.mem_cons, hf, false_or, Function.update_of_ne hf,
        Table.get?_set, hf', if_false]

/-- The displaced values, laid over the store after the writing, give the store before it. -/
theorem overlay_displaced {es : List (String × Value)} (hd : (es.map Prod.fst).Nodup)
    (store : String → Value) :
    overlay (some (displaced es .empty store)) (writeAll es store) = store := by
  funext key
  rw [overlay_some_apply, get?_displaced hd]
  split
  · rfl
  · next hk => exact writeAll_of_not_mem hk store

/-! ## Writing through an apply function -/

/-- An apply function on a store: `read` gives the value of every key, and `valid` holds of the
states in which the function works. A call either refuses and leaves the store as it is, or sets
its key and gives back the value before. -/
structure StoreBacked (valid : σ → Prop) (read : σ → String → Value)
    (apply : ApplyFunction σ ε) : Prop where
  refused {key : String} {value : Value} {s t : Logged σ} {e : ε} :
    valid s.state → apply key value s = .error e t →
      valid t.state ∧ read t.state = read s.state
  written {key : String} {value old : Value} {s t : Logged σ} :
    valid s.state → apply key value s = .ok old t →
      valid t.state ∧ old = read s.state key ∧
        read t.state = Function.update (read s.state) key value

/-- The entries that are written, which are all before the first one that is refused. -/
def writtenEntries (apply : ApplyFunction σ ε) (entry : String → Value → LogEntry) :
    List (String × Value) → Logged σ → List (String × Value)
  | [], _ => []
  | (key, value) :: rest, s =>
    match apply key value s with
    | .error _ _ => []
    | .ok _ t =>
      (key, value) :: writtenEntries apply entry rest ⟨t.state, t.log ++ [entry key value]⟩

theorem writtenEntries_sublist (apply : ApplyFunction σ ε) (entry : String → Value → LogEntry)
    (es : List (String × Value)) (s : Logged σ) : (writtenEntries apply entry es s).Sublist es := by
  induction es generalizing s with
  | nil => exact List.Sublist.slnil
  | cons e es ih =>
    obtain ⟨key, value⟩ := e
    rw [writtenEntries]
    cases apply key value s with
    | error e t => exact List.nil_sublist _
    | ok old t => exact (ih _).cons_cons (key, value)

namespace StoreBacked

variable {valid : σ → Prop} {read : σ → String → Value} {apply : ApplyFunction σ ε}
  {entry : String → Value → LogEntry}

/-- Entries that are all written. -/
theorem writeEntries_ok (hb : StoreBacked valid read apply) {es : List (String × Value)}
    {acc old : Table Value} {s t : Logged σ} (hv : valid s.state)
    (h : writeEntries apply entry es acc s = .ok old t) :
    valid t.state ∧ read t.state = writeAll es (read s.state) ∧
      old = displaced es acc (read s.state) := by
  induction es generalizing acc s with
  | nil =>
    cases h
    exact ⟨hv, rfl, rfl⟩
  | cons e es ih =>
    obtain ⟨key, value⟩ := e
    rw [writeEntries_cons] at h
    cases ha : apply key value s with
    | error e u => simp [ha] at h
    | ok previous u =>
      simp only [ha] at h
      obtain ⟨hvu, rfl, hru⟩ := hb.written hv ha
      -- The rest starts from the store with the first entry in it, and the log does not matter.
      obtain ⟨hvt, hrt, hold⟩ := ih (s := ⟨u.state, u.log ++ [entry key value]⟩) hvu h
      rw [hru] at hrt hold
      exact ⟨hvt, hrt, hold⟩

/-- After a refusal the store has the entries that were written, and no other. -/
theorem writeEntries_error (hb : StoreBacked valid read apply) {es : List (String × Value)}
    {acc : Table Value} {s t : Logged σ} {e : ε} (hv : valid s.state)
    (h : writeEntries apply entry es acc s = .error e t) :
    valid t.state ∧ read t.state = writeAll (writtenEntries apply entry es s) (read s.state) := by
  induction es generalizing acc s with
  | nil => cases h
  | cons f es ih =>
    obtain ⟨key, value⟩ := f
    rw [writeEntries_cons] at h
    rw [writtenEntries]
    cases ha : apply key value s with
    | error e' u =>
      simp only [ha, EStateM.Result.error.injEq] at h
      obtain ⟨-, rfl⟩ := h
      -- Refused at the first entry: none has been written.
      exact hb.refused hv ha
    | ok previous u =>
      simp only [ha] at h
      obtain ⟨hvu, -, hru⟩ := hb.written hv ha
      obtain ⟨hvt, hrt⟩ := ih (s := ⟨u.state, u.log ++ [entry key value]⟩) hvu h
      rw [hrt, hru]
      exact ⟨hvt, rfl⟩

end StoreBacked

/-- An apply function that refuses some of its calls: those at which the schedule, which loses its
head with each call, says so. -/
def onSchedule (apply : ApplyFunction σ ε) (refusal : ε) : ApplyFunction (List Bool × σ) ε :=
  fun key value s =>
    if s.state.1.head? = some true then .error refusal ⟨(s.state.1.tail, s.state.2), s.log⟩
    else onPart Prod.snd (fun t p => (p.1.tail, t)) (apply key value) s

/-- A store stays one when some of its calls are refused. -/
theorem StoreBacked.onSchedule {valid : σ → Prop} {read : σ → String → Value}
    {apply : ApplyFunction σ ε} (hb : StoreBacked valid read apply) (refusal : ε) :
    StoreBacked (fun p => valid p.2) (fun p => read p.2) (onSchedule apply refusal) where
  refused := by
    intro key value s t e hv h
    unfold Styling.onSchedule at h
    split at h
    · cases h
      exact ⟨hv, rfl⟩
    · simp only [onPart] at h
      cases ha : apply key value ⟨s.state.2, s.log⟩ with
      | ok old u => simp [ha] at h
      | error e' u =>
        simp only [ha, EStateM.Result.error.injEq] at h
        obtain ⟨-, rfl⟩ := h
        exact hb.refused hv ha
  written := by
    intro key value old s t hv h
    unfold Styling.onSchedule at h
    split at h
    · cases h
    · simp only [onPart] at h
      cases ha : apply key value ⟨s.state.2, s.log⟩ with
      | error e' u => simp [ha] at h
      | ok old' u =>
        simp only [ha, EStateM.Result.ok.injEq] at h
        obtain ⟨rfl, rfl⟩ := h
        exact hb.written hv ha

/-! ## Recorders -/

/-- The value that a recorder holds for a key, null if it has none. -/
def Recorder.read (r : Recorder) (key : String) : Value := (r.values.get? key).getD .null

theorem Recorder.storeBacked : StoreBacked (fun _ => True) Recorder.read Recorder.apply where
  refused := by
    intro key value s t e _ h
    refine ⟨trivial, ?_⟩
    unfold Recorder.apply at h
    split at h
    · cases h
      rfl
    · cases h
  written := by
    intro key value old s t _ h
    refine ⟨trivial, ?_⟩
    unfold Recorder.apply at h
    split at h
    · cases h
    · cases h
      refine ⟨rfl, ?_⟩
      funext other
      by_cases ho : other = key
      · subst ho
        simp [Recorder.read]
      · have ho' : ¬ key = other := fun h => ho h.symm
        simp [Recorder.read, Function.update_of_ne ho, ho']

end Styling
