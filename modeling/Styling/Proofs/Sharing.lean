import Styling.Proofs.Calls
import Styling.Proofs.Styler

/-!
# Stylers that share a store

Several stylers write to one store that refuses nothing, one call after the other and in any order.
A call of a styler then always does the same: it writes the values back that the styler keeps, and
then the entries of the new style (`Styler.perform_answered`). Both concern keys of its own styles
only. So where no two stylers have a key in common, the run of all stylers and the runs of each of
them alone stay apart (`Styler.Apart`): the step is `Styler.Apart.performOne`, the run
`Styler.Apart.runAll`. The main statement is `Styler.runAll_apart`.
-/

set_option autoImplicit false

namespace Styling

variable {σ ε : Type}

/-! ## Two stores that agree at some keys -/

theorem writeAll_congr {es : List (String × Value)} {first second : String → Value} {key : String}
    (h : first key = second key) : writeAll es first key = writeAll es second key := by
  induction es generalizing first second with
  | nil => exact h
  | cons e es ih =>
    obtain ⟨k, v⟩ := e
    refine ih ?_
    by_cases hk : key = k
    · subst hk
      rw [Function.update_self, Function.update_self]
    · rw [Function.update_of_ne hk, Function.update_of_ne hk, h]

/-- The displaced values depend on what the store holds under the keys that are written. -/
theorem displaced_congr {es : List (String × Value)} {first second : String → Value}
    (h : ∀ e ∈ es, first e.1 = second e.1) (acc : Table Value) :
    displaced es acc first = displaced es acc second := by
  induction es generalizing acc first second with
  | nil => rfl
  | cons e es ih =>
    obtain ⟨key, value⟩ := e
    rw [displaced, displaced, h (key, value) List.mem_cons_self]
    refine ih (fun d hd => ?_) _
    -- The write of the first entry keeps the agreement, also under its own key.
    by_cases hk : d.1 = key
    · rw [hk, Function.update_self, Function.update_self]
    · rw [Function.update_of_ne hk, Function.update_of_ne hk, h d (List.mem_cons_of_mem _ hd)]

theorem overlay_congr {old : Option (Table Value)} {first second : String → Value} {key : String}
    (h : first key = second key) : overlay old first key = overlay old second key := by
  rw [overlay, overlay, h]

/-- A key that is not kept shows the store through the kept values. -/
theorem overlay_of_not_mem {old : Option (Table Value)} {key : String}
    (h : key ∉ (entriesOf old).map Prod.fst) (store : String → Value) :
    overlay old store key = store key := by
  cases old with
  | none => rfl
  | some old =>
    have hnone : old.get? key = none := by
      rw [← Option.not_isSome_iff_eq_none, Table.get?, lookupIn_isSome_iff]
      exact h
    rw [overlay_some_apply, hnone, Option.getD_none]

/-! ## Stores that refuse nothing -/

/-- Every call in a valid state returns. -/
def NeverRefuses (valid : σ → Prop) (apply : ApplyFunction σ ε) : Prop :=
  ∀ (key : String) (value : Value) (s : Logged σ), valid s.state →
    ∃ old t, apply key value s = .ok old t

theorem NeverRefuses.writeEntries {valid : σ → Prop} {read : σ → String → Value}
    {apply : ApplyFunction σ ε} (hn : NeverRefuses valid apply)
    (hb : StoreBacked valid read apply) (entry : String → Value → LogEntry)
    (es : List (String × Value)) (acc : Table Value) {s : Logged σ} (hv : valid s.state) :
    ∃ old t, Styling.writeEntries apply entry es acc s = .ok old t := by
  induction es generalizing acc s with
  | nil => exact ⟨acc, s, rfl⟩
  | cons e es ih =>
    obtain ⟨key, value⟩ := e
    obtain ⟨previous, t, ht⟩ := hn key value s hv
    obtain ⟨hvt, -, -⟩ := hb.written hv ht
    rw [writeEntries_cons, ht]
    exact ih _ (s := ⟨t.state, t.log ++ [entry key value]⟩) hvt

/-- A recorder that refuses no key. -/
def Recorder.IsOpen (r : Recorder) : Prop := r.refusals = .empty

theorem Recorder.apply_of_isOpen (key : String) (value : Value) {s : Logged Recorder}
    (h : s.state.IsOpen) :
    ∃ old t, Recorder.apply key value s = .ok old t ∧ t.state.IsOpen := by
  have hnone : s.state.refusals.get? key = none := by
    rw [show s.state.refusals = .empty from h, Table.get?_empty]
  unfold Recorder.apply
  rw [hnone]
  exact ⟨_, _, rfl, h⟩

theorem Recorder.neverRefuses : NeverRefuses Recorder.IsOpen Recorder.apply := by
  intro key value s h
  obtain ⟨old, t, ht, -⟩ := Recorder.apply_of_isOpen key value h
  exact ⟨old, t, ht⟩

theorem Recorder.storeBacked_isOpen :
    StoreBacked Recorder.IsOpen Recorder.read Recorder.apply where
  refused := by
    intro key value s t e h he
    obtain ⟨old, u, hu, -⟩ := Recorder.apply_of_isOpen key value h
    cases he.symm.trans hu
  written := by
    intro key value old s t h ho
    obtain ⟨old', u, hu, hopen⟩ := Recorder.apply_of_isOpen key value h
    cases hu.symm.trans ho
    exact ⟨hopen, (Recorder.storeBacked.written trivial ho).2⟩

/-- The values that are kept after entries have been written: what the store held before under
their keys, if there are entries at all. -/
def keptAfter (es : List (String × Value)) (store : String → Value) : Option (Table Value) :=
  if es.isEmpty then none else some (displaced es .empty store)

/-- The kept values take the entries back. -/
theorem overlay_keptAfter {es : List (String × Value)} (hd : (es.map Prod.fst).Nodup)
    (store : String → Value) : overlay (keptAfter es store) (writeAll es store) = store := by
  cases es with
  | nil => rfl
  | cons e es => exact overlay_displaced hd store

theorem keptAfter_congr {es : List (String × Value)} {first second : String → Value}
    (h : ∀ e ∈ es, first e.1 = second e.1) : keptAfter es first = keptAfter es second := by
  rw [keptAfter, keptAfter, displaced_congr h]

/-- Only keys of the entries are kept. -/
theorem mem_of_mem_keptAfter {es : List (String × Value)} (hd : (es.map Prod.fst).Nodup)
    {store : String → Value} {key : String}
    (h : key ∈ (entriesOf (keptAfter es store)).map Prod.fst) : key ∈ es.map Prod.fst := by
  cases es with
  | nil => exact absurd h List.not_mem_nil
  | cons e es =>
    have hs : ((displaced (e :: es) .empty store).get? key).isSome = true :=
      lookupIn_isSome_iff.2 h
    rw [get?_displaced hd] at hs
    by_contra hk
    rw [if_neg hk] at hs
    exact absurd hs (by simp)

theorem Style.nodup_newEntries (coercer : Coercer) (style : Style) :
    ((style.newEntries coercer).map Prod.fst).Nodup := by
  rw [Style.newEntries]
  cases style.reading coercer with
  | error e => exact List.nodup_nil
  | ok m =>
    cases m with
    | none => exact List.nodup_nil
    | some m => exact m.distinct

namespace Styler

/-! ## One call -/

/-- What a styler does after its old values have been written back. -/
theorem update_of_revert {styler : Styler} {apply : ApplyFunction σ ε} {s t : Logged σ}
    (h : revert apply styler.oldValues s = .ok () t) (coercer : Coercer) (style : Style) :
    styler.update apply coercer style s = applyNew apply coercer style t := by
  obtain ⟨old⟩ := styler
  cases old with
  | none =>
    cases h
    rfl
  | some old => simp only [update, applyStyle_absent, h]

section Answered

variable {valid : σ → Prop} {read : σ → String → Value} {apply : ApplyFunction σ ε}

theorem revert_answered (hb : StoreBacked valid read apply) (hn : NeverRefuses valid apply)
    (old : Option (Table Value)) {s : Logged σ} (hv : valid s.state) :
    ∃ t, revert apply old s = .ok () t := by
  cases old with
  | none => exact ⟨s, rfl⟩
  | some old =>
    obtain ⟨written, t, ht⟩ := hn.writeEntries hb .reverted old.entries .empty hv
    exact ⟨t, by rw [revert_some, ht]⟩

/-- A new style that cannot be refused: its entries are written, and the values before are kept. -/
theorem applyNew_answered (hb : StoreBacked valid read apply) (hn : NeverRefuses valid apply)
    (coercer : Coercer) (style : Style) {s : Logged σ} (hv : valid s.state) :
    valid (settle (applyNew apply coercer style s)).2.state ∧
      (settle (applyNew apply coercer style s)).1.oldValues =
        keptAfter (style.newEntries coercer) (read s.state) ∧
      read (settle (applyNew apply coercer style s)).2.state =
        writeAll (style.newEntries coercer) (read s.state) := by
  obtain ⟨t, ht⟩ := makes_read (ε := ε) (η := ε) coercer style s
  have hread := ht.plain
  simp only [applyNew, applyStyle_eq, revert_none, Style.newEntries]
  cases hm : style.reading coercer with
  | error e =>
    rw [hm] at hread
    change style.read coercer s = .error (.read e) t at hread
    have hst := Style.read_error hread
    simp only [hread]
    exact ⟨hst ▸ hv, rfl, congrArg read hst⟩
  | ok m =>
    rw [hm] at hread
    change style.read coercer s = .ok m t at hread
    have hst := Style.read_ok hread
    have hvt : valid t.state := hst ▸ hv
    simp only [hread]
    cases m with
    | none => exact ⟨hvt, rfl, congrArg read hst⟩
    | some m =>
      simp only [entriesOf]
      cases he : m.isEmpty with
      | true =>
        have hnil : m.entries = [] := by simpa [Table.isEmpty] using he
        rw [applyMapping_of_isEmpty apply he, hnil]
        exact ⟨hvt, rfl, congrArg read hst⟩
      | false =>
        obtain ⟨old, u, hu⟩ := hn.writeEntries hb .applied m.entries .empty hvt
        obtain ⟨hvu, hru, hold⟩ := hb.writeEntries_ok hvt hu
        rw [applyMapping_of_not_isEmpty apply he, hu, ← hst]
        refine ⟨hvu, ?_, hru⟩
        have hne : m.entries.isEmpty = false := he
        rw [keptAfter, hne, hold]
        rfl

/-- **One call where nothing is refused.** The values that the styler keeps are written back, and
then the entries of the new style are written. A text that cannot be read has no entries. -/
theorem perform_answered (hb : StoreBacked valid read apply) (hn : NeverRefuses valid apply)
    (coercer : Coercer) {p : Styler × Logged σ} (call : StylerCall) (hv : valid p.2.state) :
    valid (settle (perform apply coercer p call)).2.state ∧
      (settle (perform apply coercer p call)).1.oldValues =
        keptAfter (call.style.newEntries coercer) (original read p) ∧
      read (settle (perform apply coercer p call)).2.state =
        writeAll (call.style.newEntries coercer) (original read p) := by
  obtain ⟨t, ht⟩ := revert_answered hb hn p.1.oldValues hv
  obtain ⟨hvt, hrt⟩ := revert_ok hb hv ht
  rw [perform_eq_update, update_of_revert ht, original, ← hrt]
  exact applyNew_answered hb hn coercer call.style hvt

/-- A call changes values under the keys that are kept and under those of the new style only. -/
theorem perform_frame (hb : StoreBacked valid read apply) (hn : NeverRefuses valid apply)
    (coercer : Coercer) {p : Styler × Logged σ} (call : StylerCall) (hv : valid p.2.state)
    {key : String} (hkept : key ∉ (entriesOf p.1.oldValues).map Prod.fst)
    (hnew : key ∉ (call.style.newEntries coercer).map Prod.fst) :
    read (settle (perform apply coercer p call)).2.state key = read p.2.state key := by
  obtain ⟨-, -, hread⟩ := perform_answered hb hn coercer call hv
  rw [hread, writeAll_of_not_mem hnew]
  exact overlay_of_not_mem hkept _

/-- A call does the same for one styler on two stores that agree under the keys of the new style,
and keeps every agreement between the two. -/
theorem perform_congr (hb : StoreBacked valid read apply) (hn : NeverRefuses valid apply)
    (coercer : Coercer) {p r : Styler × Logged σ} (call : StylerCall) (hvp : valid p.2.state)
    (hvr : valid r.2.state) (hs : p.1 = r.1)
    (h : ∀ key ∈ (call.style.newEntries coercer).map Prod.fst,
      read p.2.state key = read r.2.state key) :
    (settle (perform apply coercer p call)).1 = (settle (perform apply coercer r call)).1 ∧
      ∀ key, read p.2.state key = read r.2.state key →
        read (settle (perform apply coercer p call)).2.state key =
          read (settle (perform apply coercer r call)).2.state key := by
  obtain ⟨-, holdp, hreadp⟩ := perform_answered hb hn coercer call hvp
  obtain ⟨-, holdr, hreadr⟩ := perform_answered hb hn coercer call hvr
  have horiginal (key : String) (hk : read p.2.state key = read r.2.state key) :
      original read p key = original read r key := by
    rw [original, original, hs]
    exact overlay_congr hk
  constructor
  · refine congrArg Styler.mk (holdp.trans (Eq.trans ?_ holdr.symm))
    exact keptAfter_congr fun e he => horiginal e.1 (h e.1 (List.mem_map_of_mem he))
  · intro key hk
    rw [hreadp, hreadr]
    exact writeAll_congr (horiginal key hk)

/-- A run where nothing is refused keeps the original values. -/
theorem run_answered (hb : StoreBacked valid read apply) (hn : NeverRefuses valid apply)
    (coercer : Coercer) (calls : List StylerCall) {p : Styler × Logged σ} (hv : valid p.2.state) :
    valid (run apply coercer p calls).2.state ∧
      original read (run apply coercer p calls) = original read p := by
  induction calls generalizing p with
  | nil => exact ⟨hv, rfl⟩
  | cons call calls ih =>
    obtain ⟨hvq, hold, hread⟩ := perform_answered hb hn coercer call hv
    have hq : original read (settle (perform apply coercer p call)) = original read p := by
      rw [original, hold, hread]
      exact overlay_keptAfter (Style.nodup_newEntries coercer call.style) _
    obtain ⟨hvr, hr⟩ := ih hvq
    exact ⟨hvr, hr.trans hq⟩

theorem run_append (apply : ApplyFunction σ ε) (coercer : Coercer) (p : Styler × Logged σ)
    (before after : List StylerCall) :
    run apply coercer p (before ++ after) =
      run apply coercer (run apply coercer p before) after := by
  induction before generalizing p with
  | nil => rfl
  | cons call before ih => exact ih _

/-- A styler keeps nothing before its first call, and nothing after a reset. -/
theorem run_of_reset (hb : StoreBacked valid read apply) (hn : NeverRefuses valid apply)
    (coercer : Coercer) {start : Logged σ} (hv : valid start.state) {calls : List StylerCall}
    (hlast : ∀ call ∈ calls.getLast?, call = .reset) :
    (run apply coercer (.new, start) calls).1 = .new := by
  cases hl : calls.getLast? with
  | none =>
    rw [List.getLast?_eq_none_iff.1 hl]
    rfl
  | some call =>
    obtain rfl := hlast call hl
    obtain ⟨before, rfl⟩ := List.getLast?_eq_some_iff.1 hl
    obtain ⟨hvb, -⟩ := run_answered hb hn coercer before (p := (.new, start)) hv
    obtain ⟨-, hold, -⟩ := perform_answered hb hn coercer .reset hvb
    rw [run_append]
    exact congrArg Styler.mk hold

end Answered

/-! ## Runs of several stylers -/

section Sharing

variable {ι : Type} [DecidableEq ι]

/-- One of some stylers performs a call on the state that they share. -/
def performOne (apply : ApplyFunction σ ε) (coercers : ι → Coercer)
    (p : (ι → Styler) × Logged σ) (call : ι × StylerCall) : (ι → Styler) × Logged σ :=
  let q := settle (perform apply (coercers call.1) (p.1 call.1, p.2) call.2)
  (Function.update p.1 call.1 q.1, q.2)

/-- The stylers and their state after some calls, each of one of them. -/
def runAll (apply : ApplyFunction σ ε) (coercers : ι → Coercer) (p : (ι → Styler) × Logged σ)
    (calls : List (ι × StylerCall)) : (ι → Styler) × Logged σ :=
  calls.foldl (performOne apply coercers) p

theorem performOne_self (apply : ApplyFunction σ ε) (coercers : ι → Coercer)
    (p : (ι → Styler) × Logged σ) (i : ι) (call : StylerCall) :
    (performOne apply coercers p (i, call)).1 i =
      (settle (perform apply (coercers i) (p.1 i, p.2) call)).1 :=
  Function.update_self ..

theorem performOne_of_ne {i j : ι} (h : j ≠ i) (apply : ApplyFunction σ ε)
    (coercers : ι → Coercer) (p : (ι → Styler) × Logged σ) (call : StylerCall) :
    (performOne apply coercers p (i, call)).1 j = p.1 j :=
  Function.update_of_ne h ..

/-- The calls of one styler, in their order. -/
def callsOf (i : ι) (calls : List (ι × StylerCall)) : List StylerCall :=
  (calls.filter fun call => call.1 = i).map Prod.snd

/-- The keys of the styles that a styler is given. -/
def keysOf (coercers : ι → Coercer) (calls : List (ι × StylerCall)) (i : ι) : List String :=
  (callsOf i calls).flatMap fun call => (call.style.newEntries (coercers i)).map Prod.fst

theorem mem_keysOf {coercers : ι → Coercer} {calls : List (ι × StylerCall)}
    {call : ι × StylerCall} (h : call ∈ calls) {key : String}
    (hk : key ∈ (call.2.style.newEntries (coercers call.1)).map Prod.fst) :
    key ∈ keysOf coercers calls call.1 := by
  refine List.mem_flatMap.2 ⟨call.2, List.mem_map.2 ⟨call, ?_, rfl⟩, hk⟩
  exact List.mem_filter.2 ⟨h, decide_eq_true rfl⟩

theorem callsOf_cons_self (call : ι × StylerCall) (calls : List (ι × StylerCall)) :
    callsOf call.1 (call :: calls) = call.2 :: callsOf call.1 calls := by
  simp [callsOf]

theorem callsOf_cons_of_ne {i : ι} {call : ι × StylerCall} (h : i ≠ call.1)
    (calls : List (ι × StylerCall)) : callsOf i (call :: calls) = callsOf i calls := by
  simp [callsOf, h.symm]

/-- The run of all stylers beside the runs of each of them alone. The stylers are in the same state
in both, keep values of their own keys, and find the same values under all keys but those of the
other stylers. -/
structure Apart (valid : σ → Prop) (read : σ → String → Value) (keys : ι → List String)
    (joint : (ι → Styler) × Logged σ) (alone : ι → Styler × Logged σ) : Prop where
  jointValid : valid joint.2.state
  aloneValid : ∀ i, valid (alone i).2.state
  styler : ∀ i, joint.1 i = (alone i).1
  kept : ∀ i, ∀ key ∈ (entriesOf (joint.1 i).oldValues).map Prod.fst, key ∈ keys i
  value : ∀ i key, (∀ j, j ≠ i → key ∉ keys j) →
    read joint.2.state key = read (alone i).2.state key

variable {valid : σ → Prop} {read : σ → String → Value} {apply : ApplyFunction σ ε}
  {coercers : ι → Coercer} {keys : ι → List String} {joint : (ι → Styler) × Logged σ}
  {alone : ι → Styler × Logged σ}

/-- A call of one styler is made in the run of all and in its own run. -/
theorem Apart.performOne (h : Apart valid read keys joint alone)
    (hb : StoreBacked valid read apply) (hn : NeverRefuses valid apply)
    (hkeys : ∀ i j, i ≠ j → ∀ key ∈ keys i, key ∉ keys j) {call : ι × StylerCall}
    (hcall : ∀ key ∈ (call.2.style.newEntries (coercers call.1)).map Prod.fst, key ∈ keys call.1) :
    Apart valid read keys (Styler.performOne apply coercers joint call)
      (Function.update alone call.1
        (settle (perform apply (coercers call.1) (alone call.1) call.2))) := by
  obtain ⟨i, call⟩ := call
  have hd := Style.nodup_newEntries (coercers i) call.style
  have hvj : valid (joint.1 i, joint.2).2.state := h.jointValid
  obtain ⟨hvq, hold, -⟩ := perform_answered hb hn (coercers i) call hvj
  obtain ⟨hvr, -, -⟩ := perform_answered hb hn (coercers i) call (h.aloneValid i)
  obtain ⟨hsame, hvalue⟩ := perform_congr hb hn (coercers i) call hvj (h.aloneValid i)
    (h.styler i) fun key hk =>
      h.value i key fun j hj => hkeys i j (Ne.symm hj) key (hcall key hk)
  refine ⟨hvq, fun j => ?_, fun j => ?_, fun j key hk => ?_, fun j key hk => ?_⟩
  · by_cases hj : j = i
    · subst hj
      rwa [Function.update_self]
    · rw [Function.update_of_ne hj]
      exact h.aloneValid j
  · by_cases hj : j = i
    · subst hj
      rw [Function.update_self, performOne_self]
      exact hsame
    · rw [Function.update_of_ne hj, performOne_of_ne hj]
      exact h.styler j
  · by_cases hj : j = i
    · subst hj
      rw [performOne_self, hold] at hk
      exact hcall key (mem_of_mem_keptAfter hd hk)
    · rw [performOne_of_ne hj] at hk
      exact h.kept j key hk
  · by_cases hj : j = i
    · subst hj
      rw [Function.update_self]
      exact hvalue key (h.value j key hk)
    · -- Neither the kept values nor the entries of the one styler have a key of the other.
      have hi : key ∉ keys i := hk i (Ne.symm hj)
      rw [Function.update_of_ne hj, ← h.value j key hk]
      exact perform_frame hb hn (coercers i) call hvj (fun hm => hi (h.kept i key hm))
        fun hm => hi (hcall key hm)

/-- The calls of a run in their order, and those of each styler in its own run. -/
theorem Apart.runAll (h : Apart valid read keys joint alone) (hb : StoreBacked valid read apply)
    (hn : NeverRefuses valid apply) (hkeys : ∀ i j, i ≠ j → ∀ key ∈ keys i, key ∉ keys j)
    {calls : List (ι × StylerCall)}
    (hcalls : ∀ call ∈ calls,
      ∀ key ∈ (call.2.style.newEntries (coercers call.1)).map Prod.fst, key ∈ keys call.1) :
    Apart valid read keys (Styler.runAll apply coercers joint calls)
      fun i => run apply (coercers i) (alone i) (callsOf i calls) := by
  induction calls generalizing joint alone with
  | nil => exact h
  | cons call calls ih =>
    have hstep := h.performOne hb hn hkeys (hcalls call List.mem_cons_self)
    have hrest := ih hstep fun c hc => hcalls c (List.mem_cons_of_mem call hc)
    refine cast (congrArg _ (funext fun i => ?_)) hrest
    by_cases hi : i = call.1
    · subst hi
      rw [Function.update_self, callsOf_cons_self, run]
    · rw [Function.update_of_ne hi, callsOf_cons_of_ne hi]

omit [DecidableEq ι] in
theorem Apart.start (keys : ι → List String) {start : Logged σ} (hv : valid start.state) :
    Apart valid read keys (fun _ => .new, start) fun _ => (.new, start) where
  jointValid := hv
  aloneValid _ := hv
  styler _ := rfl
  kept _ _ hk := absurd hk List.not_mem_nil
  value _ _ _ := rfl

/-- **Stylers on separate keys do not disturb each other.** Some stylers share a store that refuses
nothing, and no key is in the styles of two of them; texts that cannot be read are allowed, and have
no keys. At every point of a run, in particular after each call of a styler, the styler keeps the
same values, and its keys have the same values, as in the run of its own calls alone. Once the last
call of every styler is a reset, whatever their order, the store is the one from before the run. -/
theorem runAll_apart (hb : StoreBacked valid read apply) (hn : NeverRefuses valid apply)
    (coercers : ι → Coercer) {start : Logged σ} (hv : valid start.state)
    {calls : List (ι × StylerCall)}
    (hkeys : ∀ i j, i ≠ j → ∀ key ∈ keysOf coercers calls i, key ∉ keysOf coercers calls j)
    {before after : List (ι × StylerCall)} (hcalls : calls = before ++ after) :
    let joint := runAll apply coercers (fun _ => .new, start) before
    (∀ i,
      let alone := run apply (coercers i) (.new, start) (callsOf i before)
      (joint.1 i).oldValues = alone.1.oldValues ∧
        ∀ key ∈ keysOf coercers calls i, read joint.2.state key = read alone.2.state key) ∧
    ((∀ i, ∀ call ∈ (callsOf i before).getLast?, call = .reset) →
      read joint.2.state = read start.state) := by
  intro joint
  have hbefore : ∀ call ∈ before, ∀ key ∈ (call.2.style.newEntries (coercers call.1)).map Prod.fst,
      key ∈ keysOf coercers calls call.1 := fun call hc _ hk =>
    mem_keysOf (hcalls ▸ List.mem_append_left after hc) hk
  have hstart : Apart valid read (keysOf coercers calls) (fun _ => .new, start) fun _ =>
      (.new, start) := .start _ hv
  have h := hstart.runAll hb hn hkeys hbefore
  have hother {i : ι} {key : String} (hk : key ∈ keysOf coercers calls i) (j : ι) (hj : j ≠ i) :
      key ∉ keysOf coercers calls j := hkeys i j (Ne.symm hj) key hk
  refine ⟨fun i => ⟨congrArg Styler.oldValues (h.styler i), fun key hk => ?_⟩, fun hlast => ?_⟩
  · exact h.value i key (hother hk)
  · funext key
    -- A styler whose own run shows the key: the one that has it, or any if none has.
    have hshown (i : ι) (hi : ∀ j, j ≠ i → key ∉ keysOf coercers calls j) :
        read joint.2.state key = read start.state key := by
      obtain ⟨-, horiginal⟩ := run_answered hb hn (coercers i) (callsOf i before)
        (p := (.new, start)) hv
      rw [original, run_of_reset hb hn (coercers i) hv (hlast i)] at horiginal
      exact (h.value i key hi).trans (congrFun horiginal key)
    by_cases hk : ∃ i, key ∈ keysOf coercers calls i
    · obtain ⟨i, hi⟩ := hk
      exact hshown i (hother hi)
    · cases before with
      | nil => rfl
      | cons call before => exact hshown call.1 fun j _ hj => hk ⟨j, hj⟩

/-- Two stylers by turns. One of them is given a text that cannot be read while the style of the
other is in place, and is reset before it. -/
theorem runAll_apart_interleaved :
    let start : Logged Recorder := ⟨⟨.ofList [("arc", .whole 1)], .empty, []⟩, []⟩
    let coercers : Bool → Coercer := fun _ => .standard
    let calls : List (Bool × StylerCall) :=
      [(false, .update (.text "arc: 8; gap: 2")), (true, .update (.text "titleColor: #f80")),
        (false, .update (.text "arc")), (true, .update (.mapping (.ofList [("size", .null)]))),
        (false, .update (.text "gap: 5")), (false, .reset), (true, .reset)]
    (∀ i j, i ≠ j → ∀ key ∈ keysOf coercers calls i, key ∉ keysOf coercers calls j) ∧
    ((runAll Recorder.apply coercers (fun _ => .new, start) (calls.take 5)).1 false).oldValues =
      (run Recorder.apply (coercers false) (.new, start)
        (callsOf false (calls.take 5))).1.oldValues ∧
    (∀ i, ∀ call ∈ (callsOf i calls).getLast?, call = .reset) ∧
    Recorder.read (runAll Recorder.apply coercers (fun _ => .new, start) calls).2.state =
      Recorder.read start.state := by
  intro start coercers calls
  have hkeys : ∀ i j, i ≠ j →
      ∀ key ∈ keysOf coercers calls i, key ∉ keysOf coercers calls j := by
    decide +kernel
  have hlast : ∀ i, ∀ call ∈ (callsOf i calls).getLast?, call = .reset := by
    intro i call hc
    cases i <;> exact (Option.some.inj hc).symm
  have hv : start.state.IsOpen := rfl
  have hall {before after : List (Bool × StylerCall)} (h : calls = before ++ after) :=
    runAll_apart Recorder.storeBacked_isOpen Recorder.neverRefuses coercers hv hkeys h
  exact ⟨hkeys, ((hall (List.take_append_drop 5 calls).symm).1 false).1, hlast,
    (hall (List.append_nil calls).symm).2 hlast⟩

end Sharing

end Styler

end Styling
