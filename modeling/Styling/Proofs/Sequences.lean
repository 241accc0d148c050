import Mathlib.Data.List.Forall2

/-!
# Lists item by item

What is known of one of two lists that are related item by item is known of the other
(`exists_of_mem_right`, `exists_of_forall₂_append`). A function that can fail is applied to the
items of a list up to the first failure: without failures the results are those of the items
(`mapM_eq_ok_iff`), and else the first failure decides (`mapM_eq_error_iff`). Lists whose items have the
same results have the same result as a whole (`mapM_congr`), and if the items end alike, so do the
lists (`EndAlike.mapM`).
-/

set_option autoImplicit false

namespace Styling

variable {α β γ ε : Type}

/-! ## Related lists -/

theorem exists_of_mem_right {R : α → β → Prop} {xs : List α} {ys : List β}
    (h : List.Forall₂ R xs ys) {y : β} (hy : y ∈ ys) : ∃ x ∈ xs, R x y := by
  induction h with
  | nil => contradiction
  | @cons a b xs ys hab _ ih =>
    rcases List.mem_cons.1 hy with rfl | hy
    · exact ⟨a, List.mem_cons_self, hab⟩
    · obtain ⟨x, hx, hr⟩ := ih hy
      exact ⟨x, List.mem_cons_of_mem a hx, hr⟩

/-- Each entry on the left of two lists that are related item by item has a counterpart on the
right. -/
theorem exists_of_mem_left {R : α → β → Prop} {as : List α} {bs : List β}
    (h : List.Forall₂ R as bs) {a : α} (ha : a ∈ as) : ∃ b ∈ bs, R a b := by
  obtain ⟨b, hb, hr⟩ := exists_of_mem_right h.flip ha
  exact ⟨b, hb, hr⟩

/-- An item on the left of two such lists, the items before it and the items after it all have their
counterparts on the right. -/
theorem exists_of_forall₂_append {R : α → β → Prop} {before after : List α} {a : α}
    {bs : List β} (h : List.Forall₂ R (before ++ a :: after) bs) :
    ∃ first b last, bs = first ++ b :: last ∧ List.Forall₂ R before first ∧ R a b ∧
      List.Forall₂ R after last := by
  induction before generalizing bs with
  | nil =>
    cases h with
    | cons hab hlast => exact ⟨[], _, _, rfl, .nil, hab, hlast⟩
  | cons c before ih =>
    cases h with
    | cons hcb hrest =>
      obtain ⟨first, b, last, rfl, hfirst, hab, hlast⟩ := ih hrest
      exact ⟨_ :: first, b, last, rfl, .cons hcb hfirst, hab, hlast⟩

/-- Related lists have the same images where related items have. -/
theorem map_eq_of_forall₂ {R : α → β → Prop} {f : α → γ} {g : β → γ} {as : List α} {bs : List β}
    (h : List.Forall₂ R as bs) (hR : ∀ a b, R a b → g b = f a) : bs.map g = as.map f := by
  induction h with
  | nil => rfl
  | cons hab _ ih => rw [List.map_cons, List.map_cons, hR _ _ hab, ih]

theorem exists_forall₂ {R : α → β → Prop} {as : List α} (h : ∀ a ∈ as, ∃ b, R a b) :
    ∃ bs, List.Forall₂ R as bs := by
  induction as with
  | nil => exact ⟨[], .nil⟩
  | cons a as ih =>
    obtain ⟨b, hb⟩ := h a List.mem_cons_self
    obtain ⟨bs, hbs⟩ := ih fun c hc => h c (List.mem_cons_of_mem a hc)
    exact ⟨b :: bs, .cons hb hbs⟩

/-! ## Functions that can fail -/

theorem map_eq_ok_iff {x : Except ε α} {f : α → β} {b : β} :
    x.map f = .ok b ↔ ∃ a, x = .ok a ∧ f a = b := by
  cases x <;> simp [Except.map]

theorem bind_eq_ok_iff {x : Except ε α} {f : α → Except ε β} {b : β} :
    x >>= f = .ok b ↔ ∃ a, x = .ok a ∧ f a = .ok b := by
  cases x <;> simp [bind, Except.bind]

/-- A test that some item has passed was passed by one of them. -/
theorem exists_of_anyM_eq_true {p : α → Except ε Bool} {as : List α} (h : as.anyM p = .ok true) :
    ∃ a ∈ as, p a = .ok true := by
  induction as with
  | nil => cases h
  | cons a as ih =>
    rw [List.anyM_cons, bind_eq_ok_iff] at h
    obtain ⟨passed, ha, h⟩ := h
    cases passed with
    | true => exact ⟨a, List.mem_cons_self, ha⟩
    | false =>
      obtain ⟨b, hb, hpassed⟩ := ih h
      exact ⟨b, List.mem_cons_of_mem a hb, hpassed⟩

theorem exists_anyM {p : α → Except ε Bool} {as : List α} (h : ∀ a ∈ as, ∃ b, p a = .ok b) :
    ∃ b, as.anyM p = .ok b := by
  induction as with
  | nil => exact ⟨false, rfl⟩
  | cons a as ih =>
    obtain ⟨passed, ha⟩ := h a List.mem_cons_self
    obtain ⟨b, hb⟩ := ih fun c hc => h c (List.mem_cons_of_mem a hc)
    rw [List.anyM_cons, ha]
    cases passed with
    | true => exact ⟨true, rfl⟩
    | false => exact ⟨b, hb⟩

/-- A result that is put beside a name, in place of the result. -/
theorem map_pair_eq_ok_iff {x : Except ε β} {name : α} {p : α × β} :
    x.map (name, ·) = .ok p ↔ p.1 = name ∧ x = .ok p.2 := by
  obtain ⟨other, b⟩ := p
  cases x with
  | error e => simp [Except.map]
  | ok c => simp [Except.map, eq_comm]

variable {f : α → Except ε β}

theorem mapM_cons_of_ok {a : α} {b : β} (h : f a = .ok b) (as : List α) :
    (a :: as).mapM f = (as.mapM f).map (b :: ·) := by
  rw [List.mapM_cons, h]
  cases as.mapM f <;> rfl

theorem mapM_cons_of_error {a : α} {e : ε} (h : f a = .error e) (as : List α) :
    (a :: as).mapM f = .error e := by
  rw [List.mapM_cons, h]
  rfl

/-- The results of a list are those of its items. -/
theorem mapM_eq_ok_iff {as : List α} {bs : List β} :
    as.mapM f = .ok bs ↔ List.Forall₂ (fun a b => f a = .ok b) as bs := by
  induction as generalizing bs with
  | nil => simp [pure, Except.pure, eq_comm]
  | cons a as ih =>
    rw [List.forall₂_cons_left_iff]
    cases ha : f a with
    | error e => simp [mapM_cons_of_error ha]
    | ok b =>
      rw [mapM_cons_of_ok ha]
      simp only [← ih, Except.ok.injEq]
      constructor
      · intro h
        cases has : as.mapM f with
        | error e => simp [has, Except.map] at h
        | ok cs => exact ⟨b, cs, rfl, rfl, by simpa [has, Except.map, eq_comm] using h⟩
      · rintro ⟨_, cs, rfl, has, rfl⟩
        rw [has]
        rfl

/-- The first item that fails decides, whatever comes after it. -/
theorem mapM_eq_error {before after : List α} {a : α} {e : ε}
    (hbefore : ∀ b ∈ before, ∃ c, f b = .ok c) (ha : f a = .error e) :
    (before ++ a :: after).mapM f = .error e := by
  induction before with
  | nil => exact mapM_cons_of_error ha after
  | cons b before ih =>
    obtain ⟨c, hc⟩ := hbefore b List.mem_cons_self
    rw [List.cons_append, mapM_cons_of_ok hc, ih fun d hd => hbefore d (List.mem_cons_of_mem b hd)]
    rfl

/-- A failure comes from the first item that fails. -/
theorem mapM_eq_error_iff {as : List α} {e : ε} :
    as.mapM f = .error e ↔
      ∃ before a after, as = before ++ a :: after ∧ (∀ b ∈ before, ∃ c, f b = .ok c) ∧
        f a = .error e := by
  constructor
  · intro h
    induction as with
    | nil => contradiction
    | cons a as ih =>
      cases ha : f a with
      | error e' =>
        rw [mapM_cons_of_error ha] at h
        cases h
        exact ⟨[], a, as, rfl, fun b hb => absurd hb List.not_mem_nil, ha⟩
      | ok c =>
        -- The first item has a result, so the failure is one of the rest.
        have hrest : as.mapM f = .error e := by
          rw [mapM_cons_of_ok ha] at h
          cases hs : as.mapM f with
          | ok cs => simp [hs, Except.map] at h
          | error e' => simpa [hs, Except.map] using h
        obtain ⟨before, b, after, rfl, hbefore, hb⟩ := ih hrest
        exact ⟨a :: before, b, after, rfl, List.forall_mem_cons.2 ⟨⟨c, ha⟩, hbefore⟩, hb⟩
  · rintro ⟨before, a, after, rfl, hbefore, ha⟩
    exact mapM_eq_error hbefore ha

theorem mapM_congr {g : γ → Except ε β} {as : List α} {cs : List γ}
    (h : List.Forall₂ (fun a c => f a = g c) as cs) : as.mapM f = cs.mapM g := by
  induction h with
  | nil => rfl
  | cons hac _ ih => rw [List.mapM_cons, List.mapM_cons, hac, ih]

/-- Where some items fail in one way and the others are the same, the list fails in that way or as it
did before. -/
theorem exists_mapM_eq_error {g : α → Except ε β} {P : α → Prop} {e : ε} {as : List α}
    (hbad : ∀ a, P a → f a = .error e) (hsame : ∀ a, ¬ P a → f a = g a) (hsome : ∃ a ∈ as, P a) :
    ∃ err, as.mapM f = .error err ∧ (err = e ∨ as.mapM g = .error err) := by
  induction as with
  | nil => simp at hsome
  | cons a as ih =>
    by_cases ha : P a
    · exact ⟨e, mapM_cons_of_error (hbad a ha) as, Or.inl rfl⟩
    · obtain ⟨err, herr, hwhich⟩ := ih (by simpa [ha] using hsome)
      cases hx : g a with
      | error e' =>
        exact ⟨e', mapM_cons_of_error ((hsame a ha).trans hx) as,
          Or.inr (mapM_cons_of_error hx as)⟩
      | ok b =>
        refine ⟨err, ?_, hwhich.imp_right fun h => ?_⟩
        · rw [mapM_cons_of_ok ((hsame a ha).trans hx), herr]
          rfl
        · rw [mapM_cons_of_ok hx, h]
          rfl

/-- Two computations end alike: with results that are related, or with the same failure. -/
inductive EndAlike (R : α → β → Prop) : Except ε α → Except ε β → Prop
  | ok {a : α} {b : β} (h : R a b) : EndAlike R (.ok a) (.ok b)
  | error (e : ε) : EndAlike R (.error e) (.error e)

/-- If the items of two lists end alike, so do the lists. -/
theorem EndAlike.mapM {δ : Type} {R : β → δ → Prop} {g : α → Except ε δ} {as : List α}
    (h : ∀ a ∈ as, EndAlike R (f a) (g a)) : EndAlike (List.Forall₂ R) (as.mapM f) (as.mapM g) := by
  induction as with
  | nil => exact .ok .nil
  | cons a as ih =>
    obtain ⟨ha, has⟩ := List.forall_mem_cons.1 h
    have hrest := ih has
    generalize hx : f a = x at ha
    generalize hy : g a = y at ha
    cases ha with
    | error e =>
      rw [mapM_cons_of_error hx, mapM_cons_of_error hy]
      exact .error e
    | ok hab =>
      rw [mapM_cons_of_ok hx, mapM_cons_of_ok hy]
      generalize as.mapM f = xs at hrest
      generalize as.mapM g = ys at hrest
      cases hrest with
      | error e => exact .error e
      | ok hall => exact .ok (.cons hab hall)

end Styling
