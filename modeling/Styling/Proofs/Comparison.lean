import Mathlib.Data.List.Induction
import Styling.Hint.Comparison
import Styling.Proofs.Sequences

/-!
# Telling hints apart

A union keeps some of the hints that it is built of, and for each one that it leaves out an equal
one (`Hint.keptOf_distinct`). Hints that have hashes are compared without fail, and as equality says
(`Hint.compare_eq_same`); so of such hints a union is always built (`Hint.exists_unionOf`).
-/

set_option autoImplicit false

namespace Styling

/-! ## Leaving out equal hints -/

theorem Hint.distinct_concat (formed : Bool) (hs : List Hint) (h : Hint) :
    Hint.distinct formed (hs ++ [h]) = Hint.distinct formed hs >>= fun kept =>
      (Hint.isAmong formed kept h).map fun among => if among then kept else kept ++ [h] := by
  simp only [Hint.distinct, List.foldlM_append, List.foldlM_cons, List.foldlM_nil, bind_pure]

/-- A hint that is left out is among those that are kept. -/
theorem Hint.exists_of_isAmong {formed : Bool} {kept : List Hint} {h : Hint}
    (ha : Hint.isAmong formed kept h = .ok true) :
    ∃ k ∈ kept, k.compare h = .ok true ∨ h.compare k = .ok true := by
  obtain ⟨k, hk, hsame⟩ := exists_of_anyM_eq_true ha
  refine ⟨k, hk, ?_⟩
  cases formed with
  | true => exact .inl hsame
  | false => exact .inr hsame

/-- What is kept of some hints: some of them, and for each one that is left out an equal one. -/
structure Hint.KeptOf (kept hs : List Hint) : Prop where
  mem : ∀ k ∈ kept, k ∈ hs
  covers : ∀ h ∈ hs, h ∈ kept ∨ ∃ k ∈ kept, k.compare h = .ok true ∨ h.compare k = .ok true

theorem Hint.keptOf_distinct {formed : Bool} {hs kept : List Hint}
    (h : Hint.distinct formed hs = .ok kept) : Hint.KeptOf kept hs := by
  induction hs using List.reverseRecOn generalizing kept with
  | nil =>
    obtain rfl := Except.ok.inj h
    exact ⟨by simp, by simp⟩
  | append_singleton hs x ih =>
    rw [Hint.distinct_concat, bind_eq_ok_iff] at h
    obtain ⟨before, hbefore, h⟩ := h
    obtain ⟨hmem, hcovers⟩ := ih hbefore
    obtain ⟨among, hamong, rfl⟩ := map_eq_ok_iff.1 h
    cases among with
    | true =>
      refine ⟨fun k hk => List.mem_append_left _ (hmem k hk), fun g hg => ?_⟩
      rcases List.mem_append.1 hg with hg | hg
      · exact hcovers g hg
      · obtain rfl := List.mem_singleton.1 hg
        exact .inr (Hint.exists_of_isAmong hamong)
    | false =>
      refine ⟨fun k hk => ?_, fun g hg => ?_⟩
      · exact (List.mem_append.1 hk).elim (fun hk => List.mem_append_left _ (hmem k hk))
          (List.mem_append_right _)
      · rcases List.mem_append.1 hg with hg | hg
        · exact (hcovers g hg).imp (List.mem_append_left _)
            fun ⟨k, hk, hsame⟩ => ⟨k, List.mem_append_left _ hk, hsame⟩
        · exact .inl (List.mem_append_right _ hg)

/-! ## Hints with hashes -/

theorem Hint.firstUnhashable?_eq_none_iff {hs : List Hint} :
    Hint.firstUnhashable? hs = none ↔ ∀ h ∈ hs, h.unhashable? = none := by
  induction hs with
  | nil => simp [Hint.firstUnhashable?]
  | cons h hs ih => simp [Hint.firstUnhashable?, ih]

theorem Hint.firstUnhashable?_append {hs gs : List Hint} (hh : Hint.firstUnhashable? hs = none)
    (hg : Hint.firstUnhashable? gs = none) : Hint.firstUnhashable? (hs ++ gs) = none := by
  rw [Hint.firstUnhashable?_eq_none_iff] at hh hg ⊢
  exact List.forall_mem_append.2 ⟨hh, hg⟩

mutual

/-- **Hints that have hashes are compared without fail**, and as equality says. -/
theorem Hint.compare_eq_same (h g : Hint) (hh : h.unhashable? = none)
    (hg : g.unhashable? = none) : h.compare g = .ok (h.same g) := by
  cases h with
  | literal hs =>
    cases g with
    | literal gs => rw [Hint.compare, Hint.firstUnhashable?_append hh hg]
    | _ => rfl
  | union formed hs =>
    cases g with
    | union formed' gs => rw [Hint.compare, Hint.firstUnhashable?_append hh hg]
    | _ => rfl
  | container j hs =>
    cases g with
    | container k gs =>
      rw [Hint.compare, Hint.same, Hint.compareAll_eq_sameAll hs gs hh hg]
      by_cases hk : j = k <;> simp [hk]
    | _ => rfl
  | final h =>
    cases g with
    | final g => rw [Hint.compare, Hint.same, Hint.compare_eq_same h g hh hg]
    | _ => rfl
  | classVariable h =>
    cases g with
    | classVariable g => rw [Hint.compare, Hint.same, Hint.compare_eq_same h g hh hg]
    | _ => rfl
  | annotated h ms =>
    cases g with
    | annotated g ns =>
      obtain ⟨hh, hms⟩ := Option.or_eq_none_iff.1 hh
      obtain ⟨hg, hns⟩ := Option.or_eq_none_iff.1 hg
      rw [Hint.compare, Hint.same, Hint.compare_eq_same h g hh hg,
        Hint.compareAll_eq_sameAll ms ns hms hns]
      cases h.same g <;> rfl
    | _ => rfl
  | tuple hs =>
    cases g with
    | tuple gs => rw [Hint.compare, Hint.same, Hint.compareAll_eq_sameAll hs gs hh hg]
    | _ => rfl
  | list hs => contradiction
  | _ => cases g <;> rfl

theorem Hint.compareAll_eq_sameAll (hs gs : List Hint) (hh : Hint.firstUnhashable? hs = none)
    (hg : Hint.firstUnhashable? gs = none) :
    Hint.compareAll hs gs = .ok (Hint.sameAll hs gs) := by
  cases hs with
  | nil => cases gs <;> rw [Hint.compareAll, Hint.sameAll] <;> simp
  | cons h hs =>
    cases gs with
    | nil => rw [Hint.compareAll, Hint.sameAll] <;> simp
    | cons g gs =>
      obtain ⟨hh, hhs⟩ := Option.or_eq_none_iff.1 hh
      obtain ⟨hg, hgs⟩ := Option.or_eq_none_iff.1 hg
      rw [Hint.compareAll, Hint.sameAll, Hint.compare_eq_same h g hh hg,
        Hint.compareAll_eq_sameAll hs gs hhs hgs]
      cases h.same g <;> rfl

end

theorem Hint.exists_distinct (formed : Bool) {hs : List Hint}
    (hh : ∀ h ∈ hs, h.unhashable? = none) : ∃ kept, Hint.distinct formed hs = .ok kept := by
  induction hs using List.reverseRecOn with
  | nil => exact ⟨[], rfl⟩
  | append_singleton hs x ih =>
    obtain ⟨hhs, hx⟩ := List.forall_mem_append.1 hh
    have hx : x.unhashable? = none := hx x List.mem_cons_self
    obtain ⟨kept, hkept⟩ := ih hhs
    have hcompared : ∀ k ∈ kept, ∃ b, (if formed then k.compare x else x.compare k) = .ok b := by
      intro k hk
      have hk : k.unhashable? = none := hhs k ((Hint.keptOf_distinct hkept).mem k hk)
      cases formed with
      | true => exact ⟨_, Hint.compare_eq_same k x hk hx⟩
      | false => exact ⟨_, Hint.compare_eq_same x k hx hk⟩
    obtain ⟨among, hamong⟩ := exists_anyM hcompared
    rw [Hint.distinct_concat, hkept]
    exact ⟨_, map_eq_ok_iff.2 ⟨among, hamong, rfl⟩⟩

theorem Hint.unhashable?_of_mem_arms {h a : Hint} (hh : h.unhashable? = none) (ha : a ∈ h.arms) :
    a.unhashable? = none := by
  cases h with
  | union formed arms => exact Hint.firstUnhashable?_eq_none_iff.1 hh a ha
  | _ =>
    obtain rfl := List.mem_singleton.1 ha
    exact hh

/-- **A union of hints that have hashes is always built.** -/
theorem Hint.exists_unionOf (formed : Bool) {hs : List Hint}
    (hh : ∀ h ∈ hs, h.unhashable? = none) : ∃ r, Hint.unionOf formed hs = .ok r := by
  have harms : ∀ a ∈ hs.flatMap Hint.arms, a.unhashable? = none := by
    intro a ha
    obtain ⟨h, hm, hah⟩ := List.mem_flatMap.1 ha
    exact Hint.unhashable?_of_mem_arms (hh h hm) hah
  obtain ⟨kept, hkept⟩ := Hint.exists_distinct formed harms
  exact ⟨_, map_eq_ok_iff.2 ⟨kept, hkept, rfl⟩⟩

end Styling
