import Styling.Decimal.Shortest

/-!
# The shortest decimal of a double is read as that double

`units` numbers the finite magnitudes in ascending order, and `rankBelow` finds the number of a
magnitude again (`rankBelow_units`). Rounding therefore leaves a quotient alone that is a magnitude
(`nearestRank_of_eq`), and it sees the quotient only, not the two numbers (`nearestRank_mul`).

The exact expansion of a magnitude is such a quotient, so the search for a shortest decimal ends in
a decimal that reads back whether it finds a short one or not (`ofDecimal_shortest`). Factors of ten
can be moved between the digits of a decimal and its exponent (`ofDecimal_shift`).
-/

set_option autoImplicit false

namespace Styling.Decimal

open Styling.Text

/-! ## Ranks and magnitudes -/

theorem units_of_lt {r : Nat} (h : r < 2 ^ (52 : Nat)) : units r = r := if_pos h

theorem units_of_le {r : Nat} (h : 2 ^ (52 : Nat) ≤ r) :
    units r = (2 ^ (52 : Nat) + r % 2 ^ (52 : Nat)) * 2 ^ (r / 2 ^ (52 : Nat) - 1) :=
  if_neg (by omega)

/-- A rank past the evenly spaced ones: a fraction at some spacing. -/
theorem exists_of_le {r : Nat} (h : 2 ^ (52 : Nat) ≤ r) :
    ∃ k f, f < 2 ^ (52 : Nat) ∧ r = (k + 1) * 2 ^ (52 : Nat) + f ∧
      units r = (2 ^ (52 : Nat) + f) * 2 ^ k := by
  refine ⟨r / 2 ^ (52 : Nat) - 1, r % 2 ^ (52 : Nat), Nat.mod_lt _ (by decide), ?_,
    units_of_le h⟩
  have hq : r / 2 ^ (52 : Nat) - 1 + 1 = r / 2 ^ (52 : Nat) := by omega
  rw [hq, Nat.mul_comm]
  exact (Nat.div_add_mod r (2 ^ (52 : Nat))).symm

theorem units_of_eq {k f : Nat} (h : f < 2 ^ (52 : Nat)) :
    units ((k + 1) * 2 ^ (52 : Nat) + f) = (2 ^ (52 : Nat) + f) * 2 ^ k := by
  have hle : 2 ^ (52 : Nat) ≤ (k + 1) * 2 ^ (52 : Nat) + f := by omega
  have hmod : ((k + 1) * 2 ^ (52 : Nat) + f) % 2 ^ (52 : Nat) = f := by omega
  have hdiv : ((k + 1) * 2 ^ (52 : Nat) + f) / 2 ^ (52 : Nat) - 1 = k := by omega
  rw [units_of_le hle, hmod, hdiv]

/-- Magnitudes ascend with their rank. -/
theorem units_lt_succ (r : Nat) : units r < units (r + 1) := by
  by_cases h : r < 2 ^ (52 : Nat)
  · rw [units_of_lt h]
    by_cases hs : r + 1 < 2 ^ (52 : Nat)
    · rw [units_of_lt hs]
      exact Nat.lt_succ_self r
    · -- The last rank of the even spacing: the next magnitude is 2 ^ 52.
      obtain rfl : r = 2 ^ (52 : Nat) - 1 := by omega
      decide
  · obtain ⟨k, f, hf, rfl, hu⟩ := exists_of_le (Nat.le_of_not_lt h)
    rw [hu]
    by_cases hs : f + 1 < 2 ^ (52 : Nat)
    · rw [Nat.add_assoc, units_of_eq hs]
      exact Nat.mul_lt_mul_of_pos_right (by omega) (Nat.two_pow_pos k)
    · -- The spacing doubles between the two ranks.
      have hnext : (k + 1) * 2 ^ (52 : Nat) + f + 1 = (k + 1 + 1) * 2 ^ (52 : Nat) + 0 := by omega
      have hpow : 2 ^ (k + 1) = 2 * 2 ^ k := by rw [Nat.pow_add, Nat.pow_one, Nat.mul_comm]
      rw [hnext, units_of_eq (by decide), hpow, ← Nat.mul_assoc]
      exact Nat.mul_lt_mul_of_pos_right (by omega) (Nat.two_pow_pos k)

/-- **The rank of a magnitude is found again.** -/
theorem rankBelow_units (r : Nat) : rankBelow (units r) = r := by
  by_cases h : r < 2 ^ (52 : Nat)
  · rw [units_of_lt h, rankBelow, if_pos (by omega)]
  · obtain ⟨k, f, hf, rfl, hu⟩ := exists_of_le (Nat.le_of_not_lt h)
    rw [hu]
    cases k with
    | zero =>
      rw [Nat.pow_zero, Nat.mul_one, rankBelow, if_pos (by omega), Nat.zero_add, Nat.one_mul]
    | succ k =>
      -- The magnitude has 53 binary digits and then `k + 1` zeros.
      have hlow : 2 ^ (52 + (k + 1)) ≤ (2 ^ (52 : Nat) + f) * 2 ^ (k + 1) := by
        rw [Nat.pow_add]
        exact Nat.mul_le_mul_right _ (by omega)
      have hhigh : (2 ^ (52 : Nat) + f) * 2 ^ (k + 1) < 2 ^ (52 + (k + 1) + 1) := by
        rw [show 52 + (k + 1) + 1 = 53 + (k + 1) by omega, Nat.pow_add 2 53]
        exact Nat.mul_lt_mul_of_pos_right (by omega) (Nat.two_pow_pos _)
      have hne : (2 ^ (52 : Nat) + f) * 2 ^ (k + 1) ≠ 0 := by
        have := Nat.two_pow_pos (52 + (k + 1))
        omega
      have hlog : ((2 ^ (52 : Nat) + f) * 2 ^ (k + 1)).log2 = 52 + (k + 1) :=
        (Nat.log2_eq_iff hne).2 ⟨hlow, hhigh⟩
      have hbig : ¬(2 ^ (52 : Nat) + f) * 2 ^ (k + 1) < 2 ^ (53 : Nat) := by
        have : 2 ^ (53 : Nat) ≤ 2 ^ (52 + (k + 1)) := Nat.pow_le_pow_right (by decide) (by omega)
        omega
      rw [rankBelow, if_neg hbig]
      simp only [hlog, Nat.add_sub_cancel_left]
      rw [Nat.mul_div_cancel _ (Nat.two_pow_pos _)]
      omega

/-! ## Rounding -/

/-- A quotient that is a magnitude is rounded to that magnitude. -/
theorem nearestRank_of_eq {n d r : Nat} (hd : 0 < d) (h : n * 2 ^ unitExponent = units r * d) :
    nearestRank n d = r := by
  -- The magnitude itself lies below the middle between it and the next one.
  have hbelow : 2 * (units r * d) < (units r + units (r + 1)) * d := by
    rw [← Nat.mul_assoc]
    have := units_lt_succ r
    exact Nat.mul_lt_mul_of_pos_right (by omega) hd
  simp only [nearestRank, h, Nat.mul_div_cancel _ hd, rankBelow_units, if_pos hbelow]

/-- A common factor of the two numbers does not matter. -/
theorem nearestRank_mul (n d : Nat) {c : Nat} (hc : 0 < c) :
    nearestRank (n * c) (d * c) = nearestRank n d := by
  have hscaled : n * c * 2 ^ unitExponent = n * 2 ^ unitExponent * c := Nat.mul_right_comm _ _ _
  have hdouble : 2 * (n * 2 ^ unitExponent * c) = 2 * (n * 2 ^ unitExponent) * c :=
    (Nat.mul_assoc _ _ _).symm
  simp only [nearestRank, hscaled, Nat.mul_div_mul_right _ _ hc, hdouble, ← Nat.mul_assoc,
    Nat.mul_lt_mul_right hc]

/-! ## Decimals -/

theorem natText_mul_ten {d : Nat} (h : d ≠ 0) : natText (d * 10) = natText d ++ ['0'] := by
  rw [natText, Nat.toDigits_eq_if (by decide), if_neg (by omega),
    Nat.mul_div_cancel d (by decide), Nat.mul_mod_left]
  rfl

theorem length_natText_mul_pow {d : Nat} (h : d ≠ 0) (k : Nat) :
    (natText (d * 10 ^ k)).length = (natText d).length + k := by
  induction k with
  | zero => simp
  | succ k ih =>
    have hne : d * 10 ^ k ≠ 0 := Nat.mul_ne_zero h (Nat.ne_of_gt (Nat.pow_pos (by decide)))
    rw [Nat.pow_succ, ← Nat.mul_assoc, natText_mul_ten hne, List.length_append, ih]
    rfl

/-- **Factors of ten can be moved from the digits to the exponent.** -/
theorem ofDecimal_shift (negative : Bool) (d k : Nat) (e : Int) :
    Double.ofDecimal negative (d * 10 ^ k) e = Double.ofDecimal negative d (e + k) := by
  by_cases hd : d = 0
  · subst hd
    simp [Double.ofDecimal]
  have hne : d * 10 ^ k ≠ 0 := Nat.mul_ne_zero hd (Nat.ne_of_gt (Nat.pow_pos (by decide)))
  have htop : ((natText (d * 10 ^ k)).length : Int) + e
      = ((natText d).length : Int) + (e + k) := by
    rw [length_natText_mul_pow hd]
    omega
  rw [Double.ofDecimal, Double.ofDecimal, if_neg hd, if_neg hne, htop]
  -- Both sides round the same quotient, with a power of ten as common factor.
  have hrank : (if 0 ≤ e then
        Double.ofRank negative (nearestRank (d * 10 ^ k * 10 ^ e.toNat) 1)
      else Double.ofRank negative (nearestRank (d * 10 ^ k) (10 ^ (-e).toNat)))
      = if 0 ≤ e + k then Double.ofRank negative (nearestRank (d * 10 ^ (e + k).toNat) 1)
      else Double.ofRank negative (nearestRank d (10 ^ (-(e + k)).toNat)) := by
    by_cases he : 0 ≤ e
    · rw [if_pos he, if_pos (by omega), Nat.mul_assoc, ← Nat.pow_add,
        show k + e.toNat = (e + k).toNat by omega]
    · rw [if_neg he]
      by_cases hek : 0 ≤ e + k
      · have hk : k = (e + k).toNat + (-e).toNat := by omega
        have hsplit : d * 10 ^ k = d * 10 ^ (e + k).toNat * 10 ^ (-e).toNat := by
          rw [Nat.mul_assoc, ← Nat.pow_add, ← hk]
        rw [if_pos hek, hsplit]
        have := nearestRank_mul (d * 10 ^ (e + k).toNat) 1 (Nat.pow_pos (n := (-e).toNat)
          (show 0 < 10 by decide))
        rw [Nat.one_mul] at this
        rw [this]
      · have hk : (-e).toNat = (-(e + k)).toNat + k := by omega
        rw [if_neg hek, hk, Nat.pow_add, nearestRank_mul d _ (Nat.pow_pos (by decide))]
  rw [hrank]

/-- The sign of a decimal is the sign of the double. -/
theorem ofDecimal_of_finite {d : Nat} {e : Int} {sign : Bool} {rank : Fin rankCount}
    (h : Double.ofDecimal false d e = .finite sign rank) (negative : Bool) :
    Double.ofDecimal negative d e = .finite negative rank := by
  have hrank : ∀ r, Double.ofRank false r = .finite sign rank →
      Double.ofRank negative r = .finite negative rank := by
    intro r hr
    unfold Double.ofRank at hr ⊢
    split at hr
    · next hlt =>
      obtain ⟨-, rfl⟩ : false = sign ∧ (⟨r, hlt⟩ : Fin rankCount) = rank := by simpa using hr
      rw [dif_pos hlt]
    · contradiction
  have hzero : Double.zero false = .finite sign rank →
      Double.zero negative = .finite negative rank := by
    intro hz
    obtain ⟨-, rfl⟩ : false = sign ∧ (⟨0, by decide⟩ : Fin rankCount) = rank := by
      simpa [Double.zero] using hz
    rfl
  -- Both sides take the same branch, and in each the sign is only passed on.
  unfold Double.ofDecimal at h ⊢
  by_cases hd : d = 0
  · rw [if_pos hd] at h ⊢
    exact hzero h
  rw [if_neg hd] at h ⊢
  simp only at h ⊢
  by_cases htop : ((natText d).length : Int) + e > 310
  · rw [if_pos htop] at h
    contradiction
  rw [if_neg htop] at h ⊢
  by_cases hlow : ((natText d).length : Int) + e < -330
  · rw [if_pos hlow] at h ⊢
    exact hzero h
  rw [if_neg hlow] at h ⊢
  by_cases he : 0 ≤ e
  · rw [if_pos he] at h ⊢
    exact hrank _ h
  · rw [if_neg he] at h ⊢
    exact hrank _ h

/-- A decimal without a minus sign is read as a double without one. -/
theorem isNegative_ofDecimal (d : Nat) (e : Int) :
    (Double.ofDecimal false d e).isNegative = false := by
  have hrank : ∀ r, (Double.ofRank false r).isNegative = false := by
    intro r
    unfold Double.ofRank
    split <;> rfl
  unfold Double.ofDecimal
  simp only
  repeat' split
  · rfl
  · rfl
  · rfl
  · exact hrank _
  · exact hrank _

/-! ## The shortest decimal -/

theorem units_pos {r : Nat} (h : 0 < r) : 0 < units r := by
  by_cases hr : r < 2 ^ (52 : Nat)
  · rwa [units_of_lt hr]
  · obtain ⟨k, f, -, -, hu⟩ := exists_of_le (Nat.le_of_not_lt hr)
    rw [hu]
    exact Nat.mul_pos (by omega) (Nat.two_pow_pos k)

theorem units_lt {r : Nat} (h : r < rankCount) : units r < 2 ^ (2098 : Nat) := by
  -- The exponents are given one by one, so that no power has to be computed to find them.
  have hpow (j k : Nat) (h : j ≤ k) : 2 ^ j ≤ 2 ^ k := Nat.pow_le_pow_right Nat.two_pos h
  by_cases hr : r < 2 ^ (52 : Nat)
  · rw [units_of_lt hr]
    exact Nat.lt_of_lt_of_le hr (hpow 52 2098 (by decide))
  · obtain ⟨k, f, hf, rfl, hu⟩ := exists_of_le (Nat.le_of_not_lt hr)
    rw [hu]
    have hk : k ≤ 2045 := by
      rw [rankCount] at h
      omega
    calc (2 ^ (52 : Nat) + f) * 2 ^ k < 2 ^ (53 : Nat) * 2 ^ k :=
          Nat.mul_lt_mul_of_pos_right (by omega) (Nat.two_pow_pos k)
      _ = 2 ^ (53 + k) := (Nat.pow_add 2 53 k).symm
      _ ≤ 2 ^ (2098 : Nat) := hpow (53 + k) 2098 (by omega)

/-- The exact expansion of a magnitude lies well inside the decimals that are rounded. -/
theorem length_exactDecimal {rank : Nat} (h0 : 0 < rank) (h : rank < rankCount) :
    744 < (natText (exactDecimal rank).digits).length
      ∧ (natText (exactDecimal rank).digits).length ≤ 1384 := by
  have hdigits : (exactDecimal rank).digits = units rank * 5 ^ unitExponent := rfl
  rw [hdigits]
  constructor
  · rw [← Nat.not_le, length_natText_le_iff (by decide), Nat.not_lt]
    calc 10 ^ (744 : Nat) ≤ 5 ^ unitExponent := by decide +kernel
      _ ≤ units rank * 5 ^ unitExponent := Nat.le_mul_of_pos_left _ (units_pos h0)
  · rw [length_natText_le_iff (by decide)]
    calc units rank * 5 ^ unitExponent < 2 ^ (2098 : Nat) * 5 ^ unitExponent :=
          Nat.mul_lt_mul_of_pos_right (units_lt h) (Nat.pow_pos (by decide))
      _ < 10 ^ (1384 : Nat) := by decide +kernel

/-- The exact expansion of a magnitude is read as that magnitude. -/
theorem ofDecimal_exactDecimal {rank : Nat} (h0 : 0 < rank) (h : rank < rankCount) :
    Double.ofDecimal false (exactDecimal rank).digits (exactDecimal rank).exponent
      = .finite false ⟨rank, h⟩ := by
  obtain ⟨hlow, hhigh⟩ := length_exactDecimal h0 h
  have hne : (exactDecimal rank).digits ≠ 0 :=
    Nat.mul_ne_zero (Nat.ne_of_gt (units_pos h0)) (Nat.ne_of_gt (Nat.pow_pos (by decide)))
  have hexp : (exactDecimal rank).exponent = -1074 := rfl
  -- A power of two and the same power of five make a power of ten.
  have hmagnitude : (exactDecimal rank).digits * 2 ^ unitExponent
      = units rank * 10 ^ unitExponent := by
    rw [exactDecimal, Nat.mul_assoc, ← Nat.mul_pow]
  rw [Double.ofDecimal, if_neg hne, hexp]
  simp only
  rw [if_neg (by omega), if_neg (by omega), if_neg (by decide),
    show (-(-1074 : Int)).toNat = unitExponent from rfl,
    nearestRank_of_eq (Nat.pow_pos (by decide)) hmagnitude, Double.ofRank, dif_pos h]

/-- **The shortest decimal of a magnitude is read as that magnitude**, with either sign. -/
theorem ofDecimal_shortest (negative : Bool) {rank : Fin rankCount} (h : 0 < rank.val) :
    Double.ofDecimal negative (shortest rank).digits (shortest rank).exponent
      = .finite negative rank := by
  -- Either the search has checked its result, or it has given the exact expansion.
  rcases shortest_readsBack rank.val with hread | hexact
  · rw [Scaled.readsBack] at hread
    cases hd : Double.ofDecimal false (shortest rank).digits (shortest rank).exponent with
    | finite sign r =>
      rw [hd] at hread
      obtain rfl : r = rank := Fin.ext (by simpa using hread)
      exact ofDecimal_of_finite hd negative
    | infinite sign =>
      rw [hd] at hread
      contradiction
    | nan =>
      rw [hd] at hread
      contradiction
  · rw [hexact]
    exact ofDecimal_of_finite (ofDecimal_exactDecimal h rank.isLt) negative

end Styling.Decimal
