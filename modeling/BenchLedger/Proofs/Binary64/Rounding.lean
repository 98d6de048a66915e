import BenchLedger.Binary64.Arithmetic
import BenchLedger.Proofs.Binary64.Nearest
import Mathlib.Data.Nat.Log

/-! # Rounding and the order

Magnitudes have the order of their values (`rank_le_iff`), and rounding keeps the order, so what a
quotient reaches its nearest magnitude reaches too (`le_units_nearest`, `units_nearest_le`). That
still holds when a sum is rounded before it is halved (`le_half_nearest`, `half_nearest_le`),
because twice a magnitude is a magnitude (`exists_twice`). A whole number of units is rounded to a
finite magnitude just below `overflow` (`isFinite_nearest_iff`). -/

namespace BenchLedger

namespace Magnitude

/-! ### Rounding keeps the order -/

theorem le_roundDiv (num den : ℕ) : num / den ≤ roundDiv num den := by
  unfold roundDiv
  dsimp only
  split_ifs <;> omega

theorem roundDiv_le (num den : ℕ) : roundDiv num den ≤ num / den + 1 := by
  unfold roundDiv
  dsimp only
  split_ifs <;> omega

theorem roundDiv_mono {num num' : ℕ} (h : num ≤ num') (den : ℕ) :
    roundDiv num den ≤ roundDiv num' den := by
  have hwhole : num / den ≤ num' / den := Nat.div_le_div_right h
  rcases Nat.lt_or_ge (num / den) (num' / den) with hlt | hge
  · have hup := roundDiv_le num den
    have hdown := le_roundDiv num' den
    omega
  · -- Between the same two whole numbers, so the rests decide.
    have heq : num / den = num' / den := Nat.le_antisymm hwhole hge
    have hdiv := Nat.div_add_mod num den
    have hdiv' := Nat.div_add_mod num' den
    rw [heq] at hdiv
    have hrest : num % den ≤ num' % den := by omega
    unfold roundDiv
    dsimp only
    rw [heq]
    split_ifs <;> omega

theorem roundDiv_grid (num den : ℕ) :
    roundDiv num (den * 2 ^ ((num / den).log2 - 52)) ≤ 2 ^ 53 ∧
      ((num / den).log2 - 52 ≠ 0 →
        2 ^ 52 ≤ roundDiv num (den * 2 ^ ((num / den).log2 - 52))) := by
  have hup := roundDiv_le num (den * 2 ^ ((num / den).log2 - 52))
  have hdown := le_roundDiv num (den * 2 ^ ((num / den).log2 - 52))
  rw [← Nat.div_div_eq_div_mul] at hup hdown
  generalize num / den = whole at hup hdown ⊢
  have hpos : 0 < 2 ^ (whole.log2 - 52) := Nat.two_pow_pos _
  constructor
  · have hlt : whole / 2 ^ (whole.log2 - 52) < 2 ^ 53 := by
      rw [Nat.div_lt_iff_lt_mul hpos, ← pow_add]
      exact Nat.lt_of_lt_of_le Nat.lt_log2_self (Nat.pow_le_pow_right (by decide) (by omega))
    omega
  · intro hne
    have hle : 2 ^ 52 ≤ whole / 2 ^ (whole.log2 - 52) := by
      rw [Nat.le_div_iff_mul_le hpos, ← pow_add, show 52 + (whole.log2 - 52) = whole.log2 by omega]
      refine Nat.log2_self_le ?_
      rintro rfl
      exact hne rfl
    omega

theorem nearestRank_mono {num num' : ℕ} (h : num ≤ num') (den : ℕ) :
    nearestRank num den ≤ nearestRank num' den := by
  rw [nearestRank_eq, nearestRank_eq]
  refine min_le_min_right _ ?_
  have hlog : (num / den).log2 ≤ (num' / den).log2 := by
    rw [Nat.log2_eq_log_two, Nat.log2_eq_log_two]
    exact Nat.log_mono_right (Nat.div_le_div_right h)
  rcases Nat.lt_or_ge ((num / den).log2 - 52) ((num' / den).log2 - 52) with hlt | hge
  · -- The larger quotient has a coarser grid, which begins where the finer one ends.
    have hup := (roundDiv_grid num den).1
    have hdown := (roundDiv_grid num' den).2 (by omega)
    omega
  · have heq : (num / den).log2 - 52 = (num' / den).log2 - 52 := by omega
    rw [heq]
    exact Nat.add_le_add_left (roundDiv_mono h _) _

variable {m n : Magnitude} {num den : ℕ}

theorem eq_of_rank_eq (h : m.rank = n.rank) : m = n := by
  cases m
  cases n
  simpa using h

/-- **Magnitudes have the order of their values.** -/
theorem rank_le_iff : m.rank ≤ n.rank ↔ m.units ≤ n.units := by
  have hmono : ∀ {a b : Magnitude}, a.units ≤ b.units → a.rank ≤ b.rank := by
    intro a b h
    have hrank := nearestRank_mono h 1
    have ha := congrArg rank (nearest_units a)
    have hb := congrArg rank (nearest_units b)
    simp only [nearest] at ha hb
    omega
  refine ⟨fun h => ?_, hmono⟩
  by_contra hlt
  have hback := hmono (Nat.le_of_not_le hlt)
  have heq : m = n := eq_of_rank_eq (Nat.le_antisymm h hback)
  exact hlt (le_of_eq (congrArg units heq))

theorem nearest_mul_units (m : Magnitude) (hden : 0 < den) : nearest (m.units * den) den = m := by
  have hscale := nearest_scale m.units 1 hden
  rw [Nat.one_mul] at hscale
  rw [hscale, nearest_units]

theorem le_units_nearest (hden : 0 < den) (h : m.units * den ≤ num) :
    m.units ≤ (nearest num den).units := by
  rw [← rank_le_iff]
  conv_lhs => rw [← nearest_mul_units m hden]
  exact nearestRank_mono h den

theorem units_nearest_le (hden : 0 < den) (h : num ≤ m.units * den) :
    (nearest num den).units ≤ m.units := by
  rw [← rank_le_iff]
  conv_rhs => rw [← nearest_mul_units m hden]
  exact nearestRank_mono h den

theorem isFinite_of_units_le (h : m.units ≤ n.units) (hn : n.isFinite = true) :
    m.isFinite = true := by
  have hrank := rank_le_iff.mpr h
  have hlt : n.rank < infinityRank := of_decide_eq_true hn
  exact decide_eq_true (Nat.lt_of_le_of_lt hrank hlt)

/-! ### Twice a magnitude -/

/-- Infinity stands in the place of this power of two. -/
def infinityExponent : ℕ := 2098

theorem units_infinity : infinity.units = 2 ^ infinityExponent := by decide +kernel

/-- Twice a magnitude is a magnitude, or too large to be finite. -/
theorem exists_twice (m : Magnitude) : ∃ twice : Magnitude, twice.units = 2 * m.units ∨
    twice = infinity ∧ infinity.units ≤ 2 * m.units := by
  have hle : m.rank ≤ 2047 * 2 ^ 52 := m.rank_le
  rcases Nat.lt_or_ge m.rank (2 ^ 52) with hsmall | hlarge
  · have hrank : 2 * m.rank ≤ infinityRank := by rw [infinityRank, natPow_eq]; omega
    refine ⟨⟨2 * m.rank, hrank⟩, Or.inl ?_⟩
    have hunits : ∀ k : Magnitude, k.rank < 2 ^ 53 → k.units = k.rank := by
      intro k hk
      have hdoublings : k.doublings = 0 := by rw [doublings_eq]; omega
      rw [units_eq, hdoublings, Nat.zero_mul, pow_zero, Nat.mul_one, Nat.sub_zero]
    rw [hunits _ (by show 2 * m.rank < 2 ^ 53; omega), hunits m (by omega)]
  · by_cases hroom : m.rank + 2 ^ 52 ≤ infinityRank
    · refine ⟨⟨m.rank + 2 ^ 52, hroom⟩, Or.inl ?_⟩
      have hdoublings : doublings ⟨m.rank + 2 ^ 52, hroom⟩ = m.doublings + 1 := by
        rw [doublings_eq, doublings_eq]
        dsimp only
        omega
      have hsignificand : m.rank + 2 ^ 52 - (m.doublings + 1) * 2 ^ 52 =
          m.rank - m.doublings * 2 ^ 52 := by omega
      rw [units_eq, units_eq, hdoublings]
      dsimp only
      rw [hsignificand, pow_succ 2 m.doublings]
      ring
    · refine ⟨infinity, Or.inr ⟨rfl, ?_⟩⟩
      have hhalf : 2 * units ⟨2046 * 2 ^ 52, by decide⟩ = infinity.units := by decide +kernel
      have hm : units ⟨2046 * 2 ^ 52, by decide⟩ ≤ m.units := by
        rw [← rank_le_iff]
        show 2046 * 2 ^ 52 ≤ m.rank
        rw [infinityRank, natPow_eq] at hroom
        omega
      rw [← hhalf]
      exact Nat.mul_le_mul_left 2 hm

theorem exists_units_eq_pow {k : ℕ} (h : k < infinityExponent) :
    ∃ m : Magnitude, m.units = 2 ^ k := by
  induction k with
  | zero => exact ⟨⟨1, by decide⟩, by decide +kernel⟩
  | succ k ih =>
    obtain ⟨m, hm⟩ := ih (Nat.lt_of_succ_lt h)
    obtain ⟨twice, htwice | ⟨-, hlarge⟩⟩ := exists_twice m
    · exact ⟨twice, by rw [htwice, hm, pow_succ']⟩
    · rw [units_infinity, hm, ← pow_succ'] at hlarge
      have hexponent := (Nat.pow_le_pow_iff_right Nat.one_lt_two).mp hlarge
      omega

/-! ### Half of a rounded number -/

theorem lt_of_isFinite_nearest (h : (nearest num 1).isFinite = true) : num < infinity.units := by
  by_contra hlarge
  have hle : infinity.units * 1 ≤ num := by omega
  exact absurd (isFinite_of_units_le (le_units_nearest Nat.one_pos hle) h) (by decide)

/-- What is at most half of a number is at most half of it after rounding, -/
theorem le_half_nearest (hfinite : (nearest num 1).isFinite = true) (h : 2 * m.units ≤ num) :
    m.units ≤ (nearest (nearest num 1).units 2).units := by
  refine le_units_nearest Nat.two_pos ?_
  rw [Nat.mul_comm]
  obtain ⟨twice, htwice | ⟨-, hlarge⟩⟩ := exists_twice m
  · rw [← htwice]
    exact le_units_nearest Nat.one_pos (by rw [Nat.mul_one, htwice]; exact h)
  · have hlt := lt_of_isFinite_nearest hfinite
    omega

/-- and so is what is at least half of it. -/
theorem half_nearest_le (h : num ≤ 2 * m.units) :
    (nearest (nearest num 1).units 2).units ≤ m.units := by
  refine units_nearest_le Nat.two_pos ?_
  rw [Nat.mul_comm]
  obtain ⟨twice, htwice | ⟨-, hlarge⟩⟩ := exists_twice m
  · rw [← htwice]
    exact units_nearest_le Nat.one_pos (by rw [Nat.mul_one, htwice]; exact h)
  · refine le_trans ?_ hlarge
    rw [← rank_le_iff]
    exact rank_le _

theorem half_nearest_le_self (hfinite : (nearest num 1).isFinite = true) :
    (nearest (nearest num 1).units 2).units ≤ num := by
  rcases Nat.eq_zero_or_pos num with rfl | hpos
  · decide +kernel
  · -- The greatest power of two up to the number is a magnitude, and at least half of the number.
    have hlog : num.log2 < infinityExponent := by
      rw [Nat.log2_lt hpos.ne', ← units_infinity]
      exact lt_of_isFinite_nearest hfinite
    obtain ⟨m, hm⟩ := exists_units_eq_pow hlog
    have hle : m.units ≤ num := by rw [hm]; exact Nat.log2_self_le hpos.ne'
    have hlt : num < 2 * m.units := by rw [hm, ← pow_succ']; exact Nat.lt_log2_self
    exact (half_nearest_le (Nat.le_of_lt hlt)).trans hle

theorem isFinite_half (h : m.isFinite = true) : (nearest m.units 2).isFinite = true :=
  isFinite_of_units_le (units_nearest_le Nat.two_pos (by omega)) h

/-! ### Numbers too large -/

/-- From here on the nearest magnitude is infinite: half a step above the greatest finite one, in
units of `2 ^ -1074`. -/
def overflow : ℕ := (2 ^ 54 - 1) * 2 ^ 2044

theorem isFinite_nearest_iff (num : ℕ) : (nearest num 1).isFinite = true ↔ num < overflow := by
  have hbelow : nearestRank (overflow - 1) 1 < infinityRank := by decide +kernel
  have hat : nearestRank overflow 1 = infinityRank := by decide +kernel
  have hpos : 0 < overflow := by decide +kernel
  constructor
  · intro h
    by_contra hge
    have hmono := nearestRank_mono (Nat.le_of_not_lt hge) 1
    have hlt : nearestRank num 1 < infinityRank := of_decide_eq_true h
    omega
  · intro h
    have hmono := nearestRank_mono (Nat.le_sub_one_of_lt h) 1
    exact decide_eq_true (Nat.lt_of_le_of_lt hmono hbelow)

end Magnitude

end BenchLedger
