import BenchLedger.Proofs.Binary64.Rounding
import Mathlib.Tactic.Common

/-! # The mean of two numbers

The mean is half of the rounded sum. It is finite just if the sum does not round to an infinite
number (`SumInRange`, `isFinite_mean_iff`), and then it lies between the two numbers
(`mean_between`), no further from either than a finite number reaches (`isFinite_distance_mean`). -/

namespace BenchLedger.Binary64

open Magnitude

variable {x y z : Binary64}

/-- The exact sum of two finite numbers does not round to an infinite one. -/
def SumInRange (x y : Binary64) : Prop := (x.units + y.units).natAbs < overflow

instance (x y : Binary64) : Decidable (SumInRange x y) := inferInstanceAs (Decidable (_ < _))

/-! ### The mean -/

/-- The size of the mean: half of the rounded sum, rounded again. -/
def meanSize (x y : Binary64) : Magnitude :=
  nearest (nearest (x.units + y.units).natAbs 1).units 2

/-- The number without its sign. -/
def size : Binary64 → Magnitude
  | nan => .zero
  | signed _ size => size

theorem units_false (m : Magnitude) : (signed false m).units = m.units := rfl

theorem units_true (m : Magnitude) : (signed true m).units = -m.units := by
  rw [units, if_pos rfl]

theorem natAbs_units (x : Binary64) : x.units.natAbs = x.size.units := by
  cases x with
  | nan => decide +kernel
  | signed negative m =>
    cases negative with
    | false => rw [units_false, Int.natAbs_natCast, size]
    | true => rw [units_true, Int.natAbs_neg, Int.natAbs_natCast, size]

theorem isFinite_size (h : x.isFinite = true) : x.size.isFinite = true := by
  cases x with
  | nan => cases h
  | signed negative m => exact h

theorem units_neg (x : Binary64) : x.neg.units = -x.units := by
  cases x with
  | nan => rfl
  | signed negative m =>
    cases negative with
    | false => rw [neg, Bool.not_false, units_true, units_false]
    | true => rw [neg, Bool.not_true, units_true, units_false, neg_neg]

theorem isFinite_neg (x : Binary64) : x.neg.isFinite = x.isFinite := by
  cases x <;> rfl

theorem add_eq (hx : x.isFinite = true) (hy : y.isFinite = true) :
    ∃ minusZero, x.add y = ofUnits minusZero (x.units + y.units) := by
  cases x with
  | nan => cases hx
  | signed s a =>
    cases y with
    | nan => cases hy
    | signed t b =>
      simp only [isFinite] at hx hy
      exact ⟨s && t, by simp [add, hx, hy]⟩

theorem mean_eq (hx : x.isFinite = true) (hy : y.isFinite = true) :
    ∃ negative, x.mean y = (signed negative (nearest (x.units + y.units).natAbs 1)).half ∧
      (x.units + y.units ≠ 0 → negative = decide (x.units + y.units < 0)) := by
  obtain ⟨minusZero, hadd⟩ := add_eq hx hy
  refine ⟨_, by rw [mean, hadd, ofUnits], fun hne => if_neg hne⟩

theorem isFinite_mean_iff (hx : x.isFinite = true) (hy : y.isFinite = true) :
    (x.mean y).isFinite = true ↔ x.SumInRange y := by
  obtain ⟨negative, hmean, -⟩ := mean_eq hx hy
  rw [hmean, SumInRange, ← isFinite_nearest_iff, half]
  dsimp only [isFinite]
  split_ifs with h
  · exact iff_of_true (isFinite_half h) h
  · exact iff_of_false h h

theorem isFinite_mean_of_not (hx : x.isFinite = false) (hy : y.isFinite = true) :
    (x.mean y).isFinite = false := by
  cases x with
  | nan => rfl
  | signed s a =>
    cases y with
    | nan => cases hy
    | signed t b =>
      simp only [isFinite] at hx hy
      simp [mean, add, half, isFinite, hx, hy]

theorem units_mean (hx : x.isFinite = true) (hy : y.isFinite = true) (h : x.SumInRange y) :
    (0 ≤ x.units + y.units → (x.mean y).units = (meanSize x y).units) ∧
      (x.units + y.units ≤ 0 → (x.mean y).units = -(meanSize x y).units) := by
  obtain ⟨negative, hmean, hsign⟩ := mean_eq hx hy
  have hsize : x.mean y = signed negative (meanSize x y) := by
    rw [hmean, half, if_pos ((isFinite_nearest_iff _).mpr h)]
    rfl
  rw [hsize]
  by_cases hzero : x.units + y.units = 0
  · have hnone : (meanSize x y).units = 0 := by
      rw [meanSize, hzero]
      decide +kernel
    simp [units, hnone]
  · rw [hsign hzero]
    constructor
    · intro hnonneg
      rw [decide_eq_false (not_lt.mpr hnonneg), units_false]
    · intro hnonpos
      rw [decide_eq_true (lt_of_le_of_ne hnonpos hzero), units_true]

section InRange

variable (hx : x.isFinite = true) (hy : y.isFinite = true) (h : x.SumInRange y)
include hx hy h

theorem le_units_mean (hz : 2 * z.units ≤ x.units + y.units) : z.units ≤ (x.mean y).units := by
  obtain ⟨hnonneg, hnonpos⟩ := units_mean hx hy h
  have hm := natAbs_units z
  have hfinite := (isFinite_nearest_iff _).mpr h
  rcases le_total 0 (x.units + y.units) with hsum | hsum
  · rw [hnonneg hsum]
    have hle : 0 ≤ z.units → z.size.units ≤ (meanSize x y).units := fun hpos =>
      le_half_nearest hfinite (by omega)
    omega
  · rw [hnonpos hsum]
    have hle : (meanSize x y).units ≤ z.size.units := half_nearest_le (by omega)
    omega

theorem units_mean_le (hz : x.units + y.units ≤ 2 * z.units) : (x.mean y).units ≤ z.units := by
  obtain ⟨hnonneg, hnonpos⟩ := units_mean hx hy h
  have hm := natAbs_units z
  have hfinite := (isFinite_nearest_iff _).mpr h
  rcases le_total 0 (x.units + y.units) with hsum | hsum
  · rw [hnonneg hsum]
    have hle : (meanSize x y).units ≤ z.size.units := half_nearest_le (by omega)
    omega
  · rw [hnonpos hsum]
    have hle : z.units ≤ 0 → z.size.units ≤ (meanSize x y).units := fun hneg =>
      le_half_nearest hfinite (by omega)
    omega

/-- **The mean lies between the two numbers.** -/
theorem mean_between :
    min x.units y.units ≤ (x.mean y).units ∧ (x.mean y).units ≤ max x.units y.units := by
  rcases le_total x.units y.units with hle | hle
  · rw [min_eq_left hle, max_eq_right hle]
    exact ⟨le_units_mean hx hy h (by omega), units_mean_le hx hy h (by omega)⟩
  · rw [min_eq_right hle, max_eq_left hle]
    exact ⟨le_units_mean hx hy h (by omega), units_mean_le hx hy h (by omega)⟩

end InRange

/-! ### The distance from the mean -/

theorem distance_eq (hx : x.isFinite = true) (hy : y.isFinite = true) :
    x.distance y = signed false (nearest (x.units - y.units).natAbs 1) := by
  have hneg : y.neg.isFinite = true := by rw [isFinite_neg, hy]
  obtain ⟨minusZero, hadd⟩ := add_eq hx hneg
  rw [distance, sub, hadd, units_neg, ← sub_eq_add_neg]
  rfl

theorem natAbs_mean_sub_le (hx : x.isFinite = true) (hy : y.isFinite = true) (h : x.SumInRange y) :
    ((x.mean y).units - y.units).natAbs ≤ x.units.natAbs ∨
      ((x.mean y).units - y.units).natAbs ≤ y.units.natAbs := by
  obtain ⟨hnonneg, hnonpos⟩ := units_mean hx hy h
  have hle : (meanSize x y).units ≤ (x.units + y.units).natAbs :=
    half_nearest_le_self ((isFinite_nearest_iff _).mpr h)
  -- The mean lies between zero and the sum.
  rcases le_total 0 (x.units + y.units) with hsum | hsum
  · have hmean := hnonneg hsum
    omega
  · have hmean := hnonpos hsum
    omega

theorem isFinite_distance_mean (hx : x.isFinite = true) (hy : y.isFinite = true)
    (h : x.SumInRange y) : ((x.mean y).distance y).isFinite = true := by
  rw [distance_eq ((isFinite_mean_iff hx hy).mpr h) hy]
  have hfinite : ∀ z : Binary64, z.isFinite = true →
      ((x.mean y).units - y.units).natAbs ≤ z.units.natAbs →
      (nearest ((x.mean y).units - y.units).natAbs 1).isFinite = true := by
    intro z hz hle
    rw [natAbs_units, ← Nat.mul_one z.size.units] at hle
    exact isFinite_of_units_le (units_nearest_le Nat.one_pos hle) (isFinite_size hz)
  rcases natAbs_mean_sub_le hx hy h with hle | hle
  · exact hfinite x hx hle
  · exact hfinite y hy hle

theorem units_distance_nonneg (x y : Binary64) : 0 ≤ (x.distance y).units := by
  unfold distance
  cases x.sub y with
  | nan => exact le_rfl
  | signed negative m => exact Int.natCast_nonneg _

end BenchLedger.Binary64
