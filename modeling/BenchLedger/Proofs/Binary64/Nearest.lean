import BenchLedger.Binary64.Shortest
import Mathlib.Tactic.Ring
import Mathlib.Tactic.NormNum

/-! # The nearest magnitude

The magnitude nearest to a quotient depends on the quotient alone (`nearest_scale`), and a magnitude
is the nearest to its own value (`nearest_units`). So the decimal that writes a magnitude with the
fewest digits reads back as this magnitude (`ofDecimal_shortest`). -/

namespace BenchLedger.Magnitude

/-! ### Rounding a quotient -/

theorem roundDiv_scale (num den : ℕ) {c : ℕ} (hc : 0 < c) :
    roundDiv (num * c) (den * c) = roundDiv num den := by
  unfold roundDiv
  have hlow : 2 * (num % den * c) < den * c ↔ 2 * (num % den) < den := by
    rw [← Nat.mul_assoc, Nat.mul_lt_mul_right hc]
  have hhigh : den * c < 2 * (num % den * c) ↔ den < 2 * (num % den) := by
    rw [← Nat.mul_assoc, Nat.mul_lt_mul_right hc]
  simp only [Nat.mul_div_mul_right _ _ hc, Nat.mul_mod_mul_right, hlow, hhigh]

/-- **The nearest magnitude depends on the quotient alone.** -/
theorem nearest_scale (num den : ℕ) {c : ℕ} (hc : 0 < c) :
    nearest (num * c) (den * c) = nearest num den := by
  have hrank : nearestRank (num * c) (den * c) = nearestRank num den := by
    unfold nearestRank
    simp only [Nat.mul_div_mul_right _ _ hc]
    rw [Nat.mul_right_comm, roundDiv_scale _ _ hc]
  unfold nearest
  simp only [hrank]

theorem roundDiv_mul_self (whole : ℕ) {den : ℕ} (hd : 0 < den) :
    roundDiv (whole * den) den = whole := by
  unfold roundDiv
  simp only [Nat.mul_div_cancel _ hd, Nat.mul_mod_left, Nat.mul_zero, if_pos hd]

/-! ### The value of a magnitude -/

theorem natPow_eq (base exponent : ℕ) : Nat.pow base exponent = base ^ exponent := rfl

theorem doublings_eq (m : Magnitude) : m.doublings = m.rank / 2 ^ 52 - 1 := rfl

theorem units_eq (m : Magnitude) :
    m.units = (m.rank - m.doublings * 2 ^ 52) * 2 ^ m.doublings := rfl

theorem nearestRank_eq (num den : ℕ) : nearestRank num den =
    min (((num / den).log2 - 52) * 2 ^ 52 + roundDiv num (den * 2 ^ ((num / den).log2 - 52)))
      (2047 * 2 ^ 52) := rfl

theorem significand_bounds (m : Magnitude) :
    m.rank < 2 ^ 52 ∧ m.doublings = 0 ∨
      2 ^ 52 ≤ m.rank - m.doublings * 2 ^ 52 ∧ m.rank - m.doublings * 2 ^ 52 < 2 ^ 53 := by
  rw [doublings_eq]
  rcases Nat.lt_or_ge m.rank (2 ^ 52) with h | h
  · exact Or.inl ⟨h, by omega⟩
  · right; omega

theorem log2_units {m : Magnitude} (h : 2 ^ 52 ≤ m.rank - m.doublings * 2 ^ 52)
    (h' : m.rank - m.doublings * 2 ^ 52 < 2 ^ 53) : m.units.log2 = 52 + m.doublings := by
  have hpos : 0 < 2 ^ m.doublings := Nat.two_pow_pos _
  rw [units_eq]
  generalize m.rank - m.doublings * 2 ^ 52 = s at h h'
  rw [Nat.log2_eq_iff (Nat.mul_ne_zero (by omega) (by omega)), pow_add,
    show 52 + m.doublings + 1 = 53 + m.doublings by ring, pow_add]
  exact ⟨Nat.mul_le_mul_right _ h, Nat.mul_lt_mul_of_pos_right h' hpos⟩

theorem units_ne_zero {m : Magnitude} (h : m.rank ≠ 0) : m.units ≠ 0 := by
  have hlow : m.doublings * 2 ^ 52 < m.rank := by rw [doublings_eq]; omega
  rw [units_eq]
  exact Nat.mul_ne_zero (by omega) (Nat.two_pow_pos _).ne'

/-- **A magnitude is the nearest to its own value.** -/
theorem nearest_units (m : Magnitude) : nearest m.units 1 = m := by
  suffices hrank : nearestRank m.units 1 = m.rank by
    unfold nearest
    simp only [hrank]
  have hle : m.rank ≤ 2047 * 2 ^ 52 := m.rank_le
  have hd : m.doublings * 2 ^ 52 ≤ m.rank := by rw [doublings_eq]; omega
  rw [nearestRank_eq]
  simp only [Nat.div_one, Nat.one_mul]
  rcases significand_bounds m with ⟨hr, h0⟩ | ⟨hlow, hhigh⟩
  · have hunits : m.units = m.rank := by rw [units_eq, h0]; simp
    have hlog : m.rank.log2 - 52 = 0 := by
      rcases Nat.eq_zero_or_pos m.rank with hz | hp
      · rw [hz]; rfl
      · have := (Nat.log2_lt (by omega : m.rank ≠ 0)).mpr hr
        omega
    have hround : roundDiv m.rank 1 = m.rank := by
      simpa using roundDiv_mul_self m.rank Nat.one_pos
    simp only [hunits, hlog, Nat.zero_mul, Nat.zero_add, pow_zero, hround]
    exact Nat.min_eq_left hle
  · have hround : roundDiv m.units (2 ^ m.doublings) = m.rank - m.doublings * 2 ^ 52 :=
      roundDiv_mul_self _ (Nat.two_pow_pos _)
    simp only [log2_units hlow hhigh, Nat.add_sub_cancel_left, hround]
    omega

/-! ### Decimals that read back -/

theorem ofDecimal_ofNat (digits : ℕ) {up : ℕ} (h : up ≤ 400) :
    ofDecimal digits up = nearest (digits * 10 ^ up * 2 ^ 1074) 1 := by
  have hclamp : max (-((digits.log2 + 331 : ℕ) : ℤ)) (min (up : ℤ) 400) = Int.ofNat up := by
    rw [Int.ofNat_eq_natCast]; omega
  rw [ofDecimal, hclamp]
  dsimp only
  rw [natPow_eq, natPow_eq]

theorem ofDecimal_negSucc (digits : ℕ) {down : ℕ} (h : down + 1 ≤ digits.log2 + 331) :
    ofDecimal digits (Int.negSucc down) = nearest (digits * 2 ^ 1074) (10 ^ (down + 1)) := by
  have hclamp : max (-((digits.log2 + 331 : ℕ) : ℤ)) (min (Int.negSucc down) 400) =
      Int.negSucc down := by
    rw [Int.negSucc_eq]; omega
  rw [ofDecimal, hclamp]
  dsimp only
  rw [natPow_eq, natPow_eq]

theorem ofDecimal_mul_pow (digits : ℕ) {up : ℕ} (h : up ≤ 400) :
    ofDecimal (digits * 10 ^ (up + 1)) (-1) = ofDecimal digits up := by
  rw [show (-1 : ℤ) = Int.negSucc 0 from rfl, ofDecimal_negSucc _ (by omega), ofDecimal_ofNat _ h,
    ← nearest_scale (digits * 10 ^ up * 2 ^ 1074) 1 (show 0 < 10 by decide)]
  generalize 2 ^ 1074 = scale
  congr 1
  rw [pow_succ]
  ring

theorem decimalUnits_eq (m : Magnitude) : m.decimalUnits = m.units * 5 ^ 1074 := by
  rw [decimalUnits, natPow_eq]

theorem readsBack_decimalUnits {m : Magnitude} (h : m.units ≠ 0) :
    m.readsBack ⟨m.decimalUnits, -1074⟩ = true := by
  have hlog : 1073 + 1 ≤ m.decimalUnits.log2 + 331 := by
    have hpow : ∀ n : ℕ, 2 ^ (2 * n) ≤ 5 ^ n := by
      intro n
      rw [pow_mul]
      exact Nat.pow_le_pow_left (by norm_num) n
    have hle : 2 ^ (2 * 1074) ≤ m.decimalUnits := by
      rw [decimalUnits_eq]
      exact (hpow 1074).trans (Nat.le_mul_of_pos_left _ (Nat.pos_of_ne_zero h))
    have hne : m.decimalUnits ≠ 0 := by
      rw [decimalUnits_eq]
      exact Nat.mul_ne_zero h (Nat.pow_pos (by norm_num)).ne'
    have := (Nat.le_log2 hne).mpr hle
    omega
  have hscale : m.decimalUnits * 2 ^ 1074 = m.units * 10 ^ (1073 + 1) := by
    rw [decimalUnits_eq, Nat.mul_assoc, ← mul_pow, show 5 * 2 = 10 by norm_num]
  have hread : ofDecimal m.decimalUnits (Int.negSucc 1073) = m := by
    rw [ofDecimal_negSucc _ hlog, hscale]
    have hn := nearest_scale m.units 1 (show 0 < 10 ^ (1073 + 1) from Nat.pow_pos (by norm_num))
    rw [Nat.one_mul] at hn
    rw [hn, nearest_units]
  exact decide_eq_true hread

theorem readsBack_of_onGrid? {m : Magnitude} {k : ℕ} {d : Decimal} (h : m.onGrid? k = some d) :
    m.readsBack d = true := by
  unfold onGrid? at h
  simp only at h
  split_ifs at h <;> simp_all

theorem readsBack_coarsest {m : Magnitude} (h : m.units ≠ 0) (k : ℕ) :
    m.readsBack (m.coarsest k) = true := by
  induction k with
  | zero => exact readsBack_decimalUnits h
  | succ k ih =>
    rw [coarsest]
    cases hg : m.onGrid? (k + 1) with
    | none => exact ih
    | some d => exact readsBack_of_onGrid? hg

/-- **The decimal with the fewest digits reads back.** -/
theorem ofDecimal_shortest (m : Magnitude) :
    ofDecimal m.shortest.digits m.shortest.exponent = m := by
  unfold shortest
  by_cases hr : m.rank = 0
  · have hunits : m.units = 0 := by rw [units_eq, hr]; simp
    have hn := nearest_units m
    rw [hunits] at hn
    rw [if_pos hr]
    show ofDecimal 0 (0 : ℕ) = m
    rw [ofDecimal_ofNat _ (by decide), Nat.zero_mul, Nat.zero_mul, hn]
  · rw [if_neg hr]
    exact of_decide_eq_true (readsBack_coarsest (units_ne_zero hr) _)

end BenchLedger.Magnitude
