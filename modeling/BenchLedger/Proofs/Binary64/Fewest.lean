import BenchLedger.Proofs.Binary64.Rounding

/-! # The fewest digits

Reading keeps the order of decimals (`rank_ofDecimal_le`), so what stands between two decimals that
read back as a magnitude reads back as it too. The value itself does, so a grid on which some
decimal reads back has a neighbour of the value that does (`ofDecimal_ne_of_onGrid?`), and the
search for the shortest decimal stops at the first such grid (`exists_grid_shortest`).

A decimal with fewer digits than the one found there would stand on a coarser grid, or have a power
of ten between itself and the one found, which stands on a coarser grid too. So there is none
(`length_digits_shortest_le`). -/

namespace BenchLedger.Magnitude

/-! ### Decimals with a common exponent -/

/-- The magnitude nearest to a number of units of `10 ^ -scale`. -/
def ofScaled (scale number : ℕ) : Magnitude := nearest (number * 2 ^ 1074) (10 ^ scale)

theorem ofScaled_add (scale number more : ℕ) :
    ofScaled (scale + more) (number * 10 ^ more) = ofScaled scale number := by
  have hpow : 0 < 10 ^ more := Nat.pow_pos (by decide)
  rw [ofScaled, ofScaled, ← nearest_scale (number * 2 ^ 1074) (10 ^ scale) hpow, pow_add,
    Nat.mul_right_comm]

theorem rank_ofScaled_le {number number' : ℕ} (h : number ≤ number') (scale : ℕ) :
    (ofScaled scale number).rank ≤ (ofScaled scale number').rank :=
  nearestRank_mono (Nat.mul_le_mul_right _ h) _

theorem ofScaled_between {m : Magnitude} {scale low number high : ℕ} (hlow : ofScaled scale low = m)
    (hhigh : ofScaled scale high = m) (h : low ≤ number) (h' : number ≤ high) :
    ofScaled scale number = m := by
  have hle := rank_ofScaled_le h scale
  have hge := rank_ofScaled_le h' scale
  rw [hlow] at hle
  rw [hhigh] at hge
  exact eq_of_rank_eq (Nat.le_antisymm hge hle)

/-! ### Decimals beyond the bounds -/

theorem nearest_of_small {num den : ℕ} (h : 2 * num < den) : nearest num den = zero := by
  refine eq_of_rank_eq ?_
  have hdiv : num / den = 0 := Nat.div_eq_of_lt (by omega)
  have hmod : num % den = num := Nat.mod_eq_of_lt (by omega)
  have hround : roundDiv num den = 0 := by
    unfold roundDiv
    simp only [hdiv, hmod, if_pos h]
  show nearestRank num den = 0
  rw [nearestRank_eq, hdiv]
  simp [hround]

theorem nearest_of_large {num den : ℕ} (hden : 0 < den) (h : infinity.units * den ≤ num) :
    nearest num den = infinity := by
  have hle := rank_le_iff.mpr (le_units_nearest hden h)
  exact eq_of_rank_eq (Nat.le_antisymm (rank_le _) hle)

theorem ofScaled_of_log2_le {digits down : ℕ} (h : digits.log2 + 331 ≤ down) :
    ofScaled down digits = zero := by
  refine nearest_of_small ?_
  have hscale : 2 * (2 * 2 ^ 1074) ≤ 10 ^ 331 := by decide +kernel
  have hpos : 0 < 2 ^ 1074 := pow_pos (by decide) 1074
  have hdigits : digits < 2 ^ (digits.log2 + 1) := Nat.lt_log2_self
  generalize 2 ^ 1074 = scale at hscale hpos ⊢
  calc 2 * (digits * scale) < 2 * (2 ^ (digits.log2 + 1) * scale) := by gcongr
    _ = 2 ^ digits.log2 * (2 * (2 * scale)) := by ring
    _ ≤ 10 ^ digits.log2 * 10 ^ 331 := Nat.mul_le_mul (Nat.pow_le_pow_left (by decide) _) hscale
    _ = 10 ^ (digits.log2 + 331) := (pow_add ..).symm
    _ ≤ 10 ^ down := Nat.pow_le_pow_right (by decide) h

theorem ofScaled_of_four_hundred_le {digits up : ℕ} (hdigits : digits ≠ 0) (h : 400 ≤ up) :
    ofScaled 0 (digits * 10 ^ up) = infinity := by
  have hscale : infinity.units * 10 ^ 0 ≤ 10 ^ 400 * 2 ^ 1074 := by decide +kernel
  have hdigits : 10 ^ 400 ≤ digits * 10 ^ up :=
    calc 10 ^ 400 ≤ 10 ^ up := pow_le_pow_right₀ (by decide) h
      _ ≤ digits * 10 ^ up := Nat.le_mul_of_pos_left _ (Nat.pos_of_ne_zero hdigits)
  refine nearest_of_large (Nat.pow_pos (by decide)) (hscale.trans ?_)
  generalize 2 ^ 1074 = scale
  exact Nat.mul_le_mul_right scale hdigits

theorem ofScaled_zero (scale : ℕ) : ofScaled scale 0 = zero :=
  nearest_of_small (by rw [Nat.zero_mul]; exact Nat.pow_pos (by decide))

theorem ofDecimal_of_le (digits : ℕ) {exponent : ℤ} (h : 400 ≤ exponent) :
    ofDecimal digits exponent = ofDecimal digits (400 : ℕ) := by
  have hclamp : min exponent 400 = min ((400 : ℕ) : ℤ) 400 := by omega
  rw [ofDecimal, ofDecimal, hclamp]

theorem ofDecimal_of_ge (digits : ℕ) {exponent : ℤ}
    (h : exponent ≤ Int.negSucc (digits.log2 + 330)) :
    ofDecimal digits exponent = ofDecimal digits (Int.negSucc (digits.log2 + 330)) := by
  have hclamp : max (-((digits.log2 + 331 : ℕ) : ℤ)) (min exponent 400) =
      max (-((digits.log2 + 331 : ℕ) : ℤ)) (min (Int.negSucc (digits.log2 + 330)) 400) := by
    rw [Int.negSucc_eq] at h ⊢
    omega
  rw [ofDecimal, ofDecimal, hclamp]

theorem ofDecimal_natCast (digits up : ℕ) :
    ofDecimal digits up = ofScaled 0 (digits * 10 ^ up) := by
  rcases Nat.le_total up 400 with hsmall | hlarge
  · exact ofDecimal_ofNat digits hsmall
  · have hbound : ofDecimal digits (400 : ℕ) = ofScaled 0 (digits * 10 ^ 400) :=
      ofDecimal_ofNat digits le_rfl
    rw [ofDecimal_of_le digits (by omega), hbound]
    rcases Nat.eq_zero_or_pos digits with rfl | hpos
    · simp only [Nat.zero_mul]
    · rw [ofScaled_of_four_hundred_le hpos.ne' le_rfl, ofScaled_of_four_hundred_le hpos.ne' hlarge]

theorem ofDecimal_negative (digits down : ℕ) :
    ofDecimal digits (Int.negSucc down) = ofScaled (down + 1) digits := by
  rcases Nat.le_total (down + 1) (digits.log2 + 331) with hsmall | hlarge
  · exact ofDecimal_negSucc digits hsmall
  · have hbound : ofDecimal digits (Int.negSucc (digits.log2 + 330)) =
        ofScaled (digits.log2 + 331) digits := ofDecimal_negSucc digits le_rfl
    rw [ofDecimal_of_ge digits (by rw [Int.negSucc_eq, Int.negSucc_eq]; omega), hbound,
      ofScaled_of_log2_le le_rfl, ofScaled_of_log2_le hlarge]

theorem ofDecimal_zero (exponent : ℤ) : ofDecimal 0 exponent = zero := by
  cases exponent with
  | ofNat up => rw [Int.ofNat_eq_natCast, ofDecimal_natCast, Nat.zero_mul, ofScaled_zero]
  | negSucc down => rw [ofDecimal_negative, ofScaled_zero]

theorem pos_of_ofDecimal {m : Magnitude} (hm : m ≠ zero) {digits : ℕ} {exponent : ℤ}
    (h : ofDecimal digits exponent = m) : 0 < digits := by
  rw [Nat.pos_iff_ne_zero]
  rintro rfl
  exact hm (h.symm.trans (ofDecimal_zero exponent))

/-- **A decimal is read as a number of small units**, whatever its exponent. -/
theorem ofDecimal_sub (digits up scale : ℕ) :
    ofDecimal digits ((up : ℤ) - scale) = ofScaled scale (digits * 10 ^ up) := by
  rcases Nat.lt_or_ge up scale with hlt | hge
  · obtain ⟨down, rfl⟩ := Nat.exists_eq_add_of_lt hlt
    have hexponent : (up : ℤ) - (up + down + 1 : ℕ) = Int.negSucc down := by
      rw [Int.negSucc_eq]
      omega
    rw [hexponent, ofDecimal_negative, ← ofScaled_add (down + 1) digits up]
    congr 1
    omega
  · obtain ⟨more, rfl⟩ := Nat.exists_eq_add_of_le hge
    have hexponent : ((scale + more : ℕ) : ℤ) - scale = more := by omega
    rw [hexponent, ofDecimal_natCast, ← ofScaled_add 0 (digits * 10 ^ more) scale, Nat.zero_add,
      Nat.mul_assoc, ← pow_add, Nat.add_comm]

/-- **Reading keeps the order of decimals.** -/
theorem rank_ofDecimal_le {digits digits' : ℕ} {exponent exponent' : ℤ} (h : digits ≤ digits')
    (h' : exponent ≤ exponent') :
    (ofDecimal digits exponent).rank ≤ (ofDecimal digits' exponent').rank := by
  -- Both exponents are at least `-scale`.
  obtain ⟨scale, up, hup⟩ : ∃ scale up : ℕ, exponent = (up : ℤ) - scale :=
    ⟨exponent.natAbs, (exponent + exponent.natAbs).toNat, by omega⟩
  obtain ⟨more, hmore⟩ : ∃ more : ℕ, exponent' = ((up + more : ℕ) : ℤ) - scale :=
    ⟨(exponent' - exponent).toNat, by omega⟩
  rw [hup, hmore, ofDecimal_sub, ofDecimal_sub]
  refine rank_ofScaled_le (Nat.mul_le_mul h ?_) scale
  exact Nat.pow_le_pow_right (by decide) (Nat.le_add_right up more)

/-! ### Grids -/

section Grids
variable {m : Magnitude}

theorem rank_ne_zero (h : m ≠ zero) : m.rank ≠ 0 := fun hrank => h (eq_of_rank_eq hrank)

theorem ofScaled_decimalUnits (h : m ≠ zero) : ofScaled 1074 m.decimalUnits = m := by
  have hback : ofDecimal m.decimalUnits ((0 : ℕ) - (1074 : ℕ) : ℤ) = m :=
    of_decide_eq_true (readsBack_decimalUnits (units_ne_zero (rank_ne_zero h)))
  rwa [ofDecimal_sub, pow_zero, Nat.mul_one] at hback

theorem ofDecimal_grid (digits k : ℕ) :
    ofDecimal digits ((k : ℤ) - 1074) = ofScaled 1074 (digits * 10 ^ k) :=
    ofDecimal_sub digits k 1074

theorem digits_of_onGrid? {k : ℕ} {d : Decimal} (h : m.onGrid? k = some d) :
    (d.digits = m.decimalUnits / 10 ^ k ∨ d.digits = m.decimalUnits / 10 ^ k + 1) ∧
      d.exponent = (k : ℤ) - 1074 := by
  unfold onGrid? at h
  simp only [natPow_eq] at h
  split_ifs at h <;> obtain rfl := Option.some.inj h <;> simp

theorem neighbours_of_onGrid? {k : ℕ} (h : m.onGrid? k = none) :
    ofDecimal (m.decimalUnits / 10 ^ k) ((k : ℤ) - 1074) ≠ m ∧
      ofDecimal (m.decimalUnits / 10 ^ k + 1) ((k : ℤ) - 1074) ≠ m := by
  unfold onGrid? readsBack at h
  simp only [natPow_eq] at h
  split_ifs at h <;> simp_all

/-- **If neither neighbour of the value reads back, then nothing on the grid does.** -/
theorem ofDecimal_ne_of_onGrid? (hm : m ≠ zero) {k : ℕ} (h : m.onGrid? k = none) (digits : ℕ) :
    ofDecimal digits ((k : ℤ) - 1074) ≠ m := by
  intro hread
  obtain ⟨hlow, hhigh⟩ := neighbours_of_onGrid? h
  have hvalue := ofScaled_decimalUnits hm
  have hpos : 0 < 10 ^ k := Nat.pow_pos (by decide)
  rw [ofDecimal_grid] at hread hlow hhigh
  rcases Nat.lt_or_ge (m.decimalUnits / 10 ^ k) digits with habove | hbelow
  · refine hhigh (ofScaled_between hvalue hread ?_ (Nat.mul_le_mul_right _ habove))
    exact (Nat.lt_mul_of_div_lt (Nat.lt_succ_self _) hpos).le
  · exact hlow (ofScaled_between hread hvalue (Nat.mul_le_mul_right _ hbelow)
      (Nat.div_mul_le_self _ _))

theorem exists_grid (m : Magnitude) (first : ℕ) : ∃ k ≤ first,
    ((m.coarsest first).digits = m.decimalUnits / 10 ^ k ∨
      (m.coarsest first).digits = m.decimalUnits / 10 ^ k + 1) ∧
    (m.coarsest first).exponent = (k : ℤ) - 1074 ∧ ∀ j, k < j → j ≤ first → m.onGrid? j = none := by
  induction first with
  | zero =>
    refine ⟨0, le_rfl, Or.inl ?_, rfl, fun j hj hle => by omega⟩
    rw [coarsest, pow_zero, Nat.div_one]
  | succ first ih =>
    rw [coarsest]
    cases hgrid : m.onGrid? (first + 1) with
    | some d =>
      obtain ⟨hdigits, hexponent⟩ := digits_of_onGrid? hgrid
      exact ⟨first + 1, le_rfl, hdigits, hexponent, fun j hj hle => by omega⟩
    | none =>
      obtain ⟨k, hk, hdigits, hexponent, hnone⟩ := ih
      refine ⟨k, Nat.le_succ_of_le hk, hdigits, hexponent, fun j hj hle => ?_⟩
      rcases Nat.le_succ_iff.mp hle with hle | rfl
      · exact hnone j hj hle
      · exact hgrid

/-- **The shortest decimal stands on the coarsest grid on which a decimal reads back**, among those
that are searched. Should one read back on a coarser grid still, then the shortest is a single
unit. -/
theorem exists_grid_shortest (hm : m ≠ zero) : ∃ k : ℕ, m.shortest.exponent = (k : ℤ) - 1074 ∧
    ∀ j digits : ℕ, k < j → ofDecimal digits ((j : ℤ) - 1074) = m → m.shortest.digits ≤ 1 := by
  rw [shortest, if_neg (rank_ne_zero hm)]
  obtain ⟨k, hk, hdigits, hexponent, hnone⟩ :=
    exists_grid m (Nat.toDigits 10 m.decimalUnits).length
  set first := (Nat.toDigits 10 m.decimalUnits).length with hfirst
  refine ⟨k, hexponent, fun j digits hj hread => ?_⟩
  have hlt : m.decimalUnits < 10 ^ first :=
    (Nat.length_toDigits_le_iff (by decide) Nat.length_toDigits_pos).mp hfirst.ge
  rcases Nat.lt_or_ge first j with hlarge | hsmall
  · -- Beyond the first grid: the unit of the first grid stands between the value and the decimal.
    have hpos : 0 < digits := pos_of_ofDecimal hm hread
    rw [ofDecimal_grid] at hread
    have hunit : ofScaled 1074 (1 * 10 ^ first) = m := by
      refine ofScaled_between (ofScaled_decimalUnits hm) hread (by omega) ?_
      exact Nat.mul_le_mul hpos (Nat.pow_le_pow_right (by decide) hlarge.le)
    have hfirst : k = first := by
      by_contra hne
      exact ofDecimal_ne_of_onGrid? hm (hnone first (by omega) le_rfl) 1
        (by rw [ofDecimal_grid]; exact hunit)
    rw [hfirst, Nat.div_eq_of_lt hlt] at hdigits
    omega
  · exact absurd hread (ofDecimal_ne_of_onGrid? hm (hnone j hj hsmall) digits)

/-! ### The shortest decimal -/

/-- **No decimal with fewer digits reads back.** -/
theorem length_digits_shortest_le {digits : ℕ} {exponent : ℤ} (h : ofDecimal digits exponent = m) :
    (Nat.toDigits 10 m.shortest.digits).length ≤ (Nat.toDigits 10 digits).length := by
  have hlength : 0 < (Nat.toDigits 10 digits).length := Nat.length_toDigits_pos
  by_cases hm : m = zero
  · subst hm
    exact hlength
  obtain ⟨k, hexponent, hcoarser⟩ := exists_grid_shortest hm
  have hback := ofDecimal_shortest m
  rw [hexponent] at hback
  generalize m.shortest.digits = fewest at hcoarser hback ⊢
  generalize hcount : (Nat.toDigits 10 digits).length = count at hlength ⊢
  rw [Nat.length_toDigits_le_iff (by decide) hlength]
  have hdigits : digits < 10 ^ count :=
    (Nat.length_toDigits_le_iff (by decide) hlength).mp hcount.le
  by_contra hlarge
  have hone : ¬ fewest ≤ 1 := by
    have hten : 10 ^ 1 ≤ 10 ^ count := Nat.pow_le_pow_right (by decide) hlength
    omega
  rcases lt_or_ge ((k : ℤ) - 1074) exponent with hcoarse | hfine
  · obtain ⟨j, rfl⟩ : ∃ j : ℕ, exponent = (j : ℤ) - 1074 := ⟨(exponent + 1074).toNat, by omega⟩
    exact hone (hcoarser j digits (by omega) h)
  · -- The power of ten with one digit more stands between the two decimals.
    obtain ⟨more, rfl⟩ : ∃ more : ℕ, exponent = (k : ℤ) - (1074 + more : ℕ) :=
      ⟨((k : ℤ) - 1074 - exponent).toNat, by omega⟩
    have hback' : ofScaled (1074 + more) (fewest * 10 ^ k * 10 ^ more) = m := by
      rw [ofScaled_add, ← ofDecimal_grid, hback]
    rw [ofDecimal_sub] at h
    have hpower : ofScaled (1074 + more) (1 * 10 ^ (k + count) * 10 ^ more) = m := by
      refine ofScaled_between h hback' ?_ (Nat.mul_le_mul_right _ ?_)
      · calc digits * 10 ^ k ≤ 10 ^ count * 10 ^ k := Nat.mul_le_mul_right _ hdigits.le
          _ = 1 * 10 ^ (k + count) := by rw [pow_add, Nat.one_mul, Nat.mul_comm]
          _ ≤ 1 * 10 ^ (k + count) * 10 ^ more :=
              Nat.le_mul_of_pos_right _ (Nat.pow_pos (by decide))
      · rw [pow_add, Nat.one_mul, Nat.mul_comm]
        exact Nat.mul_le_mul_right _ (Nat.le_of_not_lt hlarge)
    rw [ofScaled_add, ← ofDecimal_grid] at hpower
    exact hone (hcoarser (k + count) 1 (by omega) hpower)

end Grids

end BenchLedger.Magnitude
