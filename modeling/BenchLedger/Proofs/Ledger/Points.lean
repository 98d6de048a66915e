import BenchLedger.Proofs.Binary64.Fewest
import BenchLedger.Proofs.Ledger.RoundTrip

/-! # Points in the columns

The columns of a row show its two numbers (`shows_iff`). A number without an exponent is shown with
a point and a digit on each side of it. One with an exponent has a point just if it has a second
digit (`hasPoint_scientific`); it is shown with as few digits as read back, so that is a matter of
whether some decimal of one digit reads back as the number (`hasPoint_text_column`). The two columns
have points but for such numbers (`points_of_columns`). -/

namespace BenchLedger

open Text (isBlank IsWord)

/-! ### Points and whole numbers -/

namespace Text

/-- A point stands in the text, with a digit on each side of it. -/
def HasPoint (text : List Char) : Prop :=
  ∃ before left right after, text = before ++ left :: '.' :: right :: after ∧
    left.isDigit = true ∧ right.isDigit = true

/-- Digits and signs alone, as in a whole number. -/
def IsWhole (text : List Char) : Prop := ∀ c ∈ text, c.isDigit = true ∨ c = '-' ∨ c = '+'

theorem HasPoint.append_left {text : List Char} (h : HasPoint text) (before : List Char) :
    HasPoint (before ++ text) := by
  obtain ⟨first, left, right, after, rfl, hleft, hright⟩ := h
  exact ⟨before ++ first, left, right, after, (List.append_assoc ..).symm, hleft, hright⟩

theorem hasPoint_cons_of_not_isDigit {c : Char} (hc : c.isDigit = false) {text : List Char} :
    HasPoint (c :: text) ↔ HasPoint text := by
  refine ⟨?_, fun h => h.append_left [c]⟩
  rintro ⟨before, left, right, after, htext, hleft, hright⟩
  cases before with
  | nil =>
    obtain rfl : c = left := (List.cons.inj htext).1
    rw [hc] at hleft
    cases hleft
  | cons first before =>
    exact ⟨before, left, right, after, (List.cons.inj htext).2, hleft, hright⟩

theorem HasPoint.mem {text : List Char} (h : HasPoint text) : '.' ∈ text := by
  obtain ⟨before, left, right, after, rfl, -, -⟩ := h
  simp

theorem hasPoint_of_runs (whole fraction rest : List Char)
    (hwhole : ∀ c ∈ whole, c.isDigit = true) (hfraction : ∀ c ∈ fraction, c.isDigit = true)
    (hne : whole ≠ []) (hne' : fraction ≠ []) : HasPoint (whole ++ '.' :: (fraction ++ rest)) := by
  obtain ⟨before, left, rfl⟩ := List.eq_nil_or_concat whole |>.resolve_left hne
  obtain ⟨right, after, rfl⟩ := List.exists_cons_of_ne_nil hne'
  exact ⟨before, left, right, after ++ rest, by simp, hwhole left (by simp),
    hfraction right List.mem_cons_self⟩

theorem not_isWhole_of_mem {text : List Char} (h : '.' ∈ text ∨ 'e' ∈ text) : ¬ IsWhole text := by
  intro hwhole
  rcases h with h | h <;> exact absurd (hwhole _ h) (by decide)

theorem takeWhile_word {word : List Char} (h : IsWord word) (rest : List Char) :
    (word ++ ' ' :: rest).takeWhile (fun c => !isBlank c) = word := by
  have hspace : isBlank ' ' = true := by decide
  rw [List.takeWhile_append_of_pos fun c hc => by rw [h.2 c hc]; rfl,
    List.takeWhile_cons_of_neg (by rw [hspace]; decide), List.append_nil]

theorem append_space_inj {word word' rest rest' : List Char} (h : IsWord word) (h' : IsWord word')
    (heq : word ++ ' ' :: rest = word' ++ ' ' :: rest') : word = word' ∧ rest = rest' := by
  have hword : word = word' := by
    have htake := congrArg (List.takeWhile fun c => !isBlank c) heq
    rwa [takeWhile_word h, takeWhile_word h'] at htake
  subst hword
  exact ⟨rfl, (List.cons.inj (List.append_cancel_left heq)).2⟩

end Text

open Text (HasPoint IsWhole)

/-! ### The point of a decimal -/

/-- One digit, times this power of ten, is written with an exponent. -/
def NeedsExponent (exponent : ℤ) : Prop := exponent < -4 ∨ 16 ≤ exponent

namespace Decimal

open Binary64 (isDigit_of_mem_toDigits)

theorem hasPoint_positional (d : Decimal) : HasPoint (d.positional .column) := by
  have hrun : ∀ c ∈ Nat.toDigits 10 d.digits, c.isDigit = true := fun c hc =>
    isDigit_of_mem_toDigits hc
  have hne : Nat.toDigits 10 d.digits ≠ [] := Nat.toDigits_ne_nil
  have hzeros : ∀ (n : ℕ) (c : Char), c ∈ List.replicate n '0' → c.isDigit = true := by
    intro n c hc
    rw [List.eq_of_mem_replicate hc]; rfl
  unfold positional
  generalize Nat.toDigits 10 d.digits = run at hrun hne
  dsimp only
  split_ifs with hsmall hinner hstyle
  · -- below one
    have h := Text.hasPoint_of_runs ['0']
      (List.replicate (-(run.length + d.exponent)).toNat '0' ++ run) [] (by simp)
      (fun c hc => (List.mem_append.mp hc).elim (hzeros _ c) (hrun c)) (by simp) (by simp [hne])
    simpa using h
  · -- among the digits
    have hlen : 0 < run.length := List.length_pos_iff.mpr hne
    have htake : run.take (run.length + d.exponent).toNat ≠ [] := by
      rw [← List.length_pos_iff, List.length_take]
      omega
    have hdrop : run.drop (run.length + d.exponent).toNat ≠ [] := by
      rw [← List.length_pos_iff, List.length_drop]
      omega
    have h := Text.hasPoint_of_runs _ _ [] (fun c hc => hrun c (List.mem_of_mem_take hc))
      (fun c hc => hrun c (List.mem_of_mem_drop hc)) htake hdrop
    simpa using h
  · -- a whole number
    have h := Text.hasPoint_of_runs (run ++ List.replicate d.exponent.toNat '0') ['0'] []
      (fun c hc => (List.mem_append.mp hc).elim (hrun c) (hzeros _ c)) (by simp) (by simp [hne])
      (by simp)
    simpa using h
  · exact absurd rfl hstyle

theorem not_mem_signedWhole (n : ℤ) : '.' ∉ signedWhole n := fun h =>
  absurd (mem_signedWhole h) (by decide)

/-- **With an exponent there is a point just if there is a second digit.** -/
theorem hasPoint_scientific (d : Decimal) :
    HasPoint d.scientific ↔ 1 < (Nat.toDigits 10 d.digits).length := by
  have hrun : ∀ c ∈ Nat.toDigits 10 d.digits, c.isDigit = true := fun c hc =>
    isDigit_of_mem_toDigits hc
  have hne : Nat.toDigits 10 d.digits ≠ [] := Nat.toDigits_ne_nil
  unfold scientific
  generalize Nat.toDigits 10 d.digits = run at hrun hne
  dsimp only
  split_ifs with hone
  · refine iff_of_false (fun h => ?_) (by omega)
    have hmem := h.mem
    simp only [List.append_nil, List.mem_append, List.mem_cons, not_mem_signedWhole,
      or_false] at hmem
    rcases hmem with hmem | hmem
    · exact absurd (hrun _ (List.mem_of_mem_take hmem)) (by decide)
    · exact absurd hmem (by decide)
  · refine iff_of_true ?_ (by omega)
    have hdrop : run.drop 1 ≠ [] := by
      rw [← List.length_pos_iff, List.length_drop]
      omega
    have h := Text.hasPoint_of_runs (run.take 1) (run.drop 1)
      ('e' :: signedWhole (run.length - 1 + d.exponent))
      (fun c hc => hrun c (List.mem_of_mem_take hc)) (fun c hc => hrun c (List.mem_of_mem_drop hc))
      (by simp [hne]) hdrop
    simpa using h

/-- **A decimal in a column has a point** unless it has a single digit and an exponent. -/
theorem hasPoint_text (d : Decimal) : HasPoint (d.text .column) ↔
    ¬ ((Nat.toDigits 10 d.digits).length ≤ 1 ∧ NeedsExponent d.exponent) := by
  have hlen : 0 < (Nat.toDigits 10 d.digits).length := Nat.length_toDigits_pos
  unfold text NeedsExponent
  split_ifs with hstyle
  · refine iff_of_true d.hasPoint_positional ?_
    simp only [NumberStyle.column, Bool.and_eq_true, decide_eq_true_eq] at hstyle
    omega
  · rw [hasPoint_scientific]
    simp only [NumberStyle.column, Bool.and_eq_true, decide_eq_true_eq] at hstyle
    omega

theorem not_isWhole_text (d : Decimal) : ¬ IsWhole (d.text .column) := by
  refine Text.not_isWhole_of_mem ?_
  unfold text
  split_ifs
  · exact Or.inl d.hasPoint_positional.mem
  · exact Or.inr (by simp [scientific])

end Decimal

/-! ### Numbers of one digit -/

/-- A decimal of one digit that is written with an exponent reads back as the magnitude, which is
not zero. -/
def Magnitude.OneDigit (m : Magnitude) : Prop := m ≠ .zero ∧
  ∃ digit exponent, digit < 10 ∧ NeedsExponent exponent ∧ Magnitude.ofDecimal digit exponent = m

namespace Magnitude

theorem needsExponent_iff {digit : ℕ} {exponent : ℤ} (hpos : 0 < digit) (hlt : digit < 10) :
    NeedsExponent exponent ↔ (ofDecimal digit exponent).rank < (ofDecimal 1 (-4)).rank ∨
      (ofDecimal 1 16).rank ≤ (ofDecimal digit exponent).rank := by
  constructor
  · rintro (hsmall | hlarge)
    · left
      calc (ofDecimal digit exponent).rank ≤ (ofDecimal 9 (-5)).rank :=
            rank_ofDecimal_le (by omega) (by omega)
        _ < (ofDecimal 1 (-4)).rank := by decide +kernel
    · exact Or.inr (rank_ofDecimal_le hpos hlarge)
  · intro hsize
    by_contra hinside
    obtain ⟨hlow, hhigh⟩ := not_or.mp hinside
    have hleast : (ofDecimal 1 (-4)).rank ≤ (ofDecimal digit exponent).rank :=
      rank_ofDecimal_le hpos (by omega)
    have hgreatest : (ofDecimal digit exponent).rank < (ofDecimal 1 16).rank :=
      calc (ofDecimal digit exponent).rank ≤ (ofDecimal 9 15).rank :=
            rank_ofDecimal_le (by omega) (by omega)
        _ < (ofDecimal 1 16).rank := by decide +kernel
    omega

theorem oneDigit_iff {m : Magnitude} : m.OneDigit ↔
    (Nat.toDigits 10 m.shortest.digits).length ≤ 1 ∧ NeedsExponent m.shortest.exponent := by
  have hcount : ∀ digits, (Nat.toDigits 10 digits).length ≤ 1 ↔ digits < 10 := fun digits =>
    Nat.length_toDigits_le_iff (by decide) Nat.one_pos
  have hback := ofDecimal_shortest m
  rw [hcount]
  constructor
  · rintro ⟨hm, digit, exponent, hdigit, hexponent, hread⟩
    have hfew := length_digits_shortest_le hread
    have hone : m.shortest.digits < 10 := (hcount _).mp (hfew.trans ((hcount digit).mpr hdigit))
    -- The two decimals have the same size, and it decides about the exponent of both.
    rw [needsExponent_iff (pos_of_ofDecimal hm hread) hdigit, hread] at hexponent
    rw [needsExponent_iff (pos_of_ofDecimal hm hback) hone, hback]
    exact ⟨hone, hexponent⟩
  · rintro ⟨hone, hexponent⟩
    refine ⟨?_, m.shortest.digits, m.shortest.exponent, hone, hexponent, hback⟩
    rintro rfl
    exact absurd hexponent (by unfold NeedsExponent; decide)

end Magnitude

namespace Binary64

/-- The number nearest to a decimal of one digit that is written with an exponent. -/
def OneDigit : Binary64 → Prop
  | nan => False
  | signed _ size => size.OneDigit

theorem text_column_of_isFinite (negative : Bool) {size : Magnitude} (h : size.isFinite = true) :
    (signed negative size).text .column =
      (if negative then ['-'] else []) ++ size.shortest.text .column := by
  rw [text, if_pos h]

/-- **A finite number in a column has a point just if it is no such number.** -/
theorem hasPoint_text_column {x : Binary64} (h : x.isFinite = true) :
    HasPoint (x.text .column) ↔ ¬ x.OneDigit := by
  cases x with
  | nan => cases h
  | signed negative size =>
    rw [text_column_of_isFinite negative h, OneDigit, Magnitude.oneDigit_iff,
      ← Decimal.hasPoint_text]
    cases negative with
    | false => rfl
    | true => exact Text.hasPoint_cons_of_not_isDigit (by decide)

theorem not_isWhole_text_column {x : Binary64} (h : x.isFinite = true) :
    ¬ IsWhole (x.text .column) := by
  cases x with
  | nan => cases h
  | signed negative size =>
    rw [text_column_of_isFinite negative h]
    exact fun hwhole => size.shortest.not_isWhole_text fun c hc =>
      hwhole c (List.mem_append_right _ hc)

end Binary64

/-! ### The columns of a row -/

namespace Ledger

/-- The line of a row shows its numbers in this way: they are the words on the two sides of the
mark. -/
structure Row.Shows (row : Row) (mean spread : List Char) : Prop where
  text_eq : row.text.toList =
    row.key.text.toList ++ ' ' :: (mean ++ ' ' :: (row.mark.toList ++ ' ' :: spread))
  isWord_mean : IsWord mean
  isWord_spread : IsWord spread

/-- **The line of a row shows its numbers in one way.** -/
theorem shows_iff (row : Row) (mean spread : List Char) : row.Shows mean spread ↔
    mean = row.mean.text .column ∧ spread = row.spread.text .column := by
  have htext : row.text.toList = row.key.text.toList ++ ' ' ::
      (row.mean.text .column ++ ' ' :: (row.mark.toList ++ ' ' :: row.spread.text .column)) := by
    simp [Row.text, numberText]
  constructor
  · rintro ⟨heq, hmean, -⟩
    rw [htext, List.append_cancel_left_eq, List.cons_inj_right] at heq
    obtain ⟨hword, hrest⟩ := Text.append_space_inj row.mean.isWord_text_column hmean heq
    rw [List.append_cancel_left_eq, List.cons_inj_right] at hrest
    exact ⟨hword.symm, hrest.symm⟩
  · rintro ⟨rfl, rfl⟩
    exact ⟨htext, row.mean.isWord_text_column, row.spread.isWord_text_column⟩

/-- **Points in the columns.** The line of a row whose numbers are finite shows each of them in one
way: with a point that has a digit on each side, just if the number is no decimal of one digit that
is written with an exponent, and never as a whole number. -/
theorem points_of_columns {row : Row} (hmean : row.mean.isFinite = true)
    (hspread : row.spread.isFinite = true) :
    ∃ mean spread, (∀ mean' spread', row.Shows mean' spread' ↔ mean' = mean ∧ spread' = spread) ∧
      (HasPoint mean ↔ ¬ row.mean.OneDigit) ∧ (HasPoint spread ↔ ¬ row.spread.OneDigit) ∧
      ¬ IsWhole mean ∧ ¬ IsWhole spread :=
  ⟨row.mean.text .column, row.spread.text .column, shows_iff row,
    Binary64.hasPoint_text_column hmean, Binary64.hasPoint_text_column hspread,
    Binary64.not_isWhole_text_column hmean, Binary64.not_isWhole_text_column hspread⟩

/-- Two numbers with an exponent, of two digits and of one. -/
def steepRow : Row :=
  ⟨⟨"a", "op", "1", "8"⟩, .signed true (.ofDecimal 25 16), "±", .signed false (.ofDecimal 5 (-324))⟩

theorem points_of_columns_steepRow :
    steepRow.mean.isFinite = true ∧ steepRow.spread.isFinite = true ∧
      steepRow.text = "a op 1 8 -2.5e17 ± 5e-324" ∧
      ∃ mean spread,
        (∀ mean' spread', steepRow.Shows mean' spread' ↔ mean' = mean ∧ spread' = spread) ∧
        (HasPoint mean ↔ ¬ steepRow.mean.OneDigit) ∧
        (HasPoint spread ↔ ¬ steepRow.spread.OneDigit) ∧ ¬ IsWhole mean ∧ ¬ IsWhole spread := by
  have hmean : steepRow.mean.isFinite = true := by decide +kernel
  have hspread : steepRow.spread.isFinite = true := by decide +kernel
  exact ⟨hmean, hspread, by decide +kernel, points_of_columns hmean hspread⟩

/-- The row of a first sample, which is the least power of ten with an exponent. -/
def powerRow : Row := Row.start ⟨"a", "op", "1", "8"⟩ (.signed false (.ofDecimal 1 16))

/-- **A mean without a point**, because it has a single digit. -/
theorem not_hasPoint_powerRow :
    powerRow.mean.isFinite = true ∧ powerRow.spread.isFinite = true ∧
      powerRow.text = "a op 1 8 1e16 ± 0.0" ∧
      ∀ mean spread, powerRow.Shows mean spread → ¬ HasPoint mean := by
  have htext : powerRow.mean.text .column = "1e16".toList := by decide +kernel
  refine ⟨by decide +kernel, by decide +kernel, by decide +kernel, fun mean spread h hpoint => ?_⟩
  have hmean := ((shows_iff powerRow mean spread).mp h).1
  rw [hmean, htext] at hpoint
  exact absurd hpoint.mem (by decide)

end Ledger

end BenchLedger
