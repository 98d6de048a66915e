import BenchLedger.Proofs.RunLog.Numbers
import BenchLedger.Proofs.Text.Readings

/-! # Runs of digits

The numbers of a log are runs of decimal digits of any script (`IsRun`), and every run has a value
(`worth`). A count is spelled by ASCII digits alone (`Spells`). What spoils a run, if anything does
(`spoilt?`), depends on the number that its ASCII digits spell up to the first digit of another
script, `leading`: from `2 ^ 64` on it is too large, and else a digit of another script is a bad one
(`read_run`). So a run is read just if it spells a count (`read_eq_ok_iff`), with any number of
zeros before the digits in which the count is printed (`text_eq_bare`). Of any other text, a plus
sign at its beginning is passed over and the rest has to spell the count (`read_iff_isCount`). -/

namespace BenchLedger.RunLog

open Text

variable {run : List Char} {n : UInt64} {what : Quantity} {fault : Fault}

/-- **A run of decimal digits**, of any script. -/
def IsRun (run : List Char) : Prop := run ≠ [] ∧ ∀ c ∈ run, isDecimal c = true

theorem isRun_of_reads {template : Template} {text rest : List Char} {numbers : List (List Char)}
    (h : template.Reads text numbers rest) : ∀ run ∈ numbers, IsRun run := by
  induction h with
  | nil text => exact List.forall_mem_nil _
  | literal mark _ ih => exact ih
  | number ne_nil digits _ ih => exact List.forall_mem_cons.mpr ⟨⟨ne_nil, digits⟩, ih⟩
  | @digit c _ _ _ _ hc _ ih =>
    exact List.forall_mem_cons.mpr ⟨⟨List.cons_ne_nil c [], List.forall_mem_singleton.mpr hc⟩, ih⟩

/-! ### Values -/

/-- The value of a decimal digit of any script. -/
def digitWorth (c : Char) : ℕ :=
  if c.isDigit then c.toNat - '0'.toNat
  else ((scriptZeros.find? fun first => first ≤ c.toNat && c.toNat ≤ first + 9).map
    (c.toNat - ·)).getD 0

/-- **The value of a run of decimal digits**, of any script. -/
def worth (run : List Char) : ℕ := run.foldl (fun value c => 10 * value + digitWorth c) 0

/-- The value of the ASCII digits that a run begins with. -/
def leading (run : List Char) : ℕ := Nat.ofDigitChars 10 (run.takeWhile Char.isDigit) 0

/-- What spoils a run of digits, so that it is no count. -/
def spoilt? (run : List Char) : Option CountFault :=
  if UInt64.size ≤ leading run then some .tooLarge
  else if run.all Char.isDigit then none
  else some .badDigit

/-- **The run spells the count** in ASCII digits. -/
structure Spells (run : List Char) (n : UInt64) : Prop where
  ne_nil : run ≠ []
  digits : ∀ c ∈ run, c.isDigit = true
  value : Nat.ofDigitChars 10 run 0 = n.toNat

theorem takeWhile_isDigit (h : ∀ c ∈ run, c.isDigit = true) : run.takeWhile Char.isDigit = run :=
  List.takeWhile_eq_self_iff.mpr h

theorem ofDigitChars_le_worth (value : ℕ) :
    Nat.ofDigitChars 10 (run.takeWhile Char.isDigit) value ≤
      run.foldl (fun value c => 10 * value + digitWorth c) value := by
  induction run generalizing value with
  | nil => exact Nat.le_refl value
  | cons c run ih =>
    rw [List.foldl_cons]
    by_cases hc : c.isDigit = true
    · rw [List.takeWhile_cons_of_pos hc, Nat.ofDigitChars_cons, digitWorth, if_pos hc]
      exact ih _
    · rw [List.takeWhile_cons_of_neg hc, Nat.ofDigitChars_nil]
      -- The value only grows with the digits after this one.
      have hgrow := (le_ofDigitChars _ _).trans (ih (10 * value + digitWorth c))
      omega

theorem leading_le_worth (run : List Char) : leading run ≤ worth run := ofDigitChars_le_worth 0

/-! ### Reading -/

theorem readDigits_eq {value : ℕ} (hvalue : value < UInt64.size) :
    Count.readDigits value run =
      if UInt64.size ≤ Nat.ofDigitChars 10 (run.takeWhile Char.isDigit) value then .error .tooLarge
      else if run.all Char.isDigit then .ok (Nat.ofDigitChars 10 run value)
      else .error .badDigit := by
  induction run generalizing value with
  | nil =>
    rw [List.takeWhile_nil, Nat.ofDigitChars_nil, if_neg (Nat.not_le.mpr hvalue)]
    rfl
  | cons c run ih =>
    rw [readDigits_cons]
    by_cases hc : c.isDigit = true
    · have hdigit : digitValue? c = some (c.toNat - '0'.toNat) := if_pos hc
      rw [hdigit, List.takeWhile_cons_of_pos hc, List.all_cons, hc, Bool.true_and,
        Nat.ofDigitChars_cons, Nat.ofDigitChars_cons]
      dsimp only
      rcases Nat.lt_or_ge (10 * value + (c.toNat - '0'.toNat)) UInt64.size with hnext | hnext
      · rw [if_pos hnext, ih hnext]
      · rw [if_neg (Nat.not_lt.mpr hnext), if_pos (hnext.trans (le_ofDigitChars _ _))]
    · have hdigit : digitValue? c = none := if_neg hc
      rw [hdigit, List.takeWhile_cons_of_neg hc, Nat.ofDigitChars_nil,
        if_neg (Nat.not_le.mpr hvalue), List.all_cons, if_neg (by simp [hc])]

theorem read_eq_readDigits (h : IsRun run) :
    Count.read run = (Count.readDigits 0 run).map UInt64.ofNat := by
  obtain ⟨c, rest, rfl⟩ := List.exists_cons_of_ne_nil h.1
  refine read_cons_of_ne ?_
  rintro rfl
  exact absurd (h.2 '+' List.mem_cons_self) (by decide)

theorem leading_of_digits (h : ∀ c ∈ run, c.isDigit = true) :
    leading run = Nat.ofDigitChars 10 run 0 := by
  rw [leading, takeWhile_isDigit h]

theorem map_readDigits (run : List Char) :
    (Count.readDigits 0 run).map UInt64.ofNat = match spoilt? run with
      | some why => .error why
      | none => .ok (UInt64.ofNat (Nat.ofDigitChars 10 run 0)) := by
  rw [readDigits_eq (by decide), ← leading, spoilt?]
  split_ifs <;> rfl

/-- **What a run of digits is read as.** -/
theorem read_run (h : IsRun run) :
    Count.read run = match spoilt? run with
      | some why => .error why
      | none => .ok (UInt64.ofNat (Nat.ofDigitChars 10 run 0)) := by
  rw [read_eq_readDigits h, map_readDigits]

theorem spells_iff (hne : run ≠ []) :
    Spells run n ↔ spoilt? run = none ∧ UInt64.ofNat (Nat.ofDigitChars 10 run 0) = n := by
  unfold spoilt?
  constructor
  · rintro ⟨-, hdigits, hvalue⟩
    rw [leading_of_digits hdigits, hvalue, if_neg (Nat.not_le.mpr n.toNat_lt),
      if_pos (List.all_eq_true.mpr hdigits)]
    exact ⟨rfl, UInt64.ofNat_toNat⟩
  · rintro ⟨hnone, rfl⟩
    split_ifs at hnone with hlarge hall
    have hdigits := List.all_eq_true.mp hall
    rw [leading_of_digits hdigits] at hlarge
    exact ⟨hne, hdigits, (UInt64.toNat_ofNat_of_lt' (Nat.not_le.mp hlarge)).symm⟩

theorem eq_of_spoilt? {why : CountFault} (h : spoilt? run = some why) :
    why = if UInt64.size ≤ leading run then .tooLarge else .badDigit := by
  unfold spoilt? at h
  split_ifs at h ⊢ <;> exact (Option.some.inj h).symm

/-- **A run is read just if it spells a count.** -/
theorem read_eq_ok_iff (h : IsRun run) : Count.read run = .ok n ↔ Spells run n := by
  rw [spells_iff h.1, read_run h]
  cases spoilt? run <;> simp

theorem readQuantity_eq_ok_iff (h : IsRun run) :
    readQuantity what run = .ok n ↔ Spells run n := by
  rw [← read_eq_ok_iff h, readQuantity]
  cases Count.read run <;> simp

/-- **A run that spells no count** is reported with what spoils it. -/
theorem readQuantity_eq_error_iff (h : IsRun run) :
    readQuantity what run = .error fault ↔ (∀ n, ¬ Spells run n) ∧
      fault = .badNumber what (String.ofList run)
        (if UInt64.size ≤ leading run then .tooLarge else .badDigit) := by
  have hspells : (∀ n, ¬ Spells run n) ↔ spoilt? run ≠ none := by
    simp only [spells_iff h.1, not_and]
    exact ⟨fun hall hnone => hall _ hnone rfl, fun hsome _ hnone => absurd hnone hsome⟩
  rw [hspells, readQuantity, read_run h]
  cases hwhy : spoilt? run with
  | none => simp
  | some why =>
    rw [← eq_of_spoilt? hwhy]
    simp [eq_comm]

/-! ### Counts with a sign -/

section Signed

variable {text : List Char}

/-- A text without the plus sign that it may begin with. -/
def unsigned : List Char → List Char
  | '+' :: text => text
  | text => text

/-- **The text is a count**: ASCII digits spell it, with a plus sign before them or none. -/
def IsCount (text : List Char) (n : UInt64) : Prop := Spells (unsigned text) n

/-- What is wrong with a text that is no count. -/
def flaw (text : List Char) : CountFault :=
  if text = [] then .empty
  else if UInt64.size ≤ leading (unsigned text) then .tooLarge
  else .badDigit

theorem unsigned_of_head? (h : text.head? ≠ some '+') : unsigned text = text := by
  unfold unsigned
  split
  · exact absurd rfl h
  · rfl

theorem read_eq_unsigned (h : unsigned text ≠ []) :
    Count.read text = (Count.readDigits 0 (unsigned text)).map UInt64.ofNat := by
  cases text with
  | nil => exact absurd rfl h
  | cons c text =>
    by_cases hc : c = '+'
    · subst hc
      obtain ⟨d, rest, hrest⟩ := List.exists_cons_of_ne_nil h
      obtain rfl : text = d :: rest := hrest
      rfl
    · rw [unsigned_of_head? (by simpa using hc), read_cons_of_ne hc]

theorem read_of_unsigned_eq_nil (h : unsigned text = []) :
    Count.read text = .error (flaw text) := by
  unfold unsigned at h
  split at h <;> subst h <;> rfl

/-- **A text is read just if it is a count.** -/
theorem read_iff_isCount : Count.read text = .ok n ↔ IsCount text n := by
  by_cases hnil : unsigned text = []
  · rw [read_of_unsigned_eq_nil hnil]
    exact ⟨nofun, fun h => absurd hnil h.ne_nil⟩
  · rw [IsCount, spells_iff hnil, read_eq_unsigned hnil, map_readDigits]
    cases spoilt? (unsigned text) <;> simp

/-- **A text that is no count** is reported with its flaw. -/
theorem read_of_not_isCount (h : ∀ n, ¬ IsCount text n) : Count.read text = .error (flaw text) := by
  by_cases hnil : unsigned text = []
  · exact read_of_unsigned_eq_nil hnil
  · have hne : text ≠ [] := by
      rintro rfl
      exact hnil rfl
    rw [read_eq_unsigned hnil, map_readDigits, flaw, if_neg hne]
    cases hspoilt : spoilt? (unsigned text) with
    | none => exact absurd ((spells_iff hnil).mpr ⟨hspoilt, rfl⟩) (h _)
    | some why => rw [eq_of_spoilt? hspoilt]

end Signed

/-! ### Leading zeros -/

/-- **The run without its leading zeros**, but with one digit at least. -/
def bare (run : List Char) : List Char :=
  match run.dropWhile (· = '0') with
  | [] => ['0']
  | digits => digits

theorem digitChar_of_isDigit {c : Char} (h : c.isDigit = true) :
    Nat.digitChar (c.toNat - '0'.toNat) = c := by
  have hlt : c.toNat - '0'.toNat < 10 := digitValue?_lt (if_pos h)
  simp only [Char.isDigit, Bool.and_eq_true, decide_eq_true_eq] at h
  have hzero : '0'.toNat ≤ c.toNat := h.1
  refine Char.toNat_inj.mp ?_
  rw [Nat.toNat_digitChar_of_lt_ten hlt]
  exact Nat.add_sub_of_le hzero

theorem toDigits_append {value : ℕ} (hpos : 0 < value) (h : ∀ c ∈ run, c.isDigit = true) :
    Nat.toDigits 10 value ++ run = Nat.toDigits 10 (Nat.ofDigitChars 10 run value) := by
  induction run generalizing value with
  | nil => rw [List.append_nil, Nat.ofDigitChars_nil]
  | cons c run ih =>
    rw [List.forall_mem_cons] at h
    have hlt : c.toNat - '0'.toNat < 10 := digitValue?_lt (if_pos h.1)
    have hlast : Nat.toDigits 10 (c.toNat - '0'.toNat) = [c] := by
      rw [Nat.toDigits_of_lt_base hlt, digitChar_of_isDigit h.1]
    have hstep := Nat.toDigits_append_toDigits (by decide : 1 < 10) hpos hlt
    rw [hlast] at hstep
    rw [Nat.ofDigitChars_cons, ← ih (by omega) h.2, ← hstep, List.append_assoc,
      List.singleton_append]

theorem toDigits_ofDigitChars (h : ∀ c ∈ run, c.isDigit = true) :
    Nat.toDigits 10 (Nat.ofDigitChars 10 run 0) = bare run := by
  induction run with
  | nil => rfl
  | cons c run ih =>
    rw [List.forall_mem_cons] at h
    rw [Nat.ofDigitChars_cons, Nat.mul_zero, Nat.zero_add]
    by_cases hc : c = '0'
    · subst hc
      exact ih h.2
    · have hlt : c.toNat - '0'.toNat < 10 := digitValue?_lt (if_pos h.1)
      have hpos : 0 < c.toNat - '0'.toNat := by
        refine Nat.pos_of_ne_zero fun hzero => hc ?_
        rw [← digitChar_of_isDigit h.1, hzero]
        rfl
      rw [← toDigits_append hpos h.2, Nat.toDigits_of_lt_base hlt, digitChar_of_isDigit h.1,
        bare, List.dropWhile_cons_of_neg (by simpa using hc)]
      rfl

/-- **A count is printed as the run that spells it**, without its leading zeros. -/
theorem text_eq_bare (h : Spells run n) : Count.text n = String.ofList (bare run) := by
  rw [← toDigits_ofDigitChars h.digits, h.value, ← toList_text, String.ofList_toList]

end BenchLedger.RunLog
