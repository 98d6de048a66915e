import BenchLedger.Binary64.Printer
import BenchLedger.Proofs.Binary64.Nearest
import BenchLedger.Text.CharTable
import Mathlib.Tactic.Ring

/-! # Numbers read back

The text of a number in a column is one word (`isWord_text_column`), and it is read back as the same
number, the sign of a zero and the value that is no number included (`read?_text_column`). -/

namespace BenchLedger

open Text (isBlank IsWord)

/-! ### Runs of digits -/

namespace Binary64

theorem valueOf_toDigits (n : ℕ) : valueOf (Nat.toDigits 10 n) = n := Nat.ofDigitChars_ten_toDigits

theorem valueOf_append (run more : List Char) :
    valueOf (run ++ more) = 10 ^ more.length * valueOf run + valueOf more := by
  show Nat.ofDigitChars 10 (run ++ more) 0 = _
  rw [Nat.ofDigitChars_append, Nat.ofDigitChars_eq_ofDigitChars_zero]
  rfl

theorem valueOf_replicate (n : ℕ) : valueOf (List.replicate n '0') = 0 :=
  Nat.ofDigitChars_replicate_zero.trans (Nat.mul_zero _)

theorem isDigit_of_mem_toDigits {n : ℕ} {c : Char} (h : c ∈ Nat.toDigits 10 n) :
    c.isDigit = true :=
  Nat.isDigit_of_mem_toDigits (by decide) (by decide) h

theorem takeWhile_run {run : List Char} (rest : List Char) (hrun : ∀ c ∈ run, c.isDigit = true)
    (hrest : ∀ c, rest.head? = some c → c.isDigit = false) :
    (run ++ rest).takeWhile Char.isDigit = run ∧ (run ++ rest).dropWhile Char.isDigit = rest := by
  have hnone : rest.takeWhile Char.isDigit = [] ∧ rest.dropWhile Char.isDigit = rest := by
    cases rest with
    | nil => exact ⟨rfl, rfl⟩
    | cons c rest =>
      have hc : c.isDigit = false := hrest c rfl
      simp [hc]
  rw [List.takeWhile_append_of_pos hrun, List.dropWhile_append_of_pos hrun, hnone.1, hnone.2]
  exact ⟨List.append_nil _, rfl⟩

/-! ### Reading a decimal -/

theorem readDecimal?_point (whole fraction rest : List Char)
    (hw : ∀ c ∈ whole, c.isDigit = true) (hf : ∀ c ∈ fraction, c.isDigit = true)
    (hne : whole ++ fraction ≠ []) (hrest : ∀ c, rest.head? = some c → c.isDigit = false) :
    readDecimal? (whole ++ '.' :: (fraction ++ rest)) = (readScale? rest).map fun scale =>
      Magnitude.ofDecimal (valueOf (whole ++ fraction)) (scale - fraction.length) := by
  obtain ⟨htake, hdrop⟩ := takeWhile_run ('.' :: (fraction ++ rest)) hw
    fun c hc => by
      obtain rfl : '.' = c := by simpa using hc
      rfl
  obtain ⟨htake', hdrop'⟩ := takeWhile_run rest hf hrest
  simp only [readDecimal?, htake, hdrop, List.head?_cons, if_true, List.tail_cons, htake', hdrop',
    if_neg hne]

theorem readDecimal?_whole {whole rest : List Char} (hw : ∀ c ∈ whole, c.isDigit = true)
    (hne : whole ≠ []) (hrest : ∀ c, rest.head? = some c → c.isDigit = false ∧ c ≠ '.') :
    readDecimal? (whole ++ rest) = (readScale? rest).map fun scale =>
      Magnitude.ofDecimal (valueOf whole) scale := by
  obtain ⟨htake, hdrop⟩ := takeWhile_run rest hw fun c hc => (hrest c hc).1
  have hpoint : rest.head? ≠ some '.' := fun h => (hrest '.' h).2 rfl
  simp only [readDecimal?, htake, hdrop, if_neg hpoint, List.append_nil, if_neg hne,
    List.length_nil, Nat.cast_zero, sub_zero]

theorem readExponent?_run {run : List Char} (hne : run ≠ []) (h : ∀ c ∈ run, c.isDigit = true) :
    readExponent? run = some (valueOf run : ℤ) := by
  have hrun : run ≠ [] ∧ run.all Char.isDigit = true := ⟨hne, List.all_eq_true.mpr h⟩
  unfold readExponent?
  simp only
  split
  · exact absurd (h '-' List.mem_cons_self) (by decide)
  · exact absurd (h '+' List.mem_cons_self) (by decide)
  · rw [if_pos hrun]; rfl

theorem readExponent?_neg {run : List Char} (hne : run ≠ []) (h : ∀ c ∈ run, c.isDigit = true) :
    readExponent? ('-' :: run) = some (-(valueOf run : ℤ)) := by
  have hrun : run ≠ [] ∧ run.all Char.isDigit = true := ⟨hne, List.all_eq_true.mpr h⟩
  unfold readExponent?
  simp only
  rw [if_pos hrun]; rfl

theorem readScale?_signedWhole (n : ℤ) :
    readScale? ('e' :: Decimal.signedWhole n) = some n := by
  show readExponent? (Decimal.signedWhole n) = some n
  have hdigits : ∀ c ∈ Nat.toDigits 10 n.natAbs, c.isDigit = true := fun c hc =>
    isDigit_of_mem_toDigits hc
  unfold Decimal.signedWhole
  split_ifs with hn
  · have habs : -(n.natAbs : ℤ) = n := by omega
    rw [readExponent?_neg Nat.toDigits_ne_nil hdigits, valueOf_toDigits, habs]
  · have habs : (n.natAbs : ℤ) = n := by omega
    rw [readExponent?_run Nat.toDigits_ne_nil hdigits, valueOf_toDigits, habs]

end Binary64

/-! ### The text of a decimal -/

namespace Decimal

open Binary64

theorem readDecimal?_positional {d : Decimal} (hplace : d.exponent ≤ 400) :
    readDecimal? (d.positional .column) = some (Magnitude.ofDecimal d.digits d.exponent) := by
  have hrun : ∀ c ∈ Nat.toDigits 10 d.digits, c.isDigit = true := fun c hc =>
    isDigit_of_mem_toDigits hc
  have hzeros : ∀ (n : ℕ) (c : Char), c ∈ List.replicate n '0' → c.isDigit = true := by
    intro n c hc
    rw [List.eq_of_mem_replicate hc]; rfl
  have hvalue := valueOf_toDigits d.digits
  have hlen : 0 < (Nat.toDigits 10 d.digits).length := Nat.length_toDigits_pos
  unfold positional
  generalize Nat.toDigits 10 d.digits = run at hrun hvalue hlen
  dsimp only
  split_ifs with hsmall hinner hstyle
  · -- below one: the zeros after the point count as digits of the fraction
    have h := readDecimal?_point ['0']
      (List.replicate (-(run.length + d.exponent)).toNat '0' ++ run) []
      (by simp) (fun c hc => (List.mem_append.mp hc).elim (hzeros _ c) (hrun c)) (by simp) (by simp)
    have hscale : (0 : ℤ) - ((-(run.length + d.exponent)).toNat + run.length : ℕ) = d.exponent := by
      omega
    simp only [List.append_nil, valueOf_append, valueOf_replicate, hvalue, List.length_append,
      List.length_replicate, readScale?, Option.map_some, hscale] at h
    simpa [valueOf] using h
  · -- among the digits
    have h := readDecimal?_point (run.take (run.length + d.exponent).toNat)
      (run.drop (run.length + d.exponent).toNat) []
      (fun c hc => hrun c (List.mem_of_mem_take hc)) (fun c hc => hrun c (List.mem_of_mem_drop hc))
      (by rw [List.take_append_drop]; exact List.length_pos_iff.mp hlen) (by simp)
    have hscale : (0 : ℤ) - (run.length - (run.length + d.exponent).toNat : ℕ) = d.exponent := by
      omega
    simpa only [List.append_nil, List.take_append_drop, hvalue, List.length_drop, readScale?,
      Option.map_some, hscale] using h
  · -- a whole number, with a zero after the point
    have h := readDecimal?_point (run ++ List.replicate d.exponent.toNat '0') ['0'] []
      (fun c hc => (List.mem_append.mp hc).elim (hrun c) (hzeros _ c)) (by simp) (by simp) (by simp)
    have hup : (d.exponent.toNat : ℤ) = d.exponent := by omega
    have hmul : Magnitude.ofDecimal (d.digits * 10 ^ (d.exponent.toNat + 1)) (-1) =
        Magnitude.ofDecimal d.digits d.exponent := by
      rw [Magnitude.ofDecimal_mul_pow _ (by omega), hup]
    have hdigits : valueOf (run ++ List.replicate d.exponent.toNat '0' ++ ['0']) =
        d.digits * 10 ^ (d.exponent.toNat + 1) := by
      rw [valueOf_append, valueOf_append, valueOf_replicate, hvalue, List.length_replicate,
        pow_succ]
      show 10 ^ 1 * (10 ^ d.exponent.toNat * d.digits + 0) + 0 = _
      ring
    rw [hdigits] at h
    rw [← hmul]
    exact h
  · exact absurd rfl hstyle

theorem readDecimal?_scientific (d : Decimal) :
    readDecimal? d.scientific = some (Magnitude.ofDecimal d.digits d.exponent) := by
  have hrun : ∀ c ∈ Nat.toDigits 10 d.digits, c.isDigit = true := fun c hc =>
    isDigit_of_mem_toDigits hc
  have hvalue := valueOf_toDigits d.digits
  have hlen : 0 < (Nat.toDigits 10 d.digits).length := Nat.length_toDigits_pos
  have hhead : ∀ (rest : List Char) (c : Char),
      ('e' :: rest).head? = some c → c.isDigit = false ∧ c ≠ '.' := by
    intro rest c hc
    obtain rfl : 'e' = c := by simpa using hc
    exact ⟨rfl, by decide⟩
  unfold scientific
  generalize Nat.toDigits 10 d.digits = run at hrun hvalue hlen
  dsimp only
  split_ifs with hone
  · have hscale : (run.length : ℤ) - 1 + d.exponent = d.exponent := by omega
    rw [List.take_of_length_le hone, List.append_nil,
      readDecimal?_whole hrun (List.length_pos_iff.mp hlen) (hhead _), readScale?_signedWhole,
      hscale, hvalue]
    rfl
  · have h := readDecimal?_point (run.take 1) (run.drop 1)
      ('e' :: signedWhole (run.length - 1 + d.exponent))
      (fun c hc => hrun c (List.mem_of_mem_take hc)) (fun c hc => hrun c (List.mem_of_mem_drop hc))
      (by rw [List.take_append_drop]; exact List.length_pos_iff.mp hlen)
      (fun c hc => (hhead _ c hc).1)
    have hscale : (run.length : ℤ) - 1 + d.exponent - (run.length - 1 : ℕ) = d.exponent := by omega
    simpa only [List.take_append_drop, hvalue, List.length_drop, readScale?_signedWhole,
      Option.map_some, hscale, List.append_assoc, List.cons_append] using h

/-- **A decimal in a column is read back**, digits and exponent as they are up to zeros before the
point. -/
theorem readDecimal?_text (d : Decimal) :
    readDecimal? (d.text .column) = some (Magnitude.ofDecimal d.digits d.exponent) := by
  have hlen : 0 < (Nat.toDigits 10 d.digits).length := Nat.length_toDigits_pos
  unfold text
  split_ifs with hstyle
  · have hplace : ((Nat.toDigits 10 d.digits).length : ℤ) - 1 + d.exponent < 16 := by
      simpa using (Bool.and_eq_true_iff.mp hstyle).2
    exact readDecimal?_positional (by omega)
  · exact readDecimal?_scientific d

theorem exists_text_eq_cons (d : Decimal) :
    ∃ c rest, d.text .column = c :: rest ∧ c.isDigit = true := by
  have hne : Nat.toDigits 10 d.digits ≠ [] := Nat.toDigits_ne_nil
  obtain ⟨c, run, hcons⟩ := List.exists_cons_of_ne_nil hne
  have hc : c.isDigit = true := isDigit_of_mem_toDigits (hcons ▸ List.mem_cons_self)
  unfold text positional scientific
  rw [hcons]
  dsimp only
  split_ifs with hstyle hsmall hinner
  · exact ⟨'0', _, rfl, rfl⟩
  · obtain ⟨n, hn⟩ : ∃ n, ((c :: run).length + d.exponent).toNat = n + 1 :=
      Nat.exists_eq_add_one.mpr (by omega)
    exact ⟨c, _, by rw [hn]; rfl, hc⟩
  all_goals exact ⟨c, _, rfl, hc⟩

theorem mem_signedWhole {n : ℤ} {c : Char} (h : c ∈ signedWhole n) :
    c.isDigit = true ∨ c = '-' := by
  unfold signedWhole at h
  split_ifs at h
  · rcases List.mem_cons.mp h with rfl | h
    · exact Or.inr rfl
    · exact Or.inl (isDigit_of_mem_toDigits h)
  · exact Or.inl (isDigit_of_mem_toDigits h)

theorem mem_text {style : NumberStyle} {d : Decimal} {c : Char} (h : c ∈ d.text style) :
    c.isDigit = true ∨ c ∈ ['.', 'e', '-'] := by
  have hrun : ∀ c ∈ Nat.toDigits 10 d.digits, c.isDigit = true := fun c hc =>
    isDigit_of_mem_toDigits hc
  unfold text positional scientific at h
  generalize Nat.toDigits 10 d.digits = run at hrun h
  have hzero : c = '0' → c.isDigit = true := by rintro rfl; rfl
  have htake : ∀ n, c ∈ run.take n → c.isDigit = true := fun _ hc =>
    hrun c (List.mem_of_mem_take hc)
  have hdrop : ∀ n, c ∈ run.drop n → c.isDigit = true := fun _ hc =>
    hrun c (List.mem_of_mem_drop hc)
  have hscale : ∀ n, c ∈ signedWhole n → c.isDigit = true ∨ c = '-' := fun _ => mem_signedWhole
  dsimp only at h
  split_ifs at h
  all_goals
    simp only [List.mem_append, List.mem_cons, List.mem_replicate, List.not_mem_nil, or_false,
      List.append_nil] at h ⊢
    grind

end Decimal

namespace Binary64

theorem toLower_of_isDigit {c : Char} (h : c.isDigit = true) : c.toLower = c := by
  have hle : c.val ≤ 57 := by simpa using (Bool.and_eq_true_iff.mp h).2
  unfold Char.toLower
  rw [dif_neg]
  rintro ⟨hge, -⟩
  exact absurd (UInt32.le_trans hge hle) (by decide)

theorem readUnsigned?_digit (negative : Bool) {c : Char} (hc : c.isDigit = true)
    (rest : List Char) :
    readUnsigned? negative (c :: rest) = (readDecimal? (c :: rest)).map (signed negative) := by
  have hi : c ≠ 'i' := by rintro rfl; exact absurd hc (by decide)
  have hn : c ≠ 'n' := by rintro rfl; exact absurd hc (by decide)
  unfold readUnsigned?
  simp [toLower_of_isDigit hc, hi, hn]

theorem eq_infinity {size : Magnitude} (h : size.isFinite = false) : size = .infinity := by
  have hle := size.rank_le
  have hge : ¬ size.rank < infinityRank := of_decide_eq_false h
  cases size
  simp only [Magnitude.infinity, Magnitude.mk.injEq] at hle hge ⊢
  omega

theorem exists_text_eq_cons (size : Magnitude) :
    ∃ c rest, (signed false size).text .column = c :: rest ∧ c ≠ '-' ∧ c ≠ '+' := by
  show ∃ c rest,
    (if size.isFinite then size.shortest.text .column else "inf".toList) = c :: rest ∧ _
  split_ifs with hfinite
  · obtain ⟨c, rest, hcons, hc⟩ := size.shortest.exists_text_eq_cons
    refine ⟨c, rest, hcons, ?_, ?_⟩ <;> rintro rfl <;> exact absurd hc (by decide)
  · exact ⟨'i', "nf".toList, rfl, by decide, by decide⟩

theorem readUnsigned?_text (negative : Bool) (size : Magnitude) :
    readUnsigned? negative ((signed false size).text .column) = some (signed negative size) := by
  show readUnsigned? negative
    (if size.isFinite then size.shortest.text .column else "inf".toList) = _
  split_ifs with hfinite
  · obtain ⟨c, rest, hcons, hc⟩ := size.shortest.exists_text_eq_cons
    rw [hcons, readUnsigned?_digit _ hc, ← hcons, Decimal.readDecimal?_text,
      Magnitude.ofDecimal_shortest]
    rfl
  · rw [eq_infinity (Bool.eq_false_iff.mpr hfinite)]
    rfl

/-- **A number in a column is read back.** -/
theorem read?_text_column (x : Binary64) : read? (x.text .column) = some x := by
  cases x with
  | nan => decide
  | signed negative size =>
    have hsize := readUnsigned?_text negative size
    cases negative with
    | true => exact hsize
    | false =>
      obtain ⟨c, rest, hcons, hminus, hplus⟩ := exists_text_eq_cons size
      rw [hcons] at hsize ⊢
      unfold read?
      split
      · next h => exact absurd (List.cons.inj h).1 hminus
      · next h => exact absurd (List.cons.inj h).1 hplus
      · exact hsize

theorem isBlank_of_isDigit {c : Char} (h : c.isDigit = true) : isBlank c = false := by
  obtain ⟨hge, hle⟩ := Bool.and_eq_true_iff.mp h
  have hge : 48 ≤ c.toNat := of_decide_eq_true hge
  have hle : c.toNat ≤ 57 := of_decide_eq_true hle
  simp only [isBlank, Text.blanks, Text.CharTable.holds, List.any_cons, List.any_nil]
  simp
  omega

theorem isWord_text_size (size : Magnitude) : IsWord ((signed false size).text .column) := by
  have hmarks : IsWord ['.', 'e', '-'] := by decide
  obtain ⟨first, rest, hcons, -, -⟩ := exists_text_eq_cons size
  refine ⟨by rw [hcons]; exact List.cons_ne_nil _ _, fun c hc => ?_⟩
  have hc : c ∈ (if size.isFinite then size.shortest.text .column else "inf".toList) := hc
  split_ifs at hc
  · rcases Decimal.mem_text hc with hdigit | hmark
    · exact isBlank_of_isDigit hdigit
    · exact hmarks.2 c hmark
  · exact (by decide : IsWord "inf".toList).2 c hc

/-- **The text of a number in a column is one word.** -/
theorem isWord_text_column (x : Binary64) : IsWord (x.text .column) := by
  cases x with
  | nan => decide
  | signed negative size =>
    have hsize := isWord_text_size size
    cases negative with
    | false => exact hsize
    | true => exact ⟨List.cons_ne_nil _ _, List.forall_mem_cons.mpr ⟨by decide, hsize.2⟩⟩

end Binary64

end BenchLedger
