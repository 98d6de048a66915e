import BenchLedger.Text.Cut
import Mathlib.Tactic.Common

/-! # First places

Where a text is cut, by place. A text is cut at the first place where the mark stands
(`cut?_eq_firstPlace?`). An empty line is at a line feed that directly follows another; so the text
up to two line feeds in a row ends before the first empty line, the one at its own beginning left
out (`upTo_two_feeds`). -/

namespace BenchLedger.Text

variable {mark text : List Char}

/-! ### Marks -/

/-- The first place where the mark stands. -/
def firstPlace? (mark text : List Char) : Option ℕ :=
  (List.range (text.length + 1)).find? fun place => mark.isPrefixOf (text.drop place)

theorem after?_eq (mark text : List Char) :
    after? mark text = if mark.isPrefixOf text then some (text.drop mark.length) else none := by
  induction mark generalizing text with
  | nil => rfl
  | cons m mark ih =>
    cases text with
    | nil => rfl
    | cons c text =>
      by_cases h : m = c
      · simp [after?, h, ih]
      · simp [after?, h]

theorem firstPlace?_cons (mark : List Char) (c : Char) (text : List Char) :
    firstPlace? mark (c :: text) =
      if mark.isPrefixOf (c :: text) then some 0 else (firstPlace? mark text).map (· + 1) := by
  unfold firstPlace?
  rw [List.length_cons, List.range_succ_eq_map, List.find?_cons, List.drop_zero, List.find?_map]
  cases mark.isPrefixOf (c :: text) with
  | true => rfl
  | false => rfl

/-- **A text is cut at the first place where the mark stands.** -/
theorem cut?_eq_firstPlace? (mark text : List Char) :
    cut? mark text = (firstPlace? mark text).map fun place =>
      (text.take place, text.drop (place + mark.length)) := by
  induction text with
  | nil =>
    rw [cut?, after?_eq, firstPlace?]
    cases hmark : mark.isPrefixOf [] with
    | true => simp [hmark]
    | false => simp [hmark]
  | cons c text ih =>
    rw [cut?, after?_eq, firstPlace?_cons, ih]
    split_ifs
    · simp
    · cases firstPlace? mark text with
      | none => rfl
      | some place => simp [Nat.add_right_comm]

theorem firstPlace?_eq_some_iff {place : ℕ} :
    firstPlace? mark text = some place ↔ place ≤ text.length ∧
      mark.isPrefixOf (text.drop place) = true ∧
        ∀ earlier < place, mark.isPrefixOf (text.drop earlier) = false := by
  unfold firstPlace?
  rw [List.find?_range_eq_some]
  simp only [List.mem_range, Bool.not_eq_true']
  constructor
  · rintro ⟨h, hle, hfirst⟩
    exact ⟨Nat.le_of_lt_succ hle, h, hfirst⟩
  · rintro ⟨hle, h, hfirst⟩
    exact ⟨h, Nat.lt_succ_of_le hle, hfirst⟩

theorem firstPlace?_eq_none_iff :
    firstPlace? mark text = none ↔
      ∀ place ≤ text.length, mark.isPrefixOf (text.drop place) = false := by
  unfold firstPlace?
  rw [List.find?_range_eq_none]
  simp only [Nat.lt_succ_iff, Bool.not_eq_true']

theorem isSome_after? (mark text : List Char) :
    (after? mark text).isSome = mark.isPrefixOf text := by
  rw [after?_eq]
  cases mark.isPrefixOf text <;> rfl

theorem contains_iff_infix : contains mark text = true ↔ mark <:+: text := by
  unfold contains
  rw [cut?_eq_firstPlace?, Option.isSome_map, List.infix_iff_prefix_suffix]
  constructor
  · intro h
    obtain ⟨place, hplace⟩ := Option.isSome_iff_exists.mp h
    obtain ⟨-, hhere, -⟩ := firstPlace?_eq_some_iff.mp hplace
    exact ⟨text.drop place, List.isPrefixOf_iff_prefix.mp hhere, List.drop_suffix place text⟩
  · rintro ⟨here, hmark, hhere⟩
    rw [Option.isSome_iff_ne_none]
    intro hnone
    have hplace := firstPlace?_eq_none_iff.mp hnone (text.length - here.length) (by omega)
    rw [← List.suffix_iff_eq_drop.mp hhere] at hplace
    rw [List.isPrefixOf_iff_prefix.mpr hmark] at hplace
    cases hplace

/-! ### Empty lines -/

/-- An empty line begins at the place, after the end of another line. -/
def isEmptyLine (text : List Char) (place : ℕ) : Bool :=
  place ≠ 0 && text[place - 1]? == some '\n' && text[place]? == some '\n'

/-- The first empty line at a place or after it, or else the end of the text. -/
def emptyLineFrom (text : List Char) (place : ℕ) : ℕ :=
  ((List.range' place (text.length - place)).find? (isEmptyLine text)).getD text.length

theorem isEmptyLine_succ (text : List Char) (place : ℕ) :
    isEmptyLine text (place + 1) = ['\n', '\n'].isPrefixOf (text.drop place) := by
  rw [isEmptyLine, Nat.add_sub_cancel, ← List.head?_drop, ← List.head?_drop, ← List.tail_drop]
  cases text.drop place with
  | nil => rfl
  | cons c rest =>
    cases rest with
    | nil => simp [List.isPrefixOf]
    | cons d rest =>
      have hswap : ∀ x : Char, (x == '\n') = ('\n' == x) := fun x => Bool.beq_comm
      simp [List.isPrefixOf, hswap c, hswap d]

theorem lt_length_of_isEmptyLine {place : ℕ} (h : isEmptyLine text place = true) :
    place < text.length := by
  by_contra hge
  rw [isEmptyLine, List.getElem?_eq_none (by omega : text.length ≤ place)] at h
  simp at h

theorem emptyLineFrom_eq {start place : ℕ} (hle : start ≤ place)
    (h : isEmptyLine text place = true)
    (hbefore : ∀ i, start ≤ i → i < place → isEmptyLine text i = false) :
    emptyLineFrom text start = place := by
  have hlt := lt_length_of_isEmptyLine h
  unfold emptyLineFrom
  rw [List.find?_range'_eq_some.mpr]
  · rfl
  · refine ⟨h, List.mem_range'_1.mpr (by omega), fun i hi hlt => ?_⟩
    rw [hbefore i hi hlt]
    rfl

theorem emptyLineFrom_eq_length {start : ℕ}
    (h : ∀ i, start ≤ i → i < text.length → isEmptyLine text i = false) :
    emptyLineFrom text start = text.length := by
  unfold emptyLineFrom
  rw [List.find?_range'_eq_none.mpr]
  · rfl
  · intro i hi hlt
    rw [h i hi (by omega)]
    rfl

theorem emptyLineFrom_self {place : ℕ} (h : isEmptyLine text place = true) :
    emptyLineFrom text place = place :=
  emptyLineFrom_eq (Nat.le_refl _) h fun _ hi hlt => absurd hi (Nat.not_le.mpr hlt)

theorem emptyLineFrom_succ {place : ℕ} (h : isEmptyLine text place = false) :
    emptyLineFrom text place = emptyLineFrom text (place + 1) := by
  unfold emptyLineFrom
  rcases Nat.lt_or_ge place text.length with hlt | hge
  · obtain ⟨n, hn⟩ : ∃ n, text.length - place = n + 1 := ⟨text.length - place - 1, by omega⟩
    rw [hn, List.range'_succ, List.find?_cons_of_neg (by simp [h]),
      show text.length - (place + 1) = n by omega]
  · rw [show text.length - place = 0 by omega, show text.length - (place + 1) = 0 by omega]
    rfl

/-- **The text from a place up to two line feeds in a row**, and the empty line that ends it. -/
theorem upTo_two_feeds (text : List Char) {place : ℕ} (hplace : place ≤ text.length) :
    ∃ count ≤ text.length - place,
      upTo ['\n', '\n'] (text.drop place) = (text.drop place).take count ∧
        (text[place + count]? = some '\n' ∧ emptyLineFrom text (place + 1) = place + count + 1 ∨
          place + count = text.length ∧ emptyLineFrom text (place + 1) = text.length) := by
  have hfeeds : ∀ count, ['\n', '\n'].isPrefixOf ((text.drop place).drop count) =
      isEmptyLine text (place + count + 1) := by
    intro count
    rw [List.drop_drop, isEmptyLine_succ]
  unfold upTo
  rw [cut?_eq_firstPlace?]
  cases hfirst : firstPlace? ['\n', '\n'] (text.drop place) with
  | none =>
    refine ⟨text.length - place, Nat.le_refl _, ?_, Or.inr ⟨by omega, ?_⟩⟩
    · rw [← List.length_drop, List.take_length]
      rfl
    · refine emptyLineFrom_eq_length fun i hi hlt => ?_
      have hnone := firstPlace?_eq_none_iff.mp hfirst (i - place - 1)
        (by rw [List.length_drop]; omega)
      rwa [hfeeds, show place + (i - place - 1) + 1 = i by omega] at hnone
  | some count =>
    obtain ⟨hle, hhere, hbefore⟩ := firstPlace?_eq_some_iff.mp hfirst
    rw [List.length_drop] at hle
    rw [hfeeds] at hhere
    obtain ⟨⟨-, hfeed⟩, -⟩ : (place + count + 1 ≠ 0 ∧ text[place + count]? = some '\n') ∧
        text[place + count + 1]? = some '\n' := by
      simpa [isEmptyLine] using hhere
    refine ⟨count, hle, rfl, Or.inl ⟨hfeed, ?_⟩⟩
    refine emptyLineFrom_eq (by omega) hhere fun i hi hlt => ?_
    have hnone := hbefore (i - place - 1) (by omega)
    rwa [hfeeds, show place + (i - place - 1) + 1 = i by omega] at hnone

end BenchLedger.Text
