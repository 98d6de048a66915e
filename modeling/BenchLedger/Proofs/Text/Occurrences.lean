import BenchLedger.Text.Template
import Mathlib.Data.List.Infix
import Mathlib.Data.List.TakeWhile
import Mathlib.Tactic.Common

/-! # All places where a template fits

The scan of a text takes occurrences from left to right and goes on after the end of each. Of most
templates it finds every place where they fit, as no two of these overlap; that this is so can be
checked on the template alone (`Apart`).

* `place?`: what a template reads at a place of a text. A run of digits is taken whole, so a
  template that begins with one fits at the beginning of the run only.
* `scan_eq_places`: the scan finds what stands at any place.
* `occurrence?_append`, `occurrence?_of_append`: what a template reads depends on the text that it
  covers, if no run of digits goes on after it. -/

namespace BenchLedger.Text.Template

variable {template : Template} {text more : List Char} {o : Occurrence}

/-! ### What each piece reads -/

theorem occurrence?_literal {mark : List Char} :
    occurrence? (.literal mark :: template) text = some o ↔ ∃ rest o', text = mark ++ rest ∧
      occurrence? template rest = some o' ∧ { o' with covered := mark ++ o'.covered } = o := by
  simp only [occurrence?, Option.bind_eq_some_iff, Option.map_eq_some_iff, after?_eq_some_iff]
  constructor
  · rintro ⟨rest, htext, o', ho, rfl⟩
    exact ⟨rest, o', htext, ho, rfl⟩
  · rintro ⟨rest, o', htext, ho, rfl⟩
    exact ⟨rest, htext, o', ho, rfl⟩

theorem occurrence?_number :
    occurrence? (.number :: template) text = some o ↔ text.takeWhile isDecimal ≠ [] ∧
      ∃ o', occurrence? template (text.dropWhile isDecimal) = some o' ∧
        { o' with covered := text.takeWhile isDecimal ++ o'.covered,
                  numbers := text.takeWhile isDecimal :: o'.numbers } = o := by
  simp only [occurrence?]
  split_ifs with hrun
  · simp [hrun]
  · simp [hrun, Option.map_eq_some_iff]

theorem occurrence?_digit :
    occurrence? (.digit :: template) text = some o ↔ ∃ c rest o', text = c :: rest ∧
      isDecimal c = true ∧ occurrence? template rest = some o' ∧
        { o' with covered := c :: o'.covered, numbers := [c] :: o'.numbers } = o := by
  cases text with
  | nil => simp [occurrence?]
  | cons c text =>
    simp only [occurrence?]
    split_ifs with hc
    · simp [hc, Option.map_eq_some_iff]
    · simp [hc]

/-! ### One character at a time -/

/-- The template with each literal piece cut into single characters. -/
def fine : Template → Template
  | [] => []
  | .literal mark :: template => mark.map (fun c => .literal [c]) ++ fine template
  | piece :: template => piece :: fine template

theorem occurrence?_letters {rest : Template} (hrest : ∀ text, occurrence? rest text =
    occurrence? template text) (mark : List Char) (text : List Char) :
    occurrence? (mark.map (fun c => .literal [c]) ++ rest) text =
      occurrence? (.literal mark :: template) text := by
  induction mark generalizing text with
  | nil => simp [occurrence?, after?, hrest]
  | cons c mark ih =>
    ext o
    rw [List.map_cons, List.cons_append, occurrence?_literal, occurrence?_literal]
    constructor
    · rintro ⟨rest, o', rfl, ho, rfl⟩
      rw [ih, occurrence?_literal] at ho
      obtain ⟨rest', o'', rfl, ho, rfl⟩ := ho
      exact ⟨rest', o'', rfl, ho, rfl⟩
    · rintro ⟨rest, o', rfl, ho, rfl⟩
      refine ⟨mark ++ rest, { o' with covered := mark ++ o'.covered }, rfl, ?_, rfl⟩
      rw [ih, occurrence?_literal]
      exact ⟨rest, o', rfl, ho, rfl⟩

theorem occurrence?_fine (template : Template) (text : List Char) :
    occurrence? (fine template) text = occurrence? template text := by
  induction template generalizing text with
  | nil => rfl
  | cons piece template ih =>
    cases piece with
    | literal mark => exact occurrence?_letters ih mark text
    | number => simp only [fine, occurrence?, ih]
    | digit =>
      cases text with
      | nil => rfl
      | cons c text => simp only [fine, occurrence?, ih]

/-- Some character or digit in the layouts shows that they never fit at one place together. -/
def clash : Template → Template → Bool
  | .literal [a] :: template, .literal [b] :: other => a ≠ b || clash template other
  | .literal [a] :: _, .number :: _ => !isDecimal a
  | .literal [a] :: _, .digit :: _ => !isDecimal a
  | .number :: _, .literal [b] :: _ => !isDecimal b
  | .digit :: _, .literal [b] :: _ => !isDecimal b
  | .number :: template, .number :: other => clash template other
  | _, _ => false

theorem exists_isDecimal_of_number (h : occurrence? (.number :: template) text = some o) :
    ∃ c rest, text = c :: rest ∧ isDecimal c = true := by
  obtain ⟨hrun, -⟩ := occurrence?_number.mp h
  cases text with
  | nil => exact absurd rfl hrun
  | cons c rest =>
    refine ⟨c, rest, rfl, ?_⟩
    by_contra hc
    exact hrun (List.takeWhile_cons_of_neg hc)

theorem not_both_of_clash {other : Template} {o' : Occurrence} (h : clash template other = true)
    (ho : occurrence? template text = some o) : occurrence? other text ≠ some o' := by
  intro ho'
  induction template, other using clash.induct generalizing text o o' with
  | case1 template a b other ih =>
    obtain ⟨rest, o₁, rfl, ho, -⟩ := occurrence?_literal.mp ho
    obtain ⟨rest', o₂, htext, ho', -⟩ := occurrence?_literal.mp ho'
    obtain ⟨rfl, rfl⟩ := List.cons.inj htext
    exact ih (by simpa [clash] using h) ho ho'
  | case2 a =>
    obtain ⟨rest, o₁, rfl, -, -⟩ := occurrence?_literal.mp ho
    obtain ⟨c, rest', htext, hc⟩ := exists_isDecimal_of_number ho'
    obtain ⟨rfl, -⟩ := List.cons.inj htext
    simp [clash, hc] at h
  | case3 a =>
    obtain ⟨rest, o₁, rfl, -, -⟩ := occurrence?_literal.mp ho
    obtain ⟨c, rest', o₂, htext, hc, -, -⟩ := occurrence?_digit.mp ho'
    obtain ⟨rfl, -⟩ := List.cons.inj htext
    simp [clash, hc] at h
  | case4 =>
    obtain ⟨rest, o₁, rfl, -, -⟩ := occurrence?_literal.mp ho'
    obtain ⟨c, rest', htext, hc⟩ := exists_isDecimal_of_number ho
    obtain ⟨rfl, -⟩ := List.cons.inj htext
    simp [clash, hc] at h
  | case5 =>
    obtain ⟨rest, o₁, rfl, -, -⟩ := occurrence?_literal.mp ho'
    obtain ⟨c, rest', o₂, htext, hc, -, -⟩ := occurrence?_digit.mp ho
    obtain ⟨rfl, -⟩ := List.cons.inj htext
    simp [clash, hc] at h
  | case6 template other ih =>
    obtain ⟨-, o₁, ho, -⟩ := occurrence?_number.mp ho
    obtain ⟨-, o₂, ho', -⟩ := occurrence?_number.mp ho'
    exact ih h ho ho'
  | case7 template other =>
    simp_all [clash]

/-! ### Places within an occurrence -/

/-- The template begins with a run of digits, and the place is within one. -/
def Blocked (template : Template) (text : List Char) (place : ℕ) : Prop :=
  (fine template).head? = some .number ∧ (text.take place).getLast?.any isDecimal = true

instance (template : Template) (text : List Char) (place : ℕ) :
    Decidable (template.Blocked text place) := by
  unfold Blocked; infer_instance

theorem run_drop {k : ℕ} (hk : k ≤ (text.takeWhile isDecimal).length) :
    (text.drop k).takeWhile isDecimal = (text.takeWhile isDecimal).drop k ∧
      (text.drop k).dropWhile isDecimal = text.dropWhile isDecimal := by
  induction k generalizing text with
  | zero => exact ⟨rfl, rfl⟩
  | succ k ih =>
    cases text with
    | nil => cases hk
    | cons c text =>
      by_cases hc : isDecimal c = true
      · rw [List.takeWhile_cons_of_pos hc, List.length_cons, Nat.succ_le_succ_iff] at hk
        rw [List.takeWhile_cons_of_pos hc, List.dropWhile_cons_of_pos hc]
        exact ih hk
      · rw [List.takeWhile_cons_of_neg hc] at hk
        cases hk

theorem any_getLast?_run {k : ℕ} (hpos : 0 < k) (hk : k ≤ (text.takeWhile isDecimal).length) :
    (text.take k).getLast?.any isDecimal = true := by
  have htake : text.take k = (text.takeWhile isDecimal).take k := by
    conv_lhs => rw [← List.takeWhile_append_dropWhile (p := isDecimal) (l := text)]
    exact List.take_append_of_le_length hk
  have hlen : 0 < (text.take k).length := by
    rw [htake, List.length_take]
    omega
  obtain ⟨c, hc⟩ := Option.isSome_iff_exists.mp
    (List.getLast?_isSome.mpr (List.length_pos_iff.mp hlen))
  have hmem : c ∈ text.takeWhile isDecimal := by
    have := List.mem_of_getLast? hc
    rw [htake] at this
    exact List.mem_of_mem_take this
  rw [hc, Option.any_some]
  exact List.mem_takeWhile_imp hmem

/-- At a place the template goes on with what it has not read yet; within a run of digits, with the
rest of the run. -/
def GoesOn (template : Template) (text : List Char) (k : ℕ) : Prop :=
  ∃ rest, rest <:+ fine template ∧ rest ≠ [] ∧ (occurrence? rest (text.drop k)).isSome ∧
    (rest = fine template → k = 0 ∨ template.Blocked text k)

theorem ne_cons_of_suffix {rest : Template} {piece : Piece} (h : rest <:+ template) :
    rest ≠ piece :: template := by
  rintro rfl
  have hlen := h.length_le
  rw [List.length_cons] at hlen
  omega

section GoesOn

variable {mark : List Char} {k : ℕ}

theorem goesOn_within_literal (hk : k < mark.length) (h : occurrence? template text = some o) :
    GoesOn (.literal mark :: template) (mark ++ text) k := by
  refine ⟨(mark.drop k).map (fun c => .literal [c]) ++ fine template, ?_, ?_, ?_, ?_⟩
  · refine ⟨(mark.take k).map (fun c => .literal [c]), ?_⟩
    rw [← List.append_assoc, ← List.map_append, List.take_append_drop]
    rfl
  · have hlen : 0 < (mark.drop k).length := by rw [List.length_drop]; omega
    exact List.append_ne_nil_of_left_ne_nil
      (mt List.map_eq_nil_iff.mp (List.length_pos_iff.mp hlen)) _
  · rw [List.drop_append_of_le_length (Nat.le_of_lt hk),
      occurrence?_letters (occurrence?_fine template), Option.isSome_iff_exists]
    exact ⟨_, occurrence?_literal.mpr ⟨text, o, rfl, h, rfl⟩⟩
  · intro heq
    have hlen := congrArg List.length heq
    simp only [fine, List.length_append, List.length_map, List.length_drop] at hlen
    exact Or.inl (by omega)

theorem goesOn_after_literal (hk : mark.length ≤ k) (h : template.GoesOn text (k - mark.length)) :
    GoesOn (.literal mark :: template) (mark ++ text) k := by
  obtain ⟨rest, hsuffix, hne, hfits, hwhole⟩ := h
  refine ⟨rest, hsuffix.trans (List.suffix_append _ _), hne, ?_, fun heq => ?_⟩
  · rwa [List.drop_append, List.drop_of_length_le hk, List.nil_append]
  · have hlen := hsuffix.length_le
    rw [heq] at hlen
    simp only [fine, List.length_append, List.length_map] at hlen
    obtain rfl : mark = [] := List.length_eq_zero_iff.mp (by omega)
    exact hwhole heq

theorem goesOn_within_number (hk : k < (text.takeWhile isDecimal).length)
    (h : occurrence? template (text.dropWhile isDecimal) = some o) :
    GoesOn (.number :: template) text k := by
  obtain ⟨htake, hdrop⟩ := run_drop (Nat.le_of_lt hk)
  refine ⟨fine (.number :: template), List.suffix_refl _, List.cons_ne_nil _ _, ?_, fun _ => ?_⟩
  · have hne : (text.drop k).takeWhile isDecimal ≠ [] := by
      rw [htake, ← List.length_pos_iff, List.length_drop]
      omega
    rw [← hdrop] at h
    rw [occurrence?_fine, Option.isSome_iff_exists]
    exact ⟨_, occurrence?_number.mpr ⟨hne, o, h, rfl⟩⟩
  · rcases Nat.eq_zero_or_pos k with h0 | hpos
    · exact Or.inl h0
    · exact Or.inr ⟨rfl, any_getLast?_run hpos (Nat.le_of_lt hk)⟩

theorem goesOn_after_number (hk : (text.takeWhile isDecimal).length ≤ k)
    (h : template.GoesOn (text.dropWhile isDecimal) (k - (text.takeWhile isDecimal).length)) :
    GoesOn (.number :: template) text k := by
  obtain ⟨rest, hsuffix, hne, hfits, -⟩ := h
  refine ⟨rest, hsuffix.trans (List.suffix_cons _ _), hne, ?_,
    fun heq => absurd heq (ne_cons_of_suffix hsuffix)⟩
  rw [← List.takeWhile_append_dropWhile (p := isDecimal) (l := text), List.drop_append,
    List.drop_of_length_le hk, List.nil_append]
  exact hfits

theorem goesOn_after_digit (c : Char) (h : template.GoesOn text k) :
    GoesOn (.digit :: template) (c :: text) (k + 1) := by
  obtain ⟨rest, hsuffix, hne, hfits, -⟩ := h
  exact ⟨rest, hsuffix.trans (List.suffix_cons _ _), hne, hfits,
    fun heq => absurd heq (ne_cons_of_suffix hsuffix)⟩

end GoesOn

/-- **Within an occurrence the template goes on.** -/
theorem goesOn_of_lt (h : occurrence? template text = some o) {k : ℕ}
    (hk : k < o.covered.length) : template.GoesOn text k := by
  induction template generalizing text o k with
  | nil =>
    obtain rfl : ⟨[], [], text⟩ = o := Option.some.inj h
    cases hk
  | cons piece template ih =>
    cases piece with
    | literal mark =>
      obtain ⟨rest, o', rfl, ho, rfl⟩ := occurrence?_literal.mp h
      rw [List.length_append] at hk
      rcases Nat.lt_or_ge k mark.length with hin | hout
      · exact goesOn_within_literal hin ho
      · exact goesOn_after_literal hout (ih ho (by omega))
    | number =>
      obtain ⟨-, o', ho, rfl⟩ := occurrence?_number.mp h
      rw [List.length_append] at hk
      rcases Nat.lt_or_ge k (text.takeWhile isDecimal).length with hin | hout
      · exact goesOn_within_number hin ho
      · exact goesOn_after_number hout (ih ho (by omega))
    | digit =>
      obtain ⟨c, rest, o', rfl, hc, ho, rfl⟩ := occurrence?_digit.mp h
      cases k with
      | zero =>
        refine ⟨fine (.digit :: template), List.suffix_refl _, List.cons_ne_nil _ _, ?_,
          fun _ => Or.inl rfl⟩
        rw [occurrence?_fine, List.drop_zero, h]
        rfl
      | succ k => exact goesOn_after_digit c (ih ho (Nat.lt_of_succ_lt_succ hk))

/-! ### All places -/

/-- What the template reads at a place. -/
def place? (template : Template) (text : List Char) (place : ℕ) : Option Occurrence :=
  if template.Blocked text place then none else template.occurrence? (text.drop place)

/-- Occurrences of the template are not empty, none begins within another, and none ends with a
digit if the template begins with a run of them. -/
structure Apart (template : Template) : Prop where
  ne_nil : fine template ≠ []
  clash : ∀ rest ∈ (fine template).tail.tails, rest ≠ [] → clash (fine template) rest = true
  ends : (fine template).head? = some .number →
    ∃ c, (fine template).getLast? = some (.literal [c]) ∧ isDecimal c = false

theorem Blocked.of_drop {place k : ℕ} (h : template.Blocked (text.drop place) k) :
    template.Blocked text (place + k) := by
  obtain ⟨hhead, hany⟩ := h
  refine ⟨hhead, ?_⟩
  rw [List.take_add, List.getLast?_append]
  cases hlast : ((text.drop place).take k).getLast? with
  | none => rw [hlast] at hany; cases hany
  | some c => rwa [hlast] at hany

theorem place?_eq_none_of_lt (ha : template.Apart) {place : ℕ}
    (h : occurrence? template (text.drop place) = some o) {k : ℕ} (hpos : 0 < k)
    (hk : k < o.covered.length) : template.place? text (place + k) = none := by
  obtain ⟨rest, hsuffix, hne, hfits, hwhole⟩ := goesOn_of_lt h hk
  unfold place?
  split_ifs with hblocked
  · rfl
  obtain ⟨piece, tail, hfine⟩ := List.exists_cons_of_ne_nil ha.ne_nil
  have htail : rest <:+ (fine template).tail := by
    rw [hfine, List.suffix_cons_iff, ← hfine] at hsuffix
    rcases hsuffix with heq | hsuffix
    · rcases hwhole heq with h0 | hin
      · exact absurd h0 (Nat.ne_of_gt hpos)
      · exact absurd hin.of_drop hblocked
    · rwa [hfine]
  rw [List.drop_drop] at hfits
  obtain ⟨o', ho'⟩ := Option.isSome_iff_exists.mp hfits
  rw [Option.eq_none_iff_forall_ne_some]
  intro o'' ho''
  rw [← occurrence?_fine] at ho''
  exact not_both_of_clash (ha.clash rest ((List.mem_tails _ _).mpr htail) hne) ho'' ho'

theorem covered_ne_nil (hne : fine template ≠ []) (h : occurrence? template text = some o) :
    o.covered ≠ [] := by
  induction template generalizing text o with
  | nil => exact absurd rfl hne
  | cons piece template ih =>
    cases piece with
    | literal mark =>
      obtain ⟨rest, o', rfl, ho, rfl⟩ := occurrence?_literal.mp h
      cases mark with
      | nil => exact ih hne ho
      | cons c mark => exact List.cons_ne_nil _ _
    | number =>
      obtain ⟨hrun, o', -, rfl⟩ := occurrence?_number.mp h
      exact List.append_ne_nil_of_left_ne_nil hrun _
    | digit =>
      obtain ⟨c, rest, o', rfl, -, -, rfl⟩ := occurrence?_digit.mp h
      exact List.cons_ne_nil _ _

theorem getLast?_covered {c : Char} (hlast : template.getLast? = some (.literal [c]))
    (h : occurrence? template text = some o) : o.covered.getLast? = some c := by
  induction template generalizing text o with
  | nil => cases hlast
  | cons piece template ih =>
    have happend : ∀ (before : List Char) (o' : Occurrence), o'.covered.getLast? = some c →
        (before ++ o'.covered).getLast? = some c := by
      intro before o' ho'
      rw [List.getLast?_append, ho']
      rfl
    cases template with
    | nil =>
      obtain rfl : piece = .literal [c] := Option.some.inj hlast
      obtain ⟨rest, o', rfl, ho, rfl⟩ := occurrence?_literal.mp h
      obtain rfl : ⟨[], [], rest⟩ = o' := Option.some.inj ho
      rfl
    | cons next template =>
      rw [List.getLast?_cons_cons] at hlast
      cases piece with
      | literal mark =>
        obtain ⟨rest, o', rfl, ho, rfl⟩ := occurrence?_literal.mp h
        exact happend mark o' (ih hlast ho)
      | number =>
        obtain ⟨-, o', ho, rfl⟩ := occurrence?_number.mp h
        exact happend _ o' (ih hlast ho)
      | digit =>
        obtain ⟨d, rest, o', rfl, -, ho, rfl⟩ := occurrence?_digit.mp h
        exact happend [d] o' (ih hlast ho)

theorem not_blocked_after (ha : template.Apart) {place : ℕ}
    (h : occurrence? template (text.drop place) = some o) :
    ¬ template.Blocked text (place + o.covered.length) := by
  rintro ⟨hhead, hany⟩
  obtain ⟨c, hlast, hc⟩ := ha.ends hhead
  have hcovered : (text.drop place).take o.covered.length = o.covered := by
    rw [← covered_append_rest h, List.take_left]
  rw [← occurrence?_fine] at h
  rw [List.take_add, hcovered, List.getLast?_append, getLast?_covered hlast h] at hany
  exact absurd (hc.symm.trans hany) Bool.false_ne_true

theorem place?_succ {place : ℕ} (h : occurrence? template (text.drop place) = none) :
    template.place? text (place + 1) = occurrence? template (text.drop (place + 1)) := by
  unfold place?
  split_ifs with hblocked
  · obtain ⟨hhead, hany⟩ := hblocked
    obtain ⟨tail, hfine⟩ := List.head?_eq_some_iff.mp hhead
    rw [← occurrence?_fine, hfine] at h ⊢
    symm
    rw [Option.eq_none_iff_forall_ne_some]
    intro o ho
    obtain ⟨hrun, o', ho', -⟩ := occurrence?_number.mp ho
    have hlt : place + 1 < text.length := by
      by_contra hge
      rw [List.drop_of_length_le (by omega)] at hrun
      exact hrun rfl
    have hdrop : text.drop place = text[place] :: text.drop (place + 1) :=
      List.drop_eq_getElem_cons (by omega)
    have hc : isDecimal text[place] = true := by
      rw [List.take_add_one, List.getElem?_eq_getElem (by omega), Option.toList_some,
        List.getLast?_append] at hany
      exact hany
    have hrun' : (text[place] :: text.drop (place + 1)).takeWhile isDecimal ≠ [] := by
      rw [List.takeWhile_cons_of_pos hc]
      exact List.cons_ne_nil _ _
    have hfits := occurrence?_number.mpr ⟨hrun', o', by rwa [List.dropWhile_cons_of_pos hc], rfl⟩
    rw [hdrop, hfits] at h
    cases h
  · rfl

theorem scanFrom_drop (ha : template.Apart) (text : List Char) (n place skip : ℕ)
    (hlen : place + n = text.length)
    (hskip : ∀ j, place ≤ j → j < place + skip → template.place? text j = none)
    (hfree : template.place? text (place + skip) =
      occurrence? template (text.drop (place + skip))) :
    scanFrom template skip (text.drop place) =
      (List.range' place n).filterMap (template.place? text) := by
  induction n generalizing place skip with
  | zero =>
    rw [List.drop_of_length_le (by omega)]
    cases skip <;> rfl
  | succ n ih =>
    obtain ⟨c, hc⟩ : ∃ c, text.drop place = c :: text.drop (place + 1) :=
      ⟨_, List.drop_eq_getElem_cons (by omega)⟩
    rw [hc, List.range'_succ, List.filterMap_cons]
    cases skip with
    | succ skip =>
      rw [hskip place le_rfl (by omega), scanFrom]
      refine ih (place + 1) skip (by omega) (fun j hj hlt => hskip j (by omega) (by omega)) ?_
      rw [show place + 1 + skip = place + (skip + 1) by omega]
      exact hfree
    | zero =>
      rw [Nat.add_zero, hc] at hfree
      rw [hfree, scanFrom]
      cases ho : occurrence? template (c :: text.drop (place + 1)) with
      | none =>
        rw [← hc] at ho
        exact ih (place + 1) 0 (by omega) (fun j hj hlt => absurd hlt (by omega)) (place?_succ ho)
      | some o =>
        rw [← hc] at ho
        have hpos : 0 < o.covered.length := List.length_pos_iff.mpr (covered_ne_nil ha.ne_nil ho)
        have hend : place + 1 + (o.covered.length - 1) = place + o.covered.length := by omega
        refine congrArg (o :: ·) (ih (place + 1) _ (by omega) (fun j hj hlt => ?_) ?_)
        · rw [show j = place + (j - place) by omega]
          exact place?_eq_none_of_lt ha ho (by omega) (by omega)
        · rw [hend, place?, if_neg (not_blocked_after ha ho)]

/-- **The scan finds what stands at any place.** -/
theorem scan_eq_places (ha : template.Apart) (text : List Char) :
    scan template text = (List.range text.length).filterMap (template.place? text) := by
  have hfree : template.place? text (0 + 0) = occurrence? template (text.drop (0 + 0)) := by
    rw [place?, if_neg]
    rintro ⟨-, hany⟩
    cases hany
  rw [scan, List.range_eq_range', ← scanFrom_drop ha text text.length 0 0 (by omega)
    (fun j hj hlt => absurd hlt (by omega)) hfree, List.drop_zero]

/-! ### Parts of a text -/

theorem run_append (h : ((text ++ more).takeWhile isDecimal).length ≤ text.length) :
    (text ++ more).takeWhile isDecimal = text.takeWhile isDecimal ∧
      (text ++ more).dropWhile isDecimal = text.dropWhile isDecimal ++ more := by
  induction text with
  | nil =>
    have hnil : more.takeWhile isDecimal = [] := List.length_eq_zero_iff.mp (Nat.le_zero.mp h)
    have hmore := List.takeWhile_append_dropWhile (p := isDecimal) (l := more)
    rw [hnil] at hmore
    exact ⟨hnil, hmore⟩
  | cons c text ih =>
    rw [List.cons_append] at h ⊢
    by_cases hc : isDecimal c = true
    · rw [List.takeWhile_cons_of_pos hc, List.length_cons, List.length_cons,
        Nat.succ_le_succ_iff] at h
      simp only [List.takeWhile_cons_of_pos hc, List.dropWhile_cons_of_pos hc, ih h, and_self]
    · simp only [List.takeWhile_cons_of_neg hc, List.dropWhile_cons_of_neg hc, List.cons_append,
        and_self]

theorem length_run_append_le (h : ∀ c, more.head? = some c → isDecimal c = false) :
    ((text ++ more).takeWhile isDecimal).length ≤ text.length := by
  induction text with
  | nil =>
    cases more with
    | nil => exact le_rfl
    | cons c more =>
      rw [List.nil_append, List.takeWhile_cons_of_neg (by rw [h c rfl]; exact Bool.false_ne_true)]
  | cons c text ih =>
    by_cases hc : isDecimal c = true
    · rw [List.cons_append, List.takeWhile_cons_of_pos hc]
      exact Nat.succ_le_succ ih
    · rw [List.cons_append, List.takeWhile_cons_of_neg hc]
      exact Nat.zero_le _

/-- An occurrence stays where more text follows, unless this goes on with a digit. -/
theorem occurrence?_append (h : occurrence? template text = some o)
    (hmore : ∀ c, more.head? = some c → isDecimal c = false) :
    occurrence? template (text ++ more) = some { o with rest := o.rest ++ more } := by
  induction template generalizing text o with
  | nil =>
    obtain rfl : ⟨[], [], text⟩ = o := Option.some.inj h
    rfl
  | cons piece template ih =>
    cases piece with
    | literal mark =>
      obtain ⟨rest, o', rfl, ho, rfl⟩ := occurrence?_literal.mp h
      exact occurrence?_literal.mpr
        ⟨rest ++ more, _, List.append_assoc _ _ _, ih ho, rfl⟩
    | number =>
      obtain ⟨hrun, o', ho, rfl⟩ := occurrence?_number.mp h
      obtain ⟨htake, hdrop⟩ := @run_append text more (length_run_append_le hmore)
      rw [occurrence?_number, htake, hdrop]
      exact ⟨hrun, _, ih ho, rfl⟩
    | digit =>
      obtain ⟨c, rest, o', rfl, hc, ho, rfl⟩ := occurrence?_digit.mp h
      exact occurrence?_digit.mpr ⟨c, rest ++ more, _, rfl, hc, ih ho, rfl⟩

/-- An occurrence that lies within a text stays where nothing follows. -/
theorem occurrence?_of_append (h : occurrence? template (text ++ more) = some o)
    (hle : o.covered.length ≤ text.length) :
    ∃ rest, occurrence? template text = some { o with rest := rest } := by
  induction template generalizing text o with
  | nil =>
    obtain rfl : ⟨[], [], text ++ more⟩ = o := Option.some.inj h
    exact ⟨text, rfl⟩
  | cons piece template ih =>
    cases piece with
    | literal mark =>
      obtain ⟨rest, o', htext, ho, rfl⟩ := occurrence?_literal.mp h
      rw [List.length_append] at hle
      obtain ⟨tail, rfl⟩ : mark <+: text :=
        List.prefix_of_prefix_length_le ⟨rest, htext.symm⟩ (List.prefix_append _ _) (by omega)
      obtain rfl : tail ++ more = rest := by simpa using htext
      rw [List.length_append] at hle
      obtain ⟨rest', ho'⟩ := ih ho (by omega)
      exact ⟨rest', occurrence?_literal.mpr ⟨tail, _, rfl, ho', rfl⟩⟩
    | number =>
      obtain ⟨hrun, o', ho, rfl⟩ := occurrence?_number.mp h
      rw [List.length_append] at hle
      obtain ⟨htake, hdrop⟩ := @run_append text more (by omega)
      rw [htake] at hrun hle ⊢
      rw [hdrop] at ho
      have hlen := congrArg List.length
        (List.takeWhile_append_dropWhile (p := isDecimal) (l := text))
      rw [List.length_append] at hlen
      obtain ⟨rest', ho'⟩ := ih ho (by omega)
      exact ⟨rest', occurrence?_number.mpr ⟨hrun, _, ho', rfl⟩⟩
    | digit =>
      obtain ⟨c, rest, o', htext, hc, ho, rfl⟩ := occurrence?_digit.mp h
      cases text with
      | nil => cases hle
      | cons d text =>
        obtain ⟨rfl, rfl⟩ := List.cons.inj htext
        obtain ⟨rest', ho'⟩ := ih ho (Nat.le_of_succ_le_succ hle)
        exact ⟨rest', occurrence?_digit.mpr ⟨d, text, _, rfl, hc, ho', rfl⟩⟩

section Slice

variable {before body after : List Char}

theorem blocked_slice (hbefore : before.getLast?.any isDecimal = false) {place : ℕ}
    (hplace : place ≤ body.length) :
    template.Blocked (before ++ body ++ after) (before.length + place) ↔
      template.Blocked body place := by
  have htake : (before ++ body ++ after).take (before.length + place) =
      before ++ body.take place := by
    rw [List.append_assoc, List.take_length_add_append, List.take_append_of_le_length hplace]
  unfold Blocked
  rw [htake, List.getLast?_append]
  cases (body.take place).getLast? with
  | none => simp [hbefore]
  | some c => rfl

theorem place?_slice (hbefore : before.getLast?.any isDecimal = false)
    (hafter : ∀ c, after.head? = some c → isDecimal c = false) {place : ℕ}
    (hplace : place ≤ body.length) :
    (template.place? body place).map Occurrence.groups =
      ((template.place? (before ++ body ++ after) (before.length + place)).filter fun o =>
        place + o.covered.length ≤ body.length).map Occurrence.groups := by
  have hdrop : (before ++ body ++ after).drop (before.length + place) =
      body.drop place ++ after := by
    rw [List.append_assoc, List.drop_length_add_append, List.drop_append_of_le_length hplace]
  unfold place?
  simp only [blocked_slice hbefore hplace, hdrop]
  split_ifs
  · rfl
  have happend : ∀ {o}, template.occurrence? (body.drop place) = some o →
      template.occurrence? (body.drop place ++ after) = some { o with rest := o.rest ++ after } :=
    fun ho => occurrence?_append ho hafter
  cases hout : template.occurrence? (body.drop place ++ after) with
  | none =>
    cases hin : template.occurrence? (body.drop place) with
    | none => rfl
    | some o => rw [happend hin] at hout; cases hout
  | some o =>
    by_cases hle : place + o.covered.length ≤ body.length
    · obtain ⟨rest, hin⟩ := occurrence?_of_append hout (by rw [List.length_drop]; omega)
      rw [hin, Option.filter_some_pos (by simpa using hle)]
      rfl
    · rw [Option.filter_some_neg (by simpa using hle)]
      cases hin : template.occurrence? (body.drop place) with
      | none => rfl
      | some o' =>
        have heq := hout.symm.trans (happend hin)
        have hlen := congrArg List.length (covered_append_rest hin)
        obtain rfl := Option.some.inj heq
        rw [List.length_append, List.length_drop] at hlen
        exact absurd (show place + o'.covered.length ≤ body.length by omega) hle

/-- The groups of what the template reads at a place, if it lies from `first` up to `last`. -/
def within? (template : Template) (text : List Char) (first last place : ℕ) :
    Option Groups :=
  ((template.place? text place).filter fun o =>
    first ≤ place ∧ place + o.covered.length ≤ last).map Occurrence.groups

/-- The groups of all that the template reads from `first` up to `last`, in order. -/
def groupsWithin (template : Template) (text : List Char) (first last : ℕ) :
    List Groups :=
  (List.range text.length).filterMap (template.within? text first last)

theorem place?_eq_some {place : ℕ} (h : template.place? text place = some o) :
    occurrence? template (text.drop place) = some o := by
  unfold place? at h
  split_ifs at h
  exact h

theorem within?_eq_none (hne : fine template ≠ []) {first last place : ℕ}
    (h : place < first ∨ last ≤ place) : template.within? text first last place = none := by
  unfold within?
  cases hplace : template.place? text place with
  | none => rfl
  | some o =>
    have hpos := List.length_pos_iff.mpr (covered_ne_nil hne (place?_eq_some hplace))
    have hout : ¬ (first ≤ place ∧ place + o.covered.length ≤ last) := by omega
    rw [Option.filter_some_neg (by simpa using hout)]
    rfl

theorem within?_slice (hbefore : before.getLast?.any isDecimal = false)
    (hafter : ∀ c, after.head? = some c → isDecimal c = false) {place : ℕ}
    (hplace : place ≤ body.length) :
    template.within? (before ++ body ++ after) before.length (before.length + body.length)
      (before.length + place) = (template.place? body place).map Occurrence.groups := by
  have hcondition : ∀ o : Occurrence, (before.length ≤ before.length + place ∧
      before.length + place + o.covered.length ≤ before.length + body.length) ↔
        place + o.covered.length ≤ body.length := by
    intro o
    omega
  rw [place?_slice hbefore hafter hplace]
  unfold within?
  simp only [hcondition]

/-- **The scan of a part finds what lies within the part**, unless it is cut out of a run of
digits. -/
theorem scan_slice (ha : template.Apart) (hbefore : before.getLast?.any isDecimal = false)
    (hafter : ∀ c, after.head? = some c → isDecimal c = false) :
    (scan template body).map Occurrence.groups =
      template.groupsWithin (before ++ body ++ after) before.length
        (before.length + body.length) := by
  have hlength : (before ++ body ++ after).length =
      before.length + (body.length + after.length) := by
    rw [List.length_append, List.length_append, Nat.add_assoc]
  have hnone : ∀ (start count : ℕ),
      (start + count ≤ before.length ∨ before.length + body.length ≤ start) →
      (List.range' start count).filterMap (template.within? (before ++ body ++ after) before.length
        (before.length + body.length)) = [] := by
    intro start count h
    rw [List.filterMap_eq_nil_iff]
    intro place hplace
    have := List.mem_range'_1.mp hplace
    exact within?_eq_none ha.ne_nil (by omega)
  unfold groupsWithin
  rw [hlength, List.range_eq_range', ← List.range'_append_1, ← List.range'_append_1,
    List.filterMap_append, List.filterMap_append, Nat.zero_add, hnone _ _ (Or.inl (by omega)),
    hnone _ _ (Or.inr le_rfl), List.nil_append, List.append_nil, List.range'_eq_map_range,
    List.filterMap_map, scan_eq_places ha, List.map_filterMap]
  refine List.filterMap_congr fun place hplace => ?_
  exact (within?_slice hbefore hafter (List.mem_range.mp hplace).le).symm

end Slice

theorem groupsWithin_self (hne : fine template ≠ []) (text : List Char) (place : ℕ) :
    template.groupsWithin text place place = [] :=
  List.filterMap_eq_nil_iff.mpr fun other _ =>
    within?_eq_none hne (Nat.lt_or_ge other place)

theorem groupsWithin_succ {c : Char} (hlast : (fine template).getLast? = some (.literal [c]))
    {first last : ℕ} (hne : text[last]? ≠ some c) :
    template.groupsWithin text first (last + 1) = template.groupsWithin text first last := by
  refine List.filterMap_congr fun place _ => ?_
  unfold within?
  cases hplace : template.place? text place with
  | none => rfl
  | some o =>
    have ho := place?_eq_some hplace
    have hend : place + o.covered.length ≠ last + 1 := by
      intro hlen
      have hcovered := getLast?_covered hlast ((occurrence?_fine _ _).trans ho)
      have hpos : 0 < o.covered.length := by
        rw [List.length_pos_iff]
        rintro hnil
        rw [hnil] at hcovered
        cases hcovered
      have hhere : (text.drop place)[o.covered.length - 1]? = some c := by
        rw [← covered_append_rest ho, List.getElem?_append_left (by omega),
          ← List.getLast?_eq_getElem?, hcovered]
      rw [List.getElem?_drop, show place + (o.covered.length - 1) = last by omega] at hhere
      exact hne hhere
    have hcondition : (first ≤ place ∧ place + o.covered.length ≤ last + 1) ↔
        (first ≤ place ∧ place + o.covered.length ≤ last) := by
      omega
    simp only [Option.filter_some, hcondition]

end BenchLedger.Text.Template
