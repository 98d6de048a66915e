import BenchLedger.Proofs.Text.Occurrences
import Mathlib.Data.List.Pairwise

/-! # Readings

What a template says of a text, apart from how it is matched: its pieces stand one after the other,
with any digits for a run (`Reads`). If each run ends at a character that is no digit (`Delimited`),
there is at most one such reading at a place, and it is what the template reads there
(`reads_iff`). So the scan of a text finds each place with a reading once, from left to right
(`exists_places`). -/

namespace BenchLedger.Text.Template

variable {template : Template} {text rest : List Char} {numbers : List (List Char)} {o : Occurrence}

/-- **A reading of a text**: the pieces of the template, with these digit runs, and then the
rest. -/
inductive Reads : Template → List Char → List (List Char) → List Char → Prop where
  | nil (text : List Char) : Reads [] text [] text
  | literal (mark : List Char) {template : Template} {text rest : List Char}
    {numbers : List (List Char)} (after : Reads template text numbers rest) :
    Reads (.literal mark :: template) (mark ++ text) numbers rest
  | number {run : List Char} {template : Template} {text rest : List Char}
    {numbers : List (List Char)} (ne_nil : run ≠ []) (digits : ∀ c ∈ run, isDecimal c = true)
    (after : Reads template text numbers rest) :
    Reads (.number :: template) (run ++ text) (run :: numbers) rest
  | digit {c : Char} {template : Template} {text rest : List Char}
    {numbers : List (List Char)} (isDecimal : isDecimal c = true)
    (after : Reads template text numbers rest) :
    Reads (.digit :: template) (c :: text) ([c] :: numbers) rest

theorem Reads.append {layout : Template} {after : List Char} {more : List (List Char)}
    (h : Reads layout text numbers rest) (hrest : Reads template rest more after) :
    Reads (layout ++ template) text (numbers ++ more) after := by
  induction h with
  | nil text => exact hrest
  | literal mark _ ih => exact .literal mark (ih hrest)
  | number ne_nil digits _ ih => exact .number ne_nil digits (ih hrest)
  | digit isDecimal _ ih => exact .digit isDecimal (ih hrest)

/-- **What follows a reading has no part in it.** -/
theorem Reads.exists_part (h : Reads template text numbers rest) :
    ∃ part, text = part ++ rest ∧ ∀ after, Reads template (part ++ after) numbers after := by
  induction h with
  | nil text => exact ⟨[], rfl, fun after => .nil after⟩
  | literal mark _ ih =>
    obtain ⟨part, rfl, hpart⟩ := ih
    refine ⟨mark ++ part, (List.append_assoc ..).symm, fun after => ?_⟩
    rw [List.append_assoc]
    exact .literal mark (hpart after)
  | @number run _ _ _ _ ne_nil digits _ ih =>
    obtain ⟨part, rfl, hpart⟩ := ih
    refine ⟨run ++ part, (List.append_assoc ..).symm, fun after => ?_⟩
    rw [List.append_assoc]
    exact .number ne_nil digits (hpart after)
  | @digit c _ _ _ _ hc _ ih =>
    obtain ⟨part, rfl, hpart⟩ := ih
    exact ⟨c :: part, rfl, fun after => .digit hc (hpart after)⟩

theorem Reads.split {layout : Template} (h : Reads (template ++ layout) text numbers rest) :
    ∃ between first second, Reads template text first between ∧
      Reads layout between second rest ∧ numbers = first ++ second := by
  induction template generalizing text numbers with
  | nil => exact ⟨text, [], numbers, .nil text, h, rfl⟩
  | cons piece template ih =>
    cases h with
    | literal mark after =>
      obtain ⟨between, first, second, hfirst, hsecond, rfl⟩ := ih after
      exact ⟨between, first, second, .literal mark hfirst, hsecond, rfl⟩
    | number ne_nil digits after =>
      obtain ⟨between, first, second, hfirst, hsecond, rfl⟩ := ih after
      exact ⟨between, _ :: first, second, .number ne_nil digits hfirst, hsecond, rfl⟩
    | digit hc after =>
      obtain ⟨between, first, second, hfirst, hsecond, rfl⟩ := ih after
      exact ⟨between, _ :: first, second, .digit hc hfirst, hsecond, rfl⟩

/-- A literal piece that begins with no digit comes next. -/
def endsRun : Template → Bool
  | .literal (c :: _) :: _ => !isDecimal c
  | _ => false

/-- Each run of digits is followed by a character that is no digit. -/
def Delimited : Template → Bool
  | [] => true
  | .number :: template => endsRun template && Delimited template
  | _ :: template => Delimited template

theorem reads_of_occurrence? (h : occurrence? template text = some o) :
    Reads template text o.numbers o.rest := by
  induction template generalizing text o with
  | nil =>
    obtain rfl : ⟨[], [], text⟩ = o := Option.some.inj h
    exact .nil text
  | cons piece template ih =>
    cases piece with
    | literal mark =>
      obtain ⟨rest, o', rfl, ho, rfl⟩ := occurrence?_literal.mp h
      have hafter := ih ho
      exact .literal mark hafter
    | number =>
      obtain ⟨hne, o', ho, rfl⟩ := occurrence?_number.mp h
      have hreads : Reads (.number :: template)
          (text.takeWhile isDecimal ++ text.dropWhile isDecimal)
          (text.takeWhile isDecimal :: o'.numbers) o'.rest :=
        .number hne (fun c hc => List.mem_takeWhile_imp hc) (ih ho)
      rwa [List.takeWhile_append_dropWhile] at hreads
    | digit =>
      obtain ⟨c, rest, o', rfl, hc, ho, rfl⟩ := occurrence?_digit.mp h
      have hafter := ih ho
      exact .digit hc hafter

theorem head?_of_endsRun (hends : endsRun template = true)
    (h : Reads template text numbers rest) (c : Char) (hc : text.head? = some c) :
    isDecimal c = false := by
  cases h with
  | literal mark after =>
    cases mark with
    | nil => simp [endsRun] at hends
    | cons d mark =>
      simp only [List.cons_append, List.head?_cons, Option.some.injEq] at hc
      simpa [endsRun, hc] using hends
  | _ => simp [endsRun] at hends

theorem run_of_digits {run : List Char} (hrun : ∀ c ∈ run, isDecimal c = true)
    (htext : ∀ c, text.head? = some c → isDecimal c = false) :
    (run ++ text).takeWhile isDecimal = run ∧ (run ++ text).dropWhile isDecimal = text := by
  have hnone : text.takeWhile isDecimal = [] ∧ text.dropWhile isDecimal = text := by
    cases text with
    | nil => simp
    | cons c text =>
      have hc := htext c rfl
      simp [hc]
  rw [List.takeWhile_append_of_pos hrun, List.dropWhile_append_of_pos hrun, hnone.1, hnone.2]
  simp

theorem occurrence?_of_reads (hd : template.Delimited = true)
    (h : Reads template text numbers rest) :
    ∃ covered, occurrence? template text = some ⟨covered, numbers, rest⟩ := by
  induction h with
  | nil text => exact ⟨[], rfl⟩
  | literal mark after ih =>
    obtain ⟨covered, ho⟩ := ih hd
    exact ⟨mark ++ covered, occurrence?_literal.mpr ⟨_, _, rfl, ho, rfl⟩⟩
  | @number run template text rest numbers ne_nil digits after ih =>
    simp only [Delimited, Bool.and_eq_true] at hd
    obtain ⟨covered, ho⟩ := ih hd.2
    obtain ⟨htake, hdrop⟩ := run_of_digits digits (head?_of_endsRun hd.1 after)
    refine ⟨run ++ covered, occurrence?_number.mpr ?_⟩
    rw [htake, hdrop]
    exact ⟨ne_nil, _, ho, rfl⟩
  | @digit c template text rest numbers hc after ih =>
    obtain ⟨covered, ho⟩ := ih hd
    exact ⟨c :: covered, occurrence?_digit.mpr ⟨c, text, _, rfl, hc, ho, rfl⟩⟩

/-- **What a template reads is the one reading.** -/
theorem reads_iff (hd : template.Delimited = true) :
    Reads template text numbers rest ↔
      ∃ covered, occurrence? template text = some ⟨covered, numbers, rest⟩ := by
  constructor
  · exact occurrence?_of_reads hd
  · rintro ⟨covered, ho⟩
    exact reads_of_occurrence? ho

theorem mem_of_reads {c : Char} (h : Reads template text numbers rest) (hc : c ∈ text) :
    isDecimal c = true ∨ .literal [c] ∈ fine template ∨ c ∈ rest := by
  induction h with
  | nil text => exact Or.inr (Or.inr hc)
  | literal mark after ih =>
    rcases List.mem_append.mp hc with hmark | htext
    · exact Or.inr (Or.inl (List.mem_append_left _ (List.mem_map_of_mem hmark)))
    · exact (ih htext).imp_right (Or.imp_left (List.mem_append_right _))
  | number ne_nil digits after ih =>
    rcases List.mem_append.mp hc with hrun | htext
    · exact Or.inl (digits c hrun)
    · exact (ih htext).imp_right (Or.imp_left (List.mem_cons_of_mem _))
  | digit hd after ih =>
    rcases List.mem_cons.mp hc with rfl | htext
    · exact Or.inl hd
    · exact (ih htext).imp_right (Or.imp_left (List.mem_cons_of_mem _))

/-- The pieces that stand for digits. -/
def runs (template : Template) : ℕ :=
  template.countP fun piece => match piece with
    | .literal _ => false
    | _ => true

theorem length_numbers (h : Reads template text numbers rest) : numbers.length = template.runs := by
  unfold runs
  induction h with
  | nil text => rfl
  | literal mark after ih => simpa using ih
  | number ne_nil digits after ih => simpa using ih
  | digit hc after ih => simpa using ih

/-! ### All places -/

/-- **All places with a reading**, from left to right, each with its digit runs. -/
structure Places (template : Template) (text : List Char) (found : List (ℕ × List (List Char))) :
    Prop where
  increasing : (found.map Prod.fst).Pairwise (· < ·)
  mem_iff : ∀ place numbers, (place, numbers) ∈ found ↔
    ∃ rest, Reads template (text.drop place) numbers rest

theorem not_reads_nil (hne : fine template ≠ []) (hd : template.Delimited = true) :
    ¬ Reads template [] numbers rest := by
  intro h
  obtain ⟨covered, ho⟩ := occurrence?_of_reads hd h
  have hcovered := covered_append_rest ho
  exact covered_ne_nil hne ho (List.append_eq_nil_iff.mp hcovered).1

theorem reads_of_mem_scan (ha : template.Apart) (h : o ∈ scan template text) :
    ∃ place, Reads template (text.drop place) o.numbers o.rest := by
  rw [scan_eq_places ha] at h
  obtain ⟨place, -, hplace⟩ := List.mem_filterMap.mp h
  exact ⟨place, reads_of_occurrence? (place?_eq_some hplace)⟩

/-- **The scan finds all places with a reading.** -/
theorem exists_places (ha : template.Apart) (hd : template.Delimited = true)
    (hopen : (fine template).head? ≠ some .number) (text : List Char) :
    ∃ found, Places template text found ∧
      found.map Prod.snd = (scan template text).map Occurrence.numbers := by
  have hplace : ∀ place, template.place? text place = occurrence? template (text.drop place) := by
    intro place
    rw [place?, if_neg fun hblocked => hopen hblocked.1]
  refine ⟨(List.range text.length).filterMap fun place =>
    (occurrence? template (text.drop place)).map fun o => (place, o.numbers), ⟨?_, ?_⟩, ?_⟩
  · rw [List.map_filterMap, List.pairwise_filterMap]
    refine List.pairwise_lt_range.imp fun hlt place hp place' hp' => ?_
    simp only [Option.map_map, Option.map_eq_some_iff, Function.comp_apply] at hp hp'
    obtain ⟨-, -, rfl⟩ := hp
    obtain ⟨-, -, rfl⟩ := hp'
    exact hlt
  · intro place numbers
    simp only [List.mem_filterMap, List.mem_range, Option.map_eq_some_iff, Prod.mk.injEq,
      reads_iff hd]
    constructor
    · rintro ⟨place', -, o, ho, rfl, rfl⟩
      exact ⟨o.rest, o.covered, ho⟩
    · rintro ⟨rest, covered, ho⟩
      refine ⟨place, ?_, _, ho, rfl, rfl⟩
      by_contra hge
      rw [List.drop_of_length_le (by omega)] at ho
      exact not_reads_nil ha.ne_nil hd (reads_of_occurrence? ho)
  · rw [scan_eq_places ha, List.map_filterMap, List.map_filterMap]
    refine List.filterMap_congr fun place _ => ?_
    rw [hplace, Option.map_map]
    rfl

end BenchLedger.Text.Template
