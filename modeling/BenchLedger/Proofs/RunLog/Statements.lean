import BenchLedger.Proofs.RunLog.LineEnds
import BenchLedger.Proofs.RunLog.Overflow
import BenchLedger.Proofs.RunLog.Sections
import BenchLedger.Proofs.Text.Quiet

/-! # What states a setting

A setting is stated where its key is directly followed by a digit (`States`). The leftmost statement
counts, wherever it stands and whatever stands before it: it is taken with the digits that follow,
all of them for the heap size and one for the variant (`Takes`). So a setting is missing, or none,
or the count that these digits spell (`required_eq_iff`). A log of a heap run has the faults of its
settings before those of its sections, and those of the insertions before those of the extractions
(`HeapLog.faults_in_order`). -/

namespace BenchLedger.RunLog

open Text Template

variable {key text run after : List Char} {piece : Piece} {what : Quantity}
  {Extent : List Char → List Char → Prop}

/-! ### Statements -/

/-- **A statement at a place**: the key, and a digit directly after it. -/
def States (key text : List Char) (place : ℕ) : Prop :=
  ∃ c rest, text.drop place = key ++ c :: rest ∧ isDecimal c = true

/-- A run of digits that goes on as far as it can. -/
def Whole (_ after : List Char) : Prop := ∀ c, after.head? = some c → isDecimal c = false

/-- A run of one digit, whatever follows. -/
def Single (run _ : List Char) : Prop := run.length = 1

/-- **The digits taken**: those directly after the key in the leftmost statement, to this extent. -/
def Takes (Extent : List Char → List Char → Prop) (key text run : List Char) : Prop :=
  ∃ place after, text.drop place = key ++ (run ++ after) ∧ IsRun run ∧ Extent run after ∧
    ∀ earlier < place, ¬ States key text earlier

/-- The piece of a layout that reads runs of digits to this extent. -/
structure Measures (piece : Piece) (Extent : List Char → List Char → Prop) : Prop where
  iff (text : List Char) (o : Occurrence) : occurrence? [piece] text = some o ↔
    ∃ run after, text = run ++ after ∧ IsRun run ∧ Extent run after ∧ o = ⟨run, [run], after⟩
  exists_run (c : Char) (rest : List Char) (hc : isDecimal c = true) :
    ∃ run after, c :: rest = run ++ after ∧ IsRun run ∧ Extent run after

theorem whole_dropWhile (run text : List Char) : Whole run (text.dropWhile isDecimal) := by
  intro c hc
  have hnot := List.head?_dropWhile_not isDecimal text
  rwa [hc] at hnot

theorem measures_number : Measures .number Whole where
  iff text o := by
    rw [occurrence?_number]
    constructor
    · rintro ⟨hne, o', ho', rfl⟩
      obtain rfl : ⟨[], [], text.dropWhile isDecimal⟩ = o' := Option.some.inj ho'
      refine ⟨text.takeWhile isDecimal, text.dropWhile isDecimal,
        List.takeWhile_append_dropWhile.symm, ⟨hne, fun c hc => List.mem_takeWhile_imp hc⟩,
        whole_dropWhile _ text, by simp⟩
    · rintro ⟨run, after, rfl, hrun, hafter, rfl⟩
      obtain ⟨htake, hdrop⟩ := run_of_digits hrun.2 hafter
      rw [htake, hdrop]
      exact ⟨hrun.1, ⟨[], [], after⟩, rfl, by simp⟩
  exists_run c rest hc := by
    refine ⟨(c :: rest).takeWhile isDecimal, (c :: rest).dropWhile isDecimal,
      List.takeWhile_append_dropWhile.symm, ⟨?_, fun c hc => List.mem_takeWhile_imp hc⟩,
      whole_dropWhile _ _⟩
    rw [List.takeWhile_cons_of_pos hc]
    exact List.cons_ne_nil _ _

theorem measures_digit : Measures .digit Single where
  iff text o := by
    rw [occurrence?_digit]
    constructor
    · rintro ⟨c, rest, o', rfl, hc, ho', rfl⟩
      obtain rfl : ⟨[], [], rest⟩ = o' := Option.some.inj ho'
      exact ⟨[c], rest, rfl, ⟨List.cons_ne_nil c [], List.forall_mem_singleton.mpr hc⟩, rfl, rfl⟩
    · rintro ⟨run, after, rfl, hrun, hlength, rfl⟩
      obtain ⟨c, rfl⟩ := List.length_eq_one_iff.mp hlength
      exact ⟨c, after, ⟨[], [], after⟩, rfl, hrun.2 c List.mem_cons_self, rfl, rfl⟩
  exists_run c rest hc :=
    ⟨[c], rest, rfl, ⟨List.cons_ne_nil c [], List.forall_mem_singleton.mpr hc⟩, rfl⟩

section Measures

variable (h : Measures piece Extent)
include h

theorem Measures.occurrence?_iff {o : Occurrence} :
    occurrence? [.literal key, piece] text = some o ↔ ∃ run after,
      text = key ++ (run ++ after) ∧ IsRun run ∧ Extent run after ∧
        o = ⟨key ++ run, [run], after⟩ := by
  rw [occurrence?_literal]
  constructor
  · rintro ⟨rest, o', rfl, ho', rfl⟩
    obtain ⟨run, after, rfl, hrun, hextent, rfl⟩ := (h.iff rest o').mp ho'
    exact ⟨run, after, rfl, hrun, hextent, rfl⟩
  · rintro ⟨run, after, rfl, hrun, hextent, rfl⟩
    exact ⟨run ++ after, _, rfl, (h.iff _ _).mpr ⟨run, after, rfl, hrun, hextent, rfl⟩, rfl⟩

theorem Measures.not_states_iff {place : ℕ} :
    ¬ States key text place ↔ occurrence? [.literal key, piece] (text.drop place) = none := by
  rw [Option.eq_none_iff_forall_ne_some]
  constructor
  · intro hnot o ho
    obtain ⟨run, after, htext, hrun, -, -⟩ := h.occurrence?_iff.mp ho
    obtain ⟨c, rest, rfl⟩ := List.exists_cons_of_ne_nil hrun.1
    exact hnot ⟨c, rest ++ after, htext, hrun.2 c List.mem_cons_self⟩
  · rintro hnone ⟨c, rest, htext, hc⟩
    obtain ⟨run, after, hrest, hrun, hextent⟩ := h.exists_run c rest hc
    rw [hrest] at htext
    exact hnone _ (h.occurrence?_iff.mpr ⟨run, after, htext, hrun, hextent, rfl⟩)

theorem Measures.first?_eq_none_iff :
    first? [.literal key, piece] text = none ↔ ∀ place, ¬ States key text place := by
  rw [Template.first?_eq_none_iff]
  constructor
  · intro hnone place
    rcases Nat.lt_or_ge place text.length with hlt | hge
    · exact h.not_states_iff.mpr (hnone place hlt)
    · rintro ⟨c, rest, htext, -⟩
      rw [List.drop_of_length_le hge] at htext
      exact absurd (List.append_eq_nil_iff.mp htext.symm).2 (List.cons_ne_nil c rest)
  · exact fun hnot place _ => h.not_states_iff.mp (hnot place)

/-- **The digits taken are those of the leftmost occurrence.** -/
theorem Measures.takes_iff : Takes Extent key text run ↔
    ∃ o, first? [.literal key, piece] text = some o ∧ o.numbers = [run] := by
  constructor
  · rintro ⟨place, after, htext, hrun, hextent, hfirst⟩
    refine ⟨⟨key ++ run, [run], after⟩, first?_eq_some_iff.mpr ⟨place, ?_, ?_, ?_⟩, rfl⟩
    · by_contra hge
      rw [List.drop_of_length_le (Nat.not_lt.mp hge)] at htext
      have hnil := (List.append_eq_nil_iff.mp htext.symm).2
      exact hrun.1 (List.append_eq_nil_iff.mp hnil).1
    · exact h.occurrence?_iff.mpr ⟨run, after, htext, hrun, hextent, rfl⟩
    · exact fun earlier hlt => h.not_states_iff.mp (hfirst earlier hlt)
  · rintro ⟨o, ho, hnumbers⟩
    obtain ⟨place, -, hhere, hbefore⟩ := first?_eq_some_iff.mp ho
    obtain ⟨run', after, htext, hrun, hextent, rfl⟩ := h.occurrence?_iff.mp hhere
    obtain rfl : run' = run := List.singleton_inj.mp hnumbers
    exact ⟨place, after, htext, hrun, hextent, fun earlier hlt =>
      h.not_states_iff.mpr (hbefore earlier hlt)⟩

theorem Measures.takes_unique {other : List Char} (hrun : Takes Extent key text run)
    (hother : Takes Extent key text other) : run = other := by
  obtain ⟨o, ho, hnumbers⟩ := h.takes_iff.mp hrun
  obtain ⟨o', ho', hnumbers'⟩ := h.takes_iff.mp hother
  obtain rfl := Option.some.inj (ho.symm.trans ho')
  exact List.singleton_inj.mp (hnumbers.symm.trans hnumbers')

end Measures

/-! ### Settings -/

/-- **What a setting comes to**: it is missing if nothing states it; else it is the count that the
digits taken spell, or these are no count, for their size or for a digit of another script. -/
def Yields (Extent : List Char → List Char → Prop) (what : Quantity) (key text : List Char) :
    Except Fault UInt64 → Prop
  | .ok n => ∃ run, Takes Extent key text run ∧ Spells run n
  | .error fault => (fault = .missing what ∧ ∀ place, ¬ States key text place) ∨
      ∃ run, Takes Extent key text run ∧ (∀ n, ¬ Spells run n) ∧
        fault = .badNumber what (String.ofList run)
          (if UInt64.size ≤ leading run then .tooLarge else .badDigit)

/-- **What a setting is read as.** -/
theorem required_eq_iff (h : Measures piece Extent) {outcome : Except Fault UInt64} :
    Settings.required [.literal key, piece] what text = outcome ↔
      Yields Extent what key text outcome := by
  rw [Settings.required]
  cases hfirst : first? [.literal key, piece] text with
  | none =>
    have hnot := h.first?_eq_none_iff.mp hfirst
    have hno : ∀ run, ¬ Takes Extent key text run := by
      intro run hrun
      obtain ⟨o, ho, -⟩ := h.takes_iff.mp hrun
      rw [hfirst] at ho
      cases ho
    cases outcome with
    | ok n => simp [Yields, hno]
    | error fault => simp [Yields, hno, hnot, eq_comm]
  | some o =>
    obtain ⟨place, -, hhere, -⟩ := first?_eq_some_iff.mp hfirst
    obtain ⟨run, after, htext, hrun, -, rfl⟩ := h.occurrence?_iff.mp hhere
    have htakes : ∀ other, Takes Extent key text other ↔ other = run := by
      have hrun : Takes Extent key text run := h.takes_iff.mpr ⟨_, hfirst, rfl⟩
      exact fun other => ⟨fun hother => h.takes_unique hother hrun, fun heq => heq ▸ hrun⟩
    have hstates : ¬ ∀ place, ¬ States key text place := by
      rw [← h.first?_eq_none_iff, hfirst]
      exact Option.some_ne_none _
    show readQuantity what run = outcome ↔ _
    cases outcome with
    | ok n => simp only [Yields, htakes, exists_eq_left, readQuantity_eq_ok_iff hrun]
    | error fault =>
      simp only [Yields, htakes, exists_eq_left, readQuantity_eq_error_iff hrun, hstates,
        and_false, false_or]

theorem read_settings_eq_ok {settings : Settings} : Settings.read text = .ok settings ↔
    Settings.required Settings.heapsizeTemplate .heapsize text = .ok settings.heapsize ∧
      Settings.required Settings.isOptimizedTemplate .isOptimized text =
        .ok settings.isOptimized := by
  unfold Settings.read
  simp only [bind_eq_ok]
  constructor
  · rintro ⟨heapsize, hheapsize, isOptimized, hvariant, hsettings⟩
    obtain rfl := Except.ok.inj hsettings
    exact ⟨hheapsize, hvariant⟩
  · rintro ⟨hheapsize, hvariant⟩
    exact ⟨_, hheapsize, _, hvariant, rfl⟩

theorem read_settings_eq_error {fault : Fault} : Settings.read text = .error fault ↔
    Settings.required Settings.heapsizeTemplate .heapsize text = .error fault ∨
      (∃ n, Settings.required Settings.heapsizeTemplate .heapsize text = .ok n) ∧
        Settings.required Settings.isOptimizedTemplate .isOptimized text = .error fault := by
  unfold Settings.read
  cases Settings.required Settings.heapsizeTemplate .heapsize text with
  | error first => simp [bind, Except.bind]
  | ok heapsize =>
    cases Settings.required Settings.isOptimizedTemplate .isOptimized text <;>
      simp [bind, Except.bind, pure, Except.pure]

/-! ### Sections -/

/-- The numbers of each block of counters in the first section of an operation. -/
def sectionNumbers (operation : Operation) (lines : List Char) : List (List (List Char)) :=
  (sectionBlocks operation lines fun start => emptyLineFrom lines (start + 1)).map
    (·.tail.filterMap id)

theorem filterMap_tail_groups (o : Occurrence) : o.groups.tail.filterMap id = o.numbers := by
  simp [Occurrence.groups]

/-- **The records of a section** are those of its blocks, one after the other. -/
theorem section_comes (operation : Operation) (lines : List Char) :
    Comes (sectionRecords operation lines).outcome
      ((sectionNumbers operation lines).flatMap (blockStated false))
      fun records => List.Forall₂ Record.Holds records (sectionNumbers operation lines) := by
  rw [outcome_sectionRecords, section?_eq]
  unfold sectionNumbers sectionBlocks
  cases hstart : sectionStart? operation lines with
  | none => exact .nil .nil
  | some start =>
    dsimp only [Option.map_some, Option.getD_some]
    rw [← scan_section hstart, List.map_map]
    simp only [Function.comp_def, filterMap_tail_groups]
    have hlength : ∀ o ∈ counters.scan (upTo emptyLine (lines.drop start)),
        o.numbers.length = (blockQuantities false).length := by
      intro o ho
      obtain ⟨place, hreads⟩ := reads_of_mem_scan apart_counters ho
      rw [length_numbers hreads]
      rfl
    have hblocks := read_blocks hlength
    rwa [← List.flatMap_map] at hblocks

theorem exists_reads_of_mem_sectionNumbers {operation : Operation} {lines : List Char}
    {numbers : List (List Char)} (h : numbers ∈ sectionNumbers operation lines) :
    ∃ start place rest, sectionStart? operation lines = some start ∧ start ≤ place ∧
      ¬ counters.Blocked lines place ∧ Reads counters (lines.drop place) numbers rest ∧
      lines.length ≤ emptyLineFrom lines (start + 1) + rest.length := by
  obtain ⟨groups, hgroups, rfl⟩ := List.mem_map.mp h
  unfold sectionBlocks at hgroups
  cases hstart : sectionStart? operation lines with
  | none =>
    rw [hstart] at hgroups
    cases hgroups
  | some start =>
    rw [hstart] at hgroups
    obtain ⟨place, -, hwithin⟩ := List.mem_filterMap.mp hgroups
    obtain ⟨o, ho, rfl⟩ := Option.map_eq_some_iff.mp hwithin
    obtain ⟨hplace, hcondition⟩ := Option.filter_eq_some_iff.mp ho
    obtain ⟨hfirst, hlast⟩ : start ≤ place ∧
        place + o.covered.length ≤ emptyLineFrom lines (start + 1) := of_decide_eq_true hcondition
    have hreads := reads_of_occurrence? (place?_eq_some hplace)
    have hlength := congrArg List.length (covered_append_rest (place?_eq_some hplace))
    rw [List.length_append, List.length_drop] at hlength
    rw [filterMap_tail_groups]
    refine ⟨start, place, o.rest, rfl, hfirst, fun hblocked => ?_, hreads, by omega⟩
    rw [place?, if_pos hblocked] at hplace
    cases hplace

theorem isRun_of_sectionNumbers {operation : Operation} {lines : List Char} :
    ∀ s ∈ (sectionNumbers operation lines).flatMap (blockStated false), IsRun s.2 := by
  intro s hs
  obtain ⟨numbers, hnumbers, hs⟩ := List.mem_flatMap.mp hs
  obtain ⟨start, place, rest, -, -, -, hreads, -⟩ := exists_reads_of_mem_sectionNumbers hnumbers
  exact isRun_of_mem_blockStated hreads hs

theorem heapLog_comes {text : String} {settings : Settings}
    (h : Settings.read text.toList = .ok settings) :
    let numbers (operation : Operation) := sectionNumbers operation (unixNewlines text.toList)
    Comes (HeapLog.read text)
      ((numbers .insert).flatMap (blockStated false) ++
        (numbers .extractMin).flatMap (blockStated false))
      fun log => List.Forall₂ Record.Holds log.insert (numbers .insert) ∧
        List.Forall₂ Record.Holds log.extractMin (numbers .extractMin) := by
  unfold HeapLog.read HeapLog.journaled
  simp only [Journaled.outcome_bind, Journaled.ofExcept, read_settings_unixNewlines, h]
  exact (section_comes .insert _).bind fun insert hinsert =>
    (section_comes .extractMin _).bind_ok fun extractMin hextract => ⟨hinsert, hextract⟩

theorem heapLog_eq_error {text : String} {fault : Fault}
    (h : Settings.read text.toList = .error fault) : HeapLog.read text = .error fault := by
  unfold HeapLog.read HeapLog.journaled
  simp only [Journaled.outcome_bind, Journaled.ofExcept, read_settings_unixNewlines, h]
  rfl

/-- **The faults of a log of a heap run, in order.** The heap size is the number that all digits
after its leftmost statement spell, and the variant the one digit after its own; a setting is
missing just if nothing states it, and no number just if the digits taken spell no count. The fault
of the settings is that of the heap size or else that of the variant. It is the fault of the log; a
log with both settings has that of the first spoilt number of the insertions, or else of the
extractions. -/
theorem HeapLog.faults_in_order (text : String) :
    (∀ settings, Settings.read text.toList = .ok settings ↔
      Yields Whole .heapsize "heapsize: ".toList text.toList (.ok settings.heapsize) ∧
        Yields Single .isOptimized "is_optimized: ".toList text.toList
          (.ok settings.isOptimized)) ∧
    (∀ fault, Settings.read text.toList = .error fault ↔
      Yields Whole .heapsize "heapsize: ".toList text.toList (.error fault) ∨
        (∃ n, Yields Whole .heapsize "heapsize: ".toList text.toList (.ok n)) ∧
          Yields Single .isOptimized "is_optimized: ".toList text.toList (.error fault)) ∧
    ∀ fault, HeapLog.read text = .error fault ↔
      Settings.read text.toList = .error fault ∨
        (∃ settings, Settings.read text.toList = .ok settings) ∧
          let spoilt (operation : Operation) :=
            firstSpoilt? ((sectionNumbers operation (unixNewlines text.toList)).flatMap
              (blockStated false))
          ((spoilt .insert).map reported).or ((spoilt .extractMin).map reported) =
            some fault := by
  refine ⟨fun settings => ?_, fun fault => ?_, fun fault => ?_⟩
  · rw [read_settings_eq_ok, ← required_eq_iff measures_number, ← required_eq_iff measures_digit]
    rfl
  · simp only [read_settings_eq_error, ← required_eq_iff measures_number,
      ← required_eq_iff measures_digit]
    rfl
  · cases hsettings : Settings.read text.toList with
    | error first =>
      rw [heapLog_eq_error hsettings]
      simp
    | ok settings =>
      rw [(heapLog_comes hsettings).eq_error_iff, firstFault?_append,
        firstFault?_of_isRun isRun_of_sectionNumbers,
        firstFault?_of_isRun isRun_of_sectionNumbers]
      simp

/-- A key before another key, leading zeros, and digits after the one taken. -/
example : Settings.read "heapsize: heapsize: 007\nis_optimized: 12".toList = .ok ⟨7, 1⟩ := by
  decide +kernel

end BenchLedger.RunLog
